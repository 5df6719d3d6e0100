import CiPipeline.Proofs.Files.Effects

/-!
# Effects on the cache

What the actions on the cache leave at the places that they are asked to clear
or to fill, when they succeed.
-/

namespace CiPipeline

namespace IncludeCache

open CiPipeline.FileTree CiPipeline.Files

variable {before after : Files} {path : String}

private theorem spelled_ne_nil (named : Named path) (files : Files) :
    files.spelled path ≠ [] := by
  intro empty
  exact named.named (List.append_eq_nil_iff.mp empty).2

/-- Creating the folder that a path lies in makes folders above the location
of the path. -/
theorem builds_createParent (direct : before.Direct path) (named : Named path)
    (success : Gives (createParent path) before () after) :
    ∃ above, above <+: before.spelled path ∧ ¬ before.spelled path <+: above ∧
      Builds above before after := by
  unfold createParent Path.parent? at success
  rw [direct.steps_eq] at success
  cases names : (Path.parts path).reverse with
  | nil => exact (named.named (List.reverse_eq_nil_iff.mp names)).elim
  | cons last above =>
      have spelled : Path.parts path = above.reverse ++ [last] := by
        rw [← List.reverse_cons, ← names, List.reverse_reverse]
      rw [names] at success
      obtain ⟨parent, _, longer⟩ := direct.ofSteps spelled
      refine ⟨_, ⟨[last], longer⟩, ?_, parent.builds_createFolders success⟩
      intro below
      have shorter := below.length_le
      have lengths := congrArg List.length longer
      rw [List.length_append, List.length_singleton] at lengths
      omega

/-- Removing a stale link leaves no link. -/
theorem reshapes_unlinkStale (direct : before.Direct path) (named : Named path)
    (orderly : before.root.Orderly)
    (success : Gives (unlinkStale path) before () after) :
    Reshapes (before.spelled path) before after ∧
      (Reachable path → after.root.Unlinked (before.spelled path)) := by
  rcases of_gives_unlinkStale success with
    ⟨location, entry, located, _, rfl⟩ | ⟨notLink, rfl⟩
  · rw [named.entry] at located
    obtain ⟨rfl, _⟩ := direct.locate_leadsTo (by simp) located
    refine ⟨reshapes_put _ before (by simp), ?_⟩
    intro _ target linked
    have nothing := orderly.at?_set_none (spelled_ne_nil named before)
    cases nothing.symm.trans linked
  · refine ⟨.refl _ _, ?_⟩
    intro reachable target linked
    have isLink := (direct.hasLink_iff named).mpr ⟨reachable, target, linked⟩
    cases notLink.symm.trans isLink

/-- Clearing leaves nothing. -/
theorem reshapes_clear (direct : before.Direct path) (named : Named path)
    (orderly : before.root.Orderly)
    (unlinked : Reachable path → before.root.Unlinked (before.spelled path))
    (success : Gives (clear path) before () after) :
    Reshapes (before.spelled path) before after ∧
      after.root.at? (before.spelled path) = none := by
  rcases of_gives_clear success with ⟨_, removed⟩ | ⟨absent, rfl⟩
  · obtain ⟨location, entry, located, equal⟩ :=
      entry_of_gives_removeTree removed
    rw [named.entry] at located
    obtain ⟨rfl, _⟩ := direct.locate_leadsTo (by simp) located
    have notAbove : (Path.parts path).getLast? ≠ some ".." := by
      intro climbs
      exact (direct.down ".." (List.mem_of_getLast? climbs)).2 rfl
    cases equal notAbove
    exact ⟨reshapes_put _ before (by simp),
      orderly.at?_set_none (spelled_ne_nil named before)⟩
  · refine ⟨.refl _ _, ?_⟩
    by_contra stands
    have isSome : (after.root.at? (after.spelled path)).isSome = true :=
      Option.isSome_iff_ne_none.mpr stands
    have reachable := direct.reachable_of_has named absent isSome
    have present :=
      direct.has_of_isSome named (unlinked reachable) reachable isSome
    cases absent.symm.trans present

/-- The folder of a project is gone once its link or what is in it has
been removed. -/
theorem reshapes_removal (direct : before.Direct path) (named : Named path)
    (orderly : before.root.Orderly)
    (success : Gives (do unlinkStale path; clear path) before () after) :
    Reshapes (before.spelled path) before after ∧
      after.root.at? (before.spelled path) = none := by
  obtain ⟨_, between, unlinking, clearing⟩ := gives_bind_iff.mp success
  obtain ⟨first, unlinked⟩ :=
    reshapes_unlinkStale direct named orderly unlinking
  have same := spelled_of_here first.here path
  rw [← same] at unlinked
  obtain ⟨second, nothing⟩ :=
    reshapes_clear (direct.reshapes first) named (first.orderly orderly)
      unlinked clearing
  rw [same] at second nothing
  exact ⟨first.trans second, nothing⟩

theorem reshapes_replacement (direct : before.Direct path) (named : Named path)
    (orderly : before.root.Orderly)
    (success : Gives (do unlinkStale path; createParent path; clear path)
      before () after) :
    Reshapes (before.spelled path) before after ∧
      after.root.at? (before.spelled path) = none := by
  obtain ⟨_, between, unlinking, onwards⟩ := gives_bind_iff.mp success
  obtain ⟨_, cleared, parents, clearing⟩ := gives_bind_iff.mp onwards
  obtain ⟨first, unlinked⟩ :=
    reshapes_unlinkStale direct named orderly unlinking
  have stays := direct.reshapes first
  obtain ⟨above, prefixes, _, built⟩ := builds_createParent stays named parents
  have same := spelled_of_here first.here path
  have alsoSame := (spelled_of_here built.here path).trans same
  have second := (built.mono prefixes).reshapes
  rw [same] at second
  have noLink :
      Reachable path → cleared.root.Unlinked (cleared.spelled path) := by
    intro reachable
    rw [alsoSame]
    exact built.folders.unlinked (unlinked reachable)
  obtain ⟨third, nothing⟩ := reshapes_clear (stays.builds built) named
    (built.orderly (first.orderly orderly)) noLink clearing
  rw [alsoSame] at third nothing
  exact ⟨(first.trans second).trans third, nothing⟩

/-- What is set where a direct path leads stands there. -/
theorem at?_put_located (direct : before.Direct path)
    (named : Named path) {last : Bool}
    (unlinked : last = true → before.root.Unlinked (before.spelled path))
    {destination : Destination}
    (located : before.locate path (Path.parts path) last = .ok destination)
    (entry : FileTree) :
    destination.location = before.spelled path ∧
      (before.put destination.location (some entry)).root.at?
        (before.spelled path) = some entry := by
  have leads := direct.locate_leadsTo unlinked located
  cases destination with
  | missing location =>
      obtain ⟨rfl, _⟩ := leads
      obtain ⟨above, name, entries, spelled, folder, _⟩ :=
        (locate_eq_ok_iff.mp located).2.missing_in_folder
      refine ⟨rfl, ?_⟩
      unfold Destination.location put
      rw [spelled]
      exact at?_set_self folder name entry
  | found location standing =>
      obtain ⟨rfl, stands⟩ := leads
      have spelled :=
        (List.dropLast_concat_getLast (spelled_ne_nil named before)).symm
      rw [spelled] at stands
      obtain ⟨entries, _, folder, _⟩ := folder_of_stands stands
      refine ⟨rfl, ?_⟩
      unfold Destination.location put
      rw [spelled]
      exact at?_set_self folder _ entry

/-- A link that is made stands at its place. -/
theorem reshapes_link (direct : before.Direct path) (named : Named path)
    {target : String}
    (success : Gives (Files.link target path) before () after) :
    Reshapes (before.spelled path) before after ∧
      after.root.at? (before.spelled path) = some (.link target) := by
  obtain ⟨location, absent, _, rfl⟩ := slot_of_gives_link success
  obtain ⟨place, stands⟩ :=
    at?_put_located direct named (by simp) absent (.link target)
  refine ⟨?_, stands⟩
  rw [← place]
  refine reshapes_put _ before ?_
  rintro _ ⟨rfl⟩
  exact .link target

/-- A file that is stored stands at its place, where there was no folder. -/
theorem reshapes_store (direct : before.Direct path) (named : Named path)
    (unlinked : before.root.Unlinked (before.spelled path))
    {content : ByteArray}
    (success : Gives (store path content) before () after) :
    Reshapes (before.spelled path) before after ∧
      after.root.at? (before.spelled path) = some (.file content) ∧
      Reachable path ∧
      ∀ entries, before.root.at? (before.spelled path) ≠
        some (.folder entries) := by
  obtain ⟨_, between, parents, writing⟩ := gives_bind_iff.mp success
  obtain ⟨above, prefixes, higher, built⟩ :=
    builds_createParent direct named parents
  obtain ⟨destination, located, notFolder, rfl⟩ := locate_of_gives_write writing
  have same := spelled_of_here built.here path
  have stays := direct.builds built
  have noLink : between.root.Unlinked (between.spelled path) := by
    rw [same]
    exact built.folders.unlinked unlinked
  obtain ⟨place, stands⟩ :=
    at?_put_located stays named (fun _ => noLink) located (.file content)
  have second : Reshapes (before.spelled path) between
      (between.put destination.location (some (.file content))) := by
    rw [place, same]
    refine reshapes_put _ between ?_
    rintro _ ⟨rfl⟩
    exact .file content
  rw [same] at stands
  refine ⟨(built.mono prefixes).reshapes.trans second, stands,
    stays.reachable located, ?_⟩
  intro entries folder
  have kinds := (built.folders.alike higher).kind_eq
  rw [folder] at kinds
  obtain ⟨standing, there, isFolder⟩ := Option.map_eq_some_iff.mp kinds
  have leads := stays.locate_leadsTo (fun _ => noLink) located
  rw [same] at leads
  cases destination with
  | missing location => cases leads.2.symm.trans there
  | found location entry =>
      cases leads.2.symm.trans there
      have leaf := notFolder location standing rfl
      rw [isFolder_of_kind isFolder] at leaf
      cases leaf

end IncludeCache

end CiPipeline
