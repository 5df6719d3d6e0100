import CiPipeline.Proofs.Files.Confinement
import CiPipeline.Proofs.Files.Runs
import CiPipeline.Proofs.Files.Ways

/-!
# Effects of file actions

A path is direct when its names lead straight down, past no link above the
location that they spell.  An action on a direct path makes way to that
location, and it is known what stands there when the action succeeds.
-/

namespace CiPipeline

namespace FileTree

variable {tree entry : FileTree} {last : Bool} {links : Nat}
  {start names : List String}

private theorem Walks.short {here : List String} {destination : Destination}
    (walks : Walks tree last links here names destination) :
    ∀ name ∈ names,
      name ≠ "." → name ≠ ".." → name.utf8ByteSize ≤ longestName := by
  induction walks with
  | here => simp
  | point _ _ induction =>
      intro name member notHere
      exact induction name
        ((List.mem_cons.mp member).resolve_left notHere) notHere
  | above _ _ induction =>
      intro name member notHere notAbove
      exact induction name ((List.mem_cons.mp member).resolve_left notAbove)
        notHere notAbove
  | missing _ plain =>
      intro name member _ _
      rw [List.mem_singleton.mp member]
      exact plain.short
  | stop _ plain =>
      intro name member _ _
      rw [List.mem_singleton.mp member]
      exact plain.short
  | jump _ plain _ _ _ induction =>
      intro name member notHere notAbove
      rcases List.mem_cons.mp member with rfl | inRest
      · exact plain.short
      · exact induction name (List.mem_append_right _ inRest) notHere notAbove
  | down _ plain _ _ _ induction =>
      intro name member notHere notAbove
      rcases List.mem_cons.mp member with rfl | inRest
      · exact plain.short
      · exact induction name inRest notHere notAbove

/-- A folder stands above every entry, and the entry of the next name in it. -/
theorem folder_of_stands {name : String} {rest : List String}
    (stands : tree.at? (start ++ name :: rest) = some entry) :
    ∃ entries child, tree.at? start = some (.folder entries) ∧
      entries.lookup name = some child ∧ child.at? rest = some entry ∧
      tree.at? (start ++ [name]) = some child := by
  rw [at?_append] at stands
  obtain ⟨standing, there, below⟩ := Option.bind_eq_some_iff.mp stands
  cases standing with
  | file content => cases below
  | link target => cases below
  | folder entries =>
      obtain ⟨child, found, deeper⟩ := Option.bind_eq_some_iff.mp below
      have child? : entries.lookup name = some child := found
      refine ⟨entries, child, there, child?, deeper, ?_⟩
      rw [at?_append, there]
      simp [child?]

theorem folder_of_set_below {tree : FileTree} {location : List String}
    {name : String} {entry : FileTree}
    (folder : (tree.at? location).map kind = some .folder) :
    ((tree.set (location ++ [name]) (some entry)).at? location).map kind =
      some .folder := by
  obtain ⟨entries, there⟩ := exists_of_folder folder
  obtain ⟨others, _, stays, _⟩ :=
    folder_of_stands (at?_set_self there name entry)
  rw [stays]
  rfl

theorem alike_of_set_below {first second : FileTree} {location : List String}
    {name : String} {entry : FileTree}
    (alike : Alike (first.at? location) (second.at? location))
    (folder : (first.at? location).map kind = some .folder) :
    Alike ((first.set (location ++ [name]) (some entry)).at? location)
      ((second.set (location ++ [name]) (some entry)).at? location) := by
  obtain ⟨entries, there⟩ := exists_of_folder folder
  obtain ⟨others, alsoThere⟩ :=
    exists_of_folder (alike.kind_eq.symm.trans folder)
  rw [alike_at?_iff]
  intro rest
  by_cases below : location ++ [name] <+: location ++ rest
  · obtain ⟨deeper, spelled⟩ := below
    rw [← spelled, at?_append _ (location ++ [name]), at?_append _ (location ++
      [name]), at?_set_self there, at?_set_self alsoThere]
  · rw [sameBeside_set first _ _ _ below, sameBeside_set second _ _ _ below]
    exact alike_at?_iff.mp alike rest

/-- Names lead down to an entry that stands where they spell. -/
theorem walks_of_stands (down : ∀ name ∈ names, name ≠ "." ∧ name ≠ "..")
    (short : ∀ name ∈ names, name.utf8ByteSize ≤ longestName)
    (stands : tree.at? (start ++ names) = some entry)
    (stops : last = true → entry.isLink = false) :
    Walks tree last links start.reverse names
      (.found (start ++ names) entry) := by
  induction names generalizing start with
  | nil =>
      rw [List.append_nil] at stands ⊢
      have here : tree.at? start.reverse.reverse = some entry := by
        rwa [List.reverse_reverse]
      simpa using Walks.here here
  | cons name rest induction =>
      obtain ⟨entries, child, folder, found, deeper, there⟩ :=
        folder_of_stands stands
      rw [← List.reverse_reverse start] at folder
      have plain : Plain name :=
        ⟨(down name (by simp)).1, (down name (by simp)).2, short name (by simp)⟩
      cases rest with
      | nil =>
          cases deeper
          have place :
              start ++ [name] = (name :: start.reverse).reverse := by simp
          rw [place]
          exact .child folder plain found stops
      | cons second others =>
          have notLink : child.isLink = false := by
            cases child with
            | link target => cases deeper
            | file content => rfl
            | folder entries => rfl
          have further := @induction (start ++ [name])
            (fun other member => down other (List.mem_cons_of_mem _ member))
            (fun other member => short other (List.mem_cons_of_mem _ member))
            (by simpa using stands)
          refine .down folder plain found notLink ?_
          simpa using further

/-- Names of which one is too long fail for that reason when an entry stands
where they spell. -/
theorem follow_of_long (down : ∀ name ∈ names, name ≠ "." ∧ name ≠ "..")
    (stands : tree.at? (start ++ names) = some entry)
    (long : ∃ name ∈ names, longestName < name.utf8ByteSize) :
    tree.follow last links start.reverse names = .error .nameTooLong := by
  obtain ⟨jump, follows⟩ := exists_followNames tree last links
  rw [follows]
  induction names generalizing start with
  | nil => simp at long
  | cons name rest induction =>
      obtain ⟨entries, child, folder, found, deeper, there⟩ :=
        folder_of_stands stands
      obtain ⟨notHere, notAbove⟩ := down name (by simp)
      rw [followNames, List.reverse_reverse, folder]
      simp only [isFolder, child?, found, notHere, notAbove, beq_iff_eq,
        Bool.not_true, Bool.false_eq_true, if_false]
      split
      · rfl
      · rename_i short
        obtain ⟨other, member, tooLong⟩ := long
        have inRest : other ∈ rest := by
          rcases List.mem_cons.mp member with rfl | inRest
          · exact (short tooLong).elim
          · exact inRest
        have further := @induction (start ++ [name])
          (fun other member => down other (List.mem_cons_of_mem _ member))
          (by simpa using stands) ⟨other, inRest, tooLong⟩
        cases child with
        | link target =>
            cases rest with
            | nil => cases inRest
            | cons second others => cases deeper
        | file content => simpa using further
        | folder others => simpa using further

end FileTree

namespace Files

open CiPipeline.FileTree

variable {files before between after : Files} {path : String}

/-- The location that a path spells. -/
def spelled (files : Files) (path : String) : List String :=
  (if Path.isAbsolute path then [] else files.here) ++ Path.parts path

/-- A path whose names lead straight down, past no link above the location that
they spell. -/
structure Direct (files : Files) (path : String) : Prop where
  down : ∀ name ∈ Path.parts path, name ≠ "." ∧ name ≠ ".."
  unlinked : ∀ above,
    above <+: files.spelled path → above ≠ files.spelled path →
    files.root.Unlinked above

/-- A path with names, and without a slash at its end. -/
structure Named (path : String) : Prop where
  named : Path.parts path ≠ []
  bare : Path.endsWithSlash path = false

theorem direct_iff :
    ((∀ name ∈ Path.parts path, name ≠ "." ∧ name ≠ "..") ∧
        ∀ count < (files.spelled path).length,
          files.root.Unlinked ((files.spelled path).take count)) ↔
      files.Direct path := by
  constructor
  · rintro ⟨down, unlinked⟩
    refine ⟨down, ?_⟩
    intro above prefixes proper
    rw [List.prefix_iff_eq_take.mp prefixes]
    apply unlinked
    apply Nat.lt_of_le_of_ne prefixes.length_le
    intro sameLength
    exact proper (prefixes.eq_of_length sameLength)
  · intro direct
    refine ⟨direct.down, ?_⟩
    intro count shorter
    apply direct.unlinked _ (List.take_prefix _ _)
    intro whole
    have sameLength := congrArg List.length whole
    rw [List.length_take] at sameLength
    omega

instance (files : Files) (path : String) : Decidable (files.Direct path) :=
  decidable_of_iff _ direct_iff

instance (path : String) : Decidable (Named path) :=
  decidable_of_iff (Path.parts path ≠ [] ∧ Path.endsWithSlash path = false)
    ⟨fun both => ⟨both.1, both.2⟩, fun named => ⟨named.named, named.bare⟩⟩

/-- A path that may be looked up and none of whose names is too long. -/
structure Reachable (path : String) : Prop where
  permitted : Permitted path
  short : ∀ name ∈ Path.parts path, name.utf8ByteSize ≤ longestName

/-! ## Looking up direct paths -/

private theorem spelled_start (files : Files) (path : String) :
    (if Path.isAbsolute path then [] else files.here.reverse) =
      (if Path.isAbsolute path then [] else files.here).reverse := by
  split <;> rfl

theorem Direct.locate_leadsTo (direct : files.Direct path) {last : Bool}
    (atEnd : last = true → files.root.Unlinked (files.spelled path))
    {destination : Destination}
    (success : files.locate path (Path.parts path) last = .ok destination) :
    files.root.LeadsTo (files.spelled path) destination := by
  have walks := (locate_eq_ok_iff.mp success).2
  rw [spelled_start] at walks
  have leads := walks.leadsTo direct.down
  rw [List.reverse_reverse] at leads
  refine leads ?_
  intro above prefixes followed
  by_cases whole : above = files.spelled path
  · rcases followed with proper | atLast
    · exact (proper whole).elim
    · exact whole ▸ atEnd atLast
  · exact direct.unlinked above prefixes whole

theorem Direct.reachable (direct : files.Direct path) {last : Bool}
    {destination : Destination}
    (success : files.locate path (Path.parts path) last = .ok destination) :
    Reachable path := by
  obtain ⟨permitted, walks⟩ := locate_eq_ok_iff.mp success
  refine ⟨permitted, ?_⟩
  intro name member
  obtain ⟨notHere, notAbove⟩ := direct.down name member
  exact walks.short name member notHere notAbove

private theorem Direct.locate_of_stands (direct : files.Direct path)
    (reachable : Reachable path) {last : Bool} {entry : FileTree}
    (stands : files.root.at? (files.spelled path) = some entry)
    (stops : last = true → entry.isLink = false) :
    files.locate path (Path.parts path) last =
      .ok (.found (files.spelled path) entry) := by
  rw [locate_eq_ok_iff, spelled_start]
  exact ⟨reachable.permitted,
    walks_of_stands direct.down reachable.short stands stops⟩

private theorem Named.present (named : Named path) : path.isEmpty = false := by
  by_contra empty
  have isEmpty : path = "" := by simpa using empty
  exact named.named (isEmpty ▸ Path.parts_empty)

theorem Named.target (named : Named path) :
    files.target path = files.locate path (Path.parts path) true := by
  unfold Files.target
  rw [names_of_bare named.bare]

theorem Named.entry (named : Named path) :
    files.entry path = files.locate path (Path.parts path) false := by
  unfold Files.entry
  rw [names_of_bare named.bare]

/-- A path at whose location something stands is reachable if it can be asked
whether it is there. -/
theorem Direct.reachable_of_has (direct : files.Direct path)
    (named : Named path) {present : Bool} (asked : files.has path = .ok present)
    (stands : (files.root.at? (files.spelled path)).isSome = true) :
    Reachable path := by
  obtain ⟨entry, there⟩ := Option.isSome_iff_exists.mp stands
  unfold has at asked
  rw [named.target] at asked
  have valid : '\x00' ∉ path.toList := by
    intro invalid
    have failed :
        files.locate path (Path.parts path) true = .error .invalidName := by
      unfold locate
      rw [if_neg (by simp [named.present]), if_pos (by simpa using invalid)]
    rw [failed] at asked
    cases asked
  have short : path.utf8ByteSize < pathLimit := by
    by_contra tooLong
    have failed :
        files.locate path (Path.parts path) true = .error .nameTooLong := by
      unfold locate
      rw [if_neg (by simp [named.present]), if_neg (by simpa using valid),
        if_pos (Nat.le_of_not_lt tooLong)]
    rw [failed] at asked
    cases asked
  refine ⟨⟨named.present, valid, short⟩, ?_⟩
  intro name member
  by_contra tooLong
  have long : files.root.follow true mostLinks
      (if Path.isAbsolute path then [] else files.here).reverse
      (Path.parts path) = .error .nameTooLong :=
    follow_of_long direct.down there ⟨name, member, Nat.lt_of_not_le tooLong⟩
  have failed :
      files.locate path (Path.parts path) true = .error .nameTooLong := by
    unfold locate
    rw [if_neg (by simp [named.present]), if_neg (by simpa using valid),
      if_neg (Nat.not_le.mpr short), spelled_start, long]
  rw [failed] at asked
  cases asked

/-- Whether there is something at a direct path, when the path can
be looked up. -/
theorem Direct.of_has (direct : files.Direct path) (named : Named path)
    (unlinked : files.root.Unlinked (files.spelled path)) {present : Bool}
    (asked : files.has path = .ok present) :
    (files.root.at? (files.spelled path)).isSome = present ∧
      (present = true → Reachable path) := by
  cases stands : files.root.at? (files.spelled path) with
  | some entry =>
      have reachable := direct.reachable_of_has named asked (by simp [stands])
      have notLink : entry.isLink = false := by
        cases entry with
        | link target => exact (unlinked target stands).elim
        | file content => rfl
        | folder entries => rfl
      have found : files.has path = .ok true := by
        rw [has_eq_true_iff, named.target]
        exact ⟨_, _, direct.locate_of_stands reachable stands fun _ => notLink⟩
      cases asked.symm.trans found
      exact ⟨rfl, fun _ => reachable⟩
  | none =>
      cases present with
      | false => exact ⟨rfl, by simp⟩
      | true =>
          obtain ⟨location, entry, target⟩ := has_eq_true_iff.mp asked
          rw [named.target] at target
          obtain ⟨_, there⟩ := direct.locate_leadsTo (fun _ => unlinked) target
          cases stands.symm.trans there

theorem Direct.has_of_isSome (direct : files.Direct path) (named : Named path)
    (unlinked : files.root.Unlinked (files.spelled path))
    (reachable : Reachable path)
    (stands : (files.root.at? (files.spelled path)).isSome = true) :
    files.has path = .ok true := by
  obtain ⟨entry, there⟩ := Option.isSome_iff_exists.mp stands
  rw [has_eq_true_iff, named.target]
  refine ⟨_, _, direct.locate_of_stands reachable there ?_⟩
  intro _
  cases entry with
  | link target => exact (unlinked target there).elim
  | file content => rfl
  | folder entries => rfl

theorem Direct.hasLink_iff (direct : files.Direct path) (named : Named path) :
    files.hasLink path = true ↔
      Reachable path ∧ ∃ target,
        files.root.at? (files.spelled path) = some (.link target) := by
  unfold hasLink
  rw [named.entry]
  constructor
  · intro linked
    split at linked
    · rename_i location entry located
      obtain ⟨_, there⟩ := direct.locate_leadsTo (by simp) located
      obtain ⟨target, rfl⟩ := exists_link_of_isLink linked
      exact ⟨direct.reachable located, target, there⟩
    · cases linked
  · rintro ⟨reachable, target, there⟩
    rw [direct.locate_of_stands reachable there (by simp)]
    rfl

/-- There is a folder at a direct path that is no link only if one stands at
its location. -/
theorem Direct.folder_of_hasFolder (direct : files.Direct path)
    (named : Named path) (unlinked : files.root.Unlinked (files.spelled path))
    (has : files.hasFolder path = true) :
    (files.root.at? (files.spelled path)).map kind = some .folder := by
  unfold hasFolder at has
  rw [named.target] at has
  split at has
  · rename_i location entry located
    obtain ⟨_, there⟩ := direct.locate_leadsTo (fun _ => unlinked) located
    rw [there]
    cases entry with
    | folder entries => rfl
    | file content => cases has
    | link target => cases has
  · cases has

/-! ## Effects -/

/-- What an action does that makes way to a location. -/
structure Reshapes (location : List String) (before after : Files) : Prop where
  here : after.here = before.here
  orderly : before.root.Orderly → after.root.Orderly
  way : MakesWay location before.root after.root

/-- What an action does that makes the folders that lead to a location. -/
structure Builds (location : List String) (before after : Files) : Prop where
  here : after.here = before.here
  orderly : before.root.Orderly → after.root.Orderly
  folders : MakesFolders location before.root after.root

section

variable {location : List String}

theorem Reshapes.refl (location : List String) (files : Files) :
    Reshapes location files files :=
  ⟨rfl, id, .refl _ _⟩

theorem Reshapes.trans (first : Reshapes location before between)
    (second : Reshapes location between after) :
    Reshapes location before after :=
  ⟨second.here.trans first.here, second.orderly ∘ first.orderly,
    first.way.trans second.way⟩

theorem Builds.refl (location : List String) (files : Files) :
    Builds location files files :=
  ⟨rfl, id, .refl _ _⟩

theorem Builds.trans (first : Builds location before between)
    (second : Builds location between after) : Builds location before after :=
  ⟨second.here.trans first.here, second.orderly ∘ first.orderly,
    first.folders.trans second.folders⟩

theorem Builds.mono {above : List String} (builds : Builds above before after)
    (prefixes : above <+: location) : Builds location before after :=
  ⟨builds.here, builds.orderly, builds.folders.mono prefixes⟩

theorem Builds.reshapes (builds : Builds location before after) :
    Reshapes location before after :=
  ⟨builds.here, builds.orderly, builds.folders.makesWay⟩

/-- Setting an entry makes way to its location. -/
theorem reshapes_put (location : List String) (files : Files)
    {entry : Option FileTree}
    (orderly : ∀ fresh, entry = some fresh → fresh.Orderly) :
    Reshapes location files (files.put location entry) :=
  ⟨rfl, fun before => before.set location orderly,
    (sameBeside_set files.root location entry).makesWay⟩

theorem spelled_of_here (same : after.here = before.here) (path : String) :
    after.spelled path = before.spelled path := by
  unfold spelled
  rw [same]

/-- A path stays direct under changes at its own location. -/
theorem Direct.reshapes (direct : before.Direct path)
    (reshapes : Reshapes (before.spelled path) before after) :
    after.Direct path := by
  refine ⟨direct.down, ?_⟩
  rw [spelled_of_here reshapes.here]
  intro above prefixes proper
  refine reshapes.way.unlinked ?_ (direct.unlinked above prefixes proper)
  intro below
  exact proper (prefixes.eq_of_length_le below.length_le)

theorem Direct.builds (direct : before.Direct path)
    (builds : Builds location before after) :
    after.Direct path := by
  refine ⟨direct.down, ?_⟩
  rw [spelled_of_here builds.here]
  intro above prefixes proper
  exact builds.folders.unlinked (direct.unlinked above prefixes proper)

end

/-! ## Creating folders -/

/-- Creating a folder at a direct path makes a folder at its location. -/
theorem Direct.builds_createFolder (direct : before.Direct path)
    (success : Gives (createFolder path) before () after) :
    Builds (before.spelled path) before after ∧
      (after.root.at? (before.spelled path)).map kind = some .folder := by
  obtain ⟨location, absent, rfl⟩ := gives_createFolder_iff.mp success
  obtain ⟨above, name, entries, rfl, folder, missing⟩ :=
    (locate_eq_ok_iff.mp absent).2.missing_in_folder
  obtain ⟨place, nothing⟩ := direct.locate_leadsTo (by simp) absent
  have placed := at?_set_self folder name .empty
  rw [← place] at nothing ⊢
  constructor
  · refine ⟨rfl, fun orderly =>
      orderly.set _ (by rintro _ ⟨rfl⟩; exact orderly_empty), ?_⟩
    intro other
    by_cases below : above ++ [name] <+: other
    · obtain ⟨rest, rfl⟩ := below
      cases rest with
      | nil =>
          rw [List.append_nil]
          exact .inr ⟨List.prefix_rfl, nothing,
            congrArg (Option.map kind) placed⟩
      | cons first others =>
          refine .inl ?_
          unfold put
          rw [at?_append _ (above ++ [name]) (first :: others), placed,
            at?_append _ (above ++ [name]) (first :: others), nothing]
          rfl
    · exact .inl (sameBeside_set before.root _ _ other below)
  · exact congrArg (Option.map kind) placed

private theorem Direct.builds_requireFolder (direct : before.Direct path)
    (success : Gives (requireFolder path) before () after) :
    Builds (before.spelled path) before after := by
  rcases created_of_requireFolder success with
    ⟨location, absent, equal⟩ | ⟨_, rfl⟩
  · exact (direct.builds_createFolder
      (gives_createFolder_iff.mpr ⟨location, absent, equal⟩)).1
  · exact .refl _ _

private theorem Direct.folder_of_requireFolder (direct : before.Direct path)
    (named : Named path) (unlinked : before.root.Unlinked (before.spelled path))
    (success : Gives (requireFolder path) before () after) :
    (after.root.at? (before.spelled path)).map kind = some .folder := by
  rcases created_of_requireFolder success with
    ⟨location, absent, equal⟩ | ⟨has, rfl⟩
  · exact (direct.builds_createFolder
      (gives_createFolder_iff.mpr ⟨location, absent, equal⟩)).2
  · exact direct.folder_of_hasFolder named unlinked has

/-- The path of the first names of a direct path is direct. -/
theorem Direct.ofSteps (direct : files.Direct path) {front back : List String}
    (spelled : Path.parts path = front ++ back) :
    files.Direct (Path.ofSteps (Path.isAbsolute path) front) ∧
      Path.parts (Path.ofSteps (Path.isAbsolute path) front) = front ∧
      files.spelled (Path.ofSteps (Path.isAbsolute path) front) ++ back =
        files.spelled path := by
  have areNames : ∀ name ∈ front, Path.IsName name := by
    intro name member
    have inPath : name ∈ Path.parts path := by simp [spelled, member]
    exact Path.isName_of_mem_parts inPath
  have names := Path.parts_ofSteps (Path.isAbsolute path) areNames
  have longer :
      files.spelled (Path.ofSteps (Path.isAbsolute path) front) ++ back =
        files.spelled path := by
    unfold Files.spelled
    rw [Path.isAbsolute_ofSteps _ areNames, names, spelled, List.append_assoc]
  have shorter : files.spelled (Path.ofSteps (Path.isAbsolute path) front) <+:
      files.spelled path := ⟨back, longer⟩
  refine ⟨⟨?_, ?_⟩, names, longer⟩
  · intro name member
    rw [names] at member
    exact direct.down name (by simp [spelled, member])
  · intro above prefixes proper
    apply direct.unlinked above (prefixes.trans shorter)
    rintro rfl
    exact proper (prefixes.eq_of_length_le shorter.length_le)

private theorem Direct.builds_createFoldersAlong {names : List String}
    (direct : before.Direct path) (spelled : Path.parts path = names.reverse)
    (success : Gives (createFoldersAlong path names) before () after) :
    Builds (before.spelled path) before after := by
  -- The path above is put together again from its names; its folders are made
  -- first.
  induction names generalizing path before after with
  | nil =>
      rw [createFoldersAlong] at success
      split at success
      · cases (gives_pure_iff.mp success).2
        exact .refl _ _
      · exact direct.builds_requireFolder success
  | cons name above induction =>
      rw [List.reverse_cons] at spelled
      obtain ⟨parent, parentSpelled, longer⟩ := direct.ofSteps spelled
      rcases gives_createFoldersAlong success with
        required | ⟨between, created, required⟩
      · exact direct.builds_requireFolder required
      · have built := (induction parent parentSpelled created).mono ⟨_, longer⟩
        have last := (direct.builds built).builds_requireFolder required
        rw [spelled_of_here built.here] at last
        exact built.trans last

theorem Direct.steps_eq (direct : files.Direct path) :
    Path.steps path = Path.parts path := by
  unfold Path.steps
  rw [List.filter_eq_self]
  intro name member
  simpa using (direct.down name member).1

theorem Direct.builds_createFolders (direct : before.Direct path)
    (success : Gives (createFolders path) before () after) :
    Builds (before.spelled path) before after := by
  refine direct.builds_createFoldersAlong ?_ success
  rw [List.reverse_reverse, direct.steps_eq]

/-- Creating folders leaves a folder at a direct path that is no link. -/
theorem Direct.folder_of_createFolders (direct : before.Direct path)
    (named : Named path) (unlinked : before.root.Unlinked (before.spelled path))
    (success : Gives (createFolders path) before () after) :
    (after.root.at? (before.spelled path)).map kind = some .folder := by
  unfold createFolders at success
  cases names : (Path.steps path).reverse with
  | nil =>
      rw [List.reverse_eq_nil_iff, direct.steps_eq] at names
      exact (named.named names).elim
  | cons name above =>
      rw [names] at success
      have spelled : Path.parts path = above.reverse ++ [name] := by
        rw [← direct.steps_eq, ← List.reverse_cons, ← names,
          List.reverse_reverse]
      obtain ⟨parent, parentSpelled, longer⟩ := direct.ofSteps spelled
      rcases gives_createFoldersAlong success with
        required | ⟨between, created, required⟩
      · exact direct.folder_of_requireFolder named unlinked required
      · have built := parent.builds_createFoldersAlong parentSpelled created
        rw [← spelled_of_here built.here path]
        refine (direct.builds built).folder_of_requireFolder named ?_ required
        rw [spelled_of_here built.here]
        exact built.folders.unlinked unlinked

/-- Creating folders leaves an empty folder at a direct path where
nothing was. -/
theorem Direct.empty_of_createFolders (direct : before.Direct path)
    (named : Named path) (absent : before.root.at? (before.spelled path) = none)
    (success : Gives (createFolders path) before () after) :
    Alike (after.root.at? (before.spelled path)) (some .empty) := by
  have unlinked : before.root.Unlinked (before.spelled path) := by
    intro target linked
    cases absent.symm.trans linked
  refine alike_empty (direct.folder_of_createFolders named unlinked success) ?_
  intro name rest
  rw [← at?_append]
  have aside :
      ¬ before.spelled path ++ name :: rest <+: before.spelled path := by
    intro shorter
    have lengths := shorter.length_le
    rw [List.length_append, List.length_cons] at lengths
    omega
  have same :=
    ((direct.builds_createFolders success).folders.alike aside).kind_eq
  rw [at?_append before.root, absent] at same
  exact Option.map_eq_none_iff.mp same

end Files

end CiPipeline
