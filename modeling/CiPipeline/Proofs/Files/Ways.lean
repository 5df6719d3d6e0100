import CiPipeline.Proofs.Files.Walks

/-!
# Changes that make way

A change at a location may make folders on the way to it and leaves everything
else as it was.  Such changes at locations of which neither lies in the other do
not disturb each other.
-/

namespace CiPipeline

namespace FileTree

variable {location : List String}

/-! ## Entries that are alike -/

/-- Whether two entries have the same kinds at the same names below them.  The
order of names does not count. -/
def Alike (first second : Option FileTree) : Prop :=
  ∀ rest, (first.bind (·.at? rest)).map kind =
    (second.bind (·.at? rest)).map kind

namespace Alike

variable {first second third : Option FileTree}

theorem refl (entry : Option FileTree) : Alike entry entry := fun _ => rfl

theorem symm (alike : Alike first second) : Alike second first :=
  fun rest => (alike rest).symm

theorem trans (left : Alike first second) (right : Alike second third) :
    Alike first third :=
  fun rest => (left rest).trans (right rest)

theorem kind_eq (alike : Alike first second) :
    first.map kind = second.map kind := by
  have whole := alike []
  cases first <;> cases second <;> exact whole

theorem isSome_eq (alike : Alike first second) :
    first.isSome = second.isSome := by
  have same := congrArg Option.isSome alike.kind_eq
  rwa [Option.isSome_map, Option.isSome_map] at same

theorem eq_none (alike : Alike first none) : first = none := by
  have same := alike.isSome_eq
  exact Option.isSome_eq_false_iff.mp same |> Option.isNone_iff_eq_none.mp

theorem eq_link (alike : Alike first second) {target : String}
    (linked : first = some (.link target)) : second = some (.link target) := by
  have kinds := alike.kind_eq
  rw [linked] at kinds
  exact eq_some_link kinds.symm

/-- What lies below entries that are alike is alike. -/
theorem below (alike : Alike first second) (names : List String) :
    Alike (first.bind (·.at? names)) (second.bind (·.at? names)) := by
  intro rest
  have deeper := alike (names ++ rest)
  simp only [at?_append] at deeper
  rwa [Option.bind_assoc, Option.bind_assoc]

end Alike

/-- A folder in which nothing stands is the empty one. -/
theorem alike_empty {entry : Option FileTree}
    (folder : entry.map kind = some .folder)
    (nothing : ∀ name rest, entry.bind (·.at? (name :: rest)) = none) :
    Alike entry (some .empty) := by
  obtain ⟨standing, rfl, kinds⟩ := Option.map_eq_some_iff.mp folder
  intro rest
  cases rest with
  | nil => exact folder
  | cons name others => rw [nothing name others]; rfl

theorem alike_at?_iff {first second : FileTree} :
    Alike (first.at? location) (second.at? location) ↔
      ∀ rest, (first.at? (location ++ rest)).map kind =
        (second.at? (location ++ rest)).map kind := by
  simp only [Alike, at?_append]

/-! ## Making way -/

/-- Whether nothing has changed but for folders that were made on the way to a
location and at it. -/
def MakesFolders (location : List String) (before after : FileTree) : Prop :=
  ∀ other, (after.at? other).map kind = (before.at? other).map kind ∨
    other <+: location ∧ before.at? other = none ∧
      (after.at? other).map kind = some .folder

/-- Whether nothing has changed beside a location but for folders that were made
on the way to it. -/
def MakesWay (location : List String) (before after : FileTree) : Prop :=
  ∀ other, ¬ location <+: other →
    (after.at? other).map kind = (before.at? other).map kind ∨
      other <+: location ∧ before.at? other = none ∧
        (after.at? other).map kind = some .folder

section

variable {before between after : FileTree}

theorem MakesFolders.refl (location : List String) (tree : FileTree) :
    MakesFolders location tree tree := fun _ => .inl rfl

/-- Two changes in a row at one name, each of which makes a
folder or nothing. -/
theorem made_trans {other : List String} {way : Prop}
    (first : (between.at? other).map kind = (before.at? other).map kind ∨
      way ∧ before.at? other = none ∧
        (between.at? other).map kind = some .folder)
    (second : (after.at? other).map kind = (between.at? other).map kind ∨
      way ∧ between.at? other = none ∧
        (after.at? other).map kind = some .folder) :
    (after.at? other).map kind = (before.at? other).map kind ∨
      way ∧ before.at? other = none ∧
        (after.at? other).map kind = some .folder := by
  rcases first with same | ⟨onWay, absent, made⟩
  · rcases second with alsoSame | ⟨onWay, absent, made⟩
    · exact .inl (alsoSame.trans same)
    · refine .inr ⟨onWay, ?_, made⟩
      rw [absent] at same
      exact Option.map_eq_none_iff.mp same.symm
  · rcases second with same | ⟨_, nowAbsent, _⟩
    · exact .inr ⟨onWay, absent, same.trans made⟩
    · rw [nowAbsent] at made
      cases made

theorem MakesFolders.trans (first : MakesFolders location before between)
    (second : MakesFolders location between after) :
    MakesFolders location before after :=
  fun other => made_trans (first other) (second other)

theorem MakesFolders.mono {above : List String}
    (makes : MakesFolders above before after) (prefixes : above <+: location) :
    MakesFolders location before after := by
  intro other
  rcases makes other with same | ⟨towards, absent, made⟩
  · exact .inl same
  · exact .inr ⟨towards.trans prefixes, absent, made⟩

theorem MakesFolders.makesWay (makes : MakesFolders location before after) :
    MakesWay location before after := fun other _ => makes other

theorem MakesWay.refl (location : List String) (tree : FileTree) :
    MakesWay location tree tree :=
  fun _ _ => .inl rfl

theorem MakesWay.trans (first : MakesWay location before between)
    (second : MakesWay location between after) :
    MakesWay location before after :=
  fun other beside => made_trans (first other beside) (second other beside)

theorem SameBeside.makesWay (same : SameBeside location before after) :
    MakesWay location before after :=
      fun other beside => .inl (same other beside)

/-- Folders that are made on the way to a location leave alone what does not lie
on the way. -/
theorem MakesFolders.alike (makes : MakesFolders location before after)
    {other : List String} (aside : ¬ other <+: location) :
    Alike (after.at? other) (before.at? other) := by
  rw [alike_at?_iff]
  intro rest
  rcases makes (other ++ rest) with same | ⟨towards, _⟩
  · exact same
  · exact (aside ((List.prefix_append other rest).trans towards)).elim

/-- Locations of which neither lies in the other. -/
def Incomparable (first second : List String) : Prop :=
  ¬ first <+: second ∧ ¬ second <+: first

/-- A change at a location leaves alone what lies apart from it. -/
theorem MakesWay.alike (makes : MakesWay location before after)
    {other : List String} (apart : Incomparable location other) :
    Alike (after.at? other) (before.at? other) := by
  rw [alike_at?_iff]
  intro rest
  have beside : ¬ location <+: other ++ rest := by
    intro below
    rcases List.prefix_or_prefix_of_prefix below (List.prefix_append other rest)
      with inside | outside
    · exact apart.1 inside
    · exact apart.2 outside
  rcases makes (other ++ rest) beside with same | ⟨towards, _⟩
  · exact same
  · exact (apart.2 ((List.prefix_append other rest).trans towards)).elim

/-- No link comes where nothing changes or a folder is made. -/
theorem unlinked_of_made {other : List String} {way : Prop}
    (unlinked : before.Unlinked other)
    (made : (after.at? other).map kind = (before.at? other).map kind ∨
      way ∧ before.at? other = none ∧
        (after.at? other).map kind = some .folder) :
    after.Unlinked other := by
  intro target linked
  rcases made with same | ⟨_, _, made⟩
  · rw [linked] at same
    exact unlinked target (eq_some_link same.symm)
  · rw [linked] at made
    cases made

theorem MakesFolders.unlinked (makes : MakesFolders location before after)
    {other : List String} (unlinked : before.Unlinked other) :
    after.Unlinked other :=
  unlinked_of_made unlinked (makes other)

/-- A change at a location makes no link beside it. -/
theorem MakesWay.unlinked (makes : MakesWay location before after)
    {other : List String} (beside : ¬ location <+: other)
    (unlinked : before.Unlinked other) : after.Unlinked other :=
  unlinked_of_made unlinked (makes other beside)

/-- What stands beside a location still stands there after a change at
the location. -/
theorem MakesWay.isSome (makes : MakesWay location before after)
    {other : List String} (beside : ¬ location <+: other)
    (stands : (before.at? other).isSome = true) :
    (after.at? other).isSome = true := by
  rcases makes other beside with same | ⟨_, _, made⟩
  · have still := congrArg Option.isSome same
    rwa [Option.isSome_map, Option.isSome_map, stands] at still
  · have still := congrArg Option.isSome made
    rwa [Option.isSome_map] at still

end

/-! ## Names that occur once -/

/-- A tree in whose folders no name occurs twice. -/
inductive Orderly : FileTree → Prop where
  | file (content : ByteArray) : Orderly (.file content)
  | link (target : String) : Orderly (.link target)
  | folder {entries : List (String × FileTree)} :
      (entries.map Prod.fst).Nodup → (∀ pair ∈ entries, Orderly pair.2) →
      Orderly (.folder entries)

@[simp]
private theorem orderly_file (content : ByteArray) : Orderly (.file content) :=
  .file content

@[simp]
theorem orderly_folder_iff {entries : List (String × FileTree)} :
    Orderly (.folder entries) ↔
      (entries.map Prod.fst).Nodup ∧ ∀ pair ∈ entries, Orderly pair.2 := by
  constructor
  · intro orderly
    cases orderly with
    | folder distinct inside => exact ⟨distinct, inside⟩
  · rintro ⟨distinct, inside⟩
    exact .folder distinct inside

theorem orderly_empty : Orderly empty := .folder List.nodup_nil (by simp)

private theorem nodup_setChild {entries : List (String × FileTree)}
    (distinct : (entries.map Prod.fst).Nodup) (name : String)
    (child : Option FileTree) :
    ((setChild entries name child).map Prod.fst).Nodup := by
  induction entries with
  | nil => cases child <;> simp [setChild]
  | cons entry rest induction =>
      obtain ⟨known, tree⟩ := entry
      obtain ⟨new, others⟩ := List.nodup_cons.mp distinct
      by_cases same : known = name
      · subst same
        cases child with
        | none => simpa [setChild] using others
        | some fresh => simpa [setChild] using distinct
      · have unchanged : known ∉ (setChild rest name child).map Prod.fst := by
          intro member
          obtain ⟨⟨other, found⟩, inRest, rfl⟩ := List.mem_map.mp member
          rcases mem_setChild inRest with before | ⟨equal, _⟩
          · exact new (List.mem_map.mpr ⟨_, before, rfl⟩)
          · exact same equal
        simpa [setChild, same]
          using ⟨by simpa using unchanged, induction others⟩

private theorem lookup_setChild_none {entries : List (String × FileTree)}
    (distinct : (entries.map Prod.fst).Nodup) (name : String) :
    (setChild entries name none).lookup name = none := by
  induction entries with
  | nil => rfl
  | cons entry rest induction =>
      obtain ⟨known, tree⟩ := entry
      obtain ⟨new, others⟩ := List.nodup_cons.mp distinct
      by_cases same : known = name
      · subst same
        simp only [setChild, beq_self_eq_true, if_true, Option.map_none,
          Option.toList_none, List.nil_append]
        rw [List.lookup_eq_none_iff]
        intro pair member
        have different : pair.1 ≠ known := by
          rintro rfl
          exact new (List.mem_map.mpr ⟨pair, member, rfl⟩)
        simpa using different.symm
      · have other : (name == known) = false := by simpa using Ne.symm same
        simpa [setChild, same, List.lookup_cons, other] using induction others

section

variable {tree : FileTree}

private theorem Orderly.child {entries : List (String × FileTree)}
    (orderly : Orderly (.folder entries)) {name : String} {child : FileTree}
    (found : entries.lookup name = some child) :
    Orderly child := by
  cases orderly with
  | folder _ inside => exact inside _ (mem_of_lookup found)

private theorem Orderly.setChild {entries : List (String × FileTree)}
    (orderly : Orderly (.folder entries)) (name : String)
    {child : Option FileTree}
    (new : ∀ fresh, child = some fresh → Orderly fresh) :
    Orderly (.folder (setChild entries name child)) := by
  cases orderly with
  | folder distinct inside =>
      refine .folder (nodup_setChild distinct name child) ?_
      rintro ⟨known, found⟩ member
      rcases mem_setChild member with before | ⟨_, equal⟩
      · exact inside _ before
      · exact new found equal

/-- Setting an orderly entry keeps a tree orderly. -/
theorem Orderly.set (orderly : tree.Orderly) (location : List String)
    {entry : Option FileTree}
    (new : ∀ fresh, entry = some fresh → Orderly fresh) :
    (tree.set location entry).Orderly := by
  induction location generalizing tree with
  | nil =>
      cases entry with
      | none => exact orderly
      | some fresh => exact new fresh rfl
  | cons name rest induction =>
      cases tree with
      | file content => rwa [set_file_cons]
      | link target => rwa [set_link_cons]
      | folder entries =>
          rcases set_folder_cases entries name rest entry with
            ⟨rfl, after⟩ | ⟨child, _, found, after⟩ | ⟨_, after⟩ <;> rw [after]
          · exact orderly.setChild name new
          · refine orderly.setChild name ?_
            rintro _ ⟨rfl⟩
            exact induction (orderly.child found)
          · exact orderly

/-- Where an entry is removed from an orderly tree there is none. -/
theorem Orderly.at?_set_none (orderly : tree.Orderly) {location : List String}
    (below : location ≠ []) : (tree.set location none).at? location = none := by
  induction location generalizing tree with
  | nil => exact (below rfl).elim
  | cons name rest induction =>
      cases tree with
      | file content => rw [set_file_cons]; rfl
      | link target => rw [set_link_cons]; rfl
      | folder entries =>
          by_cases ended : rest = []
          · subst ended
            cases orderly with
            | folder distinct inside =>
                rw [FileTree.set, at?_folder_cons,
                  lookup_setChild_none distinct name]
                rfl
          · cases found : entries.lookup name with
            | none =>
                rw [set_of_no_child found ended, at?_folder_cons, found,
                  Option.bind_none]
            | some child =>
                rw [set_of_child found ended, at?_folder_cons,
                  lookup_setChild_self, Option.bind_some]
                exact induction (orderly.child found) ended

end

end FileTree

end CiPipeline
