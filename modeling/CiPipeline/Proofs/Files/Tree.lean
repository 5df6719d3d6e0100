import CiPipeline.Files.Tree
import Mathlib.Data.List.Basic

/-!
# Changes at a location of a tree

Setting an entry changes nothing beside its location, and what a tree holds
afterwards it held before or comes from the entry.  Names that lead downwards,
past no link, lead to the location that they spell.
-/

namespace CiPipeline.FileTree

/-! ## What stands at a location -/

/-- What an entry is, with its content or target; the entries of a folder are
left aside. -/
inductive Kind where
  | file (content : ByteArray)
  | folder
  | link (target : String)

/-- The kind of an entry. -/
def kind : FileTree → Kind
  | .file content => .file content
  | .folder _ => .folder
  | .link target => .link target

theorem isFolder_of_kind {first second : FileTree}
    (same : first.kind = second.kind) :
    first.isFolder = second.isFolder := by
  cases first <;> cases second <;> cases same <;> rfl

theorem isLink_of_kind {first second : FileTree}
    (same : first.kind = second.kind) :
    first.isLink = second.isLink := by
  cases first <;> cases second <;> cases same <;> rfl

theorem exists_folder_of_kind {entry : FileTree}
    (folder : entry.kind = .folder) :
    ∃ entries, entry = .folder entries := by
  cases entry with
  | folder entries => exact ⟨entries, rfl⟩
  | file content => cases folder
  | link target => cases folder

theorem eq_link_of_kind {entry : FileTree} {target : String}
    (linked : entry.kind = .link target) : entry = .link target := by
  cases entry with
  | link other =>
      cases linked
      rfl
  | file content => cases linked
  | folder entries => cases linked

theorem exists_link_of_isLink {entry : FileTree}
    (linked : entry.isLink = true) :
    ∃ target, entry = .link target := by
  cases entry with
  | link target => exact ⟨target, rfl⟩
  | file content => cases linked
  | folder entries => cases linked

theorem exists_of_folder {entry : Option FileTree}
    (folder : entry.map kind = some .folder) :
    ∃ entries, entry = some (.folder entries) := by
  obtain ⟨standing, rfl, isFolder⟩ := Option.map_eq_some_iff.mp folder
  obtain ⟨entries, rfl⟩ := exists_folder_of_kind isFolder
  exact ⟨entries, rfl⟩

theorem eq_some_link {entry : Option FileTree} {target : String}
    (linked : entry.map kind = some (.link target)) :
    entry = some (.link target) := by
  obtain ⟨standing, rfl, isLink⟩ := Option.map_eq_some_iff.mp linked
  rw [eq_link_of_kind isLink]

@[simp] theorem at?_nil (tree : FileTree) : tree.at? [] = some tree := rfl

@[simp] theorem at?_folder_cons (entries : List (String × FileTree))
    (name : String) (rest : List String) :
    (FileTree.folder entries).at? (name :: rest) =
      (entries.lookup name).bind fun child => child.at? rest := rfl

theorem at?_append (tree : FileTree) (front back : List String) :
    tree.at? (front ++ back) = (tree.at? front).bind fun entry =>
      entry.at? back := by
  induction front generalizing tree with
  | nil => rfl
  | cons name rest induction =>
      rw [List.cons_append, at?, at?]
      cases tree.child? name with
      | none => rfl
      | some child => exact induction child

/-- Whether two trees are alike at every location beside a given one. -/
def SameBeside (location : List String) (before after : FileTree) : Prop :=
  ∀ other, ¬ location <+: other →
    (after.at? other).map kind = (before.at? other).map kind

namespace SameBeside

variable {location : List String} {first second third : FileTree}

theorem refl (location : List String) (tree : FileTree) :
    SameBeside location tree tree :=
  fun _ _ => rfl

theorem trans (left : SameBeside location first second)
    (right : SameBeside location second third) :
    SameBeside location first third := by
  intro other beside
  rw [right other beside, left other beside]

/-- Trees that are alike beside a location are alike beside every
location above it. -/
theorem mono {above : List String} (same : SameBeside location first second)
    (prefixes : above <+: location) : SameBeside above first second := by
  intro other beside
  exact same other fun below => beside (prefixes.trans below)

end SameBeside

/-! ## Setting an entry -/

private theorem lookup_setChild_of_ne (entries : List (String × FileTree))
    {name other : String} (child : Option FileTree) (different : other ≠ name) :
    (setChild entries name child).lookup other = entries.lookup other := by
  have absent : (other == name) = false := by simpa using different
  induction entries with
  | nil => cases child <;> simp [setChild, List.lookup_cons, absent]
  | cons entry rest induction =>
      obtain ⟨known, tree⟩ := entry
      by_cases same : known = name
      · subst same
        cases child <;> simp [setChild, List.lookup_cons, absent]
      · simp [setChild, same, List.lookup_cons, induction]

theorem lookup_setChild_self (entries : List (String × FileTree))
    (name : String) (child : FileTree) :
    (setChild entries name (some child)).lookup name = some child := by
  induction entries with
  | nil => simp [setChild]
  | cons entry rest induction =>
      obtain ⟨known, tree⟩ := entry
      by_cases same : known = name
      · simp [setChild, same]
      · have other : (name == known) = false := by simpa using Ne.symm same
        simp [setChild, same, List.lookup_cons, other, induction]

theorem mem_setChild {entries : List (String × FileTree)} {name known : String}
    {child : Option FileTree} {tree : FileTree}
    (member : (known, tree) ∈ setChild entries name child) :
    (known, tree) ∈ entries ∨ (known = name ∧ child = some tree) := by
  induction entries with
  | nil =>
      cases child with
      | none => simp [setChild] at member
      | some new =>
          simp only [setChild, Option.map_some, Option.toList_some,
            List.mem_singleton] at member
          cases member
          exact .inr ⟨rfl, rfl⟩
  | cons entry rest induction =>
      obtain ⟨other, old⟩ := entry
      rw [setChild] at member
      split at member
      · rename_i same
        rcases List.mem_append.mp member with new | kept
        · cases child with
          | none => simp at new
          | some fresh =>
              simp only [Option.map_some, Option.toList_some,
                List.mem_singleton] at new
              cases new
              exact .inr ⟨rfl, rfl⟩
        · exact .inl (by simp [kept])
      · rcases List.mem_cons.mp member with equal | inRest
        · cases equal
          exact .inl (by simp)
        · rcases induction inRest with kept | new
          · exact .inl (by simp [kept])
          · exact .inr new

@[simp] theorem set_file_cons (content : ByteArray) (name : String)
    (rest : List String) (entry : Option FileTree) :
    (FileTree.file content).set (name :: rest) entry = .file content := by
  cases rest <;> rfl

@[simp] theorem set_link_cons (target name : String) (rest : List String)
    (entry : Option FileTree) :
    (FileTree.link target).set (name :: rest) entry = .link target := by
  cases rest <;> rfl

section

variable {entries : List (String × FileTree)} {name : String}
  {rest : List String}

theorem set_of_child {child : FileTree}
    (found : entries.lookup name = some child) (below : rest ≠ [])
    (entry : Option FileTree) :
    (FileTree.folder entries).set (name :: rest) entry =
      .folder (setChild entries name (some (child.set rest entry))) := by
  rw [set, found]
  exact fun ended => below ended

theorem set_of_no_child (absent : entries.lookup name = none)
    (below : rest ≠ []) (entry : Option FileTree) :
    (FileTree.folder entries).set (name :: rest) entry = .folder entries := by
  rw [set, absent]
  exact fun ended => below ended

end

/-- Setting an entry in a folder or below it changes one child of the folder, or
nothing when there is no such child to go down to. -/
theorem set_folder_cases (entries : List (String × FileTree)) (name : String)
    (rest : List String) (entry : Option FileTree) :
    (rest = [] ∧
        (FileTree.folder entries).set (name :: rest) entry =
          .folder (setChild entries name entry)) ∨
      (∃ child, rest ≠ [] ∧ entries.lookup name = some child ∧
        (FileTree.folder entries).set (name :: rest) entry =
          .folder (setChild entries name (some (child.set rest entry)))) ∨
      (rest ≠ [] ∧
        (FileTree.folder entries).set (name :: rest) entry =
          .folder entries) := by
  by_cases ended : rest = []
  · subst ended
    exact .inl ⟨rfl, rfl⟩
  · cases found : entries.lookup name with
    | none => exact .inr (.inr ⟨ended, set_of_no_child found ended entry⟩)
    | some child =>
        exact .inr (.inl ⟨child, ended, rfl, set_of_child found ended entry⟩)

/-- Another child at a name of a folder changes nothing beside that name. -/
theorem sameBeside_setChild (entries : List (String × FileTree)) (name : String)
    (child : Option FileTree) :
    SameBeside [name] (.folder entries)
      (.folder (setChild entries name child)) := by
  intro other beside
  cases other with
  | nil => rfl
  | cons first below =>
      have different : first ≠ name := by
        rintro rfl
        exact beside ⟨below, rfl⟩
      rw [at?_folder_cons, lookup_setChild_of_ne _ _ different, at?_folder_cons]

/-- Setting an entry changes nothing beside its location. -/
theorem sameBeside_set (tree : FileTree) (location : List String)
    (entry : Option FileTree) :
    SameBeside location tree (tree.set location entry) := by
  induction location generalizing tree with
  | nil => exact fun other beside => (beside List.nil_prefix).elim
  | cons name rest induction =>
      cases tree with
      | file content => rw [set_file_cons]; exact .refl _ _
      | link target => rw [set_link_cons]; exact .refl _ _
      | folder entries =>
          rcases set_folder_cases entries name rest entry with
            ⟨rfl, after⟩ | ⟨child, _, found, after⟩ | ⟨_, after⟩ <;> rw [after]
          · exact sameBeside_setChild entries name entry
          · intro other beside
            by_cases within : [name] <+: other
            · obtain ⟨below, rfl⟩ := within
              have deeper : ¬ rest <+: below := by simpa using beside
              simp only [List.singleton_append, at?_folder_cons,
                lookup_setChild_self, found, Option.bind_some]
              exact induction child below deeper
            · exact sameBeside_setChild entries name _ other within
          · exact .refl _ _

/-! ## What a tree holds anywhere -/

/-- An entry that occurs somewhere in a tree, with the names that lead to it. -/
inductive Occurs : FileTree → List String → FileTree → Prop where
  | whole (tree : FileTree) : Occurs tree [] tree
  | inside {entries : List (String × FileTree)} {name : String}
      {child found : FileTree} {rest : List String} :
      (name, child) ∈ entries →
      Occurs child rest found →
      Occurs (.folder entries) (name :: rest) found

theorem mem_of_lookup {entries : List (String × FileTree)} {name : String}
    {child : FileTree} (found : entries.lookup name = some child) :
    (name, child) ∈ entries := by
  obtain ⟨front, back, equal, _⟩ := List.lookup_eq_some_iff.mp found
  simp [equal]

theorem occurs_of_at? {tree found : FileTree} {location : List String}
    (stands : tree.at? location = some found) : tree.Occurs location found := by
  induction location generalizing tree with
  | nil =>
      cases stands
      exact .whole _
  | cons name rest induction =>
      cases tree with
      | folder entries =>
          obtain ⟨child, looked, deeper⟩ := Option.bind_eq_some_iff.mp stands
          exact .inside (mem_of_lookup looked) (induction deeper)
      | file content => cases stands
      | link target => cases stands

/-- A file or link that a tree holds after an entry is set was there before, or
is part of the entry. -/
theorem occurs_of_set {tree leaf : FileTree} {location other : List String}
    {entry : Option FileTree} (isLeaf : leaf.isFolder = false)
    (occurs : (tree.set location entry).Occurs other leaf) :
    tree.Occurs other leaf ∨
      ∃ new rest, entry = some new ∧ other = location ++ rest ∧
        new.Occurs rest leaf := by
  induction location generalizing tree other with
  | nil =>
      cases entry with
      | none => exact .inl occurs
      | some new => exact .inr ⟨new, other, rfl, rfl, occurs⟩
  | cons name rest induction =>
      cases tree with
      | folder entries =>
          rcases set_folder_cases entries name rest entry with
            ⟨rfl, after⟩ | ⟨child, _, found, after⟩ | ⟨_, after⟩ <;>
              rw [after] at occurs
          · cases occurs with
            | whole => cases isLeaf
            | inside member deeper =>
                rcases mem_setChild member with kept | ⟨rfl, rfl⟩
                · exact .inl (.inside kept deeper)
                · exact .inr ⟨_, _, rfl, rfl, deeper⟩
          · cases occurs with
            | whole => cases isLeaf
            | inside member deeper =>
                rcases mem_setChild member with kept | ⟨rfl, equal⟩
                · exact .inl (.inside kept deeper)
                · cases equal
                  rcases induction deeper with
                    before | ⟨new, rest, rfl, rfl, inNew⟩
                  · exact .inl (.inside (mem_of_lookup found) before)
                  · exact .inr ⟨new, rest, rfl, rfl, inNew⟩
          · exact .inl occurs
      | file content =>
          rw [set_file_cons] at occurs
          exact .inl occurs
      | link target =>
          rw [set_link_cons] at occurs
          exact .inl occurs

/-! ## Following names -/

/-- Whether no link stands at a location. -/
def Unlinked (tree : FileTree) (location : List String) : Prop :=
  ∀ target, tree.at? location ≠ some (.link target)

theorem unlinked_iff {tree : FileTree} {location : List String} :
    (tree.at? location).all (fun entry => !entry.isLink) = true ↔
      tree.Unlinked location := by
  unfold Unlinked
  cases tree.at? location with
  | none => simp
  | some entry => cases entry <;> simp [isLink]

instance (tree : FileTree) (location : List String) :
    Decidable (tree.Unlinked location) :=
  decidable_of_iff _ unlinked_iff

/-- Where names lead that go straight down: to the location that they spell, and
to the entry there if there is one. -/
def LeadsTo (tree : FileTree) (location : List String) : Destination → Prop
  | .found place entry => place = location ∧ tree.at? location = some entry
  | .missing place => place = location ∧ tree.at? location = none

theorem at?_child {tree : FileTree} {here : List String}
    {entries : List (String × FileTree)}
    (stands : tree.at? here.reverse = some (.folder entries)) (name : String) :
    tree.at? (name :: here).reverse = entries.lookup name := by
  rw [List.reverse_cons, at?_append, stands, Option.bind_some, at?_folder_cons]
  cases entries.lookup name <;> rfl

end CiPipeline.FileTree
