import CiPipeline.Files.Access
import CiPipeline.Proofs.Files.Tree

/-!
# Walks through a tree

A walk goes down the names of a path, up again, and from links to what they
stand for.  Following a path succeeds exactly when there is such a walk.  A tree
grows when entries are added to it and none is replaced: what a path leads to,
it leads to in every tree that has grown.
-/

namespace CiPipeline

namespace FileTree

/-- A name that is looked up in a folder. -/
structure Plain (name : String) : Prop where
  notHere : name ≠ "."
  notAbove : name ≠ ".."
  short : name.utf8ByteSize ≤ longestName

/-- Where names lead from a location, given in reverse, over at most a
number of links. -/
inductive Walks (tree : FileTree) (last : Bool) :
    Nat → List String → List String → Destination → Prop where
  | here {links : Nat} {here : List String} {entry : FileTree} :
      tree.at? here.reverse = some entry →
      Walks tree last links here [] (.found here.reverse entry)
  | point {links : Nat} {here rest : List String}
      {entries : List (String × FileTree)} {destination : Destination} :
      tree.at? here.reverse = some (.folder entries) →
      Walks tree last links here rest destination →
      Walks tree last links here ("." :: rest) destination
  | above {links : Nat} {here rest : List String}
      {entries : List (String × FileTree)} {destination : Destination} :
      tree.at? here.reverse = some (.folder entries) →
      Walks tree last links (here.drop 1) rest destination →
      Walks tree last links here (".." :: rest) destination
  | missing {links : Nat} {here : List String} {name : String}
      {entries : List (String × FileTree)} :
      tree.at? here.reverse = some (.folder entries) →
      Plain name →
      entries.lookup name = none →
      Walks tree last links here [name] (.missing (name :: here).reverse)
  | stop {links : Nat} {here : List String} {name target : String}
      {entries : List (String × FileTree)} :
      tree.at? here.reverse = some (.folder entries) →
      Plain name →
      entries.lookup name = some (.link target) →
      last = false →
      Walks tree last links here [name]
        (.found (name :: here).reverse (.link target))
  | jump {links : Nat} {here rest : List String} {name target : String}
      {entries : List (String × FileTree)} {destination : Destination} :
      tree.at? here.reverse = some (.folder entries) →
      Plain name →
      entries.lookup name = some (.link target) →
      (rest = [] → last = true) →
      Walks tree last links (if Path.isAbsolute target then [] else here)
        (Path.names target ++ rest) destination →
      Walks tree last (links + 1) here (name :: rest) destination
  | down {links : Nat} {here rest : List String} {name : String}
      {child : FileTree} {entries : List (String × FileTree)}
      {destination : Destination} :
      tree.at? here.reverse = some (.folder entries) →
      Plain name →
      entries.lookup name = some child →
      child.isLink = false →
      Walks tree last links (name :: here) rest destination →
      Walks tree last links here (name :: rest) destination

variable {tree : FileTree} {last : Bool} {links : Nat}
  {here names : List String} {destination : Destination}

private theorem walks_of_followNames
    {jump : List String → List String → Except IoError Destination}
    (jumps : ∀ here names destination, jump here names = .ok destination →
      ∃ fewer, links = fewer + 1 ∧ Walks tree last fewer here names destination)
    (success : tree.followNames last jump here names = .ok destination) :
    Walks tree last links here names destination := by
  induction names generalizing here with
  | nil =>
      rw [followNames] at success
      split at success
      · rename_i stands
        cases success
        exact .here stands
      · cases success
  | cons name rest induction =>
      rw [followNames] at success
      split at success
      · cases success
      · rename_i folder stands
        cases folder with
        | file content => cases success
        | link target => cases success
        | folder entries =>
            simp only [isFolder, child?, Bool.not_true, Bool.false_eq_true,
              if_false, beq_iff_eq] at success
            split at success
            · rename_i isPoint
              exact isPoint ▸ .point stands (induction success)
            · rename_i notHere
              split at success
              · rename_i climbs
                exact climbs ▸ .above stands (induction success)
              · rename_i notAbove
                split at success
                · cases success
                · rename_i short
                  have plain : Plain name :=
                    ⟨notHere, notAbove, Nat.le_of_not_lt short⟩
                  split at success
                  · rename_i absent
                    split at success
                    · rename_i atEnd
                      cases success
                      cases List.isEmpty_iff.mp atEnd
                      exact .missing stands plain absent
                    · cases success
                  · rename_i target linked
                    split at success
                    · rename_i stops
                      simp only [Bool.and_eq_true, List.isEmpty_iff,
                        Bool.not_eq_true'] at stops
                      cases success
                      cases stops.1
                      exact .stop stands plain linked stops.2
                    · rename_i goesOn
                      simp only [Bool.and_eq_true, List.isEmpty_iff,
                        Bool.not_eq_true', not_and, Bool.not_eq_false] at goesOn
                      obtain ⟨fewer, rfl, walks⟩ := jumps _ _ _ success
                      exact .jump stands plain linked goesOn walks
                  · rename_i child notLink found
                    refine .down stands plain found ?_ (induction success)
                    cases child with
                    | link target => exact (notLink target rfl).elim
                    | file content => rfl
                    | folder entries => rfl

private theorem walks_of_follow
    (success : tree.follow last links here names = .ok destination) :
    Walks tree last links here names destination := by
  induction links generalizing here names destination with
  | zero =>
      refine walks_of_followNames ?_ success
      rintro _ _ _ ⟨⟩
  | succ links induction =>
      refine walks_of_followNames ?_ success
      intro _ _ _ jumped
      exact ⟨links, rfl, induction jumped⟩

/-- Following names over a number of links is following them with some way to go
on from a link. -/
theorem exists_followNames (tree : FileTree) (last : Bool) (links : Nat) :
    ∃ jump, ∀ here names,
      tree.follow last links here names =
        tree.followNames last jump here names := by
  cases links <;> exact ⟨_, fun _ _ => rfl⟩

theorem follow_of_walks (walks : Walks tree last links here names destination) :
    tree.follow last links here names = .ok destination := by
  induction walks with
  | @here links _ _ stands =>
      obtain ⟨jump, follows⟩ := exists_followNames tree last links
      rw [follows, followNames, stands]
  | @point links _ _ _ _ stands _ induction =>
      obtain ⟨jump, follows⟩ := exists_followNames tree last links
      rw [follows] at induction ⊢
      simpa [followNames, stands, isFolder] using induction
  | @above links _ _ _ _ stands _ induction =>
      obtain ⟨jump, follows⟩ := exists_followNames tree last links
      rw [follows] at induction ⊢
      simpa [followNames, stands, isFolder] using induction
  | @missing links _ _ _ stands plain absent =>
      obtain ⟨jump, follows⟩ := exists_followNames tree last links
      rw [follows]
      simp [followNames, stands, isFolder, child?, plain.notHere,
        plain.notAbove, absent, Nat.not_lt.mpr plain.short]
  | @stop links _ _ _ _ stands plain linked stops =>
      obtain ⟨jump, follows⟩ := exists_followNames tree last links
      rw [follows]
      simp [followNames, stands, isFolder, child?, plain.notHere,
        plain.notAbove, linked, stops, Nat.not_lt.mpr plain.short]
  | @jump links _ rest _ _ _ _ stands plain linked goesOn _ induction =>
      have followed : (rest.isEmpty && !last) = false := by
        cases rest with
        | nil => simp [goesOn rfl]
        | cons _ _ => rfl
      simp only [follow, followNames, stands, isFolder, child?, plain.notHere,
        plain.notAbove, linked, followed, Nat.not_lt.mpr plain.short,
        Bool.not_true, Bool.false_eq_true, if_false, beq_iff_eq]
      exact induction
  | @down links _ _ _ child _ _ stands plain found notLink _ induction =>
      obtain ⟨jump, follows⟩ := exists_followNames tree last links
      rw [follows] at induction ⊢
      simp only [followNames, stands, isFolder, child?, plain.notHere,
        plain.notAbove, found, Nat.not_lt.mpr plain.short, Bool.not_true,
        Bool.false_eq_true, if_false, beq_iff_eq]
      cases child with
      | link target => cases notLink
      | file content => exact induction
      | folder entries => exact induction

theorem follow_eq_ok_iff :
    tree.follow last links here names = .ok destination ↔
      Walks tree last links here names destination :=
  ⟨walks_of_follow, follow_of_walks⟩

/-! ## Parts of walks -/

/-- What a walk leads to stands where it leads. -/
theorem Walks.stands {location : List String} {entry : FileTree}
    (walks : Walks tree last links here names (.found location entry)) :
    tree.at? location = some entry := by
  generalize reached : Destination.found location entry = destination at walks
  induction walks with
  | here stands =>
      cases reached
      exact stands
  | missing => cases reached
  | stop stands _ linked =>
      cases reached
      exact (at?_child stands _).trans linked
  | point _ _ induction => exact induction reached
  | above _ _ induction => exact induction reached
  | jump _ _ _ _ _ induction => exact induction reached
  | down _ _ _ _ _ induction => exact induction reached

/-- Names that go straight down past no link lead to the location
that they spell. -/
theorem Walks.leadsTo (walks : Walks tree last links here names destination)
    (down : ∀ name ∈ names, name ≠ "." ∧ name ≠ "..")
    (unlinked : ∀ place, place <+: here.reverse ++ names →
      (place ≠ here.reverse ++ names ∨ last = true) → tree.Unlinked place) :
    tree.LeadsTo (here.reverse ++ names) destination := by
  induction walks with
  | here stands =>
      rw [List.append_nil]
      exact ⟨rfl, stands⟩
  | point => exact ((down "." (by simp)).1 rfl).elim
  | above => exact ((down ".." (by simp)).2 rfl).elim
  | missing stands _ absent =>
      rw [← List.reverse_cons]
      exact ⟨rfl, (at?_child stands _).trans absent⟩
  | stop stands _ linked =>
      rw [← List.reverse_cons]
      exact ⟨rfl, (at?_child stands _).trans linked⟩
  | @jump _ here rest name target _ _ stands _ linked goesOn =>
      -- A link that is followed stands where none may stand.
      have there := (at?_child stands name).trans linked
      rw [List.reverse_cons] at there
      refine (unlinked (here.reverse ++ [name]) ⟨rest, by simp⟩ ?_
        target there).elim
      by_cases atEnd : rest = []
      · exact .inr (goesOn atEnd)
      · exact .inl (by simpa using Ne.symm atEnd)
  | @down _ here rest name _ _ _ _ _ _ _ _ induction =>
      have same : (name :: here).reverse ++ rest =
        here.reverse ++ name :: rest := by simp
      rw [← same] at unlinked ⊢
      exact induction (fun other member =>
        down other (List.mem_cons_of_mem _ member)) unlinked

/-- A name leads to the child of a folder, unless that is a link that
is followed. -/
theorem Walks.child {entries : List (String × FileTree)} {name : String}
    {child : FileTree} (stands : tree.at? here.reverse = some (.folder entries))
    (plain : Plain name) (found : entries.lookup name = some child)
    (stays : last = true → child.isLink = false) :
    Walks tree last links here [name]
      (.found (name :: here).reverse child) := by
  cases isLink : child.isLink with
  | false =>
      exact .down stands plain found isLink
        (.here ((at?_child stands name).trans found))
  | true =>
      obtain ⟨target, rfl⟩ := exists_link_of_isLink isLink
      have stops : last = false := by
        cases last with
        | false => rfl
        | true => cases stays rfl
      exact .stop stands plain found stops

/-- A walk over some names and further ones leads to a folder first. -/
theorem Walks.split {front back : List String}
    (walks : Walks tree last links here (front ++ back) destination)
    (further : back ≠ []) :
    ∃ fewer place entries,
      Walks tree true links here front (.found place (.folder entries)) ∧
      Walks tree last fewer place.reverse back destination := by
  have begins {links : Nat} {here back : List String}
      {entries : List (String × FileTree)} {destination : Destination}
      (stands : tree.at? here.reverse = some (.folder entries))
      (walks : Walks tree last links here back destination) :
      ∃ fewer place entries,
        Walks tree true links here [] (.found place (.folder entries)) ∧
        Walks tree last fewer place.reverse back destination :=
    ⟨links, here.reverse, entries, .here stands, by rwa [List.reverse_reverse]⟩
  generalize spelled : front ++ back = names at walks
  induction walks generalizing front with
  | here => exact (further (List.append_eq_nil_iff.mp spelled).2).elim
  | point stands walks induction =>
      cases front with
      | nil =>
          cases spelled
          exact begins stands (.point stands walks)
      | cons first others =>
          cases spelled
          obtain ⟨fewer, place, entries, reaches, onwards⟩ := induction rfl
          exact ⟨fewer, place, entries, .point stands reaches, onwards⟩
  | above stands walks induction =>
      cases front with
      | nil =>
          cases spelled
          exact begins stands (.above stands walks)
      | cons first others =>
          cases spelled
          obtain ⟨fewer, place, entries, reaches, onwards⟩ := induction rfl
          exact ⟨fewer, place, entries, .above stands reaches, onwards⟩
  | missing stands plain absent =>
      cases front with
      | nil =>
          cases spelled
          exact begins stands (.missing stands plain absent)
      | cons first others =>
          exact (further
            (List.append_eq_nil_iff.mp (List.cons.inj spelled).2).2).elim
  | stop stands plain linked stops =>
      cases front with
      | nil =>
          cases spelled
          exact begins stands (.stop stands plain linked stops)
      | cons first others =>
          exact (further
            (List.append_eq_nil_iff.mp (List.cons.inj spelled).2).2).elim
  | jump stands plain linked goesOn walks induction =>
      cases front with
      | nil =>
          cases spelled
          exact begins stands (.jump stands plain linked goesOn walks)
      | cons first others =>
          cases spelled
          obtain ⟨fewer, place, entries, reaches, onwards⟩ :=
            induction (List.append_assoc ..)
          exact ⟨fewer, place, entries,
            .jump stands plain linked (fun _ => rfl) reaches, onwards⟩
  | down stands plain found notLink walks induction =>
      cases front with
      | nil =>
          cases spelled
          exact begins stands (.down stands plain found notLink walks)
      | cons first others =>
          cases spelled
          obtain ⟨fewer, place, entries, reaches, onwards⟩ := induction rfl
          exact ⟨fewer, place, entries,
            .down stands plain found notLink reaches, onwards⟩

/-- Points lead nowhere else. -/
theorem Walks.of_points (walks : Walks tree last links here names destination)
    (points : ∀ name ∈ names, name = ".") :
    destination.location = here.reverse := by
  induction walks with
  | here stands => rfl
  | point folder behind induction =>
      exact induction (List.forall_mem_cons.mp points).2
  | above folder behind induction =>
      exact absurd (List.forall_mem_cons.mp points).1 (by decide)
  | missing folder plain absent =>
      exact (plain.notHere (List.forall_mem_cons.mp points).1).elim
  | stop folder plain linked =>
      exact (plain.notHere (List.forall_mem_cons.mp points).1).elim
  | jump folder plain linked =>
      exact (plain.notHere (List.forall_mem_cons.mp points).1).elim
  | down folder plain below =>
      exact (plain.notHere (List.forall_mem_cons.mp points).1).elim

/-! ## Growing trees -/

/-- Whether everything in a tree stands in another one, with the same
content or target. -/
def Grows (before after : FileTree) : Prop :=
  ∀ location entry, before.at? location = some entry →
    (after.at? location).map kind = some entry.kind

/-- The entry that is set at a location whose folder is there. -/
theorem at?_set_self {above : List String} {entries : List (String × FileTree)}
    (stands : tree.at? above = some (.folder entries)) (name : String)
    (entry : FileTree) :
    (tree.set (above ++ [name]) (some entry)).at? (above ++ [name]) =
      some entry := by
  induction above generalizing tree with
  | nil =>
      cases stands
      simp [set, lookup_setChild_self]
  | cons first rest induction =>
      cases tree with
      | folder others =>
          obtain ⟨child, found, deeper⟩ := Option.bind_eq_some_iff.mp stands
          rw [List.cons_append, set_of_child found (by simp), at?_folder_cons,
            lookup_setChild_self, Option.bind_some]
          exact induction deeper
      | file content => cases stands
      | link target => cases stands

/-- A tree grows when an entry is put where none is. -/
theorem grows_set {location : List String} (absent : tree.at? location = none)
    (entry : Option FileTree) : Grows tree (tree.set location entry) := by
  intro other standing stands
  have beside : ¬ location <+: other := by
    rintro ⟨rest, rfl⟩
    rw [at?_append, absent] at stands
    cases stands
  rw [sameBeside_set tree location entry other beside, stands]
  rfl

section

variable {grown : FileTree} {location : List String} {entry : FileTree}

private theorem Grows.folder (grows : Grows tree grown)
    {entries : List (String × FileTree)}
    (stands : tree.at? location = some (.folder entries)) :
    ∃ others, grown.at? location = some (.folder others) :=
  exists_of_folder (grows location _ stands)

/-- A child of a folder is a child of the folder in a tree that has grown. -/
theorem Grows.child (grows : Grows tree grown)
    {entries others : List (String × FileTree)}
    (stands : tree.at? here.reverse = some (.folder entries))
    (there : grown.at? here.reverse = some (.folder others)) {name : String}
    {child : FileTree} (found : entries.lookup name = some child) :
    ∃ standing, others.lookup name = some standing ∧
      standing.kind = child.kind := by
  have placed :=
    grows (name :: here).reverse child ((at?_child stands name).trans found)
  rw [at?_child there name] at placed
  exact Option.map_eq_some_iff.mp placed

/-- A link in a folder is the same link in a tree that has grown. -/
theorem Grows.link (grows : Grows tree grown)
    {entries others : List (String × FileTree)}
    (stands : tree.at? here.reverse = some (.folder entries))
    (there : grown.at? here.reverse = some (.folder others))
    {name target : String}
    (linked : entries.lookup name = some (.link target)) :
    others.lookup name = some (.link target) := by
  obtain ⟨standing, placed, same⟩ := grows.child stands there linked
  rwa [← eq_link_of_kind same]

/-- What is found is found when the tree has grown. -/
theorem Walks.found_of_grows (grows : Grows tree grown)
    (walks : Walks tree last links here names (.found location entry)) :
    ∃ standing, Walks grown last links here names (.found location standing) ∧
      standing.kind = entry.kind := by
  generalize reached : Destination.found location entry = destination at walks
  induction walks with
  | here stands =>
      cases reached
      obtain ⟨standing, there, same⟩ :=
        Option.map_eq_some_iff.mp (grows _ _ stands)
      exact ⟨standing, .here there, same⟩
  | point stands _ induction =>
      obtain ⟨_, there⟩ := grows.folder stands
      obtain ⟨standing, further, same⟩ := induction reached
      exact ⟨standing, .point there further, same⟩
  | above stands _ induction =>
      obtain ⟨_, there⟩ := grows.folder stands
      obtain ⟨standing, further, same⟩ := induction reached
      exact ⟨standing, .above there further, same⟩
  | missing => cases reached
  | stop stands plain linked stops =>
      cases reached
      obtain ⟨_, there⟩ := grows.folder stands
      exact ⟨_, .stop there plain (grows.link stands there linked) stops, rfl⟩
  | jump stands plain linked goesOn _ induction =>
      obtain ⟨_, there⟩ := grows.folder stands
      obtain ⟨standing, further, same⟩ := induction reached
      exact ⟨standing,
        .jump there plain (grows.link stands there linked) goesOn further, same⟩
  | down stands plain found notLink _ induction =>
      obtain ⟨_, there⟩ := grows.folder stands
      obtain ⟨standing, placed, same⟩ := grows.child stands there found
      obtain ⟨final, further, finalSame⟩ := induction reached
      have stillNotLink := (isLink_of_kind same).trans notLink
      exact ⟨final, .down there plain placed stillNotLink further, finalSame⟩

/-- What is put at a missing name is found there, unless it is a link that
is followed. -/
theorem Walks.found_of_missing (grows : Grows tree grown)
    (walks : Walks tree last links here names (.missing location))
    (placed : grown.at? location = some entry)
    (stays : last = true → entry.isLink = false) :
    Walks grown last links here names (.found location entry) := by
  generalize reached : Destination.missing location = destination at walks
  induction walks with
  | here => cases reached
  | stop => cases reached
  | point stands _ induction =>
      obtain ⟨_, there⟩ := grows.folder stands
      exact .point there (induction reached)
  | above stands _ induction =>
      obtain ⟨_, there⟩ := grows.folder stands
      exact .above there (induction reached)
  | missing stands plain _ =>
      cases reached
      obtain ⟨_, there⟩ := grows.folder stands
      exact .child there plain ((at?_child there _).symm.trans placed) stays
  | jump stands plain linked goesOn _ induction =>
      obtain ⟨_, there⟩ := grows.folder stands
      exact .jump there plain (grows.link stands there linked) goesOn
        (induction reached)
  | down stands plain found notLink _ induction =>
      obtain ⟨_, there⟩ := grows.folder stands
      obtain ⟨standing, placed, same⟩ := grows.child stands there found
      exact .down there plain placed ((isLink_of_kind same).trans notLink)
        (induction reached)

/-- A missing name is missing whether or not a link at the end would
be followed. -/
theorem Walks.missing_followed
    (walks : Walks tree false links here names (.missing location)) :
    Walks tree true links here names (.missing location) := by
  generalize reached : Destination.missing location = destination at walks
  induction walks with
  | here => cases reached
  | stop => cases reached
  | point stands _ induction => exact .point stands (induction reached)
  | above stands _ induction => exact .above stands (induction reached)
  | missing stands plain absent =>
      cases reached
      exact .missing stands plain absent
  | jump stands plain linked _ _ induction =>
      exact .jump stands plain linked (fun _ => rfl) (induction reached)
  | down stands plain found notLink _ induction =>
      exact .down stands plain found notLink (induction reached)

/-- A walk that ends with a point ends at a folder, to which it leads without
the point. -/
theorem Walks.before_point {front : List String}
    (walks : Walks tree last links here (front ++ ["."])
      (.found location entry)) :
    ∃ entries, entry = .folder entries ∧
      Walks tree true links here front (.found location (.folder entries)) := by
  obtain ⟨_, place, entries, reaches, stays⟩ := walks.split (by simp)
  obtain rfl : location = place :=
    (stays.of_points (by simp)).trans (List.reverse_reverse _)
  exact ⟨entries,
    Option.some.inj (stays.stands.symm.trans reaches.stands), reaches⟩

/-- A name is missing in a folder. -/
theorem Walks.missing_in_folder
    (walks : Walks tree last links here names (.missing location)) :
    ∃ above name entries,
      location = above ++ [name] ∧ tree.at? above = some (.folder entries) ∧
      entries.lookup name = none := by
  generalize reached : Destination.missing location = destination at walks
  induction walks with
  | here => cases reached
  | stop => cases reached
  | missing stands plain absent =>
      cases reached
      exact ⟨_, _, _, List.reverse_cons .., stands, absent⟩
  | point _ _ induction => exact induction reached
  | above _ _ induction => exact induction reached
  | jump _ _ _ _ _ induction => exact induction reached
  | down _ _ _ _ _ induction => exact induction reached

/-- There is nothing where a name is missing. -/
theorem Walks.at?_missing
    (walks : Walks tree last links here names (.missing location)) :
    tree.at? location = none := by
  obtain ⟨above, name, entries, rfl, stands, missing⟩ := walks.missing_in_folder
  rw [at?_append, stands]
  simp [missing]

/-- What is put at a missing name stands there in a tree that has grown. -/
theorem Walks.grows_at_missing
    (walks : Walks tree last links here names (.missing location))
    (entry : FileTree) :
    Grows tree (tree.set location (some entry)) ∧
      (tree.set location (some entry)).at? location = some entry := by
  refine ⟨grows_set walks.at?_missing _, ?_⟩
  obtain ⟨above, name, entries, rfl, stands, _⟩ := walks.missing_in_folder
  exact at?_set_self stands name entry

end

end FileTree

end CiPipeline
