import CiPipeline.Proofs.Files.Path
import CiPipeline.Proofs.Files.Runs
import CiPipeline.Proofs.Files.Ways

/-!
# Folders that are made anew

What is at a path is removed, and a folder is created there with the
folders above it.  The folder is empty, by whatever links and points the
path leads to it, unless a step up in the path leads from a folder that is
only created on the way.
-/

namespace CiPipeline

namespace FileTree

variable {tree : FileTree} {last : Bool} {links : Nat}
  {here names : List String} {destination : Destination}
  {location : List String} {entry : FileTree}

/-! ## Walks that lead to the same place -/

/-- Points can be left out of a walk. -/
theorem Walks.withoutPoints (front back : List String)
    (walks : Walks tree true links here (front ++ back) destination) :
    Walks tree true links here (front ++ back.filter (· != "."))
      destination := by
  -- The names of a link that is followed come in front, so that the points in
  -- them stay.
  generalize spelled : front ++ back = names at walks
  induction walks generalizing front back with
  | here stands =>
      obtain ⟨rfl, rfl⟩ := List.append_eq_nil_iff.mp spelled
      exact .here stands
  | point stands walks induction =>
      cases front with
      | nil =>
          cases spelled
          rw [List.nil_append, List.filter_cons_of_neg (by simp)]
          exact induction [] _ (List.nil_append _)
      | cons first others =>
          cases spelled
          exact .point stands (induction _ _ rfl)
  | above stands walks induction =>
      cases front with
      | nil =>
          cases spelled
          exact .above stands (induction [] _ (List.nil_append _))
      | cons first others =>
          cases spelled
          exact .above stands (induction _ _ rfl)
  | missing stands plain absent =>
      cases front with
      | nil =>
          cases spelled
          rw [List.nil_append,
            List.filter_cons_of_pos (by simpa using plain.notHere)]
          exact .missing stands plain absent
      | cons first others =>
          obtain ⟨rfl, none⟩ := List.cons.inj spelled
          obtain ⟨rfl, rfl⟩ := List.append_eq_nil_iff.mp none
          exact .missing stands plain absent
  | stop _ _ _ stops => cases stops
  | jump stands plain linked _ walks induction =>
      cases front with
      | nil =>
          cases spelled
          rw [List.nil_append,
            List.filter_cons_of_pos (by simpa using plain.notHere)]
          exact .jump stands plain linked (fun _ => rfl) (induction _ _ rfl)
      | cons first others =>
          cases spelled
          have onwards := induction _ back (List.append_assoc ..)
          rw [List.append_assoc] at onwards
          exact .jump stands plain linked (fun _ => rfl) onwards
  | down stands plain found notLink walks induction =>
      cases front with
      | nil =>
          cases spelled
          rw [List.nil_append,
            List.filter_cons_of_pos (by simpa using plain.notHere)]
          exact .down stands plain found notLink
            (induction [] _ (List.nil_append _))
      | cons first others =>
          cases spelled
          exact .down stands plain found notLink (induction _ _ rfl)

/-- A walk to a folder goes on with a point. -/
theorem Walks.onto_point {entries : List (String × FileTree)}
    (walks : Walks tree true links here names
      (.found location (.folder entries))) :
    Walks tree true links here (names ++ ["."])
      (.found location (.folder entries)) := by
  generalize reached :
    Destination.found location (.folder entries) = destination at walks
  induction walks with
  | here stands =>
      cases reached
      exact .point stands (.here stands)
  | point stands _ induction => exact .point stands (induction reached)
  | above stands _ induction => exact .above stands (induction reached)
  | missing => cases reached
  | stop _ _ _ stops => cases stops
  | jump stands plain linked _ _ induction =>
      have onwards := induction reached
      rw [List.append_assoc] at onwards
      exact .jump stands plain linked (fun _ => rfl) onwards
  | down stands plain found notLink _ induction =>
      exact .down stands plain found notLink (induction reached)

/-- What is not a link is found whether or not a link at the end would
be followed. -/
theorem Walks.followed
    (walks : Walks tree false links here names (.found location entry))
    (notLink : entry.isLink = false) :
    Walks tree true links here names (.found location entry) := by
  generalize reached : Destination.found location entry = destination at walks
  induction walks with
  | here stands =>
      cases reached
      exact .here stands
  | point stands _ induction => exact .point stands (induction reached)
  | above stands _ induction => exact .above stands (induction reached)
  | missing => cases reached
  | stop =>
      cases reached
      cases notLink
  | jump stands plain linked _ _ induction =>
      exact .jump stands plain linked (fun _ => rfl) (induction reached)
  | down stands plain found childNotLink _ induction =>
      exact .down stands plain found childNotLink (induction reached)

/-- What is found by following a link at the end is found without that,
or a link is. -/
theorem Walks.unfollowed
    (walks : Walks tree true links here names (.found location entry)) :
    Walks tree false links here names (.found location entry) ∨
      ∃ place target,
        Walks tree false links here names (.found place (.link target)) := by
  generalize reached : Destination.found location entry = destination at walks
  induction walks with
  | here stands =>
      cases reached
      exact .inl (.here stands)
  | point stands _ induction =>
      exact (induction reached).imp (.point stands)
        fun ⟨place, target, stops⟩ => ⟨place, target, .point stands stops⟩
  | above stands _ induction =>
      exact (induction reached).imp (.above stands)
        fun ⟨place, target, stops⟩ => ⟨place, target, .above stands stops⟩
  | missing => cases reached
  | stop _ _ _ stops => cases stops
  | @jump _ _ rest _ _ _ _ stands plain linked _ _ induction =>
      cases rest with
      | nil => exact .inr ⟨_, _, .stop stands plain linked rfl⟩
      | cons second others =>
          exact (induction reached).imp (.jump stands plain linked (by simp))
            fun ⟨place, target, stops⟩ =>
              ⟨place, target, .jump stands plain linked (by simp) stops⟩
  | down stands plain found notLink _ induction =>
      exact (induction reached).imp (.down stands plain found notLink)
        fun ⟨place, target, stops⟩ =>
          ⟨place, target, .down stands plain found notLink stops⟩

/-- Names that end in one that leads down lead below the root, unless a link at
the end is followed. -/
theorem Walks.location_ne_nil {front : List String} {name : String}
    (walks : Walks tree false links here (front ++ [name]) destination)
    (notHere : name ≠ ".") (notAbove : name ≠ "..") :
    destination.location ≠ [] := by
  generalize spelled : front ++ [name] = names at walks
  induction walks generalizing front with
  | here => simp at spelled
  | point _ _ induction =>
      cases front with
      | nil =>
          cases spelled
          exact (notHere rfl).elim
      | cons first others =>
          cases spelled
          exact induction rfl
  | above _ _ induction =>
      cases front with
      | nil =>
          cases spelled
          exact (notAbove rfl).elim
      | cons first others =>
          cases spelled
          exact induction rfl
  | missing => simp [Destination.location]
  | stop => simp [Destination.location]
  | jump _ _ _ goesOn _ induction =>
      cases front with
      | nil =>
          cases spelled
          cases goesOn rfl
      | cons first others =>
          cases spelled
          exact induction (List.append_assoc ..)
  | down _ _ _ _ walks induction =>
      cases front with
      | nil =>
          cases spelled
          cases walks
          simp [Destination.location]
      | cons first others =>
          cases spelled
          exact induction rfl

/-- A tree has grown from what is left when an entry is removed from it. -/
theorem grows_of_removal (orderly : tree.Orderly) (below : location ≠ []) :
    Grows (tree.set location none) tree := by
  intro other standing stands
  by_cases inside : location <+: other
  · obtain ⟨rest, rfl⟩ := inside
    rw [at?_append, orderly.at?_set_none below] at stands
    cases stands
  · rw [← sameBeside_set tree location none other inside, stands]
    rfl

end FileTree

/-! ## Paths of steps -/

namespace Path

variable {path : String} {names : List String}

private theorem filter_names (path : String) :
    (Path.names path).filter (· != ".") = steps path := by
  unfold Path.names
  split
  · rw [List.filter_append]
    exact List.append_nil _
  · rfl

private theorem isName_of_mem_steps {name : String}
    (member : name ∈ steps path) :
    IsName name ∧ name ≠ "." := by
  obtain ⟨inParts, notHere⟩ := List.mem_filter.mp member
  exact ⟨isName_of_mem_parts inParts, by simpa using notHere⟩

private theorem endsWithSlash_intercalate (present : names ≠ [])
    (areNames : ∀ name ∈ names, IsName name) :
    "/".intercalate names ≠ "" ∧
      endsWithSlash ("/".intercalate names) = false := by
  induction names with
  | nil => exact (present rfl).elim
  | cons first rest induction =>
      obtain ⟨isName, others⟩ := List.forall_mem_cons.mp areNames
      cases rest with
      | nil =>
          rw [String.intercalate_singleton]
          refine ⟨isName.1, ?_⟩
          by_contra ends
          obtain ⟨front, rfl⟩ := exists_of_endsWithSlash (by simpa using ends)
          exact isName.2 (by simp)
      | cons second further =>
          obtain ⟨present, bare⟩ := induction (by simp) others
          rw [String.intercalate_cons_cons, endsWithSlash_append _ present]
          exact ⟨by simp [present], bare⟩

/-- The names of a path that is made from names which lead up or down. -/
theorem names_ofSteps (absolute : Bool) (present : names ≠ [])
    (areNames : ∀ name ∈ names, IsName name) :
    Path.names (ofSteps absolute names) = names := by
  obtain ⟨nonempty, bare⟩ := endsWithSlash_intercalate present areNames
  unfold Path.names
  rw [parts_ofSteps absolute areNames, ofSteps,
    endsWithSlash_append _ nonempty, bare]
  rfl

private theorem steps_ofSteps (absolute : Bool)
    (areNames : ∀ name ∈ names, IsName name ∧ name ≠ ".") :
    steps (ofSteps absolute names) = names := by
  unfold steps
  rw [parts_ofSteps absolute fun name member => (areNames name member).1,
    List.filter_eq_self]
  intro name member
  simpa using (areNames name member).2

/-- The steps above the last one spell the path above. -/
theorem above_of_steps {above : List String} {name : String}
    (spelled : steps path = above ++ [name]) :
    steps (ofSteps (isAbsolute path) above) = above ∧
      isAbsolute (ofSteps (isAbsolute path) above) = isAbsolute path ∧
      ∀ step ∈ above, IsName step := by
  have areSteps : ∀ step ∈ above, IsName step ∧ step ≠ "." := by
    intro step member
    have inPath : step ∈ steps path := by
      rw [spelled]
      exact List.mem_append_left _ member
    exact isName_of_mem_steps inPath
  have areNames : ∀ step ∈ above, IsName step :=
    fun step member => (areSteps step member).1
  exact ⟨steps_ofSteps _ areSteps, isAbsolute_ofSteps _ areNames, areNames⟩

end Path

/-! ## Removing what is at a path -/

namespace Files

open CiPipeline.FileTree

variable {files before after : Files} {path : String} {location : List String}
  {entry : FileTree}

theorem hasFolder_eq_true_iff :
    files.hasFolder path = true ↔
      ∃ location entries,
        files.target path = .ok (.found location (.folder entries)) := by
  unfold hasFolder
  rcases files.target path with error | ⟨location, entry⟩ | location
  · simp
  · cases entry <;> simp [isFolder]
  · simp

private theorem target_of_entry
    (named : files.entry path = .ok (.found location entry))
    (notLink : entry.isLink = false) :
    files.target path = .ok (.found location entry) := by
  obtain ⟨permitted, walks⟩ := locate_eq_ok_iff.mp named
  exact locate_eq_ok_iff.mpr ⟨permitted, walks.followed notLink⟩

/-- Nothing is found at a path once what it leads to has been removed. -/
theorem not_found_of_removal {names : List String} {last : Bool}
    (orderly : files.root.Orderly) (below : location ≠ [])
    (found : files.locate path names last = .ok (.found location entry))
    (place : List String) (standing : FileTree) :
    (files.put location none).locate path names last ≠
      .ok (.found place standing) := by
  intro remains
  obtain ⟨permitted, walks⟩ := locate_eq_ok_iff.mp remains
  obtain ⟨former, formerly, _⟩ :=
    walks.found_of_grows (grows_of_removal orderly below)
  have before := locate_eq_ok_iff.mpr ⟨permitted, formerly⟩
  obtain ⟨rfl, rfl⟩ :=
    Destination.found.inj (Except.ok.inj (found.symm.trans before))
  cases walks.stands.symm.trans (orderly.at?_set_none below)

/-- A path that ends in a name which leads down. -/
def EndsBelow (path : String) : Prop :=
  ∃ above name, Path.steps path = above ++ [name] ∧ name ≠ ".."

private theorem EndsBelow.parts (ends : EndsBelow path) :
    ∃ front name points, Path.parts path = front ++ name :: points ∧
      name ≠ "." ∧ name ≠ ".." ∧
      ∀ point ∈ points, point = "." := by
  obtain ⟨above, name, steps, notAbove⟩ := ends
  have member : name ∈ Path.steps path := by simp [steps]
  have notHere := (Path.isName_of_mem_steps member).2
  obtain ⟨first, second, split, _, lasts⟩ := List.filter_eq_append_iff.mp steps
  obtain ⟨points, others, equal, arePoints, _, none⟩ :=
    List.filter_eq_cons_iff.mp lasts
  refine ⟨first ++ points, name, others, ?_, notHere, notAbove, ?_⟩
  · rw [split, equal, List.append_assoc]
  · intro point member
    simpa using List.filter_eq_nil_iff.mp none point member

/-- A link that a path names lies below the root. -/
theorem ne_nil_of_entry_link {target : String} (ends : EndsBelow path)
    (linked : files.entry path = .ok (.found location (.link target))) :
    location ≠ [] := by
  rintro rfl
  obtain ⟨front, name, points, parts, _⟩ := ends.parts
  have walks := (locate_eq_ok_iff.mp linked).2
  have root : files.root = .link target := Option.some.inj walks.stands
  have noFolder (here : List String) (entries : List (String × FileTree)) :
      files.root.at? here ≠ some (.folder entries) := by
    rw [root]
    cases here <;> rintro ⟨⟩
  rw [names_of_bare (bare_of_entry_link linked), parts] at walks
  obtain ⟨_, place, entries, reaches, _⟩ := walks.split (by simp)
  exact noFolder _ _ reaches.stands

/-- Where names lead of which the last one leads down is below the root, whether
or not a slash stands behind them, as long as they do not name a link. -/
theorem ne_nil_of_entry {front : List String} {name : String}
    (parts : Path.parts path = front ++ [name]) (notHere : name ≠ ".")
    (notAbove : name ≠ "..")
    (found : files.entry path = .ok (.found location entry))
    (notLink : ¬ (files.slot path).toOption.any (·.isLink) = true) :
    location ≠ [] := by
  obtain ⟨permitted, walks⟩ := locate_eq_ok_iff.mp found
  unfold Path.names at walks
  cases slash : Path.endsWithSlash path with
  | false =>
      rw [slash, if_neg Bool.false_ne_true, parts] at walks
      exact walks.location_ne_nil notHere notAbove
  | true =>
      rw [slash, if_pos rfl] at walks
      obtain ⟨entries, _, reaches⟩ := walks.before_point
      rcases reaches.unfollowed with unfollowed | ⟨link, target, stops⟩
      · rw [parts] at unfollowed
        exact unfollowed.location_ne_nil notHere notAbove
      · have slot : files.slot path = .ok (.found link (.link target)) :=
          locate_eq_ok_iff.mpr ⟨permitted, stops⟩
        rw [slot] at notLink
        exact (notLink rfl).elim

/-- A folder that is removed lies below the root. -/
theorem put_of_gives_removeTree (ends : EndsBelow path)
    {entries : List (String × FileTree)}
    (folder : before.entry path = .ok (.found location (.folder entries)))
    (success : Gives (removeTree path) before () after) :
    location ≠ [] ∧ after = before.put location none := by
  obtain ⟨front, name, points, parts, notHere, notAbove, arePoints⟩ :=
    ends.parts
  unfold removeTree at success
  obtain ⟨destination, located, success⟩ :=
    gives_lift_bind_iff.mp (gives_get_bind_iff.mp success)
  cases folder.symm.trans located
  dsimp only at success
  rcases List.eq_nil_or_concat' points with rfl | ⟨others, point, rfl⟩
  · rw [parts, List.getLast?_concat] at success
    split at success
    · rename_i isPoint
      exact (notHere (Option.some.inj isPoint)).elim
    · rename_i climbs
      exact (notAbove (Option.some.inj climbs)).elim
    · split at success
      · exact (not_gives_bind_throw success).elim
      · rename_i notLink
        exact ⟨ne_nil_of_entry parts notHere notAbove folder notLink,
          gives_place_iff.mp success⟩
  · obtain rfl : point = "." := arePoints point (by simp)
    have last : (Path.parts path).getLast? = some "." := by
      rw [parts, ← List.cons_append, ← List.append_assoc, List.getLast?_concat]
    rw [last] at success
    exact (not_gives_bind_throw success).elim

/-! ## Creating a folder with the folders above it -/

/-- Whether every step up in a path leads from a folder that is there. -/
def ClimbsFromFolders (files : Files) (path : String) : Prop :=
  ∀ above below, Path.steps path = above ++ ".." :: below → above ≠ [] →
    files.hasFolder (Path.ofSteps (Path.isAbsolute path) above) = true

theorem climbsFromFolders_of_down
    (down : ∀ name ∈ Path.steps path, name ≠ "..") :
    files.ClimbsFromFolders path := by
  intro above below steps
  exact (down ".." (by simp [steps]) rfl).elim

/-- The path above leads up from folders that are there if the path
itself does. -/
theorem ClimbsFromFolders.above (climbs : files.ClimbsFromFolders path)
    {above : List String} {name : String}
    (steps : Path.steps path = above ++ [name]) :
    files.ClimbsFromFolders (Path.ofSteps (Path.isAbsolute path) above) := by
  obtain ⟨stepsAbove, sameRoot, _⟩ := Path.above_of_steps steps
  intro front back split nonempty
  rw [stepsAbove] at split
  rw [sameRoot]
  refine climbs front (back ++ [name]) ?_ nonempty
  rw [steps, split, List.append_assoc, List.cons_append]

/-- A folder at a path is there without the slash at its end. -/
theorem locate_of_hasFolder (present : files.hasFolder path = true) :
    ∃ location entries,
      files.locate path (Path.parts path) true =
        .ok (.found location (.folder entries)) := by
  obtain ⟨location, entries, found⟩ := hasFolder_eq_true_iff.mp present
  unfold Files.target Path.names at found
  split at found
  · obtain ⟨permitted, walks⟩ := locate_eq_ok_iff.mp found
    obtain ⟨others, _, reaches⟩ := walks.before_point
    exact ⟨location, others, locate_eq_ok_iff.mpr ⟨permitted, reaches⟩⟩
  · exact ⟨location, entries, found⟩

/-- A folder that is there is not created. -/
theorem run_requireFolder_of_hasFolder (present : files.hasFolder path = true) :
    run (requireFolder path) files = (.ok (), files) := by
  rw [run_requireFolder, run_createFolder]
  cases slot : files.slot path with
  | error error =>
      dsimp only
      rw [if_pos present]
  | ok destination =>
      cases destination with
      | found location entry =>
          dsimp only
          rw [if_pos present]
      | missing location =>
          obtain ⟨place, entries, found⟩ := locate_of_hasFolder present
          obtain ⟨permitted, walks⟩ := locate_eq_ok_iff.mp slot
          have absent :=
            locate_eq_ok_iff.mpr ⟨permitted, walks.missing_followed⟩
          cases found.symm.trans absent

/-- A folder that is required where there is none is empty. -/
theorem target_of_requireFolder (absent : before.hasFolder path = false)
    (success : Gives (requireFolder path) before () after) :
    ∃ location, after.target path = .ok (.found location .empty) := by
  rcases created_of_requireFolder success with
    ⟨location, missing, rfl⟩ | ⟨present, _⟩
  · obtain ⟨permitted, walks⟩ := locate_eq_ok_iff.mp missing
    obtain ⟨grows, placed⟩ := walks.grows_at_missing .empty
    have found := walks.missing_followed.found_of_missing grows placed
      (by simp [isLink, empty])
    refine ⟨location, locate_eq_ok_iff.mpr ⟨permitted, ?_⟩⟩
    unfold Path.names
    cases Path.endsWithSlash path with
    | true => exact found.onto_point
    | false => exact found
  · cases absent.symm.trans present

/-- Nothing is found below an empty folder. -/
theorem hasFolder_below_empty {above : List String} {name : String}
    (nonempty : above ≠ [])
    (steps : Path.steps path = above ++ [name]) (notAbove : name ≠ "..")
    (empty : files.target (Path.ofSteps (Path.isAbsolute path) above) =
      .ok (.found location .empty)) : files.hasFolder path = false := by
  obtain ⟨_, sameRoot, areNames⟩ := Path.above_of_steps steps
  have notHere : name ≠ "." := by
    have inPath : name ∈ Path.steps path := by
      rw [steps]
      exact List.mem_append_right _ List.mem_cons_self
    exact (Path.isName_of_mem_steps inPath).2
  by_contra present
  obtain ⟨place, entries, found⟩ :=
    hasFolder_eq_true_iff.mp (by simpa using present)
  have walks := (locate_eq_ok_iff.mp found).2
  rw [← Path.filter_names] at steps
  obtain ⟨first, second, split, firsts, lasts⟩ :=
    List.filter_eq_append_iff.mp steps
  obtain ⟨points, others, equal, arePoints, _, _⟩ :=
    List.filter_eq_cons_iff.mp lasts
  rw [split, equal, ← List.append_assoc] at walks
  obtain ⟨_, folder, children, reaches, onwards⟩ := walks.split (by simp)
  -- The walk reaches the empty folder first, and has to look up a name in it.
  have leads := Walks.withoutPoints [] (first ++ points) reaches
  rw [List.nil_append, List.filter_append, firsts,
    List.filter_eq_nil_iff.mpr arePoints, List.append_nil] at leads
  obtain ⟨permitted, walked⟩ := locate_eq_ok_iff.mp empty
  rw [Path.names_ofSteps _ nonempty areNames, sameRoot] at walked
  have same := (follow_of_walks leads).symm.trans (follow_of_walks walked)
  obtain ⟨rfl, isEmpty⟩ := Destination.found.inj (Except.ok.inj same)
  cases isEmpty
  have stands := walked.stands
  rw [← List.reverse_reverse folder] at stands
  cases onwards with
  | point => exact notHere rfl
  | above => exact notAbove rfl
  | jump folder _ linked =>
      cases stands.symm.trans folder
      cases linked
  | down folder _ found =>
      cases stands.symm.trans folder
      cases found

/-- Nothing is created where a path without steps starts. -/
theorem of_gives_createFoldersAlong_nil {absolute : Bool}
    (success : Gives (createFoldersAlong (Path.ofSteps absolute []) [])
      before () after) :
    after = before := by
  rw [createFoldersAlong] at success
  split at success
  · exact (gives_pure_iff.mp success).2
  · rcases created_of_requireFolder success with
      ⟨location, missing, _⟩ | ⟨_, same⟩
    · have walks := (locate_eq_ok_iff.mp missing).2
      rw [Path.parts_ofSteps absolute (by simp)] at walks
      cases walks
    · exact same

/-- Nothing is created above a path where there is a folder already. -/
theorem run_createFoldersAlong_of_hasFolder {name : String}
    {above : List String} (present : files.hasFolder path = true) :
    run (createFoldersAlong path (name :: above)) files = (.ok (), files) := by
  rw [createFoldersAlong, run_tryCatch, run_requireFolder_of_hasFolder present]

/-- Folders that are created along a path end in one that is empty, if
there was none. -/
theorem target_of_createFoldersAlong {name : String} {above : List String}
    (steps : Path.steps path = (name :: above).reverse)
    (climbs : before.ClimbsFromFolders path)
    (absent : before.hasFolder path = false)
    (success : Gives (createFoldersAlong path (name :: above))
      before () after) :
    ∃ location, after.target path = .ok (.found location .empty) := by
  induction above generalizing path name after with
  | nil =>
      rcases gives_createFoldersAlong success with
        required | ⟨between, created, required⟩
      · exact target_of_requireFolder absent required
      · cases of_gives_createFoldersAlong_nil created
        exact target_of_requireFolder absent required
  | cons second rest induction =>
      rcases gives_createFoldersAlong success with
        required | ⟨between, created, required⟩
      · exact target_of_requireFolder absent required
      rw [List.reverse_cons] at steps
      cases parent : before.hasFolder
          (Path.ofSteps (Path.isAbsolute path) (second :: rest).reverse) with
      | true =>
          cases (run_createFoldersAlong_of_hasFolder parent).symm.trans created
          exact target_of_requireFolder absent required
      | false =>
          have notAbove : name ≠ ".." := by
            rintro rfl
            cases parent.symm.trans (climbs _ [] steps (by simp))
          obtain ⟨stepsAbove, _⟩ := Path.above_of_steps steps
          obtain ⟨location, empty⟩ :=
            induction stepsAbove (climbs.above steps) parent created
          refine target_of_requireFolder ?_ required
          exact hasFolder_below_empty (by simp) steps notAbove empty

/-- A folder that is created with the folders above it is empty, if
there was none. -/
theorem target_of_createFolders (ends : EndsBelow path)
    (climbs : before.ClimbsFromFolders path)
    (absent : before.hasFolder path = false)
    (success : Gives (createFolders path) before () after) :
    ∃ location, after.target path = .ok (.found location .empty) := by
  obtain ⟨above, name, steps, _⟩ := ends
  unfold createFolders at success
  rw [steps, List.reverse_append, List.reverse_singleton,
    List.singleton_append] at success
  refine target_of_createFoldersAlong ?_ climbs absent success
  rw [steps, List.reverse_cons, List.reverse_reverse]

end Files

namespace IncludeCache

open CiPipeline.FileTree CiPipeline.Files

variable {before after : Files} {path : String}

/-- There is nothing at a path from which a link or what is in a folder has
been removed. -/
theorem absent_of_removal (orderly : before.root.Orderly)
    (ends : EndsBelow path)
    (success : Gives (do unlinkStale path; clear path) before () after) :
    after.hasFolder path = false := by
  obtain ⟨_, between, unlinking, clearing⟩ := gives_bind_iff.mp success
  obtain ⟨stays, unlinked⟩ :
      between.root.Orderly ∧ between.hasLink path = false := by
    rcases of_gives_unlinkStale unlinking with
      ⟨location, entry, located, isLink, rfl⟩ | ⟨notLink, rfl⟩
    · obtain ⟨target, rfl⟩ := exists_link_of_isLink isLink
      refine ⟨orderly.set location (by simp), ?_⟩
      by_contra remains
      unfold Files.hasLink at remains
      split at remains
      · rename_i place standing found
        exact not_found_of_removal orderly (ne_nil_of_entry_link ends located)
          located _ _ found
      · exact remains rfl
    · exact ⟨orderly, notLink⟩
  rcases of_gives_clear clearing with ⟨_, removal⟩ | ⟨absent, rfl⟩
  · obtain ⟨location, entry, located, _⟩ := entry_of_gives_removeTree removal
    cases entry with
    | link target =>
        unfold Files.hasLink at unlinked
        rw [located] at unlinked
        cases unlinked
    | file content =>
        unfold removeTree at removal
        obtain ⟨_, found, failed⟩ :=
          gives_lift_bind_iff.mp (gives_get_bind_iff.mp removal)
        cases located.symm.trans found
        exact (not_gives_throw failed).elim
    | folder entries =>
        obtain ⟨below, rfl⟩ := put_of_gives_removeTree ends located removal
        by_contra remains
        obtain ⟨place, others, found⟩ :=
          hasFolder_eq_true_iff.mp (by simpa using remains)
        exact not_found_of_removal stays below
          (target_of_entry located rfl) _ _ found
  · by_contra present
    obtain ⟨place, others, found⟩ :=
      hasFolder_eq_true_iff.mp (by simpa using present)
    cases absent.symm.trans (has_eq_true_iff.mpr ⟨place, _, found⟩)

/-- What was at a path has been removed, and a folder has been created there. -/
structure MadeAnew (path : String) (before cleared after : Files) : Prop where
  removal : Gives (do unlinkStale path; clear path) before () cleared
  creation : Gives (createFolders path) cleared () after

/-- A folder that has been made anew is empty, unless a step up in its path
leads from a folder that is missing in between. -/
theorem MadeAnew.target {cleared : Files}
    (made : MadeAnew path before cleared after) (orderly : before.root.Orderly)
    (ends : EndsBelow path) (climbs : cleared.ClimbsFromFolders path) :
    ∃ location, after.target path = .ok (.found location .empty) :=
  target_of_createFolders ends climbs
    (absent_of_removal orderly ends made.removal) made.creation

end IncludeCache

end CiPipeline
