import CiPipeline.Include.Cache
import CiPipeline.Proofs.Files.Walks

/-!
# Runs of file actions

What file actions need in order to succeed, what they have changed when they do,
and where the entries that they put can be found.
-/

namespace CiPipeline

namespace Files

open CiPipeline.FileTree

variable {Given Result : Type} {before after files : Files}

/-- Runs an action on files: its result, and the files after it. -/
def run (action : FileAction Result) (files : Files) :
    Except IoError Result × Files :=
  action.run.run files

/-- Whether an action succeeds with a result, and what it makes of the files. -/
def Gives (action : FileAction Result) (before : Files) (result : Result)
    (after : Files) : Prop :=
  run action before = (.ok result, after)

/-! ## Composition -/

@[simp] theorem run_pure (result : Result) (files : Files) :
    run (pure result) files = (.ok result, files) := rfl

@[simp] theorem run_throw (error : IoError) (files : Files) :
    run (throw error : FileAction Result) files = (.error error, files) := rfl

@[simp] theorem run_place (location : List String) (entry : Option FileTree)
    (files : Files) :
    run (place location entry) files = (.ok (), files.put location entry) := rfl

private theorem run_bind (action : FileAction Given)
    (next : Given → FileAction Result) (files : Files) :
    run (action >>= next) files =
      match run action files with
      | (.ok given, between) => run (next given) between
      | (.error error, between) => (.error error, between) := by
  unfold run
  rw [ExceptT.run_bind, StateT.run_bind]
  rcases action.run.run files with ⟨error | given, between⟩ <;> rfl

private theorem run_get_bind (next : Files → FileAction Result)
    (files : Files) :
    run (get >>= next) files = run (next files) files := rfl

private theorem run_lift_bind (reading : Except IoError Given)
    (next : Given → FileAction Result) (files : Files) :
    run (liftM reading >>= next) files =
      match reading with
      | .ok given => run (next given) files
      | .error error => (.error error, files) := by
  cases reading <;> rfl

theorem run_tryCatch (action : FileAction Result)
    (handler : IoError → FileAction Result) (files : Files) :
    run (tryCatch action handler) files =
      match run action files with
      | (.ok result, between) => (.ok result, between)
      | (.error error, between) => run (handler error) between := by
  simp only [run, MonadExcept.tryCatch, tryCatchThe, MonadExceptOf.tryCatch,
    ExceptT.tryCatch, ExceptT.run, ExceptT.mk, StateT.run_bind]
  rcases StateT.run action files with ⟨error | result, between⟩ <;> rfl

section

variable {action : FileAction Given} {next : Given → FileAction Result}
  {result : Result}

theorem gives_bind_iff :
    Gives (action >>= next) before result after ↔
      ∃ given between, Gives action before given between ∧
        Gives (next given) between result after := by
  unfold Gives
  rw [run_bind]
  rcases run action before with ⟨error | given, between⟩
  · simp
  · constructor
    · intro success
      exact ⟨given, between, rfl, success⟩
    · rintro ⟨_, _, ⟨⟩, success⟩
      exact success

theorem gives_pure_iff {value : Result} :
    Gives (pure value) before result after ↔
      result = value ∧ after = before := by
  simp [Gives, eq_comm]

theorem not_gives_throw {error : IoError} :
    ¬ Gives (throw error) before result after := by
  simp [Gives]

theorem not_gives_bind_throw {error : IoError} :
    ¬ Gives (action >>= fun _ => (throw error : FileAction Result)) before
      result after := by
  intro impossible
  obtain ⟨_, _, _, failed⟩ := gives_bind_iff.mp impossible
  exact not_gives_throw failed

theorem gives_place_iff {location : List String} {entry : Option FileTree} :
    Gives (place location entry) before () after ↔
      after = before.put location entry := by
  simp [Gives, eq_comm]

theorem gives_get_bind_iff {next : Files → FileAction Result} :
    Gives (get >>= next) before result after ↔
      Gives (next before) before result after := Iff.rfl

theorem gives_lift_bind_iff {reading : Except IoError Given} :
    Gives (liftM reading >>= next) before result after ↔
      ∃ given, reading = .ok given ∧
        Gives (next given) before result after := by
  unfold Gives
  rw [run_lift_bind]
  cases reading <;> simp

end

/-! ## Where paths lead -/

/-- A path that may be looked up. -/
structure Permitted (path : String) : Prop where
  present : path.isEmpty = false
  valid : '\x00' ∉ path.toList
  short : path.utf8ByteSize < pathLimit

theorem locate_eq_ok_iff {path : String} {names : List String} {last : Bool}
    {destination : Destination} :
    files.locate path names last = .ok destination ↔
      Permitted path ∧ Walks files.root last mostLinks
        (if Path.isAbsolute path then [] else files.here.reverse) names
        destination := by
  rw [← follow_eq_ok_iff]
  unfold locate
  constructor
  · intro success
    split at success
    · cases success
    · rename_i present
      split at success
      · cases success
      · rename_i valid
        split at success
        · cases success
        · rename_i short
          exact ⟨⟨by simpa using present, by simpa using valid, by omega⟩,
            success⟩
  · rintro ⟨permitted, success⟩
    rw [if_neg (by simp [permitted.present]),
      if_neg (by simp [permitted.valid]),
      if_neg (Nat.not_le.mpr permitted.short)]
    exact success

theorem names_of_bare {path : String} (bare : Path.endsWithSlash path = false) :
    Path.names path = Path.parts path := by
  unfold Path.names
  rw [bare]
  rfl

variable {path : String} {location : List String}

/-- Only a path without a slash at its end names a link. -/
theorem bare_of_entry_link {target : String}
    (linked : files.entry path = .ok (.found location (.link target))) :
    Path.endsWithSlash path = false := by
  by_contra slash
  unfold Files.entry Path.names at linked
  rw [if_pos (by simpa using slash)] at linked
  obtain ⟨_, isFolder, _⟩ := (locate_eq_ok_iff.mp linked).2.before_point
  cases isFolder

theorem has_eq_true_iff :
    files.has path = .ok true ↔ ∃ location entry,
      files.target path = .ok (.found location entry) := by
  unfold has
  rcases files.target path with error | ⟨location, entry⟩ | location
  · cases error <;> simp
  · simp
  · simp

theorem has_of_missing (bare : Path.endsWithSlash path = false)
    (absent : files.slot path = .ok (.missing location)) :
    files.has path = .ok false := by
  obtain ⟨permitted, walks⟩ := locate_eq_ok_iff.mp absent
  have target : files.target path = .ok (.missing location) := by
    unfold Files.target
    rw [names_of_bare bare]
    exact locate_eq_ok_iff.mpr ⟨permitted, walks.missing_followed⟩
  unfold has
  rw [target]

/-- What is put at the missing name at the end of a path is what
the path names. -/
theorem entry_put_of_missing (bare : Path.endsWithSlash path = false)
    (absent : files.slot path = .ok (.missing location)) (entry : FileTree) :
    (files.put location (some entry)).entry path =
      .ok (.found location entry) := by
  obtain ⟨permitted, walks⟩ := locate_eq_ok_iff.mp absent
  obtain ⟨grows, placed⟩ := walks.grows_at_missing entry
  unfold Files.entry
  rw [names_of_bare bare]
  exact locate_eq_ok_iff.mpr
    ⟨permitted, walks.found_of_missing grows placed (by simp)⟩

theorem at?_of_missing (absent : files.target path = .ok (.missing location)) :
    files.root.at? location = none :=
  (locate_eq_ok_iff.mp absent).2.at?_missing

/-- A file that is put where a path leads is there. -/
theorem has_put_of_missing
    (absent : files.target path = .ok (.missing location))
    (content : ByteArray) :
    (files.put location (some (.file content))).has path = .ok true := by
  obtain ⟨permitted, walks⟩ := locate_eq_ok_iff.mp absent
  obtain ⟨grows, placed⟩ := walks.grows_at_missing (.file content)
  have found := walks.found_of_missing grows placed (by simp [isLink])
  exact has_eq_true_iff.mpr ⟨_, _, locate_eq_ok_iff.mpr ⟨permitted, found⟩⟩

/-- A folder stays one when something is put where nothing is. -/
theorem entry_folder_put {entries : List (String × FileTree)}
    {place : List String}
    (folder : files.entry path = .ok (.found location (.folder entries)))
    (absent : files.root.at? place = none) (entry : Option FileTree) :
    ∃ others, (files.put place entry).entry path =
      .ok (.found location (.folder others)) := by
  obtain ⟨permitted, walks⟩ := locate_eq_ok_iff.mp folder
  obtain ⟨standing, found, same⟩ :=
    walks.found_of_grows (grows_set absent entry)
  obtain ⟨others, rfl⟩ := exists_folder_of_kind same
  exact ⟨others, locate_eq_ok_iff.mpr ⟨permitted, found⟩⟩

/-! ## Folders -/

theorem run_createFolder (path : String) (files : Files) :
    run (createFolder path) files =
      match files.slot path with
      | .ok (.missing location) => (.ok (), files.put location (some .empty))
      | .ok (.found _ _) => (.error .alreadyThere, files)
      | .error error => (.error error, files) := by
  unfold createFolder
  rw [run_get_bind, run_lift_bind]
  rcases files.slot path with error | ⟨location, entry⟩ | location <;> rfl

theorem gives_createFolder_iff :
    Gives (createFolder path) before () after ↔
      ∃ location, before.slot path = .ok (.missing location) ∧
        after = before.put location (some .empty) := by
  unfold Gives
  rw [run_createFolder]
  rcases before.slot path with error | ⟨location, entry⟩ | location
  · simp
  · simp
  · simp [eq_comm]

/-- A folder that is required is created, unless it is there already. -/
theorem run_requireFolder (path : String) (files : Files) :
    run (requireFolder path) files =
      match run (createFolder path) files with
      | (.ok (), between) => (.ok (), between)
      | (.error error, _) =>
          (if files.hasFolder path then .ok () else .error error, files) := by
  unfold requireFolder
  rw [run_tryCatch, run_createFolder]
  rcases files.slot path with error | ⟨location, entry⟩ | location
  · dsimp only
    rw [run_get_bind]
    cases files.hasFolder path <;> rfl
  · dsimp only
    rw [run_get_bind]
    cases files.hasFolder path <;> rfl
  · rfl

private theorem run_requireFolder_error {error : IoError}
    (failed : run (requireFolder path) before = (.error error, after)) :
    after = before := by
  rw [run_requireFolder] at failed
  split at failed
  · cases failed
  · exact (Prod.mk.inj failed).2.symm

theorem created_of_requireFolder
    (success : Gives (requireFolder path) before () after) :
    (∃ location, before.slot path = .ok (.missing location) ∧
      after = before.put location (some .empty)) ∨
    before.hasFolder path = true ∧ after = before := by
  unfold Gives at success
  rw [run_requireFolder] at success
  split at success
  · rename_i created
    exact .inl (gives_createFolder_iff.mp (created.trans success))
  · obtain ⟨present, equal⟩ := Prod.mk.inj success
    refine .inr ⟨?_, equal.symm⟩
    by_contra absent
    rw [if_neg absent] at present
    cases present

/-- Creating folders creates the last one, once the folders above
it are there. -/
theorem gives_createFoldersAlong {name : String} {above : List String}
    (success : Gives (createFoldersAlong path (name :: above))
      before () after) :
    Gives (requireFolder path) before () after ∨
      ∃ between, Gives (createFoldersAlong
          (Path.ofSteps (Path.isAbsolute path) above.reverse) above) before
          () between ∧
        Gives (requireFolder path) between () after := by
  unfold Gives at success
  rw [createFoldersAlong, run_tryCatch] at success
  split at success
  · rename_i required
    exact .inl (required.trans success)
  · rename_i error between failed
    cases run_requireFolder_error failed
    split at success
    · obtain ⟨_, between, created, required⟩ := gives_bind_iff.mp success
      exact .inr ⟨between, created, required⟩
    · exact (not_gives_throw success).elim

theorem run_createFolders_of_missing
    (absent : files.slot path = .ok (.missing location)) :
    run (createFolders path) files =
      (.ok (), files.put location (some .empty)) := by
  have created : run (requireFolder path) files =
      (.ok (), files.put location (some .empty)) := by
    rw [run_requireFolder, run_createFolder, absent]
  unfold createFolders
  cases (Path.steps path).reverse with
  | nil =>
      rw [createFoldersAlong,
        if_neg (by simp [(locate_eq_ok_iff.mp absent).1.present])]
      exact created
  | cons name above => rw [createFoldersAlong, run_tryCatch, created]

/-! ## Files and links -/

theorem gives_remove_iff :
    Gives (remove path) before () after ↔
      ∃ location entry, before.entry path = .ok (.found location entry) ∧
        entry.isFolder = false ∧ after = before.put location none := by
  unfold remove
  rw [gives_get_bind_iff, gives_lift_bind_iff]
  constructor
  · rintro ⟨destination, located, success⟩
    cases destination with
    | missing location => exact (not_gives_throw success).elim
    | found location entry =>
        dsimp only at success
        split at success
        · exact (not_gives_throw success).elim
        · rename_i notFolder
          exact ⟨location, entry,
            located, by simpa using notFolder, gives_place_iff.mp success⟩
  · rintro ⟨location, entry, located, notFolder, equal⟩
    refine ⟨_, located, ?_⟩
    dsimp only
    rw [notFolder]
    exact gives_place_iff.mpr equal

/-- A link is put at a missing name. -/
theorem slot_of_gives_link {target : String}
    (success : Gives (link target path) before () after) :
    ∃ location, before.slot path = .ok (.missing location) ∧
      Path.endsWithSlash path = false ∧
      after = before.put location (some (.link target)) := by
  unfold link at success
  dsimp only at success
  split at success
  · obtain ⟨_, _, impossible, _⟩ := gives_bind_iff.mp success
    exact (not_gives_throw impossible).elim
  · split at success
    · obtain ⟨_, _, impossible, _⟩ := gives_bind_iff.mp success
      exact (not_gives_throw impossible).elim
    · obtain ⟨destination, located, success⟩ :=
        gives_lift_bind_iff.mp (gives_get_bind_iff.mp success)
      cases destination with
      | found location entry => exact (not_gives_throw success).elim
      | missing location =>
          dsimp only at success
          split at success
          · exact (not_gives_throw success).elim
          · rename_i bare
            exact ⟨location,
              located, by simpa using bare, gives_place_iff.mp success⟩

/-- A file is written at a missing name, or in the place of another file. -/
theorem locate_of_gives_write {content : ByteArray}
    (success : Gives (write path content) before () after) :
    ∃ destination, before.locate path (Path.parts path) true = .ok destination ∧
      (∀ location entry,
        destination = .found location entry → entry.isFolder = false) ∧
      after = before.put destination.location (some (.file content)) := by
  unfold write at success
  obtain ⟨destination, located, success⟩ :=
    gives_lift_bind_iff.mp (gives_get_bind_iff.mp success)
  refine ⟨destination, located, ?_⟩
  cases destination with
  | missing location =>
      dsimp only at success
      split at success
      · exact (not_gives_throw success).elim
      · refine ⟨?_, gives_place_iff.mp success⟩
        rintro _ _ ⟨⟩
  | found location entry =>
      dsimp only at success
      split at success
      · exact (not_gives_throw success).elim
      · rename_i permitted
        simp only [Bool.or_eq_true, not_or, Bool.not_eq_true] at permitted
        refine ⟨?_, gives_place_iff.mp success⟩
        rintro _ _ ⟨⟩
        exact permitted.2

/-- A link is removed, and a folder whose path leads straight down to it. -/
theorem entry_of_gives_removeTree
    (success : Gives (removeTree path) before () after) :
    ∃ location entry, before.entry path = .ok (.found location entry) ∧
      ((Path.parts path).getLast? ≠ some ".." →
        after = before.put location none) := by
  unfold removeTree at success
  obtain ⟨destination, located, success⟩ :=
    gives_lift_bind_iff.mp (gives_get_bind_iff.mp success)
  cases destination with
  | missing location => exact (not_gives_throw success).elim
  | found location entry =>
      refine ⟨location, entry, located, ?_⟩
      intro down
      cases entry with
      | link target => exact gives_place_iff.mp success
      | file content => exact (not_gives_throw success).elim
      | folder entries =>
          dsimp only at success
          split at success
          · exact (not_gives_bind_throw success).elim
          · rename_i climbs
            exact (down climbs).elim
          · split at success
            · exact (not_gives_bind_throw success).elim
            · exact gives_place_iff.mp success

end Files

namespace IncludeCache

open Files

variable {before after : Files} {path : String}

theorem of_gives_unlinkStale
    (success : Gives (unlinkStale path) before () after) :
    (∃ location entry, before.entry path = .ok (.found location entry) ∧
      entry.isLink = true ∧
      after = before.put location none) ∨
    before.hasLink path = false ∧ after = before := by
  have success := gives_get_bind_iff.mp success
  split at success
  · rename_i linked
    obtain ⟨location, entry, located, _, equal⟩ := gives_remove_iff.mp success
    have isLink : entry.isLink = true := by
      unfold Files.hasLink at linked
      rw [located] at linked
      exact linked
    exact .inl ⟨location, entry, located, isLink, equal⟩
  · rename_i notLinked
    exact .inr ⟨by simpa using notLinked, (gives_pure_iff.mp success).2⟩

theorem of_gives_clear (success : Gives (clear path) before () after) :
    before.has path = .ok true ∧ Gives (removeTree path) before () after ∨
      before.has path = .ok false ∧ after = before := by
  have success := gives_get_bind_iff.mp success
  obtain ⟨present, between, read, success⟩ := gives_bind_iff.mp success
  have looked : before.has path = .ok present ∧ between = before := by
    cases has : before.has path with
    | error error =>
        rw [has] at read
        cases read
    | ok value =>
        rw [has] at read
        cases read
        exact ⟨rfl, rfl⟩
  obtain ⟨has, rfl⟩ := looked
  cases present with
  | true => exact .inl ⟨has, success⟩
  | false => exact .inr ⟨has, (gives_pure_iff.mp success).2⟩

end IncludeCache

end CiPipeline
