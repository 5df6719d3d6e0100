import CiPipeline.Include.Cache
import CiPipeline.Proofs.Files.Path
import CiPipeline.Proofs.Files.Runs
import CiPipeline.Proofs.Sequencing

/-!
# Confined file actions

A file action is confined to a location when it changes nothing beside it.
Actions on paths below the location are confined as long as the names of the
paths lead straight down, and past no link before their ends.
-/

namespace CiPipeline

open CiPipeline.FileTree CiPipeline.Sequencing

/-- A location to which changes are confined, and what may stand in the files
meanwhile. -/
structure Confinement where
  /-- The folder of relative paths. -/
  here : List String
  /-- The location to which changes are confined. -/
  storage : List String
  /-- Where links may stand. -/
  mayLink : List String → Prop
  /-- What files may hold. -/
  mayHold : ByteArray → Prop

namespace Confinement

variable (world : Confinement)

/-- Files in which links and contents are as they may be, and in which folders
lead to the location. -/
structure Admits (files : Files) : Prop where
  here : files.here = world.here
  links : ∀ place target, files.root.Occurs place (.link target) →
    world.mayLink place
  contents : ∀ place content, files.root.Occurs place (.file content) →
    world.mayHold content
  above : ∀ place, place <+: world.storage → place ≠ world.storage →
    ∃ entries, files.root.at? place = some (.folder entries)

/-- Files that are as they may be after changes that left everything beside the
location alone. -/
structure Keeps (before after : Files) : Prop where
  admits : world.Admits after
  same : SameBeside world.storage before.root after.root

/-- A run that changes nothing beside the location.  When it succeeds, its
result satisfies a condition. -/
def Confined {State Error Result : Type} (files : State → Files)
    (run : State → Except Error Result × State)
    (holds : Result → Prop) : Prop :=
  ∀ state, world.Admits (files state) →
    world.Keeps (files state) (files (run state).2) ∧
      ∀ result, (run state).1 = .ok result → holds result

/-- A file action whose runs are confined. -/
def Confines {Result : Type} (action : FileAction Result)
    (holds : Result → Prop) : Prop :=
  world.Confined id action.run.run holds

variable {world} {State Error Given Result : Type}

theorem Keeps.refl {files : Files} (admits : world.Admits files) :
    world.Keeps files files :=
  ⟨admits, .refl _ _⟩

theorem Keeps.trans {before between after : Files}
    (first : world.Keeps before between) (second : world.Keeps between after) :
    world.Keeps before after :=
  ⟨second.admits, first.same.trans second.same⟩

/-! ## Composition of runs -/

section

variable {files : State → Files} {holds weaker : Result → Prop}
  {between : Given → Prop}

theorem confined_idle {result : Except Error Result}
    (satisfied : ∀ value, result = .ok value → holds value) :
    world.Confined files (fun state => (result, state)) holds := by
  intro state admits
  exact ⟨.refl admits, satisfied⟩

theorem Confined.mono {run : State → Except Error Result × State}
    (confined : world.Confined files run holds)
    (implies : ∀ result, holds result → weaker result) :
    world.Confined files run weaker := by
  intro state admits
  obtain ⟨keeps, satisfied⟩ := confined state admits
  exact ⟨keeps, fun result success => implies result (satisfied result success)⟩

theorem Confined.bind {run : State → Except Error Given × State}
    {next : Given → State → Except Error Result × State}
    {whole : State → Except Error Result × State}
    (first : world.Confined files run between)
    (second : ∀ given, between given → world.Confined files (next given) holds)
    (composed : ∀ state, whole state = match run state with
      | (.ok given, after) => next given after
      | (.error error, after) => (.error error, after)) :
          world.Confined files whole holds := by
  intro state admits
  obtain ⟨keeps, satisfied⟩ := first state admits
  rw [composed]
  rcases equal : run state with ⟨given | given, after⟩
  · rw [equal] at keeps
    exact ⟨keeps, by rintro _ ⟨⟩⟩
  · rw [equal] at keeps satisfied
    obtain ⟨keepsNext, result⟩ :=
      second given (satisfied given rfl) after keeps.admits
    exact ⟨keeps.trans keepsNext, result⟩

theorem Confined.tryCatch {run : State → Except Error Result × State}
    {handle : Error → State → Except Error Result × State}
    {whole : State → Except Error Result × State}
    (first : world.Confined files run holds)
    (second : ∀ error, world.Confined files (handle error) holds)
    (composed : ∀ state, whole state = match run state with
      | (.ok result, after) => (.ok result, after)
      | (.error error, after) => handle error after) :
          world.Confined files whole holds := by
  intro state admits
  obtain ⟨keeps, satisfied⟩ := first state admits
  rw [composed]
  rcases equal : run state with ⟨error | result, after⟩
  · rw [equal] at keeps
    obtain ⟨keepsNext, handled⟩ := second error after keeps.admits
    exact ⟨keeps.trans keepsNext, handled⟩
  · rw [equal] at keeps satisfied
    exact ⟨keeps, satisfied⟩

end

/-! ## Composition of file actions -/

theorem confines_pure {result : Result} {holds : Result → Prop}
    (satisfied : holds result) :
    world.Confines (pure result) holds := by
  refine confined_idle ?_
  rintro _ ⟨rfl⟩
  exact satisfied

private theorem confines_throw {error : IoError} {holds : Result → Prop} :
    world.Confines (throw error : FileAction Result) holds :=
  confined_idle (by rintro _ ⟨⟩)

theorem confines_get :
    world.Confines (get : FileAction Files) world.Admits := by
  intro files admits
  refine ⟨.refl admits, ?_⟩
  rintro _ ⟨rfl⟩
  exact admits

private theorem confines_lift (reading : Except IoError Result) :
    world.Confines (liftM reading) fun result => reading = .ok result :=
  confined_idle fun _ success => success

theorem confines_ofExcept (reading : Except IoError Result) :
    world.Confines (MonadExcept.ofExcept reading) fun _ => True := by
  cases reading with
  | error error => exact confines_throw
  | ok result => exact confines_pure trivial

theorem Confines.bind {action : FileAction Given}
    {next : Given → FileAction Result} {between : Given → Prop}
    {holds : Result → Prop} (first : world.Confines action between)
    (second : ∀ given, between given → world.Confines (next given) holds) :
    world.Confines (action >>= next) holds := by
  refine Confined.bind first second ?_
  intro files
  rw [ExceptT.run_bind, StateT.run_bind]
  rcases action.run.run files with ⟨error | given, after⟩ <;> rfl

private theorem Confines.tryCatch {action : FileAction Result}
    {handler : IoError → FileAction Result} {holds : Result → Prop}
    (first : world.Confines action holds)
    (second : ∀ error, world.Confines (handler error) holds) :
    world.Confines (tryCatch action handler) holds := by
  refine Confined.tryCatch first second ?_
  intro files
  simp only [MonadExcept.tryCatch, tryCatchThe, MonadExceptOf.tryCatch,
    ExceptT.tryCatch, ExceptT.run, ExceptT.mk, StateT.run_bind]
  rcases StateT.run action files with ⟨error | result, after⟩ <;> rfl

/-! ## Setting an entry -/

/-- An entry that may be set at a location. -/
structure MaySet (world : Confinement) (location : List String)
    (entry : FileTree) : Prop where
  links : ∀ rest target,
    entry.Occurs rest (.link target) → world.mayLink (location ++ rest)
  contents : ∀ rest content,
    entry.Occurs rest (.file content) → world.mayHold content

private theorem maySet_empty (location : List String) :
    MaySet world location FileTree.empty := by
  constructor
  · intro rest target occurs
    cases occurs with
    | inside member _ => cases member
  · intro rest content occurs
    cases occurs with
    | inside member _ => cases member

private theorem maySet_file (location : List String) {content : ByteArray}
    (permitted : world.mayHold content) :
    MaySet world location (.file content) := by
  constructor
  · intro rest target occurs
    cases occurs
  · intro rest other occurs
    cases occurs
    exact permitted

private theorem maySet_link {location : List String} (target : String)
    (permitted : world.mayLink location) :
    MaySet world location (.link target) := by
  constructor
  · intro rest other occurs
    cases occurs
    rwa [List.append_nil]
  · intro rest content occurs
    cases occurs

/-- Setting or removing an entry at the location or below it is confined. -/
theorem confines_place {location : List String}
    (inside : world.storage <+: location) {entry : Option FileTree}
    (permitted : ∀ new, entry = some new → MaySet world location new) :
    world.Confines (Files.place location entry) fun _ => True := by
  intro files (admits : world.Admits files)
  have same :
      SameBeside world.storage files.root (files.root.set location entry) :=
    (sameBeside_set files.root location entry).mono inside
  refine ⟨⟨?_, same⟩, fun _ _ => trivial⟩
  constructor
  · exact admits.here
  · intro place target occurs
    rcases occurs_of_set rfl occurs with before | ⟨new, rest, equal, rfl, inNew⟩
    · exact admits.links place target before
    · exact (permitted new equal).links rest target inNew
  · intro place content occurs
    rcases occurs_of_set rfl occurs with before | ⟨new, rest, equal, rfl, inNew⟩
    · exact admits.contents place content before
    · exact (permitted new equal).contents rest content inNew
  · intro place prefixes proper
    obtain ⟨entries, stands⟩ := admits.above place prefixes proper
    have beside : ¬ world.storage <+: place := by
      intro below
      exact proper (prefixes.eq_of_length_le below.length_le)
    have kinds := same place beside
    rw [stands] at kinds
    exact exists_of_folder kinds

/-! ## Straight paths -/

variable (world) in
/-- The location that a path spells. -/
def place (path : String) : List String :=
  (if Path.isAbsolute path then [] else world.here) ++ Path.parts path

variable (world) in
/-- A path whose names lead straight down, and past no link before its end. -/
structure Straight (path : String) : Prop where
  down : ∀ name ∈ Path.parts path, name ≠ "." ∧ name ≠ ".."
  unlinked : ∀ above, above <+: world.place path → above ≠ world.place path →
    ¬ world.mayLink above

variable (world) in
/-- A straight path on the way to the location or below it. -/
structure Aligned (path : String) : Prop extends world.Straight path where
  near : world.storage <+: world.place path ∨ world.place path <+: world.storage

variable (world) in
/-- A straight path to the location or below it, without a slash at its end. -/
structure Within (path : String) : Prop extends world.Straight path where
  bare : Path.endsWithSlash path = false
  inside : world.storage <+: world.place path

variable {path : String}

theorem Within.aligned (within : world.Within path) : world.Aligned path :=
  { within.toStraight with near := .inl within.inside }

theorem Straight.steps_eq (straight : world.Straight path) :
    Path.steps path = Path.parts path := by
  unfold Path.steps
  rw [List.filter_eq_self]
  intro name member
  simpa using (straight.down name member).1

theorem place_join (base : String) (relative : Path.isAbsolute path = false) :
    world.place (Path.join base path) =
      world.place base ++ Path.parts path := by
  unfold place
  rw [Path.isAbsolute_join base relative, Path.parts_join base relative,
    List.append_assoc]

/-- The path of the first names of a straight path is straight. -/
theorem Aligned.ofSteps (aligned : world.Aligned path)
    {front back : List String} (spelled : Path.parts path = front ++ back) :
    world.Aligned (Path.ofSteps (Path.isAbsolute path) front) ∧
      Path.parts (Path.ofSteps (Path.isAbsolute path) front) = front := by
  have areNames : ∀ name ∈ front, Path.IsName name := by
    intro name member
    have inPath : name ∈ Path.parts path := by simp [spelled, member]
    exact Path.isName_of_mem_parts inPath
  have names := Path.parts_ofSteps (Path.isAbsolute path) areNames
  have shorter : world.place (Path.ofSteps (Path.isAbsolute path) front) <+:
      world.place path := by
    unfold place
    rw [Path.isAbsolute_ofSteps _ areNames, names, spelled]
    exact ⟨back, by rw [List.append_assoc]⟩
  refine ⟨⟨⟨?_, ?_⟩, ?_⟩, names⟩
  · intro name member
    rw [names] at member
    exact aligned.down name (by simp [spelled, member])
  · intro above prefixes proper
    refine aligned.unlinked above (prefixes.trans shorter) ?_
    rintro rfl
    exact proper (prefixes.eq_of_length_le shorter.length_le)
  · rcases aligned.near with inside | towards
    · exact List.prefix_or_prefix_of_prefix inside shorter
    · exact .inr (shorter.trans towards)

private theorem locate_leadsTo {files : Files} (admits : world.Admits files)
    (straight : world.Straight path) {last : Bool}
    (atEnd : last = true → ¬ world.mayLink (world.place path))
    {destination : Destination}
    (success : files.locate path (Path.parts path) last = .ok destination) :
    files.root.LeadsTo (world.place path) destination := by
  have start :
      (if Path.isAbsolute path then [] else files.here.reverse).reverse =
        if Path.isAbsolute path then [] else world.here := by
    rw [admits.here]
    split
    · rfl
    · exact List.reverse_reverse world.here
  have leads := (Files.locate_eq_ok_iff.mp success).2.leadsTo straight.down
  rw [start] at leads
  -- Above its end the path meets no link; at its end there may be one that is
  -- not followed.
  refine leads ?_
  intro above prefixes followed target stands
  have linked := admits.links above target (occurs_of_at? stands)
  by_cases whole : above = world.place path
  · subst whole
    rcases followed with proper | wholePath
    · exact proper rfl
    · exact atEnd wholePath linked
  · exact straight.unlinked above prefixes whole linked

private theorem slot_leadsTo {files : Files} (admits : world.Admits files)
    (straight : world.Straight path) {destination : Destination}
    (success : files.slot path = .ok destination) :
    files.root.LeadsTo (world.place path) destination :=
  locate_leadsTo admits straight (by simp) success

private theorem entry_leadsTo {files : Files} (admits : world.Admits files)
    (within : world.Within path) {destination : Destination}
    (success : files.entry path = .ok destination) :
    files.root.LeadsTo (world.place path) destination := by
  unfold Files.entry at success
  rw [Files.names_of_bare within.bare] at success
  exact locate_leadsTo admits within.toStraight (by simp) success

/-- The text in a file is that of something that files may hold. -/
theorem Admits.text {files : Files} (admits : world.Admits files)
    {text : String} (success : files.text path = .ok text) :
    ∃ content, world.mayHold content ∧
      String.fromUTF8? content = some text := by
  obtain ⟨content, read, success⟩ := bind_eq_ok_iff.mp success
  refine ⟨content, ?_, ?_⟩
  · unfold Files.content at read
    split at read
    · rename_i location found located
      cases read
      have stands := (Files.locate_eq_ok_iff.mp located).2.stands
      exact admits.contents location _ (occurs_of_at? stands)
    · cases read
    · cases read
    · cases read
  · split at success
    · cases success
      assumption
    · cases success

/-! ## Creating folders -/

private theorem confines_createFolder (aligned : world.Aligned path) :
    world.Confines (Files.createFolder path) fun _ => True := by
  refine confines_get.bind ?_
  intro files admits
  refine (confines_lift _).bind ?_
  intro destination located
  cases destination with
  | found location entry => exact confines_throw
  | missing location =>
      obtain ⟨rfl, absent⟩ := slot_leadsTo admits aligned.toStraight located
      by_cases inside : world.storage <+: world.place path
      · refine confines_place inside ?_
        rintro _ ⟨rfl⟩
        exact maySet_empty _
      · -- A folder stands wherever the path is still on its way to the
        -- location.
        have towards := aligned.near.resolve_left inside
        have proper : world.place path ≠ world.storage := by
          intro equal
          exact inside (equal ▸ List.prefix_rfl)
        obtain ⟨entries, stands⟩ := admits.above _ towards proper
        cases absent.symm.trans stands

private theorem confines_requireFolder (aligned : world.Aligned path) :
    world.Confines (Files.requireFolder path) fun _ => True := by
  refine (confines_createFolder aligned).tryCatch ?_
  intro error
  refine confines_get.bind ?_
  intro files _
  split
  · exact confines_throw
  · exact confines_pure trivial

private theorem confines_createFoldersAlong {names : List String}
    (aligned : world.Aligned path) (spelled : Path.parts path = names.reverse) :
    world.Confines (Files.createFoldersAlong path names) fun _ => True := by
  -- The path above is put together again from its names; that it is straight
  -- and near the storage is what the induction carries.
  induction names generalizing path with
  | nil =>
      rw [Files.createFoldersAlong]
      split
      · exact confines_pure trivial
      · exact confines_requireFolder aligned
  | cons name above induction =>
      rw [List.reverse_cons] at spelled
      obtain ⟨parentAligned, parentSpelled⟩ := aligned.ofSteps spelled
      have parent := induction parentAligned parentSpelled
      rw [Files.createFoldersAlong]
      refine (confines_requireFolder aligned).tryCatch ?_
      intro error
      cases error with
      | notFound => exact parent.bind fun _ _ => confines_requireFolder aligned
      | _ => exact confines_throw

theorem confines_createFolders (aligned : world.Aligned path) :
    world.Confines (Files.createFolders path) fun _ => True := by
  unfold Files.createFolders
  refine confines_createFoldersAlong aligned ?_
  rw [List.reverse_reverse, aligned.steps_eq]

/-! ## Files and links -/

theorem confines_write (within : world.Within path)
    (unlinked : ¬ world.mayLink (world.place path)) {content : ByteArray}
    (permitted : world.mayHold content) :
    world.Confines (Files.write path content) fun _ => True := by
  have placed :
      world.Confines (Files.place (world.place path) (some (.file content)))
        fun _ => True := by
    refine confines_place within.inside ?_
    rintro _ ⟨rfl⟩
    exact maySet_file _ permitted
  refine confines_get.bind ?_
  intro files admits
  refine (confines_lift _).bind ?_
  intro destination located
  have leads :=
    locate_leadsTo admits within.toStraight (fun _ => unlinked) located
  cases destination with
  | missing location =>
      obtain ⟨rfl, _⟩ := leads
      dsimp only
      split
      · exact confines_throw
      · exact placed
  | found location entry =>
      obtain ⟨rfl, _⟩ := leads
      dsimp only
      split
      · exact confines_throw
      · exact placed

theorem confines_link (within : world.Within path)
    (permitted : world.mayLink (world.place path)) (target : String) :
    world.Confines (Files.link target path) fun _ => True := by
  have fails {error : IoError} {next : PUnit → FileAction Unit} :
      world.Confines (throw error >>= next) fun _ => True :=
    confines_throw.bind fun _ (impossible : False) => impossible.elim
  unfold Files.link
  dsimp only
  split
  · exact fails
  · split
    · exact fails
    · refine confines_get.bind ?_
      intro files admits
      refine (confines_lift _).bind ?_
      intro destination located
      have leads := slot_leadsTo admits within.toStraight located
      cases destination with
      | found location entry => exact confines_throw
      | missing location =>
          obtain ⟨rfl, _⟩ := leads
          dsimp only
          split
          · exact confines_throw
          · refine confines_place within.inside ?_
            rintro _ ⟨rfl⟩
            exact maySet_link target permitted

theorem confines_remove (within : world.Within path) :
    world.Confines (Files.remove path) fun _ => True := by
  refine confines_get.bind ?_
  intro files admits
  refine (confines_lift _).bind ?_
  intro destination located
  have leads := entry_leadsTo admits within located
  cases destination with
  | missing location => exact confines_throw
  | found location entry =>
      obtain ⟨rfl, _⟩ := leads
      dsimp only
      split
      · exact confines_throw
      · exact confines_place within.inside (by simp)

theorem confines_removeTree (within : world.Within path) :
    world.Confines (Files.removeTree path) fun _ => True := by
  have removed :
      world.Confines (Files.place (world.place path) none) fun _ => True :=
    confines_place within.inside (by simp)
  refine confines_get.bind ?_
  intro files admits
  refine (confines_lift _).bind ?_
  intro destination located
  have leads := entry_leadsTo admits within located
  cases destination with
  | missing location => exact confines_throw
  | found location entry =>
      obtain ⟨rfl, _⟩ := leads
      have emptied : world.Confines
          (Files.place (world.place path) (some .empty)) fun _ => True := by
        refine confines_place within.inside ?_
        rintro _ ⟨rfl⟩
        exact maySet_empty _
      cases entry with
      | link target => exact removed
      | file content => exact confines_throw
      | folder entries =>
          dsimp only
          split
          · exact emptied.bind fun _ _ => confines_throw
          · exact emptied
          · split
            · exact emptied.bind fun _ _ => confines_throw
            · exact removed

end Confinement

end CiPipeline
