import CiPipeline.JobFields
import CiPipeline.Proofs.Document.Entries
import CiPipeline.Proofs.Sequencing

/-!
# What the field passes do to jobs

A field pass goes through the entries of a document one by one.  It writes a
single field of every job, whose new value depends only on the old one, and
leaves every other entry as it is.
-/

namespace CiPipeline.JobFields

open CiPipeline.Sequencing

variable {trail : Trail} {change : Trail → Entries → Except Failure Entries}
  {entries after : Entries} {document result : Node}

/-- How one entry of a document is changed when a change is made
to every job. -/
inductive Changed (trail : Trail)
    (change : Trail → Entries → Except Failure Entries) (name : String) :
    Node → Node → Prop where
  | job {fields changed : Entries} :
      JobName.isReal name = true →
      change (trail.descend name) fields = .ok changed →
      Changed trail change name (.mapping fields) (.mapping changed)
  | other {definition : Node} :
      JobName.isReal name = false →
      Changed trail change name definition definition

/-- The change of one entry as a step that may fail. -/
def changeEntry (trail : Trail)
    (change : Trail → Entries → Except Failure Entries)
    (entry : String × Node) : Except Failure (String × Node) :=
  let (name, definition) := entry
  if JobName.isReal name then
    match definition with
    | .mapping fields => do
        return (name, Node.mapping (← change (trail.descend name) fields))
    | other => .error ((trail.descend name).fail (.jobNotAMapping other.kind))
  else .ok (name, definition)

theorem changeEntry_eq_ok_iff {entry changed : String × Node} :
    changeEntry trail change entry = .ok changed ↔
      changed.1 = entry.1 ∧ Changed trail change entry.1 entry.2 changed.2 := by
  obtain ⟨name, definition⟩ := entry
  obtain ⟨newName, newDefinition⟩ := changed
  cases real : JobName.isReal name with
  | false =>
      constructor
      · intro success
        simp only [changeEntry, real, Bool.false_eq_true, if_false] at success
        cases success
        exact ⟨rfl, .other real⟩
      · rintro ⟨rfl, becomes⟩
        cases becomes with
        | job listed _ => simp [real] at listed
        | other _ => simp [changeEntry, real]
  | true =>
      constructor
      · intro success
        simp only [changeEntry, real, if_true] at success
        cases definition with
        | mapping fields =>
            obtain ⟨changed, step, equal⟩ := bind_eq_ok_iff.mp success
            cases equal
            exact ⟨rfl, .job real step⟩
        | _ => cases success
      · rintro ⟨rfl, becomes⟩
        cases becomes with
        | job _ step =>
            simp only [changeEntry, real, if_true]
            exact bind_eq_ok_iff.mpr ⟨_, step, rfl⟩
        | other hidden => simp [real] at hidden

/-- A change of the jobs succeeds exactly when every job is a mapping that the
change accepts. -/
theorem mapJobs_eq_ok_iff :
    mapJobs trail change (.mapping entries) = .ok result ↔
      ∃ after, result = .mapping after ∧
        Entries.Related (Changed trail change) entries after := by
  have steps (after : Entries) :
      entries.mapM (changeEntry trail change) = .ok after ↔
      Entries.Related (Changed trail change) entries after := by
    rw [mapM_eq_ok_iff]
    constructor
    · exact List.Forall₂.imp fun _ _ step => changeEntry_eq_ok_iff.mp step
    · exact List.Forall₂.imp fun _ _ becomes =>
        changeEntry_eq_ok_iff.mpr becomes
  constructor
  · intro success
    obtain ⟨after, all, equal⟩ := bind_eq_ok_iff.mp success
    cases equal
    exact ⟨after, rfl, (steps after).mp all⟩
  · rintro ⟨after, rfl, related⟩
    exact bind_eq_ok_iff.mpr ⟨after, (steps after).mpr related, rfl⟩

/-! ## Writing a field -/

/-- What to put in the place of a value of a field, if anything. -/
abbrev Update := Trail → Option Node → Except Failure (Option Node)

/-- Updates one field of a job. -/
def write (field : String) (update : Update) (trail : Trail) (job : Entries) :
    Except Failure Entries := do
  match ← update trail (job.lookup field) with
  | some value => return job.put field value
  | none => return job

/-- A value that is given: an explicit null counts as none. -/
def given : Option Node → Option Node
  | some .null => none
  | value => value

/-- The update of a field that jobs without a value take from the pipeline. -/
def inheriting (fallback : Option Node) : Update := fun _ current =>
  match given current, fallback with
  | none, some value => .ok (some value)
  | _, _ => .ok none

/-- The update of a field whose value, or else that of the pipeline, is brought
into one form. -/
def normalizing (field : String) (normal : Trail → Node → Except Failure Node)
    (fallback : Option Node) : Update := fun trail current =>
  match (given current).or fallback with
  | none => .ok none
  | some value => do return some (← normal (trail.descend field) value)

/-- The update of a script, which comes after the lines of the pipeline. -/
def joining (field : String) (fallback : Option Node) : Update :=
  fun trail current => do
  let trail := trail.descend field
  let common ← scriptLines trail fallback
  let own ← scriptLines trail current
  if (common ++ own).isEmpty then return none
  else return some (.sequence (← References.flattenItems trail (common ++ own)))

theorem value?_eq_given (job : Entries) (field : String) :
    job.value? field = given (job.lookup field) := rfl

theorem write_eq_ok_iff {field : String} {update : Update}
    {job changed : Entries} :
    write field update trail job = .ok changed ↔
      (update trail (job.lookup field) = .ok none ∧ changed = job) ∨
      ∃ value, update trail (job.lookup field) = .ok (some value) ∧
        changed = job.put field value := by
  unfold write
  cases updated : update trail (job.lookup field) with
  | error failure => simp
  | ok new => cases new <;> simp [eq_comm]

theorem artifacts_eq_write (trail : Trail) (document : Node) :
    artifacts trail document =
      mapJobs trail (write "artifacts"
        (inheriting (pipelineDefault document "artifacts"))) document := by
  unfold artifacts
  dsimp only
  congr 1
  funext trail job
  rw [value?_eq_given]
  unfold write inheriting
  cases given (job.lookup "artifacts") <;>
    cases pipelineDefault document "artifacts" <;> rfl

private theorem write_normalizing (field : String)
    (normal : Trail → Node → Except Failure Node) (fallback : Option Node) :
    write field (normalizing field normal fallback) = fun trail job =>
      match ownOr job field fallback with
      | none => .ok job
      | some value => do
          return job.put field (← normal (trail.descend field) value) := by
  funext trail job
  unfold write normalizing ownOr
  rw [value?_eq_given]
  cases (given (job.lookup field)).or fallback with
  | none => rfl
  | some value =>
      dsimp only
      cases normal (trail.descend field) value <;> rfl

theorem image_eq_write (trail : Trail) (document : Node) :
    image trail document =
      mapJobs trail (write "image"
        (normalizing "image" normalizeImage (pipelineDefault document "image")))
        document := by
  rw [write_normalizing]
  rfl

theorem services_eq_write (trail : Trail) (document : Node) :
    services trail document =
      mapJobs trail (write "services"
        (normalizing "services" normalizeServices
          (pipelineDefault document "services"))) document := by
  rw [write_normalizing]
  rfl

private theorem joinScript_eq_write (field : String) (fallback : Option Node) :
    joinScript field fallback = write field (joining field fallback) := by
  funext trail job
  unfold joinScript write joining
  dsimp only
  cases scriptLines (trail.descend field) fallback with
  | error failure => rfl
  | ok common =>
      simp only [ok_bind]
      cases scriptLines (trail.descend field) (job.lookup field) with
      | error failure => rfl
      | ok own =>
          simp only [ok_bind]
          split
          · rfl
          · cases References.flattenItems (trail.descend field)
              (common ++ own) <;> rfl

theorem joinScripts_eq_write (field : String) (trail : Trail)
    (document : Node) :
    joinScripts field trail document =
      mapJobs trail (write field
        (joining field (pipelineDefault document field))) document := by
  unfold joinScripts
  rw [joinScript_eq_write]

theorem requireScript_eq_ok_iff {job changed : Entries} :
    requireScript trail job = .ok changed ↔
      isRunnable job = true ∧ changed = job := by
  unfold requireScript Trail.assert
  cases isRunnable job <;> simp [eq_comm]

end CiPipeline.JobFields
