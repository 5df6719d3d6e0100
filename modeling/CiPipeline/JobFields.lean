import CiPipeline.JobName
import CiPipeline.References

/-!
# Fields of jobs

Every job takes the fields that it does not set from the defaults of the
pipeline, and images, services and scripts are brought into one form.
-/

namespace CiPipeline.JobFields

/-- The value of a field of a job, else the one of the pipeline. -/
def ownOr (job : Entries) (field : String) (fallback : Option Node) :
    Option Node :=
  (job.value? field).or fallback

/-- Keeps only some fields, in the given order, and no null. -/
def pick (fields : Entries) (keys : List String) : Entries :=
  keys.filterMap fun key => (fields.value? key).map fun value => (key, value)

/-- A mapping that holds a name only. -/
def named (name : String) : Node := .mapping [("name", .text name)]

/-- Artifacts: the job's own, else those of the pipeline. -/
def artifacts (trail : Trail) (document : Node) : Except Failure Node :=
  let fallback := pipelineDefault document "artifacts"
  mapJobs trail (fun _ job =>
    match Entries.value? job "artifacts", fallback with
    | none, some value => .ok (job.put "artifacts" value)
    | _, _ => .ok job) document

/-- An image as a mapping of a name and an entrypoint. -/
def normalizeImage (trail : Trail) : Node → Except Failure Node
  | .text name => .ok (named name)
  | .mapping fields => .ok (.mapping (pick fields ["name", "entrypoint"]))
  | other => .error (trail.fail (.imageMalformed other.kind))

/-- Images: the job's own, else that of the pipeline. -/
def image (trail : Trail) (document : Node) : Except Failure Node :=
  let fallback := pipelineDefault document "image"
  mapJobs trail (fun trail job =>
    match ownOr job "image" fallback with
    | none => .ok job
    | some value => do
        return job.put "image" (← normalizeImage (trail.descend "image") value))
          document

/-- A service as a mapping of a name, an entrypoint, a command and an alias. -/
def normalizeService (trail : Trail) : Node → Except Failure Node
  | .text name => .ok (named name)
  | .mapping fields =>
      match fields.lookup "name" with
      | some (.text _) =>
          .ok
            (.mapping (pick fields ["name", "entrypoint", "command", "alias"]))
      | _ => .error (trail.fail .serviceWithoutName)
  | other => .error (trail.fail (.serviceMalformed other.kind))

def normalizeServices (trail : Trail) : Node → Except Failure Node
  | .sequence entries => do
      return .sequence (← entries.zipIdx.mapM fun (entry, index) =>
        normalizeService (trail.descend (toString index)) entry)
  | other => .error (trail.fail (.servicesMalformed other.kind))

/-- Services: the job's own, else those of the pipeline. -/
def services (trail : Trail) (document : Node) : Except Failure Node :=
  let fallback := pipelineDefault document "services"
  mapJobs trail (fun trail job =>
    match ownOr job "services" fallback with
    | none => .ok job
    | some value => do
        return job.put "services"
          (← normalizeServices (trail.descend "services") value)) document

/-- The lines of a script: a scalar is one line, and nothing or null is none. -/
def scriptLines (trail : Trail) : Option Node → Except Failure (List Node)
  | none => .ok []
  | some .null => .ok []
  | some (.sequence lines) => .ok lines
  | some (.text line) => .ok [.text line]
  | some (.number line) => .ok [.number line]
  | some (.boolean line) => .ok [.boolean line]
  | some other => .error (trail.fail (.scriptMalformed other.kind))

/-- A script of a job: the lines of the pipeline, then its own, with nested
lists spliced. -/
def joinScript (field : String) (fallback : Option Node) (trail : Trail)
    (job : Entries) : Except Failure Entries := do
  let trail := trail.descend field
  let common ← scriptLines trail fallback
  let own ← scriptLines trail (job.lookup field)
  if (common ++ own).isEmpty then return job
  else
    return job.put field
      (.sequence (← References.flattenItems trail (common ++ own)))

/-- Scripts under one field: the lines of the pipeline, then those
of each job. -/
def joinScripts (field : String) (trail : Trail) (document : Node) :
    Except Failure Node :=
  mapJobs trail (joinScript field (pipelineDefault document field)) document

/-- Scripts that run before the jobs' own. -/
def beforeScripts : Trail → Node → Except Failure Node :=
  joinScripts "before_script"

/-- Scripts that run after the jobs' own. -/
def afterScripts : Trail → Node → Except Failure Node :=
  joinScripts "after_script"

/-- Whether a job has lines to run or starts another pipeline. -/
def isRunnable (job : Entries) : Bool :=
  let hasScript := match job.lookup "script" with
    | some (.sequence lines) => !lines.isEmpty
    | _ => false
  hasScript || (job.value? "trigger").isSome

/-- Requires that a job has something to run. -/
def requireScript (trail : Trail) (job : Entries) : Except Failure Entries := do
  trail.assert (isRunnable job) .missingScript
  return job

/-- The scripts of the jobs, which every job has that is no trigger. -/
def scripts (trail : Trail) (document : Node) : Except Failure Node := do
  mapJobs trail requireScript (← joinScripts "script" trail document)

end CiPipeline.JobFields
