import CiPipeline.Trail

/-!
# The top level of a document

A top-level key is reserved for the configuration of the pipeline, or
names a job.  A job whose name starts with a dot is hidden: it serves as
a template only.
-/

namespace CiPipeline

namespace JobName

/-- The keys that configure the pipeline. -/
def reserved : List String :=
  ["include", "local_configuration", "image", "services", "stages", "types",
    "before_script",
    "after_script", "default", "variables", "cache", "workflow", "artifacts"]

/-- Whether a key configures the pipeline. -/
def isReserved (key : String) : Bool := reserved.contains key

/-- Whether a key starts with a dot. -/
def isHidden (key : String) : Bool := key.toList.head? == some '.'

/-- Whether a key names a job that runs. -/
def isReal (key : String) : Bool := !isReserved key && !isHidden key

end JobName

namespace JobFields

/-- Changes the definition of every job of a document, in order. -/
def mapJobs (trail : Trail)
    (change : Trail → Entries → Except Failure Entries) :
    Node → Except Failure Node
  | .mapping entries => do
      let changed ← entries.mapM fun (name, definition) =>
        if JobName.isReal name then
          match definition with
          | .mapping fields => do
              return (name, Node.mapping (← change (trail.descend name) fields))
          | other =>
              .error ((trail.descend name).fail (.jobNotAMapping other.kind))
        else .ok (name, definition)
      return .mapping changed
  | node => .ok node

/-- The value of a field for the whole pipeline: the one under `default`, else
the one at the top level, where only reserved keys are read. -/
def pipelineDefault (document : Node) (field : String) : Option Node :=
  match (document.get? "default").bind (·.get? field) with
  | some value => some value
  | none => if JobName.isReserved field then document.get? field else none

end JobFields

end CiPipeline
