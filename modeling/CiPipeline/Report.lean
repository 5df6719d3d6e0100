import CiPipeline.Json.Layout
import CiPipeline.Pipeline
import CiPipeline.Table
import CiPipeline.Yaml.Node

/-!
# Reports on pipelines

A pipeline as a table of its jobs, as its normalized document, and as data
about its jobs.
-/

namespace CiPipeline

def Node.ofTexts (texts : List String) : Node := .sequence (texts.map .text)

def Image.toNode (image : Image) : Node :=
  .mapping (("name", .text image.name) ::
    (image.entrypoint.map fun words =>
      ("entrypoint", Node.ofTexts words)).toList)

def Service.toNode (service : Service) : Node :=
  .mapping (("name", .text service.name) ::
    ((service.entrypoint.map fun words =>
      ("entrypoint", Node.ofTexts words)).toList ++ (service.command.map
        fun words => ("command", Node.ofTexts words)).toList ++
      (service.alias_.map fun name => ("alias", Node.text name)).toList))

def Rule.toNode (rule : Rule) : Node :=
  .mapping ((rule.condition.map fun condition =>
    ("if", Node.text condition)).toList ++
    (rule.when_.map fun name => ("when", Node.text name)).toList ++
    (rule.allowFailure.map fun allowed =>
      ("allow_failure", Node.boolean allowed)).toList)

mutual

def RuleSet.toNode : RuleSet → Node
  | .single rule => rule.toNode
  | .many sets => .sequence (RuleSet.toNodes sets)

def RuleSet.toNodes : List RuleSet → List Node
  | [] => []
  | set :: rest => set.toNode :: RuleSet.toNodes rest

end

/-- A job as a node.  What is not set is left out. -/
def Job.toNode (job : Job) : Node :=
  let services := if job.services.isEmpty then none else some job.services
  .mapping ([("name", .text job.name), ("stage", .text job.stage),
      ("before_script", Node.ofTexts job.beforeScript),
      ("script", Node.ofTexts job.script),
      ("after_script", Node.ofTexts job.afterScript)] ++
    (job.image.map fun image => ("image", image.toNode)).toList ++
    (services.map fun services =>
      ("services", Node.sequence (services.map Service.toNode))).toList ++
    (job.artifacts.map fun artifacts => ("artifacts", artifacts)).toList ++
    (job.needs.map fun needs => ("needs", Node.ofTexts needs)).toList ++
    [("trigger", .boolean job.trigger),
      ("variables", .mapping (job.bindings.map fun (name, value) =>
        (name, .text value)))] ++
    (job.rules.map fun rules => ("rules", rules.toNode)).toList ++
    [("when", .text job.when_.text), ("allow_failure",
      .boolean job.allowFailure), ("interactive", .boolean job.interactive),
      ("inject_ssh_agent", .boolean job.injectSshAgent),
      ("artifacts_to_source", .boolean job.artifactsToSource)] ++
    (job.description.map fun description =>
      ("description", Node.text description)).toList)

namespace Pipeline

/-- The normalized document. -/
def preview (pipeline : Pipeline) : String := pipeline.document.toYaml.toText

/-- The jobs by name, on one line or laid out in lines. -/
def json (pipeline : Pipeline) (inLines : Bool) : String :=
  let jobs : Node :=
    .mapping (pipeline.jobs.map fun job => (job.name, job.toNode))
  (if inLines then jobs.toJsonLines 0 else jobs.toJson) ++ "\n"

/-- Whether rules keep a job from running, or the job itself does. -/
def skippedCount (pipeline : Pipeline) : Nat :=
  pipeline.jobs.countP fun job => job.when_ == .never

/-- The lines above the table of jobs. -/
def listHead (pipeline : Pipeline) : String :=
  let skipped := pipeline.skippedCount
  let shown := pipeline.jobs.length - skipped
  s!"  Project: {pipeline.repository.projectPath}\n" ++
    s!"  Jobs: {shown}\n  Skipped by rules: {skipped}\n\n"

def listRow (pipeline : Pipeline) (job : Job) : List (List String) :=
  let name := job.name.pushn ' ' (pipeline.namePad - job.name.length)
  let lines (text : String) : List String := text.splitOn "\n"
  [lines name, lines job.stage, [job.when_.text],
    [if job.allowFailure then "true" else "false"],
    lines ("\n".intercalate (job.needs.getD [])),
    lines (job.description.getD "")]

/-- The jobs in the order of their stages, and those of a stage in the order of
the document. -/
def jobsByStage (pipeline : Pipeline) : List Job :=
  pipeline.stages.flatMap fun stage => pipeline.jobs.filter fun job =>
    job.stage == stage

def jobTable (pipeline : Pipeline) : Table :=
  { header :=
      ["Name", "Stage", "When", "Allow Failure", "Needs", "Description"],
    rows := pipeline.jobsByStage.map pipeline.listRow }

def jobList (pipeline : Pipeline) : String :=
  pipeline.listHead ++
    if pipeline.jobs.isEmpty then "No jobs found.\n"
    else pipeline.jobTable.text ++ "\n"

end Pipeline

end CiPipeline
