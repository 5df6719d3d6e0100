import CiPipeline.Job
import CiPipeline.Normalization

/-!
# Pipelines

A pipeline is a normalized document with its stages and its jobs.
-/

namespace CiPipeline

/-- What a pipeline is resolved with beside its document and repository. -/
structure PipelineOptions where
  pipelineNumber : Nat := 0
  overrides : Variables := []
  version : Version := Version.standard
  deriving Repr, Inhabited

/-- A resolved pipeline. -/
structure Pipeline where
  /-- The normalized document. -/
  document : Node
  stages : List String
  jobs : List Job
  repository : Repository
  deriving Repr, Inhabited

namespace Pipeline

/-- The stage before all others. -/
def firstStage : String := ".pre"

/-- The stage after all others. -/
def lastStage : String := ".post"

/-- Adds the first and the last stage where they are not listed. -/
def bracketStages (stages : List String) : List String :=
  let stages :=
    if stages.contains firstStage then stages else firstStage :: stages
  if stages.contains lastStage then stages else stages ++ [lastStage]

def readStages (trail : Trail) (document : Node) :
    Except Failure (List String) := do
  let trail := trail.descend "stages"
  let declared ← trail.require ((document.get? "stages").bind Node.items?)
    .stagesMalformed
  let stages ← declared.mapM fun stage =>
    trail.require stage.scalar? (.invalidStage stage)
  return bracketStages stages

def withStages (document : Node) (stages : List String) : Node :=
  match document with
  | .mapping entries =>
      .mapping (Entries.put entries "stages" (.sequence (stages.map .text)))
  | node => node

/-- The definitions of the jobs of a document. -/
def definitions : Node → List (String × Node)
  | .mapping entries => entries.filter fun (name, _) => JobName.isReal name
  | _ => []

/-- Whether a node may be the value of a job's variable. -/
def isVariableValue : Node → Bool
  | .text _ => true
  | .number _ => true
  | _ => false

/-- Requires that the variables of a job are texts or numbers by name. -/
def checkVariables (trail : Trail) (definition : String × Node) :
    Except Failure Unit :=
  let (name, definition) := definition
  let trail := (trail.descend name).descend "variables"
  match definition.get? "variables" with
  | none => .ok ()
  | some (.mapping entries) =>
      entries.forM fun (key, value) =>
        trail.assert (isVariableValue value) (.variableNotScalar name key value)
  | some other => .error (trail.fail (.variablesNotPairs name other))

/-- Reads a job, which has to belong to one of the stages. -/
def readJob (environment : JobEnvironment) (stages : List String)
    (trail : Trail) (definition : String × Node) : Except Failure Job := do
  let trail := trail.descend definition.1
  let job ← Job.ofDefinition environment trail definition.1 definition.2
  trail.assert (stages.contains job.stage) (.unknownStage job.stage job.name)
  return job

/-- Resolves a merged document into a pipeline. -/
def ofDocument (options : PipelineOptions) (repository : Repository)
    (document : Node) : Except Failure Pipeline := do
  let trail := Trail.root
  let normalized ← normalize trail document
  let stages ← readStages trail normalized
  let document := withStages normalized stages
  (definitions document).forM (checkVariables trail)
  let environment : JobEnvironment :=
    { document, repository, pipelineNumber := options.pipelineNumber,
      overrides := options.overrides, version := options.version }
  let jobs ← (definitions document).mapM (readJob environment stages trail)
  return { document, stages, jobs, repository }

/-- The length of the longest name of a job. -/
def namePad (pipeline : Pipeline) : Nat :=
  (pipeline.jobs.map fun job => job.name.length).foldl max 0

end Pipeline

end CiPipeline
