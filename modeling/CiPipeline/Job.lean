import CiPipeline.Container
import CiPipeline.Expansion
import CiPipeline.Repository

/-!
# Jobs

A job is read from its complete definition.  Its variables come in layers, each
over the one before: those every job sees, those of the pipeline, its own, and
those that were asked for.  Its rules are evaluated over them.
-/

namespace CiPipeline

/-- When a job runs relative to the rest of its pipeline. -/
inductive When where
  | onSuccess
  | onFailure
  | always
  | manual
  | delayed
  | never
  deriving DecidableEq, Repr, Inhabited

namespace When

/-- The written form. -/
def text : When → String
  | .onSuccess => "on_success"
  | .onFailure => "on_failure"
  | .always => "always"
  | .manual => "manual"
  | .delayed => "delayed"
  | .never => "never"

/-- Reads the written form. -/
def read? : String → Option When
  | "on_success" => some .onSuccess
  | "on_failure" => some .onFailure
  | "always" => some .always
  | "manual" => some .manual
  | "delayed" => some .delayed
  | "never" => some .never
  | _ => none

private theorem read?_text (when_ : When) : read? when_.text = some when_ := by
  cases when_ <;> rfl

/-- Reads the written form at a place of a document. -/
def read (trail : Trail) (text : String) : Except Failure When :=
  trail.require (read? text) (.unknownWhen text)

end When

structure Job where
  name : String
  stage : String
  beforeScript : List String
  script : List String
  afterScript : List String
  image : Option Image
  services : List Service
  artifacts : Option Node
  needs : Option (List String)
  /-- Whether the job starts another pipeline instead of running a script. -/
  trigger : Bool
  bindings : Variables
  rules : Option RuleSet
  when_ : When
  allowFailure : Bool
  interactive : Bool
  injectSshAgent : Bool
  artifactsToSource : Bool
  description : Option String
  deriving Repr, Inhabited

/-- What a job takes from the pipeline around it. -/
structure JobEnvironment where
  document : Node
  repository : Repository
  pipelineNumber : Nat
  /-- Variables that win over all others. -/
  overrides : Variables
  version : Version

namespace Job

/-- The variables of a job by itself. -/
def predefined (environment : JobEnvironment) (name stage : String) :
    Variables :=
  let all := environment.repository.bindings ++
    [ ("CI_JOB_NAME", name), ("CI_JOB_STAGE", stage),
      ("CI_PIPELINE_IID", toString environment.pipelineNumber),
      ("CI_PIPELINE_SOURCE", "push"), ("GITLAB_CI", "false") ]
  all.mergeSort fun left right => decide (left.1 ≤ right.1)

/-- The value of a variable of the pipeline: a scalar, or the scalar
under `value`. -/
def globalValue? (value : Node) : Option String :=
  value.scalar?.or ((value.get? "value").bind Node.scalar?)

/-- The variables of the pipeline; what is no value is left out. -/
def globalVariables (document : Node) : Variables :=
  match document.get? "variables" with
  | some (.mapping entries) =>
      entries.filterMap fun (name, value) =>
        (globalValue? value).map fun text => (name, text)
  | _ => []

/-- The variables of the job's own definition, as they are written. -/
def ownVariables (trail : Trail) (definition : Node) :
    Except Failure Variables :=
  match definition.get? "variables" with
  | none => .ok []
  | some (.mapping entries) =>
      entries.mapM fun (name, value) => do
        return (name,
          ← trail.require value.scalar? (.jobVariableNotScalar name))
  | some _ => .error (trail.fail .jobVariablesNotAMapping)

/-- All variables of a job in their layers.  Its own are expanded over those
before them. -/
def allVariables (environment : JobEnvironment) (trail : Trail)
    (name stage : String) (definition : Node) : Except Failure Variables := do
  let common := Variables.layer (predefined environment name stage)
    (globalVariables environment.document)
  let own ← ownVariables (trail.descend "variables") definition
  let layered := Variables.layer common (Expansion.expandValues common own)
  return Variables.layer layered environment.overrides

/-- When a job runs and whether it may fail. -/
structure Schedule where
  when_ : When
  allowFailure : Bool
  deriving DecidableEq, Repr

/-- The schedule by the rule on which the job's rules settle.  A job none of
whose rules holds never runs. -/
def scheduleByRule (trail : Trail) (declaredWhen : Option When)
    (declaredFailure : Option Bool) :
    Option Outcome → Except Failure Schedule
  | some ⟨true, rule⟩ => do
      let when_ ← match rule.when_ with
        | some text => When.read (trail.descend "rules") text
        | none => .ok (declaredWhen.getD .onSuccess)
      return ⟨when_,
        (rule.allowFailure.or declaredFailure).getD (when_ == .manual)⟩
  | _ => .ok ⟨.never, declaredFailure.getD false⟩

def schedule (version : Version) (trail : Trail) (bindings : Variables)
    (declaredWhen : Option When) (declaredFailure : Option Bool) :
    Option RuleSet → Except Failure Schedule
  | none =>
      let when_ := declaredWhen.getD .onSuccess
      .ok ⟨when_, declaredFailure.getD (when_ == .manual)⟩
  | some rules => do
      let outcome ← Rules.evaluate version (trail.bind bindings) rules
      scheduleByRule trail declaredWhen declaredFailure outcome

def lines (trail : Trail) (definition : Node) (field : String) :
    Except Failure (List String) :=
  let trail := trail.descend field
  match definition.get? field with
  | none => .ok []
  | some (.sequence lines) =>
      lines.mapM fun line =>
        trail.require line.scalar? (.lineNotAText field line.kind)
  | some _ => .error (trail.fail (.linesNotAList field))

/-- The name of a needed job: a text, or the text under `job`. -/
def needName? (need : Node) : Option String :=
  need.text?.or ((need.get? "job").bind Node.text?)

def readNeeds (trail : Trail) (definition : Node) :
    Except Failure (Option (List String)) :=
  let trail := trail.descend "needs"
  match definition.get? "needs" with
  | none => .ok none
  | some (.sequence needs) => do
      return some (← needs.mapM fun need =>
        trail.require (needName? need) (.invalidNeed need))
  | some _ => .error (trail.fail .needsNotAList)

/-- Reads a field in a form of its own. -/
def readField {Value : Type} (trail : Trail) (definition : Node)
    (field : String) (read : Node → Except String Value) :
    Except Failure (Option Value) :=
  match definition.get? field with
  | none => .ok none
  | some value =>
      match read value.plain with
      | .ok value => .ok (some value)
      | .error reason => .error ((trail.descend field).wrap (.json reason))

def readRules (trail : Trail) (definition : Node) :
    Except Failure (Option RuleSet) :=
  match definition.get? "rules" with
  | none => .ok none
  | some rules => ((trail.descend "rules").run (RuleSet.read rules)).map some

/-- When a job runs unless its rules say otherwise. -/
def readWhen (trail : Trail) (definition : Node) :
    Except Failure (Option When) :=
  match (definition.get? "when").bind Node.text? with
  | none => .ok none
  | some text => (When.read (trail.descend "when") text).map some

/-- Reads a job from its complete definition and evaluates its rules. -/
def ofDefinition (environment : JobEnvironment) (trail : Trail) (name : String)
    (definition : Node) : Except Failure Job := do
  let stage := ((definition.get? "stage").bind Node.scalar?).getD "test"
  let bindings ← allVariables environment trail name stage definition
  let rules ← readRules trail definition
  let declaredWhen ← readWhen trail definition
  let declaredFailure := (definition.get? "allow_failure").bind Node.boolean?
  let schedule ←
    schedule environment.version trail bindings declaredWhen
      declaredFailure rules
  let image ← readField trail definition "image" Image.ofNode
  let services ← readField trail definition "services" Service.ofNodes
  let flag (field : String) (missing : Bool) : Bool :=
    ((definition.get? field).bind Node.boolean?).getD missing
  let beforeScript ← lines trail definition "before_script"
  let script ← lines trail definition "script"
  let afterScript ← lines trail definition "after_script"
  let needs ← readNeeds trail definition
  return { name, stage, beforeScript, script, afterScript, image, needs,
           bindings, rules,
           services := services.getD [],
           artifacts := definition.get? "artifacts",
           trigger := (definition.get? "trigger").isSome,
           when_ := schedule.when_,
           allowFailure := schedule.allowFailure,
           interactive := flag "interactive" false,
           injectSshAgent := flag "injectSSHAgent" false,
           artifactsToSource := flag "artifactsToSource" true,
           description := (definition.get? "description").bind Node.scalar? }

/-- Whether a job would be started at all. -/
def isRunnable (job : Job) : Bool := job.when_ != .never

end Job

end CiPipeline
