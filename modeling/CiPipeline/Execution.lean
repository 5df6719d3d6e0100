import CiPipeline.CommandLine
import CiPipeline.Configuration
import CiPipeline.Pipeline.Loading
import CiPipeline.Report

/-!
# Carrying out command lines

A command line shows a pipeline or evaluates a condition.  What it says counts
before what the configuration says.
-/

namespace CiPipeline

/-- The messages of a failure: its text, and that of its cause where it
repeats one. -/
def Failure.messages (failure : Failure) : List String :=
  failure.text :: match failure with
    | .network reason => [reason]
    | .json reason => [reason]
    | .yaml reason => [reason]
    | .io reason => [reason]
    | _ => []

/-- Why a command line could not be carried out. -/
inductive ExecutionError where
  | configuration (error : Configuration.LoadError)
  | evaluation (failure : Failure)
  | resolution (failure : Failure)
  | output (path : String) (error : IoError)
  deriving Repr

/-- The messages of an error, from what was to be done to its cause. -/
def ExecutionError.messages : ExecutionError → List String
  | .configuration error => [error.message]
  | .evaluation failure => failure.messages
  | .resolution failure => "Failed to resolve pipeline" :: failure.messages
  | .output path error => [s!"Failed to create {path}", error.message]

namespace CommandLine

/-- The variables, those of the configuration first. -/
def variablesOver (line : CommandLine) (configuration : Configuration) :
    Variables :=
  Variables.layer configuration.bindings line.bindings

def checkout (line : CommandLine) : String := line.folder.getD "."

/-- Where the pipeline is loaded from, given the home directory of the user. -/
def location (line : CommandLine) (configuration : Configuration)
    (home : String) : PipelineLocation :=
  { checkout := line.checkout, file := line.file.getD configuration.file,
    home := (line.home.or configuration.home).getD home,
    refetches := line.refetches || configuration.refetches,
    options := { pipelineNumber := configuration.pipelineNumber,
                 overrides := line.variablesOver configuration,
                 version := line.version.getD configuration.version } }

/-- The form in which the pipeline is shown. -/
def format (line : CommandLine) (configuration : Configuration) :
    OutputFormat :=
  match line.action with
  | some .list => .list
  | some .preview => .preview
  | some .json => .json
  | _ => configuration.format

/-- The pipeline as it is shown.  On the standard output an empty line follows
the list of jobs. -/
def render (line : CommandLine) (configuration : Configuration)
    (pipeline : Pipeline) : String :=
  match line.format configuration with
  | .list =>
      if line.output.isSome then pipeline.jobList else pipeline.jobList ++ "\n"
  | .preview => pipeline.preview
  | .json => pipeline.json (line.isPretty || configuration.isPretty)

def evaluate (line : CommandLine) (configuration : Configuration)
    (expression : String) : Except ExecutionError String :=
  match Rules.evaluateCondition
      (Trail.root.bind (line.variablesOver configuration)) expression with
  | .ok holds => .ok (if holds then "true\n" else "false\n")
  | .error failure => .error (.evaluation failure)

/-- Writes a text to the file that a command line names, or else to the
standard output. -/
def deliver (line : CommandLine) (text : String) (files : Files) :
    Except ExecutionError String × Files :=
  match line.output with
  | none => (.ok text, files)
  | some path =>
      match (Files.write path text.toUTF8).run.run files with
      | (.ok (), files) => (.ok "", files)
      | (.error error, files) => (.error (.output path error), files)

/-- Carries out a command line: what goes to the standard output, and the
workspace after it. -/
def execute (line : CommandLine) (surroundings : Surroundings) (home : String)
    (workspace : Workspace) : Except ExecutionError String × Workspace :=
  match Configuration.load workspace.files line.configuration line.checkout with
  | .error error => (.error (.configuration error), workspace)
  | .ok configuration =>
      match line.expression with
      | some expression => (line.evaluate configuration expression, workspace)
      | none =>
          match Action.perform surroundings
              (Pipeline.load (line.location configuration home)) workspace with
          | (.error failure, workspace) =>
              (.error (.resolution failure), workspace)
          | (.ok pipeline, workspace) =>
              let (result, files) :=
                line.deliver (line.render configuration pipeline)
                  workspace.files
              (result, { workspace with files })

end CommandLine

end CiPipeline
