import CiPipeline.Problem

/-!
# Failures

A failure is a problem at a place of a document, or one of the failures of
the world around it: configuration, network, commands, files and the texts
read from them.
-/

namespace CiPipeline

/-- Why an operation failed. -/
inductive Failure where
  | located (problem : Problem) (path : String)
  | configuration (reason : String)
  | network (reason : String)
  | remoteInclude (url reason : String)
  | projectInclude (project ref file : String)
  | command (command : String) (code : Int)
  | json (reason : String)
  | yaml (reason : String)
  | io (reason : String)
  deriving Repr

namespace Failure

/-- The message of a failure, without its place. -/
def message : Failure → String
  | .located problem _ => problem.message
  | .configuration reason => "Invalid configuration: " ++ reason
  | .network reason => "Network error: " ++ reason
  | .remoteInclude url reason =>
      s!"Remote include could not be fetched {url}: {reason}"
  | .projectInclude project ref file =>
      "Project include could not be fetched \x7b project: " ++ project ++
        ", ref: " ++ ref ++ ", file: " ++ file ++ " \x7d"
  | .command line code => s!"\x60{line}\x60 exited with code {code}"
  | .json reason => "JSON serialization error: " ++ reason
  | .yaml reason => "YAML error: " ++ reason
  | .io reason => "IO error: " ++ reason

/-- The whole text of a failure: the message, and where in the
document it arose. -/
def text : Failure → String
  | .located problem "" => problem.message
  | .located problem path => problem.message ++ "\n  … in " ++ path
  | failure => failure.message

end Failure

end CiPipeline
