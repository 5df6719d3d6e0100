import CiPipeline.Execution

/-!
# The program

Carries out a command line on the pipeline file that it reads from the
standard input.
-/

namespace CiPipeline.Program

/-- Where no other program is run and no server is reached. -/
def alone : Surroundings :=
  { run := fun _ files => (.error .notFound, files), request := fun _ _ =>
      .unreachable }

/-- What is said about a command line that is not carried out. -/
def explain : UsageError → String
  | .helpWanted =>
      "usage: [options] [list | preview | json | eval-if <expression>]"
  | .versionWanted => "0.1.0"
  | .unknownWord => "unexpected argument"
  | .unknownAction => "unrecognized subcommand"
  | .invalidValue => "invalid value"
  | .missingValue => "a value is required"
  | .surplusValue => "unexpected value"
  | .repeated => "the argument cannot be used multiple times"
  | .missingExpression => "an expression is required"

/-- Reads everything from a stream. -/
partial def readAll (stream : IO.FS.Stream) (text : String) : IO String := do
  let line ← stream.getLine
  if line.isEmpty then return text else readAll stream (text ++ line)

/-- The workspace with a pipeline file. -/
def workspaceOf (line : CommandLine) (text : String) : Workspace :=
  let path := Path.join line.checkout (line.file.getD Document.usualFile)
  { files := ((IncludeCache.store path text.toUTF8).run.run {}).2 }

end CiPipeline.Program

open CiPipeline in
/-- Carries out the words of a command line. -/
def main (words : List String) : IO UInt32 := do
  match CommandLine.read words with
  | .error error =>
      IO.println (Program.explain error)
      return if error == .helpWanted || error == .versionWanted then 0 else 2
  | .ok line =>
      let text ← Program.readAll (← IO.getStdin) ""
      let (result, _) :=
        line.execute Program.alone "/" (Program.workspaceOf line text)
      match result with
      | .ok shown => IO.print shown; return 0
      | .error error =>
          for message in error.messages do IO.eprintln message
          return 1
