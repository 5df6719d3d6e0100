import CiPipeline.Files.Access
import CiPipeline.Trail
import CiPipeline.Url

/-!
# Workspaces

A workspace holds the files that are worked on, and records which commands were
run and which addresses were requested.  How commands and servers answer is up
to the surroundings.
-/

namespace CiPipeline

/-- A command: the folder that it runs in, the program and its arguments. -/
structure Command where
  folder : String
  program : String
  arguments : List String
  deriving DecidableEq, Repr, Inhabited

/-- The words of a command on one line. -/
def Command.line (command : Command) : String :=
  " ".intercalate (command.program :: command.arguments)

/-- What a command wrote, and the code that it ended with. -/
structure CommandOutput where
  text : String
  code : Int
  deriving DecidableEq, Repr, Inhabited

/-- What became of a request. -/
inductive RequestOutcome where
  /-- No connection came about in time. -/
  | unreachable
  /-- The connection ended without an answer. -/
  | broken
  /-- An answer with its status, and its body if that arrived. -/
  | answered (status : Nat) (body : Option ByteArray)
  deriving Inhabited

/-- How commands change the files and what they answer, and what becomes of the
requests to an address one after the other. -/
structure Surroundings where
  run : Command → Files → Except IoError CommandOutput × Files
  request : Url → Nat → RequestOutcome

/-- Files, with the commands and requests so far, the latest first. -/
structure Workspace where
  files : Files := {}
  commands : List Command := []
  requests : List String := []
  deriving Inhabited

/-- An action on a workspace.  A failure keeps what was done before it. -/
abbrev Action (Result : Type) :=
  ReaderT Surroundings (ExceptT Failure (StateM Workspace)) Result

namespace Action

/-- Reads from the files. -/
def look {Result : Type} (reading : Files → Except IoError Result) :
    Action Result := do
  match reading (← get).files with
  | .ok result => pure result
  | .error error => throw (.io error.message)

/-- Acts on the files. -/
def change (action : FileAction Unit) : Action Unit := do
  let workspace ← get
  let (result, files) := action.run.run workspace.files
  set { workspace with files }
  match result with
  | .ok () => pure ()
  | .error error => throw (.io error.message)

/-- Performs an action on a workspace: its result, and the
workspace after it. -/
def perform {Result : Type} (surroundings : Surroundings)
    (action : Action Result) (workspace : Workspace) :
    Except Failure Result × Workspace :=
  (ExceptT.run (ReaderT.run action surroundings)).run workspace

/-- Runs a command. -/
def execute (command : Command) : Action CommandOutput := do
  let surroundings ← read
  let workspace ← get
  let (result, files) := surroundings.run command workspace.files
  set { workspace with files, commands := command :: workspace.commands }
  match result with
  | .ok output => pure output
  | .error error => throw (.io error.message)

/-- Runs a command that has to end with code zero. -/
def executeChecked (command : Command) : Action String := do
  let output ← execute command
  if output.code == 0 then pure output.text
  else throw (.command command.line output.code)

def request (address : Url) : Action RequestOutcome := do
  let surroundings ← read
  let workspace ← get
  set { workspace with requests := address.text :: workspace.requests }
  pure (surroundings.request address (workspace.requests.count address.text))

/-- Places the failure of an action where a trail leads, unless it has a
place already. -/
def within {Result : Type} (trail : Trail) (action : Action Result) :
    Action Result :=
  tryCatch action fun failure => throw (trail.wrap failure)

end Action

end CiPipeline
