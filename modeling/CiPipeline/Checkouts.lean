import CiPipeline.Variables
import CiPipeline.Workspace
import CiPipeline.Yaml.Value

/-!
# Local checkouts

A file in the home directory maps projects to folders that stand in for them.
The first colon of a project's name counts as a slash, and a folder may be given
relative to the home directory.
-/

namespace CiPipeline

/-- Folders that stand in for projects, by the name of the project. -/
structure Checkouts where
  folders : Variables := []
  deriving DecidableEq, Repr, Inhabited

namespace Checkouts

def folder? (checkouts : Checkouts) (project : String) : Option String :=
  checkouts.folders.lookup project

def insert (checkouts : Checkouts) (project folder : String) : Checkouts :=
  ⟨checkouts.folders.put project folder⟩

def slashFirstColon : List Char → List Char
  | [] => []
  | ':' :: rest => '/' :: rest
  | character :: rest => character :: slashFirstColon rest

/-- The name of a project as includes spell it. -/
def projectName (written : String) : String :=
  String.ofList (slashFirstColon written.toList)

/-- A home directory without the slashes at its end. -/
def bareHome (home : String) : String :=
  String.ofList (home.toList.reverse.dropWhile (· == '/')).reverse

/-- A folder as it is written, the home directory put in for a tilde. -/
def folderPath (home written : String) : String :=
  match written.toList with
  | '~' :: '/' :: rest => bareHome home ++ "/" ++ String.ofList rest
  | _ => written

def addEntry (home : String) (checkouts : Checkouts) :
    Yaml.Value × Yaml.Value → Except Failure Checkouts
  | (.text name, .text folder) =>
      .ok (checkouts.insert (projectName name) (folderPath home folder))
  | (.text name, _) =>
      .error (.configuration s!"project local path must be a string for {name}")
  | _ => .error (.configuration "project name must be a string")

def ofText (home text : String) : Except Failure Checkouts :=
  match Yaml.Value.ofText text with
  | .error error => .error (.yaml error.reason)
  | .ok .null => .ok {}
  | .ok (.mapping entries) => entries.foldlM (addEntry home) {}
  | .ok _ =>
      .error
        (.configuration "projects.yml must map project names to local paths")

def path (home : String) : String :=
  Path.join (Path.join home ".gitlab-ci-local") "projects.yml"

/-- Reads the file.  Without one no project has a checkout. -/
def load (home : String) : Action Checkouts := do
  if ← Action.look (·.has (path home)) then
    MonadExcept.ofExcept (ofText home (← Action.look (·.text (path home))))
  else pure {}

end Checkouts

end CiPipeline
