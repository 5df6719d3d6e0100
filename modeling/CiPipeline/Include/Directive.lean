import CiPipeline.Trail
import CiPipeline.Url

/-!
# Include directives

An entry of `include` names a file of the own repository, files of another
project, a published template or a remote file.  A mapping that names several of
them counts as the first of these.
-/

namespace CiPipeline

inductive Include where
  | localFile (path : String)
  | projectFiles (project : String) (ref : Option String) (files : List String)
  | template (name : String)
  | remote (address : String)
  deriving DecidableEq, Repr, Inhabited

namespace Include

/-- Whether a text names a remote file. -/
def isAddress (text : String) : Bool :=
  "https:".toList.isPrefixOf text.toList ||
    "http:".toList.isPrefixOf text.toList

/-- An entry that names a remote file, whose address has to be well-formed. -/
def ofAddress (trail : Trail) (address : String) : Except Failure Include :=
  match Url.read address with
  | .ok _ => .ok (.remote address)
  | .error error => .error (trail.fail (.invalidUrl address error.message))

def fileNames? : Option Node → Option (List String)
  | some (.text name) => some [name]
  | some (.sequence names) => names.mapM Node.text?
  | _ => none

def ofMapping (trail : Trail) (entry : Node) : Except Failure Include := do
  let problem : Problem := .malformedInclude entry
  if let some path := entry.get? "local" then
    return .localFile (← trail.require path.text? problem)
  if let some project := entry.get? "project" then
    let project ← trail.require project.text? problem
    let files ← trail.require (fileNames? (entry.get? "file")) problem
    return .projectFiles project ((entry.get? "ref").bind Node.scalar?) files
  if let some name := entry.get? "template" then
    return .template (← trail.require name.text? problem)
  if let some address := entry.get? "remote" then
    return ← ofAddress trail (← trail.require address.text? problem)
  throw (trail.fail problem)

def ofEntry (trail : Trail) (entry : Node) : Except Failure Include :=
  match entry with
  | .text target =>
      if isAddress target then ofAddress trail target
        else .ok (.localFile target)
  | .mapping _ => ofMapping trail entry
  | _ => .error (trail.fail (.malformedInclude entry))

/-- The entries of the value of `include`: none, a single one, or a
list of them. -/
def entries : Option Node → List Node
  | none => []
  | some .null => []
  | some (.sequence entries) => entries
  | some entry => [entry]

def read (trail : Trail) (value : Option Node) :
    Except Failure (List Include) :=
  (entries value).mapM (ofEntry (trail.descend "include"))

/-- The trail of what is included. -/
def trailOf (directive : Include) (trail : Trail) : Trail :=
  match directive with
  | .localFile path => trail.descendValued "include" "local" (.text path)
  | .projectFiles project _ _ =>
      trail.descendValued "include" "project" (.text project)
  | .template name => trail.descendValued "include" "template" (.text name)
  | .remote address => trail.descendValued "include" "remote" (.text address)

def dropSlashes (path : String) : String :=
  String.ofList (path.toList.dropWhile (· == '/'))

/-- An include of a project's file: what it names locally is a file of
that project. -/
def within (project ref : String) (directive : Include) : Include :=
  match directive with
  | .localFile path => .projectFiles project (some ref) [dropSlashes path]
  | other => other

end Include

end CiPipeline
