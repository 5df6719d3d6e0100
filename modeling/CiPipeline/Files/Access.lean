import CiPipeline.Files.Tree

/-!
# File systems

A file system is a tree with a folder that relative paths start from.  Reading
leaves it as it is.  An action may change it, also when it fails in the end.
-/

namespace CiPipeline

/-- The files that a program sees. -/
structure Files where
  root : FileTree := .empty
  /-- The names that lead to the folder of relative paths. -/
  here : List String := []
  deriving Inhabited

abbrev FileAction (Result : Type) := ExceptT IoError (StateM Files) Result

namespace Files

/-- The number of bytes that a path stays below. -/
def pathLimit : Nat := 4096

/-- Where the names of a path lead, which the path has to permit. -/
def locate (files : Files) (path : String) (names : List String) (last : Bool) :
    Except IoError Destination :=
  if path.isEmpty then .error .notFound
  else if path.toList.contains '\x00' then .error .invalidName
  else if path.utf8ByteSize ≥ pathLimit then .error .nameTooLong
  else
    files.root.follow last FileTree.mostLinks
      (if Path.isAbsolute path then [] else files.here.reverse) names

/-- Where a path leads, links at its end included. -/
def target (files : Files) (path : String) : Except IoError Destination :=
  files.locate path (Path.names path) true

/-- The entry that a path names, links at its end excluded. -/
def entry (files : Files) (path : String) : Except IoError Destination :=
  files.locate path (Path.names path) false

/-- The name that a path ends in, with or without a slash behind it. -/
def slot (files : Files) (path : String) : Except IoError Destination :=
  files.locate path (Path.parts path) false

/-- Whether there is something at a path. -/
def has (files : Files) (path : String) : Except IoError Bool :=
  match files.target path with
  | .ok (.found _ _) => .ok true
  | .ok (.missing _) => .ok false
  | .error .notFound => .ok false
  | .error error => .error error

def hasFolder (files : Files) (path : String) : Bool :=
  match files.target path with
  | .ok (.found _ entry) => entry.isFolder
  | _ => false

def hasLink (files : Files) (path : String) : Bool :=
  match files.entry path with
  | .ok (.found _ entry) => entry.isLink
  | _ => false

def content (files : Files) (path : String) : Except IoError ByteArray :=
  match files.target path with
  | .ok (.found _ (.file content)) => .ok content
  | .ok (.found _ _) => .error .isADirectory
  | .ok (.missing _) => .error .notFound
  | .error error => .error error

def text (files : Files) (path : String) : Except IoError String := do
  match String.fromUTF8? (← files.content path) with
  | some text => .ok text
  | none => .error .invalidText

/-- The files with another entry, or none, at a location. -/
def put (files : Files) (location : List String)
    (entry : Option FileTree) : Files :=
  { files with root := files.root.set location entry }

/-- Sets the entry at a location, or removes it. -/
def place (location : List String) (entry : Option FileTree) :
    FileAction Unit :=
  modify fun files => files.put location entry

def write (path : String) (content : ByteArray) : FileAction Unit := do
  match ← (← get).locate path (Path.parts path) true with
  | .missing location =>
      if Path.endsWithSlash path then throw .isADirectory
      else place location (some (.file content))
  | .found location entry =>
      if Path.endsWithSlash path || entry.isFolder then throw .isADirectory
      else place location (some (.file content))

def createFolder (path : String) : FileAction Unit := do
  match ← (← get).slot path with
  | .missing location => place location (some .empty)
  | .found _ _ => throw .alreadyThere

/-- Creates a folder unless there is one. -/
def requireFolder (path : String) : FileAction Unit :=
  tryCatch (createFolder path) fun error => do
    if !(← get).hasFolder path then throw error

/-- Creates the folder of a path, given with its names from the last to the
first, and the folders above it. -/
def createFoldersAlong (path : String) : List String → FileAction Unit
  | [] => if path.isEmpty then pure () else requireFolder path
  | _ :: above =>
      tryCatch (requireFolder path) fun error =>
        match error with
        | .notFound => do
            createFoldersAlong
              (Path.ofSteps (Path.isAbsolute path) above.reverse) above
            requireFolder path
        | error => throw error

def createFolders (path : String) : FileAction Unit :=
  createFoldersAlong path (Path.steps path).reverse

/-- Removes a file or a link. -/
def remove (path : String) : FileAction Unit := do
  match ← (← get).entry path with
  | .missing _ => throw .notFound
  | .found location entry =>
      if entry.isFolder then throw .isADirectory else place location none

/-- Removes a folder with everything in it, or a link.  A path that reaches the
folder through a link with a slash, or through a point, empties the folder and
then fails to remove it. -/
def removeTree (path : String) : FileAction Unit := do
  let files ← get
  match ← files.entry path with
  | .missing _ => throw .notFound
  | .found location (.link _) => place location none
  | .found _ (.file _) => throw .notADirectory
  | .found location (.folder _) =>
      match (Path.parts path).getLast? with
      | some "." =>
          place location (some .empty)
          throw .invalidArgument
      | some ".." => place location (some .empty)
      | _ =>
          if (files.slot path).toOption.any (·.isLink) then
            place location (some .empty)
            throw .notADirectory
          else place location none

/-- Creates a link that stands for a path. -/
def link (target path : String) : FileAction Unit := do
  if target.isEmpty then throw .notFound
  if target.toList.contains '\x00' then throw .invalidName
  match ← (← get).slot path with
  | .found _ _ => throw .alreadyThere
  | .missing location =>
      if Path.endsWithSlash path then throw .notFound
      else place location (some (.link target))

end Files

end CiPipeline
