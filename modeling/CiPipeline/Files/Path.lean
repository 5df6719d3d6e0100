import CiPipeline.Text.Basic

/-!
# Paths

A path is a text of names between slashes.  Joining puts one path below another,
unless the second one starts at the root.
-/

namespace CiPipeline.Path

open CiPipeline.Text

/-- Whether a path starts at the root. -/
def isAbsolute (path : String) : Bool := path.toList.head? == some '/'

def endsWithSlash (path : String) : Bool := path.toList.getLast? == some '/'

/-- A path below another one. -/
def join (base path : String) : String :=
  if isAbsolute path || base.isEmpty then path
  else if endsWithSlash base then base ++ path
  else base ++ "/" ++ path

/-- The names between the slashes of a path. -/
def parts (path : String) : List String :=
  ((splitAll '/' path.toList).filter (!·.isEmpty)).map String.ofList

/-- The names of a path.  A slash at the end asks for a folder, as
a point does. -/
def names (path : String) : List String :=
  if endsWithSlash path then parts path ++ ["."] else parts path

/-- The names of a path that do not stand for the directory they are in. -/
def steps (path : String) : List String :=
  (parts path).filter (· != ".")

def ofSteps (absolute : Bool) (steps : List String) : String :=
  (if absolute then "/" else "") ++ "/".intercalate steps

/-- The path of the directory that holds a file. -/
def parent? (path : String) : Option String :=
  match (steps path).reverse with
  | [] => none
  | _ :: above => some (ofSteps (isAbsolute path) above.reverse)

def fileName? (path : String) : Option String := (steps path).getLast?

/-- What follows the last point of the name at the end of a path, unless the
name starts with it. -/
def extension? (path : String) : Option String := do
  let name ← fileName? path
  if name == ".." then none
  else
    match name.toList.reverse.dropWhile (· != '.') with
    | _ :: before =>
        if before.isEmpty then none
        else some (String.ofList (name.toList.drop (before.length + 1)))
    | [] => none

end CiPipeline.Path
