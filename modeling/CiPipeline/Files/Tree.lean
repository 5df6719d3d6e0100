import CiPipeline.Files.Path

/-!
# File trees

A tree of files, folders and links, and what a path leads to in it.  A link
stands for the path that it holds; at most forty links are followed on one way.
-/

namespace CiPipeline

/-- Why a file operation failed. -/
inductive IoError where
  | notFound
  | alreadyThere
  | notADirectory
  | isADirectory
  | invalidArgument
  | nameTooLong
  | tooManyLinks
  | invalidText
  | invalidName
  deriving DecidableEq, Repr

/-- What is wrong with a file operation. -/
def IoError.message : IoError → String
  | .notFound => "No such file or directory (os error 2)"
  | .alreadyThere => "File exists (os error 17)"
  | .notADirectory => "Not a directory (os error 20)"
  | .isADirectory => "Is a directory (os error 21)"
  | .invalidArgument => "Invalid argument (os error 22)"
  | .nameTooLong => "File name too long (os error 36)"
  | .tooManyLinks => "Too many levels of symbolic links (os error 40)"
  | .invalidText => "stream did not contain valid UTF-8"
  | .invalidName => "file name contained an unexpected NUL byte"

/-- A file, a folder or a link. -/
inductive FileTree where
  | file (content : ByteArray)
  | folder (entries : List (String × FileTree))
  | link (target : String)
  deriving Inhabited

namespace FileTree

/-- The folder without entries. -/
def empty : FileTree := .folder []

def isFolder : FileTree → Bool
  | .folder _ => true
  | _ => false

def isLink : FileTree → Bool
  | .link _ => true
  | _ => false

/-- The entry of a name. -/
def child? (tree : FileTree) (name : String) : Option FileTree :=
  match tree with
  | .folder entries => entries.lookup name
  | _ => none

/-- The entry at the end of some names. -/
def at? (tree : FileTree) : List String → Option FileTree
  | [] => some tree
  | name :: rest => (tree.child? name).bind fun child => child.at? rest

/-- Sets the entry of a name, or removes it. -/
def setChild (entries : List (String × FileTree)) (name : String)
    (child : Option FileTree) : List (String × FileTree) :=
  match entries with
  | [] => (child.map fun child => (name, child)).toList
  | (other, tree) :: rest =>
      if other == name then
        (child.map fun child => (name, child)).toList ++ rest
      else (other, tree) :: setChild rest name child

/-- Sets the entry at the end of some names, or removes it.  Nothing happens
where a folder on the way is missing. -/
def set (tree : FileTree) (location : List String)
    (entry : Option FileTree) : FileTree :=
  match location, tree with
  | [], tree => entry.getD tree
  | [name], .folder entries => .folder (setChild entries name entry)
  | name :: rest, .folder entries =>
      match entries.lookup name with
      | some child =>
          .folder (setChild entries name (some (child.set rest entry)))
      | none => tree
  | _, tree => tree

end FileTree

/-- Where a path leads: to an entry, or to a name that is missing
in a folder. -/
inductive Destination where
  | found (location : List String) (entry : FileTree)
  | missing (location : List String)
  deriving Inhabited

namespace Destination

/-- The location to which a path leads. -/
def location : Destination → List String
  | .found location _ => location
  | .missing location => location

/-- Whether a path leads to a link. -/
def isLink : Destination → Bool
  | .found _ entry => entry.isLink
  | .missing _ => false

end Destination

namespace FileTree

/-- The greatest number of bytes of a name. -/
def longestName : Nat := 255

/-- The greatest number of links on one way. -/
def mostLinks : Nat := 40

/-- Follows names from a location, given in reverse.  A link at the end is
followed only on request; how to go on from a link is given. -/
def followNames (tree : FileTree) (last : Bool)
    (jump : List String → List String → Except IoError Destination)
    (here : List String) :
    List String → Except IoError Destination
  | [] =>
      match tree.at? here.reverse with
      | some entry => .ok (.found here.reverse entry)
      | none => .error .notFound
  | name :: rest =>
      match tree.at? here.reverse with
      | none => .error .notFound
      | some entry =>
          if !entry.isFolder then .error .notADirectory
          else if name == "." then followNames tree last jump here rest
          else if name == ".." then
            followNames tree last jump (here.drop 1) rest
          else if name.utf8ByteSize > longestName then .error .nameTooLong
          else
            match entry.child? name with
            | none =>
                if rest.isEmpty then .ok (.missing (name :: here).reverse)
                else .error .notFound
            | some (.link target) =>
                if rest.isEmpty && !last then
                  .ok (.found (name :: here).reverse (.link target))
                else
                  jump (if Path.isAbsolute target then [] else here)
                    (Path.names target ++ rest)
            | some _ => followNames tree last jump (name :: here) rest

/-- Follows names from a location, given in reverse, over at most a
number of links. -/
def follow (tree : FileTree) (last : Bool) :
    Nat → List String → List String → Except IoError Destination
  | 0 => tree.followNames last fun _ _ => .error .tooManyLinks
  | links + 1 => tree.followNames last (tree.follow last links)

end FileTree

end CiPipeline
