import CiPipeline.IncludeUrl
import CiPipeline.Workspace

/-!
# The cache of included files

What is looked up in the cache, and how files, links and folders are kept there.
-/

namespace CiPipeline

namespace IncludeCache

def allExist : List String → Action Bool
  | [] => pure true
  | path :: rest => do
      if ← Action.look (·.has path) then allExist rest else pure false

/-- Whether nothing has to be fetched for some paths. -/
def isFresh (cache : IncludeCache) (paths : List String) : Action Bool :=
  if cache.refetches then pure false else allExist paths

/-- Creates the folder that a path lies in. -/
def createParent (path : String) : FileAction Unit :=
  match Path.parent? path with
  | some parent => Files.createFolders parent
  | none => pure ()

/-- Keeps the content of a file. -/
def store (path : String) (content : ByteArray) : FileAction Unit := do
  createParent path
  Files.write path content

/-- Removes the link at a path, if there is one. -/
def unlinkStale (path : String) : FileAction Unit := do
  if (← get).hasLink path then Files.remove path

/-- Removes what is at a path, if there is anything. -/
def clear (path : String) : FileAction Unit := do
  if ← MonadExcept.ofExcept ((← get).has path) then Files.removeTree path

/-- Makes a path stand for a local checkout. -/
def link (target path : String) : FileAction Unit := do
  createParent path
  clear path
  Files.link target path

def emptyFolder (path : String) : FileAction Unit := do
  clear path
  Files.createFolders path

end IncludeCache

end CiPipeline
