import CiPipeline.Document
import CiPipeline.Include.Target

/-!
# Resolution of includes

A document comes after everything that it includes, in the order of its
directives, and so do the included documents.  A chain of includes of a hundred
or more documents counts as circular.
-/

namespace CiPipeline

/-- Reads the document at a path.  A missing one is empty. -/
def Document.load (path : String) : Action Node := do
  if ← Action.look (·.has path) then
    MonadExcept.ofExcept (Document.read (← Action.look (·.text path)))
  else pure Node.empty

/-- An action that knows which projects have been filled. -/
abbrev Resolution (Result : Type) := StateT Filled Action Result

namespace IncludeSources

/-- The greatest length of a chain of included documents, counted from the
first document. -/
def longestChain : Nat := 100

/-- Resolves what documents include: given the trail of a document, the document
and the directives in it, its documents in order. -/
abbrev Resolver := Trail → Node → List Include → Resolution (List Node)

def documentsAt (resolver : Resolver) (trail : Trail) (path : String)
    (scope : Include → Include) : Resolution (List Node) := do
  let document ← Action.within trail (Document.load path)
  let directives ← MonadExcept.ofExcept
    (Include.read trail (document.get? "include"))
  resolver trail document (directives.map scope)

def documentsOfProject (sources : IncludeSources) (resolver : Resolver)
    (trail : Trail) (project ref file : String) : Resolution (List Node) := do
  let path := sources.projectFile project ref file
  if ← Action.look (·.has path) then
    documentsAt resolver trail path (Include.within project ref)
  else throw (trail.wrap (.projectInclude project ref file))

def documentsOf (sources : IncludeSources) (resolver : Resolver) (trail : Trail)
    (directive : Include) : Resolution (List Node) := do
  let trail := directive.trailOf trail
  match directive with
  | .localFile path => documentsAt resolver trail (sources.localPath path) id
  | .template name =>
      documentsAt resolver trail
        (sources.remotePath (IncludeUrl.ofTemplate name)) id
  | .remote address =>
      documentsAt resolver trail (sources.remotePath address) id
  | .projectFiles project ref files =>
      let ref := sources.refOf ref
      let documents ← files.mapM
        (sources.documentsOfProject resolver trail project ref)
      return documents.flatten

/-- Resolves a document whose chain of includes may grow by a number of
documents. -/
def resolveWithin (sources : IncludeSources) : Nat → Resolver
  | 0, trail, _, _ => throw (trail.fail .circularInclude)
  | length + 1, trail, document, directives => do
      let targets :=
        Target.ofIncludes sources.repository.remote.defaultBranch directives
      let filled ← get
      set (← sources.prepare trail filled targets)
      let included ← directives.mapM
        (sources.documentsOf (sources.resolveWithin length) trail)
      return included.flatten ++ [document]

def resolve (sources : IncludeSources) (trail : Trail) (document : Node) :
    Resolution (List Node) := do
  let directives ← MonadExcept.ofExcept
    (Include.read trail (document.get? "include"))
  sources.resolveWithin longestChain trail document directives

end IncludeSources

end CiPipeline
