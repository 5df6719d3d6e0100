import CiPipeline.Include.Resolution
import CiPipeline.Pipeline
import CiPipeline.Repository.Reading

/-!
# Loading pipelines

The pipeline of a checkout is merged from the usual stages, the pipeline file
and a file for this checkout alone, each after everything that it includes.
-/

namespace CiPipeline

/-- Where a pipeline is loaded from, and what it is resolved with. -/
structure PipelineLocation where
  /-- The folder of the checkout. -/
  checkout : String
  /-- The pipeline file, relative to the checkout. -/
  file : String := Document.usualFile
  /-- The home directory, where local checkouts of other projects are listed. -/
  home : String
  /-- Whether includes are fetched although they are in the cache. -/
  refetches : Bool := false
  options : PipelineOptions := {}
  deriving Inhabited

namespace PipelineLocation

/-- The file with changes for this checkout alone. -/
def ownFile : String := ".gitlab-ci-local.yml"

/-- The document with the usual stages. -/
def usualStages : Node :=
  .mapping [("stages",
    .sequence ([".pre", "build", "test", "deploy", ".post"].map .text))]

/-- Finds out where included files come from. -/
def sources (location : PipelineLocation) : Action IncludeSources := do
  let repository ← Repository.load location.checkout
  let checkouts ← Checkouts.load location.home
  return { cache :=
             { checkout := location.checkout, refetches := location.refetches },
           repository, checkouts }

def documentsOf (location : PipelineLocation) (sources : IncludeSources)
    (file : String) : Resolution (List Node) := do
  let trail := Trail.root.descend file
  let document ← Action.within trail
    (Document.load (Path.join location.checkout file))
  sources.resolve trail document

/-- All documents of the pipeline, the usual stages first. -/
def documents (location : PipelineLocation) (sources : IncludeSources) :
    Resolution (List Node) := do
  let files ← [location.file, ownFile].mapM (location.documentsOf sources)
  return usualStages :: files.flatten

end PipelineLocation

def Pipeline.load (location : PipelineLocation) : Action Pipeline := do
  let sources ← location.sources
  let documents ← (location.documents sources).run' []
  MonadExcept.ofExcept
    (Pipeline.ofDocument location.options sources.repository
      (Node.mergeAll documents))

end CiPipeline
