import CiPipeline.Inheritance
import CiPipeline.JobFields

/-!
# Normalization of documents

The passes that turn a document as it was written into one in which every job
stands complete by itself.  Later passes rely on earlier ones.
-/

namespace CiPipeline

/-- A pass over a document. -/
inductive Pass where
  | references
  | inheritance
  | artifacts
  | image
  | services
  | beforeScripts
  | afterScripts
  | scripts
  deriving DecidableEq, Repr

namespace Pass

def run : Pass → Trail → Node → Except Failure Node
  | .references => References.resolve
  | .inheritance => Inheritance.resolve
  | .artifacts => JobFields.artifacts
  | .image => JobFields.image
  | .services => JobFields.services
  | .beforeScripts => JobFields.beforeScripts
  | .afterScripts => JobFields.afterScripts
  | .scripts => JobFields.scripts

/-- All passes in their order. -/
def all : List Pass :=
  [.references, .inheritance, .artifacts, .image, .services, .beforeScripts,
    .afterScripts, .scripts]

end Pass

/-- Runs all passes over a document. -/
def normalize (trail : Trail) (document : Node) : Except Failure Node :=
  Pass.all.foldlM (fun document pass => pass.run trail document) document

end CiPipeline
