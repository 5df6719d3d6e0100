import CiPipeline.Files.Path
import CiPipeline.Include.Directive

/-!
# Addresses and places of includes

Templates are published at a common address.  Included files are kept below the
checkout: a remote file under its address, and the file of a project under host,
project, ref and name.
-/

namespace CiPipeline

namespace IncludeUrl

/-- Drops a text in front, if it stands there. -/
def dropFront? (front text : List Char) : Option (List Char) :=
  if front.isPrefixOf text then some (text.drop front.length) else none

/-- The place of a downloaded address below the cache: the address
without its scheme. -/
def cachePath (address : String) : String :=
  let text := address.toList
  String.ofList (((dropFront? "https://".toList text).or
    (dropFront? "http://".toList text)).getD text)

/-- Where templates are published. -/
def templateBase : String :=
  "https://gitlab.com/gitlab-org/gitlab/-/raw/master/lib/gitlab/ci/templates/"

def ofTemplate (name : String) : String := templateBase ++ name

end IncludeUrl

/-- The cache of a checkout. -/
structure IncludeCache where
  /-- The folder of the checkout. -/
  checkout : String
  /-- Whether files are fetched although they are there. -/
  refetches : Bool
  deriving DecidableEq, Repr, Inhabited

namespace IncludeCache

/-- The folder in a checkout for everything that is kept. -/
def storage : String := ".gitlab-ci-local"

/-- The folder of the included files. -/
def root (cache : IncludeCache) : String :=
  Path.join (Path.join cache.checkout storage) "includes"

/-- The place of a remote file. -/
def remotePath (cache : IncludeCache) (address : String) : String :=
  Path.join cache.root (IncludeUrl.cachePath address)

def projectFolder (cache : IncludeCache) (host project : String) : String :=
  Path.join (Path.join cache.root host) project

def refFolder (cache : IncludeCache) (host project ref : String) : String :=
  Path.join (cache.projectFolder host project) ref

def projectFile (cache : IncludeCache)
    (host project ref file : String) : String :=
  Path.join (cache.refFolder host project ref) (Include.dropSlashes file)

end IncludeCache

end CiPipeline
