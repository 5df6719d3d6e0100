import CiPipeline.Text.Lowercase
import CiPipeline.Variables

/-!
# Facts about the repository

Who works in the checkout, where it comes from and which commit it stands at,
and the variables that every job sees because of them.
-/

namespace CiPipeline

open CiPipeline.Text

/-- The person who works in the checkout. -/
structure User where
  login : String := "local"
  email : String := "local@gitlab.com"
  name : String := "Bob Local"
  id : String := "1000"
  deriving DecidableEq, Repr, Inhabited

/-- Where the repository is published. -/
structure Remote where
  port : String := "22"
  host : String := "gitlab.com"
  group : String := "fallback.group"
  project : String := "fallback.project"
  defaultBranch : String := "main"
  deriving DecidableEq, Repr, Inhabited

/-- The commit that is checked out. -/
structure Commit where
  refName : String := "main"
  sha : String := String.ofList (List.replicate 40 '0')
  shortSha : String := String.ofList (List.replicate 8 '0')
  deriving DecidableEq, Repr, Inhabited

/-- Everything known about the repository.  What cannot be found out has a
fixed value. -/
structure Repository where
  user : User := {}
  remote : Remote := {}
  commit : Commit := {}
  deriving DecidableEq, Repr, Inhabited

namespace Repository

def replaceCharacters (replaced : List Char) (by_ : Char)
    (text : String) : String :=
  String.ofList (text.toList.map fun character =>
    if replaced.contains character then by_ else character)

/-- The path of the project within its host. -/
def projectPath (repository : Repository) : String :=
  repository.remote.group ++ "/" ++ repository.remote.project

/-- The path of the project without slashes. -/
def projectPathSlug (repository : Repository) : String :=
  replaceCharacters ['/'] '-' repository.remote.group ++ "-" ++
    repository.remote.project

/-- The registry of the project's images. -/
def registry (repository : Repository) : String :=
  "local-registry." ++ repository.remote.host

/-- The name of the branch in a form that fits into an address. -/
def refSlug (repository : Repository) : String :=
  lowercase (replaceCharacters ['/', '_', '.'] '-' repository.commit.refName)

/-- The variables that every job sees, by name. -/
def bindings (repository : Repository) : Variables :=
  [ ("CI_COMMIT_BRANCH", repository.commit.refName),
    ("CI_COMMIT_REF_NAME", repository.commit.refName),
    ("CI_COMMIT_REF_SLUG", repository.refSlug),
    ("CI_COMMIT_SHA", repository.commit.sha),
    ("CI_COMMIT_SHORT_SHA", repository.commit.shortSha),
    ("CI_DEFAULT_BRANCH", repository.remote.defaultBranch),
    ("CI_PROJECT_NAME", repository.remote.project),
    ("CI_PROJECT_NAMESPACE", repository.remote.group),
    ("CI_PROJECT_PATH", repository.projectPath),
    ("CI_PROJECT_PATH_SLUG", repository.projectPathSlug),
    ("CI_REGISTRY", repository.registry),
    ("CI_REGISTRY_IMAGE", repository.registry ++ "/" ++ repository.projectPath),
    ("CI_SERVER_HOST", repository.remote.host),
    ("GITLAB_USER_EMAIL", repository.user.email),
    ("GITLAB_USER_ID", repository.user.id),
    ("GITLAB_USER_LOGIN", repository.user.login),
    ("GITLAB_USER_NAME", repository.user.name) ]

end Repository

end CiPipeline
