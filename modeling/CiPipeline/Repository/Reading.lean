import CiPipeline.Repository
import CiPipeline.Text.Lines
import CiPipeline.Workspace

/-!
# Reading facts about the repository

The facts are read from what `git` says about the checkout.  Facts about the
commit count only all together, and so do those about the place of publication.
-/

namespace CiPipeline

open CiPipeline.Text

namespace Remote

/-! ## Listings of remotes -/

/-- Reads the name of a project: it ends before a blank or the extension of
repositories. -/
def readProject? : List Char → Option (List Char)
  | [] => none
  | character :: rest =>
      if isBlank character ||
        ".git".toList.isPrefixOf (character :: rest) then some []
      else (readProject? rest).map (character :: ·)

/-- Reads a group and a project, given the characters of the group so far in
reverse.  The last slash of the line divides them that has an end of a project's
name behind it. -/
def readPath? (before : List Char) : List Char → Option (List Char × List Char)
  | [] => none
  | character :: rest =>
      if character == '\n' then none
      else
        (readPath? (character :: before) rest).or
          (if character == '/' then (readProject? rest).map fun name =>
            (before.reverse, name)
          else none)

/-- What may follow a host: a port and the text behind it, or only a text. -/
def afterHost : List Char → List (List Char × List Char)
  | ':' :: rest =>
      let port := rest.takeWhile isDecimalDigit
      match rest.drop port.length with
      | '/' :: path =>
          if port.isEmpty then [([], rest)] else [(port, path), ([], rest)]
      | _ => [([], rest)]
  | '/' :: rest => [([], rest)]
  | _ => []

/-- Whether a character belongs to a host. -/
def isHostCharacter (character : Char) : Bool :=
  character != ':' && character != '/'

/-- Reads a host, a port, a group and a project. -/
def readAddress? (text : List Char) : Option Remote :=
  let host := text.takeWhile isHostCharacter
  (afterHost (text.drop host.length)).findSome? fun (port, path) =>
    (readPath? [] path).map fun (group, project) =>
      { port := if port.isEmpty then "22" else String.ofList port,
        host := String.ofList host,
        group := String.ofList group, project := String.ofList project }

/-- The first place of publication in a listing: it stands behind two slashes or
an at sign. -/
def ofListing? : List Char → Option Remote
  | [] => none
  | '/' :: '/' :: rest => (readAddress? rest).or (ofListing? ('/' :: rest))
  | '@' :: rest => (readAddress? rest).or (ofListing? rest)
  | _ :: rest => ofListing? rest

/-! ## The main branch -/

/-- Reads the name of a branch in front of the word `HEAD`. -/
def readBranch? (text : List Char) : Option String :=
  let name := text.takeWhile isWordCharacter
  let behind := text.drop name.length
  let target := behind.dropWhile isBlank
  if !name.isEmpty && target.length < behind.length &&
  "HEAD".toList.isPrefixOf target then
    some (String.ofList name)
  else none

/-- Reads the name of a branch behind the first slash of the line that has one
behind it. -/
def branchBehindSlash? : List Char → Option String
  | [] => none
  | character :: rest =>
      if character == '\n' then none
      else if character == '/' then
        (readBranch? rest).or (branchBehindSlash? rest)
      else branchBehindSlash? rest

/-- What stands in front of the name of a reference. -/
def referenceMark : String := "ref: refs/"

/-- The main branch in a listing of references. -/
def mainBranch? : List Char → Option String
  | [] => none
  | character :: rest =>
      let text := character :: rest
      (if referenceMark.toList.isPrefixOf text then
        branchBehindSlash? (text.drop referenceMark.length)
      else none).or (mainBranch? rest)

end Remote

namespace Repository

/-! ## Commands -/

/-- What a command writes, or nothing if it fails. -/
def ask (folder program : String) (arguments : List String) :
    Action (Option String) :=
  tryCatch (some <$> Action.executeChecked { folder, program, arguments })
    fun _ => pure none

/-- What a command writes, without the blanks at its end. -/
def askFact (folder program : String) (arguments : List String) :
    Action (Option String) := do
  return (← ask folder program arguments).map fun text =>
    String.ofList (trimEnd text.toList)

/-- Reads the facts about the commit. -/
def readCommit (folder : String) : Action Commit := do
  let refName ← askFact folder "git" ["rev-parse", "--abbrev-ref", "HEAD"]
  let sha ← askFact folder "git" ["rev-parse", "HEAD"]
  let shortSha ← askFact folder "git" ["rev-parse", "--short", "HEAD"]
  match refName, sha, shortSha with
  | some refName, some sha, some shortSha => return { refName, sha, shortSha }
  | _, _, _ => return {}

/-- Reads where the repository is published. -/
def readRemote (folder : String) : Action Remote := do
  let listing ← ask folder "git" ["remote", "-v"]
  match listing.bind fun text => Remote.ofListing? text.toList with
  | none => return {}
  | some remote =>
      let references ← ask folder "git"
        ["ls-remote", "--symref", "origin", "HEAD"]
      match references.bind fun text => Remote.mainBranch? text.toList with
      | none => return {}
      | some branch => return { remote with defaultBranch := branch }

/-- The name of a user at a mail server. -/
def loginOf (email : String) : String :=
  String.ofList (email.toList.takeWhile (· != '@'))

/-- Reads the facts about the user. -/
def readUser (folder : String) : Action User := do
  let usual : User := {}
  let name ← askFact folder "git" ["config", "user.name"]
  let email ← askFact folder "git" ["config", "user.email"]
  let id ← askFact folder "id" ["-u"]
  return { login := (email.map loginOf).getD usual.login,
           email := email.getD usual.email,
           name := name.getD usual.name, id := id.getD usual.id }

/-- Reads the facts about the repository of a checkout. -/
def load (folder : String) : Action Repository := do
  return { commit := ← readCommit folder, remote := ← readRemote folder,
           user := ← readUser folder }

end Repository

end CiPipeline
