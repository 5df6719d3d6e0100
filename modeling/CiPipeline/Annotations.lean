import CiPipeline.Text.Characters
import CiPipeline.Text.Lines
import CiPipeline.Text.Quoted

/-!
# Annotations in comments

A comment such as `#@Interactive` sets a field of the job that follows it.  The
annotations since the last job are put in as lines behind the next line that
looks like the start of one.
-/

namespace CiPipeline

open CiPipeline.Text

/-- The annotations that no job has taken yet. -/
structure Annotations where
  interactive : Bool := false
  injectSshAgent : Bool := false
  keepsArtifacts : Bool := false
  description : Option String := none
  deriving DecidableEq, Repr, Inhabited

namespace Annotations

/-- What follows one blank at most. -/
def afterBlank : List Char → List (List Char)
  | [] => [[]]
  | character :: rest =>
      if isBlank character then [rest, character :: rest]
      else [character :: rest]

/-- What follows a character. -/
def after (character : Char) : List Char → Option (List Char)
  | [] => none
  | first :: rest => if first == character then some rest else none

/-- The words behind each mark of an annotation: a number sign and an at sign,
with one blank at most behind each of them. -/
def words : List Char → List (List Char)
  | [] => []
  | '#' :: rest =>
      ((afterBlank rest).filterMap (after '@')).flatMap afterBlank ++ words rest
  | _ :: rest => words rest

/-- Whether a text starts with a word, whose first letter may be in
either case. -/
def startsWith (upper lower : Char) (word : String) (text : List Char) : Bool :=
  match text with
  | [] => false
  | first :: rest =>
      (first == upper || first == lower) && word.toList.isPrefixOf rest

/-- Letters that are the same apart from their case, also beyond ASCII: the long
s and the Kelvin sign are an s and a k. -/
def sameLetter (expected character : Char) : Bool :=
  character.toLower == expected ||
    (character.toNat == 0x17f && expected == 's') ||
    (character.toNat == 0x212a && expected == 'k')

/-- Whether a text starts with a word in any case, given in lower case. -/
def startsWithAnyCase : List Char → List Char → Bool
  | [], _ => true
  | expected :: word, character :: rest =>
      sameLetter expected character && startsWithAnyCase word rest
  | _, [] => false

/-- The description in an annotation: what follows its word and a space. -/
def description? (text : List Char) : Option String :=
  if startsWith 'D' 'd' "escription " text then
    some (String.ofList (trimEnd (text.drop "description ".length)))
  else none

/-- Notes the annotations of a line.  Of several descriptions the
first one counts. -/
def observe (pending : Annotations) (line : List Char) : Annotations :=
  let words := words line
  { interactive :=
      pending.interactive || words.any (startsWith 'I' 'i' "nteractive"),
    injectSshAgent :=
      pending.injectSshAgent || words.any (startsWith 'I' 'i' "njectSSHAgent"),
    keepsArtifacts :=
      pending.keepsArtifacts ||
        words.any (startsWithAnyCase "noartifactstosource".toList),
    description := pending.description.or (words.findSome? description?) }

def isPending (pending : Annotations) : Bool :=
  pending.interactive || pending.injectSshAgent || pending.keepsArtifacts ||
    pending.description.isSome

def fields (pending : Annotations) : List (List Char) :=
  let flag (set : Bool) (line : String) : List (List Char) :=
    if set then [line.toList] else []
  flag pending.interactive "  interactive: true" ++
    flag pending.injectSshAgent "  injectSSHAgent: true" ++
    flag pending.keepsArtifacts "  artifactsToSource: false" ++
    (pending.description.map fun description =>
      ("  description: " ++ Json.quote description).toList).toList

/-- Whether a line looks like the start of a job: a colon stands behind a
character of a word. -/
def startsJob : List Char → Bool
  | left :: ':' :: rest => isWordCharacter left || startsJob (':' :: rest)
  | _ :: rest => startsJob rest
  | [] => false

/-- Puts the fields that annotations set into lines. -/
def apply (pending : Annotations) : List (List Char) → List (List Char)
  | [] => []
  | line :: rest =>
      let pending := pending.observe line
      if pending.isPending && startsJob line then
        line :: pending.fields ++ apply {} rest
      else line :: apply pending rest

end Annotations

/-- Puts the fields that the annotations of a text set into it. -/
def annotate (text : String) : String :=
  "\n".intercalate
    ((Annotations.apply {} (lines text.toList)).map String.ofList)

end CiPipeline
