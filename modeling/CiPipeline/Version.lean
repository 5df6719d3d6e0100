import CiPipeline.Failure
import CiPipeline.Text.Lines

/-!
# Versions

The version of GitLab whose reading of rules is followed.
-/

namespace CiPipeline

open CiPipeline.Text

/-- A version of GitLab. -/
structure Version where
  major : Nat
  minor : Nat
  deriving DecidableEq, Repr, Inhabited

namespace Version

/-- The version that is followed unless another is asked for. -/
def standard : Version := ⟨13, 12⟩

/-- The first version in which collections of rules may be nested. -/
def nestedRules : Version := ⟨14, 2⟩

/-- Whether a version is at least another: the major number counts first. -/
def atLeast (version other : Version) : Bool :=
  version.major > other.major ||
    (version.major == other.major && version.minor ≥ other.minor)

/-- Whether collections of rules may be nested. -/
def nests (version : Version) : Bool := version.atLeast nestedRules

def text (version : Version) : String := s!"{version.major}.{version.minor}"

def greatestNumber : Nat := Nat.pow 2 32 - 1

/-- Reads a version: two numbers around a point, with blanks around them. -/
def read? (text : String) : Option Version := do
  let (major, minor) ← splitAtFirst? '.' (trim text.toList)
  return ⟨← readNatural? greatestNumber major,
    ← readNatural? greatestNumber minor⟩

/-- What is wrong with a text that is no version. -/
def invalid (text : String) : String :=
  s!"invalid GitLab version '{text}', expected <major>.<minor>"

/-- Reads a version or fails. -/
def read (text : String) : Except Failure Version :=
  match read? text with
  | some version => .ok version
  | none => .error (.configuration (invalid text))

end Version

end CiPipeline
