import CiPipeline.Pattern.Class

/-!
# Patterns

A pattern is a regular expression over characters.  Which of several matches is
preferred does not matter here: a text matches or it does not.
-/

namespace CiPipeline

/-- A condition on the place between two characters. -/
inductive Boundary where
  | textStart
  | textEnd
  | lineStart (carriageReturn : Bool)
  | lineEnd (carriageReturn : Bool)
  | wordEdge (ascii negated : Bool)
  | wordStart (ascii half : Bool)
  | wordEnd (ascii half : Bool)
  deriving DecidableEq, Repr

/-- A regular expression. -/
inductive Pattern where
  | empty
  | character (members : CharacterClass)
  | boundary (condition : Boundary)
  | sequence (first second : Pattern)
  | either (left right : Pattern)
  | repeated (inner : Pattern) (least : Nat) (most : Option Nat)
  deriving Inhabited

/-- Why a text is no pattern. -/
inductive PatternError where
  | unopenedGroup
  | unclosedGroup
  | unclosedClass
  | unclosedRepetition
  | nothingToRepeat
  | invalidRepetition
  | invalidEscape
  | invalidRange
  | invalidClassItem
  | invalidFlag
  | invalidGroupName
  | unknownProperty
  | unsupportedLookAround
  | invalidEncoding
  | nestedTooDeeply
  | tooLarge
  deriving DecidableEq, Repr

namespace PatternError

/-- The greatest size of a compiled pattern in bytes. -/
def sizeLimit : Nat := 10485760

/-- What is wrong with the text of a pattern. -/
def reason : PatternError → String
  | .unopenedGroup => "unopened group"
  | .unclosedGroup => "unclosed group"
  | .unclosedClass => "unclosed character class"
  | .unclosedRepetition => "unclosed counted repetition"
  | .nothingToRepeat => "repetition operator missing expression"
  | .invalidRepetition => "invalid repetition count range"
  | .invalidEscape => "unrecognized escape sequence"
  | .invalidRange => "invalid character class range"
  | .invalidClassItem => "invalid escape sequence found in character class"
  | .invalidFlag => "unrecognized flag"
  | .invalidGroupName => "invalid capture group name"
  | .unknownProperty => "Unicode property not found"
  | .unsupportedLookAround =>
      "look-around, including look-ahead and look-behind, is not supported"
  | .invalidEncoding => "pattern can match invalid UTF-8"
  | .nestedTooDeeply => "exceeds the maximum nesting depth"
  | .tooLarge => "too large"

def message : PatternError → String
  | .tooLarge => s!"Compiled regex exceeds size limit of {sizeLimit} bytes."
  | error => "regex parse error: " ++ error.reason

end PatternError

namespace Pattern

/-- An estimate of the number of states into which a pattern is compiled. -/
def stateCount : Pattern → Nat
  | .empty => 1
  | .character _ => 1
  | .boundary _ => 1
  | .sequence first second => first.stateCount + second.stateCount
  | .either left right => left.stateCount + right.stateCount + 1
  | .repeated inner least most =>
      inner.stateCount * max least (most.getD (least + 1)) + 1

/-- The bytes that one state takes. -/
def stateSize : Nat := 32

end Pattern

end CiPipeline
