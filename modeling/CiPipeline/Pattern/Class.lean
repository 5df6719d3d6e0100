import CiPipeline.Text.Characters
import CiPipeline.Text.LetterCase

/-!
# Character classes

A class is a set of characters built from ranges and tables of properties by
union, intersection and complement.  Closing a class under case adds every
character that folds like one of its members.
-/

namespace CiPipeline

open CiPipeline.Text

inductive CharacterClass where
  | nothing
  | range (first last : Char)
  | property (points : CodePoints)
  | either (left right : CharacterClass)
  | both (left right : CharacterClass)
  | other (inner : CharacterClass)
  | anyCase (inner : CharacterClass)
  deriving Inhabited

namespace CharacterClass

def contains : CharacterClass → Char → Bool
  | .nothing, _ => false
  | .range first last, character => first ≤ character && character ≤ last
  | .property points, character => points.contains character
  | .either left right, character =>
      left.contains character || right.contains character
  | .both left right, character =>
      left.contains character && right.contains character
  | .other inner, character => !inner.contains character
  | .anyCase inner, character => (caseVariants character).any inner.contains

def single (character : Char) : CharacterClass := .range character character

def anything : CharacterClass := .other .nothing

/-- The members of the left class that are not in the right one. -/
def without (left right : CharacterClass) : CharacterClass :=
  .both left (.other right)

/-- The characters that are in exactly one of two classes. -/
def onlyOne (left right : CharacterClass) : CharacterClass :=
  .either (left.without right) (right.without left)

/-- The class of the members of any of several classes. -/
def ofList (classes : List CharacterClass) : CharacterClass :=
  classes.foldr .either .nothing

/-- The class or its complement. -/
def negateIf (inner : CharacterClass) (negated : Bool) : CharacterClass :=
  if negated then .other inner else inner

/-- The class of the characters below 128. -/
def ascii : CharacterClass := .range (Char.ofNat 0) (Char.ofNat 127)

/-- The decimal digits below 128. -/
def asciiDigit : CharacterClass := .range '0' '9'

/-- The letters, digits and underscore below 128. -/
def asciiWord : CharacterClass :=
  ofList [.range 'a' 'z', .range 'A' 'Z', asciiDigit, single '_']

/-- The blank characters below 128. -/
def asciiBlank : CharacterClass := .either (.range '\t' '\r') (single ' ')

/-- The blank characters of every script. -/
def blank : CharacterClass :=
  .property ⟨[(0x09, 0x0d), (0x20, 0x20), (0x85, 0x85), (0xa0, 0xa0),
    (0x1680, 0x1680), (0x2000, 0x200a), (0x2028, 0x2029), (0x202f, 0x202f),
    (0x205f, 0x205f), (0x3000, 0x3000)]⟩

/-- The word characters of every script; those below 128 are decided first. -/
def word : CharacterClass := .either asciiWord (.property Category.word)

/-- The decimal digits of every script. -/
def digit : CharacterClass :=
  .either asciiDigit (.property Category.decimalNumber)

end CharacterClass

end CiPipeline
