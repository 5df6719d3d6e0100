import CiPipeline.Text.Category

/-!
# Classes of characters

The classes by which texts are split: blank characters, letters and digits, and
word characters.  Characters below 128 are decided directly, all others by the
tables of categories.
-/

namespace CiPipeline.Text

/-- Blank characters: the white space of every script. -/
def isBlank (character : Char) : Bool :=
  character == ' ' || ('\t' ≤ character && character ≤ '\r') ||
    [0x85, 0xa0, 0x1680, 0x2028, 0x2029, 0x202f, 0x205f, 0x3000].contains
      character.toNat || (0x2000 ≤ character.toNat && character.toNat ≤ 0x200a)

namespace Category

/-- The characters of any letter category. -/
def letter : CodePoints :=
  uppercaseLetter.union (lowercaseLetter.union
    (titlecaseLetter.union (modifierLetter.union otherLetter)))

/-- The characters of any number category. -/
def number : CodePoints :=
  decimalNumber.union (letterNumber.union otherNumber)

/-- The characters of any mark category. -/
def mark : CodePoints :=
  nonspacingMark.union (spacingMark.union enclosingMark)

def alphabetic : CodePoints :=
  letter.union (letterNumber.union otherAlphabetic)

/-- The characters of words: letters, marks, decimal digits, connectors
and joiners. -/
def word : CodePoints :=
  alphabetic.union (mark.union (decimalNumber.union
    (connectorPunctuation.union ⟨[(0x200c, 0x200d)]⟩)))

end Category

/-- Letters of any script. -/
def isAlphabetic (character : Char) : Bool :=
  if character.toNat < 128 then character.isAlpha
  else Category.alphabetic.contains character

/-- Letters and numbers of any script. -/
def isAlphanumeric (character : Char) : Bool :=
  if character.toNat < 128 then character.isAlphanum
  else Category.alphabetic.contains character ||
    Category.number.contains character

/-- Decimal digits of any script. -/
def isDecimalDigit (character : Char) : Bool :=
  if character.toNat < 128 then character.isDigit
  else Category.decimalNumber.contains character

/-- Word characters of any script: what a pattern calls `\w`. -/
def isWordCharacter (character : Char) : Bool :=
  if character.toNat < 128 then character.isAlphanum || character == '_'
  else Category.word.contains character

end CiPipeline.Text
