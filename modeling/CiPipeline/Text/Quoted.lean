import CiPipeline.Text.Characters

/-!
# Texts between quotes

In data interchange quotes, backslashes and control characters are escaped, and
everything else stands as it is.  In a message everything is escaped that cannot
be seen.
-/

namespace CiPipeline

namespace Text

/-- The escapes that are the same everywhere. -/
def commonEscape? : Char → Option (List Char)
  | '"' => some ['\\', '"']
  | '\\' => some ['\\', '\\']
  | '\n' => some ['\\', 'n']
  | '\r' => some ['\\', 'r']
  | '\t' => some ['\\', 't']
  | _ => none

end Text

namespace Json

def escapeCharacter (character : Char) : List Char :=
  if let some escape := Text.commonEscape? character then escape
  else if character.toNat == 8 then ['\\', 'b']
  else if character.toNat == 12 then ['\\', 'f']
  else if character.toNat < 32 then
    ['\\', 'u', '0', '0', Nat.digitChar (character.toNat / 16),
      Nat.digitChar (character.toNat % 16)]
  else [character]

def quote (text : String) : String :=
  String.ofList ('"' :: text.toList.flatMap escapeCharacter ++ ['"'])

end Json

namespace Text

/-- Whether a character can be seen by itself. -/
def isVisible (character : Char) : Bool :=
  if character.toNat < 128 then 32 ≤ character.toNat && character.toNat < 127
  else Category.letter.contains character || Category.number.contains
    character || Category.spacingMark.contains character ||
    Category.connectorPunctuation.contains character ||
    Category.dashPunctuation.contains character ||
    Category.openPunctuation.contains character ||
    Category.closePunctuation.contains character ||
    Category.initialPunctuation.contains character ||
    Category.finalPunctuation.contains character ||
    Category.otherPunctuation.contains character || Category.mathSymbol.contains
      character || Category.currencySymbol.contains character ||
    Category.modifierSymbol.contains character ||
    Category.otherSymbol.contains character

def showCharacter (character : Char) : List Char :=
  if let some escape := commonEscape? character then escape
  else if character.toNat == 0 then ['\\', '0']
  else if isVisible character then [character]
  else ['\\', 'u', '\x7b'] ++ Nat.toDigits 16 character.toNat ++ ['\x7d']

def showText (text : String) : String :=
  String.ofList ('"' :: text.toList.flatMap showCharacter ++ ['"'])

end Text

end CiPipeline
