import CiPipeline.Text.Characters
import CiPipeline.Text.LetterCase

/-!
# Texts in lower case

Every character is mapped by itself, except that a capital sigma at the end of a
word becomes the final form of the small letter.
-/

namespace CiPipeline.Text

/-- Whether a character has a case. -/
def isCased (character : Char) : Bool :=
  if character.toNat < 128 then character.isAlpha
  else Category.uppercaseLetter.contains character ||
    Category.lowercaseLetter.contains character ||
    Category.titlecaseLetter.contains character ||
    Category.otherLowercase.contains character ||
    Category.otherUppercase.contains character

/-- Whether a character is passed over when the letters around another one are
looked for. -/
def isCaseIgnorable (character : Char) : Bool :=
  ['\'', '.', ':', '^', Char.ofNat 0x60, '·', '’', '‘', '․', '‧', '﹒', '﹕', '．',
    '：'].contains character ||
    (character.toNat ≥ 128 && (Category.mark.contains character ||
      Category.format.contains character || Category.modifierLetter.contains
        character || Category.modifierSymbol.contains character))

/-- Whether the first character that is not passed over has a case. -/
def startsCased (text : List Char) : Bool :=
  match text.find? (fun character => !isCaseIgnorable character) with
  | some character => isCased character
  | none => false

/-- Maps a text to lower case, given the characters before it in reverse. -/
def lowercaseAfter (before : List Char) : List Char → List Char
  | [] => []
  | character :: rest =>
      let lowered :=
        if character == 'Σ' && startsCased before &&
          !startsCased rest then ['ς']
        else lowercaseOf character
      lowered ++ lowercaseAfter (character :: before) rest

/-- Maps a text to lower case. -/
def lowercase (text : String) : String :=
  String.ofList (lowercaseAfter [] text.toList)

end CiPipeline.Text
