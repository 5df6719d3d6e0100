import CiPipeline.Configuration.Setting
import CiPipeline.Text.Basic

/-!
# Reading data interchange texts

A text of data interchange as a setting.  Every reader gives what it read and
the text behind it.
-/

namespace CiPipeline.Json

open CiPipeline.Text

/-- Whether a character may stand between values. -/
def isBlank (character : Char) : Bool := " \t\n\r".toList.contains character

def skipBlanks (text : List Char) : List Char := text.dropWhile isBlank

/-- The character for which a letter stands behind a backslash. -/
def escapedLetter? : Char → Option Char
  | '"' => some '"'
  | '\\' => some '\\'
  | '/' => some '/'
  | 'b' => some '\x08'
  | 'f' => some '\x0c'
  | 'n' => some '\n'
  | 'r' => some '\r'
  | 't' => some '\t'
  | _ => none

/-- The parts of a text: characters, and halves of characters that are written
in two parts. -/
inductive Unit where
  | character (value : Char)
  | half (point : Nat)
  deriving DecidableEq, Repr

/-- Whether a number is the first half of a character. -/
def isFirstHalf (point : Nat) : Bool := 0xD800 ≤ point && point < 0xDC00

/-- Whether a number is the second half of a character. -/
def isSecondHalf (point : Nat) : Bool := 0xDC00 ≤ point && point < 0xE000

/-- The unit that a number stands for. -/
def unitOf (point : Nat) : Unit :=
  if isFirstHalf point || isSecondHalf point then .half point
  else .character (Char.ofNat point)

/-- Reads the units of a text up to its closing quote. -/
def readUnits : List Char → Option (List Unit × List Char)
  | [] => none
  | '"' :: rest => some ([], rest)
  | '\\' :: 'u' :: a :: b :: c :: d :: rest =>
      if [a, b, c, d].all (isDigitOf 16) then
        (readUnits rest).map fun (units, rest) =>
          (unitOf (digitsValue 16 [a, b, c, d]) :: units, rest)
      else none
  | '\\' :: letter :: rest =>
      match escapedLetter? letter with
      | some character =>
          (readUnits rest).map fun (units, rest) =>
            (.character character :: units, rest)
      | none => none
  | character :: rest =>
      if character < ' ' || character == '\\' then none
      else (readUnits rest).map fun (units, rest) =>
        (.character character :: units, rest)

/-- The text of units, if each half has its other half. -/
def unitsText? : List Unit → Option (List Char)
  | [] => some []
  | .character value :: rest => (unitsText? rest).map (value :: ·)
  | .half first :: .half second :: rest =>
      if isFirstHalf first && isSecondHalf second then
        (unitsText? rest).map
          (Char.ofNat (0x10000 + (first - 0xD800) * 0x400 +
            (second - 0xDC00)) :: ·)
      else none
  | .half _ :: _ => none

/-- Reads a text behind its quote.  It is none where a half of a character
stands alone. -/
def readText (text : List Char) : Option (Option String × List Char) :=
  (readUnits text).map fun (units, rest) =>
    ((unitsText? units).map String.ofList, rest)

/-- Reads digits, at least one. -/
def readDigits (text : List Char) : Option (List Char × List Char) :=
  let digits := text.takeWhile Char.isDigit
  if digits.isEmpty then none else some (digits, text.drop digits.length)

/-- Drops the fraction of a number. -/
def skipFraction? : List Char → Option (List Char)
  | '.' :: rest => (readDigits rest).map Prod.snd
  | rest => some rest

/-- Drops the exponent of a number. -/
def skipExponent? : List Char → Option (List Char)
  | mark :: rest =>
      if mark == 'e' || mark == 'E' then
        let digits := match rest with
          | '+' :: rest => rest
          | '-' :: rest => rest
          | rest => rest
        (readDigits digits).map Prod.snd
      else some (mark :: rest)
  | [] => some []

def readNumber (text : List Char) : Option (Setting × List Char) := do
  let (negative, magnitude) := match text with
    | '-' :: rest => (true, rest)
    | rest => (false, rest)
  let (digits, behind) ← readDigits magnitude
  if digits.length > 1 && digits.head? == some '0' then none
  let rest ← skipExponent? (← skipFraction? behind)
  if negative || rest.length < behind.length then some (.other, rest)
  else some (.natural (digitsValue 10 digits), rest)

def readWord? (word : String) (text : List Char) : Option (List Char) :=
  if word.toList.isPrefixOf text then some (text.drop word.length) else none

mutual

def readValue : Nat → List Char → Option (Setting × List Char)
  | 0, _ => none
  | fuel + 1, text =>
      match skipBlanks text with
      | '"' :: rest => (readText rest).map fun (text, rest) =>
          ((text.map Setting.text).getD .other, rest)
      | '[' :: rest =>
          match skipBlanks rest with
          | ']' :: rest => some (.sequence [], rest)
          | rest =>
              (readItems fuel rest).map fun (items, rest) =>
                (.sequence items, rest)
      | '\x7b' :: rest =>
          match skipBlanks rest with
          | '\x7d' :: rest => some (.mapping [], rest)
          | rest =>
              (readEntries fuel rest).map fun (entries, rest) =>
                (.mapping entries, rest)
      | 't' :: rest =>
          (readWord? "rue" rest).map fun rest => (.boolean true, rest)
      | 'f' :: rest =>
          (readWord? "alse" rest).map fun rest => (.boolean false, rest)
      | 'n' :: rest => (readWord? "ull" rest).map fun rest => (.null, rest)
      | rest => readNumber rest

/-- Reads the items of a sequence that has some. -/
def readItems : Nat → List Char → Option (List Setting × List Char)
  | 0, _ => none
  | fuel + 1, text => do
      let (item, rest) ← readValue fuel text
      match skipBlanks rest with
      | ',' :: rest =>
          (readItems fuel rest).map fun (items, rest) => (item :: items, rest)
      | ']' :: rest => some ([item], rest)
      | _ => none

/-- Reads the entries of a mapping that has some. -/
def readEntries :
    Nat → List Char → Option (List (Option String × Setting) × List Char)
  | 0, _ => none
  | fuel + 1, text =>
      match skipBlanks text with
      | '"' :: rest => do
          let (name, rest) ← readText rest
          match skipBlanks rest with
          | ':' :: rest => do
              let (value, rest) ← readValue fuel rest
              match skipBlanks rest with
              | ',' :: rest =>
                  (readEntries fuel rest).map fun (entries, rest) =>
                    ((name, value) :: entries, rest)
              | '\x7d' :: rest => some ([(name, value)], rest)
              | _ => none
          | _ => none
      | _ => none

end

/-- Reads a text of data interchange as a setting. -/
def readSetting? (text : String) : Option Setting := do
  let (setting, rest) ← readValue (2 * text.length + 2) text.toList
  if (skipBlanks rest).isEmpty then some setting else none

end CiPipeline.Json
