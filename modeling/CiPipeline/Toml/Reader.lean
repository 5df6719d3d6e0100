import CiPipeline.Number
import CiPipeline.Text.Basic
import CiPipeline.Toml.Table

/-!
# Reading TOML

A document is a sequence of lines, each with a name and its value, the header of
a table, or neither.  Every reader gives what it read and the text behind it.
-/

namespace CiPipeline.Toml

open CiPipeline.Text

/-! ## Blanks and comments -/

/-- Whether a character is a blank within a line. -/
def isBlank (character : Char) : Bool := character == ' ' || character == '\t'

/-- Whether a character may stand in a comment or a text. -/
def isContent (character : Char) : Bool :=
  character == '\t' || (' ' ≤ character && character != '\x7f')

def skipBlanks (text : List Char) : List Char := text.dropWhile isBlank

/-- Drops the end of a line. -/
def readLineFeed? : List Char → Option (List Char)
  | '\n' :: rest => some rest
  | '\r' :: '\n' :: rest => some rest
  | _ => none

def skipComment : List Char → List Char
  | '#' :: rest => rest.dropWhile isContent
  | text => text

/-- Drops blanks, a comment and the end of the line or of the text. -/
def readLineEnd? (text : List Char) : Option (List Char) :=
  match skipComment (skipBlanks text) with
  | [] => some []
  | rest => readLineFeed? rest

/-- Drops blanks, comments and ends of lines, up to a number of them. -/
def skipLines : Nat → List Char → List Char
  | 0, text => text
  | count + 1, text =>
      let rest := skipComment (skipBlanks text)
      match readLineFeed? rest with
      | some rest => skipLines count rest
      | none => rest

/-! ## Texts -/

/-- The character for which a letter stands behind a backslash. -/
def escapedLetter? : Char → Option Char
  | 'b' => some '\x08'
  | 't' => some '\t'
  | 'n' => some '\n'
  | 'f' => some '\x0c'
  | 'r' => some '\r'
  | '"' => some '"'
  | '\\' => some '\\'
  | _ => none

/-- Puts a character in front of a text that was read. -/
def push (character : Char) (reading : Option (List Char × List Char)) :
    Option (List Char × List Char) :=
  reading.map fun (text, rest) => (character :: text, rest)

/-- Reads a character behind a backslash. -/
def readEscape : List Char → Option (Char × List Char)
  | 'u' :: rest =>
      if rest.length < 4 then none
      else (numberedCharacter? (rest.take 4)).map fun character =>
        (character, rest.drop 4)
  | 'U' :: rest =>
      if rest.length < 8 then none
      else (numberedCharacter? (rest.take 8)).map fun character =>
        (character, rest.drop 8)
  | letter :: rest =>
      (escapedLetter? letter).map fun character => (character, rest)
  | [] => none

/-- Reads a text between double quotes behind its first quote. -/
def readQuoted : Nat → List Char → Option (List Char × List Char)
  | 0, _ => none
  | _, [] => none
  | _ + 1, '"' :: rest => some ([], rest)
  | fuel + 1, '\\' :: rest => do
      let (character, rest) ← readEscape rest
      push character (readQuoted fuel rest)
  | fuel + 1, character :: rest =>
      if isContent character then
        push character (readQuoted fuel rest) else none

/-- Reads a text between single quotes behind its first quote. -/
def readLiteral : List Char → Option (List Char × List Char)
  | [] => none
  | '\'' :: rest => some ([], rest)
  | character :: rest =>
      if isContent character then push character (readLiteral rest) else none

/-- Reads the quotes of a kind at a place in a text between three quotes: those
that belong to the text, and whether the text ends there. -/
def readQuotes (quote : Char) (text : List Char) :
    List Char × Bool × List Char :=
  let count := (text.takeWhile (· == quote)).length
  if count < 3 then (List.replicate count quote, false, text.drop count)
  else (List.replicate (min count 5 - 3) quote, true, text.drop (min count 5))

/-- Drops a backslash at the end of a line, the end of the line, and the blanks
behind it. -/
def readContinuation? (text : List Char) : Option (List Char) := do
  let rest ← readLineFeed? (skipBlanks text)
  return rest.dropWhile fun character =>
    isBlank character || character == '\n' || character == '\r'

/-- Reads a text of several lines behind its first quotes. -/
def readLong (quote : Char) : Nat → List Char → Option (List Char × List Char)
  | 0, _ => none
  | _, [] => none
  | fuel + 1, character :: rest =>
      if character == quote then
        let (inner, ends, rest) := readQuotes quote (character :: rest)
        if ends then some (inner, rest)
        else (readLong quote fuel rest).map fun (text, rest) =>
          (inner ++ text, rest)
      else
        match readLineFeed? (character :: rest) with
        | some rest => push '\n' (readLong quote fuel rest)
        | none =>
            if character == '\\' && quote == '"' then
              match readContinuation? rest with
              | some rest => readLong quote fuel rest
              | none => do
                  let (character, rest) ← readEscape rest
                  push character (readLong quote fuel rest)
            else if isContent character then
              push character (readLong quote fuel rest)
            else none

/-- Reads a text, of one line or of several. -/
def readText (allowsLines : Bool) : List Char → Option (String × List Char)
  | '"' :: '"' :: '"' :: rest => if allowsLines then long '"' rest else none
  | '\'' :: '\'' :: '\'' :: rest => if allowsLines then long '\'' rest else none
  | '"' :: rest =>
      (readQuoted (rest.length + 1) rest).map fun (text, rest) =>
        (String.ofList text, rest)
  | '\'' :: rest =>
      (readLiteral rest).map fun (text, rest) => (String.ofList text, rest)
  | _ => none
where
  /-- Reads a text of several lines; the end of the line behind its quotes does
  not count. -/
  long (quote : Char) (text : List Char) : Option (String × List Char) :=
    let text := (readLineFeed? text).getD text
    (readLong quote (text.length + 1) text).map fun (text, rest) =>
      (String.ofList text, rest)

/-! ## Numbers and times -/

/-- The digits of a base in a text in which single underscores may stand
between digits. -/
def readDigits? (base : Nat) (text : List Char) : Option (List Char) :=
  let parts := splitAll '_' text
  if parts.all (fun part => !part.isEmpty && part.all (isDigitOf base)) then
  some parts.flatten
  else none

def splitSign : List Char → Bool × List Char
  | '-' :: rest => (true, rest)
  | '+' :: rest => (false, rest)
  | text => (false, text)

/-- The digits of a decimal integer without superfluous zeros. -/
def readDecimalDigits? (text : List Char) : Option (List Char) := do
  let digits ← readDigits? 10 text
  if digits.length > 1 && digits.head? == some '0' then none else some digits

/-- The number of integers of 64 bits that are not negative. -/
def integerCount : Int := Int.ofNat (Nat.pow 2 63)

/-- An integer of 64 bits. -/
def bounded? (value : Int) : Option Value :=
  if -integerCount ≤ value && value < integerCount then
    some (.integer value) else none

def readInteger? : List Char → Option Value
  | '0' :: 'x' :: digits => do
      bounded? (digitsValue 16 (← readDigits? 16 digits))
  | '0' :: 'o' :: digits => do bounded? (digitsValue 8 (← readDigits? 8 digits))
  | '0' :: 'b' :: digits => do bounded? (digitsValue 2 (← readDigits? 2 digits))
  | text => do
      let (negative, digits) := splitSign text
      let value : Int := digitsValue 10 (← readDecimalDigits? digits)
      bounded? (if negative then -value else value)

/-- The parts of a text around the first of some characters. -/
def cutAt (separators : List Char) (text : List Char) :
    List Char × Option (List Char) :=
  match text.dropWhile (!separators.contains ·) with
  | [] => (text, none)
  | _ :: rest => (text.takeWhile (!separators.contains ·), some rest)

/-- The digits of the fraction of a number, with the point, if it has one. -/
def readFraction? : Option (List Char) → Option (List Char)
  | none => some []
  | some text => (readDigits? 10 text).map ('.' :: ·)

/-- The exponent of a number, with its letter, if it has one. -/
def readExponent? : Option (List Char) → Option (List Char)
  | none => some []
  | some text =>
      let (negative, digits) := splitSign text
      (readDigits? 10 digits).map fun digits =>
        'e' :: (if negative then ['-'] else []) ++ digits

/-- Reads a number that is no integer. -/
def readDouble? (text : List Char) : Option Value := do
  let (_, magnitude) := splitSign text
  if magnitude == "inf".toList || magnitude == "nan".toList then return .double
  let (mantissa, exponent) := cutAt ['e', 'E'] magnitude
  let (whole, fraction) := cutAt ['.'] mantissa
  if exponent.isNone && fraction.isNone then none
  let digits :=
    (← readDecimalDigits? whole) ++ (← readFraction? fraction) ++
      (← readExponent? exponent)
  let (digits, exponent) ← Number.readDecimal? digits
  if (Number.ofDecimal false digits exponent).isFinite then
    some .double else none

/-- A number of decimal digits that is no greater than another. -/
def readField? (digits : List Char) (least greatest : Nat) : Option Nat :=
  let value := digitsValue 10 digits
  if digits.all Char.isDigit && least ≤ value && value ≤ greatest then
  some value else none

def daysOf (year month : Nat) : Nat :=
  if month == 2 then
    if (year % 4 == 0 && year % 100 != 0) || year % 400 == 0 then 29 else 28
  else if [4, 6, 9, 11].contains month then 30
  else 31

def isDate : List Char → Bool
  | [a, b, c, d, '-', e, f, '-', g, h] => (do
      let year ← readField? [a, b, c, d] 0 9999
      let month ← readField? [e, f] 1 12
      readField? [g, h] 1 (daysOf year month)).isSome
  | _ => false

/-- Whether a text is empty or the distance from universal time. -/
def isOffset : List Char → Bool
  | [] => true
  | ['Z'] => true
  | ['z'] => true
  | [sign, a, b, ':', c, d] =>
      (sign == '+' || sign == '-') && (readField? [a, b] 0 23).isSome &&
        (readField? [c, d] 0 59).isSome
  | _ => false

/-- Whether a text is a time of the day, and behind it, where that is allowed,
the distance from universal time. -/
def isClock (allowsOffset : Bool) : List Char → Bool
  | a :: b :: ':' :: c :: d :: ':' :: e :: f :: rest =>
      let rest? := match rest with
        | '.' :: rest =>
            let behind := rest.dropWhile Char.isDigit
            if behind.length < rest.length then some behind else none
        | rest => some rest
      (readField? [a, b] 0 23).isSome && (readField? [c, d] 0 59).isSome &&
        (readField? [e, f] 0 60).isSome &&
        rest?.any fun rest => if allowsOffset then
          isOffset rest else rest.isEmpty
  | _ => false

/-- Whether a text is a time: a date, a time of the day, or both. -/
def isTime (text : List Char) : Bool :=
  isDate text || isClock false text ||
    (isDate (text.take 10) && (text.drop 10).head?.any
      (fun mark => "Tt ".toList.contains mark) && isClock true (text.drop 11))

/-- Whether a character may stand in a number, a time or a truth value. -/
def isWordCharacter (character : Char) : Bool :=
  character.isAlphanum || "+-_.:".toList.contains character

def wordValue? (word : List Char) : Option Value :=
  if word == "true".toList then some (.boolean true)
  else if word == "false".toList then some (.boolean false)
  else if isTime word then some .time
  else (readInteger? word).or (readDouble? word)

/-- Reads a number, a time or a truth value.  A date and a time may stand around
one blank. -/
def readWord (text : List Char) : Option (Value × List Char) :=
  let word := text.takeWhile isWordCharacter
  let rest := text.drop word.length
  let clock := (rest.drop 1).takeWhile isWordCharacter
  if isDate word && rest.head? == some ' ' && clock.head?.any Char.isDigit then
    if isTime (word ++ ' ' :: clock) then
      some (.time, rest.drop (clock.length + 1)) else none
  else (wordValue? word).map fun value => (value, rest)

/-! ## Names -/

/-- Whether a character may stand in a name without quotes. -/
def isNameCharacter (character : Char) : Bool :=
  character.isAlphanum || character == '_' || character == '-'

/-- Reads a part of a name. -/
def readNamePart (text : List Char) : Option (String × List Char) :=
  match text with
  | '"' :: _ => readText false text
  | '\'' :: _ => readText false text
  | _ =>
      let name := text.takeWhile isNameCharacter
      if name.isEmpty then none
      else some (String.ofList name, text.drop name.length)

/-- Reads a name whose parts stand between points. -/
def readName : Nat → List Char → Option (List String × List Char)
  | 0, _ => none
  | fuel + 1, text => do
      let (part, rest) ← readNamePart (skipBlanks text)
      match skipBlanks rest with
      | '.' :: rest => do
          let (parts, rest) ← readName fuel rest
          return (part :: parts, rest)
      | rest => return ([part], rest)

/-! ## Values -/

/-- A name with its value: the parts of the name in front of its last part, that
part and the value. -/
structure Pair where
  path : List String
  name : String
  value : Value
  deriving Repr, Inhabited

def readPair (readValue : List Char → Option (Value × List Char))
    (text : List Char) : Option (Pair × List Char) := do
  let (parts, rest) ← readName (text.length + 1) text
  let name ← parts.getLast?
  match rest with
  | '=' :: rest =>
      let (value, rest) ← readValue (skipBlanks rest)
      return ({ path := parts.dropLast, name, value }, rest)
  | _ => none

/-- Reads the items of an array behind its bracket, or behind a comma. -/
def readItems (readValue : List Char → Option (Value × List Char)) :
    Nat → List Char → Option (List Value × List Char)
  | 0, _ => none
  | fuel + 1, text => do
      match skipLines (text.length + 1) text with
      | ']' :: rest => return ([], rest)
      | text =>
          let (value, rest) ← readValue text
          match skipLines (rest.length + 1) rest with
          | ',' :: rest => do
              let (values, rest) ← readItems readValue fuel rest
              return (value :: values, rest)
          | ']' :: rest => return ([value], rest)
          | _ => none

/-- Reads the pairs of a table behind its brace, or behind a comma. -/
def readPairs (readValue : List Char → Option (Value × List Char)) :
    Nat → List Char → Option (List Pair × List Char)
  | 0, _ => none
  | fuel + 1, text => do
      let (pair, rest) ← readPair readValue text
      match skipBlanks rest with
      | ',' :: rest => do
          let (pairs, rest) ← readPairs readValue fuel rest
          return (pair :: pairs, rest)
      | '\x7d' :: rest => return ([pair], rest)
      | _ => none

/-- Reads the rest of a table between braces. -/
def readInline (readValue : List Char → Option (Value × List Char))
    (text : List Char) : Option (Value × List Char) := do
  match skipBlanks text with
  | '\x7d' :: rest => return (.inline [], rest)
  | text =>
      let (pairs, rest) ← readPairs readValue (text.length + 1) text
      let entries ← pairs.foldlM (fun (entries : Entries) pair =>
        entries.insert pair.path pair.name pair.value) []
      return (.inline entries, rest)

/-- Reads a value with no more than a number of arrays and tables
around each other. -/
def readValue : Nat → List Char → Option (Value × List Char)
  | _, '"' :: rest =>
      (readText true ('"' :: rest)).map fun (text, rest) => (.text text, rest)
  | _, '\'' :: rest =>
      (readText true ('\'' :: rest)).map fun (text, rest) => (.text text, rest)
  | 0, '[' :: _ => none
  | depth + 1, '[' :: rest =>
      (readItems (readValue depth) (rest.length + 1) rest).map
          fun (items, rest) =>
        (.array items, rest)
  | 0, '\x7b' :: _ => none
  | depth + 1, '\x7b' :: rest => readInline (readValue depth) rest
  | _, text => readWord text

/-- The greatest number of arrays and tables around each other. -/
def greatestDepth : Nat := 80

/-! ## Documents -/

/-- What stands in a line. -/
inductive Line where
  | blank
  | header (path : List String) (name : String)
  | listHeader (path : List String) (name : String)
  | pair (pair : Pair)
  deriving Repr, Inhabited

def readHeader (closing : List Char) (text : List Char) :
    Option ((List String × String) × List Char) := do
  let (parts, rest) ← readName (text.length + 1) text
  let name ← parts.getLast?
  if closing.isPrefixOf rest then
    some ((parts.dropLast, name), rest.drop closing.length) else none

def readLine (text : List Char) : Option (Line × List Char) :=
  match skipBlanks text with
  | '[' :: '[' :: rest =>
      (readHeader [']', ']'] rest).map fun ((path, name), rest) =>
        (.listHeader path name, rest)
  | '[' :: rest =>
      (readHeader [']'] rest).map fun ((path, name), rest) =>
        (.header path name, rest)
  | [] => some (.blank, [])
  | character :: rest =>
      if "#\r\n".toList.contains character then some (.blank, character :: rest)
      else (readPair (readValue greatestDepth) (character :: rest)).map
          fun (pair, rest) =>
        (.pair pair, rest)

/-- A document in the course of being read: its entries, and the names that lead
to the table that lines are added to. -/
structure Draft where
  entries : Entries := []
  current : List String := []
  deriving Inhabited

def Draft.add (draft : Draft) : Line → Option Draft
  | .blank => some draft
  | .header path name => do
      return { entries := ← draft.entries.under path (Entries.declare name),
               current := path ++ [name] }
  | .listHeader path name => do
      return { entries := ← draft.entries.under path (Entries.declareMore name),
               current := path ++ [name] }
  | .pair pair => do
      return { draft with
        entries := ← draft.entries.under draft.current fun inner =>
                inner.insert pair.path pair.name pair.value }

def readLines (draft : Draft) : Nat → List Char → Option Entries
  | 0, _ => none
  | _, [] => some draft.entries
  | fuel + 1, text => do
      let (line, rest) ← readLine text
      let draft ← draft.add line
      readLines draft fuel (← readLineEnd? rest)

def read? (text : String) : Option Entries :=
  let text := match text.toList with
    | '\uFEFF' :: rest => rest
    | text => text
  readLines {} (text.length + 1) text

end CiPipeline.Toml
