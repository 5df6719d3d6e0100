import CiPipeline.Yaml.Value

/-!
# Writing YAML documents

A value is written in block style: one line per scalar, two columns per level,
and the items of a sequence that is the value of a key in the column of that
key.  A text is written plainly where it reads back as that text, in several
lines where it has several, and else between quotes.
-/

namespace CiPipeline.Yaml

/-! ## Properties of texts -/

/-- Whether a character is written as it is in all styles. -/
def isPrintable (character : Char) : Bool :=
  let point := character.toNat
  point == 0x0a || (0x20 ≤ point && point ≤ 0x7e) ||
    (0xa0 ≤ point && point ≤ 0xfffd && point != 0xfeff) || 0x10000 ≤ point

/-- Whether what stands behind a character ends a word; so does the end
of the text. -/
def isWordEnd (character : Option Char) : Bool :=
  isBlankOrEnd character || character.any (·.toNat == 0)

/-- Whether somewhere a character of one kind is followed by one of
another kind. -/
def hasPair (first second : Char → Bool) : List Char → Bool
  | left :: right :: rest =>
      (first left && second right) || hasPair first second (right :: rest)
  | _ => false

def startsWithIndicator : List Char → Bool
  | [] => false
  | character :: rest =>
      "#,[]\x7b\x7d&*!|>'\"%@\x60".toList.contains character ||
        (['?', ':', '-'].contains character && isWordEnd rest.head?)

def hasIndicatorAfter : Char → List Char → Bool
  | _, [] => false
  | previous, character :: rest =>
      (character == ':' && isWordEnd rest.head?) ||
        (character == '#' && isWordEnd (some previous)) ||
        hasIndicatorAfter character rest

def startsLikeBoundary (text : List Char) : Bool :=
  text.take 3 == ['-', '-', '-'] || text.take 3 == ['.', '.', '.']

/-- Whether a reader would take something in the text for an indicator. -/
def hasIndicator (text : List Char) : Bool :=
  startsLikeBoundary text || startsWithIndicator text ||
    match text with
    | [] => false
    | first :: rest => hasIndicatorAfter first rest

/-- Spaces, but not tabs. -/
def isSpace (character : Char) : Bool := character == ' '

/-- Whether a text cannot be written without escapes. -/
def needsEscapes (text : List Char) : Bool :=
  !text.all isPrintable || hasPair isSpace isBreak text

/-- Whether a text may be written plainly. -/
def allowsPlain (text : List Char) : Bool :=
  !needsEscapes text && !hasIndicator text && !text.any isBreak &&
    !text.head?.any isSpace && !text.getLast?.any isSpace

def allowsSingleQuotes (text : List Char) : Bool :=
  !needsEscapes text && !hasPair isBreak isSpace text

/-- Whether a text may be written in several lines. -/
def allowsLines (text : List Char) : Bool :=
  !needsEscapes text && !text.getLast?.any isSpace

/-- Whether a plain text would be read back as something else. -/
def isAmbiguous (text : String) : Bool :=
  isZeroPadded text.toList ||
    match interpret text with
    | .ok (.text _) => false
    | _ => true

/-! ## Styles of texts -/

/-- How a text is written. -/
inductive Style where
  | plain
  | singleQuoted
  | doubleQuoted
  | literal
  deriving DecidableEq, Repr

def styleOf (text : String) : Style :=
  let characters := text.toList
  if characters.contains '\n' then
    if !characters.isEmpty && allowsLines characters then .literal
    else .doubleQuoted
  else if !isAmbiguous text && allowsPlain characters then .plain
  else if allowsSingleQuotes characters then .singleQuoted
  else .doubleQuoted

/-- Spaces up to a column. -/
def spaces (column : Nat) : List Char := List.replicate column ' '

/-- Writes text in several lines, each of which is indented unless
it is empty. -/
def indentLines (column : Nat) : Bool → List Char → List Char
  | _, [] => []
  | startsLine, character :: rest =>
      if isBreak character then character :: indentLines column true rest
      else if startsLine then
        spaces column ++ character :: indentLines column false rest
      else character :: indentLines column false rest

/-- The indicators of a text in several lines: the indentation, where the text
itself starts with space, and what the end of the text is. -/
def literalHints (text : List Char) : List Char :=
  let indentation :=
    if text.head?.any (fun first => isSpace first || isBreak first) then
      ['2'] else []
  let ending := match text.reverse with
    | [] => ['-']
    | last :: before =>
        if !isBreak last then ['-']
        else if before.isEmpty || before.head?.any isBreak then ['+']
        else []
  indentation ++ ending

/-- Writes a text in several lines. -/
def literalText (column : Nat) (text : List Char) : List Char :=
  '|' :: literalHints text ++ '\n' :: indentLines column true text

def singleQuotedInner (column : Nat) : Bool → List Char → List Char
  | afterBreak, [] => if afterBreak then spaces column else []
  | afterBreak, character :: rest =>
      if isBreak character then character :: singleQuotedInner column true rest
      else
        let written := if character == '\'' then ['\'', '\''] else [character]
        (if afterBreak && !isSpace character then spaces column else []) ++
          written ++ singleQuotedInner column
            (afterBreak && isSpace character) rest

def singleQuotedText (column : Nat) (text : List Char) : List Char :=
  '\'' :: singleQuotedInner column false text ++ ['\'']

/-- A hexadecimal digit in upper case. -/
def upperHexDigit (value : Nat) : Char :=
  if value < 10 then Char.ofNat (value + 48) else Char.ofNat (value + 55)

/-- A number of hexadecimal digits. -/
def upperHexDigits : Nat → Nat → List Char
  | 0, _ => []
  | count + 1, value =>
      upperHexDigits count (value / 16) ++ [upperHexDigit (value % 16)]

def escapeText (character : Char) : List Char :=
  match character with
  | '"' => ['\\', '"']
  | '\\' => ['\\', '\\']
  | '\n' => ['\\', 'n']
  | '\t' => ['\\', 't']
  | '\r' => ['\\', 'r']
  | _ =>
      let point := character.toNat
      match [(0, '0'), (7, 'a'), (8, 'b'), (11, 'v'), (12, 'f'), (27, 'e'),
        (0x85, 'N'),
          (0xa0, '_'), (0x2028, 'L'), (0x2029, 'P')].lookup point with
      | some letter => ['\\', letter]
      | none =>
          if point ≤ 0xff then '\\' :: 'x' :: upperHexDigits 2 point
          else if point ≤ 0xffff then '\\' :: 'u' :: upperHexDigits 4 point
          else '\\' :: 'U' :: upperHexDigits 8 point

def doubleQuotedText (text : List Char) : List Char :=
  let written := text.flatMap fun character =>
    if !isPrintable character || isBreak character || character == '"' ||
        character == '\\' then
      escapeText character
    else [character]
  '"' :: written ++ ['"']

/-- Writes a text, whose further lines start at a column. -/
def textText (column : Nat) (text : String) : List Char :=
  match styleOf text with
  | .plain => text.toList
  | .singleQuoted => singleQuotedText column text.toList
  | .doubleQuoted => doubleQuotedText text.toList
  | .literal => literalText column text.toList

/-! ## Layout -/

/-- Where a value is written. -/
structure Place where
  /-- The column of the block around it, if there is one. -/
  column : Option Nat
  /-- Whether nothing but indicators stands in front of it on its line. -/
  fresh : Bool
  /-- Whether it is a key or a value of a mapping. -/
  inMapping : Bool

namespace Place

/-- The place of the whole document. -/
def root : Place := ⟨none, true, false⟩

/-- The place of a key on the line of its value. -/
def shortKey : Place := ⟨none, true, true⟩

/-- What separates a scalar from what precedes it. -/
def gap (place : Place) : List Char :=
  if place.column.isNone && place.fresh then [] else [' ']

def blockColumn (place : Place) (indented : Bool) : Nat :=
  match place.column with
  | none => 0
  | some column => if indented then column + 2 else column

/-- The column of the further lines of a scalar at a place. -/
def scalarColumn (place : Place) : Nat := place.column.getD 0 + 2

/-- What stands in front of the first line of a block. -/
def opening (place : Place) (column : Nat) : List Char :=
  if place.fresh then place.gap else '\n' :: spaces column

end Place

/-- Continues on the next line, unless the text ends with the end of a line. -/
def nextLine (written : List Char) (column : Nat) : List Char :=
  (if written.getLast?.any isBreak then [] else ['\n']) ++ spaces column

/-- Whether a key stands on one line with its value: it does unless it has
several lines or items, or more than 128 bytes. -/
def isShortKey : Value → Bool
  | .text text => !text.toList.any isBreak && text.utf8ByteSize ≤ 128
  | .sequence items => items.isEmpty
  | .mapping entries => entries.isEmpty
  | .tagged tag (.text text) =>
      !text.toList.any isBreak && tag.utf8ByteSize + 1 + text.utf8ByteSize ≤ 128
  | .tagged _ (.sequence items) => items.isEmpty
  | .tagged _ (.mapping entries) => entries.isEmpty
  | _ => true

mutual

def Value.write (place : Place) : Value → List Char
  | .null => place.gap ++ "null".toList
  | .boolean value => place.gap ++ (if value then "true" else "false").toList
  | .number value => place.gap ++ value.text.toList
  | .text value => place.gap ++ textText place.scalarColumn value
  | .sequence [] => place.gap ++ ['[', ']']
  | .sequence items =>
      let column := place.blockColumn (place.fresh || !place.inMapping)
      place.opening column ++ Value.writeItems column items
  | .mapping [] => place.gap ++ ['\x7b', '\x7d']
  | .mapping entries =>
      let column := place.blockColumn true
      place.opening column ++ Value.writeEntries column entries
  | .tagged tag value =>
      place.gap ++ '!' :: tag.toList ++
        Value.write { place with fresh := false } value

def Value.writeItems (column : Nat) : List Value → List Char
  | [] => []
  | [item] => '-' :: item.write ⟨some column, true, false⟩
  | item :: rest =>
      let written := '-' :: item.write ⟨some column, true, false⟩
      written ++ nextLine written column ++ Value.writeItems column rest

def Value.writeEntries (column : Nat) : List (Value × Value) → List Char
  | [] => []
  | (key, value) :: rest =>
      let written :=
        if isShortKey key then
          key.write Place.shortKey ++
            ':' :: value.write ⟨some column, false, true⟩
        else
          let question := '?' :: key.write ⟨some column, true, true⟩
          question ++ nextLine question column ++
            ':' :: value.write ⟨some column, true, true⟩
      match rest with
      | [] => written
      | _ =>
          written ++ nextLine written column ++ Value.writeEntries column rest

end

def Value.toText (value : Value) : String :=
  let written := value.write Place.root
  String.ofList (written ++ nextLine written 0)

end CiPipeline.Yaml
