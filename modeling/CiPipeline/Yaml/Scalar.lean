import CiPipeline.Text.Basic
import CiPipeline.Yaml.Cursor

/-!
# Scalars of YAML texts

Plain, quoted and block scalars.  The ends of lines within plain and quoted
scalars are folded: a single one stands for a space, and of several the
first is dropped.
-/

namespace CiPipeline.Yaml

/-- A scalar in the course of being read.  Texts are held in reverse. -/
structure Folded where
  text : List Char := []
  /-- Blanks since the last other character of the line. -/
  blanks : List Char := []
  /-- The first end of a line since the last other character. -/
  firstBreak : List Char := []
  /-- The further ends of lines. -/
  laterBreaks : List Char := []
  /-- Whether the end of a line was passed since the last other character. -/
  broken : Bool := false
  deriving Repr, Inhabited

namespace Folded

/-- Passes a blank. -/
def addBlank (folded : Folded) (character : Char) : Folded :=
  if folded.broken then folded
  else { folded with blanks := character :: folded.blanks }

/-- Passes the end of a line. -/
def addBreak (folded : Folded) (breakText : List Char) : Folded :=
  if folded.broken then
    { folded with laterBreaks := breakText ++ folded.laterBreaks }
  else { folded with blanks := [], firstBreak := breakText, broken := true }

/-- Passes an escaped end of a line, which stands for nothing. -/
def addEscapedBreak (folded : Folded) : Folded := { folded with broken := true }

/-- Whether blanks or ends of lines were passed since the last other
character. -/
def pending (folded : Folded) : Bool := folded.broken || !folded.blanks.isEmpty

/-- Adds what the blanks and the ends of lines stand for. -/
def join (folded : Folded) : Folded :=
  if folded.broken then
    let space := match folded.firstBreak with
      | ['\n'] =>
          if folded.laterBreaks.isEmpty then [' '] else folded.laterBreaks
      | _ => folded.laterBreaks ++ folded.firstBreak
    { text := space ++ folded.text }
  else { text := folded.blanks ++ folded.text }

def add (folded : Folded) (character : Char) : Folded :=
  let joined := folded.join
  { joined with text := character :: joined.text }

/-- The text that was read. -/
def result (folded : Folded) : String := String.ofList folded.text.reverse

end Folded

/-! ## Plain scalars -/

/-- Indicators that end a plain scalar within brackets. -/
def isFlowIndicator (character : Char) : Bool :=
  [',', '[', ']', '\x7b', '\x7d'].contains character

def endsPlain (inFlow : Bool) (cursor : Cursor) (character : Char) : Bool :=
  (character == ':' && isBlankOrEnd (cursor.peekAt 1)) ||
    (inFlow && isFlowIndicator character)

/-- Reads a plain scalar up to its end.  Every round passes a
character at least. -/
def readPlainFrom (inFlow : Bool) (indent : Nat) :
    Nat → Cursor → Folded → Except YamlError (Folded × Cursor)
  | 0, cursor, folded => .ok (folded, cursor)
  | rounds + 1, cursor, folded =>
      match cursor.peek with
      | none => .ok (folded, cursor)
      | some character =>
          if isBlank character then
            if folded.broken && cursor.column < indent && character == '\t' then
              .error .misplacedTab
            else readPlainFrom inFlow indent rounds cursor.advance
              (folded.addBlank character)
          else if isBreak character then
            readPlainFrom inFlow indent rounds cursor.advanceLine
              (folded.addBreak cursor.breakText)
          else if folded.pending &&
              ((!inFlow && cursor.column < indent) || character == '#') then
            .ok (folded, cursor)
          else if cursor.atDocumentBoundary then .ok (folded, cursor)
          else if inFlow && character == ':' &&
              (cursor.peekAt 1).any
                (fun next => isFlowIndicator next || next == '?') then
            .error .unexpectedCharacter
          else if endsPlain inFlow cursor character then .ok (folded, cursor)
          else readPlainFrom inFlow indent rounds cursor.advance
            (folded.add character)

/-- Reads a plain scalar.  The last component tells whether a line
ended behind it. -/
def readPlain (inFlow : Bool) (indent : Nat) (cursor : Cursor) :
    Except YamlError (String × Cursor × Bool) := do
  let (folded, cursor) ← readPlainFrom inFlow indent
    (cursor.rest.length + 1) cursor {}
  return (folded.result, cursor, folded.broken)

/-! ## Quoted scalars -/

def shortEscape? : Char → Option Char
  | '0' => some (Char.ofNat 0)
  | 'a' => some (Char.ofNat 7)
  | 'b' => some (Char.ofNat 8)
  | 't' => some '\t'
  | '\t' => some '\t'
  | 'n' => some '\n'
  | 'v' => some (Char.ofNat 11)
  | 'f' => some (Char.ofNat 12)
  | 'r' => some '\r'
  | 'e' => some (Char.ofNat 27)
  | ' ' => some ' '
  | '"' => some '"'
  | '/' => some '/'
  | '\\' => some '\\'
  | 'N' => some (Char.ofNat 0x85)
  | '_' => some (Char.ofNat 0xa0)
  | 'L' => some (Char.ofNat 0x2028)
  | 'P' => some (Char.ofNat 0x2029)
  | _ => none

/-- The number of digits of an escape by code point. -/
def escapeLength? : Char → Option Nat
  | 'x' => some 2
  | 'u' => some 4
  | 'U' => some 8
  | _ => none

def hexValue? (digits : List Char) : Option Nat := do
  return (← digits.mapM Text.hexDigit?).foldl
    (fun total digit => total * 16 + digit) 0

/-- Reads what follows a backslash: the character for which it stands, and the
number of characters that it takes. -/
def readEscape (rest : List Char) : Except YamlError (Char × Nat) :=
  match rest with
  | [] => .error .unknownEscape
  | kind :: digits =>
      match shortEscape? kind with
      | some character => .ok (character, 1)
      | none =>
          match escapeLength? kind with
          | none => .error .unknownEscape
          | some count =>
              match hexValue? (digits.take count) with
              | some point =>
                  if (digits.take count).length = count &&
                      point.isValidChar then
                    .ok (Char.ofNat point, count + 1)
                  else .error .unknownEscape
              | none => .error .unknownEscape

/-- Reads a quoted scalar behind its opening quote.  Every round passes a
character at least. -/
def readQuotedFrom (quote : Char) :
    Nat → Cursor → Folded → Except YamlError (Folded × Cursor)
  | 0, _, _ => .error .unterminatedScalar
  | rounds + 1, cursor, folded =>
      if cursor.atDocumentBoundary then .error .unterminatedScalar
      else
        match cursor.peek with
        | none => .error .unterminatedScalar
        | some character =>
            if isBlank character then
              readQuotedFrom quote rounds cursor.advance
                (folded.addBlank character)
            else if isBreak character then
              readQuotedFrom quote rounds cursor.advanceLine
                (folded.addBreak cursor.breakText)
            else if character == '\'' && quote == '\'' &&
                cursor.peekAt 1 == some '\'' then
              readQuotedFrom quote rounds (cursor.advanceBy 2) (folded.add '\'')
            else if character == quote then .ok (folded.join, cursor.advance)
            else if character == '\\' && quote == '"' then
              if (cursor.peekAt 1).any isBreak then
                readQuotedFrom quote rounds cursor.advance.advanceLine
                  folded.join.addEscapedBreak
              else
                match readEscape cursor.advance.rest with
                | .error error => .error error
                | .ok (character, count) =>
                    readQuotedFrom quote rounds (cursor.advanceBy (count + 1))
                      (folded.add character)
            else readQuotedFrom quote rounds cursor.advance
              (folded.add character)

/-- Reads a quoted scalar at its opening quote. -/
def readQuoted (quote : Char) (cursor : Cursor) :
    Except YamlError (String × Cursor) := do
  let (folded, cursor) ←
    readQuotedFrom quote (cursor.rest.length + 1) cursor.advance {}
  return (folded.result, cursor)

/-! ## Block scalars -/

/-- What becomes of the ends of lines at the end of a block scalar. -/
inductive Chomping where
  | strip
  | clip
  | keep
  deriving DecidableEq, Repr

/-- Reads a chomping indicator. -/
def readChomping (cursor : Cursor) : Option (Chomping × Cursor) :=
  if cursor.at_ '+' then some (.keep, cursor.advance)
  else if cursor.at_ '-' then some (.strip, cursor.advance)
  else none

/-- Reads an indentation indicator, which is not zero. -/
def readIndentation (cursor : Cursor) :
    Except YamlError (Option Nat × Cursor) :=
  match cursor.peek with
  | some digit =>
      if digit == '0' then .error .malformedBlockScalar
      else if digit.isDigit then .ok (some (digit.toNat - 48), cursor.advance)
      else .ok (none, cursor)
  | none => .ok (none, cursor)

/-- Reads the two indicators of a block scalar in either order. -/
def readHeader (cursor : Cursor) :
    Except YamlError (Chomping × Option Nat × Cursor) :=
  match readChomping cursor with
  | some (chomping, cursor) => do
      let (increment, cursor) ← readIndentation cursor
      return (chomping, increment, cursor)
  | none => do
      let (increment, cursor) ← readIndentation cursor
      match increment, readChomping cursor with
      | some _, some (chomping, cursor) => return (chomping, increment, cursor)
      | _, _ => return (.clip, increment, cursor)

/-- Passes indentation and empty lines in front of a line of a block scalar.
Where the indentation is not known yet, the deepest of the lines passed is
returned with the ends of lines. -/
def readBlockBreaks (indent : Option Nat) :
    Nat → Nat → List Char → Cursor → Except YamlError (Nat × List Char × Cursor)
  | 0, deepest, breaks, cursor => .ok (deepest, breaks, cursor)
  | rounds + 1, deepest, breaks, cursor =>
      let within (column : Nat) : Bool := indent.all (column < ·)
      let spaces := match indent with
        | none => (cursor.takeWhile (· == ' ')).1.length
        | some indent =>
            min (indent - cursor.column) (cursor.takeWhile (· == ' ')).1.length
      let cursor := cursor.advanceBy spaces
      let deepest := max deepest cursor.column
      if within cursor.column && cursor.at_ '\t' then .error .misplacedTab
      else if cursor.peek.any isBreak then
        readBlockBreaks indent rounds deepest (cursor.breakText ++ breaks)
          cursor.advanceLine
      else .ok (deepest, breaks, cursor)

/-- A block scalar in the course of being read.  Texts are held in reverse. -/
structure Block where
  text : List Char := []
  /-- The end of the last line. -/
  lastBreak : List Char := []
  /-- The empty lines behind it. -/
  emptyLines : List Char := []
  /-- Whether the last line starts with a blank. -/
  blankLine : Bool := false

/-- Reads the lines of a block scalar.  Every round passes a line at least. -/
def readBlockLines (literal : Bool) (indent : Nat) :
    Nat → Block → Cursor → Except YamlError (Block × Cursor)
  | 0, block, cursor => .ok (block, cursor)
  | rounds + 1, block, cursor =>
      if cursor.column != indent || cursor.rest.isEmpty then .ok (block, cursor)
      else
        let startsBlank := cursor.peek.any isBlank
        let folds := !literal && block.lastBreak == ['\n'] &&
          !block.blankLine && !startsBlank
        let break_ :=
          if folds then (if block.emptyLines.isEmpty then [' '] else [])
            else block.lastBreak
        let (line, cursor) :=
          cursor.takeWhile fun character => !isBreak character
        let lastBreak := cursor.breakText
        match readBlockBreaks (some indent) (cursor.rest.length + 1) 0
            [] cursor.advanceLine with
        | .error error => .error error
        | .ok (_, emptyLines, cursor) =>
            readBlockLines literal indent rounds
              { text :=
                  line.reverse ++ block.emptyLines ++ break_ ++ block.text,
                lastBreak, emptyLines, blankLine := startsBlank } cursor

/-- Reads a block scalar at its indicator, within a block of some
indentation. -/
def readBlock (literal : Bool) (parent : Option Nat) (cursor : Cursor) :
    Except YamlError (String × Cursor) := do
  let (chomping, increment, cursor) ← readHeader cursor.advance
  let cursor := (cursor.dropWhile isBlank).dropComment
  if !isBreakOrEnd cursor.peek then .error .malformedBlockScalar
  let cursor := cursor.advanceLine
  let known := increment.map fun increment => parent.getD 0 + increment
  let rounds := cursor.rest.length + 1
  let (deepest, emptyLines, cursor) ← readBlockBreaks known rounds 0 [] cursor
  let least := match parent with
    | some parent => parent + 1
    | none => 1
  let indent := known.getD (max deepest least)
  let (block, cursor) ← readBlockLines literal indent rounds
    { emptyLines } cursor
  let ending := match chomping with
    | .strip => []
    | .clip => block.lastBreak
    | .keep => block.emptyLines ++ block.lastBreak
  return (String.ofList (ending ++ block.text).reverse, cursor)

end CiPipeline.Yaml
