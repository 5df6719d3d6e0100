import CiPipeline.Yaml.Token

/-!
# From YAML texts to tokens

A colon tells only afterwards that what precedes it was a key.  So the place of
a possible key is kept, and the tokens that announce it are put in there when
its colon is found.  Outside of brackets, the column of the first token of a
line opens and closes blocks.
-/

namespace CiPipeline.Yaml

/-- A place where a key may have started: it has to end on its line, within 1024
characters. -/
structure PossibleKey where
  /-- Whether nothing but a key may start here. -/
  required : Bool
  /-- The number of tokens in front of it. -/
  position : Nat
  cursor : Cursor
  deriving Inhabited

/-- A text in the course of being cut into tokens. -/
structure Lexing where
  cursor : Cursor
  /-- The tokens so far, the last one first. -/
  tokens : List Token := []
  count : Nat := 0
  /-- The columns of the open blocks, the innermost first. -/
  blocks : List Nat := []
  /-- Whether a key may start here. -/
  keyAllowed : Bool := true
  /-- The possible key of the innermost collection. -/
  possibleKey : Option PossibleKey := none
  /-- The possible keys around the open brackets, the innermost first. -/
  outerKeys : List (Option PossibleKey) := []
  deriving Inhabited

namespace Lexing

/-- Whether a bracket is open. -/
def inFlow (lexing : Lexing) : Bool := !lexing.outerKeys.isEmpty

/-- The column at which the contents of the innermost block have to
start at least. -/
def indent (lexing : Lexing) : Nat :=
  match lexing.blocks with
  | [] => 0
  | column :: _ => column + 1

def push (lexing : Lexing) (token : Token) : Lexing :=
  { lexing with tokens := token :: lexing.tokens, count := lexing.count + 1 }

/-- Puts a token in at a position. -/
def insert (lexing : Lexing) (position : Nat) (token : Token) : Lexing :=
  let behind := lexing.count - position
  { lexing with
    tokens := lexing.tokens.take behind ++ token :: lexing.tokens.drop behind,
    count := lexing.count + 1 }

/-- Adds a token that is an indicator of some characters. -/
def pushIndicator (lexing : Lexing) (length : Nat) (token : Token) : Lexing :=
  { lexing.push token with cursor := lexing.cursor.advanceBy length }

/-! ## Blocks -/

/-- Opens a block at a column, unless one at this column or a later
one is open. -/
def openBlock (lexing : Lexing) (column position : Nat)
    (token : Token) : Lexing :=
  if lexing.inFlow then lexing
  else if lexing.indent ≤ column then
    { lexing.insert position token with blocks := column :: lexing.blocks }
  else lexing

/-- Closes the blocks that satisfy a condition, from the innermost one on. -/
def closeBlocks (condition : Nat → Bool) : List Nat → Lexing → Lexing
  | [], lexing => lexing
  | column :: outer, lexing =>
      if condition column then
        closeBlocks condition outer
          { lexing.push .blockEnd with blocks := outer }
      else lexing

/-- Closes the blocks that start behind a column. -/
def closeBlocksAfter (lexing : Lexing) (column : Nat) : Lexing :=
  if lexing.inFlow then lexing
  else closeBlocks (column < ·) lexing.blocks lexing

def closeAllBlocks (lexing : Lexing) : Lexing :=
  if lexing.inFlow then lexing
  else closeBlocks (fun _ => true) lexing.blocks lexing

/-! ## Keys -/

/-- Gives a possible key up. -/
def dropKey (key : Option PossibleKey) :
    Except YamlError (Option PossibleKey) :=
  match key with
  | some key => if key.required then .error .missingColon else .ok none
  | none => .ok none

/-- Gives the possible key of the innermost collection up. -/
def withoutKey (lexing : Lexing) : Except YamlError Lexing := do
  return { lexing with possibleKey := ← dropKey lexing.possibleKey }

/-- Gives a possible key up whose line or whose 1024 characters have ended. -/
def dropStaleKey (cursor : Cursor) (key : Option PossibleKey) :
    Except YamlError (Option PossibleKey) :=
  match key with
  | some place =>
      if place.cursor.line < cursor.line ||
          place.cursor.index + 1024 < cursor.index then
        dropKey key
      else .ok key
  | none => .ok none

/-- Gives all possible keys up that have ended. -/
def withoutStaleKeys (lexing : Lexing) : Except YamlError Lexing := do
  let possibleKey ← dropStaleKey lexing.cursor lexing.possibleKey
  let outerKeys ← lexing.outerKeys.mapM (dropStaleKey lexing.cursor)
  return { lexing with possibleKey, outerKeys }

/-- Notes that a key may start here, if one is allowed. -/
def noteKey (lexing : Lexing) : Except YamlError Lexing := do
  if !lexing.keyAllowed then return lexing
  let lexing ← lexing.withoutKey
  let required :=
    !lexing.inFlow && lexing.blocks.head? == some lexing.cursor.column
  let place : PossibleKey :=
    { required, position := lexing.count, cursor := lexing.cursor }
  return { lexing with possibleKey := some place }

/-! ## From token to token -/

/-- Passes blanks, comments and ends of lines.  Every round passes a
line at least. -/
def skipSpace : Nat → Lexing → Lexing
  | 0, lexing => lexing
  | rounds + 1, lexing =>
      let cursor := lexing.cursor
      let cursor :=
        if cursor.column == 0 && cursor.peek.any (·.toNat == 0xfeff) then
          cursor.advance
        else cursor
      let tabs := lexing.inFlow || !lexing.keyAllowed
      let cursor := cursor.dropWhile fun character =>
        character == ' ' || (tabs && character == '\t')
      let cursor := cursor.dropComment
      if cursor.peek.any isBreak then
        skipSpace rounds
          { lexing with
            cursor := cursor.advanceLine, keyAllowed :=
              lexing.keyAllowed || !lexing.inFlow }
      else { lexing with cursor }

def endStream (lexing : Lexing) : Except YamlError Lexing := do
  let lexing ← lexing.closeAllBlocks.withoutKey
  return lexing.push .streamEnd

def lexDirective (lexing : Lexing) : Except YamlError Lexing := do
  let lexing ← lexing.closeAllBlocks.withoutKey
  let (token, cursor) ← readDirective lexing.cursor
  return { lexing.push token with cursor, keyAllowed := false }

/-- The start or the end of a document. -/
def lexBoundary (lexing : Lexing) (token : Token) :
    Except YamlError Lexing := do
  let lexing ← lexing.closeAllBlocks.withoutKey
  return { lexing.pushIndicator 3 token with keyAllowed := false }

def openFlow (lexing : Lexing) (token : Token) : Except YamlError Lexing := do
  let lexing ← lexing.noteKey
  return { lexing.pushIndicator 1 token with
    outerKeys := lexing.possibleKey :: lexing.outerKeys, possibleKey :=
      none, keyAllowed := true }

def closeFlow (lexing : Lexing) (token : Token) : Except YamlError Lexing := do
  let lexing ← lexing.withoutKey
  let lexing := { lexing.pushIndicator 1 token with keyAllowed := false }
  match lexing.outerKeys with
  | [] => return lexing
  | key :: outer =>
      return { lexing with possibleKey := key, outerKeys := outer }

/-- A comma. -/
def lexFlowEntry (lexing : Lexing) : Except YamlError Lexing := do
  let lexing ← lexing.withoutKey
  return { lexing.pushIndicator 1 .flowEntry with keyAllowed := true }

/-- A dash in front of an item. -/
def lexBlockEntry (lexing : Lexing) : Except YamlError Lexing := do
  if !lexing.inFlow && !lexing.keyAllowed then throw .misplacedEntry
  let lexing :=
    lexing.openBlock lexing.cursor.column lexing.count .blockSequenceStart
  let lexing ← lexing.withoutKey
  return { lexing.pushIndicator 1 .blockEntry with keyAllowed := true }

/-- A question mark in front of a key. -/
def lexKey (lexing : Lexing) : Except YamlError Lexing := do
  if !lexing.inFlow && !lexing.keyAllowed then throw .misplacedKey
  let lexing :=
    lexing.openBlock lexing.cursor.column lexing.count .blockMappingStart
  let lexing ← lexing.withoutKey
  return { lexing.pushIndicator 1 .key with keyAllowed := !lexing.inFlow }

/-- A colon in front of a value, which makes a possible key a key. -/
def lexValue (lexing : Lexing) : Except YamlError Lexing := do
  match lexing.possibleKey with
  | some place =>
      let lexing := lexing.insert place.position .key
      let lexing :=
        lexing.openBlock place.cursor.column place.position .blockMappingStart
      return { lexing.pushIndicator 1 .value with
        possibleKey := none, keyAllowed := false }
  | none =>
      if !lexing.inFlow && !lexing.keyAllowed then throw .misplacedValue
      let lexing :=
        lexing.openBlock lexing.cursor.column lexing.count .blockMappingStart
      return { lexing.pushIndicator 1 .value with keyAllowed := !lexing.inFlow }

/-- An anchor or an alias. -/
def lexAnchor (lexing : Lexing) (token : String → Token) :
    Except YamlError Lexing := do
  let lexing ← lexing.noteKey
  let (name, cursor) ← readAnchor lexing.cursor
  return { lexing.push (token name) with cursor, keyAllowed := false }

def lexTag (lexing : Lexing) : Except YamlError Lexing := do
  let lexing ← lexing.noteKey
  let (token, cursor) ← readTag lexing.inFlow lexing.cursor
  return { lexing.push token with cursor, keyAllowed := false }

def lexBlockScalar (lexing : Lexing) (literal : Bool) :
    Except YamlError Lexing := do
  let lexing ← lexing.withoutKey
  let (text, cursor) ← readBlock literal lexing.blocks.head? lexing.cursor
  return { lexing.push (.scalar text false) with cursor, keyAllowed := true }

def lexQuoted (lexing : Lexing) (quote : Char) : Except YamlError Lexing := do
  let lexing ← lexing.noteKey
  let (text, cursor) ← readQuoted quote lexing.cursor
  return { lexing.push (.scalar text false) with cursor, keyAllowed := false }

def lexPlain (lexing : Lexing) : Except YamlError Lexing := do
  let lexing ← lexing.noteKey
  let (text, cursor, broken) ← readPlain lexing.inFlow lexing.indent
    lexing.cursor
  return { lexing.push (.scalar text true) with cursor, keyAllowed := broken }

/-- Whether a plain scalar may start with a character that another
one follows. -/
def startsPlain (inFlow : Bool) (character : Char)
    (next : Option Char) : Bool :=
  if character == '-' then !next.any isBlank
  else if character == '?' || character == ':' then
    !inFlow && !isBlankOrEnd next
  else !isBlank character && !isBreak character &&
    !",[]\x7b\x7d#&*!|>'\"%@\x60".toList.contains character

/-- The token that starts with a character. -/
def lexCharacter (lexing : Lexing) (character : Char) :
    Except YamlError Lexing :=
  let cursor := lexing.cursor
  let next := cursor.peekAt 1
  if cursor.column == 0 && character == '%' then lexing.lexDirective
  else if cursor.atIndicator '-' then lexing.lexBoundary .documentStart
  else if cursor.atIndicator '.' then lexing.lexBoundary .documentEnd
  else if character == '-' && isBlankOrEnd next then lexing.lexBlockEntry
  else if character == '?' && (lexing.inFlow || isBlankOrEnd next) then
    lexing.lexKey
  else if character == ':' && (lexing.inFlow || isBlankOrEnd next) then
    lexing.lexValue
  else
    match character with
    | '[' => lexing.openFlow .flowSequenceStart
    | '\x7b' => lexing.openFlow .flowMappingStart
    | ']' => lexing.closeFlow .flowSequenceEnd
    | '\x7d' => lexing.closeFlow .flowMappingEnd
    | ',' => lexing.lexFlowEntry
    | '*' => lexing.lexAnchor .alias_
    | '&' => lexing.lexAnchor .anchor
    | '!' => lexing.lexTag
    | '\'' => lexing.lexQuoted '\''
    | '"' => lexing.lexQuoted '"'
    | _ =>
        if character == '|' && !lexing.inFlow then lexing.lexBlockScalar true
        else if character == '>' && !lexing.inFlow then
          lexing.lexBlockScalar false
        else if startsPlain lexing.inFlow character next then lexing.lexPlain
        else .error .unexpectedCharacter

/-- Reads tokens up to the end of the text.  Every round passes a
character at least. -/
def run : Nat → Lexing → Except YamlError Lexing
  | 0, lexing => .ok lexing
  | rounds + 1, lexing =>
      match (skipSpace (lexing.cursor.rest.length + 1)
          lexing).withoutStaleKeys with
      | .error error => .error error
      | .ok lexing =>
          let lexing := lexing.closeBlocksAfter lexing.cursor.column
          match lexing.cursor.peek with
          | none => lexing.endStream
          | some character =>
              match lexing.lexCharacter character with
              | .error error => .error error
              | .ok lexing => run rounds lexing

end Lexing

def Token.ofText (text : String) : Except YamlError (List Token) := do
  let characters := text.toList
  if !characters.all isAllowed then throw .forbiddenCharacter
  let lexing ← Lexing.run (characters.length + 1)
    { cursor := { rest := characters } }
  return lexing.tokens.reverse

end CiPipeline.Yaml
