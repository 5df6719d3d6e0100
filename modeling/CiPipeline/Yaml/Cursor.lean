/-!
# Places in a YAML text

A cursor is a place in a text: what follows it, its line and its column.
Lines end with a line feed, a carriage return, both together, or one of three
further separators.
-/

namespace CiPipeline

/-- Why a text is not a YAML document. -/
inductive YamlError where
  | forbiddenCharacter
  | unexpectedCharacter
  | misplacedEntry
  | misplacedKey
  | misplacedValue
  | missingColon
  | malformedDirective
  | malformedAnchor
  | malformedTag
  | malformedBlockScalar
  | unterminatedScalar
  | unknownEscape
  | misplacedTab
  | unexpectedToken
  | undefinedTagHandle
  | undefinedAnchor
  | severalDocuments
  | duplicateKey
  | invalidScalar
  | emptyTag
  | nestedTooDeeply
  | repeatedTooOften
  deriving DecidableEq, Repr

/-- What is wrong with a text that is not a YAML document. -/
def YamlError.reason : YamlError → String
  | .forbiddenCharacter => "control characters are not allowed"
  | .unexpectedCharacter => "found character that cannot start any token"
  | .misplacedEntry => "block sequence entries are not allowed in this context"
  | .misplacedKey => "mapping keys are not allowed in this context"
  | .misplacedValue => "mapping values are not allowed in this context"
  | .missingColon => "could not find expected ':'"
  | .malformedDirective => "found malformed directive"
  | .malformedAnchor => "did not find expected alphabetic or numeric character"
  | .malformedTag => "did not find expected tag"
  | .malformedBlockScalar => "did not find expected block scalar header"
  | .unterminatedScalar => "found unexpected end of scalar"
  | .unknownEscape => "found unknown escape character"
  | .misplacedTab => "found a tab character that violates indentation"
  | .unexpectedToken => "did not find expected token"
  | .undefinedTagHandle => "found undefined tag handle"
  | .undefinedAnchor => "unknown anchor"
  | .severalDocuments =>
      "deserializing from YAML containing more than one document"
  | .duplicateKey => "duplicate entry"
  | .invalidScalar => "invalid value"
  | .emptyTag => "empty YAML tag is not allowed"
  | .nestedTooDeeply => "recursion limit exceeded"
  | .repeatedTooOften => "repetition limit exceeded"

namespace Yaml

def isAllowed (character : Char) : Bool :=
  let point := character.toNat
  point == 0x09 || point == 0x0a || point == 0x0d ||
  (0x20 ≤ point && point ≤ 0x7e) ||
    point == 0x85 || (0xa0 ≤ point && point ≤ 0xfffd) || 0x10000 ≤ point

/-- Spaces and tabs. -/
def isBlank (character : Char) : Bool := character == ' ' || character == '\t'

/-- Characters that end a line. -/
def isBreak (character : Char) : Bool :=
  character == '\n' || character == '\r' || character.toNat == 0x85 ||
    character.toNat == 0x2028 || character.toNat == 0x2029

def isEnd (character : Option Char) : Bool := character.isNone

/-- Whether a place is the end of a line. -/
def isBreakOrEnd (character : Option Char) : Bool := character.all isBreak

/-- Whether a place ends a word. -/
def isBlankOrEnd (character : Option Char) : Bool :=
  character.all fun character => isBlank character || isBreak character

def isNameCharacter (character : Char) : Bool :=
  character.isAlphanum || character == '_' || character == '-'

/-- A place in a text. -/
structure Cursor where
  rest : List Char
  index : Nat := 0
  line : Nat := 0
  column : Nat := 0
  deriving Repr, Inhabited

namespace Cursor

def peek (cursor : Cursor) : Option Char := cursor.rest.head?

/-- The character some places further on. -/
def peekAt (cursor : Cursor) (offset : Nat) : Option Char :=
  cursor.rest[offset]?

/-- Whether a character stands at the place. -/
def at_ (cursor : Cursor) (character : Char) : Bool :=
  cursor.peek == some character

/-- Passes a character of a line. -/
def advance (cursor : Cursor) : Cursor :=
  match cursor.rest with
  | [] => cursor
  | _ :: rest =>
      { cursor with rest, index := cursor.index + 1,
                    column := cursor.column + 1 }

/-- Passes some characters of a line. -/
def advanceBy : Nat → Cursor → Cursor
  | 0, cursor => cursor
  | count + 1, cursor => advanceBy count cursor.advance

/-- Passes the end of a line. -/
def advanceLine (cursor : Cursor) : Cursor :=
  match cursor.rest with
  | '\r' :: '\n' :: rest =>
      { rest, index := cursor.index + 2, line := cursor.line + 1, column := 0 }
  | character :: rest =>
      if isBreak character then
        { rest, index := cursor.index + 1, line := cursor.line + 1,
          column := 0 }
      else cursor
  | [] => cursor

/-- The characters for which the end of a line stands in a scalar. -/
def breakText (cursor : Cursor) : List Char :=
  match cursor.rest with
  | [] => []
  | character :: _ =>
      if character.toNat == 0x2028 || character.toNat == 0x2029 then [character]
      else if isBreak character then ['\n']
      else []

/-- Passes the characters of a line that satisfy a condition, and
returns them. -/
def takeWhile (condition : Char → Bool) (cursor : Cursor) :
    List Char × Cursor :=
  let taken := cursor.rest.takeWhile condition
  (taken, { cursor with
    rest := cursor.rest.dropWhile condition,
    index := cursor.index + taken.length,
    column := cursor.column + taken.length })

/-- Passes the characters of a line that satisfy a condition. -/
def dropWhile (condition : Char → Bool) (cursor : Cursor) : Cursor :=
  (cursor.takeWhile condition).2

def dropComment (cursor : Cursor) : Cursor :=
  if cursor.at_ '#' then cursor.dropWhile fun character =>
    !isBreak character else cursor

/-- Whether three equal characters followed by the end of a word start
a line here. -/
def atIndicator (cursor : Cursor) (character : Char) : Bool :=
  cursor.column == 0 && cursor.peek == some character &&
    cursor.peekAt 1 == some character &&
    cursor.peekAt 2 == some character && isBlankOrEnd (cursor.peekAt 3)

/-- Whether a document starts or ends here. -/
def atDocumentBoundary (cursor : Cursor) : Bool :=
  cursor.atIndicator '-' || cursor.atIndicator '.'

end Cursor

end Yaml

end CiPipeline
