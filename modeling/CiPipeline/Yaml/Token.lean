import CiPipeline.Yaml.Scalar

/-!
# Tokens of YAML texts

The tokens of a YAML text, and the readers of anchors, tags and directives.  A
tag is written as a handle and a suffix; the handle is empty where the suffix is
the whole tag.
-/

namespace CiPipeline.Yaml

/-- A token of a YAML text.  Blocks, whose extent is told by indentation, start
and end with tokens of their own. -/
inductive Token where
  | version (major minor : Nat)
  | tagHandle (handle meaning : String)
  | documentStart
  | documentEnd
  | streamEnd
  | blockSequenceStart
  | blockMappingStart
  | blockEnd
  | flowSequenceStart
  | flowSequenceEnd
  | flowMappingStart
  | flowMappingEnd
  | blockEntry
  | flowEntry
  | key
  | value
  | alias_ (anchor : String)
  | anchor (name : String)
  | tag (handle suffix : String)
  /-- A scalar; only one that is written plainly has a meaning
  besides its text. -/
  | scalar (text : String) (plain : Bool)
  deriving DecidableEq, Repr, Inhabited

/-! ## Anchors -/

/-- Whether a name of an anchor may end in front of a character. -/
def endsAnchor (character : Option Char) : Bool :=
  isBlankOrEnd character ||
    character.any fun character =>
      ['?', ':', ',', ']', '\x7d', '%', '@', '\x60'].contains character

def readAnchor (cursor : Cursor) : Except YamlError (String × Cursor) :=
  let (name, cursor) := cursor.advance.takeWhile isNameCharacter
  if name.isEmpty || !endsAnchor cursor.peek then .error .malformedAnchor
  else .ok (String.ofList name, cursor)

/-! ## Tags -/

/-- Characters of tags.  Only a tag between angle brackets may hold the
indicators of flow collections. -/
def isTagCharacter (bracketed : Bool) (character : Char) : Bool :=
  isNameCharacter character || ";/?:@&=+$.%!~*'()".toList.contains character ||
    (bracketed && [',', '[', ']'].contains character)

/-- Reads the octet that a percent sign and two hexadecimal digits stand for. -/
def readOctet (cursor : Cursor) : Except YamlError (Nat × Cursor) :=
  match cursor.rest with
  | '%' :: high :: low :: _ =>
      match hexValue? [high, low] with
      | some octet => .ok (octet, cursor.advanceBy 3)
      | none => .error .malformedTag
  | _ => .error .malformedTag

def readOctets : Nat → Cursor → Except YamlError (List Nat × Cursor)
  | 0, cursor => .ok ([], cursor)
  | count + 1, cursor => do
      let (octet, cursor) ← readOctet cursor
      let (octets, cursor) ← readOctets count cursor
      return (octet :: octets, cursor)

/-- The number of octets that follow the first octet of a character. -/
def furtherOctets? (first : Nat) : Option Nat :=
  if first < 0x80 then some 0
  else if 0xc0 ≤ first && first < 0xe0 then some 1
  else if 0xe0 ≤ first && first < 0xf0 then some 2
  else if 0xf0 ≤ first && first < 0xf8 then some 3
  else none

/-- Reads a character that is written by its octets. -/
def readEscapedCharacter (cursor : Cursor) :
    Except YamlError (List Char × Cursor) := do
  let (first, cursor) ← readOctet cursor
  match furtherOctets? first with
  | none => throw .malformedTag
  | some count =>
      let (octets, cursor) ← readOctets count cursor
      match String.fromUTF8? ⟨((first :: octets).map UInt8.ofNat).toArray⟩ with
      | some text => return (text.toList, cursor)
      | none => throw .malformedTag

/-- Reads the characters of a tag.  Every round passes a character at least. -/
def readTagCharacters (bracketed : Bool) :
    Nat → Cursor → List Char → Except YamlError (List Char × Cursor)
  | 0, cursor, read => .ok (read.reverse, cursor)
  | rounds + 1, cursor, read =>
      match cursor.peek with
      | none => .ok (read.reverse, cursor)
      | some character =>
          if !isTagCharacter bracketed character then .ok (read.reverse, cursor)
          else if character == '%' then
            match readEscapedCharacter cursor with
            | .ok (decoded, cursor) =>
                readTagCharacters bracketed rounds cursor
                  (decoded.reverse ++ read)
            | .error error => .error error
          else readTagCharacters bracketed rounds cursor.advance
            (character :: read)

/-- Reads the rest of a tag. -/
def readTagRest (bracketed : Bool) (cursor : Cursor) :
    Except YamlError (List Char × Cursor) :=
  readTagCharacters bracketed (cursor.rest.length + 1) cursor []

/-- Reads a handle at its exclamation mark, or as much of a tag as
looks like one. -/
def readHandle (cursor : Cursor) : List Char × Cursor :=
  let (name, cursor) := cursor.advance.takeWhile isNameCharacter
  if cursor.at_ '!' then ('!' :: name ++ ['!'], cursor.advance)
  else ('!' :: name, cursor)

/-- Whether what was read of a tag is a handle between two exclamation marks. -/
def isClosedHandle (handle : List Char) : Bool :=
  handle.length > 1 && handle.getLast? == some '!'

/-- Reads a tag between angle brackets at its exclamation mark. -/
def readBracketedTag (cursor : Cursor) : Except YamlError (Token × Cursor) := do
  let (suffix, cursor) ← readTagRest true (cursor.advanceBy 2)
  if suffix.isEmpty || !cursor.at_ '>' then throw .malformedTag
  return (.tag "" (String.ofList suffix), cursor.advance)

/-- Reads a tag without angle brackets at its exclamation mark. -/
def readShortTag (cursor : Cursor) : Except YamlError (Token × Cursor) := do
  let (handle, cursor) := readHandle cursor
  let (rest, cursor) ← readTagRest false cursor
  if isClosedHandle handle then
    if rest.isEmpty then throw .malformedTag
    return (.tag (String.ofList handle) (String.ofList rest), cursor)
  else
    match handle.drop 1 ++ rest with
    | [] => return (.tag "" "!", cursor)
    | suffix => return (.tag "!" (String.ofList suffix), cursor)

/-- Reads a tag at its exclamation mark. -/
def readTag (inFlow : Bool) (cursor : Cursor) :
    Except YamlError (Token × Cursor) := do
  let (token, cursor) ←
    if cursor.peekAt 1 == some '<' then readBracketedTag cursor
    else readShortTag cursor
  if isBlankOrEnd cursor.peek || (inFlow && cursor.at_ ',') then
    return (token, cursor)
  else throw .malformedTag

/-! ## Directives -/

/-- Reads a part of a version of at most nine digits. -/
def readVersionPart (cursor : Cursor) : Except YamlError (Nat × Cursor) :=
  let (digits, cursor) := cursor.takeWhile Char.isDigit
  if digits.isEmpty || digits.length > 9 then .error .malformedDirective
  else .ok (digits.foldl
    (fun total digit => total * 10 + (digit.toNat - 48)) 0, cursor)

/-- Reads the version that a directive declares. -/
def readVersion (cursor : Cursor) : Except YamlError (Token × Cursor) := do
  let (major, cursor) ← readVersionPart cursor
  if !cursor.at_ '.' then throw .malformedDirective
  let (minor, cursor) ← readVersionPart cursor.advance
  return (.version major minor, cursor)

/-- Reads the handle that a directive declares and what it stands for. -/
def readTagHandle (cursor : Cursor) : Except YamlError (Token × Cursor) := do
  if !cursor.at_ '!' then throw .malformedDirective
  let (handle, cursor) := readHandle cursor
  if handle != ['!'] && !isClosedHandle handle then throw .malformedDirective
  if !cursor.peek.any isBlank then throw .malformedDirective
  let (meaning, cursor) ← readTagRest true (cursor.dropWhile isBlank)
  if meaning.isEmpty || !isBlankOrEnd cursor.peek then throw .malformedDirective
  return (.tagHandle (String.ofList handle) (String.ofList meaning), cursor)

/-- Reads a directive at its percent sign. -/
def readDirective (cursor : Cursor) : Except YamlError (Token × Cursor) := do
  let (name, cursor) := cursor.advance.takeWhile isNameCharacter
  if !isBlankOrEnd cursor.peek then throw .malformedDirective
  let cursor := cursor.dropWhile isBlank
  let (token, cursor) ← match String.ofList name with
    | "YAML" => readVersion cursor
    | "TAG" => readTagHandle cursor
    | _ => throw .malformedDirective
  let cursor := (cursor.dropWhile isBlank).dropComment
  if !isBreakOrEnd cursor.peek then throw .malformedDirective
  return (token, cursor.advanceLine)

end CiPipeline.Yaml
