import CiPipeline.Text.Basic
import CiPipeline.Text.Characters
import CiPipeline.Text.Lowercase
import CiPipeline.Url.Punycode

/-!
# Hosts

A host is a name, an address of four octets, or an address of eight pieces of
sixteen bits.  A name whose last label is a number has to be an address.
-/

namespace CiPipeline

/-- Why a text is not an address. -/
inductive UrlError where
  | emptyHost
  | invalidName
  | invalidPort
  | invalidIpv4
  | invalidIpv6
  | invalidCharacter
  | relative
  deriving DecidableEq, Repr

/-- What is wrong with a text that is not an address. -/
def UrlError.message : UrlError → String
  | .emptyHost => "empty host"
  | .invalidName => "invalid international domain name"
  | .invalidPort => "invalid port number"
  | .invalidIpv4 => "invalid IPv4 address"
  | .invalidIpv6 => "invalid IPv6 address"
  | .invalidCharacter => "invalid domain character"
  | .relative => "relative URL without a base"

namespace Url

open CiPipeline.Text

/-! ## Escaped octets -/

def hexValue? (digit : Char) : Option Nat :=
  if digit.isDigit then some (digit.toNat - 48)
  else if 'a' ≤ digit && digit ≤ 'f' then some (digit.toNat - 87)
  else if 'A' ≤ digit && digit ≤ 'F' then some (digit.toNat - 55)
  else none

/-- The octets of a text in which some are written as a percent sign
and two digits. -/
def unescape : List Char → List UInt8
  | '%' :: high :: low :: rest =>
      match hexValue? high, hexValue? low with
      | some high, some low => UInt8.ofNat (high * 16 + low) :: unescape rest
      | _, _ => 0x25 :: unescape (high :: low :: rest)
  | character :: rest =>
      (String.singleton character).toUTF8.data.toList ++ unescape rest
  | [] => []

/-- A hexadecimal digit in upper case. -/
def hexDigit (value : Nat) : Char :=
  if value < 10 then Char.ofNat (value + 48) else Char.ofNat (value + 55)

/-- Writes the octets of a character that has to be escaped. -/
def escape (mustEscape : Char → Bool) (text : List Char) : List Char :=
  text.flatMap fun character =>
    if character.toNat < 0x20 || character.toNat ≥ 0x7f ||
        mustEscape character then
      (String.singleton character).toUTF8.data.toList.flatMap fun octet =>
        ['%', hexDigit (octet.toNat / 16), hexDigit (octet.toNat % 16)]
    else [character]

/-! ## Addresses of four octets -/

/-- Reads a part of an address in base eight, ten or sixteen; an empty part
behind a mark of the base is zero. -/
def readPart? (part : List Char) : Option Nat :=
  let (base, digits) := match part with
    | '0' :: 'x' :: digits => (16, digits)
    | '0' :: 'X' :: digits => (16, digits)
    | '0' :: digit :: digits => (8, digit :: digits)
    | digits => (10, digits)
  if part.isEmpty then none
  else do
    let values ← digits.mapM hexValue?
    if values.all (· < base) then
      some (values.foldl (fun total digit => total * base + digit) 0)
    else none

/-- The labels of a name without an empty one at the end. -/
def labels (name : List Char) : List (List Char) :=
  let labels := splitAll '.' name
  if labels.length > 1 && labels.getLast? == some [] then
  labels.dropLast else labels

/-- Whether the last label of a name is a number. -/
def endsInNumber (name : List Char) : Bool :=
  match (labels name).getLast? with
  | none => false
  | some label =>
      (!label.isEmpty && label.all Char.isDigit) || (readPart? label).isSome

/-- Reads an address whose last part stands for all octets that are left. -/
def readIpv4 (name : List Char) : Except UrlError Nat :=
  let parts := labels name
  match (parts.mapM readPart?).map List.reverse with
  | some (last :: before) =>
      if parts.length > 4 || before.any (· > 255) ||
          last ≥ Nat.pow 256 (4 - before.length) then
        .error .invalidIpv4
      else
        let high :=
          before.reverse.foldl (fun total octet => total * 256 + octet) 0
        .ok (high * Nat.pow 256 (4 - before.length) + last)
  | _ => .error .invalidIpv4

/-- The text of an address of four octets. -/
def ipv4Text (address : Nat) : String :=
  ".".intercalate ([16777216, 65536, 256, 1].map fun unit =>
    toString (address / unit % 256))

/-! ## Addresses of eight pieces -/

/-- Pieces in the course of being read, the last one first. -/
structure Pieces where
  pieces : List Nat := []
  /-- The number of pieces in front of the ones that are left out. -/
  omission : Option Nat := none

/-- Reads the octets of an address of four octets at the end of one of
eight pieces. -/
def readOctets? (text : List Char) : Option (List Nat) := do
  let parts := splitAll '.' text
  let octets ← parts.mapM fun (part : List Char) =>
    if part.isEmpty || !part.all Char.isDigit ||
        (part.length > 1 && part.head? == some '0') then none
    else
      let value : Nat :=
        part.foldl (fun total digit => total * 10 + (digit.toNat - 48)) 0
      if value ≤ 255 then some value else none
  if octets.length = 4 then some octets else none

/-- Reads pieces.  The omission of pieces takes the place of one at least. -/
def readPieces : Nat → List Char → Pieces → Option Pieces
  | 0, _, _ => none
  | _ + 1, [], pieces => some pieces
  | rounds + 1, character :: rest, pieces =>
      if pieces.pieces.length = 8 then none
      else if character == ':' then
        if pieces.omission.isSome then none
        else
          let passed := 0 :: pieces.pieces
          readPieces rounds rest
            { pieces := passed, omission := some passed.length }
      else
        let text := character :: rest
        let digits :=
          (text.take 4).takeWhile fun digit => (hexValue? digit).isSome
        let value := (digits.filterMap hexValue?).foldl
          (fun total digit => total * 16 + digit) 0
        match text.drop digits.length with
        | [] => some { pieces with pieces := value :: pieces.pieces }
        | '.' :: _ =>
            if digits.isEmpty || pieces.pieces.length > 6 then none
            else
              match readOctets? text with
              | some [first, second, third, fourth] =>
                  some { pieces with
                    pieces := (third * 256 + fourth) ::
                      (first * 256 + second) :: pieces.pieces }
              | _ => none
        | ':' :: rest =>
            if rest.isEmpty then none
            else readPieces rounds rest
              { pieces with pieces := value :: pieces.pieces }
        | _ => none

/-- Reads an address of eight pieces. -/
def readIpv6 (text : List Char) : Except UrlError (List Nat) :=
  let read := match text with
    | ':' :: ':' :: rest =>
        readPieces (text.length + 1) rest { pieces := [0], omission := some 1 }
    | ':' :: _ => none
    | [] => none
    | [_] => none
    | text => readPieces (text.length + 1) text {}
  match read with
  | none => .error .invalidIpv6
  | some { pieces, omission } =>
      match omission with
      | none =>
          if pieces.length = 8 then .ok pieces.reverse else .error .invalidIpv6
      | some count =>
          let pieces := pieces.reverse
          .ok (pieces.take count ++ List.replicate (8 - pieces.length) 0 ++
            pieces.drop count)

/-- The length of the zeros in front. -/
def zeros (pieces : List Nat) : Nat := (pieces.takeWhile (· == 0)).length

/-- The first of the longest runs of zeros: its place and length. -/
def longestZeros (pieces : List Nat) : Nat × Nat :=
  (List.range pieces.length).foldl
    (fun (place, length) index =>
      let here := zeros (pieces.drop index)
      if here > length then (index, here) else (place, length))
    (0, 0)

def pieceText (piece : Nat) : String := String.ofList (Nat.toDigits 16 piece)

/-- The text of an address of eight pieces, in which the longest zeros
are left out. -/
def ipv6Text (pieces : List Nat) : String :=
  let join (pieces : List Nat) : String :=
    ":".intercalate (pieces.map pieceText)
  let (place, length) := longestZeros pieces
  if length < 2 then join pieces
  else join (pieces.take place) ++ "::" ++ join (pieces.drop (place + length))

/-! ## Names -/

/-- Characters that no name may hold. -/
def isForbidden (character : Char) : Bool :=
  character.toNat ≤ 0x20 || character.toNat == 0x7f ||
    "%#/:<>?@[\\]^|".toList.contains character

/-- Characters that leave no trace in a name. -/
def isDropped (character : Char) : Bool :=
  [0xad, 0x34f, 0x180b, 0x180c, 0x180d, 0x180f, 0x200b, 0x2060, 0x2064,
    0xfeff].contains character.toNat ||
    (0xfe00 ≤ character.toNat && character.toNat ≤ 0xfe0f)

/-- The narrow form of a wide character, and the point for the full stops of
other scripts. -/
def narrow (character : Char) : Char :=
  let point := character.toNat
  if 0xff01 ≤ point && point ≤ 0xff5e then Char.ofNat (point - 0xfee0)
  else if point == 0x3002 || point == 0xff61 then '.'
  else character

/-- Whether a label beyond ASCII may stand in a name. -/
def isValidLabel (label : List Char) : Bool :=
  !label.head?.any Category.mark.contains &&
    label.all fun character =>
      character.toNat < 128 || Category.letter.contains character ||
        Category.number.contains character ||
        Category.mark.contains character ||
        Category.otherSymbol.contains character ||
        Category.mathSymbol.contains character ||
        Category.currencySymbol.contains character ||
        Category.otherPunctuation.contains character ||
        character.toNat == 0x200c || character.toNat == 0x200d

def labelToAscii (label : List Char) : Except UrlError (List Char) :=
  match label with
  | 'x' :: 'n' :: '-' :: '-' :: rest =>
      match Punycode.decode? rest with
      | some decoded =>
          if decoded.any (·.toNat ≥ 128) && isValidLabel decoded then .ok label
          else .error .invalidName
      | none => .error .invalidName
  | label =>
      if label.all (·.toNat < 128) then .ok label
      else if isValidLabel label then
        .ok ("xn--".toList ++ Punycode.encode label)
      else .error .invalidName

def nameToAscii (name : List Char) : Except UrlError (List Char) := do
  let mapped := (lowercaseAfter [] (name.filter (!isDropped ·))).map narrow
  let mapped := lowercaseAfter [] mapped
  if mapped.any isForbidden then throw .invalidName
  let labels ← (splitAll '.' mapped).mapM labelToAscii
  return ['.'].intercalate labels

/-! ## Hosts of the common schemes, and of the others -/

def readBracketed (text : List Char) : Except UrlError String := do
  match text.reverse with
  | ']' :: inner => return "[" ++ ipv6Text (← readIpv6 inner.reverse) ++ "]"
  | _ => throw .invalidIpv6

def readHost (text : List Char) : Except UrlError String := do
  match text with
  | '[' :: rest => readBracketed rest
  | _ =>
      match String.fromUTF8? ⟨(unescape text).toArray⟩ with
      | none => throw .invalidName
      | some name =>
          let name ← nameToAscii name.toList
          if name.isEmpty then throw .emptyHost
          if endsInNumber name then return ipv4Text (← readIpv4 name)
          return String.ofList name

/-- Reads a host that is kept as it is written. -/
def readOpaqueHost (text : List Char) : Except UrlError String :=
  match text with
  | '[' :: rest => readBracketed rest
  | _ =>
      if text.any fun character => character.toNat == 0 ||
          "\t\n\r #/:<>?@[\\]^|".toList.contains character then
        .error .invalidCharacter
      else .ok (String.ofList (escape (fun _ => false) text))

end Url

end CiPipeline
