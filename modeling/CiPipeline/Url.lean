import CiPipeline.Url.Host

/-!
# Addresses of remote files

Reading an address and writing it back in its standard form: the scheme and the
host in lower case, no port that is the usual one of the scheme, no dots for
directories in the path, and every character that is not allowed in its part
written by its octets.
-/

namespace CiPipeline

/-- The path of an address: its parts, or a text that has no parts. -/
inductive UrlPath where
  | segments (segments : List String)
  | whole (text : String)
  deriving DecidableEq, Repr

/-- An address. -/
structure Url where
  scheme : String
  user : String := ""
  password : String := ""
  host : Option String := none
  port : Option Nat := none
  path : UrlPath
  query : Option String := none
  fragment : Option String := none
  deriving DecidableEq, Repr

namespace Url

open CiPipeline.Text

def usualPort? (scheme : String) : Option Nat :=
  match scheme with
  | "http" | "ws" => some 80
  | "https" | "wss" => some 443
  | "ftp" => some 21
  | _ => none

/-- Whether addresses of a scheme always have a host and a path. -/
def isCommon (scheme : String) : Bool :=
  (usualPort? scheme).isSome || scheme == "file"

/-! ## Parts of an address -/

/-- Reads a scheme in front of a colon. -/
def readScheme? (text : List Char) : Option (String × List Char) :=
  let isPart (character : Char) : Bool :=
    character.isAlphanum || character == '+' || character == '-' ||
      character == '.'
  match text with
  | first :: _ =>
      if !first.isAlpha then none
      else
        match text.dropWhile isPart with
        | ':' :: rest =>
            some (String.ofList
              ((text.takeWhile isPart).map Char.toLower), rest)
        | _ => none
  | [] => none

/-- Whether a character separates parts of a path. -/
def isSlash (common : Bool) (character : Char) : Bool :=
  character == '/' || (common && character == '\\')

def endsAuthority (common : Bool) (character : Char) : Bool :=
  isSlash common character || character == '?' || character == '#'

def escapesInFragment (character : Char) : Bool :=
  " \"<>\x60".toList.contains character

def escapesInPath (character : Char) : Bool :=
  escapesInFragment character || "#?\x7b\x7d".toList.contains character

def escapesInUser (character : Char) : Bool :=
  escapesInPath character || "/:;=@[\\]^|".toList.contains character

def escapesInQuery (common : Bool) (character : Char) : Bool :=
  " \"#<>".toList.contains character || (common && character == '\'')

/-- Splits a text behind its last at sign. -/
def splitUser? (text : List Char) : Option (List Char × List Char) :=
  match text.reverse.dropWhile (· != '@') with
  | [] => none
  | _ :: before => some (before.reverse, text.drop (before.length + 1))

/-- Reads the name and the password in front of a host. -/
def readUser (text : List Char) : String × String :=
  let write (part : List Char) : String :=
    String.ofList (escape escapesInUser part)
  match splitAtFirst? ':' text with
  | some (user, password) => (write user, write password)
  | none => (write text, "")

/-- The host in front of its port: colons between brackets belong to it. -/
def splitHost (inBrackets : Bool) : List Char → List Char × List Char
  | [] => ([], [])
  | character :: rest =>
      if character == ':' && !inBrackets then ([], character :: rest)
      else
        let inBrackets := character == '[' || (inBrackets && character != ']')
        let (host, rest) := splitHost inBrackets rest
        (character :: host, rest)

/-- Reads a port up to 65535.  One that is empty or the usual one
is left out. -/
def readPort (scheme : String) (text : List Char) :
    Except UrlError (Option Nat) :=
  let port := text.foldl (fun total digit => total * 10 + (digit.toNat - 48)) 0
  if !text.all Char.isDigit || port > 65535 then .error .invalidPort
  else if text.isEmpty || usualPort? scheme == some port then .ok none
  else .ok (some port)

/-- Reads the authority of an address: user, host and port. -/
def readAuthority (scheme : String) (address : Url) (text : List Char) :
    Except UrlError Url := do
  let common := isCommon scheme
  let (user, rest) := (splitUser? text).getD ([], text)
  let (user, password) := readUser user
  let (host, rest) := splitHost false rest
  if host.isEmpty then
    let hasUser := (splitUser? text).isSome
    if common || !rest.isEmpty || hasUser then throw .emptyHost
    return { address with host := some "" }
  else
    let host ← if common then readHost host else readOpaqueHost host
    let port ← match rest with
      | ':' :: port => readPort scheme port
      | _ => pure none
    return { address with user, password, host := some host, port }

/-! ## Paths -/

def splitPath (common : Bool) (text : List Char) : List (List Char) :=
  splitAll '/' (text.map fun character =>
    if isSlash common character then '/' else character)

/-- Whether a part of a path stands for its own directory. -/
def isHere (segment : List Char) : Bool :=
  [".", "%2e"].contains (String.ofList (segment.map Char.toLower))

/-- Whether a part of a path stands for the directory above. -/
def isAbove (segment : List Char) : Bool :=
  ["..", ".%2e", "%2e.", "%2e%2e"].contains
    (String.ofList (segment.map Char.toLower))

/-- Follows the parts of a path, given those so far in reverse. -/
def followPath (before : List String) : List (List Char) → List String
  | [] => before.reverse
  | segment :: rest =>
      let above := isAbove segment
      let before := if above then before.drop 1 else before
      if above || isHere segment then
        followPath (if rest.isEmpty then "" :: before else before) rest
      else followPath
        (String.ofList (escape escapesInPath segment) :: before) rest

/-- Reads the path behind an authority. -/
def readPath (common : Bool) (text : List Char) : UrlPath :=
  match text with
  | [] => .segments (if common then [""] else [])
  | first :: rest =>
      .segments (followPath []
        (splitPath common (if isSlash common first then rest else text)))

/-! ## Addresses -/

def cutAt (separator : Char) (text : List Char) :
    List Char × Option (List Char) :=
  match text.dropWhile (· != separator) with
  | [] => (text, none)
  | _ :: rest => (text.takeWhile (· != separator), some rest)

/-- Whether a host is the name of a drive. -/
def isDrive (text : List Char) : Bool :=
  match text with
  | [letter, mark] => letter.isAlpha && (mark == ':' || mark == '|')
  | _ => false

/-- Reads the address of a file behind its scheme. -/
def readFile (address : Url) (text : List Char) : Except UrlError Url := do
  match text with
  | first :: second :: rest =>
      if isSlash true first && isSlash true second then
        let (host, path) :=
          rest.span fun character => !endsAuthority true character
        if host.isEmpty || isDrive host then
          return { address with
            host := some "", path :=
              readPath true (if host.isEmpty then path else rest) }
        let host ← readHost host
        let host := if host == "localhost" then "" else host
        return { address with host := some host, path := readPath true path }
      return { address with host := some "", path := readPath true text }
  | _ => return { address with host := some "", path := readPath true text }

/-- Reads an address with an authority behind the slashes in front of it. -/
def readWithAuthority (address : Url) (text : List Char) :
    Except UrlError Url := do
  let common := isCommon address.scheme
  let (authority, path) :=
    text.span fun character => !endsAuthority common character
  let address ← readAuthority address.scheme address authority
  return { address with path := readPath common path }

/-- Reads an address behind its scheme, without query and fragment. -/
def readRest (address : Url) (text : List Char) : Except UrlError Url := do
  if address.scheme == "file" then readFile address text
  else if isCommon address.scheme then
    readWithAuthority address (text.dropWhile (isSlash true))
  else
    match text with
    | '/' :: '/' :: rest => readWithAuthority address rest
    | '/' :: _ => return { address with path := readPath false text }
    | _ =>
        return { address with
          path := .whole (String.ofList (escape (fun _ => false) text)) }

/-- Drops the blanks and control characters around an address, and tabs and ends
of lines in it. -/
def strip (text : List Char) : List Char :=
  let isSpace (character : Char) : Bool := character.toNat ≤ 0x20
  let inner := ((text.dropWhile isSpace).reverse.dropWhile isSpace).reverse
  inner.filter fun character =>
    character != '\t' && character != '\n' && character != '\r'

def read (text : String) : Except UrlError Url := do
  match readScheme? (strip text.toList) with
  | none => throw .relative
  | some (scheme, rest) =>
      let (rest, fragment) := cutAt '#' rest
      let (rest, query) := cutAt '?' rest
      let common := isCommon scheme
      let address ← readRest { scheme, path := .segments [] } rest
      return { address with
        query := query.map fun text =>
          String.ofList (escape (escapesInQuery common) text),
        fragment := fragment.map fun text =>
          String.ofList (escape escapesInFragment text) }

def pathText : UrlPath → String
  | .whole text => text
  | .segments segments =>
      "".intercalate (segments.map fun segment => "/" ++ segment)

/-- The text of the name and the password. -/
def userText (address : Url) : String :=
  if address.user.isEmpty && address.password.isEmpty then ""
  else if address.password.isEmpty then address.user ++ "@"
  else address.user ++ ":" ++ address.password ++ "@"

def authorityText (address : Url) : String :=
  match address.host with
  | none => ""
  | some host =>
      let port := (address.port.map fun port => ":" ++ toString port).getD ""
      "//" ++ address.userText ++ host ++ port

def text (address : Url) : String :=
  let query := (address.query.map fun text => "?" ++ text).getD ""
  let fragment := (address.fragment.map fun text => "#" ++ text).getD ""
  address.scheme ++ ":" ++ address.authorityText ++ pathText address.path ++
  query ++ fragment

/-- The address as a request shows it, without user and password. -/
def requestText (address : Url) : String :=
  text { address with user := "", password := "" }

/-- Whether files can be requested from addresses of this scheme. -/
def isWeb (address : Url) : Bool :=
  address.scheme == "http" || address.scheme == "https"

end Url

end CiPipeline
