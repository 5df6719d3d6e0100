/-!
# Splitting texts and reading digits

What the readers of texts share, on lists of characters.
-/

namespace CiPipeline.Text

/-- Splits a text at every occurrence of a character. -/
def splitAll (separator : Char) : List Char → List (List Char)
  | [] => [[]]
  | character :: rest =>
      match splitAll separator rest with
      | [] => [[character]]
      | part :: parts =>
          if character == separator then [] :: part :: parts
          else (character :: part) :: parts

def splitAtFirst? (separator : Char) (text : List Char) :
    Option (List Char × List Char) :=
  match text.dropWhile (· != separator) with
  | [] => none
  | _ :: rest => some (text.takeWhile (· != separator), rest)

/-! ## Digits -/

def hexDigit? (digit : Char) : Option Nat :=
  if digit.isDigit then some (digit.toNat - 48)
  else if 'a' ≤ digit && digit ≤ 'f' then some (digit.toNat - 87)
  else if 'A' ≤ digit && digit ≤ 'F' then some (digit.toNat - 55)
  else none

def isDigitOf (base : Nat) (character : Char) : Bool :=
  (hexDigit? character).any (· < base)

/-- The number that digits of a base stand for. -/
def digitsValue (base : Nat) (digits : List Char) : Nat :=
  digits.foldl (fun total digit => total * base + (hexDigit? digit).getD 0) 0

/-- The character that hexadecimal digits number. -/
def numberedCharacter? (digits : List Char) : Option Char :=
  let point := digitsValue 16 digits
  if digits.all (isDigitOf 16) && point.isValidChar then
  some (Char.ofNat point) else none

/-- Reads an unsigned decimal of ASCII digits, with an optional plus sign, up to
a greatest value. -/
def readNatural? (greatest : Nat) (text : List Char) : Option Nat :=
  let digits := match text with
    | '+' :: rest => rest
    | digits => digits
  if digits.isEmpty || !digits.all Char.isDigit then none
  else
    let value :=
      digits.foldl (fun total digit => total * 10 + (digit.toNat - 48)) 0
    if value ≤ greatest then some value else none

end CiPipeline.Text
