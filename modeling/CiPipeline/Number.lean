import CiPipeline.Decimal.Shortest

/-!
# Numbers of a document

A number is an integer of 64 bits or a double.  The two are kept apart: `1` and
`1.0` are different numbers with different texts.
-/

namespace CiPipeline

/-- A number of a document; a double is held as the bits of its encoding. -/
inductive Number where
  | integer (value : Int)
  | double (bits : Nat)
  deriving DecidableEq, Repr, Inhabited

namespace Number

/-- The bit of a double that holds its sign. -/
def signBit : Nat := Nat.pow 2 63

/-- The encoding of the value that is not a number. -/
def notANumberBits : Nat := 0x7ff8 * Nat.pow 2 48

/-- The least and greatest integers of a document. -/
def leastInteger : Int := -Int.ofNat (Nat.pow 2 63)

@[inherit_doc leastInteger]
def greatestInteger : Int := Int.ofNat (Nat.pow 2 64) - 1

/-- Doubles are written positionally from `1e-5` up to below `1e16`. -/
def plainStyle : Decimal.Scientific.Style := ⟨-5, 15, false⟩

/-- In data interchange a positive exponent carries its sign. -/
def interchangeStyle : Decimal.Scientific.Style :=
  { plainStyle with signedExponent := true }

/-- Whether a number is neither infinite nor undefined. -/
def isFinite : Number → Bool
  | .integer _ => true
  | .double bits => bits % signBit < Decimal.infinityBits

/-- Writes a finite double. -/
def doubleText (style : Decimal.Scientific.Style) (bits : Nat) : String :=
  let magnitude := bits % signBit
  let digits :=
    if magnitude = 0 then "0.0"
    else (Decimal.Binary.ofBits magnitude).shortest.text style
  if bits ≥ signBit then "-" ++ digits else digits

/-- The text of a number. -/
def text : Number → String
  | .integer value => toString value
  | .double bits =>
      let magnitude := bits % signBit
      if magnitude > Decimal.infinityBits then ".nan"
      else if magnitude = Decimal.infinityBits then
        if bits ≥ signBit then "-.inf" else ".inf"
      else doubleText plainStyle bits

/-- The text of a number in data interchange, which has no infinities. -/
def interchangeText : Number → String
  | .integer value => toString value
  | .double bits =>
      if isFinite (.double bits) then
        doubleText interchangeStyle bits else "null"

/-- The double nearest to a signed decimal. -/
def ofDecimal (negative : Bool) (digits : Nat) (exponent : Int) : Number :=
  .double (Decimal.nearest digits exponent + if negative then signBit else 0)

/-- Reads decimal digits, possibly none, into a value and their count. -/
def readDigits (text : List Char) : Nat × Nat × List Char :=
  let digits := text.takeWhile Char.isDigit
  (digits.foldl (fun total digit => total * 10 + (digit.toNat - 48))
    0, digits.length, text.dropWhile Char.isDigit)

/-- Reads an exponent mark with its digits; a missing exponent is zero. -/
def readExponent? : List Char → Option Int
  | [] => some 0
  | mark :: rest =>
      if mark == 'e' || mark == 'E' then
        let (negative, rest) := match rest with
          | '-' :: rest => (true, rest)
          | '+' :: rest => (false, rest)
          | rest => (false, rest)
        match readDigits rest with
        | (value, count, []) =>
            if count = 0 then none
            else some (if negative then -Int.ofNat value else value)
        | _ => none
      else none

/-- Reads an unsigned decimal: digits with at most one point among them, at
least one digit, and an optional exponent. -/
def readDecimal? (text : List Char) : Option (Nat × Int) :=
  let (whole, wholeCount, rest) := readDigits text
  let (digits, places, rest) := match rest with
    | '.' :: rest =>
        let (fraction, places, rest) := readDigits rest
        (whole * Nat.pow 10 places + fraction, places, rest)
    | rest => (whole, 0, rest)
  if wholeCount + places = 0 then none
  else (readExponent? rest).map fun exponent =>
    (digits, exponent - Int.ofNat places)

/-- Reads a signed integer of decimal digits. -/
def readInteger? (text : List Char) : Option Int :=
  let (negative, digits) := match text with
    | '-' :: rest => (true, rest)
    | rest => (false, rest)
  match readDigits digits with
  | (value, count, []) =>
      if count = 0 then none
      else some (if negative then -Int.ofNat value else value)
  | _ => none

/-- Reads the text of a number back. -/
def ofText? (text : String) : Option Number :=
  match text with
  | ".nan" => some (.double notANumberBits)
  | ".inf" => some (.double Decimal.infinityBits)
  | "-.inf" => some (.double (Decimal.infinityBits + signBit))
  | _ =>
    match readInteger? text.toList with
    | some value => some (.integer value)
    | none =>
        let (negative, digits) := match text.toList with
          | '-' :: rest => (true, rest)
          | rest => (false, rest)
        (readDecimal? digits).map fun (digits, exponent) =>
          ofDecimal negative digits exponent

end Number

end CiPipeline
