import CiPipeline.Decimal.Nearest

/-!
# The shortest decimal of a floating point number

Of the decimals that read back as a given double, one with the fewest digits,
and of those the nearest to it.
-/

namespace CiPipeline.Decimal

/-- The decimal `digits * 10 ^ exponent`. -/
structure Scientific where
  digits : Nat
  exponent : Int
  deriving DecidableEq, Repr

/-- A positive double as `significand * 2 ^ exponent`, with the reals that
round to it: half a unit above, and half a unit, or a quarter at a power
of two, below. -/
structure Binary where
  significand : Nat
  exponent : Int
  quarterBelow : Bool
  deriving DecidableEq, Repr

namespace Binary

/-- Decodes a finite positive encoding. -/
def ofBits (bits : Nat) : Binary :=
  let field := bits / Nat.pow 2 52
  let fraction := bits % Nat.pow 2 52
  if field = 0 then ⟨fraction, leastExponent, false⟩
  else ⟨fraction + Nat.pow 2 52, leastExponent + (Int.ofNat field - 1),
    fraction == 0 && field > 1⟩

/-- A multiple of a quarter of the last binary place, as a quotient. -/
def quarters (value : Binary) (count : Nat) : Nat × Nat :=
  let exponent := value.exponent - 2
  if exponent ≥ 0 then (count * Nat.pow 2 exponent.toNat, 1)
  else (count, Nat.pow 2 (-exponent).toNat)

/-- Whether a decimal rounds to the value. -/
def admits (value : Binary) (candidate : Scientific) : Bool :=
  let lower :=
    value.quarters (4 * value.significand - if value.quarterBelow then 1 else 2)
  let upper := value.quarters (4 * value.significand + 2)
  let (numerator, denominator) :=
    if candidate.exponent ≥ 0 then
      (candidate.digits * Nat.pow 10 candidate.exponent.toNat, 1)
    else (candidate.digits, Nat.pow 10 (-candidate.exponent).toNat)
  let inside (low high : Nat) : Bool :=
    low < high || (low == high && value.significand % 2 == 0)
  inside (lower.1 * denominator) (numerator * lower.2) &&
    inside (numerator * upper.2) (upper.1 * denominator)

/-- The exponent of the leading decimal digit of a positive quotient. -/
def leadingExponent (numerator denominator : Nat) : Int :=
  if numerator ≥ denominator then
    Int.ofNat ((Nat.toDigits 10 (numerator / denominator)).length - 1)
  else
    let ceiling := (denominator + numerator - 1) / numerator
    Int.negOfNat (Nat.toDigits 10 (ceiling - 1)).length

/-- The decimal of a given number of digits that is nearest to the value, if it
reads back. -/
def withDigits (value : Binary) (count : Nat) : Option Scientific :=
  let (numerator, denominator) := value.quarters (4 * value.significand)
  let exponent := leadingExponent numerator denominator - (Int.ofNat count - 1)
  let (top, bottom) :=
    if exponent ≥ 0 then (numerator, denominator * Nat.pow 10 exponent.toNat)
    else (numerator * Nat.pow 10 (-exponent).toNat, denominator)
  let below : Scientific := ⟨top / bottom, exponent⟩
  let above : Scientific := ⟨top / bottom + 1, exponent⟩
  let nearer := roundQuotient top bottom
  if nearer = below.digits then
    if value.admits below then some below else if value.admits above then
      some above else none
  else
    if value.admits above then some above else if value.admits below then
      some below else none

/-- The shortest decimal that reads back as the value. -/
def shortest (value : Binary) : Scientific :=
  ((List.range 17).findSome? fun count => value.withDigits (count + 1)).getD
    ⟨0, 0⟩

end Binary

namespace Scientific

/-- Drops trailing zeros. -/
def trim (value : Scientific) : Nat → Scientific
  | 0 => value
  | count + 1 =>
      if value.digits % 10 = 0 && value.digits ≠ 0 then
        trim ⟨value.digits / 10, value.exponent + 1⟩ count
      else value

/-- How a decimal is written: the exponents written positionally, and whether a
positive exponent carries a sign. -/
structure Style where
  leastPositional : Int
  greatestPositional : Int
  signedExponent : Bool

/-- Writes a decimal, always with a point or an exponent. -/
def text (style : Style) (value : Scientific) : String :=
  let value := value.trim 400
  let digits := Nat.toDigits 10 value.digits
  let leading := value.exponent + (Int.ofNat digits.length - 1)
  if style.leastPositional ≤ leading && leading ≤ style.greatestPositional then
    if value.exponent ≥ 0 then
      String.ofList (digits ++
        List.replicate value.exponent.toNat '0' ++ ['.', '0'])
    else if leading ≥ 0 then
      let whole := (leading + 1).toNat
      String.ofList (digits.take whole ++ '.' :: digits.drop whole)
    else
      String.ofList ('0' :: '.' :: List.replicate (-leading - 1).toNat '0' ++
        digits)
  else
    let fraction := if digits.length > 1 then '.' :: digits.drop 1 else []
    let sign := if leading < 0 then ['-'] else if style.signedExponent then
      ['+'] else []
    String.ofList (digits.take 1 ++ fraction ++ 'e' :: sign ++
      Nat.toDigits 10 leading.natAbs)

end Scientific

end CiPipeline.Decimal
