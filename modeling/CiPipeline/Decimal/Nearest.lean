/-!
# Reading a decimal into a binary floating point number

The value of a decimal is rounded to the nearest double, a tie to the even
significand.  A double is kept as the 64 bits of its encoding.
-/

namespace CiPipeline.Decimal

/-- The quotient rounded to the nearest natural number, a tie to
the even one. -/
def roundQuotient (numerator denominator : Nat) : Nat :=
  let quotient := numerator / denominator
  let twice := 2 * (numerator % denominator)
  if twice > denominator || (twice == denominator && quotient % 2 == 1) then
  quotient + 1
  else quotient

/-- The significand of a quotient in units of `2 ^ exponent`, rounded. -/
def significand (numerator denominator : Nat) (exponent : Int) : Nat :=
  if exponent ≥ 0 then
    roundQuotient numerator (denominator * Nat.pow 2 exponent.toNat)
  else roundQuotient (numerator * Nat.pow 2 (-exponent).toNat) denominator

/-- The least exponent of a double's last binary place. -/
def leastExponent : Int := -1074

/-- The encoding of infinity. -/
def infinityBits : Nat := 0x7ff * Nat.pow 2 52

/-- The encoding of the double nearest to a positive quotient. -/
def nearestBits (numerator denominator : Nat) : Nat :=
  let estimate : Int :=
    Int.ofNat numerator.log2 - Int.ofNat denominator.log2 - 52
  let exponent :=
    if significand numerator denominator estimate < Nat.pow 2 52 then
      estimate - 1 else estimate
  let exponent := max exponent leastExponent
  let bits :=
    (exponent - leastExponent).toNat * Nat.pow 2 52 +
      significand numerator denominator exponent
  min bits infinityBits

/-- The encoding of the double nearest to `digits * 10 ^ exponent`.  An exponent
far outside the range of doubles is decided without computing the power. -/
def nearest (digits : Nat) (exponent : Int) : Nat :=
  let magnitude := Int.ofNat (Nat.toDigits 10 digits).length + exponent
  if digits = 0 || magnitude < -400 then 0
  else if magnitude > 400 then infinityBits
  else if exponent ≥ 0 then nearestBits (digits * Nat.pow 10 exponent.toNat) 1
  else nearestBits digits (Nat.pow 10 (-exponent).toNat)

end CiPipeline.Decimal
