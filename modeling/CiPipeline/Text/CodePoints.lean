import CiPipeline.Text.Basic

/-!
# Sets of code points

A property of characters is a table of ranges of code points, written as
hexadecimal words and read once.
-/

namespace CiPipeline.Text

/-- A set of characters, as inclusive ranges of code points. -/
structure CodePoints where
  ranges : List (Nat × Nat)
  deriving Repr

namespace CodePoints

/-- Reads a range: one code point, or two joined by a dash. -/
def readRange (word : List Char) : Nat × Nat :=
  match splitAll '-' word with
  | [first, last] => (digitsValue 16 first, digitsValue 16 last)
  | _ => (digitsValue 16 word, digitsValue 16 word)

/-- Reads the lines of a table: ranges separated by single blanks. -/
def ofLines (lines : List String) : CodePoints :=
  ⟨lines.flatMap fun line => (splitAll ' ' line.toList).map readRange⟩

/-- Whether a character belongs to the set. -/
def contains (points : CodePoints) (character : Char) : Bool :=
  points.ranges.any fun (first, last) =>
    first ≤ character.toNat && character.toNat ≤ last

/-- The set of the characters of either set. -/
def union (left right : CodePoints) : CodePoints :=
  ⟨left.ranges ++ right.ranges⟩

theorem contains_union (left right : CodePoints) (character : Char) :
    (left.union right).contains character =
      (left.contains character || right.contains character) := by
  simp [contains, union]

end CodePoints

end CiPipeline.Text
