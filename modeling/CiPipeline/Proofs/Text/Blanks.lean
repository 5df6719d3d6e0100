import CiPipeline.Text.Characters
import Mathlib.Data.List.Forall2
import Mathlib.Tactic.IntervalCases

/-!
# Blank characters

No blank character is a letter or a number of any script, so a blank
ends every word.
-/

namespace CiPipeline.Text

/-- The blank characters below 128. -/
def plainBlanks : List Char := [' ', '\t', '\n', '\x0b', '\x0c', '\r']

/-- The code points of the other blank characters, as inclusive ranges. -/
def blankRanges : List (Nat × Nat) :=
  [(0x85, 0x85), (0xa0, 0xa0), (0x1680, 0x1680), (0x2000, 0x200a),
    (0x2028, 0x2029), (0x202f, 0x202f), (0x205f, 0x205f), (0x3000, 0x3000)]

private theorem mem_of_isBlank {character : Char}
    (blank : isBlank character = true) :
    character ∈ plainBlanks ∨
      ∃ range ∈ blankRanges,
        range.1 ≤ character.toNat ∧ character.toNat ≤ range.2 := by
  have plain (low : 9 ≤ character.toNat) (high : character.toNat ≤ 13) :
      character ∈ plainBlanks := by
    rw [← Char.ofNat_toNat character]
    generalize character.toNat = point at low high
    interval_cases point <;> decide
  simp only [isBlank, Bool.or_eq_true, beq_iff_eq, Bool.and_eq_true,
    decide_eq_true_eq, List.contains_iff_mem] at blank
  rcases blank with ((rfl | ⟨low, high⟩) | listed) | ⟨low, high⟩
  · exact .inl (by decide)
  · exact .inl (plain low high)
  · refine .inr ?_
    simp only [List.mem_cons, List.not_mem_nil, or_false] at listed
    simp only [blankRanges, List.exists_mem_cons_iff, List.not_mem_nil,
      false_and, exists_false]
    omega
  · exact .inr ⟨(0x2000, 0x200a), by decide, low, high⟩

/-! ## Tables without blank characters -/

/-- Whether two ranges have no point in common. -/
def areApart (first second : Nat × Nat) : Bool :=
  first.2.blt second.1 || second.2.blt first.1

/-- Whether no range in a line of a table holds a blank character
from 128 on. -/
def sparesBlanks (line : List Char) : Bool :=
  (splitAll ' ' line).all fun word =>
    blankRanges.all (areApart (CodePoints.readRange word))

section

variable {character : Char} {range : Nat × Nat}

/-- The lines are given by their characters, which takes much less to evaluate
than to take them from the lines. -/
theorem contains_ofLines_eq_false {lines : List String}
    (spared : ∃ texts, List.Forall₂
      (fun line text => line = String.ofList text) lines texts ∧
      texts.all sparesBlanks = true)
    (listed : range ∈ blankRanges) (low : range.1 ≤ character.toNat)
    (high : character.toNat ≤ range.2) :
    (CodePoints.ofLines lines).contains character = false := by
  obtain ⟨texts, spelled, spare⟩ := spared
  unfold CodePoints.ofLines CodePoints.contains
  induction spelled with
  | nil => rfl
  | @cons line text lines texts same _ step =>
      rw [List.all_cons, Bool.and_eq_true] at spare
      obtain ⟨first, others⟩ := spare
      rw [List.flatMap_cons, List.any_append, step others, Bool.or_false, same,
        String.toList_ofList, List.any_map, List.any_eq_false]
      intro word member holds
      have apart :=
        List.all_eq_true.mp (List.all_eq_true.mp first word member) range listed
      simp only [areApart, Bool.or_eq_true, Nat.blt_eq] at apart
      simp only [Function.comp_apply, Bool.and_eq_true,
        decide_eq_true_eq] at holds
      omega

/-- The tables that list the letters and the numbers. -/
def Category.ofWords : List CodePoints :=
  [uppercaseLetter, lowercaseLetter, titlecaseLetter, modifierLetter,
    otherLetter, decimalNumber, letterNumber, otherNumber, otherAlphabetic]

private theorem Category.contains_ofWords_eq_false {points : CodePoints}
    (table : points ∈ ofWords) (listed : range ∈ blankRanges)
    (low : range.1 ≤ character.toNat) (high : character.toNat ≤ range.2) :
    points.contains character = false := by
  simp only [ofWords, List.mem_cons, List.not_mem_nil, or_false] at table
  rcases table with rfl | rfl | rfl | rfl | rfl | rfl | rfl | rfl | rfl
  all_goals
    refine contains_ofLines_eq_false ?_ listed low high
    constructor
    constructor
    · repeat' first | exact rfl | constructor
    · decide +kernel

end

/-- A blank character is no letter and no number. -/
theorem isAlphanumeric_of_isBlank {character : Char}
    (blank : isBlank character = true) :
    isAlphanumeric character = false := by
  rcases mem_of_isBlank blank with plain | ⟨range, listed, low, high⟩
  · have each : plainBlanks.all (fun character => !isAlphanumeric character) =
      true := by decide
    simpa using List.all_eq_true.mp each character plain
  · have behind : ¬character.toNat < 128 := by
      have each : ∀ range ∈ blankRanges, 128 ≤ range.1 := by decide
      have := each range listed
      omega
    have absent :
        ∀ points ∈ Category.ofWords, points.contains character = false :=
      fun _ table => Category.contains_ofWords_eq_false table listed low high
    simp only [Category.ofWords, List.forall_mem_cons] at absent
    rw [isAlphanumeric, if_neg behind, Category.alphabetic, Category.letter,
      Category.number]
    simp [CodePoints.contains_union, absent]

end CiPipeline.Text
