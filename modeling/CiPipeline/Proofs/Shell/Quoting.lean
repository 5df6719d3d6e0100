import CiPipeline.Shell.Word

/-!
# Quoted words

A quoted word ends where its text ends: what a line of quoted words was made
from can be told from the line.
-/

namespace CiPipeline.Shell

/-- The characters that stand for those of a text between quotes. -/
def escaped (text : List Char) : List Char :=
  text.flatMap fun character =>
    if character == '\'' then ['\'', '\\', '\'', '\''] else [character]

theorem toList_quote (text : String) :
    (quote text).toList = '\'' :: (escaped text.toList ++ ['\'']) := by
  simp [quote, escaped]

theorem escaped_quote (rest : List Char) :
    escaped ('\'' :: rest) = '\'' :: '\\' :: '\'' :: '\'' :: escaped rest := by
  simp [escaped]

theorem escaped_of_ne {character : Char} (plain : character ≠ '\'')
    (rest : List Char) :
    escaped (character :: rest) = character :: escaped rest := by
  simp [escaped, plain]

/-- What may stand behind a word: nothing, or a blank. -/
inductive EndsWord : List Char → Prop where
  | nothing : EndsWord []
  | blank (rest : List Char) : EndsWord (' ' :: rest)

/-- A quote in a text is told from the one at its end by the
backslash behind it. -/
theorem escaped_cons_ne {character : Char} {text rest others : List Char}
    (ends : EndsWord rest) :
    escaped (character :: text) ++ others ≠ '\'' :: rest := by
  intro same
  by_cases quoted : character = '\''
  · subst quoted
    rw [escaped_quote] at same
    cases ends <;> cases (List.cons.inj same).2
  · rw [escaped_of_ne quoted] at same
    exact quoted (List.cons.inj same).1

private theorem escaped_injective {first second rest others : List Char}
    (ends : EndsWord rest) (otherEnds : EndsWord others)
    (same : escaped first ++ '\'' :: rest = escaped second ++ '\'' :: others) :
    first = second ∧ rest = others := by
  induction first generalizing second with
  | nil =>
      cases second with
      | nil => exact ⟨rfl, (List.cons.inj same).2⟩
      | cons character text => exact (escaped_cons_ne ends same.symm).elim
  | cons character text induction =>
      cases second with
      | nil => exact (escaped_cons_ne otherEnds same).elim
      | cons other otherText =>
          by_cases quoted : character = '\''
          · by_cases otherQuoted : other = '\''
            · subst quoted otherQuoted
              simp only [escaped_quote, List.cons_append, List.cons.injEq,
                true_and] at same
              obtain ⟨rfl, tails⟩ := induction same
              exact ⟨rfl, tails⟩
            · subst quoted
              rw [escaped_quote, escaped_of_ne otherQuoted] at same
              exact (otherQuoted (List.cons.inj same).1.symm).elim
          · by_cases otherQuoted : other = '\''
            · subst otherQuoted
              rw [escaped_quote, escaped_of_ne quoted] at same
              exact (quoted (List.cons.inj same).1).elim
            · rw [escaped_of_ne quoted, escaped_of_ne otherQuoted] at same
              obtain ⟨equal, tails⟩ := List.cons.inj same
              obtain ⟨rfl, rests⟩ := induction tails
              exact ⟨by rw [equal], rests⟩

/-- What stands behind the first of some quoted words. -/
def behind : List String → List Char
  | [] => []
  | word :: rest => ' ' :: (" ".intercalate ((word :: rest).map quote)).toList

private theorem endsWord_behind (words : List String) :
    EndsWord (behind words) := by
  cases words with
  | nil => exact .nothing
  | cons word rest => exact .blank _

private theorem toList_quotedWords (word : String) (rest : List String) :
    (" ".intercalate ((word :: rest).map quote)).toList =
      '\'' :: (escaped word.toList ++ '\'' :: behind rest) := by
  cases rest with
  | nil => simp [String.intercalate_singleton, toList_quote, behind]
  | cons second others =>
      rw [List.map_cons, List.map_cons, String.intercalate_cons_cons,
        ← List.map_cons]
      simp [toList_quote, behind]

/-- Lines of quoted words are alike only when the words are. -/
theorem quotedWords_injective {words others : List String}
    (same : " ".intercalate (words.map quote) = " ".intercalate
      (others.map quote)) :
    words = others := by
  induction words generalizing others with
  | nil =>
      cases others with
      | nil => rfl
      | cons other rest =>
          have characters := congrArg String.toList same
          rw [toList_quotedWords] at characters
          cases characters
  | cons word rest induction =>
      cases others with
      | nil =>
          have characters := congrArg String.toList same
          rw [toList_quotedWords] at characters
          cases characters
      | cons other otherRest =>
          have characters := congrArg String.toList same
          rw [toList_quotedWords, toList_quotedWords] at characters
          obtain ⟨equal, tails⟩ := escaped_injective (endsWord_behind rest)
            (endsWord_behind otherRest) (List.cons.inj characters).2
          rw [String.toList_inj.mp equal]
          cases rest with
          | nil =>
              cases otherRest with
              | nil => rfl
              | cons _ _ => cases tails
          | cons second others =>
              cases otherRest with
              | nil => cases tails
              | cons third more =>
                  rw [induction (String.toList_inj.mp (List.cons.inj tails).2)]

end CiPipeline.Shell
