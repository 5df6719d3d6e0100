import CiPipeline.Condition.Lexer
import CiPipeline.Proofs.Sequencing

/-!
# Lexing in a context

A text that splits into tokens splits into the same tokens in front of any text
that cannot prolong its last lexeme, and at any offset.
-/

namespace CiPipeline.Condition

open CiPipeline.Sequencing CiPipeline.Text

/-! ## Reading a token -/

private theorem NamesVariable.readVariable {text name rest : List Char}
    (names : NamesVariable text name rest) (offset : Nat) :
    readVariable offset text = .ok (.variable (String.ofList name), rest) := by
  cases names with
  | braced found named => simp [Condition.readVariable, found, named]
  | plain found named =>
      unfold Condition.readVariable
      split
      · -- A brace is no character of a name.
        rename_i inner
        have noName : (readName ('\x7b' :: inner)).1 = [] := rfl
        rw [found] at noName
        exact (named noName).elim
      · simp [found, named]

private theorem ne_of_isAlpha {character other : Char}
    (letter : character.isAlpha = true) (noLetter : other.isAlpha = false) :
    character ≠ other := by
  rintro rfl
  rw [letter] at noLetter
  cases noLetter

/-- A token is read in the same way at every offset. -/
theorem Reads.readToken {character : Char} {text rest : List Char}
    {token : Token} (reads : Reads character text token rest) (offset : Nat) :
    readToken offset character text = .ok (token, rest) := by
  cases reads with
  | openParenthesis => rfl
  | closeParenthesis => rfl
  | not notUnequal notNoMatch =>
      rw [Condition.readToken]
      · exact notUnequal
      · exact notNoMatch
  | doubled doubled => cases doubled <;> rfl
  | pattern source flagged =>
      obtain ⟨rfl, _, stops, same⟩ := readFlags_front flagged
      simp [Condition.readToken, source, same _ _ stops]
  | dollar names => exact names.readVariable offset
  | text quote read =>
      rcases quote with rfl | rfl <;> simp [Condition.readToken, read]
  | word letter name known =>
      have unquoted : ¬(character = '\'' ∨ character = '"') :=
        not_or.mpr ⟨ne_of_isAlpha letter (by decide),
          ne_of_isAlpha letter (by decide)⟩
      rw [Condition.readToken, if_neg unquoted, if_pos letter, name]
      · simp only [known]
      all_goals exact ne_of_isAlpha letter (by decide)

/-! ## Reading in front of another text -/

private theorem readClosed_append {closing : Char} {escape : Char → List Char}
    {text value rest : List Char} (tail : List Char)
    (read : readClosed closing escape text = some (value, rest)) :
    readClosed closing escape (text ++ tail) = some (value, rest ++ tail) := by
  obtain ⟨body, rfl, same⟩ := readClosed_front read
  rw [List.append_assoc, List.cons_append, same]

/-- A text prolongs no lexeme in front of it: it starts with no character of a
name, of flags or of an operator's second half. -/
def Separates (text : List Char) : Prop :=
  ∀ character ∈ text.head?,
    isNameCharacter character = false ∧ character.isAlpha = false ∧
    character ≠ '=' ∧ character ≠ '~'

namespace Separates

variable {text : List Char}

private theorem ne_equal (separates : Separates text) :
    ∀ behind, text ≠ '=' :: behind := by
  rintro behind rfl
  exact (separates '=' rfl).2.2.1 rfl

private theorem ne_tilde (separates : Separates text) :
    ∀ behind, text ≠ '~' :: behind := by
  rintro behind rfl
  exact (separates '~' rfl).2.2.2 rfl

end Separates

private theorem readFlags_append {offset : Nat}
    {text flags rest tail : List Char} (separates : Separates tail)
    (read : readFlags offset text = .ok (flags, rest)) :
    readFlags offset (text ++ tail) = .ok (flags, rest ++ tail) := by
  obtain ⟨rfl, _, stops, same⟩ := readFlags_front read
  rw [List.append_assoc, same]
  cases rest with
  | nil => exact fun next member => (separates next member).2.1
  | cons next more => exact stops

theorem readName_append {tail : List Char} (separates : Separates tail)
    (text : List Char) :
    readName (text ++ tail) =
      ((readName text).1, (readName text).2 ++ tail) := by
  induction text with
  | nil =>
      cases tail with
      | nil => rfl
      | cons character more =>
          have noName := (separates character rfl).1
          simp [readName, noName]
  | cons character more step =>
      simp only [readName, Prod.mk.injEq] at step
      cases member : isNameCharacter character with
      | true => simp [readName, member, step]
      | false => simp [readName, member]

private theorem append_ne_cons {text tail : List Char} {first : Char}
    (absent : ∀ behind, text ≠ first :: behind)
    (absentTail : ∀ behind, tail ≠ first :: behind) :
    ∀ behind, text ++ tail ≠ first :: behind := by
  intro behind equal
  cases text with
  | nil => exact absentTail behind equal
  | cons character more =>
      simp only [List.cons_append, List.cons.injEq] at equal
      exact absent more (by rw [equal.1])

theorem NamesVariable.append {text name rest tail : List Char}
    (separates : Separates tail) (names : NamesVariable text name rest) :
    NamesVariable (text ++ tail) name (rest ++ tail) := by
  cases names with
  | braced found named =>
      rw [List.cons_append]
      refine .braced ?_ named
      rw [readName_append separates, found]
      rfl
  | plain found named =>
      refine .plain ?_ named
      rw [readName_append separates, found]

/-- What may follow a lexeme does not change how it is read. -/
theorem Reads.append {character : Char} {text rest tail : List Char}
    {token : Token} (separates : Separates tail)
    (reads : Reads character text token rest) :
    Reads character (text ++ tail) token (rest ++ tail) := by
  cases reads with
  | openParenthesis => exact .openParenthesis
  | closeParenthesis => exact .closeParenthesis
  | not notUnequal notNoMatch =>
      exact .not (append_ne_cons notUnequal separates.ne_equal)
        (append_ne_cons notNoMatch separates.ne_tilde)
  | doubled doubled => exact .doubled doubled
  | pattern source flagged =>
      exact .pattern (readClosed_append tail source)
        (readFlags_append separates flagged)
  | dollar names => exact .dollar (names.append separates)
  | text quote read => exact .text quote (readClosed_append tail read)
  | word letter name known =>
      refine .word letter ?_ known
      rw [readName_append separates, name]

private theorem tokensFrom_blank (offset : Nat) {character : Char}
    (rest : List Char) (blank : isBlank character = true) :
    tokensFrom offset (character :: rest) =
      tokensFrom (offset + character.utf8Size) rest := by
  rw [tokensFrom, if_pos blank]

private theorem tokensFrom_token {offset : Nat} {character : Char}
    {rest behind : List Char} {token : Token}
    (visible : ¬isBlank character = true)
    (read : readToken offset character rest = .ok (token, behind)) :
    tokensFrom offset (character :: rest) =
      tokensFrom (offset + (byteLength (character :: rest) - byteLength behind))
        behind >>= fun tokens => .ok (token :: tokens) := by
  rw [tokensFrom, if_neg visible]
  split
  · rename_i error failed
    simp [read] at failed
  · rename_i found success
    rw [read] at success
    cases success
    dsimp only
    cases tokensFrom (offset +
      (byteLength (character :: rest) - byteLength behind)) behind <;> rfl

/-- A text splits into the same tokens at every offset. -/
def Lexes (text : List Char) (tokens : List Token) : Prop :=
  ∀ offset, tokensFrom offset text = .ok tokens

namespace Lexes

theorem nil : Lexes [] [] := by
  intro offset
  rw [tokensFrom]

theorem blank {character : Char} {text : List Char} {tokens : List Token}
    (isBlank : isBlank character = true) (lexes : Lexes text tokens) :
    Lexes (character :: text) tokens := by
  intro offset
  rw [tokensFrom_blank offset text isBlank]
  exact lexes _

theorem token {character : Char} {text rest : List Char} {token : Token}
    {tokens : List Token} (visible : ¬isBlank character = true)
    (read : ∀ offset, readToken offset character text = .ok (token, rest))
    (lexes : Lexes rest tokens) :
    Lexes (character :: text) (token :: tokens) := by
  intro offset
  rw [tokensFrom_token visible (read offset), lexes]
  rfl

end Lexes

/-- The tokens of a text are the same in front of any text that prolongs none of
its lexemes. -/
theorem tokensFrom_append {offset : Nat} {text tail : List Char}
    {tokens more : List Token}
    (separates : Separates tail) (lexed : tokensFrom offset text = .ok tokens)
    (tailLexes : Lexes tail more) : Lexes (text ++ tail) (tokens ++ more) := by
  fun_induction tokensFrom offset text generalizing tokens with
  | case1 =>
      cases lexed
      exact tailLexes
  | case2 offset character rest blank step => exact (step lexed).blank blank
  | case3 => simp at lexed
  | case4 => simp at lexed
  | case5 offset character rest visible token behind read _ consumed
      inner found =>
      rename_i step
      cases lexed
      exact (step found).token visible
        ((reads_of_readToken read).append separates).readToken

theorem Lexes.of_tokensFrom {offset : Nat} {text : List Char}
    {tokens : List Token} (lexed : tokensFrom offset text = .ok tokens) :
    Lexes text tokens := by
  have separates : Separates [] := by simp [Separates]
  have lexes := tokensFrom_append separates lexed .nil
  simpa using lexes

theorem Lexes.append {text tail : List Char} {tokens more : List Token}
    (lexes : Lexes text tokens) (separates : Separates tail)
    (tailLexes : Lexes tail more) :
    Lexes (text ++ tail) (tokens ++ more) :=
  tokensFrom_append separates (lexes 0) tailLexes

end CiPipeline.Condition
