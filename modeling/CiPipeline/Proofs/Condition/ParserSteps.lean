import CiPipeline.Proofs.Condition.Grammar
import CiPipeline.Proofs.Sequencing

/-!
# The parsing functions

What each parsing function does with its tokens, without the bounds on the
tokens that it leaves.
-/

namespace CiPipeline.Condition

open CiPipeline.Sequencing

/-- What a parsing function reads and leaves, without the bound on
what it leaves. -/
def erase {bound : Expression × List Token → Prop}
    (result : Except ConditionError
      { result : Expression × List Token // bound result }) :
    Except ConditionError (Expression × List Token) :=
  result.map Subtype.val

@[simp] theorem erase_ok {bound : Expression × List Token → Prop}
    (result : { result : Expression × List Token // bound result }) :
    erase (.ok result) = .ok result.1 := rfl

@[simp] theorem erase_error {bound : Expression × List Token → Prop}
    (error : ConditionError) :
    @erase bound (.error error) = .error error := rfl

private theorem eq_ok_of_erase {bound : Expression × List Token → Prop}
    {value : Expression × List Token}
    {result : Except ConditionError { result : Expression × List Token //
      bound result }} (success : erase result = .ok value) :
    ∃ bounded, result = .ok ⟨value, bounded⟩ := by
  cases result with
  | error error => simp at success
  | ok inner =>
      simp only [erase_ok, Except.ok.injEq] at success
      subst success
      exact ⟨inner.2, rfl⟩

theorem length_of_erase {tokens rest : List Token} {expression : Expression}
    {result : Except ConditionError (Parsed tokens)}
    (success : erase result = .ok (expression, rest)) :
    rest.length < tokens.length := by
  obtain ⟨shorter, _⟩ := eq_ok_of_erase success
  exact shorter

theorem erase_disjunction (tokens : List Token) :
    erase (disjunction tokens) =
      erase (conjunction tokens) >>= fun first =>
        erase (disjunctionRest first.1 first.2) := by
  rw [disjunction]
  cases conjunction tokens with
  | error error => rfl
  | ok first =>
      obtain ⟨⟨left, rest⟩, shorter⟩ := first
      simp only [erase_ok, ok_bind]
      cases disjunctionRest left rest <;> rfl

theorem erase_disjunctionRest_or (left : Expression) (behind : List Token) :
    erase (disjunctionRest left (.or :: behind)) =
      erase (conjunction behind) >>= fun next =>
        erase (disjunctionRest (.or left next.1) next.2) := by
  rw [disjunctionRest]
  cases conjunction behind with
  | error error => rfl
  | ok next =>
      obtain ⟨⟨right, rest⟩, shorter⟩ := next
      simp only [erase_ok, ok_bind]
      cases disjunctionRest (.or left right) rest <;> rfl

theorem erase_disjunctionRest_of_ne (left : Expression) {tokens : List Token}
    (ends : tokens.head? ≠ some .or) :
    erase (disjunctionRest left tokens) = .ok (left, tokens) := by
  unfold disjunctionRest
  split
  · simp at ends
  · rfl

theorem erase_conjunction (tokens : List Token) :
    erase (conjunction tokens) =
      erase (comparison tokens) >>= fun first =>
        erase (conjunctionRest first.1 first.2) := by
  rw [conjunction]
  cases comparison tokens with
  | error error => rfl
  | ok first =>
      obtain ⟨⟨left, rest⟩, shorter⟩ := first
      simp only [erase_ok, ok_bind]
      cases conjunctionRest left rest <;> rfl

theorem erase_conjunctionRest_and (left : Expression) (behind : List Token) :
    erase (conjunctionRest left (.and :: behind)) =
      erase (comparison behind) >>= fun next =>
        erase (conjunctionRest (.and left next.1) next.2) := by
  rw [conjunctionRest]
  cases comparison behind with
  | error error => rfl
  | ok next =>
      obtain ⟨⟨right, rest⟩, shorter⟩ := next
      simp only [erase_ok, ok_bind]
      cases conjunctionRest (.and left right) rest <;> rfl

theorem erase_conjunctionRest_of_ne (left : Expression) {tokens : List Token}
    (ends : tokens.head? ≠ some .and) :
    erase (conjunctionRest left tokens) = .ok (left, tokens) := by
  unfold conjunctionRest
  split
  · simp at ends
  · rfl

@[simp] theorem comparison?_equalityToken (negated : Bool) :
    (Grammar.equalityToken negated).comparison? =
      some ⟨Bool.false, negated⟩ := by
  cases negated <;> rfl

@[simp] theorem comparison?_matchToken (negated : Bool) :
    (Grammar.matchToken negated).comparison? = some ⟨Bool.true, negated⟩ := by
  cases negated <;> rfl

/-- No comparison goes on at the front of the tokens. -/
def EndsComparison (tokens : List Token) : Prop :=
  ∀ token ∈ tokens.head?, token.comparison? = none

theorem erase_endComparison {expression : Expression} {rest : List Token}
    (ends : EndsComparison rest) :
    erase (endComparison expression rest) = .ok (expression, rest) := by
  cases rest with
  | nil => rfl
  | cons token rest =>
      have alone : token.comparison? = none := ends token rfl
      simp [endComparison, alone]

theorem eq_of_erase_endComparison {expression : Expression} {rest : List Token}
    {result : Expression × List Token}
    (success : erase (endComparison expression rest) = .ok result) :
    result = (expression, rest) := by
  cases rest with
  | nil => simpa [endComparison, eq_comm] using success
  | cons token rest =>
      unfold endComparison at success
      cases found : token.comparison? with
      | none => simpa [found, eq_comm] using success
      | some comparison => simp [found] at success

theorem erase_comparison_of_error {tokens : List Token} {error : ConditionError}
    (first : erase (unary tokens) = .error error) :
    erase (comparison tokens) = .error error := by
  rw [comparison]
  cases found : unary tokens with
  | error _ => simpa [found] using first
  | ok result => simp [found] at first

theorem erase_comparison_of_ends {tokens rest : List Token} {left : Expression}
    (first : erase (unary tokens) = .ok (left, rest))
    (ends : EndsComparison rest) :
    erase (comparison tokens) = .ok (left, rest) := by
  obtain ⟨shorter, found⟩ := eq_ok_of_erase first
  rw [comparison, found]
  cases rest with
  | nil => rfl
  | cons token behind =>
      have alone : token.comparison? = none := ends token rfl
      simp [alone]

theorem erase_comparison_of_equality {tokens behind : List Token}
    {left : Expression} {negated : Bool}
    (first : erase (unary tokens) =
      .ok (left, Grammar.equalityToken negated :: behind)) :
    erase (comparison tokens) =
      erase (unary behind) >>= fun right =>
        erase (endComparison (.equals left right.1 negated) right.2) := by
  obtain ⟨shorter, found⟩ := eq_ok_of_erase first
  rw [comparison, found]
  simp only [comparison?_equalityToken]
  cases unary behind with
  | error _ => rfl
  | ok right =>
      obtain ⟨⟨right, rest⟩, _⟩ := right
      simp only [erase_ok, ok_bind]
      cases endComparison (.equals left right negated) rest <;> rfl

theorem erase_comparison_of_literal {tokens rest : List Token}
    {left : Expression} {negated : Bool} {source flags : String}
    (first : erase (unary tokens) =
      .ok (left, Grammar.matchToken negated :: .pattern source flags :: rest)) :
    erase (comparison tokens) =
      literalPattern source flags >>= fun pattern =>
        erase (endComparison (.matchesPattern left pattern negated) rest) := by
  obtain ⟨shorter, found⟩ := eq_ok_of_erase first
  rw [comparison, found]
  simp only [comparison?_matchToken]
  cases literalPattern source flags with
  | error _ => rfl
  | ok pattern =>
      simp only [ok_bind]
      cases endComparison (.matchesPattern left pattern negated) rest <;> rfl

theorem erase_comparison_of_dynamic {tokens behind : List Token}
    {left : Expression} {negated : Bool}
    (first : erase (unary tokens) =
      .ok (left, Grammar.matchToken negated :: behind))
    (dynamic : ∀ source flags rest, behind ≠ .pattern source flags :: rest) :
    erase (comparison tokens) =
      erase (unary behind) >>= fun source =>
        erase (endComparison (.matchesText left source.1 negated)
            source.2) := by
  obtain ⟨shorter, found⟩ := eq_ok_of_erase first
  rw [comparison, found]
  simp only [comparison?_matchToken]
  split
  · exact absurd rfl (dynamic _ _ _)
  · cases unary behind with
    | error _ => rfl
    | ok source =>
        obtain ⟨⟨source, rest⟩, _⟩ := source
        simp only [erase_ok, ok_bind]
        cases endComparison (.matchesText left source negated) rest <;> rfl

theorem erase_unary_not (behind : List Token) :
    erase (unary (.not :: behind)) =
      erase (unary behind) >>= fun inner => .ok (.not inner.1, inner.2) := by
  rw [unary]
  cases unary behind <;> rfl

theorem erase_unary_of_ne {tokens : List Token}
    (ends : tokens.head? ≠ some .not) :
    erase (unary tokens) = erase (primary tokens) := by
  rw [unary.eq_def]
  split
  · simp at ends
  · rfl

theorem erase_primary_open (behind : List Token) :
    erase (primary (.openParenthesis :: behind)) =
      erase (disjunction behind) >>= fun inner =>
        match inner with
        | (_, []) => .error .unexpectedEnd
        | (inner, .closeParenthesis :: rest) => .ok (inner, rest)
        | (_, token :: _) => .error (.unexpectedToken token) := by
  rw [primary]
  cases disjunction behind with
  | error _ => rfl
  | ok result =>
      obtain ⟨⟨inner, rest⟩, shorter⟩ := result
      simp only [erase_ok, ok_bind]
      cases rest with
      | nil => rfl
      | cons token rest => cases token <;> rfl

end CiPipeline.Condition
