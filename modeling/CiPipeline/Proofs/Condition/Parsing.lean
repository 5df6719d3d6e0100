import CiPipeline.Proofs.Condition.ParserSteps

/-!
# The parser finds the derivation

The parser accepts exactly the token lists that a derivation spells, and returns
the derivation's expression.
-/

namespace CiPipeline.Condition

open CiPipeline.Sequencing

namespace Grammar

private theorem Primary.head_tokens_ne_not (derivation : Primary)
    (rest : List Token) :
    (derivation.tokens ++ rest).head? ≠ some .not := by
  cases derivation <;> simp [Primary.tokens]

private theorem Unary.tokens_ne_pattern (derivation : Unary)
    (rest : List Token) :
    ∀ source flags behind,
      derivation.tokens ++ rest ≠ .pattern source flags :: behind := by
  intro source flags behind
  cases derivation with
  | not inner => simp [Unary.tokens]
  | primary only => cases only <;> simp [Unary.tokens, Primary.tokens]

mutual

/-- Behind the tokens of a disjunction the parser looks for further
conjunctions. -/
theorem Disjunction.parsed (derivation : Disjunction) {rest : List Token}
    (ends : EndsComparison rest) (noAnd : rest.head? ≠ some .and) :
    erase (disjunction (derivation.tokens ++ rest)) =
      derivation.tree >>= fun expression =>
        erase (disjunctionRest expression rest) := by
  cases derivation with
  | single only =>
      rw [Disjunction.tokens, Disjunction.tree, erase_disjunction,
        only.parsed ends]
      cases only.tree with
      | error error => rfl
      | ok expression => simp [erase_conjunctionRest_of_ne _ noAnd]
  | join left right =>
      have endsLeft : EndsComparison (.or :: (right.tokens ++ rest)) := by
        simp [EndsComparison, Token.comparison?]
      rw [Disjunction.tokens, Disjunction.tree, List.append_assoc,
        List.cons_append, left.parsed endsLeft (by simp)]
      cases left.tree with
      | error error => rfl
      | ok leftTree =>
          simp only [ok_bind, erase_disjunctionRest_or, right.parsed ends]
          cases right.tree with
          | error error => rfl
          | ok rightTree => simp [erase_conjunctionRest_of_ne _ noAnd]

/-- Behind the tokens of a conjunction the parser looks for further
comparisons. -/
theorem Conjunction.parsed (derivation : Conjunction) {rest : List Token}
    (ends : EndsComparison rest) :
    erase (conjunction (derivation.tokens ++ rest)) =
      derivation.tree >>= fun expression =>
        erase (conjunctionRest expression rest) := by
  cases derivation with
  | single only =>
      rw [Conjunction.tokens, Conjunction.tree, erase_conjunction,
        only.parsed ends]
      cases only.tree <;> rfl
  | join left right =>
      have endsLeft : EndsComparison (.and :: (right.tokens ++ rest)) := by
        simp [EndsComparison, Token.comparison?]
      rw [Conjunction.tokens, Conjunction.tree, List.append_assoc,
        List.cons_append, left.parsed endsLeft]
      cases left.tree with
      | error error => rfl
      | ok leftTree =>
          simp only [ok_bind, erase_conjunctionRest_and, right.parsed ends]
          cases right.tree <;> rfl

private theorem Comparison.parsed (derivation : Comparison) {rest : List Token}
    (ends : EndsComparison rest) :
    erase (comparison (derivation.tokens ++ rest)) =
      derivation.tree >>= fun expression => .ok (expression, rest) := by
  cases derivation with
  | single only =>
      have first := only.parsed rest
      rw [Comparison.tokens, Comparison.tree]
      cases found : only.tree with
      | error error =>
          exact erase_comparison_of_error (by simpa [found] using first)
      | ok expression =>
          exact erase_comparison_of_ends (by simpa [found] using first) ends
  | equality left negated right =>
      have first :=
        left.parsed (equalityToken negated :: (right.tokens ++ rest))
      rw [Comparison.tokens, Comparison.tree, List.append_assoc,
        List.cons_append]
      cases found : left.tree with
      | error error =>
          exact erase_comparison_of_error (by simpa [found] using first)
      | ok leftTree =>
          rw [erase_comparison_of_equality (by simpa [found] using first),
            right.parsed rest]
          cases right.tree with
          | error error => rfl
          | ok rightTree => simp [erase_endComparison ends]
  | matching subject negated pattern =>
      have first :=
        subject.parsed (matchToken negated :: (pattern.tokens ++ rest))
      rw [Comparison.tokens, Comparison.tree, List.append_assoc,
        List.cons_append]
      cases found : subject.tree with
      | error error =>
          exact erase_comparison_of_error (by simpa [found] using first)
      | ok subjectTree =>
          exact pattern.parsed ends (by simpa [found] using first)

private theorem PatternOperand.parsed (derivation : PatternOperand)
    {tokens rest : List Token} {subject : Expression} {negated : Bool}
    (ends : EndsComparison rest)
    (first : erase (unary tokens) =
      .ok (subject, matchToken negated :: (derivation.tokens ++ rest))) :
    erase (comparison tokens) =
      derivation.tree subject negated >>= fun expression =>
        .ok (expression, rest) := by
  cases derivation with
  | literal source flags =>
      rw [erase_comparison_of_literal first, PatternOperand.tree]
      cases literalPattern source flags with
      | error error => rfl
      | ok pattern => simp [erase_endComparison ends]
  | dynamic source =>
      rw [PatternOperand.tokens] at first
      rw [erase_comparison_of_dynamic first (source.tokens_ne_pattern rest),
        PatternOperand.tree, source.parsed rest]
      cases source.tree with
      | error error => rfl
      | ok sourceTree => simp [erase_endComparison ends]

private theorem Unary.parsed (derivation : Unary) (rest : List Token) :
    erase (unary (derivation.tokens ++ rest)) =
      derivation.tree >>= fun expression => .ok (expression, rest) := by
  cases derivation with
  | not inner =>
      rw [Unary.tokens, Unary.tree, List.cons_append, erase_unary_not,
        inner.parsed rest]
      cases inner.tree <;> rfl
  | primary only =>
      rw [Unary.tokens, Unary.tree,
        erase_unary_of_ne (only.head_tokens_ne_not rest), only.parsed rest]

private theorem Primary.parsed (derivation : Primary) (rest : List Token) :
    erase (primary (derivation.tokens ++ rest)) =
      derivation.tree >>= fun expression => .ok (expression, rest) := by
  cases derivation with
  | parenthesised inner =>
      have ends : EndsComparison (.closeParenthesis :: rest) := by
        simp [EndsComparison, Token.comparison?]
      rw [Primary.tokens, Primary.tree, List.cons_append, List.append_assoc,
        List.singleton_append, erase_primary_open, inner.parsed ends (by simp)]
      cases inner.tree with
      | error error => rfl
      | ok expression =>
          simp only [ok_bind]
          rw [erase_disjunctionRest_of_ne _ (by simp)]
          rfl
  | text value => simp [Primary.tokens, Primary.tree, primary]
  | null => simp [Primary.tokens, Primary.tree, primary]
  | true => simp [Primary.tokens, Primary.tree, primary]
  | false => simp [Primary.tokens, Primary.tree, primary]
  | «variable» name => simp [Primary.tokens, Primary.tree, primary]

end

private theorem Primary.spelled_of_parsed (derivation : Primary)
    {behind rest : List Token} {expression : Expression}
    (success : erase (primary (derivation.tokens ++ behind)) =
      .ok (expression, rest)) :
    ∃ found : Primary,
      derivation.tokens ++ behind = found.tokens ++ rest ∧
        found.tree = .ok expression := by
  rw [derivation.parsed behind, bind_eq_ok_iff] at success
  obtain ⟨_, tree, equal⟩ := success
  cases equal
  exact ⟨derivation, rfl, tree⟩

end Grammar

private theorem Token.comparison?_cases (token : Token) :
    token.comparison? = none ∨
      (∃ negated, token = Grammar.equalityToken negated) ∨
      ∃ negated, token = Grammar.matchToken negated := by
  cases token with
  | equal => exact .inr (.inl ⟨Bool.false, rfl⟩)
  | unequal => exact .inr (.inl ⟨Bool.true, rfl⟩)
  | isMatch => exact .inr (.inr ⟨Bool.false, rfl⟩)
  | isNoMatch => exact .inr (.inr ⟨Bool.true, rfl⟩)
  | _ => exact .inl rfl

mutual

private theorem disjunction_spelled {tokens rest : List Token}
    {expression : Expression}
    (success : erase (disjunction tokens) = .ok (expression, rest)) :
    ∃ derivation : Grammar.Disjunction,
      tokens = derivation.tokens ++ rest ∧
        derivation.tree = .ok expression := by
  rw [erase_disjunction, bind_eq_ok_iff] at success
  obtain ⟨⟨left, behind⟩, first, continued⟩ := success
  have shorter := length_of_erase first
  obtain ⟨only, spelled, tree⟩ := conjunction_spelled first
  obtain ⟨derivation, continuedSpelled, result⟩ :=
    disjunctionRest_spelled (.single only) tree continued
  exact ⟨derivation, spelled.trans continuedSpelled, result⟩
  termination_by (tokens.length, 5)

private theorem disjunctionRest_spelled {left : Expression}
    {tokens rest : List Token} {expression : Expression}
    (before : Grammar.Disjunction) (tree : before.tree = .ok left)
    (success : erase (disjunctionRest left tokens) = .ok (expression, rest)) :
    ∃ derivation : Grammar.Disjunction,
      before.tokens ++ tokens = derivation.tokens ++ rest ∧
        derivation.tree = .ok expression := by
  by_cases joined : tokens.head? = some .or
  · obtain ⟨behind, rfl⟩ := List.head?_eq_some_iff.mp joined
    rw [erase_disjunctionRest_or, bind_eq_ok_iff] at success
    obtain ⟨⟨right, further⟩, next, continued⟩ := success
    have shorter := length_of_erase next
    obtain ⟨rightDerivation, spelled, rightTree⟩ := conjunction_spelled next
    have joinedTree :
        (before.join rightDerivation).tree = .ok (.or left right) := by
      simp [Grammar.Disjunction.tree, tree, rightTree]
    obtain ⟨derivation, continuedSpelled, result⟩ :=
      disjunctionRest_spelled (before.join rightDerivation) joinedTree continued
    refine ⟨derivation, ?_, result⟩
    rw [← continuedSpelled, spelled]
    simp [Grammar.Disjunction.tokens]
  · rw [erase_disjunctionRest_of_ne _ joined] at success
    simp only [Except.ok.injEq, Prod.mk.injEq] at success
    obtain ⟨rfl, rfl⟩ := success
    exact ⟨before, rfl, tree⟩
  termination_by (tokens.length, 5)

private theorem conjunction_spelled {tokens rest : List Token}
    {expression : Expression}
    (success : erase (conjunction tokens) = .ok (expression, rest)) :
    ∃ derivation : Grammar.Conjunction,
      tokens = derivation.tokens ++ rest ∧
        derivation.tree = .ok expression := by
  rw [erase_conjunction, bind_eq_ok_iff] at success
  obtain ⟨⟨left, behind⟩, first, continued⟩ := success
  have shorter := length_of_erase first
  obtain ⟨only, spelled, tree⟩ := comparison_spelled first
  obtain ⟨derivation, continuedSpelled, result⟩ :=
    conjunctionRest_spelled (.single only) tree continued
  exact ⟨derivation, spelled.trans continuedSpelled, result⟩
  termination_by (tokens.length, 4)

private theorem conjunctionRest_spelled {left : Expression}
    {tokens rest : List Token} {expression : Expression}
    (before : Grammar.Conjunction) (tree : before.tree = .ok left)
    (success : erase (conjunctionRest left tokens) = .ok (expression, rest)) :
    ∃ derivation : Grammar.Conjunction,
      before.tokens ++ tokens = derivation.tokens ++ rest ∧
        derivation.tree = .ok expression := by
  by_cases joined : tokens.head? = some .and
  · obtain ⟨behind, rfl⟩ := List.head?_eq_some_iff.mp joined
    rw [erase_conjunctionRest_and, bind_eq_ok_iff] at success
    obtain ⟨⟨right, further⟩, next, continued⟩ := success
    have shorter := length_of_erase next
    obtain ⟨rightDerivation, spelled, rightTree⟩ := comparison_spelled next
    have joinedTree :
        (before.join rightDerivation).tree = .ok (.and left right) := by
      simp [Grammar.Conjunction.tree, tree, rightTree]
    obtain ⟨derivation, continuedSpelled, result⟩ :=
      conjunctionRest_spelled (before.join rightDerivation) joinedTree continued
    refine ⟨derivation, ?_, result⟩
    rw [← continuedSpelled, spelled]
    simp [Grammar.Conjunction.tokens]
  · rw [erase_conjunctionRest_of_ne _ joined] at success
    simp only [Except.ok.injEq, Prod.mk.injEq] at success
    obtain ⟨rfl, rfl⟩ := success
    exact ⟨before, rfl, tree⟩
  termination_by (tokens.length, 4)

private theorem comparison_spelled {tokens rest : List Token}
    {expression : Expression}
    (success : erase (comparison tokens) = .ok (expression, rest)) :
    ∃ derivation : Grammar.Comparison,
      tokens = derivation.tokens ++ rest ∧
        derivation.tree = .ok expression := by
  cases first : erase (unary tokens) with
  | error error => simp [erase_comparison_of_error first] at success
  | ok result =>
      obtain ⟨left, behind⟩ := result
      have shorter := length_of_erase first
      obtain ⟨leftDerivation, spelled, leftTree⟩ := unary_spelled first
      by_cases ends : EndsComparison behind
      · rw [erase_comparison_of_ends first ends] at success
        simp only [Except.ok.injEq, Prod.mk.injEq] at success
        obtain ⟨rfl, rfl⟩ := success
        exact ⟨.single leftDerivation, spelled, leftTree⟩
      · cases behind with
        | nil => simp [EndsComparison] at ends
        | cons token behind =>
            rcases token.comparison?_cases with
              alone | ⟨negated, rfl⟩ | ⟨negated, rfl⟩
            · simp [EndsComparison, alone] at ends
            · rw [erase_comparison_of_equality first, bind_eq_ok_iff] at success
              obtain ⟨⟨right, further⟩, second, ended⟩ := success
              obtain ⟨rfl, rfl⟩ := Prod.mk.inj (eq_of_erase_endComparison ended)
              obtain ⟨rightDerivation, rightSpelled, rightTree⟩ :=
                unary_spelled second
              refine ⟨.equality leftDerivation negated rightDerivation, ?_, ?_⟩
              · rw [spelled, rightSpelled]
                simp [Grammar.Comparison.tokens]
              · simp [Grammar.Comparison.tree, leftTree, rightTree]
            · obtain ⟨pattern, patternSpelled, tree⟩ :=
                pattern_spelled first success
              refine ⟨.matching leftDerivation negated pattern, ?_, ?_⟩
              · rw [spelled, patternSpelled]
                simp [Grammar.Comparison.tokens]
              · simp [Grammar.Comparison.tree, leftTree, tree]
  termination_by (tokens.length, 3)

private theorem pattern_spelled {tokens behind rest : List Token}
    {subject expression : Expression} {negated : Bool}
    (first : erase (unary tokens) =
      .ok (subject, Grammar.matchToken negated :: behind))
    (success : erase (comparison tokens) = .ok (expression, rest)) :
    ∃ derivation : Grammar.PatternOperand,
      behind = derivation.tokens ++ rest ∧
        derivation.tree subject negated = .ok expression := by
  have shorter : behind.length < tokens.length :=
    Nat.lt_of_succ_lt (length_of_erase first)
  by_cases literal : ∃ source flags further,
    behind = .pattern source flags :: further
  · obtain ⟨source, flags, further, rfl⟩ := literal
    rw [erase_comparison_of_literal first, bind_eq_ok_iff] at success
    obtain ⟨pattern, compiled, ended⟩ := success
    obtain ⟨rfl, rfl⟩ := Prod.mk.inj (eq_of_erase_endComparison ended)
    exact ⟨.literal source flags,
      rfl, by simp [Grammar.PatternOperand.tree, compiled]⟩
  · have dynamic :
        ∀ source flags further, behind ≠ .pattern source flags :: further :=
      fun source flags further equal => literal ⟨source, flags, further, equal⟩
    rw [erase_comparison_of_dynamic first dynamic, bind_eq_ok_iff] at success
    obtain ⟨⟨source, further⟩, second, ended⟩ := success
    obtain ⟨rfl, rfl⟩ := Prod.mk.inj (eq_of_erase_endComparison ended)
    obtain ⟨derivation, spelled, tree⟩ := unary_spelled second
    exact ⟨.dynamic derivation,
      spelled, by simp [Grammar.PatternOperand.tree, tree]⟩
  termination_by (tokens.length, 2)

private theorem unary_spelled {tokens rest : List Token}
    {expression : Expression}
    (success : erase (unary tokens) = .ok (expression, rest)) :
    ∃ derivation : Grammar.Unary,
      tokens = derivation.tokens ++ rest ∧
        derivation.tree = .ok expression := by
  by_cases negation : tokens.head? = some .not
  · obtain ⟨behind, rfl⟩ := List.head?_eq_some_iff.mp negation
    rw [erase_unary_not, bind_eq_ok_iff] at success
    obtain ⟨⟨inner, further⟩, first, result⟩ := success
    simp only [Except.ok.injEq, Prod.mk.injEq] at result
    obtain ⟨rfl, rfl⟩ := result
    obtain ⟨derivation, spelled, tree⟩ := unary_spelled first
    refine ⟨.not derivation, ?_, ?_⟩
    · simp [Grammar.Unary.tokens, spelled]
    · simp [Grammar.Unary.tree, tree]
  · rw [erase_unary_of_ne negation] at success
    obtain ⟨derivation, spelled, tree⟩ := primary_spelled success
    exact ⟨.primary derivation, spelled, tree⟩
  termination_by (tokens.length, 1)

private theorem primary_spelled {tokens rest : List Token}
    {expression : Expression}
    (success : erase (primary tokens) = .ok (expression, rest)) :
    ∃ derivation : Grammar.Primary,
      tokens = derivation.tokens ++ rest ∧
        derivation.tree = .ok expression := by
  cases tokens with
  | nil => simp [primary] at success
  | cons token behind =>
      cases token with
      | openParenthesis =>
          rw [erase_primary_open, bind_eq_ok_iff] at success
          obtain ⟨⟨inner, further⟩, first, closed⟩ := success
          obtain ⟨derivation, spelled, tree⟩ := disjunction_spelled first
          split at closed
          · simp at closed
          · rename_i close
            simp only [Prod.mk.injEq] at close
            obtain ⟨rfl, rfl⟩ := close
            simp only [Except.ok.injEq, Prod.mk.injEq] at closed
            obtain ⟨rfl, rfl⟩ := closed
            exact ⟨.parenthesised derivation, by
              simp [Grammar.Primary.tokens, spelled], tree⟩
          · simp at closed
      | text value =>
          exact (Grammar.Primary.text value).spelled_of_parsed success
      | null => exact Grammar.Primary.null.spelled_of_parsed success
      | true => exact Grammar.Primary.true.spelled_of_parsed success
      | false => exact Grammar.Primary.false.spelled_of_parsed success
      | «variable» name =>
          exact (Grammar.Primary.variable name).spelled_of_parsed success
      | _ => simp [primary] at success
  termination_by (tokens.length, 0)

end

private theorem parse_eq (tokens : List Token) :
    parse tokens = erase (disjunction tokens) >>= fun result =>
      match result with
      | (expression, []) => .ok expression
      | (_, token :: _) => .error (.unexpectedToken token) := by
  unfold parse
  cases disjunction tokens with
  | error error => rfl
  | ok result =>
      obtain ⟨⟨expression, rest⟩, shorter⟩ := result
      cases rest <;> rfl

/-- The tokens of a derivation parse to its expression. -/
theorem parse_tokens (derivation : Grammar.Disjunction) :
    parse derivation.tokens = derivation.tree := by
  have ends : EndsComparison [] := by simp [EndsComparison]
  have parsed := derivation.parsed ends (by simp)
  rw [List.append_nil] at parsed
  rw [parse_eq, parsed]
  cases derivation.tree with
  | error error => rfl
  | ok expression =>
      simp only [ok_bind]
      rw [erase_disjunctionRest_of_ne _ (by simp)]
      rfl

/-- Whatever parses is spelled by a derivation. -/
theorem parse_spelled {tokens : List Token} {expression : Expression}
    (success : parse tokens = .ok expression) :
    ∃ derivation : Grammar.Disjunction,
      derivation.tokens = tokens ∧ derivation.tree = .ok expression := by
  rw [parse_eq, bind_eq_ok_iff] at success
  obtain ⟨⟨found, rest⟩, parsed, ended⟩ := success
  obtain ⟨derivation, spelled, tree⟩ := disjunction_spelled parsed
  cases rest with
  | nil =>
      cases ended
      exact ⟨derivation, by simpa using spelled.symm, tree⟩
  | cons token rest => cases ended

/-- Every literal among the tokens is a pattern. -/
def LiteralsCompile (tokens : List Token) : Prop :=
  ∀ source flags, .pattern source flags ∈ tokens →
    ∃ pattern, literalPattern source flags = .ok pattern

namespace LiteralsCompile

variable {tokens more : List Token} {token : Token}

private theorem left (compile : LiteralsCompile (tokens ++ more)) :
    LiteralsCompile tokens :=
  fun source flags member =>
    compile source flags (List.mem_append_left _ member)

private theorem behind (compile : LiteralsCompile (token :: tokens)) :
    LiteralsCompile tokens :=
  fun source flags member =>
    compile source flags (List.mem_cons_of_mem _ member)

private theorem right (compile : LiteralsCompile (tokens ++ token :: more)) :
    LiteralsCompile more :=
  fun source flags member =>
    compile source flags
      (List.mem_append_right _ (List.mem_cons_of_mem _ member))

end LiteralsCompile

namespace Grammar

mutual

/-- A derivation has an expression if all of its literals are patterns. -/
theorem Disjunction.tree_ok (derivation : Disjunction)
    (compile : LiteralsCompile derivation.tokens) :
    ∃ expression, derivation.tree = .ok expression := by
  cases derivation with
  | single only => exact only.tree_ok compile
  | join left right =>
      obtain ⟨leftTree, leftOk⟩ := left.tree_ok compile.left
      obtain ⟨rightTree, rightOk⟩ := right.tree_ok compile.right
      exact ⟨.or leftTree rightTree, by
        simp [Disjunction.tree, leftOk, rightOk]⟩

private theorem Conjunction.tree_ok (derivation : Conjunction)
    (compile : LiteralsCompile derivation.tokens) :
    ∃ expression, derivation.tree = .ok expression := by
  cases derivation with
  | single only => exact only.tree_ok compile
  | join left right =>
      obtain ⟨leftTree, leftOk⟩ := left.tree_ok compile.left
      obtain ⟨rightTree, rightOk⟩ := right.tree_ok compile.right
      exact ⟨.and leftTree rightTree, by
        simp [Conjunction.tree, leftOk, rightOk]⟩

private theorem Comparison.tree_ok (derivation : Comparison)
    (compile : LiteralsCompile derivation.tokens) :
    ∃ expression, derivation.tree = .ok expression := by
  cases derivation with
  | single only => exact only.tree_ok compile
  | equality left negated right =>
      obtain ⟨leftTree, leftOk⟩ := left.tree_ok compile.left
      obtain ⟨rightTree, rightOk⟩ := right.tree_ok compile.right
      exact ⟨.equals leftTree rightTree negated, by
        simp [Comparison.tree, leftOk, rightOk]⟩
  | matching subject negated pattern =>
      obtain ⟨subjectTree, subjectOk⟩ := subject.tree_ok compile.left
      obtain ⟨tree, treeOk⟩ := pattern.tree_ok subjectTree negated compile.right
      exact ⟨tree, by simp [Comparison.tree, subjectOk, treeOk]⟩

private theorem PatternOperand.tree_ok (derivation : PatternOperand)
    (subject : Expression) (negated : Bool)
    (compile : LiteralsCompile derivation.tokens) :
    ∃ expression, derivation.tree subject negated = .ok expression := by
  cases derivation with
  | literal source flags =>
      obtain ⟨pattern, compiled⟩ :=
        compile source flags (by simp [PatternOperand.tokens])
      exact ⟨.matchesPattern subject pattern negated, by
        simp [PatternOperand.tree, compiled]⟩
  | dynamic source =>
      obtain ⟨sourceTree, sourceOk⟩ := source.tree_ok compile
      exact ⟨.matchesText subject sourceTree negated, by
        simp [PatternOperand.tree, sourceOk]⟩

private theorem Unary.tree_ok (derivation : Unary)
    (compile : LiteralsCompile derivation.tokens) :
    ∃ expression, derivation.tree = .ok expression := by
  cases derivation with
  | not inner =>
      obtain ⟨innerTree, innerOk⟩ := inner.tree_ok compile.behind
      exact ⟨.not innerTree, by simp [Unary.tree, innerOk]⟩
  | primary only => exact only.tree_ok compile

private theorem Primary.tree_ok (derivation : Primary)
    (compile : LiteralsCompile derivation.tokens) :
    ∃ expression, derivation.tree = .ok expression := by
  cases derivation with
  | parenthesised inner => exact inner.tree_ok compile.behind.left
  | _ => exact ⟨_, rfl⟩

end

end Grammar

/-- If all literals among the tokens are patterns, the tokens parse exactly when
a derivation spells them, every derivation that spells them has the parsed
expression, and all other tokens are refused. -/
theorem parse_iff_derivation {tokens : List Token}
    (compile : LiteralsCompile tokens) :
    ((∃ expression, parse tokens = .ok expression) ↔
      ∃ derivation : Grammar.Disjunction, derivation.tokens = tokens) ∧
    (∀ derivation : Grammar.Disjunction, derivation.tokens = tokens →
      ∃ expression, derivation.tree = .ok expression ∧
        parse tokens = .ok expression) ∧
    ((¬∃ derivation : Grammar.Disjunction, derivation.tokens = tokens) →
      ∃ error, parse tokens = .error error) := by
  have found : ∀ derivation : Grammar.Disjunction, derivation.tokens = tokens →
      ∃ expression, derivation.tree = .ok expression ∧
        parse tokens = .ok expression := by
    rintro derivation rfl
    obtain ⟨expression, tree⟩ := derivation.tree_ok compile
    exact ⟨expression, tree, (parse_tokens derivation).trans tree⟩
  refine ⟨⟨?_, ?_⟩, found, ?_⟩
  · rintro ⟨expression, success⟩
    obtain ⟨derivation, spelled, _⟩ := parse_spelled success
    exact ⟨derivation, spelled⟩
  · rintro ⟨derivation, spelled⟩
    obtain ⟨expression, _, success⟩ := found derivation spelled
    exact ⟨expression, success⟩
  · intro underivable
    cases result : parse tokens with
    | error error => exact ⟨error, rfl⟩
    | ok expression =>
        obtain ⟨derivation, spelled, _⟩ := parse_spelled result
        exact absurd ⟨derivation, spelled⟩ underivable

theorem parse_iff_derivation_match :
    LiteralsCompile [.variable "A", .isMatch, .pattern "^ma" "i", .and,
      .not, .null] ∧
      ∃ pattern, literalPattern "^ma" "i" = .ok pattern ∧
        parse [.variable "A", .isMatch, .pattern "^ma" "i", .and, .not, .null] =
          .ok (.and (.matchesPattern (.variable "A") pattern false)
            (.not (.literal .null))) := by
  have compile : LiteralsCompile
      [.variable "A", .isMatch, .pattern "^ma" "i", .and, .not, .null] := by
    intro source flags member
    obtain ⟨rfl, rfl⟩ : source = "^ma" ∧ flags = "i" := by simpa using member
    exact ⟨_, rfl⟩
  obtain ⟨expression, tree, success⟩ := (parse_iff_derivation compile).2.1
    (.single (.join
      (.single (.matching (.primary (.variable "A")) false
        (.literal "^ma" "i"))) (.single (.not (.primary .null))))) rfl
  cases tree
  exact ⟨compile, _, rfl, success⟩

end CiPipeline.Condition
