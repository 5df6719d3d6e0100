import CiPipeline.Proofs.Condition.Lexing
import CiPipeline.Proofs.Condition.Parsing
import CiPipeline.Rules

/-!
# Composing conditions

Conditions can be put in parentheses and combined as texts.  What holds of the
combination follows from what holds of its parts, and the first part alone
decides where it can.
-/

namespace CiPipeline

namespace Condition

open CiPipeline.Sequencing

private theorem Lexes.parenthesised {text tail : List Char}
    {tokens more : List Token} (lexes : Lexes text tokens)
    (tailLexes : Lexes tail more) :
    Lexes ('(' :: (text ++ ')' :: tail))
      (.openParenthesis :: (tokens ++ .closeParenthesis :: more)) := by
  have separates : Separates (')' :: tail) := by
    intro character member
    cases member
    decide
  have closed : Lexes (')' :: tail) (.closeParenthesis :: more) :=
    tailLexes.token (by decide) fun _ => rfl
  exact (lexes.append separates closed).token (by decide) fun _ => rfl

/-- A text reads as an expression exactly when its tokens spell a
derivation of it. -/
theorem read_eq_ok_iff {text : String} {expression : Expression} :
    read text = .ok expression ↔
      ∃ derivation : Grammar.Disjunction,
        Lexes text.toList derivation.tokens ∧
          derivation.tree = .ok expression := by
  rw [read, bind_eq_ok_iff]
  constructor
  · rintro ⟨tokens, lexed, parsed⟩
    obtain ⟨derivation, rfl, tree⟩ := parse_spelled parsed
    exact ⟨derivation, .of_tokensFrom lexed, tree⟩
  · rintro ⟨derivation, lexes, tree⟩
    exact ⟨derivation.tokens, lexes 0, (parse_tokens derivation).trans tree⟩

namespace Grammar.Disjunction

/-- A derivation in parentheses. -/
def enclosed (derivation : Disjunction) : Unary :=
  .primary (.parenthesised derivation)

@[simp] theorem tokens_enclosed (derivation : Disjunction) :
    derivation.enclosed.tokens =
      .openParenthesis :: (derivation.tokens ++ [.closeParenthesis]) := by
  rw [enclosed, Unary.tokens, Primary.tokens]

@[simp] theorem tree_enclosed (derivation : Disjunction) :
    derivation.enclosed.tree = derivation.tree := by
  rw [enclosed, Unary.tree, Primary.tree]

end Grammar.Disjunction

/-- The operators that join two conditions. -/
inductive Connective where
  | and
  | or

namespace Connective

def token : Connective → Token
  | .and => .and
  | .or => .or

/-- The symbol that the operator doubles. -/
def symbol : Connective → Char
  | .and => '&'
  | .or => '|'

/-- Two parenthesised conditions around the operator. -/
def text (left right : String) : Connective → String
  | .and => "(" ++ left ++ ") && (" ++ right ++ ")"
  | .or => "(" ++ left ++ ") || (" ++ right ++ ")"

def expression (left right : Expression) : Connective → Expression
  | .and => .and left right
  | .or => .or left right

def derivation (left right : Grammar.Disjunction) :
    Connective → Grammar.Disjunction
  | .and => .single (.join (.single (.single left.enclosed))
      (.single right.enclosed))
  | .or => .join (.single (.single (.single left.enclosed)))
      (.single (.single right.enclosed))

private theorem toList_text (connective : Connective) (left right : String) :
    (connective.text left right).toList =
      '(' :: (left.toList ++ ')' :: ' ' :: connective.symbol ::
        connective.symbol :: ' ' :: '(' :: (right.toList ++ [')'])) := by
  cases connective <;> simp [text, symbol]

private theorem tokens_derivation (connective : Connective)
    (left right : Grammar.Disjunction) :
    (connective.derivation left right).tokens =
      .openParenthesis :: (left.tokens ++ .closeParenthesis ::
        connective.token :: .openParenthesis ::
          (right.tokens ++ [.closeParenthesis])) := by
  cases connective <;>
    simp [derivation, token, Grammar.Disjunction.tokens,
      Grammar.Conjunction.tokens, Grammar.Comparison.tokens]

private theorem tree_derivation (connective : Connective)
    {left right : Grammar.Disjunction} {first second : Expression}
    (leftTree : left.tree = .ok first) (rightTree : right.tree = .ok second) :
    (connective.derivation left right).tree =
      .ok (connective.expression first second) := by
  cases connective <;>
    simp [derivation, expression, Grammar.Disjunction.tree,
      Grammar.Conjunction.tree, Grammar.Comparison.tree, leftTree, rightTree]

private theorem lexes (connective : Connective) {left right : List Char}
    {leftTokens rightTokens : List Token}
    (leftLexes : Lexes left leftTokens)
    (rightLexes : Lexes right rightTokens) :
    Lexes ('(' :: (left ++ ')' :: ' ' :: connective.symbol ::
        connective.symbol :: ' ' :: '(' :: (right ++ [')'])))
      (.openParenthesis :: (leftTokens ++ .closeParenthesis ::
        connective.token :: .openParenthesis ::
          (rightTokens ++ [.closeParenthesis]))) := by
  have visible : ¬Text.isBlank connective.symbol = true := by
    cases connective <;> decide
  have read (offset : Nat) (rest : List Char) :
      readToken offset connective.symbol (connective.symbol :: rest) =
        .ok (connective.token, rest) := by
    cases connective <;> rfl
  exact leftLexes.parenthesised
    (.blank (by decide)
      (.token visible (fun offset => read offset _)
        (.blank (by decide) (rightLexes.parenthesised .nil))))

end Connective

/-- Parenthesised texts around an operator are read as the expression that joins
theirs. -/
theorem read_joined (connective : Connective) {left right : String}
    {first second : Expression} (leftRead : read left = .ok first)
    (rightRead : read right = .ok second) :
    read (connective.text left right) =
      .ok (connective.expression first second) := by
  obtain ⟨leftDerivation, leftLexes, leftTree⟩ := read_eq_ok_iff.mp leftRead
  obtain ⟨rightDerivation, rightLexes, rightTree⟩ :=
    read_eq_ok_iff.mp rightRead
  refine read_eq_ok_iff.mpr
    ⟨connective.derivation leftDerivation rightDerivation, ?_, ?_⟩
  · rw [Connective.toList_text, Connective.tokens_derivation]
    exact connective.lexes leftLexes rightLexes
  · exact connective.tree_derivation leftTree rightTree

private theorem read_negation {inner : String} {expression : Expression}
    (innerRead : read inner = .ok expression) :
    read ("!(" ++ inner ++ ")") = .ok (.not expression) := by
  obtain ⟨derivation, innerLexes, innerTree⟩ := read_eq_ok_iff.mp innerRead
  have lexes : Lexes ('!' :: '(' :: (inner.toList ++ [')']))
      (.not :: .openParenthesis ::
        (derivation.tokens ++ [.closeParenthesis])) :=
    (innerLexes.parenthesised .nil).token (by decide) fun _ => rfl
  refine read_eq_ok_iff.mpr
    ⟨.single (.single (.single (.not derivation.enclosed))), ?_, ?_⟩
  · simpa [Grammar.Disjunction.tokens, Grammar.Conjunction.tokens,
      Grammar.Comparison.tokens, Grammar.Unary.tokens] using lexes
  · simp [Grammar.Disjunction.tree, Grammar.Conjunction.tree,
      Grammar.Comparison.tree, Grammar.Unary.tree, innerTree]

namespace Connective

/-- The result of the first condition that decides alone. -/
def deciding : Connective → Bool
  | .and => false
  | .or => true

def result (left right : Bool) : Connective → Bool
  | .and => left && right
  | .or => left || right

private theorem result_deciding (connective : Connective) (right : Bool) :
    connective.result connective.deciding right = connective.deciding := by
  cases connective <;> rfl

private theorem result_open (connective : Connective) (right : Bool) :
    connective.result (!connective.deciding) right = right := by
  cases connective <;> rfl

private theorem evaluate_expression (connective : Connective)
    (lookup : String → Option String) {left right : Expression}
    {value : Operand} (evaluates : left.evaluate lookup = .ok value) :
    (connective.expression left right).evaluate lookup =
      if value.isTruthy = connective.deciding then .ok value
      else right.evaluate lookup := by
  cases connective <;> cases truth : value.isTruthy <;>
    simp [expression, Expression.evaluate, deciding, evaluates, truth]

end Connective

end Condition

namespace Rules

open CiPipeline.Sequencing

theorem evaluateCondition_eq_ok_iff {trail : Trail} {condition : String}
    {result : Bool} :
    evaluateCondition trail condition = .ok result ↔
      ∃ expression value, Condition.read condition = .ok expression ∧
        expression.evaluate trail.resolve = .ok value ∧
        value.isTruthy = result := by
  have unwrapped : evaluateCondition trail condition = .ok result ↔
      Condition.holds trail.resolve condition = .ok result := by
    unfold evaluateCondition
    cases Condition.holds trail.resolve condition <;> simp
  rw [unwrapped, Condition.holds, bind_eq_ok_iff]
  constructor
  · rintro ⟨expression, read, evaluated⟩
    obtain ⟨value, evaluation, truth⟩ := bind_eq_ok_iff.mp evaluated
    cases truth
    exact ⟨expression, value, read, evaluation, rfl⟩
  · rintro ⟨expression, value, read, evaluation, rfl⟩
    exact ⟨expression, read, bind_eq_ok_iff.mpr ⟨value, evaluation, rfl⟩⟩

section Combination

variable {trail : Trail} {left right : String} {leftHolds rightHolds : Bool}

/-- Where the first condition decides alone, the second is not evaluated. -/
theorem evaluateCondition_of_deciding (connective : Condition.Connective)
    (rightReads : ∃ expression, Condition.read right = .ok expression)
    (leftEvaluates :
      evaluateCondition trail left = .ok connective.deciding) :
    evaluateCondition trail (connective.text left right) =
      .ok connective.deciding := by
  obtain ⟨first, value, leftRead, leftValue, decides⟩ :=
    evaluateCondition_eq_ok_iff.mp leftEvaluates
  obtain ⟨second, rightRead⟩ := rightReads
  refine evaluateCondition_eq_ok_iff.mpr
    ⟨_, value, Condition.read_joined connective leftRead rightRead, ?_, decides⟩
  rw [connective.evaluate_expression _ leftValue, if_pos decides]

/-- Where the first condition leaves it open, the second one decides. -/
theorem evaluateCondition_of_open (connective : Condition.Connective)
    (leftEvaluates :
      evaluateCondition trail left = .ok (!connective.deciding))
    (rightEvaluates : evaluateCondition trail right = .ok rightHolds) :
    evaluateCondition trail (connective.text left right) = .ok rightHolds := by
  obtain ⟨first, value, leftRead, leftValue, truth⟩ :=
    evaluateCondition_eq_ok_iff.mp leftEvaluates
  obtain ⟨second, other, rightRead, rightValue, otherTruth⟩ :=
    evaluateCondition_eq_ok_iff.mp rightEvaluates
  have undecided : ¬ value.isTruthy = connective.deciding := by
    simp [truth]
  refine evaluateCondition_eq_ok_iff.mpr
    ⟨_, other, Condition.read_joined connective leftRead rightRead, ?_,
      otherTruth⟩
  rw [connective.evaluate_expression _ leftValue, if_neg undecided, rightValue]

private theorem evaluateCondition_joined (connective : Condition.Connective)
    (leftEvaluates : evaluateCondition trail left = .ok leftHolds)
    (rightEvaluates : evaluateCondition trail right = .ok rightHolds) :
    evaluateCondition trail (connective.text left right) =
      .ok (connective.result leftHolds rightHolds) := by
  by_cases decides : leftHolds = connective.deciding
  · obtain ⟨second, _, rightRead, _⟩ :=
      evaluateCondition_eq_ok_iff.mp rightEvaluates
    rw [decides] at leftEvaluates ⊢
    rw [connective.result_deciding]
    exact evaluateCondition_of_deciding connective ⟨second, rightRead⟩
      leftEvaluates
  · have leftOpen : leftHolds = !connective.deciding :=
      Bool.eq_not_of_ne decides
    rw [leftOpen] at leftEvaluates ⊢
    rw [connective.result_open]
    exact evaluateCondition_of_open connective leftEvaluates rightEvaluates

private theorem evaluateCondition_not
    (leftEvaluates : evaluateCondition trail left = .ok leftHolds) :
    evaluateCondition trail ("!(" ++ left ++ ")") = .ok (!leftHolds) := by
  obtain ⟨first, value, leftRead, leftValue, truth⟩ :=
    evaluateCondition_eq_ok_iff.mp leftEvaluates
  refine evaluateCondition_eq_ok_iff.mpr
    ⟨_, .boolean (!leftHolds), Condition.read_negation leftRead, ?_, rfl⟩
  simp [Condition.Expression.evaluate, leftValue, truth]

end Combination

/-- Readable conditions combine as texts the way their results combine, and
where the first decides alone, the second may even fail to evaluate. -/
theorem evaluateCondition_combines (trail : Trail) {left right : String}
    (rightReads : ∃ expression, Condition.read right = .ok expression) :
    (∀ leftHolds rightHolds,
      evaluateCondition trail left = .ok leftHolds →
      evaluateCondition trail right = .ok rightHolds →
        evaluateCondition trail ("(" ++ left ++ ") && (" ++ right ++ ")") =
            .ok (leftHolds && rightHolds) ∧
          evaluateCondition trail ("(" ++ left ++ ") || (" ++ right ++ ")") =
            .ok (leftHolds || rightHolds)) ∧
      (∀ leftHolds, evaluateCondition trail left = .ok leftHolds →
        evaluateCondition trail ("!(" ++ left ++ ")") = .ok (!leftHolds)) ∧
      (evaluateCondition trail left = .ok false →
        evaluateCondition trail ("(" ++ left ++ ") && (" ++ right ++ ")") =
          .ok false) ∧
      (evaluateCondition trail left = .ok true →
        evaluateCondition trail ("(" ++ left ++ ") || (" ++ right ++ ")") =
          .ok true) := by
  refine ⟨?_, ?_, ?_, ?_⟩
  · intro leftHolds rightHolds leftEvaluates rightEvaluates
    exact ⟨evaluateCondition_joined .and leftEvaluates rightEvaluates,
      evaluateCondition_joined .or leftEvaluates rightEvaluates⟩
  · intro leftHolds leftEvaluates
    exact evaluateCondition_not leftEvaluates
  · intro leftEvaluates
    exact evaluateCondition_of_deciding .and rightReads leftEvaluates
  · intro leftEvaluates
    exact evaluateCondition_of_deciding .or rightReads leftEvaluates

theorem evaluateCondition_combines_before_failure :
    (∃ expression, Condition.read "$A =~ $B" = .ok expression) ∧
      (evaluateCondition (Trail.root.bind [("A", "x"), ("B", "(")])
        "$A =~ $B").isOk = false ∧
      evaluateCondition (Trail.root.bind [("A", "x"), ("B", "(")]) "$A == 'y'" =
        .ok false ∧
      evaluateCondition (Trail.root.bind [("A", "x"), ("B", "(")])
        ("(" ++ "$A == 'y'" ++ ") && (" ++ "$A =~ $B" ++ ")") = .ok false := by
  have reads : ∃ expression, Condition.read "$A =~ $B" = .ok expression :=
    exists_of_isOk (by decide +kernel)
  have fails : (evaluateCondition (Trail.root.bind [("A", "x"), ("B", "(")])
      "$A =~ $B").isOk = false := by decide +kernel
  have refuted : evaluateCondition (Trail.root.bind [("A", "x"), ("B", "(")])
      "$A == 'y'" = .ok false := eq_ok_of_toOption (by decide +kernel)
  exact ⟨reads, fails, refuted,
    (evaluateCondition_combines _ reads).2.2.1 refuted⟩

end Rules

end CiPipeline
