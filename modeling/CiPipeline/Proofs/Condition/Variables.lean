import CiPipeline.Proofs.Condition.Parsing
import CiPipeline.Rules

/-!
# Variables of conditions

The value of a condition depends on the variables that its text names, and
on no others.  What looks like a variable inside a quoted text or a
pattern names none.
-/

namespace CiPipeline

namespace Condition

open CiPipeline.Sequencing

/-- The name of the variable that a token stands for. -/
def Token.name? : Token → Option String
  | .variable name => some name
  | _ => none

/-- The names of the variables that the text of a condition refers to.  A text
that cannot be split into tokens refers to none. -/
def names (text : String) : List String :=
  match tokenize text with
  | .ok tokens => tokens.filterMap Token.name?
  | .error _ => []

private theorem names_of_tokenize {text : String} {tokens : List Token}
    (split : tokenize text = .ok tokens) :
    names text = tokens.filterMap Token.name? := by
  rw [names, split]

/-- What looks like a variable inside of a text or a pattern is
part of these. -/
example : names "$A =~ /^$B/ && '$C' != ${D}" = ["A", "D"] := by decide +kernel

/-! ## The variables of an expression -/

/-- The names of the variables in an expression, from left to right. -/
def Expression.names : Expression → List String
  | .literal _ => []
  | .variable name => [name]
  | .not inner => inner.names
  | .and left right => left.names ++ right.names
  | .or left right => left.names ++ right.names
  | .equals left right _ => left.names ++ right.names
  | .matchesPattern subject _ _ => subject.names
  | .matchesText subject source _ => subject.names ++ source.names

/-- An expression has the same value, or fails in the same way, where its
variables have the same values. -/
theorem Expression.evaluate_agree {expression : Expression}
    {first second : String → Option String}
    (agree : ∀ name ∈ expression.names, first name = second name) :
    expression.evaluate first = expression.evaluate second := by
  induction expression with
  | literal value => rfl
  | «variable» name =>
      have same : first name = second name :=
        agree name (List.mem_singleton_self name)
      rw [evaluate, evaluate, same]
  | not inner innerAgree =>
      rw [evaluate, evaluate, innerAgree agree]
  | and left right leftAgree rightAgree =>
      obtain ⟨onLeft, onRight⟩ := List.forall_mem_append.mp agree
      rw [evaluate, evaluate, leftAgree onLeft, rightAgree onRight]
  | or left right leftAgree rightAgree =>
      obtain ⟨onLeft, onRight⟩ := List.forall_mem_append.mp agree
      rw [evaluate, evaluate, leftAgree onLeft, rightAgree onRight]
  | equals left right negated leftAgree rightAgree =>
      obtain ⟨onLeft, onRight⟩ := List.forall_mem_append.mp agree
      rw [evaluate, evaluate, leftAgree onLeft, rightAgree onRight]
  | matchesPattern subject pattern negated subjectAgree =>
      rw [evaluate, evaluate, subjectAgree agree]
  | matchesText subject source negated subjectAgree sourceAgree =>
      obtain ⟨onSubject, onSource⟩ := List.forall_mem_append.mp agree
      rw [evaluate, evaluate, subjectAgree onSubject, sourceAgree onSource]

/-! ## Derivations name the variables of their expressions -/

namespace Grammar

mutual

/-- The variables of an expression are those that its derivation spells. -/
theorem Disjunction.names_tree {derivation : Disjunction}
    {expression : Expression} (tree : derivation.tree = .ok expression) :
    expression.names = derivation.tokens.filterMap Token.name? := by
  cases derivation with
  | single only => exact only.names_tree tree
  | join left right =>
      obtain ⟨leftTree, onLeft, tree⟩ := bind_eq_ok_iff.mp tree
      obtain ⟨rightTree, onRight, tree⟩ := bind_eq_ok_iff.mp tree
      cases tree
      rw [Expression.names, left.names_tree onLeft, right.names_tree onRight,
        Disjunction.tokens, List.filterMap_append]
      rfl

private theorem Conjunction.names_tree {derivation : Conjunction}
    {expression : Expression} (tree : derivation.tree = .ok expression) :
    expression.names = derivation.tokens.filterMap Token.name? := by
  cases derivation with
  | single only => exact only.names_tree tree
  | join left right =>
      obtain ⟨leftTree, onLeft, tree⟩ := bind_eq_ok_iff.mp tree
      obtain ⟨rightTree, onRight, tree⟩ := bind_eq_ok_iff.mp tree
      cases tree
      rw [Expression.names, left.names_tree onLeft, right.names_tree onRight,
        Conjunction.tokens, List.filterMap_append]
      rfl

private theorem Comparison.names_tree {derivation : Comparison}
    {expression : Expression} (tree : derivation.tree = .ok expression) :
    expression.names = derivation.tokens.filterMap Token.name? := by
  cases derivation with
  | single only => exact only.names_tree tree
  | equality left negated right =>
      obtain ⟨leftTree, onLeft, tree⟩ := bind_eq_ok_iff.mp tree
      obtain ⟨rightTree, onRight, tree⟩ := bind_eq_ok_iff.mp tree
      cases tree
      rw [Expression.names, left.names_tree onLeft, right.names_tree onRight,
        Comparison.tokens, List.filterMap_append]
      cases negated <;> rfl
  | matching subject negated pattern =>
      obtain ⟨subjectTree, onSubject, tree⟩ := bind_eq_ok_iff.mp tree
      rw [pattern.names_tree tree, subject.names_tree onSubject,
        Comparison.tokens, List.filterMap_append]
      cases negated <;> rfl

private theorem PatternOperand.names_tree {derivation : PatternOperand}
    {subject expression : Expression} {negated : Bool}
    (tree : derivation.tree subject negated = .ok expression) :
    expression.names =
      subject.names ++ derivation.tokens.filterMap Token.name? := by
  cases derivation with
  | literal source flags =>
      obtain ⟨pattern, _, tree⟩ := bind_eq_ok_iff.mp tree
      cases tree
      exact (List.append_nil _).symm
  | dynamic source =>
      obtain ⟨sourceTree, onSource, tree⟩ := bind_eq_ok_iff.mp tree
      cases tree
      rw [Expression.names, source.names_tree onSource, PatternOperand.tokens]

private theorem Unary.names_tree {derivation : Unary} {expression : Expression}
    (tree : derivation.tree = .ok expression) :
    expression.names = derivation.tokens.filterMap Token.name? := by
  cases derivation with
  | not inner =>
      obtain ⟨innerTree, onInner, tree⟩ := bind_eq_ok_iff.mp tree
      cases tree
      rw [Expression.names, inner.names_tree onInner, Unary.tokens]
      rfl
  | primary only => exact only.names_tree tree

private theorem Primary.names_tree {derivation : Primary}
    {expression : Expression} (tree : derivation.tree = .ok expression) :
    expression.names = derivation.tokens.filterMap Token.name? := by
  cases derivation with
  | parenthesised inner =>
      rw [inner.names_tree tree, Primary.tokens, List.filterMap_cons,
        List.filterMap_append]
      exact (List.append_nil _).symm
  | _ =>
      cases tree
      rfl

end

end Grammar

/-- A text names the variables of the expression that it is read as. -/
theorem names_of_read {text : String} {expression : Expression}
    (success : read text = .ok expression) : expression.names = names text := by
  obtain ⟨tokens, split, parsed⟩ := bind_eq_ok_iff.mp success
  obtain ⟨derivation, rfl, tree⟩ := parse_spelled parsed
  rw [derivation.names_tree tree, names_of_tokenize split]

/-- Whether a condition holds, or why that cannot be told, depends on its
variables only. -/
theorem holds_agree {text : String} {first second : String → Option String}
    (agree : ∀ name ∈ names text, first name = second name) :
    holds first text = holds second text := by
  unfold holds
  cases success : read text with
  | error error => rfl
  | ok expression =>
      rw [← names_of_read success] at agree
      rw [ok_bind, ok_bind, expression.evaluate_agree agree]

theorem holds_of_single {text name value : String}
    {lookup : String → Option String} (single : names text = [name])
    (bound : lookup name = some value) :
    holds lookup text = holds (fun _ => some value) text := by
  have agree : ∀ other ∈ names text, lookup other = some value := by
    simp [single, bound]
  exact holds_agree agree

end Condition

namespace Rules

/-- In two contexts that agree on the variables of a condition, it holds in both
or in neither, or its evaluation fails in both with the same message. -/
theorem evaluateCondition_agree {condition : String} {first second : Trail}
    (agree : ∀ name ∈ Condition.names condition,
      first.resolve name = second.resolve name) :
    (∃ result, evaluateCondition first condition = .ok result ∧
      evaluateCondition second condition = .ok result) ∨
    ∃ failure other, evaluateCondition first condition = .error failure ∧
      evaluateCondition second condition = .error other ∧
      failure.message = other.message := by
  have same := Condition.holds_agree agree
  unfold evaluateCondition
  rw [same]
  cases Condition.holds second.resolve condition with
  | ok result => exact .inl ⟨result, rfl, rfl⟩
  | error error => exact .inr ⟨_, _, rfl, rfl, rfl⟩

/-- A variable that stands in a quoted text only may differ, and scopes may be
layered otherwise. -/
theorem evaluateCondition_agree_layered :
    ∃ first second : Trail, first.resolve "C" ≠ second.resolve "C" ∧
      (∀ name ∈ Condition.names "$A =~ $P && $D != '$C'",
        first.resolve name = second.resolve name) ∧
      evaluateCondition first "$A =~ $P && $D != '$C'" = .ok true ∧
      evaluateCondition second "$A =~ $P && $D != '$C'" = .ok true := by
  have agree : ∀ name ∈ Condition.names "$A =~ $P && $D != '$C'",
      (Trail.root.bind [("A", "v1"), ("P", "^v"), ("C", "x")]).resolve name =
        (((Trail.root.bind [("A", "other"), ("P", "^v")]).descend "job").bind
          [("A", "v1")]).resolve name := by
    have named : Condition.names "$A =~ $P && $D != '$C'" =
      ["A", "P", "D"] := by decide +kernel
    rw [named]
    decide
  have holds : evaluateCondition (Trail.root.bind
    [("A", "v1"), ("P", "^v"), ("C", "x")]) "$A =~ $P && $D != '$C'" =
    .ok true := Sequencing.eq_ok_of_toOption (by decide +kernel)
  refine ⟨_, _, by decide, agree, holds, ?_⟩
  rcases evaluateCondition_agree agree with
    ⟨result, one, other⟩ | ⟨_, _, failed, _⟩
  · rw [holds] at one
    cases one
    exact other
  · rw [holds] at failed
    cases failed

end Rules

end CiPipeline
