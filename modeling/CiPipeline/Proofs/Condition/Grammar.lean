import CiPipeline.Condition.Parser

/-!
# Derivations of conditions

A derivation spells a list of tokens and stands for an expression.
Repeated `||` and `&&` are grouped to the left, and a comparison compares
two operands once.
-/

namespace CiPipeline.Condition.Grammar

mutual

/-- Conjunctions joined by `||`. -/
inductive Disjunction where
  | single (only : Conjunction)
  | join (left : Disjunction) (right : Conjunction)

/-- Comparisons joined by `&&`. -/
inductive Conjunction where
  | single (only : Comparison)
  | join (left : Conjunction) (right : Comparison)

/-- A unary, alone or compared once with a unary or a pattern. -/
inductive Comparison where
  | single (only : Unary)
  | equality (left : Unary) (negated : Bool) (right : Unary)
  | matching (subject : Unary) (negated : Bool) (pattern : PatternOperand)

/-- A literal pattern, or a unary whose text is read as one. -/
inductive PatternOperand where
  | literal (source flags : String)
  | dynamic (source : Unary)

/-- A primary behind any number of negations. -/
inductive Unary where
  | not (inner : Unary)
  | primary (only : Primary)

/-- A parenthesised disjunction, a text, a constant or a variable. -/
inductive Primary where
  | parenthesised (inner : Disjunction)
  | text (value : String)
  | null
  | true
  | false
  | variable (name : String)

end

/-- The token of an equality. -/
def equalityToken (negated : Bool) : Token :=
  if negated then .unequal else .equal

/-- The token of a match. -/
def matchToken (negated : Bool) : Token :=
  if negated then .isNoMatch else .isMatch

mutual

/-- The tokens that a derivation spells. -/
def Disjunction.tokens : Disjunction → List Token
  | .single only => only.tokens
  | .join left right => left.tokens ++ .or :: right.tokens

@[inherit_doc Disjunction.tokens]
def Conjunction.tokens : Conjunction → List Token
  | .single only => only.tokens
  | .join left right => left.tokens ++ .and :: right.tokens

@[inherit_doc Disjunction.tokens]
def Comparison.tokens : Comparison → List Token
  | .single only => only.tokens
  | .equality left negated right =>
      left.tokens ++ equalityToken negated :: right.tokens
  | .matching subject negated pattern =>
      subject.tokens ++ matchToken negated :: pattern.tokens

@[inherit_doc Disjunction.tokens]
def PatternOperand.tokens : PatternOperand → List Token
  | .literal source flags => [.pattern source flags]
  | .dynamic source => source.tokens

@[inherit_doc Disjunction.tokens]
def Unary.tokens : Unary → List Token
  | .not inner => .not :: inner.tokens
  | .primary only => only.tokens

@[inherit_doc Disjunction.tokens]
def Primary.tokens : Primary → List Token
  | .parenthesised inner =>
      .openParenthesis :: (inner.tokens ++ [.closeParenthesis])
  | .text value => [.text value]
  | .null => [.null]
  | .true => [.true]
  | .false => [.false]
  | .variable name => [.variable name]

end

mutual

/-- The expression of a derivation.  It fails with the first literal that
is no pattern. -/
def Disjunction.tree : Disjunction → Except ConditionError Expression
  | .single only => only.tree
  | .join left right => do return .or (← left.tree) (← right.tree)

@[inherit_doc Disjunction.tree]
def Conjunction.tree : Conjunction → Except ConditionError Expression
  | .single only => only.tree
  | .join left right => do return .and (← left.tree) (← right.tree)

@[inherit_doc Disjunction.tree]
def Comparison.tree : Comparison → Except ConditionError Expression
  | .single only => only.tree
  | .equality left negated right => do
      return .equals (← left.tree) (← right.tree) negated
  | .matching subject negated pattern => do
      pattern.tree (← subject.tree) negated

/-- The match of a subject with a pattern. -/
def PatternOperand.tree (subject : Expression) (negated : Bool) :
    PatternOperand → Except ConditionError Expression
  | .literal source flags => do
      return .matchesPattern subject (← literalPattern source flags) negated
  | .dynamic source => do return .matchesText subject (← source.tree) negated

@[inherit_doc Disjunction.tree]
def Unary.tree : Unary → Except ConditionError Expression
  | .not inner => do return .not (← inner.tree)
  | .primary only => only.tree

@[inherit_doc Disjunction.tree]
def Primary.tree : Primary → Except ConditionError Expression
  | .parenthesised inner => inner.tree
  | .text value => .ok (.literal (.text value))
  | .null => .ok (.literal .null)
  | .true => .ok (.literal (.boolean Bool.true))
  | .false => .ok (.literal (.boolean Bool.false))
  | .variable name => .ok (.variable name)

end

end CiPipeline.Condition.Grammar
