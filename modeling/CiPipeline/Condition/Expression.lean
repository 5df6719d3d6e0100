import CiPipeline.Condition.Token
import CiPipeline.Pattern.Matching
import CiPipeline.Pattern.Reader

/-!
# Expressions of conditions

The value of a condition is null, a boolean or a text.  Conjunction and
disjunction yield one of their operands, and every other operator
yields a boolean.
-/

namespace CiPipeline.Condition

inductive Operand where
  | null
  | boolean (value : Bool)
  | text (value : String)
  deriving DecidableEq, Repr, Inhabited

namespace Operand

/-- Null, false and the empty text do not hold; everything else does. -/
def isTruthy : Operand → Bool
  | .null => false
  | .boolean value => value
  | .text value => !value.isEmpty

/-- The text that is matched against a pattern; null has none. -/
def text? : Operand → Option String
  | .null => none
  | .boolean value => some (if value then "true" else "false")
  | .text value => some value

end Operand

inductive Expression where
  | literal (value : Operand)
  | variable (name : String)
  | not (inner : Expression)
  | and (left right : Expression)
  | or (left right : Expression)
  | equals (left right : Expression) (negated : Bool)
  | matchesPattern (subject : Expression) (pattern : Pattern) (negated : Bool)
  | matchesText (subject source : Expression) (negated : Bool)
  deriving Inhabited

namespace Expression

/-- Evaluates an expression; a variable without a value is null.  A null subject
or pattern never matches, whichever the polarity, and a pattern given as a text
is read without flags. -/
def evaluate (lookup : String → Option String) :
    Expression → Except ConditionError Operand
  | .literal value => .ok value
  | .variable name => .ok ((lookup name).elim .null .text)
  | .not inner => do return .boolean (!(← inner.evaluate lookup).isTruthy)
  | .and left right => do
      let value ← left.evaluate lookup
      if value.isTruthy then right.evaluate lookup else return value
  | .or left right => do
      let value ← left.evaluate lookup
      if value.isTruthy then return value else right.evaluate lookup
  | .equals left right negated => do
      let leftValue ← left.evaluate lookup
      let rightValue ← right.evaluate lookup
      return .boolean (decide (leftValue = rightValue) != negated)
  | .matchesPattern subject pattern negated => do
      match (← subject.evaluate lookup).text? with
      | none => return .boolean false
      | some text => return .boolean (pattern.isMatch text != negated)
  | .matchesText subject source negated => do
      match (← subject.evaluate lookup).text? with
      | none => return .boolean false
      | some text =>
          match (← source.evaluate lookup).text? with
          | none => return .boolean false
          | some source =>
              match Pattern.read {} source with
              | .error error => .error (.invalidPattern error)
              | .ok pattern => return .boolean (pattern.isMatch text != negated)

end Expression

end CiPipeline.Condition
