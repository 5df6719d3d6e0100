import CiPipeline.Condition.Expression
import CiPipeline.Condition.Lexer

/-!
# The parser of conditions

The grammar binds negation tightest, then one comparison, then conjunction,
then disjunction:

* disjunction: conjunctions joined by `||`
* conjunction: comparisons joined by `&&`
* comparison: a unary, alone or compared once with a unary or a pattern
* unary: a negated unary or a primary
* primary: a parenthesised disjunction, a text, a constant or a variable

Every function returns the tokens that it leaves, fewer than it was given.  A
call is made with fewer tokens or to a function that binds tighter, so the
measure counts every token six times and the looseness of the function once.
-/

namespace CiPipeline.Condition

/-- An expression and the tokens left behind it, fewer than there were. -/
abbrev Parsed (tokens : List Token) :=
  { result : Expression × List Token // result.2.length < tokens.length }

/-- An expression and the tokens left behind it, no more than there were. -/
abbrev Continued (tokens : List Token) :=
  { result : Expression × List Token // result.2.length ≤ tokens.length }

/-- The pattern of a literal.  Flags other than these three have no
meaning here. -/
def literalPattern (source flags : String) : Except ConditionError Pattern :=
  let flags := flags.toList
  let settings : Pattern.Flags :=
    { anyCase := flags.contains 'i', multiLine := flags.contains 'm',
      dotMatchesNewline := flags.contains 's' }
  match Pattern.read settings source with
  | .ok pattern => .ok pattern
  | .error error => .error (.invalidPattern error)

/-- A comparison between two operands: equality or matching,
plain or negated. -/
structure Comparison where
  matching : Bool
  negated : Bool
  deriving DecidableEq, Repr

def Token.comparison? : Token → Option Comparison
  | .equal => some ⟨Bool.false, Bool.false⟩
  | .unequal => some ⟨Bool.false, Bool.true⟩
  | .isMatch => some ⟨Bool.true, Bool.false⟩
  | .isNoMatch => some ⟨Bool.true, Bool.true⟩
  | _ => none

/-- Ends a comparison, which may not be followed by another. -/
def endComparison (expression : Expression) (rest : List Token) :
    Except ConditionError (Continued rest) :=
  match rest with
  | [] => .ok ⟨(expression, []), Nat.le_refl _⟩
  | token :: rest =>
      match token.comparison? with
      | some _ => .error (.unexpectedToken token)
      | none => .ok ⟨(expression, token :: rest), Nat.le_refl _⟩

mutual

def disjunction (tokens : List Token) : Except ConditionError (Parsed tokens) :=
  match conjunction tokens with
  | .error error => .error error
  | .ok ⟨(left, rest), shorter⟩ =>
      match disjunctionRest left rest with
      | .error error => .error error
      | .ok ⟨result, bound⟩ => .ok ⟨result, Nat.lt_of_le_of_lt bound shorter⟩
  termination_by 6 * tokens.length + 5

/-- Parses the conjunctions that are joined to a disjunction. -/
def disjunctionRest (left : Expression) (tokens : List Token) :
    Except ConditionError (Continued tokens) :=
  match tokens with
  | .or :: behind =>
      match conjunction behind with
      | .error error => .error error
      | .ok ⟨(right, rest), shorter⟩ =>
          match disjunctionRest (.or left right) rest with
          | .error error => .error error
          | .ok ⟨result, bound⟩ =>
              .ok ⟨result, by simp only [List.length_cons] at *; omega⟩
  | tokens => .ok ⟨(left, tokens), Nat.le_refl _⟩
  termination_by 6 * tokens.length + 5
  decreasing_by all_goals grind

def conjunction (tokens : List Token) : Except ConditionError (Parsed tokens) :=
  match comparison tokens with
  | .error error => .error error
  | .ok ⟨(left, rest), shorter⟩ =>
      match conjunctionRest left rest with
      | .error error => .error error
      | .ok ⟨result, bound⟩ => .ok ⟨result, Nat.lt_of_le_of_lt bound shorter⟩
  termination_by 6 * tokens.length + 4

/-- Parses the comparisons that are joined to a conjunction. -/
def conjunctionRest (left : Expression) (tokens : List Token) :
    Except ConditionError (Continued tokens) :=
  match tokens with
  | .and :: behind =>
      match comparison behind with
      | .error error => .error error
      | .ok ⟨(right, rest), shorter⟩ =>
          match conjunctionRest (.and left right) rest with
          | .error error => .error error
          | .ok ⟨result, bound⟩ =>
              .ok ⟨result, by simp only [List.length_cons] at *; omega⟩
  | tokens => .ok ⟨(left, tokens), Nat.le_refl _⟩
  termination_by 6 * tokens.length + 4
  decreasing_by all_goals grind

def comparison (tokens : List Token) : Except ConditionError (Parsed tokens) :=
  match unary tokens with
  | .error error => .error error
  | .ok ⟨(left, []), shorter⟩ => .ok ⟨(left, []), shorter⟩
  | .ok ⟨(left, token :: behind), shorter⟩ =>
      match token.comparison? with
      | none => .ok ⟨(left, token :: behind), shorter⟩
      | some ⟨Bool.false, negated⟩ =>
          match unary behind with
          | .error error => .error error
          | .ok ⟨(right, rest), _⟩ =>
              match endComparison (.equals left right negated) rest with
              | .error error => .error error
              | .ok ⟨result, bound⟩ =>
                  .ok ⟨result, by simp only [List.length_cons] at *; omega⟩
      | some ⟨Bool.true, negated⟩ =>
          match behind with
          | .pattern source flags :: rest =>
              match literalPattern source flags with
              | .error error => .error error
              | .ok pattern =>
                  match endComparison
                      (.matchesPattern left pattern negated) rest with
                  | .error error => .error error
                  | .ok ⟨result, bound⟩ =>
                      .ok ⟨result, by simp only [List.length_cons] at *; omega⟩
          | behind =>
              match unary behind with
              | .error error => .error error
              | .ok ⟨(source, rest), _⟩ =>
                  match endComparison
                      (.matchesText left source negated) rest with
                  | .error error => .error error
                  | .ok ⟨result, bound⟩ =>
                      .ok ⟨result, by simp only [List.length_cons] at *; omega⟩
  termination_by 6 * tokens.length + 3
  decreasing_by all_goals grind

/-- Parses a negation or a primary. -/
def unary (tokens : List Token) : Except ConditionError (Parsed tokens) :=
  match tokens with
  | .not :: behind =>
      match unary behind with
      | .error error => .error error
      | .ok ⟨(inner, rest), shorter⟩ =>
          .ok ⟨(.not inner, rest), by simp only [List.length_cons] at *; omega⟩
  | tokens => primary tokens
  termination_by 6 * tokens.length + 2

def primary (tokens : List Token) : Except ConditionError (Parsed tokens) :=
  match tokens with
  | .openParenthesis :: behind =>
      match disjunction behind with
      | .error error => .error error
      | .ok ⟨(_, []), _⟩ => .error .unexpectedEnd
      | .ok ⟨(inner, .closeParenthesis :: rest), shorter⟩ =>
          .ok ⟨(inner, rest), by simp only [List.length_cons] at *; omega⟩
      | .ok ⟨(_, token :: _), _⟩ => .error (.unexpectedToken token)
  | .text value :: rest => .ok ⟨(.literal (.text value), rest), by simp⟩
  | .null :: rest => .ok ⟨(.literal .null, rest), by simp⟩
  | .true :: rest => .ok ⟨(.literal (.boolean Bool.true), rest), by simp⟩
  | .false :: rest => .ok ⟨(.literal (.boolean Bool.false), rest), by simp⟩
  | .variable name :: rest => .ok ⟨(.variable name, rest), by simp⟩
  | token :: _ => .error (.unexpectedToken token)
  | [] => .error .unexpectedEnd
  termination_by 6 * tokens.length + 1

end

def parse (tokens : List Token) : Except ConditionError Expression :=
  match disjunction tokens with
  | .error error => .error error
  | .ok ⟨(expression, []), _⟩ => .ok expression
  | .ok ⟨(_, token :: _), _⟩ => .error (.unexpectedToken token)

def read (text : String) : Except ConditionError Expression := do
  parse (← tokenize text)

/-- Whether a condition holds under the values of its variables. -/
def holds (lookup : String → Option String) (text : String) :
    Except ConditionError Bool := do
  let expression ← read text
  return (← expression.evaluate lookup).isTruthy

end CiPipeline.Condition
