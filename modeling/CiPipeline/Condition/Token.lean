import CiPipeline.Pattern.Basic

/-!
# Tokens of conditions

A condition decides whether a rule applies.  Its tokens are parentheses,
operators, the three constants, quoted texts, variables and patterns.
-/

namespace CiPipeline.Condition

inductive Token where
  | openParenthesis
  | closeParenthesis
  | and
  | or
  | not
  | equal
  | unequal
  | isMatch
  | isNoMatch
  | null
  | true
  | false
  | text (value : String)
  | variable (name : String)
  | pattern (source flags : String)
  deriving DecidableEq, Repr

namespace Token

/-- How a token is named in a message. -/
def describe : Token → String
  | .openParenthesis => "'('"
  | .closeParenthesis => "')'"
  | .and => "'&&'"
  | .or => "'||'"
  | .not => "'!'"
  | .equal => "'=='"
  | .unequal => "'!='"
  | .isMatch => "'=~'"
  | .isNoMatch => "'!~'"
  | .null => "null"
  | .true => "true"
  | .false => "false"
  | .text value => s!"string '{value}'"
  | .variable name => s!"variable ${name}"
  | .pattern source flags => s!"regex /{source}/{flags}"

end Token

end CiPipeline.Condition

namespace CiPipeline

/-- Why a condition cannot be evaluated.  Offsets count the bytes of the
encoded text. -/
inductive ConditionError where
  | unexpectedCharacter (character : Char) (offset : Nat)
  | unterminatedText (offset : Nat)
  | unterminatedPattern (offset : Nat)
  | unterminatedVariable (offset : Nat)
  | unknownFlag (flag : Char) (offset : Nat)
  | unknownWord (word : String) (offset : Nat)
  | unexpectedToken (token : Condition.Token)
  | unexpectedEnd
  | invalidPattern (error : PatternError)
  deriving DecidableEq, Repr

def ConditionError.message : ConditionError → String
  | .unexpectedCharacter character offset =>
      s!"unexpected character '{character}' at offset {offset}"
  | .unterminatedText offset =>
      s!"unterminated string starting at offset {offset}"
  | .unterminatedPattern offset =>
      s!"unterminated regular expression starting at offset {offset}"
  | .unterminatedVariable offset =>
      s!"unterminated variable starting at offset {offset}"
  | .unknownFlag flag offset =>
      s!"unknown regular expression flag '{flag}' at offset {offset}"
  | .unknownWord word offset => s!"unexpected word '{word}' at offset {offset}"
  | .unexpectedToken token => s!"unexpected {token.describe}"
  | .unexpectedEnd => "unexpected end of expression"
  | .invalidPattern error => error.message

end CiPipeline
