import CiPipeline.Node
import CiPipeline.Text.Characters
import CiPipeline.Variables

/-!
# Expansion of variables in texts

A dollar sign, an opening brace if one follows, the word characters after it and
a closing brace if one follows are replaced by the value of the variable that
the word names.  Inserted values are not expanded again.
-/

namespace CiPipeline

open CiPipeline.Text

namespace Expansion

/-- Drops a character in front, if it stands there. -/
def dropOne (character : Char) : List Char → List Char
  | [] => []
  | first :: rest => if first = character then rest else first :: rest

private theorem length_dropOne_le (character : Char) (text : List Char) :
    (dropOne character text).length ≤ text.length := by
  cases text with
  | nil => simp [dropOne]
  | cons first rest =>
      simp only [dropOne]
      split <;> simp

/-- Splits the name of a variable, with its braces, off the text behind a
dollar sign. -/
def splitName (text : List Char) : List Char × List Char :=
  let inner := dropOne '\x7b' text
  (inner.takeWhile isWordCharacter,
    dropOne '\x7d' (inner.dropWhile isWordCharacter))

theorem length_splitName_le (text : List Char) :
    (splitName text).2.length ≤ text.length :=
  Nat.le_trans (length_dropOne_le _ _)
    (Nat.le_trans (List.dropWhile_sublist _).length_le (length_dropOne_le _ _))

/-- Replaces the variables in a text; a variable without a value is
replaced by nothing. -/
def expand (bindings : Variables) : List Char → List Char
  | [] => []
  | character :: rest =>
      if character = '$' then
        have := length_splitName_le rest
        let value :=
          (bindings.lookup (String.ofList (splitName rest).1)).getD ""
        value.toList ++ expand bindings (splitName rest).2
      else character :: expand bindings rest
  termination_by text => text.length

def expandText (bindings : Variables) (text : String) : String :=
  String.ofList (expand bindings text.toList)

/-- Replaces the variables in a text node; any other node stays as it is. -/
def expandNode (bindings : Variables) : Node → Node
  | .text value => .text (expandText bindings value)
  | node => node

/-- Replaces the variables in the values of other variables. -/
def expandValues (bindings : Variables) (own : Variables) : Variables :=
  own.map fun (name, value) => (name, expandText bindings value)

end Expansion

end CiPipeline
