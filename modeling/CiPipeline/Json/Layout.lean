import CiPipeline.Node

/-!
# Data interchange in lines

A node with one item or entry per line, two columns further in on each level.
-/

namespace CiPipeline

namespace Json

/-- The start of a line on some level. -/
def newLine (level : Nat) : String := "\n".pushn ' ' (2 * level)

end Json

namespace Node

mutual

/-- The interchange text of a node in lines. -/
def toJsonLines (level : Nat) : Node → String
  | .sequence [] => "[]"
  | .sequence items =>
      "[" ++ itemsToJsonLines (level + 1) items ++ Json.newLine level ++ "]"
  | .mapping [] => "\x7b\x7d"
  | .mapping entries =>
      "\x7b" ++ entriesToJsonLines (level + 1) entries ++
        Json.newLine level ++ "\x7d"
  | .reference [] => "[]"
  | .reference pointer =>
      "[" ++ itemsToJsonLines (level + 1) pointer ++ Json.newLine level ++ "]"
  | .null => "null"
  | .boolean value => if value then "true" else "false"
  | .number value => value.interchangeText
  | .text value => Json.quote value

def itemsToJsonLines (level : Nat) : List Node → String
  | [] => ""
  | [item] => Json.newLine level ++ item.toJsonLines level
  | item :: rest =>
      Json.newLine level ++ item.toJsonLines level ++ "," ++
        itemsToJsonLines level rest

def entriesToJsonLines (level : Nat) : List (String × Node) → String
  | [] => ""
  | [(key, value)] =>
      Json.newLine level ++ Json.quote key ++ ": " ++ value.toJsonLines level
  | (key, value) :: rest =>
      Json.newLine level ++ Json.quote key ++ ": " ++ value.toJsonLines level ++
        "," ++ entriesToJsonLines level rest

end

end Node

end CiPipeline
