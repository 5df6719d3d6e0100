import CiPipeline.Node
import CiPipeline.Text.Lines
import CiPipeline.Yaml.Writer

/-!
# Document nodes as YAML

The node for which a YAML value stands, and back.  Keys become texts; a sequence
with the tag `!reference` becomes a reference, and other tags are dropped.
-/

namespace CiPipeline

namespace Yaml.Value

/-- The text for which a key stands.  A key that is no scalar stands for the
text of a document of its own. -/
def keyText : Value → String
  | .text value => value
  | .number value => value.text
  | .boolean value => if value then "true" else "false"
  | .null => "null"
  | key => String.ofList (Text.trimEnd key.toText.toList)

/-- The name of the tag of references. -/
def referenceTag : String := "reference"

/-- Makes a sequence under the tag of references a reference. -/
def applyTag (tag : String) (node : Node) : Node :=
  match node with
  | .sequence pointer =>
      if tag == referenceTag then .reference pointer else node
  | node => node

mutual

def toNode : Value → Node
  | .null => .null
  | .boolean value => .boolean value
  | .number value => .number value
  | .text value => .text value
  | .sequence items => .sequence (toNodes items)
  | .mapping entries => .mapping (Entries.ofPairs (toPairs entries))
  | .tagged tag value => applyTag tag value.toNode

def toNodes : List Value → List Node
  | [] => []
  | value :: rest => value.toNode :: toNodes rest

/-- The pairs for which entries stand. -/
def toPairs : List (Value × Value) → List (String × Node)
  | [] => []
  | (key, value) :: rest => (keyText key, value.toNode) :: toPairs rest

end

end Yaml.Value

namespace Node

mutual

/-- The value that stands for a node.  A reference stands for its pointer. -/
def toYaml : Node → Yaml.Value
  | .null => .null
  | .boolean value => .boolean value
  | .number value => .number value
  | .text value => .text value
  | .sequence items => .sequence (itemsToYaml items)
  | .mapping entries => .mapping (entriesToYaml entries)
  | .reference pointer => .sequence (itemsToYaml pointer)

def itemsToYaml : List Node → List Yaml.Value
  | [] => []
  | item :: rest => item.toYaml :: itemsToYaml rest

/-- The entries that stand for pairs. -/
def entriesToYaml : List (String × Node) → List (Yaml.Value × Yaml.Value)
  | [] => []
  | (key, value) :: rest => (.text key, value.toYaml) :: entriesToYaml rest

end

def ofYaml (text : String) : Except YamlError Node :=
  (Yaml.Value.ofText text).map Yaml.Value.toNode

end Node

end CiPipeline
