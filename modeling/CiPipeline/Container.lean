import CiPipeline.Rules
import CiPipeline.Text.Quoted

/-!
# Images and services

The container image in which a job runs, and the services that run beside it.
-/

namespace CiPipeline

open CiPipeline.Text

/-- The image in which a job runs. -/
structure Image where
  name : String
  entrypoint : Option (List String)
  deriving DecidableEq, Repr, Inhabited

/-- A service that runs beside a job. -/
structure Service where
  name : String
  entrypoint : Option (List String)
  command : Option (List String)
  alias_ : Option String
  deriving DecidableEq, Repr, Inhabited

namespace Node

/-- How an unexpected node is named. -/
def describe : Node → String
  | .null => "null"
  | .boolean value => s!"boolean \x60{value}\x60"
  | .number (.integer value) => s!"integer \x60{value}\x60"
  | .number value => s!"floating point \x60{value.interchangeText}\x60"
  | .text value => "string " ++ showText value
  | .sequence _ => "sequence"
  | .mapping _ => "map"
  | .reference _ => "sequence"

/-- What is wrong with a node of an unexpected kind. -/
def unexpected (node : Node) (expected : String) : String :=
  s!"invalid type: {node.describe}, expected {expected}"

def readText : Node → Except String String
  | .text value => .ok value
  | node => .error (node.unexpected "a string")

/-- Reads a text or null. -/
def readOptionalText : Node → Except String (Option String)
  | .null => .ok none
  | node => node.readText.map some

/-- Reads null, a text, or a list of texts. -/
def readWords : Node → Except String (Option (List String))
  | .null => .ok none
  | .text value => .ok (some [value])
  | .sequence items =>
      match items.mapM Node.text? with
      | some words => .ok (some words)
      | none =>
          .error "data did not match any variant of untagged enum OneOrMany"
  | _ => .error "data did not match any variant of untagged enum OneOrMany"

end Node

namespace Container

/-- The fields of an image or service that have been read so far. -/
structure Draft where
  name : Option String := none
  entrypoint : Option (List String) := none
  command : Option (List String) := none
  alias_ : Option String := none

def readField (draft : Draft) (field : String) (value : Node) :
    Except String Draft :=
  match field with
  | "name" => do return { draft with name := some (← value.readText) }
  | "entrypoint" => do return { draft with entrypoint := ← value.readWords }
  | "command" => do return { draft with command := ← value.readWords }
  | "alias" => do return { draft with alias_ := ← value.readOptionalText }
  | _ => .ok draft

/-- Reads the given fields from a mapping, by name, or from a list, in their
order.  A kind is what is expected in messages. -/
def readDraft (kind : String) (fields : List String) :
    Node → Except String Draft
  | .mapping entries => do
      let present := fields.filterMap fun field =>
        (entries.lookup field).map fun value => (field, value)
      let sorted :=
        present.mergeSort fun left right => decide (left.1 ≤ right.1)
      let draft ← sorted.foldlM
        (fun draft (field, value) => readField draft field value) {}
      if draft.name.isNone then .error "missing field \x60name\x60"
      else return draft
  | .sequence items => do
      if items.isEmpty then
        .error (s!"invalid length 0, expected struct {kind} " ++
          s!"with {fields.length} elements")
      let draft ← (fields.zip items).foldlM
        (fun draft (field, value) => readField draft field value) {}
      if items.length > fields.length then
        .error
          s!"invalid length {items.length}, expected fewer elements in array"
      else return draft
  | node => .error (node.unexpected s!"struct {kind}")

end Container

/-- Reads an image from its normal form. -/
def Image.ofNode (node : Node) : Except String Image := do
  let draft ← Container.readDraft "Image" ["name", "entrypoint"] node
  return { name := draft.name.getD "", entrypoint := draft.entrypoint }

/-- Reads a service from its normal form. -/
def Service.ofNode (node : Node) : Except String Service := do
  let draft ← Container.readDraft "Service"
    ["name", "entrypoint", "command", "alias"] node
  return { name := draft.name.getD "", entrypoint := draft.entrypoint,
           command := draft.command,
           alias_ := draft.alias_ }

def Service.ofNodes : Node → Except String (List Service)
  | .sequence items => items.mapM Service.ofNode
  | node => .error (node.unexpected "a sequence")

end CiPipeline
