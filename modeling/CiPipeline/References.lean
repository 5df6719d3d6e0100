import CiPipeline.Text.Lines
import CiPipeline.Trail

/-!
# Resolution of references

A reference is replaced by the value that its pointer names in the document as
it was before any reference was resolved.  A value that holds references itself
is resolved in turn, through a bounded number of hops.
-/

namespace CiPipeline.References

open CiPipeline.Text

/-- The number of values holding references that may be followed one
from another. -/
def hopLimit : Nat := 10

def greatestIndex : Nat := Nat.pow 2 64 - 1

/-- The child of a node under a segment of a pointer: a key of a mapping, or an
index of a sequence.  A null child counts as absent. -/
def child? (node : Node) (segment : String) : Option Node :=
  let found := match node with
    | .mapping entries => entries.lookup segment
    | .sequence items => do items[← readNatural? greatestIndex segment.toList]?
    | _ => none
  found.filter fun value => !value.isNull

/-- Follows a pointer from a node. -/
def follow (trail : Trail) (node : Node) : List Node → Except Failure Node
  | [] => .ok node
  | segment :: rest =>
      match segment.scalar? with
      | none => .error (trail.fail .undefinedPointer)
      | some segment =>
          match child? node segment with
          | none => .error (trail.fail (.undefinedReference segment))
          | some value => follow trail value rest

def isSequence : Node → Bool
  | .sequence _ => true
  | _ => false

/-- The items that stand in the place of one item of a flattened list: those of
a nested list, or the item itself.  A null has no place beside nested lists. -/
def splice (trail : Trail) : Node → Except Failure (List Node)
  | .null => .error (trail.fail .undefinedExpansion)
  | .sequence inner => .ok inner
  | item => .ok [item]

/-- Splices nested lists into a list, one level deep. -/
def flattenItems (trail : Trail) (items : List Node) :
    Except Failure (List Node) :=
  if items.any isSequence then do return (← items.mapM (splice trail)).flatten
  else .ok items

/-- Splices nested lists into a list, one level deep; any other node
stays as it is. -/
def flatten (trail : Trail) : Node → Except Failure Node
  | .sequence items => do return .sequence (← flattenItems trail items)
  | node => .ok node

/-- The displayed form of a segment of a pointer. -/
def segmentText (segment : Node) : String :=
  segment.scalar?.getD segment.toJson

/-- How a value that holds references is resolved after one more hop. -/
abbrev Hop := Trail → String → Node → Except Failure Node

mutual

def resolveEntry (root : Node) (hop : Hop) (trail : Trail) (key : String) :
    Node → Except Failure Node
  | .reference pointer => do
      let trail :=
        trail.descendValued "reference" key (.pointer (pointer.map segmentText))
      let target ← follow trail root pointer
      let resolved ← if target.containsReference then
        hop trail key target else .ok target
      flatten trail resolved
  | .sequence items =>
      if (Node.sequence items).containsReference then do
        return .sequence (← resolveItems root hop (trail.descend key) 0 items)
      else .ok (.sequence items)
  | .mapping entries =>
      if (Node.mapping entries).containsReference then do
        return .mapping (← resolveEntries root hop (trail.descend key) entries)
      else .ok (.mapping entries)
  | node => .ok node

/-- Resolves the items of a list from a given index on. -/
def resolveItems (root : Node) (hop : Hop) (trail : Trail) (index : Nat) :
    List Node → Except Failure (List Node)
  | [] => .ok []
  | item :: rest => do
      let resolved ← resolveEntry root hop trail (toString index) item
      return resolved :: (← resolveItems root hop trail (index + 1) rest)

def resolveEntries (root : Node) (hop : Hop) (trail : Trail) :
    List (String × Node) → Except Failure (List (String × Node))
  | [] => .ok []
  | (key, value) :: rest => do
      let resolved ← resolveEntry root hop trail key value
      return (key, resolved) :: (← resolveEntries root hop trail rest)

end

/-- The hop with a number of further hops left. -/
def hopWithin (root : Node) : Nat → Hop
  | 0 => fun trail _ _ => .error (trail.fail .circularReference)
  | count + 1 => resolveEntry root (hopWithin root count)

def resolve (trail : Trail) (document : Node) : Except Failure Node :=
  let hop := hopWithin document hopLimit
  match document with
  | .mapping entries => do
      return .mapping (← resolveEntries document hop trail entries)
  | .sequence items => do
      return .sequence (← resolveItems document hop trail 0 items)
  | node => .ok node

end CiPipeline.References
