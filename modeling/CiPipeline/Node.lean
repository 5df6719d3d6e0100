import CiPipeline.Number
import CiPipeline.Text.Quoted

/-!
# Document nodes

A pipeline document is a tree of scalars, sequences and mappings.  A mapping
keeps the order in which its keys were first inserted.  A reference is a pointer
into the document that stands in for the value it names until it is resolved.
-/

namespace CiPipeline

/-- A node of a pipeline document. -/
inductive Node where
  | null
  | boolean (value : Bool)
  | number (value : Number)
  | text (value : String)
  | sequence (items : List Node)
  | mapping (entries : List (String × Node))
  | reference (pointer : List Node)
  deriving Repr, Inhabited, BEq

/-- The entries of a mapping in the order of their insertion. -/
abbrev Entries := List (String × Node)

namespace Entries

/-- Sets a key: an existing key keeps its place, a new one goes to the end. -/
def put (entries : Entries) (key : String) (value : Node) : Entries :=
  match entries with
  | [] => [(key, value)]
  | (name, old) :: rest =>
      if name == key then (name, value) :: rest
      else (name, old) :: put rest key value

def without (entries : Entries) (key : String) : Entries :=
  entries.filter fun (name, _) => name != key

/-- Inserts pairs one after another, so that of equal keys the last
value counts. -/
def ofPairs (pairs : List (String × Node)) : Entries :=
  pairs.foldl (fun entries (key, value) => put entries key value) []

/-- The keys in order. -/
def keys (entries : Entries) : List String :=
  entries.map Prod.fst

@[simp] theorem lookup_put_self (entries : Entries) (key : String)
    (value : Node) :
    (put entries key value).lookup key = some value := by
  induction entries with
  | nil => simp [put]
  | cons entry rest step =>
      obtain ⟨name, old⟩ := entry
      by_cases same : name = key
      · simp [put, same]
      · have other : (key == name) = false := by
          simpa using fun equal => same equal.symm
        simp [put, same, List.lookup_cons, other, step]

theorem lookup_put_of_ne (entries : Entries) {key other : String} (value : Node)
    (different : other ≠ key) :
    (put entries key value).lookup other = entries.lookup other := by
  have absent : (other == key) = false := by simpa using different
  induction entries with
  | nil => simp [put, List.lookup_cons, absent]
  | cons entry rest step =>
      obtain ⟨name, old⟩ := entry
      by_cases same : name = key
      · subst same
        simp [put, List.lookup_cons, absent]
      · simp [put, same, List.lookup_cons, step]

end Entries

namespace Node

/-- The mapping without entries. -/
def empty : Node := .mapping []

def kind : Node → String
  | .null => "null"
  | .boolean _ => "boolean"
  | .number _ => "number"
  | .text _ => "string"
  | .sequence _ => "sequence"
  | .mapping _ => "mapping"
  | .reference _ => "reference"

/-- Whether a node is an explicit null. -/
def isNull : Node → Bool
  | .null => true
  | _ => false

def isMapping : Node → Bool
  | .mapping _ => true
  | _ => false

def entries? : Node → Option Entries
  | .mapping entries => some entries
  | _ => none

def items? : Node → Option (List Node)
  | .sequence items => some items
  | _ => none

def text? : Node → Option String
  | .text value => some value
  | _ => none

def boolean? : Node → Option Bool
  | .boolean value => some value
  | _ => none

/-- The text of a scalar. -/
def scalar? : Node → Option String
  | .text value => some value
  | .number value => some value.text
  | .boolean value => some (if value then "true" else "false")
  | _ => none

end Node

/-- Looks a key up; an explicit null counts as absent. -/
def Entries.value? (entries : Entries) (key : String) : Option Node :=
  match entries.lookup key with
  | some .null => none
  | found => found

namespace Node

/-- Looks a key of a mapping up; an explicit null counts as absent. -/
def get? (node : Node) (key : String) : Option Node :=
  match node with
  | .mapping entries => Entries.value? entries key
  | _ => none

mutual

/-- Whether a reference stands anywhere in the node. -/
def containsReference : Node → Bool
  | .reference _ => true
  | .sequence items => anyReference items
  | .mapping entries => anyReferenceEntry entries
  | _ => false

/-- Whether a reference stands anywhere in one of the nodes. -/
def anyReference : List Node → Bool
  | [] => false
  | item :: rest => item.containsReference || anyReference rest

/-- Whether a reference stands anywhere in one of the values. -/
def anyReferenceEntry : List (String × Node) → Bool
  | [] => false
  | (_, value) :: rest => value.containsReference || anyReferenceEntry rest

end

theorem anyReference_eq (items : List Node) :
    anyReference items = items.any containsReference := by
  induction items with
  | nil => rfl
  | cons item rest step => simp [anyReference, step]

theorem anyReferenceEntry_eq (entries : Entries) :
    anyReferenceEntry entries = entries.any fun entry =>
      entry.2.containsReference := by
  induction entries with
  | nil => rfl
  | cons entry rest step => simp [anyReferenceEntry, step]

mutual

/-- Merges a later node over an earlier one: mappings merge key by key, and any
other later node replaces the earlier one. -/
def merge (earlier : Node) : Node → Node
  | .mapping later =>
      match earlier with
      | .mapping entries => .mapping (mergeEntries entries later)
      | _ => .mapping later
  | later => later

/-- Merges later entries into earlier ones. -/
def mergeEntries (earlier : Entries) : List (String × Node) → Entries
  | [] => earlier
  | (key, value) :: rest =>
      let merged := match earlier.lookup key with
        | some existing => existing.merge value
        | none => value
      mergeEntries (earlier.put key merged) rest

end

/-- Merges documents in order into a fresh mapping.  A document that is no
mapping contributes nothing. -/
def mergeAll (documents : List Node) : Node :=
  (documents.filter isMapping).foldl merge empty

mutual

/-- The compact interchange text of a node. -/
def toJson : Node → String
  | .null => "null"
  | .boolean value => if value then "true" else "false"
  | .number value => value.interchangeText
  | .text value => Json.quote value
  | .sequence items => "[" ++ itemsToJson items ++ "]"
  | .mapping entries => "\x7b" ++ entriesToJson entries ++ "\x7d"
  | .reference pointer => "[" ++ itemsToJson pointer ++ "]"

def itemsToJson : List Node → String
  | [] => ""
  | [item] => item.toJson
  | item :: rest => item.toJson ++ "," ++ itemsToJson rest

def entriesToJson : List (String × Node) → String
  | [] => ""
  | [(key, value)] => Json.quote key ++ ":" ++ value.toJson
  | (key, value) :: rest =>
      Json.quote key ++ ":" ++ value.toJson ++ "," ++ entriesToJson rest

end

end Node

end CiPipeline
