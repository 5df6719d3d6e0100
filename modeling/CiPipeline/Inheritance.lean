import CiPipeline.JobName
import CiPipeline.Trail

/-!
# Inheritance between jobs

A job names its parents under `extends`.  Its definition is merged over those of
its ancestors, the furthest first.
-/

namespace CiPipeline.Inheritance

/-- One more than the greatest length of a chain of parents. -/
def depthLimit : Nat := 11

/-- Requires that every parent is named by a text. -/
def checkParents (trail : Trail) : List Node → Except Failure Unit
  | [] => .ok ()
  | .text _ :: rest => checkParents trail rest
  | parent :: _ => .error (trail.fail (.parentNotAText parent.kind))

/-- The parents of a definition as a list. -/
def normalizeParents (trail : Trail) : Option Node → Except Failure (List Node)
  | none => .ok []
  | some .null => .ok []
  | some (.text parent) => .ok [.text parent]
  | some (.sequence parents) => do
      checkParents trail parents
      return parents
  | some other => .error (trail.fail (.parentsMalformed other.kind))

/-- Turns the parents of one entry of a document into a list.  Reserved and
hidden entries need not be mappings, jobs have to be. -/
def normalizeEntry (trail : Trail) (entry : String × Node) :
    Except Failure (String × Node) :=
  let (name, definition) := entry
  if JobName.isReserved name then .ok entry
  else
    match definition with
    | .mapping fields => do
        let parents ←
          normalizeParents ((trail.descend name).descend "extends")
            (fields.lookup "extends")
        return (name, .mapping (Entries.put fields "extends"
          (.sequence parents)))
    | other =>
        if JobName.isReal name then
          .error ((trail.descend name).fail (.jobNotAMapping other.kind))
        else .ok entry

def parentNames (definition : Node) : List String :=
  match definition.get? "extends" with
  | some (.sequence parents) => parents.filterMap Node.text?
  | _ => []

/-- The ancestors of a definition, the furthest first, through chains of less
than a number of parents. -/
def ancestors (entries : Entries) :
    Nat → Trail → String → Node → Except Failure (List Node)
  | 0, trail, name, _ => .error (trail.fail (.circularExtends name))
  | depth + 1, trail, name, definition => do
      let lines ← (parentNames definition).mapM fun parentName => do
        let trail := (trail.descend "extends").descend parentName
        let parent ←
          trail.require (entries.value? parentName)
            (.unknownParent parentName name)
        return (← ancestors entries depth trail parentName parent) ++ [parent]
      return lines.flatten

/-- Merges a job over its ancestors. -/
def inheritEntry (trail : Trail) (entries : Entries) (entry : String × Node) :
    Except Failure (String × Node) :=
  let (name, definition) := entry
  if JobName.isReal name then do
    let inherited ← ancestors entries depthLimit (trail.descend name)
      name definition
    return (name, Node.mergeAll (inherited ++ [definition]))
  else .ok entry

def forgetParents (entry : String × Node) : String × Node :=
  match entry with
  | (name, .mapping fields) =>
      if JobName.isReserved name then entry
      else (name, .mapping (Entries.without fields "extends"))
  | entry => entry

/-- Merges every job of a document over its ancestors. -/
def resolve (trail : Trail) : Node → Except Failure Node
  | .mapping entries => do
      let normalized ← entries.mapM (normalizeEntry trail)
      let inherited ← normalized.mapM (inheritEntry trail normalized)
      return .mapping (inherited.map forgetParents)
  | node => .ok node

end CiPipeline.Inheritance
