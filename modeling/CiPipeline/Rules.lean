import CiPipeline.Condition.Parser
import CiPipeline.Trail
import CiPipeline.Version

/-!
# Rules

A job's rules are a rule or a possibly nested list of rules.  The first rule
whose condition holds decides when the job runs.
-/

namespace CiPipeline

namespace Node

mutual

/-- A node as data interchange shows it: a number that has no text there is
null, and a reference is the list of its segments. -/
def plain : Node → Node
  | .number value => if value.isFinite then .number value else .null
  | .sequence items => .sequence (plainItems items)
  | .reference pointer => .sequence (plainItems pointer)
  | .mapping entries => .mapping (plainEntries entries)
  | node => node

@[inherit_doc plain]
def plainItems : List Node → List Node
  | [] => []
  | item :: rest => item.plain :: plainItems rest

@[inherit_doc plain]
def plainEntries : List (String × Node) → List (String × Node)
  | [] => []
  | (key, value) :: rest => (key, value.plain) :: plainEntries rest

end

end Node

structure Rule where
  /-- The condition; a rule without one always applies. -/
  condition : Option String
  /-- When the job runs instead. -/
  when_ : Option String
  /-- Whether the job may fail instead. -/
  allowFailure : Option Bool
  deriving DecidableEq, Repr, Inhabited

/-- A rule or a collection of rules. -/
inductive RuleSet where
  | many (sets : List RuleSet)
  | single (rule : Rule)
  deriving Repr, Inhabited, BEq

namespace Rule

/-- Reads an optional text: nothing, null or a text. -/
def optionalText? : Option Node → Option (Option String)
  | none => some none
  | some .null => some none
  | some (.text value) => some (some value)
  | some _ => none

/-- Reads an optional boolean: nothing, null or a boolean. -/
def optionalBoolean? : Option Node → Option (Option Bool)
  | none => some none
  | some .null => some none
  | some (.boolean value) => some (some value)
  | some _ => none

/-- Reads a rule from its three fields. -/
def ofFields? (condition when_ allowFailure : Option Node) : Option Rule := do
  return ⟨← optionalText? condition, ← optionalText? when_,
    ← optionalBoolean? allowFailure⟩

/-- Reads a rule from a mapping, or from a list of its fields in order. -/
def ofNode? : Node → Option Rule
  | .mapping entries =>
      ofFields? (entries.lookup "if") (entries.lookup "when")
        (entries.lookup "allow_failure")
  | .sequence items =>
      if items.length > 3 then none else ofFields? items[0]? items[1]? items[2]?
  | _ => none

end Rule

namespace RuleSet

mutual

/-- Reads a rule set: a list of rule sets, else a single rule. -/
def ofNode? : Node → Option RuleSet
  | .sequence items =>
      match ofNodes? items with
      | some sets => some (.many sets)
      | none => (Rule.ofNode? (.sequence items)).map .single
  | .mapping entries => (Rule.ofNode? (.mapping entries)).map .single
  | _ => none

/-- Reads the members of a list of rule sets. -/
def ofNodes? : List Node → Option (List RuleSet)
  | [] => some []
  | item :: rest =>
      match ofNode? item, ofNodes? rest with
      | some set, some sets => some (set :: sets)
      | _, _ => none

end

def read (node : Node) : Except Failure RuleSet :=
  match ofNode? node.plain with
  | some set => .ok set
  | none =>
      .error (.json "data did not match any variant of untagged enum RuleSet")

end RuleSet

/-- The rule on which a rule set settles, and whether its condition holds. -/
structure Outcome where
  result : Bool
  rule : Rule
  deriving DecidableEq, Repr

namespace Rules

/-- Whether a condition holds for the variables bound in a trail. -/
def evaluateCondition (trail : Trail) (condition : String) :
    Except Failure Bool :=
  let inner := trail.descendValued "if" "rules" (.text condition)
  match Condition.holds trail.resolve condition with
  | .ok result => .ok result
  | .error error => .error (inner.fail (.rule error))

def evaluateRule (trail : Trail) (rule : Rule) :
    Except Failure (Option Outcome) :=
  match evaluateCondition trail (rule.condition.getD "true") with
  | .error failure => .error failure
  | .ok result => .ok (if result then some ⟨true, rule⟩ else none)

mutual

/-- The first rule that applies in a nested rule set. -/
def firstMatch (trail : Trail) : RuleSet → Except Failure (Option Outcome)
  | .single rule => evaluateRule trail rule
  | .many sets => firstMatchOf trail sets

/-- The first rule that applies in a list of rule sets. -/
def firstMatchOf (trail : Trail) :
    List RuleSet → Except Failure (Option Outcome)
  | [] => .ok none
  | set :: rest =>
      match firstMatch trail set with
      | .error failure => .error failure
      | .ok (some outcome) => .ok (some outcome)
      | .ok none => firstMatchOf trail rest

end

/-- The first rule that applies in a flat list.  If none does, the list settles
on its last rule without it holding. -/
def firstMatchFlat (version : Version) (trail : Trail) (last : Option Outcome) :
    List RuleSet → Except Failure (Option Outcome)
  | [] => .ok last
  | .many _ :: _ => .error (trail.fail (.nestedRules version.text))
  | .single rule :: rest =>
      match evaluateRule trail rule with
      | .error failure => .error failure
      | .ok (some outcome) => .ok (some outcome)
      | .ok none => firstMatchFlat version trail (some ⟨false, rule⟩) rest

/-- Evaluates a rule set.  Before collections may be nested, the set must be a
flat list. -/
def evaluate (version : Version) (trail : Trail) (rules : RuleSet) :
    Except Failure (Option Outcome) :=
  if version.nests then firstMatch trail rules
  else
    match rules with
    | .single _ => .error (trail.fail .rulesNotAnArray)
    | .many sets => firstMatchFlat version trail none sets

end Rules

end CiPipeline
