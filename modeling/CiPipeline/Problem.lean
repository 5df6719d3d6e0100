import CiPipeline.Condition.Token
import CiPipeline.Node

/-!
# Problems of a pipeline document

Everything that can be wrong at a place of a document, and the message
that reports it.
-/

namespace CiPipeline

/-- What is wrong at a place of a pipeline document. -/
inductive Problem where
  /-- A failure that had no place yet, by its text. -/
  | other (text : String)
  | rule (error : ConditionError)
  | rulesNotAnArray
  | nestedRules (version : String)
  | jobNotAMapping (found : String)
  | circularReference
  | undefinedPointer
  | undefinedReference (segment : String)
  | undefinedExpansion
  | parentNotAText (found : String)
  | parentsMalformed (found : String)
  | circularExtends (job : String)
  | unknownParent (parent job : String)
  | imageMalformed (found : String)
  | servicesMalformed (found : String)
  | serviceWithoutName
  | serviceMalformed (found : String)
  | scriptMalformed (found : String)
  | missingScript
  | stagesMalformed
  | invalidStage (stage : Node)
  | unknownStage (stage job : String)
  | variablesNotPairs (job : String) (bindings : Node)
  | variableNotScalar (job key : String) (value : Node)
  | jobVariablesNotAMapping
  | jobVariableNotScalar (key : String)
  | linesNotAList (field : String)
  | lineNotAText (field found : String)
  | needsNotAList
  | invalidNeed (entry : Node)
  | unknownWhen (text : String)
  | malformedInclude (entry : Node)
  | invalidUrl (target reason : String)
  | circularInclude
  | missingLocalInclude (path : String)
  deriving Repr

namespace Problem

/-- The message of a problem. -/
def message : Problem → String
  | .other text => text
  | .rule error => "Invalid rule expression: " ++ error.message
  | .rulesNotAnArray => "rules must be an array"
  | .nestedRules version =>
      s!"GitLab CI v{version} doesn't support nested collections of rules"
  | .jobNotAMapping found => s!"job definition must be a mapping, found {found}"
  | .circularReference => "circular dependency detected in \x60!reference\x60"
  | .undefinedPointer => "undefined reference pointer"
  | .undefinedReference segment => s!"undefined reference value: {segment}"
  | .undefinedExpansion => "undefined entry in expansion array"
  | .parentNotAText found => s!"extends entries must be strings, found {found}"
  | .parentsMalformed found =>
      s!"extends must be a string or a list of strings, found {found}"
  | .circularExtends job =>
      s!"{job}: circular dependency detected in \x60extends\x60"
  | .unknownParent parent job =>
      s!"{parent} is extended from {job}, but is unspecified"
  | .imageMalformed found =>
      s!"image must be a string or a mapping, found {found}"
  | .servicesMalformed found => s!"services must be a list, found {found}"
  | .serviceWithoutName => "service must have a name"
  | .serviceMalformed found =>
      s!"service must be a string or a mapping, found {found}"
  | .scriptMalformed found =>
      s!"script must be a string or a list, found {found}"
  | .missingScript => "job must have script specified"
  | .stagesMalformed => "stages must be an array"
  | .invalidStage stage => "invalid stage " ++ stage.toJson
  | .unknownStage stage job => s!"stage:{stage} not found for {job}"
  | .variablesNotPairs job bindings =>
      s!"{job} has invalid variables hash of key value pairs. variables=" ++
        bindings.toJson
  | .variableNotScalar job key value =>
      s!"{job} has invalid variables hash of key value pairs. {key}=" ++
        value.toJson
  | .jobVariablesNotAMapping => "variables must be a mapping"
  | .jobVariableNotScalar key => s!"{key} must be a string or a number"
  | .linesNotAList field => s!"{field} must be a list"
  | .lineNotAText field found =>
      s!"{field} entries must be strings, found {found}"
  | .needsNotAList => "needs must be a list"
  | .invalidNeed entry => "invalid needs entry " ++ entry.toJson
  | .unknownWhen text => s!"unknown when '{text}'"
  | .malformedInclude entry => "Didn't understand include " ++ entry.toJson
  | .invalidUrl target reason =>
      s!"Invalid remote include URL {target}: {reason}"
  | .circularInclude => "circular dependency detected in \x60include\x60"
  | .missingLocalInclude path => s!"Local include file cannot be found {path}"

end Problem

end CiPipeline
