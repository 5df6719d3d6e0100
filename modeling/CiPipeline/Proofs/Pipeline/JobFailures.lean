import CiPipeline.Pipeline
import CiPipeline.Proofs.Trails

/-!
# Where reading a job fails

Every part of a job is read below the trail of the job, and the failures of its
rules are placed below that trail, too.  So are those of reading typed values,
which have no place of their own.
-/

namespace CiPipeline

open CiPipeline.Sequencing CiPipeline.Trail

variable {trail : Trail}

/-! ## Rules -/

namespace Rules

private theorem evaluateCondition_failsBelow (condition : String) :
    trail.FailsBelow (evaluateCondition trail condition) := by
  unfold evaluateCondition
  dsimp only
  split
  · exact failsBelow_ok trail _
  · apply FailsBelow.mono (failsBelow_fail _ _)
    exact List.suffix_cons _ _

private theorem evaluateRule_failsBelow (rule : Rule) :
    trail.FailsBelow (evaluateRule trail rule) := by
  have condition :
      trail.FailsBelow (evaluateCondition trail (rule.condition.getD "true")) :=
    evaluateCondition_failsBelow _
  unfold evaluateRule
  split
  · rename_i failed
    exact condition.of_error failed
  · exact failsBelow_ok trail _

mutual

private theorem firstMatch_failsBelow (trail : Trail) (set : RuleSet) :
    trail.FailsBelow (firstMatch trail set) := by
  cases set with
  | single rule => exact evaluateRule_failsBelow rule
  | many sets => exact firstMatchOf_failsBelow trail sets

private theorem firstMatchOf_failsBelow (trail : Trail) (sets : List RuleSet) :
    trail.FailsBelow (firstMatchOf trail sets) := by
  cases sets with
  | nil => exact failsBelow_ok trail none
  | cons set rest =>
      have first := firstMatch_failsBelow trail set
      rw [firstMatchOf]
      split
      · rename_i failed
        exact first.of_error failed
      · exact failsBelow_ok trail _
      · exact firstMatchOf_failsBelow trail rest

end

private theorem firstMatchFlat_failsBelow (version : Version)
    (last : Option Outcome) (sets : List RuleSet) :
    trail.FailsBelow (firstMatchFlat version trail last sets) := by
  induction sets generalizing last with
  | nil => exact failsBelow_ok trail last
  | cons set rest induction =>
      cases set with
      | many _ => exact failsBelow_fail trail _
      | single rule =>
          have first : trail.FailsBelow (evaluateRule trail rule) :=
            evaluateRule_failsBelow rule
          rw [firstMatchFlat]
          split
          · rename_i failed
            exact first.of_error failed
          · exact failsBelow_ok trail _
          · exact induction _

private theorem evaluate_failsBelow (version : Version) (rules : RuleSet) :
    trail.FailsBelow (evaluate version trail rules) := by
  unfold evaluate
  split
  · exact firstMatch_failsBelow trail rules
  · split
    · exact failsBelow_fail trail _
    · exact firstMatchFlat_failsBelow version none _

end Rules

/-! ## Jobs -/

namespace Job

private theorem whenRead_failsBelow (text : String) :
    trail.FailsBelow (When.read trail text) :=
  failsBelow_require trail _ _

private theorem ownVariables_failsBelow (definition : Node) :
    trail.FailsBelow (ownVariables trail definition) := by
  unfold ownVariables
  split
  · exact failsBelow_ok trail _
  · apply FailsBelow.mapM
    intro entry
    apply FailsBelow.bind (failsBelow_require trail _ _)
    intro text
    exact failsBelow_ok trail _
  · exact failsBelow_fail trail _

private theorem allVariables_failsBelow (environment : JobEnvironment)
    (name stage : String) (definition : Node) : trail.FailsBelow
      (allVariables environment trail name stage definition) := by
  apply FailsBelow.bind (ownVariables_failsBelow definition).of_descend
  intro own
  exact failsBelow_ok trail _

/-- Reading rules fails without a place, and gets the place of the rules. -/
theorem readRules_failsBelow (definition : Node) :
    trail.FailsBelow (readRules trail definition) := by
  unfold readRules
  split
  · exact failsBelow_ok trail none
  · rename_i rules _
    have unplaced : ∀ problem path,
        RuleSet.read rules ≠ .error (.located problem path) := by
      intro problem path
      unfold RuleSet.read
      split <;> simp
    exact (failsBelow_run unplaced).of_descend.map some

private theorem readWhen_failsBelow (definition : Node) :
    trail.FailsBelow (readWhen trail definition) := by
  unfold readWhen
  split
  · exact failsBelow_ok trail none
  · exact (whenRead_failsBelow _).of_descend.map some

private theorem scheduleByRule_failsBelow (declaredWhen : Option When)
    (declaredFailure : Option Bool) (outcome : Option Outcome) :
    trail.FailsBelow
      (scheduleByRule trail declaredWhen declaredFailure outcome) := by
  unfold scheduleByRule
  split
  · dsimp only
    split
    · apply FailsBelow.bind (whenRead_failsBelow _).of_descend
      intro scheduled
      exact failsBelow_ok trail _
    · exact failsBelow_ok trail _
  · exact failsBelow_ok trail _

private theorem schedule_failsBelow (version : Version) (bindings : Variables)
    (declaredWhen : Option When) (declaredFailure : Option Bool)
    (rules : Option RuleSet) :
    trail.FailsBelow
      (schedule version trail bindings declaredWhen declaredFailure rules) := by
  cases rules with
  | none => exact failsBelow_ok trail _
  | some rules =>
      apply FailsBelow.bind
      · apply FailsBelow.mono (Rules.evaluate_failsBelow version rules)
        exact List.suffix_cons _ _
      · intro outcome
        exact scheduleByRule_failsBelow declaredWhen declaredFailure outcome

private theorem readField_failsBelow {Value : Type} (definition : Node)
    (field : String) (read : Node → Except String Value) :
    trail.FailsBelow (readField trail definition field read) := by
  unfold readField
  split
  · exact failsBelow_ok trail none
  · split
    · exact failsBelow_ok trail _
    · exact (failsBelow_fail _ _).of_descend

private theorem lines_failsBelow (definition : Node) (field : String) :
    trail.FailsBelow (lines trail definition field) := by
  refine FailsBelow.of_descend (?_ : (trail.descend field).FailsBelow _)
  unfold lines
  dsimp only
  split
  · exact failsBelow_ok _ _
  · apply FailsBelow.mapM
    intro line
    exact failsBelow_require _ _ _
  · exact failsBelow_fail _ _

private theorem readNeeds_failsBelow (definition : Node) :
    trail.FailsBelow (readNeeds trail definition) := by
  refine FailsBelow.of_descend (?_ : (trail.descend "needs").FailsBelow _)
  unfold readNeeds
  dsimp only
  split
  · exact failsBelow_ok _ _
  · apply FailsBelow.bind
    · apply FailsBelow.mapM
      intro need
      exact failsBelow_require _ _ _
    · intro needs
      exact failsBelow_ok _ _
  · exact failsBelow_fail _ _

private theorem ofDefinition_failsBelow (environment : JobEnvironment)
    (name : String) (definition : Node) :
    trail.FailsBelow (ofDefinition environment trail name definition) := by
  apply FailsBelow.bind (allVariables_failsBelow environment name _ definition)
  intro bindings
  apply FailsBelow.bind (readRules_failsBelow definition)
  intro rules
  apply FailsBelow.bind (readWhen_failsBelow definition)
  intro declaredWhen
  apply FailsBelow.bind (schedule_failsBelow _ bindings declaredWhen _ rules)
  intro schedule
  apply FailsBelow.bind (readField_failsBelow definition "image" _)
  intro image
  apply FailsBelow.bind (readField_failsBelow definition "services" _)
  intro services
  apply FailsBelow.bind (lines_failsBelow definition "before_script")
  intro beforeScript
  apply FailsBelow.bind (lines_failsBelow definition "script")
  intro script
  apply FailsBelow.bind (lines_failsBelow definition "after_script")
  intro afterScript
  apply FailsBelow.bind (readNeeds_failsBelow definition)
  intro needs
  exact failsBelow_ok trail _

end Job

namespace Pipeline

theorem readStages_failsBelow (trail : Trail) (document : Node) :
    (trail.descend "stages").FailsBelow (readStages trail document) := by
  apply FailsBelow.bind (failsBelow_require _ _ _)
  intro declared
  apply FailsBelow.bind
  · apply FailsBelow.mapM
    intro stage
    exact failsBelow_require _ _ _
  · intro stages
    exact failsBelow_ok _ _

theorem checkVariables_failsBelow (trail : Trail) (definition : String × Node) :
    (trail.descend definition.1).FailsBelow
      (checkVariables trail definition) := by
  refine FailsBelow.of_descend
    (?_ : ((trail.descend definition.1).descend "variables").FailsBelow _)
  unfold checkVariables
  dsimp only
  split
  · exact failsBelow_ok _ _
  · apply FailsBelow.forM
    intro entry
    exact failsBelow_assert _ _ _
  · exact failsBelow_fail _ _

theorem readJob_failsBelow (environment : JobEnvironment) (stages : List String)
    (trail : Trail) (definition : String × Node) :
    (trail.descend definition.1).FailsBelow
      (readJob environment stages trail definition) := by
  apply FailsBelow.bind (Job.ofDefinition_failsBelow environment _ _)
  intro job
  apply FailsBelow.bind (failsBelow_assert _ _ _)
  intro listed
  exact failsBelow_ok _ _

end Pipeline

end CiPipeline
