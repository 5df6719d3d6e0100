import CiPipeline.Proofs.Include.Plans

/-!
# Interleavings of preparations

The targets of one level are prepared at the same time.  Each takes four steps:
it is planned for, what is in the way is removed, the folder for what is
extracted is made, and the place is filled.  The steps of different targets may
follow each other in any order; preparing in stages is one of them.
-/

namespace CiPipeline

open CiPipeline.Action

/-- How far the preparation of a target has come. -/
inductive Phase where
  | waiting
  | planned (task : Task)
  | cleared (task : Task)
  | opened (task : Task)
  | finished (task : Task)

/-- What has to be done for the target, once it is planned. -/
def Phase.task? : Phase → Option Task
  | .waiting => none
  | .planned task => some task
  | .cleared task => some task
  | .opened task => some task
  | .finished task => some task

/-- Whether all steps have been taken. -/
def Phase.isFinished : Phase → Bool
  | .finished _ => true
  | _ => false

namespace IncludeSources

/-- Makes the folder that files are extracted into, if it is to be made anew. -/
def reopen (sources : IncludeSources) : Task → Action Unit
  | .extract true project ref _ =>
      Action.change (Files.createFolders (sources.refFolder project ref))
  | _ => pure ()

/-- Fills a place whose folder has been made. -/
def complete (sources : IncludeSources) : Task → Action Unit
  | .extract _ project ref files => sources.extract project ref files
  | task => sources.fill task

/-- Takes the next step for a target. -/
def advance (sources : IncludeSources) (trail : Trail) (filled : Filled)
    (target : Target) :
    Phase → Action Phase
  | .waiting => return .planned (← sources.plan trail filled target)
  | .planned task => do
      sources.clear task
      return .cleared task
  | .cleared task => do
      sources.reopen task
      return .opened task
  | .opened task => do
      sources.complete task
      return .finished task
  | .finished task => return .finished task

/-- Runs in which targets take their steps in some order, one step at a time. -/
inductive Interleaves (sources : IncludeSources) (surroundings : Surroundings)
    (trail : Trail) (filled : Filled) :
    List (Target × Phase) → Workspace → List (Target × Phase) →
      Workspace → Prop where
  | stop (states : List (Target × Phase)) (workspace : Workspace) :
      Interleaves sources surroundings trail filled states workspace
        states workspace
  | step {front back states : List (Target × Phase)} {target : Target}
      {phase next : Phase} {before between after : Workspace} :
      perform surroundings (sources.advance trail filled target phase) before =
        (.ok next, between) →
      Interleaves sources surroundings trail filled
        (front ++ (target, next) :: back) between states after →
      Interleaves sources surroundings trail filled
        (front ++ (target, phase) :: back) before states after

/-- Whether all targets can come to the ends of their steps so. -/
def Completes (sources : IncludeSources) (surroundings : Surroundings)
    (trail : Trail) (filled : Filled) (targets : List Target)
    (before after : Workspace) : Prop :=
  ∃ states,
    Interleaves sources surroundings trail filled
      (targets.map fun target => (target, .waiting)) before states after ∧
    ∀ state ∈ states, state.2.isFinished = true

variable {sources : IncludeSources} {surroundings : Surroundings}
  {trail : Trail} {filled : Filled} {before between after : Workspace}

namespace Interleaves

variable {first second third : List (Target × Phase)}

theorem trans
    (left : Interleaves sources surroundings trail filled first before
      second between)
    (right : Interleaves sources surroundings trail filled second between
      third after) :
    Interleaves sources surroundings trail filled first before third after := by
  induction left with
  | stop => exact right
  | step taken _ induction => exact .step taken (induction right)

private theorem widen (left right : List (Target × Phase))
    (interleaves :
      Interleaves sources surroundings trail filled first before second after) :
    Interleaves sources surroundings trail filled (left ++ first ++ right)
      before (left ++ second ++ right) after := by
  induction interleaves with
  | stop => exact .stop _ _
  | @step front back states target phase next before between after taken _
      induction =>
      have sides (state : Target × Phase) :
          left ++ (front ++ state :: back) ++ right =
            (left ++ front) ++ state :: (back ++ right) := by
        simp
      rw [sides] at induction ⊢
      exact .step taken induction

end Interleaves

/-- Targets may be prepared after others. -/
theorem Completes.append {targets others : List Target}
    (early : Completes sources surroundings trail filled targets before between)
    (late : Completes sources surroundings trail filled others between after) :
    Completes sources surroundings trail filled (targets ++ others)
      before after := by
  obtain ⟨states, interleaves, finished⟩ := early
  obtain ⟨otherStates, otherInterleaves, otherFinished⟩ := late
  have first :=
    interleaves.widen [] (others.map fun target => (target, .waiting))
  have second := otherInterleaves.widen states []
  rw [List.append_nil, List.append_nil] at second
  refine ⟨states ++ otherStates, ?_, ?_⟩
  · rw [List.map_append]
    exact first.trans second
  · rw [List.forall_mem_append]
    exact ⟨finished, otherFinished⟩

/-! ## Stages -/

private theorem interleaves_planStage {front : List (Target × Phase)}
    {targets : List Target} {plans : List (Target × Task)}
    (success : perform surroundings
      (stage trail (fun target () => sources.plan trail filled target)
        (targets.map fun target => (target, ()))) before = (.ok plans, after)) :
    Interleaves sources surroundings trail filled
      (front ++ targets.map fun target => (target, .waiting)) before
      (front ++ plans.map fun pair => (pair.1, .planned pair.2)) after := by
  induction targets generalizing front before plans with
  | nil =>
      obtain ⟨rfl, rfl⟩ := of_perform_stage_nil success
      exact .stop _ _
  | cons target rest induction =>
      obtain ⟨task, others, between, planned, remaining, rfl⟩ :=
        of_perform_stage_cons success
      have taken : perform surroundings
          (sources.advance trail filled target .waiting) before =
          (.ok (.planned task), between) :=
        perform_bind_eq_ok_iff.mpr ⟨task, between, planned, rfl⟩
      refine .step taken ?_
      have further : Interleaves sources surroundings trail filled
          ((front ++ [(target, .planned task)]) ++ rest.map fun target =>
            (target, .waiting)) between ((front ++ [(target, .planned task)]) ++
            others.map fun pair => (pair.1, .planned pair.2)) after :=
        induction remaining
      simpa using further

/-- A stage in which every target goes from one phase of its task to another is
an interleaving. -/
theorem interleaves_stage {start final : Task → Phase}
    {run : Task → Action Unit}
    (moves : ∀ (front back : List (Target × Phase)) (target : Target)
        (task : Task) (before after : Workspace),
      perform surroundings (run task) before = (.ok (), after) →
      Interleaves sources surroundings trail filled
        (front ++ (target, start task) :: back) before
        (front ++ (target, final task) :: back) after)
    {front : List (Target × Phase)} {plans : List (Target × Task)}
    {results : List (Target × Unit)}
    (success : perform surroundings (stage trail (fun _ task => run task) plans)
      before = (.ok results, after)) :
    Interleaves sources surroundings trail filled
      (front ++ plans.map fun pair => (pair.1, start pair.2)) before
      (front ++ plans.map fun pair => (pair.1, final pair.2)) after := by
  induction plans generalizing front before results with
  | nil =>
      obtain ⟨_, rfl⟩ := of_perform_stage_nil success
      exact .stop _ _
  | cons pair rest induction =>
      obtain ⟨target, task⟩ := pair
      obtain ⟨_, others, between, done, remaining, _⟩ :=
        of_perform_stage_cons success
      have first := moves front (rest.map fun pair => (pair.1, start pair.2))
        target task _ _ done
      have further : Interleaves sources surroundings trail filled
          ((front ++ [(target, final task)]) ++ rest.map fun pair =>
            (pair.1, start pair.2)) between
          ((front ++ [(target, final task)]) ++ rest.map fun pair =>
            (pair.1, final pair.2)) after :=
        induction remaining
      exact first.trans (by simpa using further)

private theorem of_perform_fill {task : Task}
    (success : perform surroundings (sources.fill task) before =
      (.ok (), after)) :
    ∃ between, perform surroundings (sources.reopen task) before =
      (.ok (), between) ∧
      perform surroundings (sources.complete task) between =
        (.ok (), after) := by
  cases task with
  | extract afresh project ref files =>
      cases afresh with
      | true =>
          obtain ⟨_, between, opened, extracted⟩ :=
            perform_bind_eq_ok_iff.mp success
          exact ⟨between, opened, extracted⟩
      | false => exact ⟨before, rfl, success⟩
  | _ => exact ⟨before, rfl, success⟩

/-- Preparing targets in stages is an interleaving of their steps. -/
theorem completes_of_prepare {nowFilled : Filled} {targets : List Target}
    (success : perform surroundings (sources.prepare trail filled targets)
      before = (.ok nowFilled, after)) :
    Completes sources surroundings trail filled targets before after := by
  obtain ⟨plans, _, _, planned, cleared, first, second, third⟩ :=
    of_perform_prepare success
  have planning : Interleaves sources surroundings trail filled
      ([] ++ targets.map fun target => (target, .waiting)) before
      ([] ++ plans.map fun pair => (pair.1, .planned pair.2)) planned :=
    interleaves_planStage first
  have clearing : Interleaves sources surroundings trail filled
      ([] ++ plans.map fun pair => (pair.1, .planned pair.2)) planned
      ([] ++ plans.map fun pair => (pair.1, .cleared pair.2)) cleared := by
    refine interleaves_stage ?_ second
    intro front back target task before after done
    exact .step (perform_bind_eq_ok_iff.mpr ⟨(), after, done, rfl⟩) (.stop _ _)
  have filling : Interleaves sources surroundings trail filled
      ([] ++ plans.map fun pair => (pair.1, .cleared pair.2)) cleared
      ([] ++ plans.map fun pair => (pair.1, .finished pair.2)) after := by
    refine interleaves_stage ?_ third
    intro front back target task before after done
    obtain ⟨between, opened, completed⟩ := of_perform_fill done
    exact .step (perform_bind_eq_ok_iff.mpr ⟨(), between, opened, rfl⟩)
      (.step (perform_bind_eq_ok_iff.mpr ⟨(), after, completed, rfl⟩)
        (.stop _ _))
  refine ⟨_, (planning.trans clearing).trans filling, ?_⟩
  intro state member
  have listed :
      state ∈ plans.map fun pair => (pair.1, Phase.finished pair.2) := member
  obtain ⟨pair, _, rfl⟩ := List.mem_map.mp listed
  rfl

theorem completes_of_isOk {targets : List Target}
    (succeeds : (perform surroundings (sources.prepare trail filled targets)
      before).1.isOk = true) :
    Completes sources surroundings trail filled targets before
      (perform surroundings (sources.prepare trail filled targets)
        before).2 := by
  obtain ⟨nowFilled, done⟩ := Sequencing.exists_of_isOk succeeds
  exact completes_of_prepare (Prod.ext done rfl)

end IncludeSources

end CiPipeline
