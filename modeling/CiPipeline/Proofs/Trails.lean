import CiPipeline.Proofs.Sequencing
import Mathlib.Data.List.Infix

/-!
# Failures below a trail

A step that is taken on a trail reports its failures at places to which the
trail leads.  It does so when the steps of which it consists do.
-/

namespace CiPipeline

namespace Trail

open CiPipeline.Sequencing

/-- A failure at a place to which a trail leads. -/
inductive Blames (trail : Trail) : Failure → Prop where
  | fail {inner : Trail} (problem : Problem) :
      trail.frames <:+ inner.frames →
      Blames trail (inner.fail problem)

/-- A step whose failures are all at places to which a trail leads. -/
def FailsBelow {Value : Type} (trail : Trail)
    (step : Except Failure Value) : Prop :=
  ∀ failure, step = .error failure → trail.Blames failure

variable {Value Result : Type} {trail outer inner : Trail} {name : String}

theorem failsBelow_ok (trail : Trail) (value : Value) :
    trail.FailsBelow (.ok value) := by
  intro failure failed
  cases failed

theorem failsBelow_fail (trail : Trail) (problem : Problem) :
    trail.FailsBelow (.error (trail.fail problem) : Except Failure Value) := by
  intro failure failed
  cases failed
  exact .fail problem (List.suffix_refl _)

theorem failsBelow_require (trail : Trail) (value : Option Value)
    (problem : Problem) :
    trail.FailsBelow (trail.require value problem) := by
  cases value with
  | none => exact failsBelow_fail trail problem
  | some value => exact failsBelow_ok trail value

theorem failsBelow_assert (trail : Trail) (condition : Bool)
    (problem : Problem) :
    trail.FailsBelow (trail.assert condition problem) := by
  cases condition with
  | false => exact failsBelow_fail trail problem
  | true => exact failsBelow_ok trail ()

/-- A failure without a place is placed where a step is run. -/
theorem failsBelow_run {step : Except Failure Value}
    (unplaced : ∀ problem path, step ≠ .error (.located problem path)) :
    trail.FailsBelow (trail.run step) := by
  cases step with
  | ok value => exact failsBelow_ok trail value
  | error failure =>
      cases failure with
      | located problem path => exact (unplaced problem path rfl).elim
      | _ => exact failsBelow_fail trail _

theorem FailsBelow.of_error {step : Except Failure Value} {failure : Failure}
    (below : trail.FailsBelow step) (failed : step = .error failure) :
    trail.FailsBelow (.error failure : Except Failure Result) := by
  intro other same
  cases same
  exact below failure failed

theorem FailsBelow.bind {step : Except Failure Value}
    {next : Value → Except Failure Result} (first : trail.FailsBelow step)
    (others : ∀ value, trail.FailsBelow (next value)) :
    trail.FailsBelow (step >>= next) := by
  intro failure failed
  rcases bind_eq_error_iff.mp failed with stepFailed | ⟨value, _, nextFailed⟩
  · exact first failure stepFailed
  · exact others value failure nextFailed

theorem FailsBelow.map {step : Except Failure Value}
    (below : trail.FailsBelow step) (function : Value → Result) :
    trail.FailsBelow (step.map function) := by
  intro failure failed
  cases step with
  | error _ =>
      cases failed
      exact below failure rfl
  | ok _ => cases failed

theorem FailsBelow.mapM {step : Value → Except Failure Result}
    {values : List Value} (each : ∀ value, trail.FailsBelow (step value)) :
    trail.FailsBelow (values.mapM step) := by
  intro failure failed
  obtain ⟨value, _, stepFailed⟩ := exists_of_mapM_error failed
  exact each value failure stepFailed

theorem FailsBelow.forM {check : Value → Except Failure Unit}
    {values : List Value} (each : ∀ value, trail.FailsBelow (check value)) :
    trail.FailsBelow (values.forM check) := by
  intro failure failed
  obtain ⟨value, stops⟩ := forM_eq_error_iff.mp failed
  exact each value failure stops.failed

/-- What a trail leads to, each earlier part of it leads to. -/
theorem FailsBelow.mono {step : Except Failure Value}
    (below : inner.FailsBelow step) (leads : outer.frames <:+ inner.frames) :
    outer.FailsBelow step := by
  intro failure failed
  cases below failure failed with
  | fail problem further => exact .fail problem (leads.trans further)

theorem FailsBelow.of_descend {step : Except Failure Value}
    (below : (trail.descend name).FailsBelow step) : trail.FailsBelow step :=
  below.mono (List.suffix_cons _ _)

/-- The path of a failure starts with what the outermost frame of the
trail shows. -/
theorem Blames.located {frame : Frame} {label : String} {failure : Failure}
    (blames : Blames ⟨[frame]⟩ failure) (shown : frame.label? = some label) :
    ∃ problem labels,
      failure = .located problem
        (pathSeparator.intercalate (label :: labels)) := by
  cases blames with
  | @fail inner problem leads =>
      obtain ⟨front, split⟩ := leads
      refine ⟨problem, front.reverse.filterMap Frame.label?, ?_⟩
      rw [Trail.fail, render, ← split, List.reverse_append,
        List.filterMap_append,
        List.reverse_singleton, List.filterMap_cons_some shown]
      rfl

end Trail

end CiPipeline
