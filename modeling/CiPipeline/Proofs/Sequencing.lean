import CiPipeline.Trail
import Mathlib.Data.List.Chain
import Mathlib.Data.List.Forall2
import Mathlib.Logic.Relation

/-!
# Sequences of steps that may fail

A sequence fails with the first of its steps that fails.  These laws take a
successful sequence apart into its successful steps.
-/

namespace CiPipeline.Sequencing

variable {Error Value Result : Type}

@[simp] theorem ok_bind (value : Value) (next : Value → Except Error Result) :
    (Except.ok value >>= next) = next value := rfl

@[simp] theorem error_bind (error : Error)
    (next : Value → Except Error Result) :
    (Except.error error >>= next) = .error error := rfl

@[simp] theorem pure_eq_ok (value : Value) :
    (pure value : Except Error Value) = .ok value := rfl

/-- A sequence succeeds exactly when each of its steps does. -/
theorem bind_eq_ok_iff {step : Except Error Value}
    {next : Value → Except Error Result} {result : Result} :
    (step >>= next) = .ok result ↔ ∃ value,
      step = .ok value ∧ next value = .ok result := by
  cases step with
  | error error => simp
  | ok value => simp

/-- A sequence fails with the failure of its first step, or with one of the
steps behind. -/
theorem bind_eq_error_iff {step : Except Error Value}
    {next : Value → Except Error Result} {error : Error} :
    (step >>= next) = .error error ↔
      step = .error error ∨ ∃ value,
        step = .ok value ∧ next value = .error error := by
  cases step with
  | error other => simp
  | ok value => simp

theorem exists_of_isOk {step : Except Error Value}
    (success : step.isOk = true) :
    ∃ value, step = .ok value := by
  cases step with
  | error error => cases success
  | ok value => exact ⟨value, rfl⟩

theorem eq_ok_of_toOption {step : Except Error Value} {value : Value}
    (success : step.toOption = some value) : step = .ok value := by
  cases step with
  | error error => cases success
  | ok other =>
      cases success
      rfl

/-- Running a step on every value succeeds exactly with the results of the
single steps. -/
theorem mapM_eq_ok_iff {step : Value → Except Error Result}
    {values : List Value} {results : List Result} :
    values.mapM step = .ok results ↔
      List.Forall₂ (fun value result => step value = .ok result) values
        results := by
  induction values generalizing results with
  | nil =>
      constructor
      · intro success
        cases success
        exact .nil
      · intro all
        cases all
        rfl
  | cons value rest induction =>
      rw [List.mapM_cons, bind_eq_ok_iff]
      constructor
      · rintro ⟨result, first, remaining⟩
        obtain ⟨others, successes, equal⟩ := bind_eq_ok_iff.mp remaining
        cases equal
        exact .cons first (induction.1 successes)
      · intro all
        cases all with
        | cons first others =>
            exact ⟨_, first, bind_eq_ok_iff.mpr ⟨_, induction.2 others, rfl⟩⟩

theorem exists_mapM_eq_ok_iff {step : Value → Except Error Result}
    {values : List Value} :
    (∃ results, values.mapM step = .ok results) ↔
      ∀ value ∈ values, ∃ result, step value = .ok result := by
  induction values with
  | nil => exact iff_of_true ⟨[], rfl⟩ (by simp)
  | cons value rest induction =>
      rw [List.forall_mem_cons, ← induction]
      simp only [List.mapM_cons, bind_eq_ok_iff, pure_eq_ok]
      constructor
      · rintro ⟨_, result, first, others, remaining, _⟩
        exact ⟨⟨result, first⟩, others, remaining⟩
      · rintro ⟨⟨result, first⟩, others, remaining⟩
        exact ⟨_, result, first, others, remaining, rfl⟩

/-- What every single result satisfies, all results of a sequence satisfy. -/
theorem forall_of_mapM {step : Value → Except Error Result}
    {values : List Value} {results : List Result}
    {holds : Result → Prop} (success : values.mapM step = .ok results)
    (each : ∀ value ∈ values, ∀ result,
      step value = .ok result → holds result) :
    ∀ result ∈ results, holds result := by
  have related := mapM_eq_ok_iff.mp success
  clear success
  induction related with
  | nil => simp
  | @cons value result rest others first _ induction =>
      intro other member
      rcases List.mem_cons.mp member with rfl | inRest
      · exact each value (by simp) other first
      · exact induction (fun value member => each value (by simp [member]))
          other inRest

theorem exists_result_of_mapM {step : Value → Except Error Result}
    {values : List Value}
    {results : List Result} (success : values.mapM step = .ok results)
    {value : Value} (member : value ∈ values) :
    ∃ result ∈ results, step value = .ok result := by
  have related := mapM_eq_ok_iff.mp success
  clear success
  induction related with
  | nil => simp at member
  | @cons first result rest others head _ induction =>
      rcases List.mem_cons.mp member with rfl | inRest
      · exact ⟨result, by simp, head⟩
      · obtain ⟨other, listed, equal⟩ := induction inRest
        exact ⟨other, by simp [listed], equal⟩

theorem exists_value_of_mapM {step : Value → Except Error Result}
    {values : List Value}
    {results : List Result} (success : values.mapM step = .ok results)
    {result : Result} (member : result ∈ results) :
    ∃ value ∈ values, step value = .ok result := by
  have each : ∀ result ∈ results, ∃ value ∈ values, step value = .ok result :=
    forall_of_mapM success fun value listed _ equal => ⟨value, listed, equal⟩
  exact each result member

/-- A sequence gives what another gives over the same values, when each of its
steps gives what the step of the other gives. -/
theorem mapM_of_steps {first second : Value → Except Error Result}
    {values : List Value} {results : List Result}
    (steps : ∀ value ∈ values, ∀ result, first value = .ok result →
      second value = .ok result) (success : values.mapM first = .ok results) :
    values.mapM second = .ok results := by
  have related := mapM_eq_ok_iff.mp success
  clear success
  induction related with
  | nil => rfl
  | @cons value result rest others head _ induction =>
      have others :=
        induction fun value member => steps value (by simp [member])
      rw [List.mapM_cons, steps value (by simp) result head, ok_bind, others]
      rfl

/-- Of two sequences over values that are alike, the second succeeds with the
first, with results that are related, when each of its steps does. -/
theorem mapM_alike {Other OtherResult : Type} {alike : Value → Other → Prop}
    {becomes : Result → OtherResult → Prop}
    {first : Value → Except Error Result}
    {second : Other → Except Error OtherResult} {values : List Value}
    {others : List Other} {results : List Result}
    (related : List.Forall₂ alike values others)
    (steps : ∀ value other result,
      alike value other → first value = .ok result → ∃ otherResult,
        second other = .ok otherResult ∧ becomes result otherResult)
    (success : values.mapM first = .ok results) :
    ∃ otherResults, others.mapM second = .ok otherResults ∧
      List.Forall₂ becomes results otherResults := by
  have each := mapM_eq_ok_iff.mp success
  clear success
  induction related generalizing results with
  | nil =>
      cases each
      exact ⟨[], rfl, .nil⟩
  | cons head _ induction =>
      cases each with
      | cons step rest =>
          obtain ⟨otherResult, otherStep, related⟩ := steps _ _ _ head step
          obtain ⟨otherResults, otherRest, relatedRest⟩ := induction rest
          refine ⟨otherResult :: otherResults, ?_, .cons related relatedRest⟩
          rw [List.mapM_cons, otherStep, ok_bind, otherRest]
          rfl

/-- A step that is run on every value for its checks only succeeds when it
succeeds on each. -/
theorem forM_eq_ok_iff {step : Value → Except Error Unit}
    {values : List Value} :
    values.forM step = .ok () ↔ ∀ value ∈ values, step value = .ok () := by
  induction values with
  | nil => simp
  | cons value rest induction =>
      rw [List.forall_mem_cons, ← induction]
      show (step value >>= fun _ => rest.forM step) = .ok () ↔ _
      cases step value with
      | error _ => simp
      | ok _ => simp

/-- A sequence over a list in two parts is a sequence over the first and one
over the second. -/
theorem mapM_append_eq_ok_iff {step : Value → Except Error Result}
    {front back : List Value} {results : List Result} :
    (front ++ back).mapM step = .ok results ↔
      ∃ first second, results = first ++ second ∧ front.mapM step = .ok first ∧
        back.mapM step = .ok second := by
  rw [List.mapM_append, bind_eq_ok_iff]
  constructor
  · rintro ⟨first, left, remaining⟩
    obtain ⟨second, right, equal⟩ := bind_eq_ok_iff.mp remaining
    cases equal
    exact ⟨first, second, rfl, left, right⟩
  · rintro ⟨first, second, rfl, left, right⟩
    exact ⟨first, left, bind_eq_ok_iff.mpr ⟨second, right, rfl⟩⟩

/-! ## The value at which a sequence stops -/

section Stopping

variable {step : Value → Except Error Result} {error : Error} {value : Value}
  {values : List Value}

/-- Failing at one of several values: the step succeeds at every value in
front of it. -/
inductive StopsAt (step : Value → Except Error Result) (error : Error)
    (value : Value) : List Value → Prop where
  | here (rest : List Value) :
      step value = .error error →
      StopsAt step error value (value :: rest)
  | there {passed : Value} {result : Result} {rest : List Value} :
      step passed = .ok result →
      StopsAt step error value rest →
      StopsAt step error value (passed :: rest)

theorem StopsAt.failed (stops : StopsAt step error value values) :
    step value = .error error := by
  induction stops with
  | here _ failed => exact failed
  | there _ _ induction => exact induction

theorem StopsAt.mem (stops : StopsAt step error value values) :
    value ∈ values := by
  induction stops with
  | here => exact List.mem_cons_self
  | there _ _ induction => exact List.mem_cons_of_mem _ induction

theorem stopsAt_cons_iff {first : Value} {rest : List Value} :
    (∃ value, StopsAt step error value (first :: rest)) ↔
      step first = .error error ∨
        ∃ result, step first = .ok result ∧ ∃ value,
          StopsAt step error value rest := by
  constructor
  · intro stops
    obtain ⟨value, stops⟩ := stops
    cases stops with
    | here _ failed => exact .inl failed
    | there passed stops => exact .inr ⟨_, passed, value, stops⟩
  · intro cases
    rcases cases with failed | ⟨result, passed, value, stops⟩
    · exact ⟨first, .here rest failed⟩
    · exact ⟨value, .there passed stops⟩

private theorem not_stopsAt_nil : ¬ ∃ value, StopsAt step error value [] := by
  intro stops
  obtain ⟨value, stops⟩ := stops
  cases stops

theorem bind_ok_eq_error_iff {first : Except Error Value}
    {function : Value → Result} :
    (first >>= fun value => .ok (function value)) = .error error ↔
      first = .error error := by
  rw [bind_eq_error_iff]
  simp

/-- Running a step on every value fails with the failure at the value at
which it stops. -/
theorem mapM_eq_error_iff :
    values.mapM step = .error error ↔ ∃ value,
      StopsAt step error value values := by
  induction values with
  | nil =>
      apply iff_of_false
      · intro failed
        cases failed
      · exact not_stopsAt_nil
  | cons first rest induction =>
      rw [stopsAt_cons_iff, ← induction, List.mapM_cons, bind_eq_error_iff]
      simp only [pure_eq_ok, bind_ok_eq_error_iff]

theorem exists_of_mapM_error (failed : values.mapM step = .error error) :
    ∃ value ∈ values, step value = .error error := by
  obtain ⟨value, stops⟩ := mapM_eq_error_iff.mp failed
  exact ⟨value, stops.mem, stops.failed⟩

theorem forM_eq_error_iff {check : Value → Except Error Unit} :
    values.forM check = .error error ↔ ∃ value,
      StopsAt check error value values := by
  induction values with
  | nil =>
      apply iff_of_false
      · intro failed
        cases failed
      · exact not_stopsAt_nil
  | cons first rest induction =>
      rw [stopsAt_cons_iff, ← induction]
      show (check first >>= fun _ => rest.forM check) = .error error ↔ _
      rw [bind_eq_error_iff]

/-- A fold fails exactly when one of its steps does, from what the steps in
front of it give. -/
theorem foldlM_eq_error_iff {State : Type}
    {next : State → Value → Except Error State} {start : State} :
    values.foldlM next start = .error error ↔
      ∃ front value back state, values = front ++ value :: back ∧
        front.foldlM next start = .ok state ∧
        next state value = .error error := by
  induction values generalizing start with
  | nil =>
      apply iff_of_false
      · intro failed
        cases failed
      · intro parts
        obtain ⟨front, _, _, _, split, _⟩ := parts
        simp at split
  | cons first rest induction =>
      rw [List.foldlM_cons, bind_eq_error_iff]
      constructor
      · intro failed
        rcases failed with failed | ⟨state, passed, remaining⟩
        · exact ⟨[], first, rest, start, rfl, rfl, failed⟩
        · obtain ⟨front, value, back, last, rfl, taken, failed⟩ :=
            induction.mp remaining
          refine ⟨first :: front, value, back, last, rfl, ?_, failed⟩
          rw [List.foldlM_cons, passed, ok_bind, taken]
      · intro parts
        obtain ⟨front, value, back, last, split, taken, failed⟩ := parts
        cases front with
        | nil =>
            cases split
            cases taken
            exact .inl failed
        | cons head front =>
            cases split
            rw [List.foldlM_cons] at taken
            obtain ⟨state, passed, remaining⟩ := bind_eq_ok_iff.mp taken
            have others :=
              induction.mpr ⟨front, value, back, last, rfl, remaining, failed⟩
            exact .inr ⟨state, passed, others⟩

end Stopping

section Tracking

variable {Other OtherResult : Type} {related : Value → Other → Prop}
  {outcome first second : Except Error Value}
  {other otherFirst otherSecond : Except Error Other}

/-- The second outcome is a success wherever the first one is, with a
related value. -/
def Tracks (related : Value → Other → Prop) (outcome : Except Error Value)
    (other : Except Error Other) : Prop :=
  ∀ value, outcome = .ok value → ∃ otherValue,
    other = .ok otherValue ∧ related value otherValue

theorem Tracks.ok {value : Value} {otherValue : Other}
    (holds : related value otherValue) :
    Tracks related (.ok value : Except Error Value)
      (.ok otherValue : Except Error Other) := by
  intro _ success
  cases success
  exact ⟨otherValue, rfl, holds⟩

theorem Tracks.error (error : Error) (other : Except Error Other) :
    Tracks related (.error error) other := by
  intro _ success
  cases success

theorem Tracks.ite {condition : Prop} [Decidable condition]
    (holds : condition → Tracks related first otherFirst)
    (fails : ¬ condition → Tracks related second otherSecond) :
    Tracks related (if condition then first else second)
      (if condition then otherFirst else otherSecond) := by
  split
  · exact holds ‹_›
  · exact fails ‹_›

theorem Tracks.bind (tracks : Tracks related outcome other)
    {final : Result → OtherResult → Prop} {next : Value → Except Error Result}
    {otherNext : Other → Except Error OtherResult}
    (further : ∀ value otherValue, related value otherValue →
      Tracks final (next value) (otherNext otherValue)) :
    Tracks final (outcome >>= next) (other >>= otherNext) := by
  intro result success
  obtain ⟨value, taken, remaining⟩ := bind_eq_ok_iff.mp success
  obtain ⟨otherValue, otherTaken, holds⟩ := tracks value taken
  obtain ⟨otherResult, otherRemaining, last⟩ :=
    further value otherValue holds result remaining
  exact ⟨otherResult,
    bind_eq_ok_iff.mpr ⟨otherValue, otherTaken, otherRemaining⟩, last⟩

theorem Tracks.mono (tracks : Tracks related outcome other)
    {wider : Value → Other → Prop}
    (widens : ∀ value otherValue,
      related value otherValue → wider value otherValue) :
    Tracks wider outcome other := by
  intro value success
  obtain ⟨otherValue, otherSuccess, holds⟩ := tracks value success
  exact ⟨otherValue, otherSuccess, widens value otherValue holds⟩

end Tracking

end CiPipeline.Sequencing

namespace CiPipeline

theorem Trail.assert_eq_ok_iff {trail : Trail} {condition : Bool}
    {problem : Problem} :
    trail.assert condition problem = .ok () ↔ condition = true := by
  unfold Trail.assert
  cases condition <;> simp

theorem Trail.require_eq_ok_iff {Value : Type} {trail : Trail}
    {value : Option Value} {problem : Problem} {result : Value} :
    trail.require value problem = .ok result ↔ value = some result := by
  unfold Trail.require
  cases value <;> simp

end CiPipeline

/-! ## Chains and cycles -/

namespace CiPipeline.Chains

variable {Value : Type} {relation : Value → Value → Prop} {start value : Value}

/-- A value on the way to a cycle is followed by another one on
the way to it. -/
theorem exists_next (path : Relation.ReflTransGen relation start value)
    (cycle : Relation.TransGen relation value value) :
    ∃ next, relation start next ∧
      Relation.ReflTransGen relation next value := by
  rcases Relation.ReflTransGen.cases_head path with rfl | onTheWay
  · exact Relation.TransGen.head'_iff.mp cycle
  · exact onTheWay

theorem exists_isChain (path : Relation.ReflTransGen relation start value)
    (cycle : Relation.TransGen relation value value) (length : Nat) :
    ∃ rest, rest.length = length ∧ (start :: rest).IsChain relation := by
  induction length generalizing start with
  | zero => exact ⟨[], rfl, .singleton start⟩
  | succ length induction =>
      obtain ⟨next, related, remaining⟩ := exists_next path cycle
      obtain ⟨rest, counted, chain⟩ := induction remaining
      exact ⟨next :: rest, by simp [counted], .cons_cons related chain⟩

end CiPipeline.Chains
