import CiPipeline.Include.Resolution
import CiPipeline.Proofs.Sequencing
import CiPipeline.Proofs.Workspace

/-!
# Actions that change no file

An action of the resolution of includes settles when it leaves the workspace as
it is and its result does not depend on which projects are filled.  Loading a
document that is there settles.
-/

namespace CiPipeline

open CiPipeline.Action CiPipeline.Sequencing

namespace Resolution

variable {Given Result : Type} {surroundings : Surroundings}
  {workspace : Workspace}

/-- An action that leaves the workspace as it is, whatever is filled already,
and gives a result or fails. -/
def Settles (surroundings : Surroundings) (workspace : Workspace)
    (action : Resolution Result) :
    Option Result → Prop
  | some result => ∀ filled, ∃ after,
      perform surroundings (action.run filled) workspace =
        (.ok (result, after), workspace)
  | none => ∀ filled, ∃ failure,
      perform surroundings (action.run filled) workspace =
        (.error failure, workspace)

theorem settles_pure (result : Result) :
    Settles surroundings workspace (pure result) (some result) :=
  fun filled => ⟨filled, rfl⟩

theorem settles_throw (failure : Failure) :
    Settles surroundings workspace (throw failure : Resolution Result) none :=
  fun _ => ⟨failure, rfl⟩

theorem perform_lift {action : Action Result} {result : Result}
    (filled : Filled)
    (success : perform surroundings action workspace =
      (.ok result, workspace)) :
    perform surroundings ((liftM action : Resolution Result).run filled)
      workspace = (.ok (result, filled), workspace) := by
  show perform surroundings (action >>= fun result => pure (result, filled))
    workspace = _
  rw [perform_bind, success]
  rfl

theorem settles_lift {action : Action Result} {result : Result}
    (success : perform surroundings action workspace =
      (.ok result, workspace)) :
    Settles surroundings workspace (liftM action) (some result) :=
  fun filled => ⟨filled, perform_lift filled success⟩

theorem Settles.bind {action : Resolution Given}
    {next : Given → Resolution Result}
    {given : Option Given} {result : Given → Option Result}
    (first : Settles surroundings workspace action given)
    (second : ∀ value, given = some value →
      Settles surroundings workspace (next value) (result value)) :
    Settles surroundings workspace (action >>= next) (given.bind result) := by
  cases given with
  | none =>
      intro filled
      obtain ⟨failure, failed⟩ := first filled
      refine ⟨failure, ?_⟩
      rw [StateT.run_bind, perform_bind, failed]
  | some value =>
      have rest := second value rfl
      rw [Option.bind_some]
      cases equal : result value with
      | none =>
          rw [equal] at rest
          intro filled
          obtain ⟨between, done⟩ := first filled
          obtain ⟨failure, failed⟩ := rest between
          refine ⟨failure, ?_⟩
          rw [StateT.run_bind, perform_bind, done]
          exact failed
      | some last =>
          rw [equal] at rest
          intro filled
          obtain ⟨between, done⟩ := first filled
          obtain ⟨after, finished⟩ := rest between
          refine ⟨after, ?_⟩
          rw [StateT.run_bind, perform_bind, done]
          exact finished

theorem settles_mapM {values : List Given} {step : Given → Resolution Result}
    {result : Given → Option Result}
    (each : ∀ value ∈ values, Settles surroundings workspace (step value)
      (result value)) :
    Settles surroundings workspace (values.mapM step) (values.mapM result) := by
  induction values with
  | nil => exact settles_pure []
  | cons value rest induction =>
      rw [List.mapM_cons, List.mapM_cons]
      refine Settles.bind (each value (by simp)) ?_
      intro first _
      refine Settles.bind
        (induction fun other member => each other (by simp [member])) ?_
      intro others _
      exact settles_pure (first :: others)

end Resolution

/-! ## Loading a file -/

theorem Files.has_of_text {files : Files} {path text : String}
    (success : files.text path = .ok text) : files.has path = .ok true := by
  obtain ⟨content, read, _⟩ := bind_eq_ok_iff.mp success
  unfold Files.content at read
  unfold Files.has
  split at read
  · rename_i found
    rw [found]
  · cases read
  · cases read
  · cases read

theorem Document.perform_load {surroundings : Surroundings}
    {workspace : Workspace} {path text : String} {document : Node}
    (there : workspace.files.text path = .ok text)
    (read : Document.read text = .ok document) :
    perform surroundings (Document.load path) workspace =
      (.ok document, workspace) := by
  rw [Document.load, perform_bind, perform_look, Files.has_of_text there]
  dsimp only
  rw [if_pos rfl, perform_bind, perform_look, there]
  dsimp only
  rw [read]
  rfl

end CiPipeline
