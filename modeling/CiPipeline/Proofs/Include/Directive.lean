import CiPipeline.Include.Directive
import CiPipeline.Proofs.Sequencing
import Mathlib.Data.List.DropRight

/-!
# Reading include entries

Where an entry stands matters only for the failure to read it.  A document of a
project names files of that project by its local includes.
-/

namespace CiPipeline.Include

open CiPipeline.Sequencing

private theorem ofAddress_trail {trail other : Trail} {address : String}
    {directive : Include} (success : ofAddress trail address = .ok directive) :
    ofAddress other address = .ok directive := by
  unfold ofAddress at success ⊢
  split at success
  · exact success
  · cases success

private theorem ofMapping_trail {trail other : Trail} {entry : Node}
    {directive : Include} (success : ofMapping trail entry = .ok directive) :
    ofMapping other entry = .ok directive := by
  have require {Value : Type} {value : Option Value} {problem : Problem}
      {result : Value} (success : trail.require value problem = .ok result) :
      other.require value problem = .ok result :=
    Trail.require_eq_ok_iff.mpr (Trail.require_eq_ok_iff.mp success)
  unfold ofMapping at success ⊢
  dsimp only at success ⊢
  split at success
  · obtain ⟨path, isText, success⟩ := bind_eq_ok_iff.mp success
    simp only [require isText]
    exact success
  · split at success
    · obtain ⟨project, isText, success⟩ := bind_eq_ok_iff.mp success
      obtain ⟨files, areTexts, success⟩ := bind_eq_ok_iff.mp success
      simp only [require isText, require areTexts]
      exact success
    · split at success
      · obtain ⟨name, isText, success⟩ := bind_eq_ok_iff.mp success
        simp only [require isText]
        exact success
      · split at success
        · obtain ⟨address, isText, success⟩ := bind_eq_ok_iff.mp success
          simp only [require isText]
          exact ofAddress_trail success
        · cases success

private theorem ofEntry_trail {trail other : Trail} {entry : Node}
    {directive : Include} (success : ofEntry trail entry = .ok directive) :
    ofEntry other entry = .ok directive := by
  cases entry with
  | text target =>
      unfold ofEntry at success ⊢
      dsimp only at success ⊢
      cases remote : isAddress target with
      | true =>
          rw [remote, if_pos rfl] at success
          rw [if_pos rfl]
          exact ofAddress_trail success
      | false => simpa [remote] using success
  | mapping entries => exact ofMapping_trail success
  | _ => cases success

theorem read_trail {trail other : Trail} {value : Option Node}
    {directives : List Include} (success : read trail value = .ok directives) :
    read other value = .ok directives :=
  mapM_of_steps (fun _ _ _ step => ofEntry_trail step) success

/-- What a directive names when its document is a file of a project. -/
def inProject (project : Option (String × String))
    (directive : Include) : Include :=
  match project with
  | none => directive
  | some (name, ref) => directive.within name ref

theorem dropSlashes_dropSlashes (path : String) :
    dropSlashes (dropSlashes path) = dropSlashes path := by
  unfold dropSlashes
  rw [String.toList_ofList, List.dropWhile_idempotent]

end CiPipeline.Include
