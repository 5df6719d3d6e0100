import CiPipeline.Proofs.Pipeline.Repetition

/-!
# The stages of a resolved document

The first and the last stage are added to the stages of a document unless these
list them.  Where the document lists them itself, they stay in their places.
-/

namespace CiPipeline

open CiPipeline.Sequencing CiPipeline.JobFields

/-! ## The entries that configure the pipeline -/

section Reserved

variable {trail : Trail} {document result : Node} {key : String}

private theorem Inheritance.get?_resolve
    (success : Inheritance.resolve trail document = .ok result)
    (reserved : JobName.isReserved key = true) :
    result.get? key = document.get? key := by
  cases document with
  | mapping entries =>
      obtain ⟨after, rfl, related⟩ := Inheritance.resolve_inherited success
      have same : after.lookup key = entries.lookup key := by
        apply related.lookup_eq
        intro value other becomes
        exact becomes.reserved reserved
      simp only [Node.get?, Entries.value?, same]
  | _ =>
      cases success
      rfl

private theorem JobFields.get?_passes {passes : List FieldPass}
    (success : passes.foldlM (fun document pass => pass.run trail document)
      document = .ok result) (notReal : JobName.isReal key = false) :
    result.get? key = document.get? key := by
  induction passes generalizing document with
  | nil =>
      cases success
      rfl
  | cons pass rest induction =>
      rw [List.foldlM_cons] at success
      obtain ⟨between, first, others⟩ := bind_eq_ok_iff.mp success
      rw [induction others]
      exact get?_mapJobs first notReal

/-- Normalizing a document changes the entries that configure the pipeline by
their references only. -/
theorem get?_normalize (success : normalize trail document = .ok result)
    (reserved : JobName.isReserved key = true) :
    ∃ resolved, References.resolve trail document = .ok resolved ∧
      result.get? key = resolved.get? key := by
  have notReal : JobName.isReal key = false := by
    simp [JobName.isReal, reserved]
  rw [normalize_eq] at success
  obtain ⟨inherited, inherits, completes⟩ := bind_eq_ok_iff.mp success
  obtain ⟨resolved, references, inheritance⟩ := bind_eq_ok_iff.mp inherits
  obtain ⟨passed, passes, requires⟩ := bind_eq_ok_iff.mp completes
  refine ⟨resolved, references, ?_⟩
  calc
    result.get? key = passed.get? key := get?_mapJobs requires notReal
    _ = inherited.get? key := get?_passes passes notReal
    _ = resolved.get? key := Inheritance.get?_resolve inheritance reserved

end Reserved

namespace Pipeline

/-! ## Reading the stages -/

private theorem bracketStages_eq (stages : List String) :
    bracketStages stages = (if firstStage ∈ stages then [] else [firstStage]) ++
      stages ++ (if lastStage ∈ stages then [] else [lastStage]) := by
  unfold bracketStages
  by_cases first : firstStage ∈ stages <;>
    by_cases last : lastStage ∈ stages <;>
    simp [first, last, lastStage_ne_firstStage]

private theorem head?_bracketStages (stages : List String) :
    (bracketStages stages).head? = some firstStage ↔
      firstStage ∉ stages ∨ stages.head? = some firstStage := by
  rw [bracketStages_eq]
  by_cases first : firstStage ∈ stages
  · have nonempty : stages ≠ [] := List.ne_nil_of_mem first
    rw [if_pos first, List.nil_append, List.head?_append_of_ne_nil _ nonempty]
    simp [first]
  · simp [first]

private theorem getLast?_bracketStages (stages : List String) :
    (bracketStages stages).getLast? = some lastStage ↔
      lastStage ∉ stages ∨ stages.getLast? = some lastStage := by
  rw [bracketStages_eq]
  by_cases last : lastStage ∈ stages
  · have nonempty : stages ≠ [] := List.ne_nil_of_mem last
    rw [if_pos last, List.append_nil, List.getLast?_append_of_ne_nil _ nonempty]
    simp [last]
  · simp [last]

theorem readStages_eq_ok_iff {trail : Trail} {document : Node}
    {stages : List String} :
    readStages trail document = .ok stages ↔
      ∃ items listed, document.get? "stages" = some (.sequence items) ∧
        List.Forall₂ (fun item text => item.scalar? = some text) items listed ∧
          stages = bracketStages listed := by
  have sequence (items : List Node) :
      (document.get? "stages").bind Node.items? = some items ↔
      document.get? "stages" = some (.sequence items) := by
    cases document.get? "stages" with
    | none => simp
    | some value => cases value <;> simp [Node.items?]
  unfold readStages
  dsimp only
  simp only [bind_eq_ok_iff, Trail.require_eq_ok_iff, mapM_eq_ok_iff, sequence,
    pure_eq_ok, Except.ok.injEq]
  constructor
  · intro success
    obtain ⟨items, declared, listed, scalars, equal⟩ := success
    exact ⟨items, listed, declared, scalars, equal.symm⟩
  · intro parts
    obtain ⟨items, listed, declared, scalars, equal⟩ := parts
    exact ⟨items, declared, listed, scalars, equal.symm⟩

private theorem get?_withStages {document value : Node} {stages : List String}
    (present : document.get? "stages" = some value) :
    (withStages document stages).get? "stages" =
      some (.sequence (stages.map .text)) := by
  cases document with
  | mapping entries => simp [withStages, Node.get?, Entries.value?]
  | _ => cases present

variable {options : PipelineOptions} {repository : Repository} {document : Node}
  {pipeline : Pipeline}

/-- The stages of a pipeline are those that its document lists, behind the first
stage unless that is listed, and before the last stage unless that is listed.
So they start with the first stage, or end with the last one, exactly when the
list does or leaves that stage out. -/
theorem ofDocument_stages
    (success : ofDocument options repository document = .ok pipeline) :
    ∃ resolved items listed,
      References.resolve Trail.root document = .ok resolved ∧
      resolved.get? "stages" = some (.sequence items) ∧
      List.Forall₂ (fun item text => item.scalar? = some text) items listed ∧
      pipeline.stages = (if firstStage ∈ listed then [] else [firstStage]) ++
        listed ++ (if lastStage ∈ listed then [] else [lastStage]) ∧
      (pipeline.stages.head? = some firstStage ↔
        firstStage ∉ listed ∨ listed.head? = some firstStage) ∧
      (pipeline.stages.getLast? = some lastStage ↔
        lastStage ∉ listed ∨ listed.getLast? = some lastStage) ∧
      pipeline.document.get? "stages" =
          some (.sequence (pipeline.stages.map .text)) := by
  obtain ⟨normal, isResolved⟩ := ofDocument_resolved success
  have reserved : JobName.isReserved "stages" = true := by decide
  obtain ⟨resolved, references, kept⟩ :=
    get?_normalize isResolved.normalizes reserved
  obtain ⟨items, listed, declared, scalars, bracketed⟩ :=
    readStages_eq_ok_iff.mp isResolved.stages
  refine ⟨resolved, items, listed, references, kept.symm.trans declared,
    scalars, ?_, ?_, ?_, ?_⟩
  · rw [bracketed, bracketStages_eq]
  · rw [bracketed]
    exact head?_bracketStages listed
  · rw [bracketed]
    exact getLast?_bracketStages listed
  · rw [isResolved.document]
    exact get?_withStages declared

/-- A document with one job that lists its stages. -/
def stagedDocument (stages : List String) : Node :=
  .mapping [("stages", .sequence (stages.map .text)),
    ("build", .mapping [("stage", .text "build"),
      ("script", .sequence [.text "make"])])]

/-- Only the stage that is missing is added. -/
theorem ofDocument_stages_added :
    ∃ pipeline, ofDocument {} {} (stagedDocument ["build", ".pre"]) =
      .ok pipeline ∧
      pipeline.stages.getLast? = some lastStage ∧
      pipeline.document.get? "stages" =
        some (.sequence (["build", ".pre", ".post"].map .text)) := by
  have resolves :
      ((ofDocument {} {} (stagedDocument ["build", ".pre"])).toOption.map
      Pipeline.stages) = some ["build", ".pre", ".post"] := by
    rfl
  obtain ⟨pipeline, resolved, stages⟩ := Option.map_eq_some_iff.mp resolves
  have success := eq_ok_of_toOption resolved
  obtain ⟨_, _, _, _, _, _, _, _, _, entry⟩ := ofDocument_stages success
  rw [stages] at entry
  exact ⟨pipeline, success, by rw [stages]; rfl, entry⟩

/-- Stages that a document lists elsewhere than at the ends stay there. -/
theorem ofDocument_stages_misplaced :
    ∃ pipeline, ofDocument {} {} (stagedDocument [".post", "build", ".pre"]) =
      .ok pipeline ∧
      pipeline.stages.head? ≠ some firstStage ∧
      pipeline.stages.getLast? ≠ some lastStage := by
  have resolves : ((ofDocument {} {}
    (stagedDocument [".post", "build", ".pre"])).toOption.map
      Pipeline.stages) = some [".post", "build", ".pre"] := by
    rfl
  obtain ⟨pipeline, resolved, stages⟩ := Option.map_eq_some_iff.mp resolves
  refine ⟨pipeline, eq_ok_of_toOption resolved, ?_, ?_⟩
  · rw [stages]
    decide
  · rw [stages]
    decide

end Pipeline

end CiPipeline
