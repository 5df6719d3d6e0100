import CiPipeline.Proofs.Document.Inheritance
import CiPipeline.Proofs.Document.Insertion
import CiPipeline.Proofs.Document.JobFields
import CiPipeline.Proofs.Document.ReferenceTransfer
import CiPipeline.Proofs.Pipeline.NormalForm

/-!
# Independence of jobs from unrelated entries

A job sees of the rest of its document what it names: what its references point
to, its parents, and the entries that configure the pipeline.  One more job or
template leaves all other jobs as they are.
-/

namespace CiPipeline

open CiPipeline.Sequencing

variable {key : String} {before after : List String} {small large : Entries}
  {trail : Trail}

/-- A document, and the same document with one more entry. -/
inductive Node.Inserted (key : String) (before after : List String) :
    Node → Node → Prop where
  | mapping {small large : Entries} :
      Entries.Inserted key before after small large →
      Inserted key before after (.mapping small) (.mapping large)

private theorem Entries.Inserted.get?_of_reserved
    (inserted : Entries.Inserted key before after small large)
    (notReserved : JobName.isReserved key = false) {name : String}
    (reserved : JobName.isReserved name = true) :
    (Node.mapping large).get? name = (Node.mapping small).get? name := by
  refine inserted.value?_of_ne ?_
  rintro rfl
  simp [notReserved] at reserved

/-! ## The passes -/

private theorem References.resolve_inserted
    (inserted : Entries.Inserted key before after small large)
    {smallResult largeResult : Node}
    (left : resolve trail (.mapping small) = .ok smallResult)
    (right : resolve trail (.mapping large) = .ok largeResult) :
    Node.Inserted key before after smallResult largeResult := by
  obtain ⟨smallAfter, smallSteps, equal⟩ := bind_eq_ok_iff.mp left
  cases equal
  obtain ⟨largeAfter, largeSteps, equal⟩ := bind_eq_ok_iff.mp right
  cases equal
  have noWhole := noWhole_of_resolveEntries smallSteps
  have finds : ∀ name value,
      small.lookup name = some value → large.lookup name = some value :=
    fun name value => inserted.lookup
  have shared := shared_of_lookup finds noWhole
  have keeps (root : Node) (hop : Hop) : KeepsNames fun entry => do
      return (entry.1, ← resolveEntry root hop trail entry.1 entry.2) := by
    intro entry result success
    obtain ⟨_, _, equal⟩ := bind_eq_ok_iff.mp success
    cases equal
    rfl
  rw [resolveEntries_eq_mapM] at smallSteps largeSteps
  refine .mapping
    (inserted.mapM (keeps _ _) (keeps _ _) ?_ smallSteps largeSteps)
  intro entry member result success
  obtain ⟨value, resolution, equal⟩ := bind_eq_ok_iff.mp success
  obtain ⟨index, stands⟩ := List.mem_iff_getElem?.mp member
  have entryNoWhole : NoWhole entry.2 :=
    noWhole.of_part (.entry stands (.whole entry.2))
  have covers := hopWithin_covers shared (Nat.le_refl (hopLimit + 1))
  exact bind_eq_ok_iff.mpr
    ⟨value, covers _ _ _ _ entryNoWhole resolution _ _, equal⟩

namespace Inheritance

/-- The ancestors that are found in the smaller document are found in
the larger one. -/
theorem ancestors_transfer
    (finds : ∀ name value, small.value? name = some value →
      large.value? name = some value) (depth : Nat) {trail : Trail}
    {name : String} {definition : Node} {lines : List Node}
    (success : ancestors small depth trail name definition = .ok lines) :
    ancestors large depth trail name definition = .ok lines := by
  induction depth generalizing trail name definition lines with
  | zero => cases success
  | succ depth induction =>
      obtain ⟨lists, collected, equal⟩ := ancestors_succ_eq_ok_iff.mp success
      refine ancestors_succ_eq_ok_iff.mpr
        ⟨lists, mapM_of_steps ?_ collected, equal⟩
      intro parentName _ line step
      obtain ⟨parent, above, found, aboveSuccess, equal⟩ :=
        parentLine_eq_ok_iff.mp step
      exact parentLine_eq_ok_iff.mpr
        ⟨parent, above, finds _ _ found, induction aboveSuccess, equal⟩

private theorem inheritEntry_transfer
    (finds : ∀ name value, small.value? name = some value →
      large.value? name = some value) {entry result : String × Node}
    (success : inheritEntry trail small entry = .ok result) :
    inheritEntry trail large entry = .ok result := by
  obtain ⟨name, definition⟩ := entry
  apply inheritEntry_eq_ok_iff.mpr
  rcases inheritEntry_eq_ok_iff.mp success with
    kept | ⟨real, above, collected, equal⟩
  · exact .inl kept
  · exact .inr ⟨real, above,
      ancestors_transfer finds depthLimit collected, equal⟩

private theorem resolve_inserted
    (inserted : Entries.Inserted key before after small large)
    {smallResult largeResult : Node}
    (left : resolve trail (.mapping small) = .ok smallResult)
    (right : resolve trail (.mapping large) = .ok largeResult) :
    Node.Inserted key before after smallResult largeResult := by
  obtain ⟨smallNormal, smallInherited, smallNormalized, smallInherits, rfl⟩ :=
    resolve_eq_ok_iff.mp left
  obtain ⟨largeNormal, largeInherited, largeNormalized, largeInherits, rfl⟩ :=
    resolve_eq_ok_iff.mp right
  have keepsNormalizing : KeepsNames (normalizeEntry trail) := by
    intro entry result success
    exact (normalizeEntry_normalized success).1
  have normal := inserted.mapM keepsNormalizing keepsNormalizing
    (fun _ _ _ success => success) smallNormalized largeNormalized
  have keepsInheriting (entries : Entries) :
      KeepsNames (inheritEntry trail entries) := by
    intro entry result success
    exact inheritEntry_name success
  have inherited := normal.mapM (keepsInheriting _) (keepsInheriting _)
    (fun _ _ _ success => inheritEntry_transfer
      (fun _ _ => normal.value?) success) smallInherits largeInherits
  refine .mapping (inherited.map forgetParents ?_)
  rintro ⟨name, definition⟩
  rw [forgetParents_eq]

end Inheritance

namespace JobFields

private theorem mapJobs_inserted
    (inserted : Entries.Inserted key before after small large)
    {change : Trail → Entries → Except Failure Entries}
    {smallResult largeResult : Node}
    (left : mapJobs trail change (.mapping small) = .ok smallResult)
    (right : mapJobs trail change (.mapping large) = .ok largeResult) :
    Node.Inserted key before after smallResult largeResult := by
  obtain ⟨smallAfter, smallSteps, equal⟩ := bind_eq_ok_iff.mp left
  cases equal
  obtain ⟨largeAfter, largeSteps, equal⟩ := bind_eq_ok_iff.mp right
  cases equal
  have keeps : KeepsNames (changeEntry trail change) := by
    intro entry result success
    exact (changeEntry_eq_ok_iff.mp success).1
  exact .mapping (inserted.mapM keeps keeps
    (fun _ _ _ success => success) smallSteps largeSteps)

/-- The defaults of the pipeline are read from the entries that configure it. -/
theorem pipelineDefault_inserted
    (inserted : Entries.Inserted key before after small large)
    (notReserved : JobName.isReserved key = false) (field : String) :
    pipelineDefault (.mapping large) field =
      pipelineDefault (.mapping small) field := by
  unfold pipelineDefault
  rw [inserted.get?_of_reserved notReserved
    (by decide : JobName.isReserved "default" = true)]
  cases reserved : JobName.isReserved field with
  | false => rfl
  | true => rw [inserted.get?_of_reserved notReserved reserved]

end JobFields

/-- Every pass leaves the entries alike that two documents have in common. -/
theorem Pass.run_inserted (pass : Pass)
    (notReserved : JobName.isReserved key = false)
    (inserted : Entries.Inserted key before after small large)
    {smallResult largeResult : Node}
    (left : pass.run trail (.mapping small) = .ok smallResult)
    (right : pass.run trail (.mapping large) = .ok largeResult) :
    Node.Inserted key before after smallResult largeResult := by
  have defaults := JobFields.pipelineDefault_inserted inserted notReserved
  cases pass with
  | references => exact References.resolve_inserted inserted left right
  | inheritance => exact Inheritance.resolve_inserted inserted left right
  | artifacts =>
      simp only [Pass.run, JobFields.artifacts, defaults] at left right
      exact JobFields.mapJobs_inserted inserted left right
  | image =>
      simp only [Pass.run, JobFields.image, defaults] at left right
      exact JobFields.mapJobs_inserted inserted left right
  | services =>
      simp only [Pass.run, JobFields.services, defaults] at left right
      exact JobFields.mapJobs_inserted inserted left right
  | beforeScripts =>
      simp only [Pass.run, JobFields.beforeScripts, JobFields.joinScripts,
        defaults] at left right
      exact JobFields.mapJobs_inserted inserted left right
  | afterScripts =>
      simp only [Pass.run, JobFields.afterScripts, JobFields.joinScripts,
        defaults] at left right
      exact JobFields.mapJobs_inserted inserted left right
  | scripts =>
      simp only [Pass.run, JobFields.scripts, JobFields.joinScripts, defaults]
        at left right
      obtain ⟨smallJoined, leftJoin, left⟩ := bind_eq_ok_iff.mp left
      obtain ⟨largeJoined, rightJoin, right⟩ := bind_eq_ok_iff.mp right
      cases JobFields.mapJobs_inserted inserted leftJoin rightJoin with
      | mapping joined => exact JobFields.mapJobs_inserted joined left right

private theorem Pass.runAll_inserted (passes : List Pass)
    (notReserved : JobName.isReserved key = false)
    {smallDocument largeDocument smallResult largeResult : Node}
    (inserted : Node.Inserted key before after smallDocument largeDocument)
    (left : passes.foldlM (fun document pass => pass.run trail document)
      smallDocument = .ok smallResult)
    (right : passes.foldlM (fun document pass => pass.run trail document)
      largeDocument = .ok largeResult) :
    Node.Inserted key before after smallResult largeResult := by
  induction passes generalizing smallDocument largeDocument with
  | nil =>
      cases left
      cases right
      exact inserted
  | cons pass rest induction =>
      rw [List.foldlM_cons] at left right
      obtain ⟨smallNext, leftStep, leftRest⟩ := bind_eq_ok_iff.mp left
      obtain ⟨largeNext, rightStep, rightRest⟩ := bind_eq_ok_iff.mp right
      cases inserted with
      | mapping entries =>
          exact induction (pass.run_inserted notReserved entries leftStep
            rightStep) leftRest rightRest

/-! ## The jobs -/

namespace Pipeline

/-- A job reads nothing of the document around it but the variables of
the pipeline. -/
theorem readJob_document {options : PipelineOptions} {repository : Repository}
    {document other : Node}
    (same : Job.globalVariables other = Job.globalVariables document) :
    readJob (environment options repository other) =
      readJob (environment options repository document) := by
  funext stages trail definition
  simp only [readJob, Job.ofDefinition, Job.allVariables, environment, same]
  rfl

/-- Listing the stages in a document changes no job. -/
theorem definitions_withStages (document : Node) (stages : List String) :
    definitions (withStages document stages) = definitions document := by
  cases document with
  | mapping entries =>
      show (Entries.put entries "stages" _).filter _ = entries.filter _
      induction entries with
      | nil => rfl
      | cons entry rest induction =>
          obtain ⟨name, value⟩ := entry
          by_cases same : name = "stages"
          · subst same
            rfl
          · simp only [Entries.put, beq_iff_eq, same, if_false,
              List.filter_cons, induction]
  | _ => rfl

private theorem globalVariables_withStages (document : Node)
    (stages : List String) :
    Job.globalVariables (withStages document stages) =
      Job.globalVariables document := by
  cases document with
  | mapping entries =>
      have kept : (Node.mapping
        (Entries.put entries "stages" (.sequence (stages.map .text)))).get?
          "variables" = (Node.mapping entries).get? "variables" := by
        simp only [Node.get?, Entries.value?]
        rw [Entries.lookup_put_of_ne _ _ (by decide)]
      simp only [Job.globalVariables, withStages, kept]
  | _ => rfl

/-- Resolving a document reads the jobs that its normal form defines. -/
theorem Resolved.jobs_normal {options : PipelineOptions}
    {repository : Repository} {document normal : Node} {pipeline : Pipeline}
    (resolved : Resolved options repository document normal pipeline) :
    (definitions normal).mapM
      (readJob (environment options repository normal) pipeline.stages
        Trail.root) = .ok pipeline.jobs := by
  have jobs := resolved.jobs
  have same :
      Job.globalVariables pipeline.document = Job.globalVariables normal := by
    rw [resolved.document, globalVariables_withStages]
  have definitionsEq : definitions pipeline.document = definitions normal := by
    rw [resolved.document, definitions_withStages]
  rw [definitionsEq, readJob_document same] at jobs
  exact jobs

private theorem readStages_inserted
    (inserted : Entries.Inserted key before after small large)
    (notReserved : JobName.isReserved key = false) (trail : Trail) :
    readStages trail (.mapping large) = readStages trail (.mapping small) := by
  unfold readStages
  rw [inserted.get?_of_reserved notReserved
    (by decide : JobName.isReserved "stages" = true)]

private theorem globalVariables_inserted
    (inserted : Entries.Inserted key before after small large)
    (notReserved : JobName.isReserved key = false) :
    Job.globalVariables (.mapping large) =
      Job.globalVariables (.mapping small) := by
  unfold Job.globalVariables
  rw [inserted.get?_of_reserved notReserved
    (by decide : JobName.isReserved "variables" = true)]

private theorem definitions_append (earlier later : Entries) :
    definitions (.mapping (earlier ++ later)) =
      definitions (.mapping earlier) ++ definitions (.mapping later) :=
  List.filter_append ..

private theorem definitions_insert (earlier later : Entries)
    (entry : String × Node) :
    definitions (.mapping (earlier ++ entry :: later)) =
      definitions (.mapping earlier) ++
        (definitions (.mapping [entry]) ++ definitions (.mapping later)) := by
  rw [← definitions_append, ← definitions_append]
  rfl

/-- One more entry that does not configure the pipeline, at any place of a
document, leaves the stages and all jobs of the document as they are.  The entry
itself is the one job that is added, unless it is hidden. -/
theorem ofDocument_insert {options : PipelineOptions} {repository : Repository}
    {before after : Entries} {key : String} {definition : Node}
    {pipeline extended : Pipeline}
    (absent : key ∉ Entries.keys (before ++ after))
    (notReserved : JobName.isReserved key = false)
    (success : ofDocument options repository (.mapping (before ++ after)) =
      .ok pipeline)
    (extendedSuccess : ofDocument options repository
      (.mapping (before ++ (key, definition) :: after)) = .ok extended) :
    extended.stages = pipeline.stages ∧
      ∃ earlier added later,
        pipeline.jobs = earlier ++ later ∧
        extended.jobs = earlier ++ added ++ later ∧
        earlier.map Job.name = before.keys.filter JobName.isReal ∧
        later.map Job.name = after.keys.filter JobName.isReal ∧
        added.map Job.name = if JobName.isHidden key then [] else [key] := by
  obtain ⟨smallNormal, small⟩ := ofDocument_resolved success
  obtain ⟨largeNormal, large⟩ := ofDocument_resolved extendedSuccess
  have fresh : key ∉ before.keys ++ after.keys := by
    simpa [Entries.keys] using absent
  have start : Entries.Inserted key before.keys after.keys (before ++ after)
      (before ++ (key, definition) :: after) := .between rfl rfl fresh
  -- The normal forms differ by the new entry alone, so that the definitions
  -- before and behind it are read to the same jobs.
  cases Pass.runAll_inserted Pass.all notReserved (.mapping start)
      small.normalizes large.normalizes with
  | @mapping smallEntries largeEntries inserted =>
      have stages := large.stages
      rw [readStages_inserted inserted notReserved, small.stages] at stages
      have sameStages : extended.stages = pipeline.stages :=
        (Except.ok.inj stages).symm
      have smallJobs := small.jobs_normal
      have largeJobs := large.jobs_normal
      rw [sameStages,
        readJob_document (globalVariables_inserted inserted notReserved)]
        at largeJobs
      refine ⟨sameStages, ?_⟩
      cases inserted with
      | @between earlier later value front back _ =>
          rw [definitions_append] at smallJobs
          rw [definitions_insert] at largeJobs
          obtain ⟨earlierJobs, laterJobs, smallEqual, smallEarlier,
              smallLater⟩ :=
            mapM_append_eq_ok_iff.mp smallJobs
          obtain ⟨otherEarlier, rest, largeEqual, largeEarlier, largeRest⟩ :=
            mapM_append_eq_ok_iff.mp largeJobs
          obtain ⟨added, otherLater, rfl, addedJobs, largeLater⟩ :=
            mapM_append_eq_ok_iff.mp largeRest
          cases smallEarlier.symm.trans largeEarlier
          cases smallLater.symm.trans largeLater
          refine ⟨earlierJobs, added, laterJobs, smallEqual, ?_, ?_, ?_, ?_⟩
          · rw [largeEqual, List.append_assoc]
          · rw [names_of_definitions smallEarlier, front]
          · rw [names_of_definitions smallLater, back]
          · rw [names_of_definitions addedJobs]
            cases hidden : JobName.isHidden key <;>
              simp [Entries.keys, JobName.isReal, notReserved, hidden]

/-- A job that takes its parts from a template and from a default that
it refers to. -/
def lintJob : Node :=
  .mapping [("extends", .sequence [.text ".base"]),
    ("script", .sequence [.reference [.text "default", .text "before_script"],
      .text "lint"])]

theorem ofDocument_insert_lint :
    ∃ pipeline extended,
      ofDocument {} {}
        (.mapping (templatedDocument.take 4 ++ templatedDocument.drop 4)) =
        .ok pipeline ∧
      ofDocument {} {}
        (.mapping (templatedDocument.take 4 ++
          ("lint", lintJob) :: templatedDocument.drop 4)) = .ok extended ∧
      extended.stages = pipeline.stages ∧
      ∃ earlier added later,
        pipeline.jobs = earlier ++ later ∧
          extended.jobs = earlier ++ added ++ later ∧
          added.map Job.name = ["lint"] := by
  have resolves : (ofDocument {} {}
      (.mapping (templatedDocument.take 4 ++ templatedDocument.drop 4))).isOk =
        true := by
    decide +kernel
  have alsoResolves : (ofDocument {} {} (.mapping
      (templatedDocument.take 4 ++
        ("lint", lintJob) :: templatedDocument.drop 4))).isOk = true := by
    decide +kernel
  obtain ⟨pipeline, success⟩ := exists_of_isOk resolves
  obtain ⟨extended, extendedSuccess⟩ := exists_of_isOk alsoResolves
  obtain ⟨stages, earlier, added, later, jobs, extendedJobs, _, _, names⟩ :=
    ofDocument_insert (by decide) (by decide) success extendedSuccess
  exact ⟨pipeline, extended, success, extendedSuccess, stages, earlier, added,
    later, jobs, extendedJobs, names⟩

end Pipeline

end CiPipeline
