import CiPipeline.Proofs.Document.Repetition
import CiPipeline.Proofs.Pipeline.Independence
import CiPipeline.Proofs.Pipeline.JobParts

/-!
# Resolving a resolved document

The document of a resolved pipeline resolves again, to the same stages and
the same jobs, except that the lines of the pipeline come in front of every
script once more.
-/

namespace CiPipeline

open CiPipeline.Sequencing CiPipeline.JobFields

namespace Job

variable {environment : JobEnvironment} {trail : Trail} {name : String}
  {fields again : Entries} {job : Job}

/-- Lines that are read to texts. -/
def ReadTo (lines : List Node) (texts : List String) : Prop :=
  lines.map Node.scalar? = texts.map some

theorem lines_mapping_eq_ok_iff {field : String} {texts : List String} :
    lines trail (.mapping fields) field = .ok texts ↔
      IsScript (fields.lookup field) ∧
        ReadTo (linesOf (fields.lookup field)) texts := by
  have readTo (items : List Node) :
      List.Forall₂ (fun item text => item.scalar? = some text) items texts ↔
        ReadTo items texts := by
    unfold ReadTo
    rw [← List.forall₂_eq_eq_eq, List.forall₂_map_left_iff,
      List.forall₂_map_right_iff]
  have nothing : ReadTo [] texts ↔ texts = [] := by
    cases texts <;> simp [ReadTo]
  have scalars (items : List Node) (read : ReadTo items texts) :
      IsScript (some (.sequence items)) := by
    apply IsScript.lines
    intro line member
    have shown : line.scalar? ∈ texts.map some :=
      read ▸ List.mem_map_of_mem member
    obtain ⟨text, _, equal⟩ := List.mem_map.mp shown
    simp [← equal]
  simp only [lines_eq_ok_iff, readTo, Node.get?, value?_eq_given]
  cases found : fields.lookup field with
  | none => simp [given, linesOf, nothing, IsScript.missing]
  | some value =>
      cases value with
      | null => simp [given, linesOf, nothing, IsScript.null]
      | sequence items => simpa [given, linesOf] using scalars items
      | _ =>
          simp only [given, reduceCtorEq, false_and, Option.some.injEq,
            exists_false, or_self, false_iff, not_and]
          intro script
          cases script

/-- A job is composed alike from definitions that have all fields but the
scripts in common. -/
theorem Composed.withScripts
    (composed : Composed environment trail name (.mapping fields) job)
    (others : ∀ key, key ∉ scriptFields → again.lookup key = fields.lookup key)
    {before script after : List String}
    (beforeRead : lines trail (.mapping again) "before_script" = .ok before)
    (scriptRead : lines trail (.mapping again) "script" = .ok script)
    (afterRead : lines trail (.mapping again) "after_script" = .ok after) :
    Composed environment trail name (.mapping again)
      { job with beforeScript :=
                   before, script := script, afterScript := after } := by
  have same (key : String) (other : key ∉ scriptFields) :
      (Node.mapping again).get? key = (Node.mapping fields).get? key := by
    simp only [Node.get?, Entries.value?, others key other]
  obtain ⟨declaredWhen, declared, scheduled⟩ := composed.scheduled
  exact {
    named := composed.named
    stage := by simpa only [same "stage" (by decide)] using composed.stage
    bindings := by
      simpa only [allVariables, ownVariables, same "variables" (by decide)]
        using composed.bindings
    rules := by
      simpa only [readRules, same "rules" (by decide)] using composed.rules
    image := by
      simpa only [readField, same "image" (by decide)] using composed.image
    services := by
      simpa only [readField, same "services" (by decide)]
        using composed.services
    beforeScript := beforeRead
    script := scriptRead
    afterScript := afterRead
    needs := by
      simpa only [readNeeds, same "needs" (by decide)] using composed.needs
    artifacts := by
      simpa only [same "artifacts" (by decide)] using composed.artifacts
    trigger := by simpa only [same "trigger" (by decide)] using composed.trigger
    scheduled := by
      refine ⟨declaredWhen, ?_, ?_⟩
      · simpa only [readWhen, same "when" (by decide)] using declared
      · simpa only [same "allow_failure" (by decide)] using scheduled
    interactive := by
      simpa only [readFlag, same "interactive" (by decide)]
        using composed.interactive
    injectSshAgent := by
      simpa only [readFlag, same "injectSSHAgent" (by decide)]
        using composed.injectSshAgent
    artifactsToSource := by
      simpa only [readFlag, same "artifactsToSource" (by decide)]
        using composed.artifactsToSource
    description := by
      simpa only [same "description" (by decide)] using composed.description }

/-- A job beside the same job with lines in front of its scripts, where they
stand already. -/
inductive Repeated (document : Node) (job : Job) : Job → Prop where
  | inFront {before script after : List String} :
      ReadTo (commonLines document "before_script") before →
        before <+: job.beforeScript →
      ReadTo (commonLines document "script") script → script <+: job.script →
      ReadTo (commonLines document "after_script") after →
      after <+: job.afterScript →
      Repeated document job
        { job with
          beforeScript := before ++ job.beforeScript
          script := script ++ job.script
          afterScript := after ++ job.afterScript }

private theorem lines_again {field : String} {texts : List String}
    {common : List Node}
    (read : lines trail (.mapping fields) field = .ok texts)
    (scriptAgain :
      ScriptAgain common (fields.lookup field) (again.lookup field)) :
    ∃ front, ReadTo common front ∧ front <+: texts ∧
      lines trail (.mapping again) field = .ok (front ++ texts) := by
  obtain ⟨_, ownRead⟩ := lines_mapping_eq_ok_iff.mp read
  obtain ⟨rest, split⟩ := scriptAgain.front
  have parts := ownRead
  unfold ReadTo at parts
  rw [← split, List.map_append] at parts
  obtain ⟨front, back, rfl, frontRead, _⟩ :=
    List.map_eq_append_iff.mp parts.symm
  refine ⟨front, frontRead.symm, List.prefix_append ..,
    lines_mapping_eq_ok_iff.mpr ?_⟩
  refine ⟨scriptAgain.script, ?_⟩
  unfold ReadTo at ownRead ⊢
  rw [scriptAgain.lines, List.map_append, List.map_append, ownRead, frontRead]

private theorem ofDefinition_again {document : Node}
    (repeats : Repeats document fields again)
    (success :
      ofDefinition environment trail name (.mapping fields) = .ok job) :
    ∃ other, ofDefinition environment trail name (.mapping again) = .ok other ∧
      Repeated document job other := by
  have composed := ofDefinition_composed success
  obtain ⟨before, beforeCommon, beforeFront, beforeRead⟩ :=
    lines_again composed.beforeScript
      (repeats.scripts "before_script" (by decide))
  obtain ⟨script, scriptCommon, scriptFront, scriptRead⟩ :=
    lines_again composed.script (repeats.scripts "script" (by decide))
  obtain ⟨after, afterCommon, afterFront, afterRead⟩ :=
    lines_again composed.afterScript
      (repeats.scripts "after_script" (by decide))
  refine ⟨_, ofDefinition_eq_ok_iff.mpr
    (composed.withScripts repeats.others beforeRead scriptRead afterRead), ?_⟩
  exact .inFront beforeCommon beforeFront scriptCommon scriptFront
    afterCommon afterFront

/-- The scripts of a definition from which a job is built can be read. -/
theorem isScript_of_ofDefinition
    (success :
      ofDefinition environment trail name (.mapping fields) = .ok job) :
    ∀ field ∈ scriptFields, IsScript (fields.lookup field) := by
  have composed := ofDefinition_composed success
  intro field listed
  simp only [scriptFields, List.mem_cons, List.not_mem_nil, or_false] at listed
  rcases listed with rfl | rfl | rfl
  · exact (lines_mapping_eq_ok_iff.mp composed.beforeScript).1
  · exact (lines_mapping_eq_ok_iff.mp composed.script).1
  · exact (lines_mapping_eq_ok_iff.mp composed.afterScript).1

end Job

/-- The entries of a document behind the passes over the whole of it, and the
change that the other passes make to its jobs. -/
theorem normalize_completes {trail : Trail} {entries : Entries} {result : Node}
    (success : normalize trail (.mapping entries) = .ok result) :
    ∃ resolved inherited : Entries,
      Inheritance.resolve trail (.mapping resolved) = .ok (.mapping inherited) ∧
        mapJobs trail (complete (.mapping inherited)) (.mapping inherited) =
          .ok result := by
  have whole := success
  rw [normalize_eq] at whole
  obtain ⟨_, inherits, _⟩ := bind_eq_ok_iff.mp whole
  obtain ⟨_, references, inheritance⟩ := bind_eq_ok_iff.mp inherits
  obtain ⟨resolved, rfl, _⟩ := References.resolve_keys references
  obtain ⟨inherited, rfl, _⟩ := Inheritance.resolve_inherited inheritance
  exact ⟨resolved, inherited, inheritance,
    (normalize_eq_ok_iff inherits).mp success⟩

namespace Pipeline

variable {options : PipelineOptions} {repository : Repository}
  {entries final : Entries} {pipeline : Pipeline}

/-! ## Stages -/

theorem lastStage_ne_firstStage : lastStage ≠ firstStage := by decide

private theorem bracketStages_bracketStages (stages : List String) :
    bracketStages (bracketStages stages) = bracketStages stages := by
  have brackets :
      firstStage ∈ bracketStages stages ∧ lastStage ∈ bracketStages stages := by
    unfold bracketStages
    by_cases first : firstStage ∈ stages <;>
      by_cases last : lastStage ∈ stages <;>
      simp [first, last, lastStage_ne_firstStage]
  rw [bracketStages]
  simp [brackets]

private theorem bracketStages_of_readStages {trail : Trail} {document : Node}
    {stages : List String} (success : readStages trail document = .ok stages) :
    bracketStages stages = stages := by
  obtain ⟨_, _, read⟩ := bind_eq_ok_iff.mp success
  obtain ⟨declared, _, equal⟩ := bind_eq_ok_iff.mp read
  cases equal
  exact bracketStages_bracketStages declared

/-- Stages that are bracketed and listed as texts are read to themselves. -/
theorem readStages_listed {trail : Trail} {document : Node}
    {stages : List String}
    (listed : document.get? "stages" = some (.sequence (stages.map .text)))
    (bracketed : bracketStages stages = stages) :
    readStages trail document = .ok stages := by
  have texts : (stages.map Node.text).mapM (fun stage =>
      (trail.descend "stages").require stage.scalar? (.invalidStage stage)) =
          .ok stages := by
    apply mapM_eq_ok_iff.mpr
    rw [List.forall₂_map_left_iff, List.forall₂_same]
    intro stage _
    rfl
  refine bind_eq_ok_iff.mpr
    ⟨stages.map .text, Trail.require_eq_ok_iff.mpr ?_, ?_⟩
  · rw [listed]
    rfl
  · rw [texts, ok_bind, bracketed, pure_eq_ok]

/-! ## The jobs of a resolved document -/

private theorem get?_withStages_of_ne (document : Node) (stages : List String)
    {key : String} (different : key ≠ "stages") :
    (withStages document stages).get? key = document.get? key := by
  cases document with
  | mapping entries =>
      simp only [withStages, Node.get?, Entries.value?,
        Entries.lookup_put_of_ne _ _ different]
  | _ => rfl

private theorem complete_withStages (document : Node) (stages : List String) :
    complete (withStages document stages) = complete document := by
  apply complete_of_defaults
  intro pass listed
  have others : ∀ pass ∈ fieldPasses, pass.1 ≠ "stages" := by simp [fieldPasses]
  apply pipelineDefault_of_get?
  · exact get?_withStages_of_ne document stages (by decide)
  · exact get?_withStages_of_ne document stages (others pass listed)

/-- A job that was completed with the defaults of a document, and whose scripts
can be read. -/
inductive CompletedJob (document : Node) (name : String) : Node → Prop where
  | mk {original job : Entries} :
      original.keys.Nodup →
      complete document (Trail.root.descend name) original = .ok job →
      (∀ field ∈ scriptFields, IsScript (job.lookup field)) →
      CompletedJob document name (.mapping job)

private theorem completed_of_resolved {normal : Node}
    (resolved : Resolved options repository (.mapping entries) normal pipeline)
    {name : String} {definition : Node}
    (member : (name, definition) ∈ definitions pipeline.document) :
    CompletedJob pipeline.document name definition := by
  obtain ⟨job, _, read⟩ := exists_result_of_mapM resolved.jobs member
  obtain ⟨_, inherited, inheritance, completes⟩ :=
    normalize_completes resolved.normalizes
  have sameChange :
      complete pipeline.document = complete (.mapping inherited) := by
    rw [resolved.document, complete_withStages]
    exact complete_of_defaults fun pass _ =>
      pipelineDefault_mapJobs completes pass.1
  obtain ⟨settled, rfl, related⟩ := mapJobs_eq_ok_iff.mp completes
  rw [resolved.document, definitions_withStages] at member
  obtain ⟨inSettled, real⟩ := List.mem_filter.mp member
  obtain ⟨_, inInherited, becomes⟩ := related.mem_right inSettled
  cases becomes with
  | job _ completed =>
      obtain ⟨_, equal, distinct⟩ :=
        Inheritance.resolve_distinct inheritance inInherited real
      cases equal
      rw [← sameChange] at completed
      exact .mk distinct completed
        (Job.isScript_of_ofDefinition (readJob_eq_ok_iff.mp read).1)
  | other hidden => simp [real] at hidden

/-! ## The second run -/

/-- An entry of a resolved document beside what the passes make of
it once more. -/
inductive EntryAgain (document : Node) (name : String) :
    Node → Node → Prop where
  | job {job again : Entries} :
      JobName.isReal name = true → Repeats document job again →
      EntryAgain document name (.mapping job) (.mapping again)
  | other {definition : Node} :
      JobName.isReal name = false →
        EntryAgain document name definition definition

private theorem normalize_again
    (success : ofDocument options repository (.mapping entries) =
      .ok pipeline) :
    ∃ final after : Entries, pipeline.document = .mapping final ∧
      normalize Trail.root pipeline.document = .ok (.mapping after) ∧
        Entries.Related (EntryAgain pipeline.document) final after := by
  obtain ⟨normal, resolved⟩ := ofDocument_resolved success
  obtain ⟨_, _, free, final, document, _, form⟩ := ofDocument_normal success
  have completed (name : String) (definition : Node)
      (member : (name, definition) ∈ definitions pipeline.document) :
      CompletedJob pipeline.document name definition :=
        completed_of_resolved resolved member
  rw [document] at free completed ⊢
  have inherits : Inheritance.resolve Trail.root (.mapping final) =
      .ok (.mapping final) := by
    apply Inheritance.resolve_of_complete
    intro name definition member
    refine ⟨(form name definition member).1, ?_⟩
    intro real
    cases completed name definition (List.mem_filter.mpr ⟨member, real⟩) with
    | mk distinct completes _ =>
        exact ⟨_, rfl,
          nodup_keys_writeAll distinct (complete_eq_ok_iff.mp completes).1⟩
  have each : ∀ name definition, (name, definition) ∈ final → ∃ other,
      Changed Trail.root (complete (.mapping final)) name definition other ∧
        EntryAgain (.mapping final) name definition other := by
    intro name definition member
    cases real : JobName.isReal name with
    | false => exact ⟨definition, .other real, .other real⟩
    | true =>
        cases completed name definition
            (List.mem_filter.mpr ⟨member, real⟩) with
        | mk _ completes scripts =>
            obtain ⟨again, completesAgain, repeats⟩ :=
              complete_again completes scripts
            exact ⟨.mapping again, .job real completesAgain, .job real repeats⟩
  obtain ⟨after, related⟩ := Entries.Related.exists_of_each each
  refine ⟨final, after, rfl, ?_, related.mono fun _ _ _ both => both.2⟩
  have resolves : (References.resolve Trail.root (.mapping final) >>=
      Inheritance.resolve Trail.root) = .ok (.mapping final) := by
    rw [References.resolve_of_free free, ok_bind, inherits]
  apply (normalize_eq_ok_iff resolves).mpr
  exact mapJobs_eq_ok_iff.mpr
    ⟨after, rfl, related.mono fun _ _ _ both => both.1⟩

private theorem get?_again {document : Node} {final after : Entries}
    (related : Entries.Related (EntryAgain document) final after) {key : String}
    (notReal : JobName.isReal key = false) :
    (Node.mapping after).get? key = (Node.mapping final).get? key := by
  have same : after.lookup key = final.lookup key := by
    apply related.lookup_eq
    intro value other becomes
    cases becomes with
    | job real _ => simp [notReal] at real
    | other _ => rfl
  simp only [Node.get?, Entries.value?, same]

private theorem readJob_again {document : Node} {environment : JobEnvironment}
    {stages : List String} {trail : Trail} {name : String}
    {definition other : Node} {job : Job} (real : JobName.isReal name = true)
    (becomes : EntryAgain document name definition other)
    (read : readJob environment stages trail (name, definition) = .ok job) :
    ∃ again, readJob environment stages trail (name, other) = .ok again ∧
      Job.Repeated document job again := by
  obtain ⟨builds, inStages⟩ := readJob_eq_ok_iff.mp read
  cases becomes with
  | job _ repeats =>
      obtain ⟨again, buildsAgain, repeated⟩ :=
        Job.ofDefinition_again repeats builds
      have sameStage : again.stage = job.stage := by
        cases repeated
        rfl
      exact ⟨again, readJob_eq_ok_iff.mpr ⟨buildsAgain, sameStage ▸ inStages⟩,
        repeated⟩
  | other hidden => simp [real] at hidden

private theorem checkVariables_again {document : Node} {trail : Trail}
    {name : String} {definition other : Node}
    (becomes : EntryAgain document name definition other)
    (checked : checkVariables trail (name, definition) = .ok ()) :
    checkVariables trail (name, other) = .ok () := by
  cases becomes with
  | job _ repeats =>
      simpa only [checkVariables, Node.get?, Entries.value?,
        repeats.others "variables" (by decide)] using checked
  | other _ => exact checked

section Again

variable {document : Node} {after : Entries}

private theorem jobs_again
    (related : Entries.Related (EntryAgain document) final after)
    {environment : JobEnvironment}
    {stages : List String} {trail : Trail} {jobs : List Job}
    (read : (definitions (.mapping final)).mapM
      (readJob environment stages trail) = .ok jobs) :
    ∃ jobsAgain,
      (definitions (.mapping after)).mapM (readJob environment stages trail) =
        .ok jobsAgain ∧
        List.Forall₂ (Job.Repeated document) jobs jobsAgain := by
  apply mapM_alike (related.filter JobName.isReal) _ read
  intro entry other job alike readOne
  obtain ⟨name, definition⟩ := entry
  obtain ⟨_, otherDefinition⟩ := other
  obtain ⟨rfl, real, becomes⟩ := alike
  exact readJob_again real becomes readOne

private theorem checked_again
    (related : Entries.Related (EntryAgain document) final after)
    {trail : Trail}
    (checked : ∀ entry ∈ definitions (.mapping final),
      checkVariables trail entry = .ok ()) :
    ∀ entry ∈ definitions (.mapping after),
      checkVariables trail entry = .ok () := by
  intro entry member
  obtain ⟨_, original, _, becomes⟩ :=
    (related.filter JobName.isReal).mem_right member
  exact checkVariables_again becomes (checked _ original)

private theorem entries_again
    (related : Entries.Related (EntryAgain document) final after)
    (nothing : ∀ field ∈ scriptFields, commonLines document field = []) :
    after = final := by
  apply related.eq_of_each
  intro name definition other becomes
  cases becomes with
  | job _ repeats => rw [repeats.same nothing]
  | other _ => rfl

end Again

/-- A resolved document lists the stages of its pipeline. -/
theorem Resolved.listed {normal : Node}
    (resolved : Resolved options repository (.mapping entries)
      normal pipeline) :
    pipeline.document.get? "stages" =
      some (.sequence (pipeline.stages.map .text)) := by
  obtain ⟨settled, rfl, _⟩ := normalize_settled resolved.normalizes
  rw [resolved.document]
  simp [withStages, Node.get?, Entries.value?]

/-- The document of a resolved pipeline resolves again, to the same stages and
the same jobs, except that the lines of the pipeline come in front of the
scripts once more.  A document without such lines is resolved to itself. -/
theorem ofDocument_again
    (success : ofDocument options repository (.mapping entries) =
      .ok pipeline) :
    ∃ again, ofDocument options repository pipeline.document = .ok again ∧
      again.stages = pipeline.stages ∧
      List.Forall₂ (Job.Repeated pipeline.document) pipeline.jobs again.jobs ∧
      ((∀ field ∈ scriptFields, commonLines pipeline.document field = []) →
        again = pipeline) := by
  obtain ⟨final, after, document, normalizes, related⟩ :=
    normalize_again success
  obtain ⟨normal, resolved, checked, rfl⟩ := ofDocument_eq_ok_iff.mp success
  have reserved (key : String) (notReal : JobName.isReal key = false) :
      (Node.mapping after).get? key = pipeline.document.get? key := by
    rw [get?_again related notReal, document]
  have listed := (reserved "stages" (by decide)).trans resolved.listed
  have kept : withStages (.mapping after) pipeline.stages = .mapping after := by
    simp only [withStages,
      Entries.put_of_lookup (Entries.lookup_of_value? listed)]
  have sameVariables :
      Job.globalVariables (.mapping after) =
        Job.globalVariables pipeline.document := by
    unfold Job.globalVariables
    rw [reserved "variables" (by decide)]
  have jobs := resolved.jobs
  rw [← readJob_document sameVariables, document] at jobs
  rw [document] at checked
  obtain ⟨jobsAgain, readAgain, repeated⟩ := jobs_again related jobs
  let again : Pipeline :=
    { pipeline with document := .mapping after, jobs := jobsAgain }
  have resolvedAgain :
      Resolved options pipeline.repository pipeline.document
        (.mapping after) again :=
    ⟨normalizes, readStages_listed listed (bracketStages_of_readStages
      resolved.stages), kept.symm, readAgain⟩
  refine ⟨again, ?_, rfl, repeated, ?_⟩
  · apply ofDocument_eq_ok_iff.mpr
    exact ⟨_, resolvedAgain, checked_again related checked, rfl⟩
  · intro nothing
    have sameDocument : again.document = pipeline.document := by
      rw [document, ← entries_again related nothing]
    have sameJobs : again.jobs = pipeline.jobs := by
      have read := resolvedAgain.jobs
      rw [sameDocument] at read
      exact Except.ok.inj (read.symm.trans resolved.jobs)
    exact congrArg₂ (fun document jobs =>
      ({ pipeline with document, jobs } : Pipeline)) sameDocument sameJobs

theorem ofDocument_again_templated :
    ∃ pipeline again,
      ofDocument {} {} (.mapping templatedDocument) = .ok pipeline ∧
      ofDocument {} {} pipeline.document = .ok again ∧
      List.Forall₂ (Job.Repeated pipeline.document) pipeline.jobs again.jobs ∧
      pipeline.jobs.map Job.beforeScript = [["setup"], ["setup"]] ∧
      again.jobs.map Job.beforeScript =
        [["setup", "setup"], ["setup", "setup"]] := by
  have first : ((ofDocument {} {} (.mapping templatedDocument)).toOption.map
      fun pipeline =>
      pipeline.jobs.map Job.beforeScript) = some [["setup"], ["setup"]] := by
    decide +kernel
  have second : ((ofDocument {} {} (.mapping templatedDocument)).toOption.bind
      fun pipeline =>
      (ofDocument {} {} pipeline.document).toOption.map fun again =>
        again.jobs.map Job.beforeScript) =
            some [["setup", "setup"], ["setup", "setup"]] := by
    decide +kernel
  obtain ⟨pipeline, resolved, scripts⟩ := Option.map_eq_some_iff.mp first
  have success := eq_ok_of_toOption resolved
  obtain ⟨again, successAgain, _, repeated, _⟩ := ofDocument_again success
  rw [resolved, Option.bind_some, successAgain] at second
  exact ⟨pipeline, again, success, successAgain, repeated, scripts,
    Option.some.inj second⟩

end Pipeline

end CiPipeline
