import CiPipeline.Normalization
import CiPipeline.Proofs.Document.JobFields

/-!
# How jobs are completed

The field passes write one field each and leave the defaults of the pipeline as
they are.  Run one after another they make a single change to every job, in
which the value of a field depends on nothing but the old one.
-/

namespace CiPipeline

open CiPipeline.Sequencing

namespace JobFields

variable {trail : Trail}
  {change next : Trail → Entries → Except Failure Entries}
  {entries job after : Entries} {result : Node}

/-! ## Writing several fields -/

/-- Updates fields of a job one after another. -/
def writeAll (writes : List (String × Update)) (trail : Trail) (job : Entries) :
    Except Failure Entries :=
  writes.foldlM (fun job entry => write entry.1 entry.2 trail job) job

theorem writeAll_cons (field : String) (update : Update)
    (rest : List (String × Update)) (trail : Trail) (job : Entries) :
    writeAll ((field, update) :: rest) trail job =
      (write field update trail job >>= writeAll rest trail) := List.foldlM_cons

private theorem lookup_write_of_ne {field key : String} {update : Update}
    (success : write field update trail job = .ok after)
    (different : key ≠ field) :
    after.lookup key = job.lookup key := by
  rcases write_eq_ok_iff.mp success with ⟨_, rfl⟩ | ⟨value, _, rfl⟩
  · rfl
  · exact Entries.lookup_put_of_ne _ _ different

private theorem lookup_write_self {field : String} {update : Update}
    (success : write field update trail job = .ok after) :
    ∃ new, update trail (job.lookup field) = .ok new ∧
      after.lookup field = new.or (job.lookup field) := by
  rcases write_eq_ok_iff.mp success with ⟨kept, rfl⟩ | ⟨value, updated, rfl⟩
  · exact ⟨none, kept, rfl⟩
  · exact ⟨some value, updated, Entries.lookup_put_self ..⟩

private theorem exists_write {field : String} {update : Update}
    {new : Option Node} (updated : update trail (job.lookup field) = .ok new) :
    ∃ after, write field update trail job = .ok after := by
  cases new with
  | none => exact ⟨job, write_eq_ok_iff.mpr (.inl ⟨updated, rfl⟩)⟩
  | some value => exact ⟨_, write_eq_ok_iff.mpr (.inr ⟨value, updated, rfl⟩)⟩

/-- The entries under a field after an update. -/
def replaced (field : String) (new : Option Node) (old : Entries) : Entries :=
  match new with
  | none => old
  | some value => (field, value) :: old.tail

private theorem under_write_self {field : String} {update : Update}
    {new : Option Node} (updated : update trail (job.lookup field) = .ok new)
    (success : write field update trail job = .ok after) :
    after.under field = replaced field new (job.under field) := by
  rcases write_eq_ok_iff.mp success with ⟨kept, rfl⟩ | ⟨value, put, rfl⟩
  · cases updated.symm.trans kept
    rfl
  · cases updated.symm.trans put
    exact Entries.under_put_self job field value

private theorem under_write_of_ne {field key : String} {update : Update}
    (success : write field update trail job = .ok after)
    (different : key ≠ field) :
    after.under key = job.under key := by
  rcases write_eq_ok_iff.mp success with ⟨_, rfl⟩ | ⟨value, _, rfl⟩
  · rfl
  · exact Entries.under_put_of_ne job value different

/-- What stands under the fields of a job after writes: no write sees
another one. -/
structure Replaced (writes : List (String × Update)) (trail : Trail)
    (job after : Entries) : Prop where
  others : ∀ key, key ∉ writes.map Prod.fst → after.under key = job.under key
  updated : ∀ field update, (field, update) ∈ writes →
    ∃ new, update trail (job.lookup field) = .ok new ∧
      after.under field = replaced field new (job.under field)

theorem replaced_of_writeAll {writes : List (String × Update)}
    (distinct : (writes.map Prod.fst).Nodup)
    (success : writeAll writes trail job = .ok after) :
    Replaced writes trail job after := by
  induction writes generalizing job with
  | nil =>
      cases success
      exact ⟨fun _ _ => rfl, by simp⟩
  | cons entry rest induction =>
      obtain ⟨field, update⟩ := entry
      obtain ⟨fresh, distinctRest⟩ := List.nodup_cons.mp distinct
      rw [writeAll_cons] at success
      obtain ⟨between, first, remaining⟩ := bind_eq_ok_iff.mp success
      have replaced := induction distinctRest remaining
      constructor
      · intro key absent
        obtain ⟨different, notInRest⟩ := not_or.mp (List.mem_cons.not.mp absent)
        rw [replaced.others key notInRest, under_write_of_ne first different]
      · intro other otherUpdate member
        rcases List.mem_cons.mp member with equal | inRest
        · cases equal
          obtain ⟨new, updated, _⟩ := lookup_write_self first
          exact ⟨new, updated, by
            rw [replaced.others field fresh, under_write_self updated first]⟩
        · have different : other ≠ field := by
            rintro rfl
            exact fresh (List.mem_map.mpr ⟨_, inRest, rfl⟩)
          rw [← lookup_write_of_ne first different,
            ← under_write_of_ne first different]
          exact replaced.updated other otherUpdate inRest

/-- What becomes of the fields of a job: those that are listed are updated, and
the others stay. -/
structure Written (writes : List (String × Update)) (trail : Trail)
    (job after : Entries) : Prop where
  others : ∀ key, key ∉ writes.map Prod.fst → after.lookup key = job.lookup key
  updated : ∀ field update, (field, update) ∈ writes →
    ∃ new, update trail (job.lookup field) = .ok new ∧
      after.lookup field = new.or (job.lookup field)

theorem written_of_writeAll {writes : List (String × Update)}
    (distinct : (writes.map Prod.fst).Nodup)
    (success : writeAll writes trail job = .ok after) :
    Written writes trail job after := by
  have replaced := replaced_of_writeAll distinct success
  constructor
  · intro key absent
    rw [Entries.lookup_eq_under, replaced.others key absent,
      ← Entries.lookup_eq_under]
  · intro field update member
    obtain ⟨new, updated, equal⟩ := replaced.updated field update member
    refine ⟨new, updated, ?_⟩
    rw [Entries.lookup_eq_under after, equal, Entries.lookup_eq_under job]
    cases new <;> rfl

theorem exists_writeAll {writes : List (String × Update)}
    (distinct : (writes.map Prod.fst).Nodup)
    (each : ∀ field update, (field, update) ∈ writes →
      ∃ new, update trail (job.lookup field) = .ok new) :
    ∃ after, writeAll writes trail job = .ok after := by
  induction writes generalizing job with
  | nil => exact ⟨job, rfl⟩
  | cons entry rest induction =>
      obtain ⟨field, update⟩ := entry
      obtain ⟨fresh, distinctRest⟩ := List.nodup_cons.mp distinct
      obtain ⟨new, updated⟩ := each field update (by simp)
      obtain ⟨between, first⟩ := exists_write updated
      have eachRest : ∀ other otherUpdate, (other, otherUpdate) ∈ rest →
          ∃ new, otherUpdate trail (between.lookup other) = .ok new := by
        intro other otherUpdate member
        have different : other ≠ field := by
          rintro rfl
          exact fresh (List.mem_map.mpr ⟨_, member, rfl⟩)
        rw [lookup_write_of_ne first different]
        exact each other otherUpdate (by simp [member])
      obtain ⟨after, remaining⟩ := induction distinctRest eachRest
      rw [writeAll_cons]
      exact ⟨after, bind_eq_ok_iff.mpr ⟨between, first, remaining⟩⟩

theorem nodup_keys_writeAll {writes : List (String × Update)}
    (distinct : job.keys.Nodup)
    (success : writeAll writes trail job = .ok after) : after.keys.Nodup := by
  induction writes generalizing job with
  | nil =>
      cases success
      exact distinct
  | cons entry rest induction =>
      obtain ⟨field, update⟩ := entry
      rw [writeAll_cons] at success
      obtain ⟨between, first, remaining⟩ := bind_eq_ok_iff.mp success
      apply induction _ remaining
      rcases write_eq_ok_iff.mp first with ⟨_, rfl⟩ | ⟨value, _, rfl⟩
      · exact distinct
      · exact Entries.nodup_keys_put distinct field value

/-- An update that leaves a value as it is, or writes the same value again. -/
def Update.Rests (update : Update) (trail : Trail)
    (current : Option Node) : Prop :=
  ∃ new, update trail current = .ok new ∧ new.or current = current

private theorem write_of_rests {field : String} {update : Update}
    (rests : update.Rests trail (job.lookup field)) :
    write field update trail job = .ok job := by
  obtain ⟨new, updated, same⟩ := rests
  cases new with
  | none => exact write_eq_ok_iff.mpr (.inl ⟨updated, rfl⟩)
  | some value =>
      apply write_eq_ok_iff.mpr
      exact .inr ⟨value, updated, (Entries.put_of_lookup same.symm).symm⟩

theorem writeAll_of_rests {writes : List (String × Update)}
    (each : ∀ field update, (field, update) ∈ writes →
      update.Rests trail (job.lookup field)) :
    writeAll writes trail job = .ok job := by
  induction writes with
  | nil => rfl
  | cons entry rest induction =>
      obtain ⟨field, update⟩ := entry
      rw [writeAll_cons, write_of_rests (each field update (by simp)), ok_bind]
      exact induction fun other otherUpdate member =>
        each other otherUpdate (by simp [member])

/-! ## Passes one after another -/

/-- A change of the jobs and a second one behind it are one change. -/
theorem mapJobs_comp_eq_ok_iff :
    (∃ between, mapJobs trail change (.mapping entries) = .ok between ∧
        mapJobs trail next between = .ok result) ↔
      mapJobs trail (fun trail job => change trail job >>= next trail)
          (.mapping entries) = .ok result := by
  constructor
  · intro both
    obtain ⟨_, first, second⟩ := both
    obtain ⟨between, rfl, left⟩ := mapJobs_eq_ok_iff.mp first
    obtain ⟨after, rfl, right⟩ := mapJobs_eq_ok_iff.mp second
    apply mapJobs_eq_ok_iff.mpr
    refine ⟨after, rfl, (left.trans right).mono ?_⟩
    intro name before final steps
    obtain ⟨middle, firstStep, secondStep⟩ := steps
    cases firstStep with
    | job real changed =>
        cases secondStep with
        | job _ changedNext =>
            exact .job real (bind_eq_ok_iff.mpr ⟨_, changed, changedNext⟩)
        | other hidden => simp [real] at hidden
    | other hidden =>
        cases secondStep with
        | job real _ => simp [hidden] at real
        | other _ => exact .other hidden
  · intro success
    obtain ⟨after, rfl, related⟩ := mapJobs_eq_ok_iff.mp success
    have apart : Entries.Related (fun name before final => ∃ middle,
        Changed trail change name before middle ∧
          Changed trail next name middle final) entries after := by
      apply related.mono
      intro name before final becomes
      cases becomes with
      | job real changed =>
          obtain ⟨middle, first, second⟩ := bind_eq_ok_iff.mp changed
          exact ⟨.mapping middle, .job real first, .job real second⟩
      | other hidden => exact ⟨_, .other hidden, .other hidden⟩
    obtain ⟨between, left, right⟩ := apart.split
    exact ⟨.mapping between, mapJobs_eq_ok_iff.mpr ⟨between, rfl, left⟩,
      mapJobs_eq_ok_iff.mpr ⟨after, rfl, right⟩⟩

private theorem lookup_changed {key : String}
    (related : Entries.Related (Changed trail change) entries after)
    (notReal : JobName.isReal key = false) :
    after.lookup key = entries.lookup key := by
  apply related.lookup_eq
  intro value other becomes
  cases becomes with
  | job real _ => simp [notReal] at real
  | other _ => rfl

theorem get?_mapJobs {document : Node} {key : String}
    (success : mapJobs trail change document = .ok result)
    (notReal : JobName.isReal key = false) :
    result.get? key = document.get? key := by
  cases document with
  | mapping entries =>
      obtain ⟨after, rfl, related⟩ := mapJobs_eq_ok_iff.mp success
      simp only [Node.get?, Entries.value?, lookup_changed related notReal]
  | _ =>
      cases success
      rfl

theorem pipelineDefault_of_get? {document other : Node} {field : String}
    (default : other.get? "default" = document.get? "default")
    (same : other.get? field = document.get? field) :
    pipelineDefault other field = pipelineDefault document field := by
  unfold pipelineDefault
  rw [default, same]

theorem pipelineDefault_mapJobs {document : Node}
    (success : mapJobs trail change document = .ok result) (field : String) :
    pipelineDefault result field = pipelineDefault document field := by
  unfold pipelineDefault
  rw [get?_mapJobs success (by decide)]
  cases reserved : JobName.isReserved field with
  | false => rfl
  | true => rw [get?_mapJobs success (by simp [JobName.isReal, reserved])]

/-- A pass that updates one field of the jobs with the default of
the pipeline. -/
abbrev FieldPass := String × (Option Node → Update)

/-- Runs such a pass. -/
def FieldPass.run (pass : FieldPass) (trail : Trail) (document : Node) :
    Except Failure Node :=
  mapJobs trail (write pass.1 (pass.2 (pipelineDefault document pass.1)))
    document

/-- The writes of passes with the defaults of a document. -/
def FieldPass.writes (passes : List FieldPass) (document : Node) :
    List (String × Update) :=
  passes.map fun pass => (pass.1, pass.2 (pipelineDefault document pass.1))

/-- Passes each of which changes the jobs by the defaults of the pipeline make a
single change.  The induction is on the passes: each of them joins the change
that was made before it, as it reads the same defaults. -/
theorem mapJobs_foldlM_eq_ok_iff {Step : Type}
    {run : Step → Node → Except Failure Node}
    {changes : Step → Trail → Entries → Except Failure Entries}
    (runs : ∀ (step : Step) (between : Entries) (result : Node),
      (∀ field, pipelineDefault (.mapping between) field =
        pipelineDefault (.mapping entries) field) →
      (run step (.mapping between) = .ok result ↔
        mapJobs trail (changes step) (.mapping between) = .ok result))
    (steps : List Step) :
    (∃ between, mapJobs trail change (.mapping entries) = .ok between ∧
        steps.foldlM (fun document step => run step document) between =
          .ok result) ↔
      mapJobs trail
        (fun trail job => change trail job >>=
          steps.foldlM fun changed step => changes step trail changed)
        (.mapping entries) = .ok result := by
  induction steps generalizing change with
  | nil =>
      have unchanged : (fun trail job => change trail job >>=
          [].foldlM fun changed step => changes step trail changed) =
          change := by
        funext trail job
        show (change trail job >>= fun after => Except.ok after) =
          change trail job
        cases change trail job <;> rfl
      rw [unchanged]
      simp
  | cons step rest induction =>
      have joined : (fun trail job => change trail job >>=
          (step :: rest).foldlM fun changed step =>
            changes step trail changed) =
          fun trail job => (change trail job >>= changes step trail) >>=
            rest.foldlM fun changed step => changes step trail changed := by
        funext trail job
        cases change trail job <;> rfl
      rw [joined, ← induction]
      constructor
      · intro both
        obtain ⟨between, first, remaining⟩ := both
        rw [List.foldlM_cons] at remaining
        obtain ⟨next, second, others⟩ := bind_eq_ok_iff.mp remaining
        obtain ⟨middle, rfl, _⟩ := mapJobs_eq_ok_iff.mp first
        have changed :=
          (runs step middle next (pipelineDefault_mapJobs first)).mp second
        exact ⟨next, mapJobs_comp_eq_ok_iff.mp ⟨_, first, changed⟩, others⟩
      · intro both
        obtain ⟨next, combined, others⟩ := both
        obtain ⟨between, first, second⟩ := mapJobs_comp_eq_ok_iff.mpr combined
        obtain ⟨middle, rfl, _⟩ := mapJobs_eq_ok_iff.mp first
        have ran :=
          (runs step middle next (pipelineDefault_mapJobs first)).mpr second
        refine ⟨_, first, ?_⟩
        rw [List.foldlM_cons]
        exact bind_eq_ok_iff.mpr ⟨next, ran, others⟩

theorem mapJobs_passes_eq_ok_iff (passes : List FieldPass) :
    (∃ between, mapJobs trail change (.mapping entries) = .ok between ∧
        passes.foldlM (fun document pass => pass.run trail document) between =
          .ok result) ↔
      mapJobs trail
        (fun trail job => change trail job >>=
          writeAll (FieldPass.writes passes (.mapping entries)) trail)
        (.mapping entries) = .ok result := by
  have written (trail : Trail) :
      writeAll (FieldPass.writes passes (.mapping entries)) trail =
        passes.foldlM fun job pass =>
        write pass.1 (pass.2 (pipelineDefault (.mapping entries) pass.1))
            trail job := by
    funext job
    exact List.foldlM_map
  simp only [written]
  apply mapJobs_foldlM_eq_ok_iff
  intro pass between result same
  rw [FieldPass.run, same]

theorem foldlM_passes_eq_ok_iff (pass : FieldPass) (rest : List FieldPass) :
    (pass :: rest).foldlM (fun document pass => pass.run trail document)
      (.mapping entries) = .ok result ↔
      mapJobs trail
        (writeAll (FieldPass.writes (pass :: rest) (.mapping entries)))
        (.mapping entries) = .ok result := by
  rw [List.foldlM_cons, bind_eq_ok_iff]
  exact mapJobs_passes_eq_ok_iff rest

/-! ## The field passes -/

/-- The passes over single fields in their order. -/
def fieldPasses : List FieldPass :=
  [("artifacts", inheriting), ("image", normalizing "image" normalizeImage),
    ("services", normalizing "services" normalizeServices),
    ("before_script", joining "before_script"),
    ("after_script", joining "after_script"), ("script", joining "script")]

/-- The change that the field passes make to every job of a document. -/
def complete (document : Node) (trail : Trail) (job : Entries) :
    Except Failure Entries := do
  requireScript trail
    (← writeAll (FieldPass.writes fieldPasses document) trail job)

theorem complete_eq_ok_iff {document : Node} :
    complete document trail job = .ok after ↔
      writeAll (FieldPass.writes fieldPasses document) trail job = .ok after ∧
        isRunnable after = true := by
  unfold complete
  rw [bind_eq_ok_iff]
  constructor
  · intro both
    obtain ⟨completed, written, required⟩ := both
    obtain ⟨runs, rfl⟩ := requireScript_eq_ok_iff.mp required
    exact ⟨written, runs⟩
  · intro both
    exact ⟨after, both.1, requireScript_eq_ok_iff.mpr ⟨both.2, rfl⟩⟩

/-- The change depends on the defaults of the pipeline only. -/
theorem complete_of_defaults {document other : Node}
    (same : ∀ pass ∈ fieldPasses,
      pipelineDefault other pass.1 = pipelineDefault document pass.1) :
    complete other = complete document := by
  have writes : FieldPass.writes fieldPasses other =
      FieldPass.writes fieldPasses document := by
    apply List.map_congr_left
    intro pass listed
    rw [same pass listed]
  funext trail job
  rw [complete, complete, writes]

theorem distinct_writes (document : Node) :
    ((FieldPass.writes fieldPasses document).map Prod.fst).Nodup := by
  have distinct : (fieldPasses.map Prod.fst).Nodup := by decide
  simpa [FieldPass.writes, Function.comp_def] using distinct

end JobFields

/-- The passes that complete the jobs come behind those over the
whole document. -/
theorem normalize_eq (trail : Trail) (document : Node) :
    normalize trail document =
      (References.resolve trail document >>= Inheritance.resolve trail >>=
        fun inherited =>
        JobFields.fieldPasses.foldlM (fun document pass =>
          pass.run trail document) inherited >>=
          JobFields.mapJobs trail JobFields.requireScript) := by
  simp only [normalize, Pass.all, JobFields.fieldPasses, List.foldlM_cons,
    List.foldlM_nil, Pass.run, JobFields.FieldPass.run,
    ← JobFields.artifacts_eq_write, ← JobFields.image_eq_write,
    ← JobFields.services_eq_write, ← JobFields.joinScripts_eq_write,
    JobFields.scripts, bind_assoc, bind_pure]
  rfl

/-- Once a document has inherited, normalizing it is completing every job. -/
theorem normalize_eq_ok_iff {trail : Trail} {document : Node}
    {inherited : Entries} {result : Node}
    (inherits : (References.resolve trail document >>=
      Inheritance.resolve trail) = .ok (.mapping inherited)) :
    normalize trail document = .ok result ↔
      JobFields.mapJobs trail (JobFields.complete (.mapping inherited))
        (.mapping inherited) = .ok result := by
  have completes : JobFields.complete (.mapping inherited) = fun trail job =>
      JobFields.writeAll (JobFields.FieldPass.writes JobFields.fieldPasses
        (.mapping inherited)) trail job >>= JobFields.requireScript trail := rfl
  rw [normalize_eq, inherits, ok_bind, bind_eq_ok_iff, completes,
    ← JobFields.mapJobs_comp_eq_ok_iff]
  exact exists_congr fun between =>
    and_congr_left' (JobFields.foldlM_passes_eq_ok_iff _ _)

end CiPipeline
