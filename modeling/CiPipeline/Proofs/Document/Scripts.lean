import CiPipeline.Normalization
import CiPipeline.Proofs.Document.Completion
import CiPipeline.Proofs.Document.Repetition
import CiPipeline.Proofs.Document.Splicing

/-!
# Scripts of jobs

The pass over a script puts the lines of the pipeline in front of those of every
job and splices nested lists.  It fails for a job that is no mapping, for lines
that cannot be read or spliced, and for a job that is left with nothing to run.
-/

namespace CiPipeline.JobFields

open CiPipeline.Sequencing

/-- The scripts of a job. -/
inductive Script where
  | before
  | main
  | after
  deriving DecidableEq, Repr

/-- A value of a field that does not stand for lines. -/
inductive Unreadable : Option Node → Prop where
  | mapping (entries : Entries) : Unreadable (some (.mapping entries))
  | reference (pointer : List Node) : Unreadable (some (.reference pointer))

namespace Script

def field : Script → String
  | before => "before_script"
  | main => "script"
  | after => "after_script"

def pass : Script → Pass
  | before => .beforeScripts
  | main => .scripts
  | after => .afterScripts

/-- The lines of the pipeline and then those of a job, in which lists may still
be nested. -/
def lines (script : Script) (document : Node) (job : Entries) : List Node :=
  linesOf (pipelineDefault document script.field) ++
    linesOf (job.lookup script.field)

/-- A job with the lines of its script.  One that has none keeps the
field as it is. -/
def join (script : Script) (document : Node) (job : Entries) : Entries :=
  if script.lines document job = [] then job
  else job.put script.field
    (.sequence ((script.lines document job).flatMap References.spliced))

/-- What becomes of an entry of a document. -/
inductive Becomes (script : Script) (document : Node) (name : String) :
    Node → Node → Prop where
  | job {job : Entries} :
      JobName.isReal name = true →
      Becomes script document name (.mapping job)
        (.mapping (script.join document job))
  | other {definition : Node} :
      JobName.isReal name = false →
      Becomes script document name definition definition

/-- Why the script of a job of a document cannot be joined. -/
inductive Fails (script : Script) (document : Node) : Node → Prop where
  | noMapping {definition : Node} :
      definition.isMapping = false → Fails script document definition
  | common {job : Entries} :
      Unreadable (pipelineDefault document script.field) →
      Fails script document (.mapping job)
  | own {job : Entries} :
      Unreadable (job.lookup script.field) →
      Fails script document (.mapping job)
  | nullBesideList {job : Entries} {nested : List Node} :
      .null ∈ script.lines document job →
      .sequence nested ∈ script.lines document job →
      Fails script document (.mapping job)
  | nothingToRun {job : Entries} :
      script = .main →
      job.value? "trigger" = none →
      (script.lines document job).flatMap References.spliced = [] →
      Fails script document (.mapping job)

end Script

/-! ## One job -/

variable {trail : Trail} {fallback : Option Node} {job joined : Entries}
  {script : Script} {document : Node}

theorem scriptLines_eq_ok_iff {value : Option Node} {lines : List Node} :
    scriptLines trail value = .ok lines ↔
      ¬ Unreadable value ∧ lines = linesOf value := by
  constructor
  · intro success
    refine ⟨?_, scriptLines_eq_ok success⟩
    intro unreadable
    cases unreadable <;> cases success
  · intro both
    obtain ⟨readable, rfl⟩ := both
    cases value with
    | none => rfl
    | some node =>
        cases node with
        | mapping entries => exact (readable (.mapping entries)).elim
        | reference pointer => exact (readable (.reference pointer)).elim
        | _ => rfl

theorem any_isSequence_iff {items : List Node} :
    items.any References.isSequence = true ↔ ∃ nested,
      .sequence nested ∈ items := by
  rw [List.any_eq_true]
  constructor
  · intro found
    obtain ⟨item, member, isList⟩ := found
    cases item with
    | sequence nested => exact ⟨nested, member⟩
    | _ => cases isList
  · intro found
    obtain ⟨nested, member⟩ := found
    exact ⟨.sequence nested, member, rfl⟩

theorem joinScript_eq_ok_iff :
    joinScript script.field (pipelineDefault document script.field) trail job =
      .ok joined ↔
      ¬ Unreadable (pipelineDefault document script.field) ∧
        ¬ Unreadable (job.lookup script.field) ∧
        ((∃ nested, .sequence nested ∈ script.lines document job) →
          .null ∉ script.lines document job) ∧
        joined = script.join document job := by
  unfold joinScript Script.join Script.lines
  simp only [bind_eq_ok_iff, scriptLines_eq_ok_iff]
  constructor
  · intro success
    obtain ⟨common, ⟨commonReadable, rfl⟩, own, ⟨ownReadable, rfl⟩,
      remaining⟩ := success
    refine ⟨commonReadable, ownReadable, ?_⟩
    split at remaining
    · rename_i empty
      rw [List.isEmpty_iff] at empty
      cases remaining
      simp [empty]
    · rename_i filled
      rw [List.isEmpty_iff] at filled
      obtain ⟨flat, flattened, equal⟩ := bind_eq_ok_iff.mp remaining
      cases equal
      obtain ⟨noNull, rfl⟩ := References.flattenItems_eq_ok_iff.mp flattened
      rw [any_isSequence_iff] at noNull
      rw [if_neg filled]
      exact ⟨noNull, rfl⟩
  · intro conditions
    obtain ⟨commonReadable, ownReadable, noNull, rfl⟩ := conditions
    refine ⟨_, ⟨commonReadable, rfl⟩, _, ⟨ownReadable, rfl⟩, ?_⟩
    split
    · rename_i empty
      rw [List.isEmpty_iff] at empty
      rw [if_pos empty]
      rfl
    · rename_i filled
      rw [List.isEmpty_iff] at filled
      rw [if_neg filled]
      apply bind_eq_ok_iff.mpr
      refine ⟨_, References.flattenItems_eq_ok_iff.mpr ⟨?_, rfl⟩, rfl⟩
      rw [any_isSequence_iff]
      exact noNull

namespace Script

private theorem isRunnable_join :
    isRunnable (main.join document job) = true ↔
      job.value? "trigger" ≠ none ∨
        (main.lines document job).flatMap References.spliced ≠ [] := by
  unfold isRunnable join
  by_cases empty : main.lines document job = []
  · -- Without any lines, the field is missing, null or an empty list.
    have own : linesOf (job.lookup "script") = [] :=
      (List.append_eq_nil_iff.mp empty).2
    rw [if_pos empty, empty, Bool.or_eq_true, Option.isSome_iff_ne_none]
    cases found : job.lookup "script" with
    | none => simp
    | some value =>
        rw [found] at own
        cases value with
        | sequence lines =>
            obtain rfl : lines = [] := own
            simp
        | null => simp
        | _ => cases own
  · have trigger (value : Node) :
        (job.put main.field value).value? "trigger" = job.value? "trigger" := by
      unfold Entries.value?
      rw [Entries.lookup_put_of_ne job value
        (by decide : "trigger" ≠ main.field)]
    have own (value : Node) :
        (job.put main.field value).lookup "script" = some value :=
      Entries.lookup_put_self job "script" value
    rw [if_neg empty, trigger, own, Bool.or_eq_true, Option.isSome_iff_ne_none,
      Bool.not_eq_true', List.isEmpty_eq_false_iff]
    exact Or.comm

/-- What a script pass does to a job: the main script is required
of every job. -/
def change (script : Script) (document : Node) (trail : Trail) (job : Entries) :
    Except Failure Entries :=
  let joined :=
    joinScript script.field (pipelineDefault document script.field) trail job
  match script with
  | main => joined >>= requireScript trail
  | before | after => joined

/-- What the script of a job needs in order to be joined. -/
theorem not_fails_iff :
    ¬ script.Fails document (.mapping job) ↔
      (¬ Unreadable (pipelineDefault document script.field) ∧
        ¬ Unreadable (job.lookup script.field) ∧
        ((∃ nested, .sequence nested ∈ script.lines document job) →
          .null ∉ script.lines document job)) ∧
        (script = main → isRunnable (script.join document job) = true) := by
  constructor
  · intro holds
    refine ⟨⟨fun unreadable => holds (.common unreadable),
      fun unreadable => holds (.own unreadable), ?_⟩, ?_⟩
    · rintro ⟨nested, member⟩ null
      exact holds (.nullBesideList null member)
    · rintro rfl
      apply isRunnable_join.mpr
      by_contra neither
      rw [not_or, not_not, not_not] at neither
      exact holds (.nothingToRun rfl neither.1 neither.2)
  · rintro ⟨⟨commonReadable, ownReadable, noNull⟩, runnable⟩ fails
    cases fails with
    | noMapping isMapping => cases isMapping
    | common unreadable => exact commonReadable unreadable
    | own unreadable => exact ownReadable unreadable
    | nullBesideList null nested => exact noNull ⟨_, nested⟩ null
    | nothingToRun isMain noTrigger noLines =>
        subst isMain
        rcases isRunnable_join.mp (runnable rfl) with trigger | lines
        · exact trigger noTrigger
        · exact lines noLines

theorem change_eq_ok_iff :
    script.change document trail job = .ok joined ↔
      ¬ script.Fails document (.mapping job) ∧
        joined = script.join document job := by
  have runs : script.change document trail job = .ok joined ↔
      joinScript script.field (pipelineDefault document script.field) trail
        job = .ok joined ∧
        (script = main → isRunnable joined = true) := by
    cases script with
    | main =>
        simp only [change, bind_eq_ok_iff, requireScript_eq_ok_iff]
        grind
    | before | after => simp [change]
  rw [runs, joinScript_eq_ok_iff, not_fails_iff]
  constructor
  · rintro ⟨⟨commonReadable, ownReadable, noNull, rfl⟩, runnable⟩
    exact ⟨⟨⟨commonReadable, ownReadable, noNull⟩, runnable⟩, rfl⟩
  · rintro ⟨⟨⟨commonReadable, ownReadable, noNull⟩, runnable⟩, rfl⟩
    exact ⟨⟨commonReadable, ownReadable, noNull, rfl⟩, runnable⟩

/-! ## Whole documents -/

variable {entries : Entries} {result : Node}

theorem run_pass_eq_ok_iff :
    script.pass.run trail (.mapping entries) = .ok result ↔
      mapJobs trail (script.change (.mapping entries)) (.mapping entries) =
        .ok result := by
  cases script with
  | main => exact bind_eq_ok_iff.trans mapJobs_comp_eq_ok_iff
  | before | after => rfl

theorem changed_iff {name : String} {definition changed : Node} :
    Changed trail (script.change document) name definition changed ↔
      ¬ (JobName.isReal name = true ∧ script.Fails document definition) ∧
        script.Becomes document name definition changed := by
  constructor
  · intro becomes
    cases becomes with
    | job real step =>
        obtain ⟨holds, rfl⟩ := change_eq_ok_iff.mp step
        exact ⟨fun fails => holds fails.2, .job real⟩
    | other hidden =>
        refine ⟨?_, .other hidden⟩
        intro fails
        cases fails.1.symm.trans hidden
  · intro both
    obtain ⟨holds, becomes⟩ := both
    cases becomes with
    | job real =>
        exact .job real
          (change_eq_ok_iff.mpr ⟨fun fails => holds ⟨real, fails⟩, rfl⟩)
    | other hidden => exact .other hidden

private theorem exists_becomes {name : String} {definition : Node}
    (holds : ¬ (JobName.isReal name = true ∧
      script.Fails document definition)) :
    ∃ changed, script.Becomes document name definition changed := by
  cases real : JobName.isReal name with
  | false => exact ⟨definition, .other real⟩
  | true =>
      cases definition with
      | mapping job => exact ⟨_, .job real⟩
      | _ => exact (holds ⟨real, .noMapping rfl⟩).elim

/-- A script pass that succeeds puts under the field of every job the lines of
the pipeline and then its own, with nested lists spliced, and leaves everything
else as it is.  It fails exactly when a job gives a reason to. -/
theorem run_joins_scripts (script : Script) (trail : Trail)
    (entries : Entries) :
    (∀ result, script.pass.run trail (.mapping entries) = .ok result →
      ∃ after, result = .mapping after ∧
        Entries.Related (script.Becomes (.mapping entries)) entries after) ∧
      ((∃ failure, script.pass.run trail (.mapping entries) = .error failure) ↔
        ∃ entry ∈ entries, JobName.isReal entry.1 = true ∧
          script.Fails (.mapping entries) entry.2) := by
  have success (result : Node) :
      script.pass.run trail (.mapping entries) = .ok result ↔
      ∃ after, result = .mapping after ∧
        Entries.Related (Changed trail (script.change (.mapping entries)))
          entries after :=
    run_pass_eq_ok_iff.trans mapJobs_eq_ok_iff
  constructor
  · intro result ran
    obtain ⟨after, rfl, related⟩ := (success result).mp ran
    exact ⟨after, rfl, related.mono fun _ _ _ becomes =>
      (changed_iff.mp becomes).2⟩
  · constructor
    · intro failed
      obtain ⟨failure, failed⟩ := failed
      by_contra none
      have each (name : String) (definition : Node)
          (member : (name, definition) ∈ entries) :
          ∃ changed, Changed trail (script.change (.mapping entries)) name
            definition changed := by
        have holds : ¬ (JobName.isReal name = true ∧
            script.Fails (.mapping entries) definition) :=
          fun fails => none ⟨_, member, fails⟩
        obtain ⟨changed, becomes⟩ := exists_becomes holds
        exact ⟨changed, changed_iff.mpr ⟨holds, becomes⟩⟩
      obtain ⟨after, related⟩ := Entries.Related.exists_of_each each
      cases failed.symm.trans ((success _).mpr ⟨after, rfl, related⟩)
    · intro failing
      obtain ⟨⟨name, definition⟩, member, fails⟩ := failing
      cases outcome : script.pass.run trail (.mapping entries) with
      | error failure => exact ⟨failure, rfl⟩
      | ok result =>
          obtain ⟨after, _, related⟩ := (success result).mp outcome
          obtain ⟨_, _, becomes⟩ := related.symm.mem_right member
          exact ((changed_iff.mp becomes).1 fails).elim

/-- A job with lines of its own below lines of the pipeline, and
without a script. -/
def nestedHooks : Entries :=
  [("default", .mapping [("before_script", .sequence [.text "b", .text "c"])]),
    (".hidden", .text "no job"),
    ("job", .mapping [("before_script",
      .sequence [.sequence [.text "a", .sequence [.text "d"]],
      .text "e"]), ("stage", .text "test")])]

/-- The job with all lines, of which the nested list of a nested list
is still one. -/
def joinedHooks : Entries :=
  [("default", .mapping [("before_script", .sequence [.text "b", .text "c"])]),
    (".hidden", .text "no job"),
    ("job",
      .mapping [("before_script", .sequence [.text "b", .text "c", .text "a",
      .sequence [.text "d"], .text "e"]), ("stage", .text "test")])]

theorem run_joins_scripts_nested :
    before.pass.run Trail.root (.mapping nestedHooks) =
      .ok (.mapping joinedHooks) ∧
      Entries.Related (before.Becomes (.mapping nestedHooks)) nestedHooks
        joinedHooks ∧
      ∃ failure, main.pass.run Trail.root (.mapping nestedHooks) =
        .error failure := by
  have ran : before.pass.run Trail.root (.mapping nestedHooks) =
    .ok (.mapping joinedHooks) := rfl
  obtain ⟨_, equal, related⟩ :=
    (run_joins_scripts before Trail.root nestedHooks).1 _ ran
  cases equal
  have job : nestedHooks.getLast? = some ("job", .mapping _) := rfl
  refine ⟨ran, related, ?_⟩
  apply (run_joins_scripts main Trail.root nestedHooks).2.mpr
  exact ⟨_, List.mem_of_getLast? job, rfl, .nothingToRun rfl rfl rfl⟩

end Script

end CiPipeline.JobFields
