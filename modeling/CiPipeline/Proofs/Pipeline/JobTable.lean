import CiPipeline.Proofs.Pipeline.JobBuilding
import CiPipeline.Report
import Mathlib.Algebra.BigOperators.Group.List.Basic
import Mathlib.Algebra.Ring.Nat
import Mathlib.Data.List.NodupEquivFin
import Mathlib.Data.List.Perm.Basic

/-!
# The table of jobs

The table lists the jobs stage by stage.  A job has as many rows as its stage is
listed, so the rows are as many as the lines above the table say exactly when no
job belongs to a stage that is listed twice.
-/

namespace CiPipeline

/-- Rows that list each job once: in the order of the stages, and within a stage
in the order of the jobs. -/
structure Job.ListedOnce (stages : List String)
    (jobs rows : List Job) : Prop where
  complete : rows.Perm jobs
  byStage : rows.Pairwise fun job later =>
    stages.idxOf job.stage ≤ stages.idxOf later.stage
  inStage : ∀ stage, (rows.filter fun job => job.stage == stage) =
    jobs.filter fun job => job.stage == stage

namespace Pipeline

open CiPipeline.Sequencing

section Grouping

variable {stages : List String} {jobs : List Job}

/-- The jobs of a stage, once for each time that it is listed. -/
theorem flatMap_stage (stages : List String) (job : Job) :
    (stages.flatMap fun stage => [job].filter fun job => job.stage == stage) =
      List.replicate (stages.count job.stage) job := by
  induction stages with
  | nil => rfl
  | cons stage rest induction =>
      rw [List.flatMap_cons, induction, List.count_cons]
      by_cases same : job.stage = stage
      · simp [same, List.replicate_succ]
      · simp [same, Ne.symm same]

/-- Each job is listed as often as its stage. -/
theorem perm_replicate (stages : List String) (jobs : List Job) :
    (stages.flatMap fun stage => jobs.filter fun job => job.stage == stage).Perm
      (jobs.flatMap fun job =>
        List.replicate (stages.count job.stage) job) := by
  induction jobs with
  | nil => simp
  | cons job rest induction =>
      have split (stage : String) :
          ((job :: rest).filter fun job => job.stage == stage) =
            ([job].filter fun job => job.stage == stage) ++
            rest.filter fun job => job.stage == stage := by
        rw [← List.filter_append, List.singleton_append]
      simp only [split]
      refine (List.flatMap_append_perm _ _ _).symm.trans ?_
      rw [flatMap_stage, List.flatMap_cons]
      exact List.Perm.append_left _ induction

/-- The rows of a stage are its jobs, over again for each time that the
stage is listed. -/
theorem filter_stage (stages : List String) (jobs : List Job) (stage : String) :
    ((stages.flatMap fun stage => jobs.filter fun job =>
      job.stage == stage).filter fun job => job.stage == stage) =
      (List.replicate (stages.count stage)
        (jobs.filter fun job => job.stage == stage)).flatten := by
  induction stages with
  | nil => rfl
  | cons first rest induction =>
      rw [List.flatMap_cons, List.filter_append, induction, List.count_cons,
        List.filter_filter]
      by_cases same : first = stage
      · simp [same, List.replicate_succ]
      · have none :
            (jobs.filter fun job => job.stage == stage && job.stage == first) =
              [] := by
          simp only [List.filter_eq_nil_iff, Bool.and_eq_true,
            beq_iff_eq, not_and]
          intro job _ inStage inFirst
          exact same (inFirst.symm.trans inStage)
        simp [none, same]

private theorem idxOf_le {index : Nat} (bound : index < stages.length) :
    stages.idxOf stages[index] ≤ index := by
  by_contra later
  have different := List.not_of_lt_findIdx (Nat.lt_of_not_le later)
  simp at different

/-- A stage that is listed once is found where it is listed. -/
theorem idxOf_eq {index : Nat} (bound : index < stages.length)
    (once : stages.count stages[index] = 1) :
    stages.idxOf stages[index] = index := by
  refine Nat.le_antisymm (idxOf_le bound) (Nat.le_of_not_lt ?_)
  intro earlier
  have inside := Nat.lt_trans earlier bound
  have found := List.getElem_idxOf inside
  have twice : List.Duplicate stages[index] stages :=
    List.duplicate_iff_exists_distinct_get.mpr
      ⟨⟨_, inside⟩, ⟨index, bound⟩, earlier, found.symm, rfl⟩
  have many := List.duplicate_iff_two_le_count.mp twice
  omega

/-- Jobs whose stages are listed once come in the order of their stages. -/
theorem pairwise_stage (once : ∀ job ∈ jobs, stages.count job.stage = 1) :
    (stages.flatMap fun stage => jobs.filter fun job =>
      job.stage == stage).Pairwise fun job later =>
        stages.idxOf job.stage ≤ stages.idxOf later.stage := by
  rw [List.pairwise_flatMap]
  constructor
  · intro stage _
    refine List.pairwise_of_forall_mem_list ?_
    intro job inStage later alsoInStage
    rw [beq_iff_eq.mp (List.mem_filter.mp inStage).2,
      beq_iff_eq.mp (List.mem_filter.mp alsoInStage).2]
  · rw [List.pairwise_iff_getElem]
    intro first second firstBound secondBound before job inFirst later inSecond
    obtain ⟨_, firstStage⟩ := List.mem_filter.mp inFirst
    obtain ⟨isJob, secondStage⟩ := List.mem_filter.mp inSecond
    have once := once later isJob
    rw [beq_iff_eq.mp secondStage] at once
    rw [beq_iff_eq.mp firstStage, beq_iff_eq.mp secondStage,
      idxOf_eq secondBound once]
    exact Nat.le_trans (idxOf_le firstBound) (Nat.le_of_lt before)

end Grouping

/-! ## Rows -/

variable {pipeline : Pipeline}

/-- Each job has as many rows as its stage is listed. -/
theorem length_jobsByStage (pipeline : Pipeline) :
    pipeline.jobsByStage.length =
      (pipeline.jobs.map fun job => pipeline.stages.count job.stage).sum := by
  rw [jobsByStage, (perm_replicate _ _).length_eq, List.length_flatMap]
  simp only [List.length_replicate]

private theorem mem_jobsByStage {job : Job} (member : job ∈ pipeline.jobs)
    (inStages : job.stage ∈ pipeline.stages) : job ∈ pipeline.jobsByStage :=
  List.mem_flatMap.mpr ⟨job.stage, inStages,
    List.mem_filter.mpr ⟨member, beq_self_eq_true _⟩⟩

private theorem listedOnce
    (once : ∀ job ∈ pipeline.jobs, pipeline.stages.count job.stage = 1) :
    Job.ListedOnce pipeline.stages pipeline.jobs pipeline.jobsByStage where
  complete := by
    refine (perm_replicate _ _).trans (List.Perm.of_eq ?_)
    calc
      (pipeline.jobs.flatMap fun job =>
        List.replicate (pipeline.stages.count job.stage) job) =
          pipeline.jobs.flatMap fun job => [job] :=
        List.flatMap_congr fun job member => by
          rw [once job member, List.replicate_one]
      _ = pipeline.jobs := List.flatMap_singleton' _
  byStage := pairwise_stage once
  inStage := by
    intro stage
    rw [jobsByStage, filter_stage]
    cases listed : pipeline.jobs.filter fun job => job.stage == stage with
    | nil => simp
    | cons job rest =>
        have member :
            job ∈ pipeline.jobs.filter fun job => job.stage == stage := by
          rw [listed]
          exact List.mem_cons_self
        obtain ⟨isJob, inStage⟩ := List.mem_filter.mp member
        have single := once job isJob
        rw [beq_iff_eq.mp inStage] at single
        simp [single]

theorem length_jobsByStage_eq_iff
    (inStages : ∀ job ∈ pipeline.jobs, job.stage ∈ pipeline.stages) :
    pipeline.jobsByStage.length = pipeline.jobs.length ↔
      ∀ job ∈ pipeline.jobs, pipeline.stages.count job.stage = 1 := by
  constructor
  · rw [length_jobsByStage]
    intro equal job member
    have atLeast : ∀ job ∈ pipeline.jobs, 1 ≤ pipeline.stages.count job.stage :=
      fun job member => List.one_le_count_iff.mpr (inStages job member)
    obtain ⟨front, back, split⟩ := List.append_of_mem member
    rw [split] at equal atLeast
    have frontBound := List.length_le_sum_of_one_le
      (front.map fun job => pipeline.stages.count job.stage) (by simp_all)
    have backBound := List.length_le_sum_of_one_le
      (back.map fun job => pipeline.stages.count job.stage) (by simp_all)
    have here := atLeast job (by simp)
    simp only [List.map_append, List.map_cons, List.sum_append, List.sum_cons,
      List.length_append, List.length_cons, List.length_map]
      at equal frontBound backBound
    omega
  · intro once
    exact (listedOnce once).complete.length_eq

variable {options : PipelineOptions} {repository : Repository} {document : Node}

private theorem stage_mem_of_ofDocument
    (success : ofDocument options repository document = .ok pipeline) :
    ∀ job ∈ pipeline.jobs, job.stage ∈ pipeline.stages := by
  obtain ⟨normal, resolved⟩ := ofDocument_resolved success
  intro job member
  obtain ⟨definition, _, read⟩ := exists_value_of_mapM resolved.jobs member
  exact (readJob_eq_ok_iff.mp read).2

/-- The table of a resolved pipeline has rows for each of its jobs, which are
repeated as often as their stage is listed.  It lists each job once, by stage
and then in the order of the document, exactly when no job belongs to a stage
that is listed more than once, and exactly then the counts above it add up to
the number of its rows. -/
theorem ofDocument_jobTable
    (success : ofDocument options repository document = .ok pipeline)
    (present : pipeline.jobs ≠ []) :
    pipeline.jobList = pipeline.listHead ++ (pipeline.jobTable.text ++ "\n") ∧
      pipeline.jobTable.rows = pipeline.jobsByStage.map pipeline.listRow ∧
      (∀ job ∈ pipeline.jobs, job ∈ pipeline.jobsByStage) ∧
      (∀ stage, (pipeline.jobsByStage.filter fun job => job.stage == stage) =
        (List.replicate (pipeline.stages.count stage)
          (pipeline.jobs.filter fun job => job.stage == stage)).flatten) ∧
      (Job.ListedOnce pipeline.stages pipeline.jobs pipeline.jobsByStage ↔
        ∀ job ∈ pipeline.jobs, pipeline.stages.count job.stage = 1) ∧
      ∃ shown skipped, pipeline.listHead =
        s!"  Project: {pipeline.repository.projectPath}\n" ++
          s!"  Jobs: {shown}\n  Skipped by rules: {skipped}\n\n" ∧
        (shown + skipped = pipeline.jobTable.rows.length ↔
          ∀ job ∈ pipeline.jobs, pipeline.stages.count job.stage = 1) := by
  have inStages := stage_mem_of_ofDocument success
  have counted :
      pipeline.jobs.length - pipeline.skippedCount + pipeline.skippedCount =
        pipeline.jobs.length := Nat.sub_add_cancel List.countP_le_length
  have rows : pipeline.jobTable.rows.length = pipeline.jobsByStage.length :=
    List.length_map _
  refine ⟨?_, rfl, ?_, filter_stage _ _, ?_, _, _, rfl, ?_⟩
  · rw [jobList, List.isEmpty_eq_false_iff.mpr present]
    rfl
  · intro job member
    exact mem_jobsByStage member (inStages job member)
  · constructor
    · intro listed
      exact (length_jobsByStage_eq_iff inStages).mp listed.complete.length_eq
    · exact listedOnce
  · rw [counted, rows, eq_comm]
    exact length_jobsByStage_eq_iff inStages

/-- A document whose jobs stand in another order than their stages. -/
def unorderedDocument (stages : List String) : Node :=
  .mapping [("stages", .sequence (stages.map .text)),
    ("unit", .mapping [("stage", .text "test"),
      ("script", .sequence [.text "check"])]),
    ("compile", .mapping [("stage", .text "build"),
      ("script", .sequence [.text "make"]), ("when", .text "never")])]

/-- The row of a job that does not run counts too. -/
theorem ofDocument_jobTable_unordered :
    ∃ pipeline, ofDocument {} {} (unorderedDocument ["build", "test"]) =
      .ok pipeline ∧
      pipeline.jobs ≠ [] ∧ pipeline.jobs.map Job.name = ["unit", "compile"] ∧
      pipeline.jobsByStage.map Job.name = ["compile", "unit"] ∧
      Job.ListedOnce pipeline.stages pipeline.jobs pipeline.jobsByStage := by
  have resolves :
      ((ofDocument {} {} (unorderedDocument ["build", "test"])).toOption.map
        fun pipeline =>
          (pipeline.jobs.map Job.name, pipeline.jobsByStage.map Job.name,
        pipeline.jobs.map fun job => pipeline.stages.count job.stage)) =
      some (["unit", "compile"], ["compile", "unit"], [1, 1]) := by
    rfl
  obtain ⟨pipeline, resolved, parts⟩ := Option.map_eq_some_iff.mp resolves
  simp only [Prod.mk.injEq] at parts
  obtain ⟨names, ordered, counts⟩ := parts
  have success := eq_ok_of_toOption resolved
  have present : pipeline.jobs ≠ [] := by
    intro none
    rw [none] at names
    cases names
  have once : ∀ job ∈ pipeline.jobs, pipeline.stages.count job.stage = 1 := by
    intro job member
    have counted : pipeline.stages.count job.stage ∈
        pipeline.jobs.map fun job => pipeline.stages.count job.stage :=
      List.mem_map_of_mem member
    rw [counts] at counted
    simpa using counted
  obtain ⟨_, _, _, _, listed, _⟩ := ofDocument_jobTable success present
  exact ⟨pipeline, success, present, names, ordered, listed.mpr once⟩

/-- A job whose stage is listed twice has two rows, and the counts do not add up
to the rows. -/
theorem jobTable_repeats_rows :
    ∃ pipeline, ofDocument {} {}
      (unorderedDocument ["build", "test", "build"]) = .ok pipeline ∧
      pipeline.jobsByStage.map Job.name = ["compile", "unit", "compile"] ∧
      pipeline.jobTable.rows.length = 3 ∧
      pipeline.listHead = s!"  Project: {pipeline.repository.projectPath}\n" ++
        "  Jobs: 1\n  Skipped by rules: 1\n\n" := by
  have resolves : ((ofDocument {} {}
      (unorderedDocument ["build", "test", "build"])).toOption.map
      fun pipeline =>
        (pipeline.jobsByStage.map Job.name, pipeline.jobs.length,
          pipeline.skippedCount)) =
      some (["compile", "unit", "compile"], 2, 1) := by
    rfl
  obtain ⟨pipeline, resolved, parts⟩ := Option.map_eq_some_iff.mp resolves
  simp only [Prod.mk.injEq] at parts
  obtain ⟨ordered, jobs, skipped⟩ := parts
  refine ⟨pipeline, eq_ok_of_toOption resolved, ordered, ?_, ?_⟩
  · have rows := congrArg List.length ordered
    rw [List.length_map] at rows
    exact (List.length_map _).trans rows
  · unfold listHead
    dsimp only
    rw [jobs, skipped]
    rfl

end Pipeline

end CiPipeline
