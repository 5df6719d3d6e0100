import CiPipeline.Proofs.Files.Runs
import CiPipeline.Proofs.Include.Confinement

/-!
# Plans for targets

Planning reads the files and changes nothing.  What is planned depends on which
of the files that a target asks for are there, and preparing targets carries out
their plans in stages.
-/

namespace CiPipeline

open CiPipeline.Action CiPipeline.Confinement

variable {surroundings : Surroundings} {workspace after : Workspace}

namespace IncludeCache

private theorem of_perform_allExist {paths : List String} {present : Bool}
    (success : perform surroundings (allExist paths) workspace =
      (.ok present, after)) :
    after = workspace ∧
      if present then ∀ path ∈ paths, workspace.files.has path = .ok true
      else ∃ path ∈ paths, workspace.files.has path = .ok false := by
  induction paths with
  | nil =>
      cases success
      exact ⟨rfl, by simp⟩
  | cons path rest induction =>
      rw [allExist] at success
      obtain ⟨first, between, looked, success⟩ :=
        perform_bind_eq_ok_iff.mp success
      obtain ⟨has, rfl⟩ := perform_look_eq_ok_iff.mp looked
      cases first with
      | true =>
          obtain ⟨same, others⟩ := induction success
          refine ⟨same, ?_⟩
          cases present with
          | true => exact List.forall_mem_cons.mpr ⟨has, others⟩
          | false =>
              obtain ⟨other, member, absent⟩ := others
              exact ⟨other, List.mem_cons_of_mem _ member, absent⟩
      | false =>
          cases success
          exact ⟨rfl, path, List.mem_cons_self, has⟩

/-- Looking for files changes nothing, also where it fails. -/
theorem perform_allExist_workspace (paths : List String) :
    (perform surroundings (allExist paths) workspace).2 = workspace := by
  induction paths with
  | nil => rfl
  | cons path rest induction =>
      rw [allExist]
      refine perform_bind_workspace (perform_look_workspace _) ?_
      intro present
      cases present with
      | true => exact induction
      | false => rfl

private theorem perform_isFresh_workspace (cache : IncludeCache)
    (paths : List String) :
    (perform surroundings (cache.isFresh paths) workspace).2 = workspace := by
  unfold isFresh
  split
  · rfl
  · exact perform_allExist_workspace paths

/-- Files are fresh when nothing is fetched anew and all of them are there. -/
theorem of_perform_isFresh {cache : IncludeCache} {paths : List String}
    {fresh : Bool}
    (success : perform surroundings (cache.isFresh paths) workspace =
      (.ok fresh, after)) :
    after = workspace ∧
      if fresh then cache.refetches = false ∧ ∀ path ∈ paths,
        workspace.files.has path = .ok true
      else cache.refetches = true ∨ ∃ path ∈ paths,
          workspace.files.has path = .ok false := by
  unfold isFresh at success
  cases refetches : cache.refetches with
  | true =>
      rw [refetches] at success
      cases success
      exact ⟨rfl, .inl rfl⟩
  | false =>
      rw [refetches] at success
      obtain ⟨same, present⟩ := of_perform_allExist success
      refine ⟨same, ?_⟩
      cases fresh with
      | true => exact ⟨rfl, present⟩
      | false => exact .inr present

end IncludeCache

namespace IncludeSources

variable {sources : IncludeSources} {task : Task}

/-! ## Plans -/

theorem of_perform_missingFiles {project ref : String}
    {names missing : List String}
    (success : perform surroundings (sources.missingFiles project ref names)
      workspace = (.ok missing, after)) :
    after = workspace ∧
      (∀ name ∈ names, ∃ present,
        workspace.files.has (sources.projectFile project ref name) =
          .ok present) ∧
      missing = names.filter fun name =>
        (workspace.files.has (sources.projectFile project ref name)).toOption !=
            some true := by
  induction names generalizing missing with
  | nil =>
      cases success
      exact ⟨rfl, by simp, rfl⟩
  | cons name rest induction =>
      rw [missingFiles] at success
      obtain ⟨present, _, looked, onwards⟩ := perform_bind_eq_ok_iff.mp success
      obtain ⟨has, rfl⟩ := perform_look_eq_ok_iff.mp looked
      obtain ⟨others, _, remaining, finished⟩ :=
        perform_bind_eq_ok_iff.mp onwards
      cases finished
      obtain ⟨same, read, rfl⟩ := induction remaining
      refine ⟨same, List.forall_mem_cons.mpr ⟨⟨present, has⟩, read⟩, ?_⟩
      rw [List.filter_cons, has]
      cases present <;> rfl

/-- A local file is there when it has been planned for. -/
theorem of_perform_plan_localFile {trail : Trail} {filled : Filled}
    {declared : String}
    (success : perform surroundings
      (sources.plan trail filled (.localFile declared)) workspace =
      (.ok task, after)) :
    after = workspace ∧ task = .nothing ∧
      workspace.files.has (sources.localPath declared) = .ok true := by
  rw [plan] at success
  obtain ⟨present, between, looked, success⟩ :=
    perform_bind_eq_ok_iff.mp success
  obtain ⟨has, rfl⟩ := perform_look_eq_ok_iff.mp looked
  cases present with
  | true =>
      cases success
      exact ⟨rfl, rfl, has⟩
  | false => cases success

/-- A remote file is downloaded unless it is fresh. -/
theorem of_perform_planRemote {address : String}
    (success : perform surroundings (sources.planRemote address) workspace =
      (.ok task, after)) :
    after = workspace ∧
      (task = .nothing ∧ sources.cache.refetches = false ∧
          workspace.files.has (sources.remotePath address) = .ok true ∨
        (sources.cache.refetches = true ∨
            workspace.files.has (sources.remotePath address) = .ok false) ∧
          ∃ url, Url.read address = .ok url ∧
              task = .download url address) := by
  obtain ⟨fresh, between, read, success⟩ := perform_bind_eq_ok_iff.mp success
  obtain ⟨rfl, state⟩ := IncludeCache.of_perform_isFresh read
  cases fresh with
  | true =>
      cases success
      exact ⟨rfl, .inl ⟨rfl, state.1, state.2 _ (List.mem_singleton_self _)⟩⟩
  | false =>
      have stale : sources.cache.refetches = true ∨
          between.files.has (sources.remotePath address) = .ok false := by
        rcases state with refetches | ⟨path, member, absent⟩
        · exact .inl refetches
        · rw [List.mem_singleton.mp member] at absent
          exact .inr absent
      simp only [Bool.false_eq_true, if_false] at success
      split at success
      · cases success
      · rename_i url isUrl
        split at success
        · cases success
        · cases success
          exact ⟨rfl, .inr ⟨stale, url, isUrl, rfl⟩⟩

variable (sources) in
/-- How the folder of a project is made anew. -/
def renewal (project ref : String) (files : List String) : Task :=
  match sources.checkouts.folder? project with
  | some checkout => .link project ref checkout
  | none => .extract true project ref files

/-- A folder that is not filled is made anew unless its files are fresh. -/
theorem of_perform_planProject {filled : Filled} {project ref : String}
    {files : List String} (fresh : filled.contains (project, ref) = false)
    (success : perform surroundings
      (sources.planProject filled project ref files) workspace =
      (.ok task, after)) :
    after = workspace ∧
      (task = .nothing ∧ sources.cache.refetches = false ∧
          (∀ file ∈ files,
            workspace.files.has (sources.projectFile project ref file) =
              .ok true) ∨
        task = sources.renewal project ref files ∧
          (sources.cache.refetches = true ∨ ∃ file ∈ files,
            workspace.files.has (sources.projectFile project ref file) =
              .ok false)) := by
  unfold planProject at success
  rw [fresh] at success
  obtain ⟨fresh, between, read, success⟩ := perform_bind_eq_ok_iff.mp success
  obtain ⟨rfl, state⟩ := IncludeCache.of_perform_isFresh read
  cases fresh with
  | true =>
      cases success
      refine ⟨rfl, .inl ⟨rfl, state.1, ?_⟩⟩
      intro file member
      exact state.2 _ (List.mem_map_of_mem member)
  | false =>
      have stale : sources.cache.refetches = true ∨ ∃ file ∈ files,
          between.files.has (sources.projectFile project ref file) =
            .ok false := by
        rcases state with refetches | ⟨path, member, absent⟩
        · exact .inl refetches
        · obtain ⟨file, asked, rfl⟩ := List.mem_map.mp member
          exact .inr ⟨file, asked, absent⟩
      unfold renewal
      cases folder : sources.checkouts.folder? project with
      | none =>
          rw [folder] at success
          cases success
          exact ⟨rfl, .inr ⟨rfl, stale⟩⟩
      | some checkout =>
          rw [folder] at success
          cases success
          exact ⟨rfl, .inr ⟨rfl, stale⟩⟩

/-- A folder that is filled already is completed, unless it is a link. -/
theorem of_perform_planProject_filled {filled : Filled} {project ref : String}
    {files : List String} (known : filled.contains (project, ref) = true)
    (success : perform surroundings
      (sources.planProject filled project ref files) workspace =
      (.ok task, after)) :
    after = workspace ∧ ∃ missing,
      perform surroundings (sources.missingFiles project ref files) workspace =
        (.ok missing, workspace) ∧
      task = if missing.isEmpty ||
        workspace.files.hasLink (sources.refFolder project ref)
        then .nothing else .extract false project ref missing := by
  unfold planProject at success
  rw [known] at success
  obtain ⟨missing, _, read, onwards⟩ := perform_bind_eq_ok_iff.mp success
  obtain ⟨rfl, _⟩ := of_perform_missingFiles read
  rw [perform_bind, perform_get] at onwards
  dsimp only at onwards
  split at onwards
  · rename_i idle
    cases onwards
    exact ⟨rfl, missing, read, by rw [if_pos idle]⟩
  · rename_i busy
    cases onwards
    exact ⟨rfl, missing, read, by rw [if_neg busy]⟩

section

variable {filled : Filled} {project ref : String} {names : List String}

/-- Looking for missing files changes nothing, also where it fails. -/
theorem perform_missingFiles_workspace (names : List String) :
    (perform surroundings (sources.missingFiles project ref names)
      workspace).2 = workspace := by
  induction names with
  | nil => rfl
  | cons name rest induction =>
      rw [missingFiles]
      refine perform_bind_workspace (perform_look_workspace _) ?_
      intro present
      exact perform_bind_workspace induction fun _ => rfl

private theorem mem_of_perform_missingFiles {missing : List String}
    (success : perform surroundings (sources.missingFiles project ref names)
      workspace = (.ok missing, workspace)) :
    ∀ name ∈ missing, name ∈ names ∧
      workspace.files.has (sources.projectFile project ref name) =
        .ok false := by
  obtain ⟨_, each, rfl⟩ := of_perform_missingFiles success
  intro name member
  obtain ⟨inNames, absent⟩ := List.mem_filter.mp member
  obtain ⟨present, has⟩ := each name inNames
  rw [has] at absent ⊢
  cases present with
  | true => cases absent
  | false => exact ⟨inNames, rfl⟩

/-- Planning for a project changes nothing, also where it fails. -/
theorem perform_planProject_workspace :
    (perform surroundings (sources.planProject filled project ref names)
      workspace).2 = workspace := by
  unfold planProject
  split
  · refine perform_bind_workspace (perform_missingFiles_workspace names) ?_
    intro missing
    rw [perform_bind, perform_get]
    dsimp only
    split <;> rfl
  · refine perform_bind_workspace
      (IncludeCache.perform_isFresh_workspace _ _) ?_
    intro fresh
    split
    · rfl
    · split <;> rfl

/-- What is planned where the folder of the project is filled. -/
theorem task_of_filled (known : filled.contains (project, ref) = true)
    (success : perform surroundings
      (sources.planProject filled project ref names) workspace =
      (.ok task, after)) :
    task = .nothing ∨ ∃ missing, task = .extract false project ref missing ∧
      ∀ name ∈ missing, name ∈ names ∧
        workspace.files.has (sources.projectFile project ref name) =
          .ok false := by
  obtain ⟨_, missing, read, rfl⟩ := of_perform_planProject_filled known success
  split
  · exact .inl rfl
  · exact .inr ⟨missing, rfl, mem_of_perform_missingFiles read⟩

/-- What is planned for a project: nothing, a link, or an archive. -/
theorem of_perform_planProject_cases
    (success : perform surroundings
      (sources.planProject filled project ref names) workspace =
      (.ok task, after)) :
    after = workspace ∧
      (task = .nothing ∨ (∃ checkout, task = .link project ref checkout) ∨
      ∃ afresh missing, task = .extract afresh project ref missing) := by
  cases known : filled.contains (project, ref) with
  | true =>
      obtain ⟨same, _⟩ := of_perform_planProject_filled known success
      rcases task_of_filled known success with idle | ⟨missing, extracts, _⟩
      · exact ⟨same, .inl idle⟩
      · exact ⟨same, .inr (.inr ⟨_, missing, extracts⟩)⟩
  | false =>
      obtain ⟨same, outcome⟩ := of_perform_planProject known success
      rcases outcome with ⟨idle, _⟩ | ⟨rfl, _⟩
      · exact ⟨same, .inl idle⟩
      · refine ⟨same, .inr ?_⟩
        unfold renewal
        cases sources.checkouts.folder? project with
        | some checkout => exact .inl ⟨checkout, rfl⟩
        | none => exact .inr ⟨true, names, rfl⟩

end

/-! ## Clearing and filling -/

theorem gives_of_perform_change {action : FileAction Unit}
    (success : perform surroundings (change action) workspace =
      (.ok (), after)) :
    Files.Gives action workspace.files () after.files := by
  obtain ⟨files, runs, rfl⟩ := perform_change_eq_ok_iff.mp success
  exact runs

/-- Files of a project are extracted by a command that ends with code zero. -/
theorem of_perform_extract {project ref : String} {files : List String}
    (success : perform surroundings (sources.extract project ref files)
      workspace = (.ok (), after)) :
    ∃ output, surroundings.run (archiveCommand sources project ref files)
      workspace.files =
      (.ok output, after.files) ∧ output.code = 0 := by
  obtain ⟨output, between, executed, checked⟩ :=
    perform_bind_eq_ok_iff.mp success
  obtain ⟨files, ran, rfl⟩ := perform_execute_eq_ok_iff.mp executed
  split at checked
  · cases checked
  · rename_i zero
    cases checked
    exact ⟨output, ran, by simpa using zero⟩

/-- What extracting leaves, whether or not the command succeeds. -/
theorem perform_extract_workspace {project ref : String}
    (missing : List String) :
    (perform surroundings (sources.extract project ref missing) workspace).2 =
      { workspace with
        files := (surroundings.run (archiveCommand sources project ref missing)
          workspace.files).2
        commands := archiveCommand sources project ref missing ::
            workspace.commands } := by
  unfold extract
  rw [perform_bind, perform_execute]
  cases (surroundings.run _ workspace.files).1 with
  | error error => rfl
  | ok output =>
      dsimp only [Except.mapError]
      split
      · rfl
      · rfl

/-! ## Stages -/

section

variable {Given Result : Type} {trail : Trail}
  {run : Target → Given → Action Result}

/-- A stage runs for the first target and then for the others. -/
theorem of_perform_stage_cons {target : Target} {given : Given}
    {rest : List (Target × Given)} {results : List (Target × Result)}
    (success : perform surroundings (stage trail run ((target, given) :: rest))
      workspace = (.ok results, after)) :
    ∃ result others between,
      perform surroundings (run target given) workspace =
        (.ok result, between) ∧
        perform surroundings (stage trail run rest) between =
          (.ok others, after) ∧
        results = (target, result) :: others := by
  rw [stage] at success
  obtain ⟨result, between, first, success⟩ := perform_bind_eq_ok_iff.mp success
  obtain ⟨others, final, remaining, success⟩ :=
    perform_bind_eq_ok_iff.mp success
  cases success
  exact ⟨result, others, between, perform_tryCatch_throw_eq_ok_iff.mp first,
    remaining, rfl⟩

theorem of_perform_stage_nil {results : List (Target × Result)}
    (success : perform surroundings (stage trail run []) workspace =
      (.ok results, after)) :
    results = [] ∧ after = workspace := by
  cases success
  exact ⟨rfl, rfl⟩

private theorem perform_stage_singleton {target : Target} {given : Given} :
    perform surroundings (stage trail run [(target, given)]) workspace =
      match perform surroundings (run target given) workspace with
      | (.ok result, after) => (.ok [(target, result)], after)
      | (.error failure, after) =>
          (.error (target.blame trail failure), after) := by
  rw [stage, perform_bind, perform_tryCatch]
  rcases perform surroundings (run target given) workspace with
    ⟨failure | result, after⟩
  · rfl
  · rfl

end

/-- Targets are prepared in three stages. -/
theorem of_perform_prepare {trail : Trail} {filled nowFilled : Filled}
    {targets : List Target}
    (success : perform surroundings (sources.prepare trail filled targets)
      workspace = (.ok nowFilled, after)) :
    ∃ plans cleared done planned between,
      perform surroundings (stage trail (fun target () => sources.plan trail
        filled target) (targets.map fun target => (target, ()))) workspace =
        (.ok plans, planned) ∧
      perform surroundings
        (stage trail (fun _ task => sources.clear task) plans) planned =
        (.ok cleared, between) ∧
      perform surroundings (stage trail (fun _ task => sources.fill task) plans)
          between = (.ok done, after) := by
  obtain ⟨plans, planned, first, success⟩ := perform_bind_eq_ok_iff.mp success
  obtain ⟨cleared, between, second, success⟩ :=
    perform_bind_eq_ok_iff.mp success
  obtain ⟨done, final, third, success⟩ := perform_bind_eq_ok_iff.mp success
  cases success
  exact ⟨plans, cleared, done, planned, between, first, second, third⟩

/-- A single target is planned for, cleared and filled, until one of
these fails. -/
theorem perform_prepare_singleton {trail : Trail} {target : Target}
    (filled : Filled) :
    perform surroundings (sources.prepare trail filled [target]) workspace =
      match perform surroundings (sources.plan trail filled target)
        workspace with
      | (.error failure, planned) =>
          (.error (target.blame trail failure), planned)
      | (.ok task, planned) =>
          match perform surroundings (sources.clear task) planned with
          | (.error failure, cleared) =>
              (.error (target.blame trail failure), cleared)
          | (.ok (), cleared) =>
              match perform surroundings (sources.fill task) cleared with
              | (.error failure, after) =>
                  (.error (target.blame trail failure), after)
              | (.ok (), after) =>
                  (.ok (filled ++ [target].filterMap Target.filled?),
                    after) := by
  unfold prepare
  rw [List.map_singleton, perform_bind, perform_stage_singleton]
  rcases perform surroundings (sources.plan trail filled target) workspace with
    ⟨failure | task, planned⟩
  · rfl
  · dsimp only
    rw [perform_bind, perform_stage_singleton]
    rcases perform surroundings (sources.clear task) planned with
      ⟨failure | _, cleared⟩
    · rfl
    · dsimp only
      rw [perform_bind, perform_stage_singleton]
      rcases perform surroundings (sources.fill task) cleared with
        ⟨failure | _, after⟩
      · rfl
      · rfl

/-- What is left when the files of a project have been brought to their
places, or something has failed: nothing has changed unless they could be
planned for. -/
theorem workspace_of_prepare_project {filled : Filled} {project ref : String}
    {names : List String} (trail : Trail) :
    (perform surroundings
      (sources.prepare trail filled [.project project ref names])
        workspace).2 = workspace ∨
      ∃ task, perform surroundings
        (sources.planProject filled project ref names) workspace =
        (.ok task, workspace) ∧
        (perform surroundings (sources.prepare trail filled
            [.project project ref names]) workspace).2 =
            (perform surroundings (sources.clear task >>= fun _ =>
              sources.fill task) workspace).2 := by
  have unchanged :
      (perform surroundings (sources.planProject filled project ref names)
      workspace).2 = workspace := perform_planProject_workspace
  rw [perform_prepare_singleton, plan]
  rcases planned : perform surroundings
    (sources.planProject filled project ref names) workspace
    with ⟨failure | task, between⟩
  · rw [planned] at unchanged
    exact .inl unchanged
  · rw [planned] at unchanged
    obtain rfl : between = workspace := unchanged
    refine .inr ⟨task, rfl, ?_⟩
    dsimp only
    rw [perform_bind]
    rcases perform surroundings (sources.clear task) between with
      ⟨failure | _, cleared⟩
    · rfl
    · dsimp only
      rcases perform surroundings (sources.fill task) cleared with
        ⟨failure | _, after⟩
      · rfl
      · rfl

/-- A single target is planned for, cleared and filled. -/
theorem of_perform_prepare_singleton {trail : Trail} {filled nowFilled : Filled}
    {target : Target}
    (success : perform surroundings (sources.prepare trail filled [target])
      workspace = (.ok nowFilled, after)) :
    ∃ task planned between,
      perform surroundings (sources.plan trail filled target) workspace =
        (.ok task, planned) ∧
      perform surroundings (sources.clear task) planned = (.ok (), between) ∧
      perform surroundings (sources.fill task) between = (.ok (), after) := by
  obtain ⟨plans, _, _, planned, between, first, second, third⟩ :=
    of_perform_prepare success
  obtain ⟨task, _, _, plan, others, rfl⟩ := of_perform_stage_cons first
  obtain ⟨rfl, rfl⟩ := of_perform_stage_nil others
  obtain ⟨_, _, _, cleared, others, _⟩ := of_perform_stage_cons second
  obtain ⟨_, rfl⟩ := of_perform_stage_nil others
  obtain ⟨_, _, _, filled, others, _⟩ := of_perform_stage_cons third
  obtain ⟨_, rfl⟩ := of_perform_stage_nil others
  exact ⟨task, _, _, plan, cleared, filled⟩

end IncludeSources

end CiPipeline
