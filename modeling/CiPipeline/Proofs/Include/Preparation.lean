import CiPipeline.Proofs.Include.Graph
import CiPipeline.Proofs.Workspace

/-!
# Targets that are in place

The targets of directives ask for the files that the directives name and for no
others.  When these are there and nothing is fetched anew, bringing the targets
to their places does nothing.
-/

namespace CiPipeline

open CiPipeline.Action

namespace Target

section

variable {holds : Target → Prop}

theorem addProject_forall {name ref : String} {files : List String}
    {targets : List Target} (all : ∀ target ∈ targets, holds target)
    (joined : ∀ known, known = [] ∨ holds (.project name ref known) →
      holds (.project name ref (files.foldl addFile known))) :
    ∀ target ∈ addProject name ref files targets, holds target := by
  induction targets with
  | nil =>
      intro target member
      rw [addProject, List.mem_singleton] at member
      rw [member]
      exact joined [] (.inl rfl)
  | cons first rest induction =>
      have firstHolds := all first (by simp)
      have restHolds : ∀ target ∈ rest, holds target :=
        fun target member => all target (by simp [member])
      have kept : ∀ target ∈ first :: addProject name ref files rest,
          holds target :=
        List.forall_mem_cons.mpr ⟨firstHolds, induction restHolds⟩
      cases first with
      | project other otherRef known =>
          rw [addProject]
          split
          · rename_i same
            simp only [Bool.and_eq_true, beq_iff_eq] at same
            obtain ⟨rfl, rfl⟩ := same
            exact List.forall_mem_cons.mpr
              ⟨joined known (.inr firstHolds), restHolds⟩
          · exact kept
      | localFile declared =>
          rw [addProject]
          · exact kept
          · simp
      | remote address =>
          rw [addProject]
          · exact kept
          · simp

theorem foldl_forall {gather : List Target → Include → List Target}
    {directives : List Include}
    {targets : List Target} (all : ∀ target ∈ targets, holds target)
    (step : ∀ directive ∈ directives, ∀ targets,
      (∀ target ∈ targets, holds target) →
      ∀ target ∈ gather targets directive, holds target) :
    ∀ target ∈ directives.foldl gather targets, holds target := by
  induction directives generalizing targets with
  | nil => exact all
  | cons directive rest induction =>
      rw [List.foldl_cons]
      refine induction (step directive (by simp) targets all) ?_
      intro other member
      exact step other (by simp [member])

/-- What holds of the target of each single directive, and of a project when
more of its files are asked for, holds of all targets. -/
theorem ofIncludes_forall {defaultRef : String} {directives : List Include}
    (ofLocal : ∀ path, .localFile path ∈ directives → holds (.localFile path))
    (ofProject : ∀ name ref files,
      .projectFiles name ref files ∈ directives → ∀ known,
      known = [] ∨ holds (.project name (ref.getD defaultRef) known) →
        holds (.project name (ref.getD defaultRef) (files.foldl addFile known)))
    (ofTemplate : ∀ name, .template name ∈ directives →
      holds (.remote (IncludeUrl.ofTemplate name)))
    (ofRemote : ∀ address,
      .remote address ∈ directives → holds (.remote address)) :
    ∀ target ∈ ofIncludes defaultRef directives, holds target := by
  have projects : ∀ target ∈ directives.foldl (gatherProject defaultRef) [],
      holds target := by
    refine foldl_forall (by simp) ?_
    intro directive declared targets all
    cases directive with
    | projectFiles name ref files =>
        exact addProject_forall all (ofProject name ref files declared)
    | _ => exact all
  have remotes : ∀ target ∈ directives.foldl gatherRemote [], holds target := by
    refine foldl_forall (by simp) ?_
    intro directive declared targets all
    have added {address : String} (asked : holds (.remote address)) :
        ∀ target ∈ targets ++ [.remote address], holds target :=
      List.forall_mem_append.mpr ⟨all, List.forall_mem_singleton.mpr asked⟩
    cases directive with
    | template name => exact added (ofTemplate name declared)
    | remote address =>
        rw [gatherRemote]
        split
        · exact all
        · exact added (ofRemote address declared)
    | _ => exact all
  intro target member
  unfold ofIncludes at member
  rcases List.mem_append.mp member with early | isRemote
  · rcases List.mem_append.mp early with isLocal | isProject
    · obtain ⟨directive, declared, equal⟩ := List.mem_filterMap.mp isLocal
      cases directive with
      | localFile path =>
          cases equal
          exact ofLocal path declared
      | _ => cases equal
    · exact projects target isProject
  · exact remotes target isRemote

end

/-- The paths that have to be there for a target. -/
def paths (sources : IncludeSources) : Target → List String
  | .localFile declared => [sources.localPath declared]
  | .project name ref files => files.map (sources.projectFile name ref)
  | .remote address => [sources.remotePath address]

/-- A target all of whose paths satisfy a condition. -/
def Met (sources : IncludeSources) (holds : String → Prop)
    (target : Target) : Prop :=
  ∀ path ∈ target.paths sources, holds path

variable {sources : IncludeSources} {holds : String → Prop}

private theorem mem_foldl_addFile {files known : List String} {file : String}
    (member : file ∈ files.foldl addFile known) :
    file ∈ known ∨ file ∈ files := by
  induction files generalizing known with
  | nil => exact .inl member
  | cons first rest induction =>
      rw [List.foldl_cons] at member
      rcases induction member with early | late
      · unfold addFile at early
        split at early
        · exact .inl early
        · rcases List.mem_append.mp early with inKnown | isFirst
          · exact .inl inKnown
          · exact .inr (by simp [List.mem_singleton.mp isFirst])
      · exact .inr (by simp [late])

/-- The targets of directives ask for files that the directives name. -/
theorem ofIncludes_met {directives : List Include}
    (asked : ∀ directive ∈ directives,
      ∀ file ∈ sources.filesNamed none directive,
      holds file.path) :
    ∀ target ∈ ofIncludes sources.repository.remote.defaultBranch directives,
      Met sources holds target := by
  refine ofIncludes_forall ?_ ?_ ?_ ?_
  · intro declaredPath declared path member
    have present := asked _ declared
    simp only [IncludeSources.filesNamed, List.mem_singleton,
      forall_eq] at present
    rw [List.mem_singleton.mp member]
    exact present
  · intro name ref files declared known knownMet path member
    obtain ⟨file, inFiles, rfl⟩ := List.mem_map.mp member
    rcases mem_foldl_addFile inFiles with early | late
    · rcases knownMet with rfl | met
      · simp at early
      · exact met _ (List.mem_map_of_mem early)
    · exact asked _ declared _ (List.mem_map_of_mem late)
  · intro name declared path member
    have present := asked _ declared
    simp only [IncludeSources.filesNamed, List.mem_singleton,
      forall_eq] at present
    rw [List.mem_singleton.mp member]
    exact present
  · intro address declared path member
    have present := asked _ declared
    simp only [IncludeSources.filesNamed, List.mem_singleton,
      forall_eq] at present
    rw [List.mem_singleton.mp member]
    exact present

end Target

/-! ## Nothing to do -/

section

variable {sources : IncludeSources} {surroundings : Surroundings}
  {workspace : Workspace}

private theorem IncludeCache.perform_allExist {paths : List String}
    (present : ∀ path ∈ paths, workspace.files.has path = .ok true) :
    perform surroundings (allExist paths) workspace =
      (.ok true, workspace) := by
  induction paths with
  | nil => rfl
  | cons path rest induction =>
      rw [allExist, perform_bind, perform_look, present path (by simp)]
      exact induction fun other member => present other (by simp [member])

private theorem IncludeCache.perform_isFresh (surroundings : Surroundings)
    {cache : IncludeCache}
    (kept : cache.refetches = false) {paths : List String}
    (present : ∀ path ∈ paths, workspace.files.has path = .ok true) :
    perform surroundings (cache.isFresh paths) workspace =
      (.ok true, workspace) := by
  unfold isFresh
  rw [kept]
  exact perform_allExist present

namespace IncludeSources

private theorem perform_missingFiles {project ref : String}
    {names : List String}
    (present : ∀ name ∈ names,
      workspace.files.has (sources.projectFile project ref name) = .ok true) :
    perform surroundings (missingFiles sources project ref names) workspace =
      (.ok [], workspace) := by
  induction names with
  | nil => rfl
  | cons name rest induction =>
      have others :=
        induction fun other member => present other (by simp [member])
      rw [missingFiles, perform_bind, perform_look, present name (by simp)]
      dsimp only
      rw [perform_bind, others]
      rfl

/-- Nothing is planned for a target that is in place. -/
theorem perform_plan (surroundings : Surroundings)
    (kept : sources.cache.refetches = false) (trail : Trail) (filled : Filled)
    {target : Target}
    (present : target.Met sources (workspace.files.has · = .ok true)) :
    perform surroundings (plan sources trail filled target) workspace =
      (.ok .nothing, workspace) := by
  cases target with
  | localFile declared =>
      have there := present _ (List.mem_singleton_self _)
      rw [plan, perform_bind, perform_look, there]
      rfl
  | remote address =>
      have fresh := IncludeCache.perform_isFresh surroundings kept present
      unfold Target.paths at fresh
      rw [plan, planRemote, perform_bind, fresh]
      rfl
  | project project ref names =>
      rw [plan, planProject]
      split
      · have missing : perform surroundings
            (missingFiles sources project ref names) workspace =
            (.ok [], workspace) := by
          refine perform_missingFiles ?_
          intro name member
          exact present _ (List.mem_map_of_mem member)
        rw [perform_bind, missing]
        rfl
      · have fresh := IncludeCache.perform_isFresh surroundings kept present
        unfold Target.paths at fresh
        rw [perform_bind, fresh]
        rfl

/-- A stage whose steps all give one result and change nothing. -/
theorem perform_stage (surroundings : Surroundings) {Given Result : Type}
    (trail : Trail) {run : Target → Given → Action Result} {result : Result}
    {pairs : List (Target × Given)}
    (each : ∀ pair ∈ pairs, perform surroundings (run pair.1 pair.2) workspace =
      (.ok result, workspace)) :
    perform surroundings (stage trail run pairs) workspace =
      (.ok (pairs.map fun pair => (pair.1, result)), workspace) := by
  induction pairs with
  | nil => rfl
  | cons pair rest induction =>
      obtain ⟨target, given⟩ := pair
      have first := each (target, given) (by simp)
      have others := induction fun other member => each other (by simp [member])
      rw [stage, perform_bind, perform_tryCatch, first]
      dsimp only
      rw [perform_bind, others]
      rfl

/-- Bringing targets to their places does nothing when they are there. -/
theorem perform_prepare (surroundings : Surroundings)
    (kept : sources.cache.refetches = false) (trail : Trail)
    (filled : Filled) {targets : List Target}
    (present : ∀ target ∈ targets, target.Met sources
      (workspace.files.has · = .ok true)) :
    perform surroundings (prepare sources trail filled targets) workspace =
      (.ok (filled ++ targets.filterMap Target.filled?), workspace) := by
  have plans : perform surroundings
      (stage trail (fun target () => plan sources trail filled target)
        (targets.map fun target => (target, ()))) workspace =
      (.ok (targets.map fun target => (target, Task.nothing)), workspace) := by
    have again : (targets.map fun target => (target, Task.nothing)) =
        (targets.map fun target => (target, ())).map fun pair =>
          (pair.1, Task.nothing) := by
      rw [List.map_map]
      rfl
    rw [again]
    refine perform_stage surroundings trail ?_
    intro pair member
    obtain ⟨target, asked, rfl⟩ := List.mem_map.mp member
    exact perform_plan surroundings kept trail filled (present target asked)
  have idle (step : Task → Action Unit) (nothing : step .nothing = pure ()) :
      ∃ results, perform surroundings
        (stage trail (fun _ task => step task)
          (targets.map fun target => (target, Task.nothing))) workspace =
        (.ok results, workspace) := by
    have each : ∀ pair ∈ targets.map fun target => (target, Task.nothing),
        perform surroundings (step pair.2) workspace = (.ok (), workspace) := by
      intro pair member
      obtain ⟨target, _, rfl⟩ := List.mem_map.mp member
      rw [nothing]
      rfl
    exact ⟨_, perform_stage surroundings trail each⟩
  obtain ⟨_, cleared⟩ := idle (clear sources) rfl
  obtain ⟨_, filledAll⟩ := idle (fill sources) rfl
  rw [prepare, perform_bind, plans]
  dsimp only
  rw [perform_bind, cleared]
  dsimp only
  rw [perform_bind, filledAll]
  rfl

end IncludeSources

end

end CiPipeline
