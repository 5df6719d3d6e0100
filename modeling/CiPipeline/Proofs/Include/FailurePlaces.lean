import CiPipeline.Proofs.Include.Plans
import CiPipeline.Proofs.Include.Stillness
import CiPipeline.Proofs.Trails

/-!
# Where the resolution of includes fails

Whatever goes wrong when includes are resolved is reported at a place to which
the trail leads, except for one kind of failure: that it cannot be found out
whether an included file is there.
-/

namespace CiPipeline

open CiPipeline.Action CiPipeline.Sequencing

/-! ## Failures of actions -/

namespace Action

variable {Given Result : Type} {surroundings : Surroundings}
  {fails : Failure → Workspace → Prop}

/-- What an action fails with and the workspace that it leaves then satisfy a
condition. -/
def FailsWith (surroundings : Surroundings) (fails : Failure → Workspace → Prop)
    (action : Action Result) : Prop :=
  ∀ workspace failure after,
    perform surroundings action workspace = (.error failure, after) →
      fails failure after

private theorem failsWith_pure (result : Result) :
    FailsWith surroundings fails (pure result) := by
  intro workspace failure after failed
  cases failed

private theorem failsWith_throw {failure : Failure}
    (satisfied : ∀ workspace, fails failure workspace) :
    FailsWith surroundings fails (throw failure : Action Result) := by
  intro workspace _ after failed
  cases failed
  exact satisfied workspace

private theorem failsWith_get :
    FailsWith surroundings fails (get : Action Workspace) := by
  intro workspace failure after failed
  cases failed

private theorem failsWith_ofExcept {reading : Except Failure Result}
    (satisfied : ∀ failure, reading = .error failure → ∀ workspace,
      fails failure workspace) :
    FailsWith surroundings fails (MonadExcept.ofExcept reading) := by
  cases reading with
  | error failure => exact failsWith_throw (satisfied failure rfl)
  | ok result => exact failsWith_pure result

private theorem failsWith_look {reading : Files → Except IoError Result}
    (satisfied : ∀ error workspace, reading workspace.files = .error error →
      fails (.io error.message) workspace) :
    FailsWith surroundings fails (look reading) := by
  intro workspace failure after failed
  rw [perform_look] at failed
  cases read : reading workspace.files with
  | error error =>
      rw [read] at failed
      cases failed
      exact satisfied error workspace read
  | ok result =>
      rw [read] at failed
      cases failed

/-- A part may fail whenever it is reached. -/
theorem FailsWith.bind {action : Action Given} {next : Given → Action Result}
    (first : FailsWith surroundings fails action)
    (second : ∀ given before between,
      perform surroundings action before = (.ok given, between) →
        FailsWith surroundings fails (next given)) :
    FailsWith surroundings fails (action >>= next) := by
  intro workspace failure after failed
  rw [perform_bind] at failed
  cases begun : perform surroundings action workspace with
  | mk outcome between =>
      rw [begun] at failed
      cases outcome with
      | error other =>
          cases failed
          exact first workspace failure after begun
      | ok given =>
          exact second given workspace between begun between failure
            after failed

/-- What a failure is replaced by satisfies a condition if the failure satisfies
another one. -/
theorem FailsWith.tryCatch {raw : Failure → Workspace → Prop}
    {action : Action Result}
    {again : Failure → Failure} (first : FailsWith surroundings raw action)
    (replaced : ∀ failure workspace,
      raw failure workspace → fails (again failure) workspace) :
    FailsWith surroundings fails
      (tryCatch action fun failure => throw (again failure)) := by
  intro workspace failure after failed
  rw [perform_tryCatch] at failed
  cases begun : perform surroundings action workspace with
  | mk outcome between =>
      rw [begun] at failed
      cases outcome with
      | error other =>
          cases failed
          exact replaced other after (first workspace other after begun)
      | ok result => cases failed

private theorem failsWith_change {action : FileAction Unit}
    (satisfied : ∀ reason workspace, fails (.io reason) workspace) :
    FailsWith surroundings fails (change action) := by
  intro workspace failure after failed
  rw [perform_change] at failed
  rcases outcome : action.run.run workspace.files with ⟨error | _, files⟩
  · rw [outcome] at failed
    cases failed
    exact satisfied _ _
  · rw [outcome] at failed
    cases failed

private theorem failsWith_execute {command : Command}
    (satisfied : ∀ reason workspace, fails (.io reason) workspace) :
    FailsWith surroundings fails (execute command) := by
  intro workspace failure after failed
  rw [perform_execute] at failed
  rcases outcome : surroundings.run command workspace.files with
    ⟨error | _, files⟩
  · rw [outcome] at failed
    cases failed
    exact satisfied _ _
  · rw [outcome] at failed
    cases failed

end Action

/-! ## Failures without a place -/

/-- A failure that has no place yet. -/
def Failure.Unplaced (failure : Failure) : Prop :=
  ∀ problem path, failure ≠ .located problem path

/-- A failure without a place is placed where a trail leads. -/
theorem Trail.wrap_of_unplaced {failure : Failure} (unplaced : failure.Unplaced)
    (trail : Trail) :
    trail.wrap failure = trail.fail (.other failure.message) := by
  cases failure with
  | located problem path => exact (unplaced problem path rfl).elim
  | _ => rfl

variable {surroundings : Surroundings}

/-- An action that fails without a place. -/
abbrev FailsUnplaced {Result : Type} (surroundings : Surroundings)
    (action : Action Result) : Prop :=
  Action.FailsWith surroundings (fun failure _ => failure.Unplaced) action

private theorem unplaced_io (reason : String) :
    (Failure.io reason).Unplaced := by
  rintro problem path ⟨⟩

private theorem failsUnplaced_look {Result : Type}
    (reading : Files → Except IoError Result) :
    FailsUnplaced surroundings (Action.look reading) :=
  failsWith_look fun error _ _ => unplaced_io error.message

namespace Document

private theorem unplaced_of_read {text : String} {failure : Failure}
    (failed : read text = .error failure) :
    failure.Unplaced := by
  unfold read at failed
  split at failed
  · cases failed
  · split at failed <;> cases failed
    · rintro problem path ⟨⟩
    · rintro problem path ⟨⟩

private theorem failsUnplaced_load (path : String) :
    FailsUnplaced surroundings (load path) := by
  apply (failsUnplaced_look _).bind
  intro present _ _ _
  split
  · apply (failsUnplaced_look _).bind
    intro text _ _ _
    exact failsWith_ofExcept fun failure failed _ => unplaced_of_read failed
  · exact failsWith_pure _

end Document

namespace IncludeCache

private theorem failsUnplaced_allExist (paths : List String) :
    FailsUnplaced surroundings (allExist paths) := by
  induction paths with
  | nil => exact failsWith_pure _
  | cons path rest induction =>
      apply (failsUnplaced_look _).bind
      intro present _ _ _
      split
      · exact induction
      · exact failsWith_pure _

private theorem failsUnplaced_isFresh (cache : IncludeCache)
    (paths : List String) :
    FailsUnplaced surroundings (cache.isFresh paths) := by
  unfold isFresh
  split
  · exact failsWith_pure _
  · exact failsUnplaced_allExist paths

end IncludeCache

namespace IncludeSources

variable (sources : IncludeSources)

private theorem failsUnplaced_planRemote (address : String) :
    FailsUnplaced surroundings (sources.planRemote address) := by
  apply (IncludeCache.failsUnplaced_isFresh _ _).bind
  intro fresh _ _ _
  split
  · exact failsWith_pure _
  · split
    · exact failsWith_throw fun _ => by rintro problem path ⟨⟩
    · split
      · exact failsWith_throw fun _ => by rintro problem path ⟨⟩
      · exact failsWith_pure _

private theorem failsUnplaced_missingFiles (project ref : String)
    (names : List String) :
    FailsUnplaced surroundings (sources.missingFiles project ref names) := by
  induction names with
  | nil => exact failsWith_pure _
  | cons name rest induction =>
      apply (failsUnplaced_look _).bind
      intro present _ _ _
      apply induction.bind
      intro missing _ _ _
      exact failsWith_pure _

private theorem failsUnplaced_planProject (filled : Filled)
    (project ref : String) (names : List String) :
    FailsUnplaced surroundings
      (sources.planProject filled project ref names) := by
  unfold planProject
  split
  · apply (sources.failsUnplaced_missingFiles _ _ _).bind
    intro missing _ _ _
    refine FailsWith.bind failsWith_get ?_
    intro workspace _ _ _
    split <;> exact failsWith_pure _
  · apply (IncludeCache.failsUnplaced_isFresh _ _).bind
    intro fresh _ _ _
    split
    · exact failsWith_pure _
    · split <;> exact failsWith_pure _

private theorem failsUnplaced_clear (task : Task) :
    FailsUnplaced surroundings (sources.clear task) := by
  unfold clear
  split
  · exact failsWith_change fun reason _ => unplaced_io reason
  · exact failsWith_change fun reason _ => unplaced_io reason
  · exact failsWith_pure _

private theorem failsUnplaced_extract (project ref : String)
    (names : List String) :
    FailsUnplaced surroundings (sources.extract project ref names) := by
  refine FailsWith.bind
    (failsWith_execute fun reason _ => unplaced_io reason) ?_
  intro output _ _ _
  split
  · exact failsWith_throw fun _ => by rintro problem path ⟨⟩
  · exact failsWith_pure _

private theorem unplaced_declareFailure (declared : String)
    (failure : Failure) :
    (declareFailure declared failure).Unplaced := by
  cases failure <;> rintro problem path ⟨⟩

private theorem failsUnplaced_fill (task : Task) :
    FailsUnplaced surroundings (sources.fill task) := by
  cases task with
  | nothing => exact failsWith_pure _
  | download address declared =>
      have attempted : Action.FailsWith surroundings (fun _ _ => True)
          (Download.attempt address Download.mostRetries) :=
            fun _ _ _ _ => trivial
      have declaredFailure : FailsUnplaced surroundings
          (tryCatch (Download.attempt address Download.mostRetries)
            fun failure =>
            throw (declareFailure declared failure)) :=
        attempted.tryCatch fun failure _ _ =>
          unplaced_declareFailure declared failure
      apply declaredFailure.bind
      intro content _ _ _
      exact failsWith_change fun reason _ => unplaced_io reason
  | link project ref checkout =>
      exact failsWith_change fun reason _ => unplaced_io reason
  | extract afresh project ref names =>
      have extracted :
          FailsUnplaced surroundings (sources.extract project ref names) :=
        sources.failsUnplaced_extract project ref names
      cases afresh with
      | false => exact extracted
      | true =>
          refine FailsWith.bind
            (failsWith_change fun reason _ => unplaced_io reason) ?_
          intro _ _ _ _
          exact extracted

/-! ## Failures of targets -/

/-- A failure to find out whether there is a file at one of some paths. -/
def Strays (asked : String → Prop) (files : Files) (failure : Failure) : Prop :=
  ∃ path error, asked path ∧ files.has path = .error error ∧
    failure = .io error.message

/-- A failure at a place to which a trail leads, or one to find out whether a
file is there. -/
def Placed (trail : Trail) (asked : String → Prop) (failure : Failure)
    (workspace : Workspace) : Prop :=
  trail.Blames failure ∨ Strays asked workspace.files failure

variable {sources} {asked : String → Prop}

private theorem placed_fail (trail : Trail) (problem : Problem)
    (workspace : Workspace) :
    Placed trail asked (trail.fail problem) workspace :=
  .inl (.fail problem (List.suffix_refl _))

private theorem placed_wrap {failure : Failure} (unplaced : failure.Unplaced)
    (trail : Trail) (workspace : Workspace) :
    Placed trail asked (trail.wrap failure) workspace := by
  rw [Trail.wrap_of_unplaced unplaced]
  exact placed_fail trail _ workspace

private theorem failsWith_has {path : String} (isAsked : asked path)
    (trail : Trail) :
    Action.FailsWith surroundings (Placed trail asked)
      (Action.look (·.has path)) :=
  failsWith_look fun error _ failed => .inr ⟨path, error, isAsked, failed, rfl⟩

theorem Placed.mono {outer inner : Trail} {failure : Failure}
    {workspace : Workspace} (placed : Placed inner asked failure workspace)
    (leads : outer.frames <:+ inner.frames) :
    Placed outer asked failure workspace := by
  rcases placed with blames | strays
  · cases blames with
    | fail problem further => exact .inl (.fail problem (leads.trans further))
  · exact .inr strays

/-- A target that is no local file places its failures. -/
theorem placed_blame {target : Target}
    (notLocal : ∀ declared, target ≠ .localFile declared) {failure : Failure}
    (unplaced : failure.Unplaced) (trail : Trail) (workspace : Workspace) :
    Placed trail asked (target.blame trail failure) workspace := by
  cases target with
  | localFile declared => exact (notLocal declared rfl).elim
  | project name ref files =>
      exact (placed_wrap unplaced _ workspace).mono (List.suffix_cons _ _)
  | remote address =>
      exact (placed_wrap unplaced _ workspace).mono (List.suffix_cons _ _)

section

variable {Given Result : Type} {trail : Trail}
  {run : Target → Given → Action Result}

private theorem failsWith_stage {fails : Failure → Workspace → Prop}
    {givens : List (Target × Given)}
    (each : ∀ pair ∈ givens, Action.FailsWith surroundings
      (fun failure workspace => fails (pair.1.blame trail failure) workspace)
      (run pair.1 pair.2)) :
    Action.FailsWith surroundings fails (stage trail run givens) := by
  induction givens with
  | nil => exact failsWith_pure _
  | cons pair rest induction =>
      obtain ⟨first, others⟩ := List.forall_mem_cons.mp each
      apply (first.tryCatch fun _ _ failed => failed).bind
      intro result _ _ _
      apply (induction others).bind
      intro results _ _ _
      exact failsWith_pure _

/-- What a stage gives for a target is what running it gives. -/
theorem of_perform_stage {givens : List (Target × Given)}
    {results : List (Target × Result)} {workspace after : Workspace}
    (success : perform surroundings (stage trail run givens) workspace =
      (.ok results, after)) :
    ∀ pair ∈ results, ∃ given before between,
      perform surroundings (run pair.1 given) before =
        (.ok pair.2, between) := by
  induction givens generalizing results workspace with
  | nil =>
      obtain ⟨rfl, _⟩ := of_perform_stage_nil success
      exact fun _ member => (List.not_mem_nil member).elim
  | cons pair rest induction =>
      obtain ⟨result, others, between, first, remaining, rfl⟩ :=
        of_perform_stage_cons success
      rw [List.forall_mem_cons]
      exact ⟨⟨pair.2, workspace, between, first⟩, induction remaining⟩

end

private theorem failsWith_plan (trail : Trail) (filled : Filled)
    {target : Target}
    (isAsked : ∀ declared,
      target = .localFile declared → asked (sources.localPath declared)) :
    Action.FailsWith surroundings
      (fun failure workspace => Placed trail asked (target.blame trail failure)
        workspace) (sources.plan trail filled target) := by
  have placed {action : Action Task}
      (unplaced : FailsUnplaced surroundings action)
      (notLocal : ∀ declared, target ≠ .localFile declared) :
      Action.FailsWith surroundings (fun failure workspace =>
        Placed trail asked (target.blame trail failure) workspace) action :=
    fun workspace failure after failed =>
      placed_blame notLocal
        (unplaced workspace failure after failed) trail after
  cases target with
  | remote address =>
      exact placed (sources.failsUnplaced_planRemote address) (by simp)
  | project project ref names =>
      exact placed (sources.failsUnplaced_planProject filled project ref names)
        (by simp)
  | localFile declared =>
      refine FailsWith.bind (failsWith_has (isAsked declared rfl) trail) ?_
      intro present _ _ _
      split
      · exact failsWith_pure _
      · exact failsWith_throw fun workspace => placed_fail trail _ workspace

/-- Preparing targets fails where the trail leads, or because it cannot be found
out whether a local file is there. -/
theorem failsWith_prepare (trail : Trail) (filled : Filled)
    {targets : List Target}
    (areAsked : ∀ declared,
      .localFile declared ∈ targets → asked (sources.localPath declared)) :
    Action.FailsWith surroundings (Placed trail asked)
      (sources.prepare trail filled targets) := by
  have planning : Action.FailsWith surroundings (Placed trail asked)
      (stage trail (fun target () => sources.plan trail filled target)
        (targets.map fun target => (target, ()))) := by
    apply failsWith_stage
    intro pair member
    obtain ⟨target, isTarget, rfl⟩ := List.mem_map.mp member
    exact failsWith_plan trail filled fun declared same =>
      areAsked declared (same ▸ isTarget)
  refine FailsWith.bind planning ?_
  intro plans _ _ planned
  have later (run : Task → Action Unit) (idle : run .nothing = pure ())
      (unplaced : ∀ task, FailsUnplaced surroundings (run task)) :
      Action.FailsWith surroundings (Placed trail asked)
        (stage trail (fun _ task => run task) plans) := by
    apply failsWith_stage
    rintro ⟨target, task⟩ member workspace failure after failed
    obtain ⟨_, before, between, plan⟩ := of_perform_stage planned _ member
    by_cases isLocal : ∃ declared, target = .localFile declared
    · obtain ⟨declared, rfl⟩ := isLocal
      obtain ⟨_, isNothing, _⟩ := of_perform_plan_localFile plan
      dsimp only at failed isNothing
      rw [isNothing, idle] at failed
      cases failed
    · exact placed_blame (fun declared same => isLocal ⟨declared, same⟩)
        (unplaced task workspace failure after failed) trail after
  refine FailsWith.bind (later sources.clear rfl sources.failsUnplaced_clear) ?_
  intro _ _ _ _
  refine FailsWith.bind (later sources.fill rfl sources.failsUnplaced_fill) ?_
  intro _ _ _ _
  exact failsWith_pure _

end IncludeSources

/-! ## Failures of resolutions -/

namespace Resolution

variable {Given Result : Type} {passes : Workspace → Prop}
  {fails : Failure → Workspace → Prop} {holds : Result → Prop}

/-- A resolution that begins in a workspace with some property, whatever is
filled already.  What it fails with and the workspace that it leaves then
satisfy a condition; when it succeeds the workspace has the property again, and
the result satisfies another condition. -/
structure Reports (surroundings : Surroundings) (passes : Workspace → Prop)
    (fails : Failure → Workspace → Prop) (holds : Result → Prop)
    (action : Resolution Result) : Prop where
  failure : ∀ {filled before failure after}, passes before →
    perform surroundings (action.run filled) before = (.error failure, after) →
      fails failure after
  success : ∀ {filled before result nowFilled after}, passes before →
    perform surroundings (action.run filled) before =
      (.ok (result, nowFilled), after) →
      passes after ∧ holds result

private theorem reports_pure {result : Result} (satisfied : holds result) :
    Reports surroundings passes fails holds (pure result) where
  failure _ failed := by cases failed
  success passing success := by
    cases success
    exact ⟨passing, satisfied⟩

private theorem reports_throw {failure : Failure}
    (satisfied : ∀ workspace, fails failure workspace) :
    Reports surroundings passes fails holds
      (throw failure : Resolution Result) where
  failure _ failed := by
    cases failed
    exact satisfied _
  success _ success := by cases success

private theorem reports_get :
    Reports surroundings passes fails
      (fun _ => True) (get : Resolution Filled) where
  failure _ failed := by cases failed
  success passing success := by
    cases success
    exact ⟨passing, trivial⟩

private theorem reports_set (filled : Filled) :
    Reports surroundings passes fails
      (fun _ => True) (set filled : Resolution PUnit) where
  failure _ failed := by cases failed
  success passing success := by
    cases success
    exact ⟨passing, trivial⟩

private theorem reports_ofExcept {reading : Except Failure Result}
    (satisfied : ∀ failure, reading = .error failure → ∀ workspace,
      fails failure workspace) :
    Reports surroundings passes fails (fun result => reading = .ok result)
      (MonadExcept.ofExcept reading : Resolution Result) := by
  cases reading with
  | error failure => exact reports_throw (satisfied failure rfl)
  | ok result => exact reports_pure rfl

private theorem reports_lift {action : Action Result}
    (failsWith : Action.FailsWith surroundings fails action)
    (kept : ∀ before result after, passes before →
      perform surroundings action before = (.ok result, after) →
      passes after ∧ holds result) :
    Reports surroundings passes fails holds
        (liftM action : Resolution Result) := by
  have ran (filled : Filled) (before : Workspace) :
      perform surroundings
        ((liftM action : Resolution Result).run filled) before =
        perform surroundings (action >>= fun result => pure (result, filled))
          before := rfl
  constructor
  · intro filled before failure after _ failed
    rw [ran] at failed
    exact failsWith.bind
      (fun _ _ _ _ => failsWith_pure _) before failure after failed
  · intro filled before result nowFilled after passing success
    rw [ran] at success
    obtain ⟨given, between, performed, returned⟩ :=
      perform_bind_eq_ok_iff.mp success
    cases returned
    exact kept before result after passing performed

theorem Reports.bind {action : Resolution Given}
    {next : Given → Resolution Result} {between : Given → Prop}
    (first : Reports surroundings passes fails between action)
    (second : ∀ given,
      between given → Reports surroundings passes fails holds (next given)) :
    Reports surroundings passes fails holds (action >>= next) := by
  constructor
  · intro filled before failure after passing failed
    rw [StateT.run_bind, perform_bind] at failed
    cases begun : perform surroundings (action.run filled) before with
    | mk outcome middle =>
        rw [begun] at failed
        cases outcome with
        | error other =>
            cases failed
            exact first.failure passing begun
        | ok pair =>
            obtain ⟨passingStill, satisfied⟩ := first.success passing begun
            exact (second pair.1 satisfied).failure passingStill failed
  · intro filled before result nowFilled after passing success
    rw [StateT.run_bind] at success
    obtain ⟨pair, middle, begun, finished⟩ := perform_bind_eq_ok_iff.mp success
    obtain ⟨passingStill, satisfied⟩ := first.success passing begun
    exact (second pair.1 satisfied).success passingStill finished

private theorem reports_mapM {values : List Given}
    {step : Given → Resolution Result}
    (each : ∀ value ∈ values, Reports surroundings passes fails
      (fun _ => True) (step value)) :
    Reports surroundings passes fails (fun _ => True) (values.mapM step) := by
  induction values with
  | nil => exact reports_pure trivial
  | cons value rest induction =>
      obtain ⟨first, others⟩ := List.forall_mem_cons.mp each
      rw [List.mapM_cons]
      apply first.bind
      intro result _
      apply (induction others).bind
      intro results _
      exact reports_pure trivial

theorem Reports.mono {stronger : Failure → Workspace → Prop}
    {action : Resolution Result}
    (reports : Reports surroundings passes stronger holds action)
    (weaker : ∀ failure workspace,
      stronger failure workspace → fails failure workspace) :
    Reports surroundings passes fails holds action where
  failure passing failed := weaker _ _ (reports.failure passing failed)
  success passing success := reports.success passing success

end Resolution

/-- A local file is a target only when a directive declares it. -/
theorem Target.localFile_mem_of_ofIncludes {defaultRef declared : String}
    {directives : List Include}
    (isTarget : .localFile declared ∈ Target.ofIncludes defaultRef directives) :
    .localFile declared ∈ directives := by
  have declares : ∀ target ∈ Target.ofIncludes defaultRef directives,
      ∀ path, target = .localFile path → .localFile path ∈ directives := by
    refine Target.ofIncludes_forall ?_ ?_ ?_ ?_
    · rintro path isDeclared _ ⟨⟩
      exact isDeclared
    · rintro name ref names _ known _ path ⟨⟩
    · rintro name _ path ⟨⟩
    · rintro address _ path ⟨⟩
  exact declares _ isTarget declared rfl

namespace IncludeSources

open CiPipeline.Resolution

/-! ## What a resolution comes across -/

/-- A directive opens files, in each of which local directives have a scope. -/
inductive Opens (sources : IncludeSources) :
    Include → String → (Include → Include) → Prop where
  | localFile (path : String) :
      Opens sources (.localFile path) (sources.localPath path) id
  | template (name : String) :
      Opens sources (.template name)
        (sources.remotePath (IncludeUrl.ofTemplate name)) id
  | remote (address : String) :
      Opens sources (.remote address) (sources.remotePath address) id
  | projectFile (project : String) (ref : Option String) {name : String}
      {names : List String} :
      name ∈ names →
      Opens sources (.projectFiles project ref names)
        (sources.projectFile project (sources.refOf ref) name)
        (Include.within project (sources.refOf ref))

/-- How a resolution begins: with some directives in a workspace. -/
structure Course where
  surroundings : Surroundings
  sources : IncludeSources
  start : Workspace
  declared : List Include

mutual

/-- The workspaces that a resolution passes: the first one, and those in which
targets of directives that it meets have been prepared. -/
inductive Course.Passes (course : Course) : Workspace → Prop where
  | start : course.Passes course.start
  | prepared {directives : List Include} {between : Workspace} (trail : Trail)
      (filled : Filled) :
      course.Meets directives →
      course.Passes between →
      course.Passes (perform course.surroundings
        (course.sources.prepare trail filled
          (Target.ofIncludes course.sources.repository.remote.defaultBranch
            directives)) between).2

/-- The directives that a resolution meets: the first ones, and those in the
documents that they open. -/
inductive Course.Meets (course : Course) : List Include → Prop where
  | declared : course.Meets course.declared
  | opened {directives inner : List Include} {directive : Include}
      {path : String} {scope : Include → Include} {between : Workspace}
      {document : Node} (trail : Trail) :
      course.Meets directives →
      directive ∈ directives →
      course.sources.Opens directive path scope →
      course.Passes between →
      (perform course.surroundings (Document.load path) between).1 =
        .ok document →
      Include.read trail (document.get? "include") = .ok inner →
      course.Meets (inner.map scope)

end

/-- The files that are looked for on behalf of directives that a
resolution meets. -/
inductive Course.LooksFor (course : Course) : String → Prop where
  | localFile {directives : List Include} {path : String} :
      course.Meets directives →
      .localFile path ∈ directives →
      course.LooksFor (course.sources.localPath path)
  | projectFile {directives : List Include} {project : String}
      {ref : Option String} {name : String} {names : List String} :
      course.Meets directives →
      .projectFiles project ref names ∈ directives →
      name ∈ names →
      course.LooksFor
        (course.sources.projectFile project (course.sources.refOf ref) name)

private theorem failsBelow_ofAddress (trail : Trail) (address : String) :
    trail.FailsBelow (Include.ofAddress trail address) := by
  unfold Include.ofAddress
  split
  · exact Trail.failsBelow_ok trail _
  · exact Trail.failsBelow_fail trail _

private theorem failsBelow_ofMapping (trail : Trail) (entry : Node) :
    trail.FailsBelow (Include.ofMapping trail entry) := by
  unfold Include.ofMapping
  dsimp only
  split
  · apply (Trail.failsBelow_require trail _ _).bind
    intro path
    exact Trail.failsBelow_ok trail _
  · split
    · apply (Trail.failsBelow_require trail _ _).bind
      intro project
      apply (Trail.failsBelow_require trail _ _).bind
      intro names
      exact Trail.failsBelow_ok trail _
    · split
      · apply (Trail.failsBelow_require trail _ _).bind
        intro name
        exact Trail.failsBelow_ok trail _
      · split
        · apply (Trail.failsBelow_require trail _ _).bind
          intro address
          exact failsBelow_ofAddress trail address
        · exact Trail.failsBelow_fail trail _

private theorem failsBelow_ofEntry (trail : Trail) (entry : Node) :
    trail.FailsBelow (Include.ofEntry trail entry) := by
  unfold Include.ofEntry
  split
  · split
    · exact failsBelow_ofAddress trail _
    · exact Trail.failsBelow_ok trail _
  · exact failsBelow_ofMapping trail _
  · exact Trail.failsBelow_fail trail _

/-- A directive that cannot be read is blamed below the key that it
stands under. -/
theorem failsBelow_read (trail : Trail) (value : Option Node) :
    trail.FailsBelow (Include.read trail value) := by
  have below :
      (trail.descend "include").FailsBelow (Include.read trail value) :=
    Trail.FailsBelow.mapM fun entry => failsBelow_ofEntry _ entry
  exact below.of_descend

/-! ## Failures of documents -/

variable {course : Course}

/-- A resolution in the course of another one that fails where the trail leads,
but for failures to find out whether a file is there. -/
abbrev Course.Reports {Result : Type} (course : Course) (trail : Trail)
    (holds : Result → Prop) (action : Resolution Result) : Prop :=
  Resolution.Reports course.surroundings course.Passes
    (Placed trail course.LooksFor) holds action

private theorem reports_read (trail : Trail) (value : Option Node) :
    course.Reports trail (fun directives => Include.read trail value =
      .ok directives) (MonadExcept.ofExcept (Include.read trail value)) :=
  Resolution.reports_ofExcept fun failure failed _ =>
    .inl (failsBelow_read trail value failure failed)

/-- A resolver of directives that a resolution meets. -/
def Course.Resolves (course : Course) (resolver : Resolver) : Prop :=
  ∀ trail document directives, course.Meets directives →
    course.Reports trail (fun _ => True) (resolver trail document directives)

variable {resolver : Resolver}

private theorem perform_load_workspace {workspace : Workspace} (path : String) :
    (perform surroundings (Document.load path) workspace).2 = workspace := by
  refine perform_bind_workspace (perform_look_workspace _) ?_
  intro present
  split
  · refine perform_bind_workspace (perform_look_workspace _) ?_
    intro text
    cases Document.read text <;> rfl
  · rfl

private theorem documentsAt_reports (resolves : course.Resolves resolver)
    {directives : List Include}
    {directive : Include} {path : String} {scope : Include → Include}
    (meets : course.Meets directives) (member : directive ∈ directives)
    (opens : course.sources.Opens directive path scope) (trail : Trail) :
    course.Reports trail
      (fun _ => True) (documentsAt resolver trail path scope) := by
  have loaded : course.Reports trail
      (fun document => ∃ between, course.Passes between ∧
        (perform course.surroundings (Document.load path) between).1 =
          .ok document)
      (liftM (Action.within trail (Document.load path))) := by
    apply Resolution.reports_lift
    · exact (Document.failsUnplaced_load path).tryCatch
          fun failure workspace unplaced =>
        placed_wrap unplaced trail workspace
    · intro before document after passing success
      have loads := perform_tryCatch_throw_eq_ok_iff.mp success
      have same : after = before := by
        have unchanged :
            (perform course.surroundings (Document.load path) before).2 =
              before :=
          perform_load_workspace path
        rw [loads] at unchanged
        exact unchanged
      exact ⟨same ▸ passing, before, passing, congrArg Prod.fst loads⟩
  refine loaded.bind ?_
  rintro document ⟨between, passing, loads⟩
  refine (reports_read trail _).bind ?_
  intro inner read
  exact resolves trail document _
    (.opened trail meets member opens passing loads read)

private theorem documentsOfProject_reports (resolves : course.Resolves resolver)
    {directives : List Include} {project : String} {ref : Option String}
    {names : List String} (meets : course.Meets directives)
    (member : .projectFiles project ref names ∈ directives)
    {name : String} (named : name ∈ names) (trail : Trail) :
    course.Reports trail (fun _ => True)
      (course.sources.documentsOfProject resolver trail project
        (course.sources.refOf ref) name) := by
  have looked : course.Reports trail (fun _ => True)
      (liftM (Action.look (·.has
        (course.sources.projectFile project (course.sources.refOf ref)
          name)))) := by
    refine Resolution.reports_lift
      (failsWith_has (.projectFile meets member named) trail) ?_
    intro before present after passing success
    obtain ⟨_, rfl⟩ := perform_look_eq_ok_iff.mp success
    exact ⟨passing, trivial⟩
  refine looked.bind ?_
  intro present _
  split
  · exact documentsAt_reports resolves meets member
      (.projectFile project ref named) trail
  · exact Resolution.reports_throw fun workspace =>
      placed_wrap (by rintro problem path ⟨⟩) trail workspace

private theorem documentsOf_reports (resolves : course.Resolves resolver)
    {directives : List Include} {directive : Include}
    (meets : course.Meets directives) (member : directive ∈ directives)
    (trail : Trail) :
    course.Reports trail (fun _ => True)
      (course.sources.documentsOf resolver trail directive) := by
  have leads : trail.frames <:+ (directive.trailOf trail).frames := by
    cases directive <;> exact List.suffix_cons _ _
  have inner : course.Reports (directive.trailOf trail) (fun _ => True)
      (course.sources.documentsOf resolver trail directive) := by
    cases directive with
    | localFile path =>
        exact documentsAt_reports resolves meets member (.localFile path) _
    | template name =>
        exact documentsAt_reports resolves meets member (.template name) _
    | remote address =>
        exact documentsAt_reports resolves meets member (.remote address) _
    | projectFiles project ref names =>
        refine Resolution.Reports.bind
            (Resolution.reports_mapM fun name named =>
          documentsOfProject_reports resolves meets member named _) ?_
        intro documents _
        exact Resolution.reports_pure trivial
  exact inner.mono fun failure workspace failed => failed.mono leads

/-- The directives of a chain of any length fail where the trail leads, but for
failures to find out whether a file is there. -/
theorem resolveWithin_resolves (length : Nat) :
    course.Resolves (course.sources.resolveWithin length) := by
  induction length with
  | zero =>
      intro trail document directives _
      exact Resolution.reports_throw fun workspace =>
        placed_fail trail _ workspace
  | succ length induction =>
      intro trail document directives meets
      have prepared (filled : Filled) : course.Reports trail (fun _ => True)
          (liftM (course.sources.prepare trail filled
            (Target.ofIncludes course.sources.repository.remote.defaultBranch
              directives))) := by
        apply Resolution.reports_lift
        · exact failsWith_prepare trail filled fun declared isTarget =>
            .localFile meets (Target.localFile_mem_of_ofIncludes isTarget)
        · intro before nowFilled after passing success
          -- What preparing leaves is passed by definition; reading documents
          -- changes nothing.
          have passes := Course.Passes.prepared trail filled meets passing
          rw [success] at passes
          exact ⟨passes, trivial⟩
      refine Resolution.reports_get.bind ?_
      intro filled _
      refine (prepared filled).bind ?_
      intro nowFilled _
      refine (Resolution.reports_set nowFilled).bind ?_
      intro _ _
      refine Resolution.Reports.bind
          (Resolution.reports_mapM fun directive member =>
        documentsOf_reports induction meets member trail) ?_
      intro included _
      exact Resolution.reports_pure trivial

private theorem intercalate_ne_empty {label : String} (visible : label ≠ "")
    (separator : String) {labels : List String} (member : label ∈ labels) :
    separator.intercalate labels ≠ "" := by
  induction labels with
  | nil => cases member
  | cons first rest induction =>
      cases rest with
      | nil =>
          rw [String.intercalate_singleton, ← List.mem_singleton.mp member]
          exact visible
      | cons second others =>
          rw [String.intercalate_cons_cons]
          intro empty
          obtain ⟨front, behind⟩ := String.append_eq_empty_iff.mp empty
          rcases List.mem_cons.mp member with rfl | inRest
          · exact visible (String.append_eq_empty_iff.mp front).1
          · exact induction inRest behind

/-- The path of a trail is not empty below a frame that shows something. -/
theorem render_ne_empty {outer inner : Trail} {frame : Frame} {label : String}
    (entered : frame ∈ outer.frames) (shown : frame.label? = some label)
    (visible : label ≠ "") (leads : outer.frames <:+ inner.frames) :
    inner.render ≠ "" := by
  apply intercalate_ne_empty visible
  rw [List.mem_filterMap]
  exact ⟨frame, List.mem_reverse.mpr (leads.subset entered), shown⟩

/-- On a trail that shows something, whatever fails while the includes of a
document are resolved is reported with a path that is not empty and goes on from
the trail, except for the failure to find out whether a local file or the file
of a project is there that is asked for on the way. -/
theorem resolve_failure_placed {trail : Trail} {frame : Frame} {label : String}
    (entered : frame ∈ trail.frames) (shown : frame.label? = some label)
    (visible : label ≠ "") {document : Node}
    {filled : Filled} {workspace after : Workspace} {failure : Failure}
    (failed : perform surroundings ((sources.resolve trail document).run filled)
      workspace = (.error failure, after)) :
    (∃ problem inner, trail.frames <:+ Trail.frames inner ∧
        failure = .located problem inner.render ∧ inner.render ≠ "") ∨
      ∃ directives, Include.read trail (document.get? "include") =
        .ok directives ∧
        Strays (Course.LooksFor ⟨surroundings, sources, workspace, directives⟩)
          after.files failure := by
  have placed (blames : trail.Blames failure) : ∃ problem inner,
      trail.frames <:+ Trail.frames inner ∧
        failure = .located problem inner.render ∧
        inner.render ≠ "" := by
    cases blames with
    | @fail inner problem leads =>
        exact ⟨problem, inner, leads, rfl,
          render_ne_empty entered shown visible leads⟩
  unfold resolve at failed
  cases read : Include.read trail (document.get? "include") with
  | error unread =>
      rw [read] at failed
      cases failed
      exact .inl (placed (failsBelow_read trail _ _ read))
  | ok directives =>
      rw [read] at failed
      let course : Course := ⟨surroundings, sources, workspace, directives⟩
      have resolves :
          course.Resolves (course.sources.resolveWithin longestChain) :=
        resolveWithin_resolves longestChain
      rcases (resolves trail document directives .declared).failure
          .start failed with
        blames | strays
      · exact .inl (placed blames)
      · exact .inr ⟨directives, rfl, strays⟩

/-- An included file that is no text is reported with its path. -/
theorem resolve_failure_placed_stocked :
    perform silentSurroundings
        ((loopingSources.resolve (Trail.root.descend "job") stockedDocument).run
          []) { files := stockedCheckout } =
      (.error (.located (.other "IO error: stream did not contain valid UTF-8")
        "job ⋯ [include] local ⟵ 'a.yml'"), { files := stockedCheckout }) ∧
    ∃ problem inner, [Frame.named "job"] <:+ Trail.frames inner ∧
      Failure.located (.other "IO error: stream did not contain valid UTF-8")
          "job ⋯ [include] local ⟵ 'a.yml'" = .located problem inner.render ∧
        inner.render ≠ "" := by
  have failed : perform silentSurroundings
      ((loopingSources.resolve (Trail.root.descend "job") stockedDocument).run
        []) { files := stockedCheckout } =
      (.error (.located (.other "IO error: stream did not contain valid UTF-8")
        "job ⋯ [include] local ⟵ 'a.yml'"), { files := stockedCheckout }) := rfl
  refine ⟨failed, ?_⟩
  rcases resolve_failure_placed (List.mem_singleton_self (Frame.named "job"))
    rfl (by decide) failed with placed | ⟨_, _, path, error, _, _, impossible⟩
  · exact placed
  · cases impossible

/-- Whether a file is there that lies below another file cannot be found out,
and nothing tells where the document asks for it. -/
theorem resolve_failure_unplaced :
    (perform silentSurroundings
        ((loopingSources.resolve (Trail.root.descend ".gitlab-ci.yml")
          (.mapping [("include", .text ".gitlab-ci.yml/x.yml")])).run [])
        { files := { root := .folder [("work", .folder [(".gitlab-ci.yml",
          .file "include: .gitlab-ci.yml/x.yml\n".toUTF8)])] } }).1 =
      .error (.io "Not a directory (os error 20)") :=
  rfl

end IncludeSources

end CiPipeline
