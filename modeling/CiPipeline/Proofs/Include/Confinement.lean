import CiPipeline.Proofs.Download
import CiPipeline.Proofs.Files.Confinement
import CiPipeline.Proofs.Include.Preparation

/-!
# Confined preparation of includes

What directives name is admitted when it leads straight into the storage and
past no link.  Bringing admitted targets to their places changes nothing
beside the storage.
-/

namespace CiPipeline

open CiPipeline.Action CiPipeline.FileTree

namespace Confinement

variable {world : Confinement} {Given Result : Type}

/-! ## The cache -/

section

variable {path : String}

private theorem confines_createParent (aligned : world.Aligned path) :
    world.Confines (IncludeCache.createParent path) fun _ => True := by
  unfold IncludeCache.createParent Path.parent?
  rw [aligned.steps_eq]
  cases names : (Path.parts path).reverse with
  | nil => exact confines_pure trivial
  | cons last above =>
      have spelled : Path.parts path = above.reverse ++ [last] := by
        rw [← List.reverse_cons, ← names, List.reverse_reverse]
      exact confines_createFolders (aligned.ofSteps spelled).1

private theorem confines_store (within : world.Within path)
    (unlinked : ¬ world.mayLink (world.place path)) {content : ByteArray}
    (permitted : world.mayHold content) :
    world.Confines (IncludeCache.store path content) fun _ => True := by
  refine (confines_createParent within.aligned).bind ?_
  intro _ _
  exact confines_write within unlinked permitted

private theorem confines_unlinkStale (within : world.Within path) :
    world.Confines (IncludeCache.unlinkStale path) fun _ => True := by
  refine confines_get.bind ?_
  intro files _
  split
  · exact confines_remove within
  · exact confines_pure trivial

private theorem confines_clear (within : world.Within path) :
    world.Confines (IncludeCache.clear path) fun _ => True := by
  refine confines_get.bind ?_
  intro files _
  refine (confines_ofExcept _).bind ?_
  intro present _
  split
  · exact confines_removeTree within
  · exact confines_pure trivial

end

/-! ## Actions -/

/-- An action whose runs are confined. -/
def ConfinesAction (world : Confinement) (surroundings : Surroundings)
    (action : Action Result) (holds : Result → Prop) : Prop :=
  world.Confined Workspace.files (perform surroundings action) holds

section

variable {surroundings : Surroundings} {holds : Result → Prop}
  {between : Given → Prop}

theorem confinesAction_pure {result : Result} (satisfied : holds result) :
    world.ConfinesAction surroundings (pure result) holds := by
  refine confined_idle ?_
  rintro _ ⟨rfl⟩
  exact satisfied

theorem confinesAction_throw {failure : Failure} :
    world.ConfinesAction surroundings (throw failure : Action Result) holds :=
  confined_idle (by rintro _ ⟨⟩)

theorem confinesAction_ofExcept {reading : Except Failure Result} :
    world.ConfinesAction surroundings (MonadExcept.ofExcept reading)
      fun result => reading = .ok result := by
  cases reading with
  | error failure => exact confinesAction_throw
  | ok result => exact confinesAction_pure rfl

theorem ConfinesAction.bind {action : Action Given}
    {next : Given → Action Result}
    (first : world.ConfinesAction surroundings action between)
    (second : ∀ given,
      between given → world.ConfinesAction surroundings (next given) holds) :
    world.ConfinesAction surroundings (action >>= next) holds := by
  refine Confined.bind first second ?_
  intro workspace
  rw [perform_bind]
  rcases perform surroundings action workspace with
    ⟨failure | given, after⟩ <;> rfl

theorem ConfinesAction.tryCatch {action : Action Result}
    {handler : Failure → Action Result}
    (first : world.ConfinesAction surroundings action holds)
    (second : ∀ failure, world.ConfinesAction surroundings
      (handler failure) holds) :
    world.ConfinesAction surroundings (tryCatch action handler) holds := by
  refine Confined.tryCatch first second ?_
  intro workspace
  rw [perform_tryCatch]
  rcases perform surroundings action workspace with
    ⟨failure | result, after⟩ <;> rfl

private theorem confinesAction_get :
    world.ConfinesAction surroundings get fun workspace =>
      world.Admits workspace.files := by
  intro workspace admits
  refine ⟨.refl admits, ?_⟩
  rintro _ ⟨rfl⟩
  exact admits

theorem confinesAction_look (reading : Files → Except IoError Result) :
    world.ConfinesAction surroundings (look reading)
      fun result => ∃ files,
        world.Admits files ∧ reading files = .ok result := by
  refine confinesAction_get.bind ?_
  intro workspace admits
  cases read : reading workspace.files with
  | error error => exact confinesAction_throw
  | ok result => exact confinesAction_pure ⟨workspace.files, admits, read⟩

private theorem confinesAction_change {action : FileAction Unit}
    (confines : world.Confines action fun _ => True) :
    world.ConfinesAction surroundings (change action) fun _ => True := by
  intro workspace admits
  rw [perform_change]
  exact ⟨(confines workspace.files admits).1, fun _ _ => trivial⟩

private theorem confinesAction_execute {command : Command}
    (keeps : ∀ before, world.Admits before →
      world.Keeps before (surroundings.run command before).2) :
    world.ConfinesAction surroundings (execute command) fun _ => True := by
  intro workspace admits
  rw [perform_execute]
  exact ⟨keeps workspace.files admits, fun _ _ => trivial⟩

private theorem confinesAction_request (address : Url) :
    world.ConfinesAction surroundings (request address)
      fun outcome => ∃ count, surroundings.request address count = outcome := by
  intro workspace admits
  rw [perform_request]
  refine ⟨.refl admits, ?_⟩
  rintro _ ⟨rfl⟩
  exact ⟨_, rfl⟩

end

/-! ## What includes name -/

variable (world) in
/-- A project whose folder lies straight in the storage, and may be a link if
the project has a checkout. -/
structure AdmitsProject (sources : IncludeSources)
    (project ref : String) : Prop where
  within : world.Within (sources.refFolder project ref)
  linked : ∀ checkout, sources.checkouts.folder? project = some checkout →
    world.mayLink (world.place (sources.refFolder project ref))

variable (world) in
/-- A remote file whose place lies straight in the storage and is no link. -/
structure AdmitsRemote (sources : IncludeSources)
    (address : String) : Prop where
  within : world.Within (sources.remotePath address)
  unlinked : ¬ world.mayLink (world.place (sources.remotePath address))

section

variable {sources : IncludeSources}

theorem descends_storage : Path.Descends IncludeCache.storage := by
  constructor <;> decide

private theorem descends_includes : Path.Descends "includes" := by
  constructor <;> decide

theorem place_refFolder {project ref : String}
    (host : Path.Descends sources.repository.remote.host)
    (name : Path.Descends project) (version : Path.Descends ref) :
    world.place (sources.refFolder project ref) =
      world.place (Path.join sources.cache.checkout IncludeCache.storage) ++
        (Path.parts "includes" ++ Path.parts sources.repository.remote.host ++
          Path.parts project ++ Path.parts ref) := by
  simp only [IncludeSources.refFolder, IncludeCache.refFolder,
    IncludeCache.projectFolder, IncludeCache.root, place_join _
      version.relative, place_join _ name.relative, place_join _ host.relative,
    place_join _ descends_includes.relative, List.append_assoc]

theorem place_remotePath {address : String}
    (descends : Path.Descends (IncludeUrl.cachePath address)) :
    world.place (sources.remotePath address) =
      world.place (Path.join sources.cache.checkout IncludeCache.storage) ++
        (Path.parts "includes" ++
          Path.parts (IncludeUrl.cachePath address)) := by
  simp only [IncludeSources.remotePath, IncludeCache.remotePath,
    IncludeCache.root, place_join _ descends.relative,
    place_join _ descends_includes.relative, List.append_assoc]

/-- The folder of a project lies straight in the storage when its host,
its name and its ref are relative paths that lead down, and no link may
stand above it. -/
theorem within_refFolder {project ref : String}
    (storage : world.storage =
      world.place (Path.join sources.cache.checkout IncludeCache.storage))
    (checkout : ∀ name ∈ Path.parts sources.cache.checkout,
      name ≠ "." ∧ name ≠ "..")
    (host : Path.Descends sources.repository.remote.host)
    (name : Path.Descends project)
    (version : Path.Descends ref) (present : ref ≠ "")
    (bare : Path.endsWithSlash ref = false)
    (unlinked : ∀ above, above <+: world.place (sources.refFolder project ref) →
      above ≠ world.place (sources.refFolder project ref) →
      ¬ world.mayLink above) :
    world.Within (sources.refFolder project ref) := by
  refine ⟨⟨?_, unlinked⟩, ?_, ?_⟩
  · have root := Path.down_join (Path.down_join checkout descends_storage)
      descends_includes
    exact Path.down_join
      (Path.down_join (Path.down_join root host) name) version
  · exact (Path.endsWithSlash_join _ present).trans bare
  · rw [storage, place_refFolder host name version]
    exact List.prefix_append _ _

/-- A remote file lies straight in the storage when its address without the
scheme is a relative path that leads down, and no link may stand above it. -/
theorem within_remotePath {address : String}
    (storage : world.storage =
      world.place (Path.join sources.cache.checkout IncludeCache.storage))
    (checkout : ∀ name ∈ Path.parts sources.cache.checkout,
      name ≠ "." ∧ name ≠ "..")
    (descends : Path.Descends (IncludeUrl.cachePath address))
    (present : IncludeUrl.cachePath address ≠ "")
    (bare : Path.endsWithSlash (IncludeUrl.cachePath address) = false)
    (unlinked : ∀ above, above <+: world.place (sources.remotePath address) →
      above ≠ world.place (sources.remotePath address) →
      ¬ world.mayLink above) :
    world.Within (sources.remotePath address) := by
  refine ⟨⟨?_, unlinked⟩, ?_, ?_⟩
  · have root := Path.down_join (Path.down_join checkout descends_storage)
      descends_includes
    exact Path.down_join root descends
  · exact (Path.endsWithSlash_join _ present).trans bare
  · rw [storage, place_remotePath descends]
    exact List.prefix_append _ _

end

variable (world) in
/-- A directive that names nothing beside the storage but files of the checkout,
which are only read. -/
def AdmitsInclude (sources : IncludeSources) : Include → Prop
  | .localFile _ => True
  | .projectFiles project ref _ =>
      world.AdmitsProject sources project (sources.refOf ref)
  | .template name => world.AdmitsRemote sources (IncludeUrl.ofTemplate name)
  | .remote address => world.AdmitsRemote sources address

variable (world) in
/-- A document all of whose directives are admitted. -/
def AdmitsDocument (sources : IncludeSources) (document : Node) : Prop :=
  ∀ trail directives,
    Include.read trail (document.get? "include") = .ok directives →
    ∀ directive ∈ directives, world.AdmitsInclude sources directive

variable (world) in
/-- A target that is brought to a place in the storage. -/
def AdmitsTarget (sources : IncludeSources) : Target → Prop
  | .localFile _ => True
  | .project project ref _ => world.AdmitsProject sources project ref
  | .remote address => world.AdmitsRemote sources address

variable (world) in
/-- A task whose changes are to be made in the storage. -/
def AdmitsTask (sources : IncludeSources) : Task → Prop
  | .nothing => True
  | .download _ declared => world.AdmitsRemote sources declared
  | .link project ref _ =>
      world.AdmitsProject sources project ref ∧
        world.mayLink (world.place (sources.refFolder project ref))
  | .extract _ project ref _ => world.AdmitsProject sources project ref

/-- The command that extracts files of a project. -/
def archiveCommand (sources : IncludeSources) (project ref : String)
    (files : List String) : Command where
  folder := sources.cache.checkout
  program := "sh"
  arguments := ["-c", sources.archiveScript project ref files]

variable (world) in
/-- Documents, commands and answers that keep to a confinement. -/
structure Respected (sources : IncludeSources)
    (surroundings : Surroundings) : Prop where
  documents : ∀ content text document, world.mayHold content →
    String.fromUTF8? content = some text → Document.read text = .ok document →
    world.AdmitsDocument sources document
  answers : ∀ address count status body,
    surroundings.request address count = .answered status (some body) →
      world.mayHold body
  archives : ∀ project ref files, world.AdmitsProject sources project ref →
    ∀ before, world.Admits before →
      world.Keeps before
        (surroundings.run (archiveCommand sources project ref files) before).2

variable {sources : IncludeSources} {surroundings : Surroundings}

/-- The targets of admitted directives are admitted. -/
theorem admitsTarget_of_mem {directives : List Include}
    (admitted : ∀ directive ∈ directives, world.AdmitsInclude sources
      directive) :
    ∀ target ∈ Target.ofIncludes sources.repository.remote.defaultBranch
        directives,
      world.AdmitsTarget sources target := by
  refine Target.ofIncludes_forall ?_ ?_ ?_ ?_
  · intro path _
    trivial
  · intro name ref files declared _ _
    exact admitted _ declared
  · intro name declared
    exact admitted _ declared
  · intro address declared
    exact admitted _ declared

/-! ## Plans -/

private theorem confinesAction_allExist (paths : List String) :
    world.ConfinesAction surroundings (IncludeCache.allExist paths)
      fun _ => True := by
  induction paths with
  | nil => exact confinesAction_pure trivial
  | cons path rest induction =>
      refine (confinesAction_look _).bind ?_
      intro present _
      split
      · exact induction
      · exact confinesAction_pure trivial

private theorem confinesAction_isFresh (cache : IncludeCache)
    (paths : List String) :
    world.ConfinesAction surroundings (cache.isFresh paths) fun _ => True := by
  unfold IncludeCache.isFresh
  split
  · exact confinesAction_pure trivial
  · exact confinesAction_allExist paths

private theorem confinesAction_missingFiles (project ref : String)
    (files : List String) :
    world.ConfinesAction surroundings (sources.missingFiles project ref files)
      fun _ => True := by
  induction files with
  | nil => exact confinesAction_pure trivial
  | cons file rest induction =>
      refine (confinesAction_look _).bind ?_
      intro present _
      refine induction.bind ?_
      intro missing _
      exact confinesAction_pure trivial

private theorem confinesAction_planRemote {address : String}
    (admitted : world.AdmitsRemote sources address) :
    world.ConfinesAction surroundings (sources.planRemote address)
      (world.AdmitsTask sources) := by
  refine (confinesAction_isFresh _ _).bind ?_
  intro fresh _
  split
  · exact confinesAction_pure trivial
  · split
    · exact confinesAction_throw
    · split
      · exact confinesAction_throw
      · exact confinesAction_pure admitted

private theorem confinesAction_planProject {project ref : String}
    (admitted : world.AdmitsProject sources project ref) (filled : Filled)
    (files : List String) :
    world.ConfinesAction surroundings (sources.planProject filled project ref
      files) (world.AdmitsTask sources) := by
  unfold IncludeSources.planProject
  split
  · refine (confinesAction_missingFiles _ _ _).bind ?_
    intro missing _
    refine confinesAction_get.bind ?_
    intro workspace _
    split
    · exact confinesAction_pure trivial
    · exact confinesAction_pure admitted
  · refine (confinesAction_isFresh _ _).bind ?_
    intro fresh _
    split
    · exact confinesAction_pure trivial
    · split
      · rename_i checkout found
        exact confinesAction_pure ⟨admitted, admitted.linked checkout found⟩
      · exact confinesAction_pure admitted

private theorem confinesAction_plan {target : Target}
    (admitted : world.AdmitsTarget sources target) (trail : Trail)
    (filled : Filled) :
    world.ConfinesAction surroundings (sources.plan trail filled target)
      (world.AdmitsTask sources) := by
  cases target with
  | localFile declared =>
      refine (confinesAction_look _).bind ?_
      intro present _
      split
      · exact confinesAction_pure trivial
      · exact confinesAction_throw
  | project project ref files =>
      exact confinesAction_planProject admitted filled files
  | remote address => exact confinesAction_planRemote admitted

/-! ## Clearing and filling -/

private theorem confinesAction_clear {task : Task}
    (admitted : world.AdmitsTask sources task) :
    world.ConfinesAction surroundings (sources.clear task) fun _ => True := by
  cases task with
  | nothing => exact confinesAction_pure trivial
  | download address declared => exact confinesAction_pure trivial
  | link project ref checkout =>
      have within := admitted.1.within
      rw [IncludeSources.clear]
      refine confinesAction_change ((confines_unlinkStale within).bind ?_)
      intro _ _
      refine (confines_createParent within.aligned).bind ?_
      intro _ _
      exact confines_clear within
  | extract afresh project ref files =>
      cases afresh with
      | false => exact confinesAction_pure trivial
      | true =>
          rw [IncludeSources.clear]
          refine confinesAction_change
            ((confines_unlinkStale admitted.within).bind ?_)
          intro _ _
          exact confines_clear admitted.within

private theorem confinesAction_attempt
    (respected : world.Respected sources surroundings) (address : Url)
    (retries : Nat) :
    world.ConfinesAction surroundings (Download.attempt address retries)
      world.mayHold := by
  have settled {outcome : RequestOutcome}
      (answer : ∃ count, surroundings.request address count = outcome) :
      world.ConfinesAction surroundings (MonadExcept.ofExcept
        (Download.settle address outcome)) world.mayHold := by
    obtain ⟨count, answered⟩ := answer
    refine confinesAction_ofExcept.mono ?_
    intro content success
    cases Download.settles_iff.mpr success.symm with
    | arrived => exact respected.answers _ _ _ _ answered
  induction retries with
  | zero =>
      refine (confinesAction_request address).bind ?_
      intro outcome answer
      exact settled answer
  | succ retries induction =>
      refine (confinesAction_request address).bind ?_
      intro outcome answer
      split
      · exact induction
      · exact settled answer

private theorem confinesAction_extract
    (respected : world.Respected sources surroundings) {project ref : String}
    (admitted : world.AdmitsProject sources project ref) (files : List String) :
    world.ConfinesAction surroundings (sources.extract project ref files)
      fun _ => True := by
  refine (confinesAction_execute
    (respected.archives project ref files admitted)).bind ?_
  intro output _
  split
  · exact confinesAction_throw
  · exact confinesAction_pure trivial

private theorem confinesAction_fill
    (respected : world.Respected sources surroundings) {task : Task}
    (admitted : world.AdmitsTask sources task) :
    world.ConfinesAction surroundings (sources.fill task) fun _ => True := by
  cases task with
  | nothing => exact confinesAction_pure trivial
  | download address declared =>
      have attempted : world.ConfinesAction surroundings
          (tryCatch (Download.attempt address Download.mostRetries)
            fun failure =>
            throw (IncludeSources.declareFailure declared failure))
                world.mayHold :=
        (confinesAction_attempt respected address _).tryCatch fun _ =>
          confinesAction_throw
      refine attempted.bind ?_
      intro content permitted
      exact confinesAction_change
        (confines_store admitted.within admitted.unlinked permitted)
  | link project ref checkout =>
      exact confinesAction_change
        (confines_link admitted.1.within admitted.2 checkout)
  | extract afresh project ref files =>
      have extracted := confinesAction_extract respected admitted files
      cases afresh with
      | false => exact extracted
      | true =>
          refine (confinesAction_change
            (confines_createFolders admitted.within.aligned)).bind ?_
          intro _ _
          exact extracted

private theorem confinesAction_stage (trail : Trail)
    {run : Target → Given → Action Result} {pairs : List (Target × Given)}
    {holds : Result → Prop}
    (each : ∀ pair ∈ pairs, world.ConfinesAction surroundings
      (run pair.1 pair.2) holds) :
    world.ConfinesAction surroundings (IncludeSources.stage trail run pairs)
      fun results => ∀ pair ∈ results, holds pair.2 := by
  induction pairs with
  | nil => exact confinesAction_pure (by simp)
  | cons pair rest induction =>
      obtain ⟨target, given⟩ := pair
      have first : world.ConfinesAction surroundings
          (tryCatch (run target given) fun failure =>
            throw (target.blame trail failure)) holds :=
        (each (target, given) (by simp)).tryCatch fun _ => confinesAction_throw
      refine first.bind ?_
      intro result satisfied
      refine (induction fun other member =>
        each other (by simp [member])).bind ?_
      intro results others
      exact confinesAction_pure (List.forall_mem_cons.mpr ⟨satisfied, others⟩)

/-- Bringing admitted targets to their places is confined. -/
theorem confinesAction_prepare
    (respected : world.Respected sources surroundings) (trail : Trail)
    (filled : Filled) {targets : List Target}
    (admitted : ∀ target ∈ targets, world.AdmitsTarget sources target) :
    world.ConfinesAction surroundings (sources.prepare trail filled targets)
      fun _ => True := by
  have planned : world.ConfinesAction surroundings
      (IncludeSources.stage trail (fun target () => sources.plan trail filled
        target) (targets.map fun target => (target, ())))
      fun plans => ∀ pair ∈ plans, world.AdmitsTask sources pair.2 := by
    refine confinesAction_stage trail ?_
    intro pair member
    obtain ⟨target, asked, rfl⟩ := List.mem_map.mp member
    exact confinesAction_plan (admitted target asked) trail filled
  refine planned.bind ?_
  intro plans tasks
  refine (confinesAction_stage trail fun pair member =>
    confinesAction_clear (tasks pair member)).bind ?_
  intro _ _
  refine (confinesAction_stage trail fun pair member =>
    confinesAction_fill respected (tasks pair member)).bind ?_
  intro _ _
  exact confinesAction_pure trivial

end Confinement

end CiPipeline
