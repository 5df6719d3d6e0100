import CiPipeline.Proofs.Include.Traversal

/-!
# Resolving what is at hand

When every file is there that is included at or below a document, and nothing is
fetched anew, resolving the document is idle: it changes no file, runs no
command and requests no address, and what the surroundings would answer decides
nothing.  The files need not hold documents that load.
-/

namespace CiPipeline

open CiPipeline.Action CiPipeline.Sequencing

namespace Resolution

variable {Given Result : Type} {workspace : Workspace} {holds : Result → Prop}

/-- An action that leaves the workspace as it is with one outcome in all
surroundings, whatever is filled already.  When it succeeds, its result
satisfies a condition. -/
def Idle (workspace : Workspace) (action : Resolution Result)
    (holds : Result → Prop) : Prop :=
  ∀ filled, ∃ outcome,
    (∀ surroundings, perform surroundings (action.run filled) workspace =
      (outcome, workspace)) ∧
      ∀ result after, outcome = .ok (result, after) → holds result

private theorem idle_pure {result : Result} (satisfied : holds result) :
    Idle workspace (pure result) holds := by
  intro filled
  refine ⟨.ok (result, filled), fun _ => rfl, ?_⟩
  rintro _ _ ⟨⟩
  exact satisfied

private theorem idle_throw (failure : Failure) :
    Idle workspace (throw failure : Resolution Result) holds := by
  intro filled
  refine ⟨.error failure, fun _ => rfl, ?_⟩
  rintro _ _ ⟨⟩

private theorem idle_ofExcept (reading : Except Failure Result) :
    Idle workspace (MonadExcept.ofExcept reading) fun result =>
      reading = .ok result := by
  cases reading with
  | error failure => exact idle_throw failure
  | ok result => exact idle_pure rfl

private theorem idle_lift {action : Action Result}
    {outcome : Except Failure Result}
    (performs : ∀ surroundings,
      perform surroundings action workspace = (outcome, workspace)) :
    Idle workspace (liftM action) fun result => outcome = .ok result := by
  intro filled
  have run (surroundings : Surroundings) :
      perform surroundings
        ((liftM action : Resolution Result).run filled) workspace =
        (outcome.map fun result => (result, filled), workspace) := by
    show perform surroundings (action >>= fun result => pure (result, filled))
      workspace = _
    rw [perform_bind, performs]
    cases outcome <;> rfl
  refine ⟨_, run, ?_⟩
  intro result after success
  cases outcome with
  | error failure => cases success
  | ok value =>
      cases success
      rfl

theorem Idle.bind {action : Resolution Given} {next : Given → Resolution Result}
    {between : Given → Prop} (first : Idle workspace action between)
    (second : ∀ given, between given → Idle workspace (next given) holds) :
    Idle workspace (action >>= next) holds := by
  intro filled
  obtain ⟨outcome, performs, satisfied⟩ := first filled
  cases outcome with
  | error failure =>
      refine ⟨.error failure, ?_, by rintro _ _ ⟨⟩⟩
      intro surroundings
      rw [StateT.run_bind, perform_bind, performs]
  | ok value =>
      obtain ⟨given, after⟩ := value
      obtain ⟨final, performsNext, satisfiedNext⟩ :=
        second given (satisfied given after rfl) after
      refine ⟨final, ?_, satisfiedNext⟩
      intro surroundings
      rw [StateT.run_bind, perform_bind, performs]
      exact performsNext surroundings

private theorem idle_mapM {values : List Given}
    {step : Given → Resolution Result}
    (each : ∀ value ∈ values, Idle workspace (step value) fun _ => True) :
    Idle workspace (values.mapM step) fun _ => True := by
  induction values with
  | nil => exact idle_pure trivial
  | cons value rest induction =>
      rw [List.mapM_cons]
      apply (each value (by simp)).bind
      intro first _
      apply (induction fun other member => each other (by simp [member])).bind
      intro others _
      exact idle_pure trivial

end Resolution

/-- What loading the document at a path comes to when the path is there. -/
theorem Document.perform_load_of_has {workspace : Workspace} {path : String}
    (there : workspace.files.has path = .ok true) :
    ∃ outcome : Except Failure Node,
      (∀ surroundings,
        perform surroundings (Document.load path) workspace =
          (outcome, workspace)) ∧
      ∀ document, outcome = .ok document →
        ∃ text, workspace.files.text path = .ok text ∧
          Document.read text = .ok document := by
  have unfolded (surroundings : Surroundings) :
      perform surroundings (Document.load path) workspace =
        perform surroundings (do
          MonadExcept.ofExcept (Document.read (← Action.look (·.text path))))
              workspace := by
    rw [Document.load, perform_bind, perform_look, there]
    rfl
  cases text : workspace.files.text path with
  | error error =>
      refine ⟨.error (.io error.message), ?_, by rintro _ ⟨⟩⟩
      intro surroundings
      rw [unfolded, perform_bind, perform_look, text]
  | ok content =>
      refine ⟨Document.read content, ?_, fun document read =>
        ⟨content, rfl, read⟩⟩
      intro surroundings
      rw [unfolded, perform_bind, perform_look, text]
      dsimp only
      cases Document.read content <;> rfl

namespace IncludeSources

open CiPipeline.Resolution

variable {sources : IncludeSources} {workspace : Workspace}

/-- Every file is there that is included at or below a document. -/
def Present (sources : IncludeSources) (files : Files)
    (site : IncludeSite) : Prop :=
  ∀ reached, Relation.ReflTransGen (sources.Includes files) site reached →
    ∀ file ∈ sources.filesOf reached, files.has file.path = .ok true

private theorem Present.includes {files : Files} {outer inner : IncludeSite}
    (present : sources.Present files outer)
    (included : sources.Includes files outer inner) :
    sources.Present files inner := by
  intro reached path
  exact present reached (.head included path)

/-- Every file is there when some files include none but each other, and all of
them are there. -/
theorem Present.of_closed {files : Files} (stock : List IncludedFile)
    (there : ∀ file ∈ stock, files.has file.path = .ok true)
    (closed : ∀ file ∈ stock, ∀ inner, file.load? files = some inner →
      ∀ next ∈ sources.filesOf inner, next ∈ stock)
    {site : IncludeSite} (start : ∀ file ∈ sources.filesOf site, file ∈ stock) :
    sources.Present files site := by
  intro reached path
  have inside : ∀ file ∈ sources.filesOf reached, file ∈ stock := by
    induction path with
    | refl => exact start
    | tail _ included listed =>
        obtain ⟨file, asked, loaded⟩ := included
        exact closed file (listed file asked) _ loaded
  intro file asked
  exact there file (inside file asked)

/-- A resolver that is idle on what is included in the document of a file, if
that loads. -/
def Resolver.IdleAt (workspace : Workspace) (resolver : Resolver)
    (file : IncludedFile) : Prop :=
  ∀ site directives, file.load? workspace.files = some site →
    site.directives = .ok directives →
    ∀ trail, Idle workspace
      (resolver trail site.document
        (directives.map (Include.inProject file.project))) fun _ => True

private theorem documentsAt_idle {resolver : Resolver} {path : String}
    {project : Option (String × String)} (trail : Trail)
    (there : workspace.files.has path = .ok true)
    (idle : resolver.IdleAt workspace ⟨path, project⟩) :
    Idle workspace (documentsAt resolver trail path (Include.inProject project))
      fun _ => True := by
  obtain ⟨outcome, loads, loaded⟩ := Document.perform_load_of_has there
  have within (surroundings : Surroundings) :
      perform surroundings (Action.within trail (Document.load path))
        workspace = (outcome.mapError trail.wrap, workspace) := by
    rw [Action.within, perform_tryCatch, loads]
    cases outcome <;> rfl
  apply (idle_lift within).bind
  intro document success
  apply (idle_ofExcept (Include.read trail (document.get? "include"))).bind
  intro directives declared
  have read : outcome = .ok document := by
    cases outcome with
    | error failure => cases success
    | ok other =>
        cases success
        rfl
  obtain ⟨text, found, reads⟩ := loaded document read
  have inRoot : (IncludeSite.mk document project).directives = .ok directives :=
    Include.read_trail declared
  exact idle ⟨document, project⟩ directives
    (IncludedFile.load?_of_text found reads inRoot) inRoot trail

private theorem documentsOfProject_idle {resolver : Resolver}
    {name ref file : String} (trail : Trail)
    (there : workspace.files.has (sources.projectFile name ref file) = .ok true)
    (idle : resolver.IdleAt workspace
      ⟨sources.projectFile name ref file, some (name, ref)⟩) :
    Idle workspace (documentsOfProject sources resolver trail name ref file)
        fun _ => True := by
  have present (surroundings : Surroundings) :
      perform surroundings
          (Action.look (·.has (sources.projectFile name ref file))) workspace =
        (.ok true, workspace) := by
    rw [perform_look, there]
  have documents := documentsAt_idle trail there idle
  apply (idle_lift present).bind
  rintro _ ⟨⟩
  rw [if_pos rfl]
  exact documents

/-- Listing the documents of a directive is idle when the files that it names
are there. -/
theorem documentsOf_idle {resolver : Resolver} (trail : Trail)
    (directive : Include)
    (each : ∀ file ∈ sources.filesNamed none directive, workspace.files.has
      file.path = .ok true ∧ resolver.IdleAt workspace file) :
    Idle workspace (documentsOf sources resolver trail directive)
        fun _ => True := by
  cases directive with
  | localFile path =>
      simp only [filesNamed, List.mem_singleton, forall_eq] at each
      have idle :=
        documentsAt_idle (Include.trailOf (.localFile path) trail) each.1 each.2
      exact idle
  | template name =>
      simp only [filesNamed, List.mem_singleton, forall_eq] at each
      have idle :=
        documentsAt_idle (Include.trailOf (.template name) trail) each.1 each.2
      exact idle
  | remote address =>
      simp only [filesNamed, List.mem_singleton, forall_eq] at each
      have idle :=
        documentsAt_idle (Include.trailOf (.remote address) trail) each.1 each.2
      exact idle
  | projectFiles name ref names =>
      simp only [filesNamed, List.forall_mem_map] at each
      have files : Idle workspace
          (names.mapM (sources.documentsOfProject resolver
            (Include.trailOf (.projectFiles name ref names) trail) name
            (sources.refOf ref)))
          fun _ => True := by
        apply idle_mapM
        intro file member
        obtain ⟨there, idle⟩ := each file member
        exact documentsOfProject_idle _ there idle
      have joined (documents : List (List Node)) (_ : True) :
          Idle workspace (pure documents.flatten) fun _ => True :=
            idle_pure trivial
      have whole := files.bind joined
      exact whole

private theorem prepare_idle (kept : sources.cache.refetches = false)
    (trail : Trail) {directives : List Include}
    (there : ∀ directive ∈ directives,
      ∀ file ∈ sources.filesNamed none directive,
      workspace.files.has file.path = .ok true) :
    Idle workspace
      (do
        let filled ← get
        set (← sources.prepare trail filled
          (Target.ofIncludes sources.repository.remote.defaultBranch
            directives)))
      fun _ => True := by
  intro filled
  have met :
      ∀ target ∈ Target.ofIncludes sources.repository.remote.defaultBranch
          directives,
        target.Met sources (workspace.files.has · = .ok true) :=
    Target.ofIncludes_met there
  refine ⟨.ok ((), filled ++
    (Target.ofIncludes sources.repository.remote.defaultBranch
      directives).filterMap Target.filled?), ?_, by simp⟩
  intro surroundings
  rw [StateT.run_bind, perform_bind, StateT.run_get, perform_pure]
  dsimp only
  rw [StateT.run_bind, perform_bind,
    perform_lift filled (perform_prepare surroundings kept trail filled met)]
  rfl

/-- The induction is on the length that chains of includes may still have.
At every document the files below it are there, so that nothing is brought
to its place. -/
theorem resolveWithin_idle (kept : sources.cache.refetches = false)
    (length : Nat) {site : IncludeSite} {directives : List Include}
    (trail : Trail) (present : sources.Present workspace.files site)
    (declared : site.directives = .ok directives) :
    Idle workspace
      (sources.resolveWithin length trail site.document
        (directives.map (Include.inProject site.project)))
      fun _ => True := by
  induction length generalizing site directives trail with
  | zero => exact idle_throw _
  | succ length induction =>
      have each : ∀ directive ∈ directives.map (Include.inProject site.project),
          ∀ file ∈ sources.filesNamed none directive,
            file ∈ sources.filesOf site := by
        intro inDocument member file asked
        obtain ⟨directive, isDeclared, rfl⟩ := List.mem_map.mp member
        rw [filesNamed_inProject] at asked
        rw [filesOf_of_declared sources declared]
        exact List.mem_flatMap.mpr ⟨directive, isDeclared, asked⟩
      have there : ∀ file ∈ sources.filesOf site,
          workspace.files.has file.path = .ok true :=
        present site .refl
      have prepared := prepare_idle kept trail
        fun directive member file asked =>
          there file (each directive member file asked)
      have listed : Idle workspace
          ((directives.map (Include.inProject site.project)).mapM
            (sources.documentsOf (sources.resolveWithin length) trail))
          fun _ => True := by
        apply idle_mapM
        intro directive member
        apply documentsOf_idle
        intro file asked
        have ofSite := each directive member file asked
        refine ⟨there file ofSite, ?_⟩
        intro inner innerDirectives loaded innerDeclared innerTrail
        have below := present.includes ⟨file, ofSite, loaded⟩
        rw [← (IncludedFile.load?_eq_some loaded).1]
        exact induction innerTrail below innerDeclared
      have joined (included : List (List Node)) (_ : True) :
          Idle workspace (pure (included.flatten ++ [site.document]))
            fun _ => True :=
        idle_pure trivial
      have whole := prepared.bind fun _ _ => listed.bind joined
      simp only [bind_assoc] at whole
      exact whole

/-- Resolving a document with everything at hand that is included at or below it
leaves the files as they are, runs no command and requests nothing, whether it
succeeds or fails; and there is one outcome, whatever commands and requests
would come to. -/
theorem resolve_idle (kept : sources.cache.refetches = false) {document : Node}
    (present : sources.Present workspace.files ⟨document, none⟩) (trail : Trail)
    (filled : Filled) :
    ∃ outcome, ∀ surroundings,
      perform surroundings ((sources.resolve trail document).run filled)
        workspace = (outcome, workspace) := by
  have idle :
      Idle workspace (sources.resolve trail document) fun _ => True := by
    apply (idle_ofExcept (Include.read trail (document.get? "include"))).bind
    intro directives declared
    have resolves := resolveWithin_idle kept longestChain trail present
      (Include.read_trail declared)
    have inNoProject : directives.map (Include.inProject none) = directives :=
      List.map_id directives
    rw [inNoProject] at resolves
    exact resolves
  obtain ⟨outcome, performs, _⟩ := idle filled
  exact ⟨outcome, performs⟩

/-! ## A stock with a file that is no text -/

/-- A checkout with an empty remote file in the cache, and with a file
that is no text. -/
def stockedCheckout : Files where
  root := .folder [("work", .folder [("a.yml", .file ⟨#[255]⟩),
    (".gitlab-ci-local", .folder [("includes", .folder [
      ("e.com", .folder [("r.yml", .file .empty)])])])])]

/-- The files of that checkout that are included. -/
def stock : List IncludedFile :=
  [⟨"/work/.gitlab-ci-local/includes/e.com/r.yml", none⟩, ⟨"/work/a.yml", none⟩]

/-- A document that includes them. -/
def stockedDocument : Node :=
  .mapping [("include", .sequence [.text "https://e.com/r.yml", .text "a.yml"])]

private theorem has_stock :
    ∀ file ∈ stock, stockedCheckout.has file.path = .ok true := by
  have there : ∀ file ∈ stock,
    (stockedCheckout.has file.path).toOption = some true := by decide
  intro file listed
  exact eq_ok_of_toOption (there file listed)

private theorem stock_closed :
    ∀ file ∈ stock, ∀ inner, file.load? stockedCheckout = some inner →
      ∀ next ∈ loopingSources.filesOf inner, next ∈ stock := by
  have empty : ∀ file ∈ stock, file.project = none ∧
      (stockedCheckout.text file.path).toOption.all (· == "") = true := by
    decide
  intro file listed inner loaded next included
  obtain ⟨document, project⟩ := inner
  obtain ⟨same, _, text, hasText, read⟩ := IncludedFile.load?_eq_some loaded
  obtain ⟨noProject, isEmpty⟩ := empty file listed
  rw [hasText] at isEmpty
  obtain rfl : text = "" := by simpa [Except.toOption] using isEmpty
  cases read_empty.symm.trans read
  cases same.trans noProject
  cases included

/-- The remote file is read before the file that is no text fails to load. -/
theorem resolve_idle_stocked :
    loopingSources.Present stockedCheckout ⟨stockedDocument, none⟩ ∧
      ∃ failure, ∀ surroundings,
        perform surroundings
          ((loopingSources.resolve Trail.root stockedDocument).run [])
            { files := stockedCheckout } =
          (.error failure, { files := stockedCheckout }) := by
  have start : ∀ file ∈ loopingSources.filesOf ⟨stockedDocument, none⟩,
      file ∈ stock := by
    decide
  have present :
      loopingSources.Present stockedCheckout ⟨stockedDocument, none⟩ :=
    .of_closed stock has_stock stock_closed start
  refine ⟨present, ?_⟩
  have inWorkspace :
      loopingSources.Present (Workspace.files { files := stockedCheckout })
      ⟨stockedDocument, none⟩ := present
  obtain ⟨outcome, performs⟩ := resolve_idle rfl inWorkspace Trail.root []
  have fails : (perform silentSurroundings
      ((loopingSources.resolve Trail.root stockedDocument).run [])
      { files := stockedCheckout }).1.isOk = false := by
    rfl
  rw [performs] at fails
  cases outcome with
  | error failure => exact ⟨failure, performs⟩
  | ok result => cases fails

end IncludeSources

end CiPipeline
