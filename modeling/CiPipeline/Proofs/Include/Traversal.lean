import CiPipeline.Proofs.Include.Directive
import CiPipeline.Proofs.Include.Preparation
import CiPipeline.Proofs.Include.Settling

/-!
# Resolving a graph of includes

When every included file is there, resolving a document changes nothing but the
record of projects that are filled.  It lists the graph of includes in
post-order, unless a chain of includes is too long.
-/

namespace CiPipeline

open CiPipeline.Action CiPipeline.Sequencing

namespace IncludeSources

open CiPipeline.Resolution

variable {sources : IncludeSources} {surroundings : Surroundings}
  {workspace : Workspace}

theorem filesNamed_inProject (project : Option (String × String))
    (directive : Include) :
    sources.filesNamed none (directive.inProject project) =
      sources.filesNamed project directive := by
  cases project with
  | none => cases directive <;> rfl
  | some origin =>
      obtain ⟨name, ref⟩ := origin
      cases directive with
      | localFile path =>
          simp [Include.inProject, Include.within, filesNamed, refOf,
            projectFile,
            IncludeCache.projectFile, Include.dropSlashes_dropSlashes]
      | _ => rfl

private theorem collect_filesNamed (list : IncludedFile → Option (List Node))
    (project : Option (String × String)) (directives : List Include) :
    collect list (directives.flatMap (sources.filesNamed project)) =
      collect (fun directive =>
        collect list (sources.filesNamed none directive))
        (directives.map (Include.inProject project)) := by
  rw [collect_flatMap, collect_map]
  simp only [filesNamed_inProject]

/-! ## The resolver -/

/-- A resolver that settles on what is included in the document of a file. -/
def Resolver.SettlesAt (surroundings : Surroundings) (workspace : Workspace)
    (resolver : Resolver) (file : IncludedFile)
    (result : Option (List Node)) : Prop :=
  ∃ site directives, file.load? workspace.files = some site ∧
    site.directives = .ok directives ∧
    ∀ trail, Settles surroundings workspace
      (resolver trail site.document
        (directives.map (Include.inProject file.project))) result

private theorem documentsAt_settles {resolver : Resolver} {path : String}
    {project : Option (String × String)} {result : Option (List Node)}
    (trail : Trail)
    (settles : resolver.SettlesAt surroundings workspace
      ⟨path, project⟩ result) :
    Settles surroundings workspace
      (documentsAt resolver trail path (Include.inProject project)) result := by
  obtain ⟨site, directives, loaded, declared, resolves⟩ := settles
  obtain ⟨_, _, text, there, read⟩ := IncludedFile.load?_eq_some loaded
  have load : perform surroundings (Action.within trail (Document.load path))
      workspace = (.ok site.document, workspace) := by
    rw [Action.within, perform_tryCatch, Document.perform_load there read]
  have readDirectives :
      Include.read trail (site.document.get? "include") = .ok directives :=
    Include.read_trail declared
  have rest : ∀ document, some site.document = some document →
      Settles surroundings workspace
        (do
          let directives ← MonadExcept.ofExcept
            (Include.read trail (document.get? "include"))
          resolver trail document (directives.map (Include.inProject project)))
              result := by
    rintro document ⟨rfl⟩
    rw [readDirectives]
    exact resolves trail
  exact Settles.bind (settles_lift load) rest

private theorem documentsOfProject_settles {resolver : Resolver}
    {name ref file : String} {result : Option (List Node)} (trail : Trail)
    (settles : resolver.SettlesAt surroundings workspace
      ⟨sources.projectFile name ref file, some (name, ref)⟩ result) :
    Settles surroundings workspace
      (documentsOfProject sources resolver trail name ref file) result := by
  have present : perform surroundings
      (Action.look (·.has (sources.projectFile name ref file))) workspace =
        (.ok true, workspace) := by
    obtain ⟨site, directives, loaded, _, _⟩ := settles
    obtain ⟨_, _, text, there, _⟩ := IncludedFile.load?_eq_some loaded
    rw [perform_look, Files.has_of_text there]
  have rest : ∀ found, some true = some found →
      Settles surroundings workspace
        (if found then documentsAt resolver trail
          (sources.projectFile name ref file) (Include.within name ref)
          else throw (trail.wrap (.projectInclude name ref file))) result := by
    rintro found ⟨rfl⟩
    have settled := documentsAt_settles trail settles
    exact settled
  exact Settles.bind (settles_lift present) rest

/-- The documents of a directive are those of the files that it names. -/
theorem documentsOf_settles {resolver : Resolver}
    {list : IncludedFile → Option (List Node)} (trail : Trail)
    (directive : Include)
    (each : ∀ file ∈ sources.filesNamed none directive,
      resolver.SettlesAt surroundings workspace file (list file)) :
    Settles surroundings workspace (documentsOf sources resolver trail
        directive) (collect list (sources.filesNamed none directive)) := by
  cases directive with
  | localFile path =>
      simp only [filesNamed, List.mem_singleton, forall_eq] at each
      have settled :=
        documentsAt_settles (Include.trailOf (.localFile path) trail) each
      rw [filesNamed, collect_singleton]
      exact settled
  | template name =>
      simp only [filesNamed, List.mem_singleton, forall_eq] at each
      have settled :=
        documentsAt_settles (Include.trailOf (.template name) trail) each
      rw [filesNamed, collect_singleton]
      exact settled
  | remote address =>
      simp only [filesNamed, List.mem_singleton, forall_eq] at each
      have settled :=
        documentsAt_settles (Include.trailOf (.remote address) trail) each
      rw [filesNamed, collect_singleton]
      exact settled
  | projectFiles name ref names =>
      have files : ∀ file ∈ names, Settles surroundings workspace
          (documentsOfProject sources resolver
            (Include.trailOf (.projectFiles name ref names) trail) name
            (sources.refOf ref) file)
          (list ⟨sources.projectFile name (sources.refOf ref) file,
            some (name, sources.refOf ref)⟩) := by
        intro file member
        exact documentsOfProject_settles _ (each _ (List.mem_map_of_mem member))
      have settled := Settles.bind (settles_mapM files)
        (fun documents _ => settles_pure documents.flatten)
      rw [filesNamed, collect_map, collect, Option.map_eq_bind]
      exact settled

/-- Preparing the targets of directives settles when the files that these name
are there. -/
theorem settles_prepare (surroundings : Surroundings)
    (kept : sources.cache.refetches = false)
    (trail : Trail) {directives : List Include}
    (present : ∀ directive ∈ directives,
      ∀ file ∈ sources.filesNamed none directive,
      workspace.files.has file.path = .ok true) :
    Settles surroundings workspace
      (do
        let filled ← get
        set (← sources.prepare trail filled
          (Target.ofIncludes sources.repository.remote.defaultBranch
            directives)))
      (some ()) := by
  intro filled
  have idle := perform_prepare surroundings kept trail filled
    (Target.ofIncludes_met present)
  refine ⟨filled ++ (Target.ofIncludes sources.repository.remote.defaultBranch
    directives).filterMap Target.filled?, ?_⟩
  rw [StateT.run_bind, perform_bind, StateT.run_get, perform_pure]
  dsimp only
  rw [StateT.run_bind, perform_bind, perform_lift filled idle]
  rfl

/-- Resolving a complete graph of includes lists it to the depth
that is left. -/
theorem resolveWithin_settles (surroundings : Surroundings)
    (kept : sources.cache.refetches = false) (length : Nat)
    {site : IncludeSite} {directives : List Include} (trail : Trail)
    (complete : sources.Complete workspace.files site)
    (declared : site.directives = .ok directives) :
    Settles surroundings workspace
      (sources.resolveWithin length trail site.document
        (directives.map (Include.inProject site.project)))
      (documentsWithin sources workspace.files length site) := by
  induction length generalizing site directives trail with
  | zero => exact settles_throw _
  | succ length induction =>
      have named := filesOf_of_declared sources declared
      have ofDirective : ∀ directive ∈ directives,
          ∀ file ∈ sources.filesNamed none (directive.inProject site.project),
            file ∈ sources.filesOf site := by
        intro directive member file asked
        rw [filesNamed_inProject] at asked
        rw [named]
        exact List.mem_flatMap.mpr ⟨directive, member, asked⟩
      have each : ∀ directive ∈ directives.map (Include.inProject site.project),
          Settles surroundings workspace
            (documentsOf sources (sources.resolveWithin length) trail directive)
            (collect (fun file => (file.load? workspace.files).bind
              (documentsWithin sources workspace.files length))
              (sources.filesNamed none directive)) := by
        intro inDocument member
        obtain ⟨directive, isDeclared, rfl⟩ := List.mem_map.mp member
        refine documentsOf_settles trail _ ?_
        intro file asked
        have ofSite := ofDirective directive isDeclared file asked
        obtain ⟨inner, loaded⟩ := complete.load file ofSite
        obtain ⟨project, ⟨innerDirectives, innerDeclared⟩, _⟩ :=
          IncludedFile.load?_eq_some loaded
        refine ⟨inner, innerDirectives, loaded, innerDeclared, ?_⟩
        intro innerTrail
        have innerComplete := complete.includes ⟨file, ofSite, loaded⟩
        rw [loaded, Option.bind_some, ← project]
        exact induction innerTrail innerComplete innerDeclared
      -- Nothing has to be brought to its place, so that only the included
      -- documents are listed.
      have listed := Settles.bind (settles_mapM each)
        (fun included _ => settles_pure (included.flatten ++ [site.document]))
      have present :
          ∀ directive ∈ directives.map (Include.inProject site.project),
          ∀ file ∈ sources.filesNamed none directive,
            workspace.files.has file.path = .ok true := by
        intro inDocument member file asked
        obtain ⟨directive, isDeclared, rfl⟩ := List.mem_map.mp member
        obtain ⟨inner, loaded⟩ :=
          complete.load file (ofDirective directive isDeclared file asked)
        obtain ⟨_, _, text, there, _⟩ := IncludedFile.load?_eq_some loaded
        exact Files.has_of_text there
      have prepared := settles_prepare surroundings kept trail present
      have whole := Settles.bind prepared (fun _ _ => listed)
      simp only [bind_assoc, Option.bind_some] at whole
      rw [documentsWithin_succ, named, collect_filesNamed, collect,
        Option.map_map, Option.map_eq_bind]
      exact whole

/-- Resolving a document below which every included file is there ends, and
changes no file.  It succeeds exactly when no chain of nested includes is longer
than ninety-nine; the documents then come in the one post-order there is, and
the document itself is the last.  In particular it fails whenever a cycle of
includes can be reached. -/
theorem resolve_complete {trail : Trail} {document : Node}
    {directives : List Include} {filled : Filled}
    {outcome : Except Failure (List Node × Filled)} {after : Workspace}
    (kept : sources.cache.refetches = false)
    (wellFormed : Include.read trail (document.get? "include") = .ok directives)
    (complete : sources.Complete workspace.files ⟨document, none⟩)
    (run : perform surroundings ((sources.resolve trail document).run filled)
      workspace = (outcome, after)) :
    after = workspace ∧
      ((∃ result, outcome = .ok result) ↔
        ∀ length, Chain sources workspace.files length ⟨document, none⟩ →
          length ≤ 99) ∧
      (∀ documents nowFilled, outcome = .ok (documents, nowFilled) →
        ∃ included,
          PostOrder sources workspace.files
            (sources.filesOf ⟨document, none⟩) included ∧
          (∀ other, PostOrder sources workspace.files
            (sources.filesOf ⟨document, none⟩) other →
            other = included) ∧
          documents = included ++ [document]) ∧
      ∀ site, Relation.ReflTransGen (sources.Includes workspace.files)
        ⟨document, none⟩ site →
        Relation.TransGen (sources.Includes workspace.files) site site →
        ∃ failure, outcome = .error failure := by
  have declared : (IncludeSite.mk document none).directives = .ok directives :=
    Include.read_trail wellFormed
  have settled := resolveWithin_settles surroundings kept longestChain trail
    complete declared
  have resolving : sources.resolve trail document =
      sources.resolveWithin longestChain trail document
        (directives.map (Include.inProject none)) := by
    have same : directives.map (Include.inProject none) = directives :=
      List.map_id directives
    rw [resolve, wellFormed, same]
    rfl
  rw [resolving] at run
  cases listed : documentsWithin sources workspace.files longestChain
      ⟨document, none⟩ with
  | none =>
      rw [listed] at settled
      obtain ⟨failure, failed⟩ := settled filled
      cases run.symm.trans failed
      have chain :=
        (documentsWithin_eq_none_iff longestChain complete).mp listed
      refine ⟨rfl, ?_, by simp, fun _ _ _ => ⟨failure, rfl⟩⟩
      constructor
      · rintro ⟨result, success⟩
        cases success
      · intro bounded
        have impossible := bounded longestChain chain
        simp [longestChain] at impossible
  | some documents =>
      rw [listed] at settled
      obtain ⟨nowFilled, success⟩ := settled filled
      cases run.symm.trans success
      have bounded :
          ∀ length, Chain sources workspace.files length ⟨document, none⟩ →
          length ≤ 99 := fun _ chain =>
        Nat.le_of_lt_succ (length_lt_of_documentsWithin complete listed chain)
      refine ⟨rfl, ⟨fun _ => bounded, fun _ => ⟨_, rfl⟩⟩, ?_, ?_⟩
      · rintro _ _ ⟨rfl⟩
        obtain ⟨included, inOrder, equal⟩ :=
          documentsWithin_postOrder _ _ _ listed
        exact ⟨included, inOrder, fun other also => also.unique inOrder, equal⟩
      · intro site reached cycle
        exact absurd cycle (not_cycle_of_bounded bounded reached)

/-! ## A file that includes itself -/

/-- Surroundings in which no command runs and no address answers. -/
def silentSurroundings : Surroundings where
  run := fun _ files => (.error .notFound, files)
  request := fun _ _ => .unreachable

/-- A checkout with a file that is empty and a file that includes itself. -/
def loopingCheckout : Files where
  root := .folder [("work", .folder [("shared.yml", .file "".toUTF8),
    ("loop.yml", .file "include: loop.yml\n".toUTF8)])]

/-- The sources of that checkout. -/
def loopingSources : IncludeSources where
  cache := { checkout := "/work", refetches := false }
  repository := {}
  checkouts := {}

/-- A document that includes the empty file twice. -/
def sharingDocument : Node :=
  .mapping [("include", .sequence [.text "shared.yml", .text "/shared.yml"])]

/-- A document that includes the file that includes itself. -/
def loopingDocument : Node := .mapping [("include", .text "loop.yml")]

theorem read_empty : Document.read "" = .ok .empty := by
  have blank :
      (Text.lines "".toList).all Document.isBlankLine = true := by decide
  rw [Document.read, if_pos blank]

private theorem load?_shared :
    IncludedFile.load? loopingCheckout ⟨"/work/shared.yml", none⟩ =
      some ⟨.empty, none⟩ := by
  have text : loopingCheckout.text "/work/shared.yml" = .ok "" :=
    eq_ok_of_toOption (by decide)
  exact IncludedFile.load?_of_text text read_empty rfl

private theorem load?_loop :
    ∃ document,
      IncludedFile.load? loopingCheckout ⟨"/work/loop.yml", none⟩ =
        some ⟨document, none⟩ ∧
        (IncludeSite.mk document none).directives =
          .ok [.localFile "loop.yml"] := by
  have text :
      loopingCheckout.text "/work/loop.yml" = .ok "include: loop.yml\n" :=
    eq_ok_of_toOption (by decide +kernel)
  have reads :
      ((Document.read "include: loop.yml\n").toOption.bind fun document =>
      (Include.read Trail.root (document.get? "include")).toOption) =
        some [.localFile "loop.yml"] := by
    decide +kernel
  obtain ⟨document, read, directives⟩ := Option.bind_eq_some_iff.mp reads
  have declared :
      (IncludeSite.mk document none).directives = .ok [.localFile "loop.yml"] :=
    eq_ok_of_toOption directives
  exact ⟨document,
    IncludedFile.load?_of_text text (eq_ok_of_toOption read) declared, declared⟩

private theorem filesOf_loop (document : Node)
    (declared : (IncludeSite.mk document none).directives =
      .ok [.localFile "loop.yml"]) :
    loopingSources.filesOf ⟨document, none⟩ = [⟨"/work/loop.yml", none⟩] := by
  have named :
      [Include.localFile "loop.yml"].flatMap (loopingSources.filesNamed none) =
        [⟨"/work/loop.yml", none⟩] := rfl
  rw [filesOf_of_declared loopingSources declared, named]

private theorem declares_sharing :
    Include.read Trail.root (sharingDocument.get? "include") =
      .ok [.localFile "shared.yml", .localFile "/shared.yml"] := rfl

private theorem filesOf_sharing :
    loopingSources.filesOf ⟨sharingDocument, none⟩ =
      [⟨"/work/shared.yml", none⟩, ⟨"/work/shared.yml", none⟩] := by
  have named : [Include.localFile "shared.yml",
    .localFile "/shared.yml"].flatMap (loopingSources.filesNamed none) =
    [⟨"/work/shared.yml", none⟩, ⟨"/work/shared.yml", none⟩] := rfl
  have directives : (IncludeSite.mk sharingDocument none).directives =
      .ok [.localFile "shared.yml", .localFile "/shared.yml"] :=
    declares_sharing
  rw [filesOf_of_declared loopingSources directives, named]

private theorem filesOf_empty : loopingSources.filesOf ⟨.empty, none⟩ = [] :=
  filesOf_of_declared loopingSources
    (rfl : (IncludeSite.mk .empty none).directives = .ok [])

/-- The document that includes the empty file twice includes the empty
document only. -/
theorem includes_sharing {inner : IncludeSite}
    (included : loopingSources.Includes loopingCheckout
      ⟨sharingDocument, none⟩ inner) :
    inner = ⟨.empty, none⟩ := by
  obtain ⟨file, asked, loaded⟩ := included
  simp only [filesOf_sharing, List.mem_cons, List.not_mem_nil, or_false,
    or_self] at asked
  subst asked
  exact Option.some.inj (loaded.symm.trans load?_shared)

private theorem not_includes_empty {inner : IncludeSite} :
    ¬ loopingSources.Includes loopingCheckout ⟨.empty, none⟩ inner := by
  rintro ⟨file, asked, _⟩
  simp [filesOf_empty] at asked

private theorem complete_sharing :
    loopingSources.Complete loopingCheckout ⟨sharingDocument, none⟩ := by
  refine Complete.of_closed
    (fun site => site = ⟨sharingDocument, none⟩ ∨ site = ⟨.empty, none⟩)
    ?_ (.inl rfl)
  rintro site (rfl | rfl) file asked
  · simp only [filesOf_sharing, List.mem_cons, List.not_mem_nil, or_false,
      or_self] at asked
    subst asked
    exact ⟨_, load?_shared, .inr rfl⟩
  · simp [filesOf_empty] at asked

private theorem chain_sharing {length : Nat}
    (chain : Chain loopingSources loopingCheckout length
      ⟨sharingDocument, none⟩) :
    length ≤ 1 := by
  cases chain with
  | none => omega
  | some included deeper =>
      cases includes_sharing included
      cases deeper with
      | none => omega
      | some included _ => exact absurd included not_includes_empty

private theorem postOrder_sharing :
    PostOrder loopingSources loopingCheckout
      (loopingSources.filesOf ⟨sharingDocument, none⟩) [.empty, .empty] := by
  have bare : PostOrder loopingSources loopingCheckout
      (loopingSources.filesOf ⟨.empty, none⟩) [] := by
    rw [filesOf_empty]
    exact .nil
  rw [filesOf_sharing]
  exact .cons load?_shared bare (.cons load?_shared bare .nil)

private theorem complete_looping :
    loopingSources.Complete loopingCheckout ⟨loopingDocument, none⟩ := by
  obtain ⟨document, loaded, declared⟩ := load?_loop
  refine Complete.of_closed (fun site =>
    loopingSources.filesOf site = [⟨"/work/loop.yml", none⟩]) ?_
      (filesOf_loop _ rfl)
  intro site named file asked
  rw [named, List.mem_singleton] at asked
  subst asked
  exact ⟨_, loaded, filesOf_loop document declared⟩

/-- The document that includes the looping file leads into a cycle. -/
theorem cycle_looping :
    ∃ site, loopingSources.Includes loopingCheckout
      ⟨loopingDocument, none⟩ site ∧
      loopingSources.Includes loopingCheckout site site := by
  obtain ⟨document, loaded, declared⟩ := load?_loop
  refine ⟨⟨document, none⟩, ⟨_, ?_, loaded⟩, ⟨_, ?_, loaded⟩⟩
  · rw [filesOf_loop loopingDocument rfl]
    exact List.mem_singleton_self _
  · rw [filesOf_loop document declared]
    exact List.mem_singleton_self _

theorem resolve_complete_looping :
    (∃ nowFilled,
      perform silentSurroundings
        ((loopingSources.resolve Trail.root sharingDocument).run [])
        { files := loopingCheckout } =
        (.ok ([.empty, .empty, sharingDocument], nowFilled),
          { files := loopingCheckout })) ∧
      ∃ failure,
        perform silentSurroundings
          ((loopingSources.resolve Trail.root loopingDocument).run [])
            { files := loopingCheckout } =
          (.error failure, { files := loopingCheckout }) := by
  constructor
  · rcases run : perform silentSurroundings
      ((loopingSources.resolve Trail.root sharingDocument).run [])
      { files := loopingCheckout }
      with ⟨outcome, after⟩
    have inWorkspace : loopingSources.Complete
      (Workspace.files { files := loopingCheckout }) ⟨sharingDocument, none⟩ :=
      complete_sharing
    obtain ⟨rfl, succeeds, ordered, _⟩ :=
      resolve_complete rfl declares_sharing inWorkspace run
    have bounded : ∀ length,
        Chain loopingSources loopingCheckout length ⟨sharingDocument, none⟩ →
          length ≤ 99 :=
      fun _ chain => (chain_sharing chain).trans (by decide)
    obtain ⟨⟨documents, nowFilled⟩, rfl⟩ := succeeds.mpr bounded
    obtain ⟨included, _, unique, rfl⟩ := ordered documents nowFilled rfl
    rw [← unique _ postOrder_sharing]
    exact ⟨nowFilled, rfl⟩
  · rcases run : perform silentSurroundings
      ((loopingSources.resolve Trail.root loopingDocument).run [])
      { files := loopingCheckout }
      with ⟨outcome, after⟩
    have inWorkspace : loopingSources.Complete
      (Workspace.files { files := loopingCheckout }) ⟨loopingDocument, none⟩ :=
      complete_looping
    have directives : Include.read Trail.root (loopingDocument.get? "include") =
        .ok [.localFile "loop.yml"] := rfl
    obtain ⟨rfl, _, _, fails⟩ := resolve_complete rfl directives inWorkspace run
    obtain ⟨site, reached, cycle⟩ := cycle_looping
    obtain ⟨failure, rfl⟩ := fails site (.single reached) (.single cycle)
    exact ⟨failure, rfl⟩

end IncludeSources

end CiPipeline
