import CiPipeline.Proofs.Include.Confinement
import CiPipeline.Proofs.Include.Traversal

/-!
# Changes of the resolution of includes

Resolving a document changes nothing beside the storage of its checkout, as long
as what the documents name leads straight into the storage and past no link.
Nothing checks that it does: a project whose name climbs out of the storage has
its folder removed where it leads.
-/

namespace CiPipeline

open CiPipeline.Action CiPipeline.FileTree CiPipeline.IncludeSources
  CiPipeline.Sequencing

namespace Confinement

variable {world : Confinement} {sources : IncludeSources}
  {surroundings : Surroundings} {Given Result : Type}

/-! ## Resolution -/

/-- An action of the resolution whose runs are confined, whatever is
filled already. -/
def ConfinesResolution (world : Confinement) (surroundings : Surroundings)
    (action : Resolution Result) (holds : Result → Prop) : Prop :=
  ∀ filled, world.ConfinesAction surroundings (action.run filled) fun pair =>
    holds pair.1

section

variable {holds : Result → Prop} {between : Given → Prop}

private theorem confinesResolution_pure {result : Result}
    (satisfied : holds result) :
    world.ConfinesResolution surroundings (pure result) holds :=
  fun _ => confinesAction_pure satisfied

private theorem confinesResolution_throw {failure : Failure} :
    world.ConfinesResolution surroundings
      (throw failure : Resolution Result) holds :=
  fun _ => confinesAction_throw

private theorem confinesResolution_get :
    world.ConfinesResolution surroundings get fun _ => True :=
  fun _ => confinesAction_pure trivial

private theorem confinesResolution_set (filled : Filled) :
    world.ConfinesResolution surroundings (set filled) fun _ => True :=
  fun _ => confinesAction_pure trivial

private theorem confinesResolution_lift {action : Action Result}
    (confines : world.ConfinesAction surroundings action holds) :
    world.ConfinesResolution surroundings (liftM action) holds :=
  fun _ => confines.bind fun _ satisfied => confinesAction_pure satisfied

private theorem confinesResolution_ofExcept {reading : Except Failure Result} :
    world.ConfinesResolution surroundings (MonadExcept.ofExcept reading)
      fun result => reading = .ok result := by
  cases reading with
  | error failure => exact confinesResolution_throw
  | ok result => exact confinesResolution_pure rfl

theorem ConfinesResolution.bind {action : Resolution Given}
    {next : Given → Resolution Result}
    (first : world.ConfinesResolution surroundings action between)
    (second : ∀ given, between given →
      world.ConfinesResolution surroundings (next given) holds) :
    world.ConfinesResolution surroundings (action >>= next) holds := by
  intro filled
  rw [StateT.run_bind]
  refine (first filled).bind ?_
  intro pair satisfied
  exact second pair.1 satisfied pair.2

private theorem confinesResolution_mapM {values : List Given}
    {step : Given → Resolution Result}
    (each : ∀ value ∈ values, world.ConfinesResolution surroundings (step value)
      fun _ => True) :
    world.ConfinesResolution surroundings (values.mapM step) fun _ => True := by
  induction values with
  | nil => exact confinesResolution_pure trivial
  | cons value rest induction =>
      rw [List.mapM_cons]
      refine (each value (by simp)).bind ?_
      intro first _
      refine (induction fun other member =>
        each other (by simp [member])).bind ?_
      intro others _
      exact confinesResolution_pure trivial

end

/-- A resolver that is confined on documents whose directives are admitted. -/
def ConfinesResolver (world : Confinement) (sources : IncludeSources)
    (surroundings : Surroundings) (resolver : IncludeSources.Resolver) : Prop :=
  ∀ trail document directives,
    (∀ directive ∈ directives, world.AdmitsInclude sources directive) →
    world.ConfinesResolution surroundings (resolver trail document directives)
      fun _ => True

private theorem confinesAction_load
    (respected : world.Respected sources surroundings) (path : String) :
    world.ConfinesAction surroundings (Document.load path)
      (world.AdmitsDocument sources) := by
  refine (confinesAction_look _).bind ?_
  intro present _
  split
  · refine (confinesAction_look _).bind ?_
    rintro text ⟨files, admits, there⟩
    obtain ⟨content, held, isText⟩ := admits.text there
    refine confinesAction_ofExcept.mono ?_
    intro document read
    exact respected.documents content text document held isText read
  · refine confinesAction_pure ?_
    rintro trail directives ⟨rfl⟩
    simp

private theorem confinesResolution_documentsAt
    (respected : world.Respected sources surroundings)
    {resolver : IncludeSources.Resolver}
    (confines : ConfinesResolver world sources surroundings resolver)
    (trail : Trail) (path : String) {scope : Include → Include}
    (inScope : ∀ directive, world.AdmitsInclude sources directive →
      world.AdmitsInclude sources (scope directive)) :
    world.ConfinesResolution surroundings
      (IncludeSources.documentsAt resolver trail path scope) fun _ => True := by
  have loaded : world.ConfinesAction surroundings (Action.within trail
      (Document.load path)) (world.AdmitsDocument sources) :=
    (confinesAction_load respected path).tryCatch fun _ => confinesAction_throw
  refine (confinesResolution_lift loaded).bind ?_
  intro document admitted
  refine confinesResolution_ofExcept.bind ?_
  intro directives declared
  refine confines trail document _ ?_
  intro directive member
  obtain ⟨inDocument, isDeclared, rfl⟩ := List.mem_map.mp member
  exact inScope _ (admitted trail directives declared _ isDeclared)

private theorem confinesResolution_documentsOf
    (respected : world.Respected sources surroundings)
    {resolver : IncludeSources.Resolver}
    (confines : ConfinesResolver world sources surroundings resolver)
    (trail : Trail) {directive : Include}
    (admitted : world.AdmitsInclude sources directive) :
    world.ConfinesResolution surroundings
      (sources.documentsOf resolver trail directive) fun _ => True := by
  have plain (trail : Trail) (path : String) :=
    confinesResolution_documentsAt respected confines trail path fun _ => id
  cases directive with
  | localFile path => exact plain _ _
  | template name => exact plain _ _
  | remote address => exact plain _ _
  | projectFiles project ref files =>
      have inScope : ∀ directive, world.AdmitsInclude sources directive →
          world.AdmitsInclude sources
            (directive.within project (sources.refOf ref)) := by
        intro directive inDocument
        cases directive with
        | localFile path => exact admitted
        | _ => exact inDocument
      refine (confinesResolution_mapM ?_).bind fun _ _ =>
        confinesResolution_pure trivial
      intro file _
      refine (confinesResolution_lift (confinesAction_look _)).bind ?_
      intro present _
      split
      · exact confinesResolution_documentsAt respected confines _ _ inScope
      · exact confinesResolution_throw

private theorem confinesResolver_resolveWithin
    (respected : world.Respected sources surroundings) (length : Nat) :
    ConfinesResolver world sources surroundings
      (sources.resolveWithin length) := by
  -- The documents that are read on the way are admitted because of what files
  -- may hold, whatever the targets before them have put there.
  induction length with
  | zero => exact fun _ _ _ _ => confinesResolution_throw
  | succ length induction =>
      intro trail document directives admitted
      refine confinesResolution_get.bind ?_
      intro filled _
      refine (confinesResolution_lift
        (confinesAction_prepare respected trail filled
          (admitsTarget_of_mem admitted))).bind ?_
      intro nowFilled _
      refine (confinesResolution_set nowFilled).bind ?_
      intro _ _
      have each : ∀ directive ∈ directives,
          world.ConfinesResolution surroundings (sources.documentsOf
            (sources.resolveWithin length) trail directive) fun _ => True :=
        fun directive member =>
          confinesResolution_documentsOf respected induction trail
            (admitted directive member)
      refine (confinesResolution_mapM each).bind ?_
      intro included _
      exact confinesResolution_pure trivial

/-- Resolving a document changes nothing beside the storage of the checkout, and
nothing in a folder that the storage neither lies in nor holds, when what the
documents name leads straight into the storage. -/
theorem resolve_sameBeside {workspace after : Workspace} {trail : Trail}
    {document : Node}
    {filled : Filled} {outcome : Except Failure (List Node × Filled)}
    (storage : world.storage = world.place (Path.join sources.cache.checkout
      IncludeCache.storage)) (admits : world.Admits workspace.files)
    (respected : world.Respected sources surroundings)
    (admitted : world.AdmitsDocument sources document)
    (run : perform surroundings ((sources.resolve trail document).run filled)
      workspace = (outcome, after)) :
    SameBeside (world.place (Path.join sources.cache.checkout
      IncludeCache.storage)) workspace.files.root after.files.root ∧
      ∀ folder, ¬ world.storage <+: folder →
        ¬ folder <+: world.storage → ∀ inside,
        (after.files.root.at? (folder ++ inside)).map kind =
          (workspace.files.root.at? (folder ++ inside)).map kind := by
  have resolved : world.ConfinesResolution surroundings
      (sources.resolve trail document) fun _ => True := by
    refine confinesResolution_ofExcept.bind ?_
    intro directives declared
    exact confinesResolver_resolveWithin respected _ trail document directives
      (admitted trail directives declared)
  obtain ⟨keeps, _⟩ := resolved filled workspace admits
  rw [run] at keeps
  rw [← storage]
  refine ⟨keeps.same, ?_⟩
  intro folder outside notAbove inside
  refine keeps.same (folder ++ inside) ?_
  intro below
  rcases List.prefix_or_prefix_of_prefix below
      (List.prefix_append folder inside) with
    inStorage | above
  · exact outside inStorage
  · exact notAbove above

/-! ## A project with a checkout, and one whose name climbs out -/

/-- An empty folder to work in, and a checkout of another project elsewhere. -/
def aliasedFiles : Files where
  root :=
    .folder [("app", .folder []), ("ci", .folder [("a.yml", .file "".toUTF8)])]

/-- Sources in which that checkout stands in for a project. -/
def aliasedSources : IncludeSources where
  cache := { checkout := "/app", refetches := false }
  repository := {}
  checkouts := ⟨[("ci", "/ci")]⟩

/-- A document that includes a file of that project and a remote file. -/
def aliasedDocument : Node :=
  .mapping [("include",
    .sequence [.mapping [("project", .text "ci"), ("file", .text "a.yml")],
    .text "https://h/b.yml"])]

/-- Surroundings in which no command runs and every address answers with an
empty file. -/
def answeringSurroundings : Surroundings where
  run := fun _ files => (.error .notFound, files)
  request := fun _ _ => .answered 200 (some "".toUTF8)

/-- The place of that project in the storage. -/
def aliasedPlace : List String :=
  ["app", ".gitlab-ci-local", "includes", "gitlab.com", "ci", "main"]

/-- Changes only in the storage, and links only at the place of that project. -/
def aliasedConfinement : Confinement where
  here := []
  storage := ["app", ".gitlab-ci-local"]
  mayLink := (· = aliasedPlace)
  mayHold := (· = "".toUTF8)

private theorem descends_host :
    Path.Descends aliasedSources.repository.remote.host := by
  constructor <;> decide

private theorem descends_ci : Path.Descends "ci" := by
  constructor <;> decide

private theorem descends_main : Path.Descends "main" := by
  constructor <;> decide

private theorem aliased_place :
    aliasedConfinement.place (aliasedSources.refFolder "ci" "main") =
      aliasedPlace := by
  rw [place_refFolder descends_host descends_ci descends_main,
    place_join _ descends_storage.relative]
  decide

private theorem aliased_storage :
    aliasedConfinement.storage = aliasedConfinement.place
      (Path.join aliasedSources.cache.checkout IncludeCache.storage) := by
  rw [place_join _ descends_storage.relative]
  decide

private theorem aliased_admitsProject :
    aliasedConfinement.AdmitsProject aliasedSources "ci" "main" := by
  refine ⟨within_refFolder aliased_storage (by decide) descends_host descends_ci
    descends_main (by decide) (by decide) ?_, ?_⟩
  · intro above _ proper linked
    rw [aliased_place] at proper
    exact proper linked
  · intro checkout _
    exact aliased_place

private theorem aliased_admitsRemote :
    aliasedConfinement.AdmitsRemote aliasedSources "https://h/b.yml" := by
  have descends : Path.Descends (IncludeUrl.cachePath "https://h/b.yml") := by
    constructor <;> decide
  have place :
      aliasedConfinement.place (aliasedSources.remotePath "https://h/b.yml") =
        ["app", ".gitlab-ci-local", "includes", "h", "b.yml"] := by
    rw [place_remotePath descends, place_join _ descends_storage.relative]
    decide
  refine ⟨within_remotePath aliased_storage (by decide) descends (by decide)
    (by decide) ?_, ?_⟩
  · intro above prefixes _ linked
    rw [place, linked] at prefixes
    exact absurd prefixes (by decide)
  · rw [place]
    have different : ["app", ".gitlab-ci-local", "includes", "h", "b.yml"] ≠
        aliasedPlace := by
      decide
    exact different

/-- The only file or link in these files is the one of the checkout. -/
theorem aliased_leaf {place : List String} {leaf : FileTree}
    (isLeaf : leaf.isFolder = false)
    (occurs : aliasedFiles.root.Occurs place leaf) :
    leaf = .file "".toUTF8 := by
  cases occurs with
  | whole => cases isLeaf
  | inside member deeper =>
      rcases List.mem_cons.mp member with app | elsewhere
      · cases app
        cases deeper with
        | whole => cases isLeaf
        | inside member _ => cases member
      · cases List.mem_singleton.mp elsewhere
        cases deeper with
        | whole => cases isLeaf
        | inside member deepest =>
            cases List.mem_singleton.mp member
            cases deepest
            rfl

private theorem aliased_admits : aliasedConfinement.Admits aliasedFiles := by
  constructor
  · rfl
  · intro place target occurs
    cases aliased_leaf rfl occurs
  · intro place content occurs
    cases aliased_leaf rfl occurs
    rfl
  · intro place prefixes proper
    have towards : place <+: ["app", ".gitlab-ci-local"] := prefixes
    rcases List.prefix_cons_iff.mp towards with rfl | ⟨rest, rfl, deeper⟩
    · exact ⟨_, rfl⟩
    · rcases List.prefix_cons_iff.mp deeper with rfl | ⟨rest, rfl, deepest⟩
      · exact ⟨[], rfl⟩
      · cases List.prefix_nil.mp deepest
        exact (proper rfl).elim

private theorem aliased_respected :
    aliasedConfinement.Respected aliasedSources answeringSurroundings := by
  constructor
  · rintro content text document rfl isText read trail directives declared
    have isContent : String.fromUTF8? "".toUTF8 = some "" := by decide
    cases isContent.symm.trans isText
    cases read_empty.symm.trans read
    have none : Node.empty.get? "include" = none := rfl
    rw [none] at declared
    cases declared
    simp
  · intro address count status body answered
    cases answered
    rfl
  · intro project ref files _ before admits
    exact .refl admits

theorem resolve_sameBeside_aliased :
    ∃ outcome after,
      perform answeringSurroundings
        ((aliasedSources.resolve Trail.root aliasedDocument).run [])
          { files := aliasedFiles } = (outcome, after) ∧
        SameBeside ["app", ".gitlab-ci-local"] aliasedFiles.root
          after.files.root ∧
        (after.files.root.at? ["ci", "a.yml"]).map kind =
          some (.file "".toUTF8) := by
  rcases run : perform answeringSurroundings
    ((aliasedSources.resolve Trail.root aliasedDocument).run [])
    { files := aliasedFiles }
    with ⟨outcome, after⟩
  have admitted :
      aliasedConfinement.AdmitsDocument aliasedSources aliasedDocument := by
    have reads : Include.read Trail.root (aliasedDocument.get? "include") =
        .ok [.projectFiles "ci" none ["a.yml"], .remote "https://h/b.yml"] :=
          rfl
    intro trail directives declared directive member
    cases (Include.read_trail declared).symm.trans reads
    rcases List.mem_cons.mp member with rfl | isRemote
    · exact aliased_admitsProject
    · rw [List.mem_singleton.mp isRemote]
      exact aliased_admitsRemote
  obtain ⟨same, apart⟩ :=
    resolve_sameBeside aliased_storage aliased_admits aliased_respected
      admitted run
  rw [← aliased_storage] at same
  exact ⟨outcome, after, rfl, same,
    apart ["ci"] (by decide) (by decide) ["a.yml"]⟩

/-- A checkout in which the folder of a host lies in the storage, and a folder
beside it. -/
def climbingFiles : Files where
  root := .folder [("work", .folder [
    ("victim", .folder [("main", .folder [("keep.yml", .file "".toUTF8)])]),
    (".gitlab-ci-local",
      .folder [("includes", .folder [("gitlab.com", .folder [])])])])]

/-- The sources of that checkout. -/
def climbingSources : IncludeSources where
  cache := { checkout := "/work", refetches := false }
  repository := {}
  checkouts := {}

/-- A document that includes a file of a project whose name climbs out of
the storage. -/
def climbingDocument : Node :=
  .mapping [("include", .mapping [("project", .text "../../../victim"),
    ("ref", .text "main"), ("file", .text "a.yml")])]

/-- A file beside the storage is removed for a project whose name
climbs out of it. -/
theorem resolve_removes_beside :
    ¬ SameBeside ["work", ".gitlab-ci-local"] climbingFiles.root
      (perform silentSurroundings
        ((climbingSources.resolve Trail.root climbingDocument).run [])
        { files := climbingFiles }).2.files.root := by
  intro same
  have kept := same ["work", "victim", "main", "keep.yml"] (by decide)
  have before :
      (climbingFiles.root.at? ["work", "victim", "main", "keep.yml"]).isSome =
        true := by
    decide +kernel
  have after : ((perform silentSurroundings
      ((climbingSources.resolve Trail.root climbingDocument).run [])
      { files := climbingFiles }).2.files.root.at?
        ["work", "victim", "main", "keep.yml"]).isSome = false := by
    decide +kernel
  have sameSome := congrArg Option.isSome kept
  rw [Option.isSome_map, Option.isSome_map, before, after] at sameSome
  cases sameSome

end Confinement

end CiPipeline
