import CiPipeline.Proofs.Include.Agreement
import CiPipeline.Proofs.Include.KeptFiles
import Mathlib.Data.List.Nodup

/-!
# Fetches of a level

What is fetched for the directives of one document.  A project is fetched once
for each of its refs, and a remote file once when all directives for it name its
address, but a template counts anew each time.  However the steps of the targets
follow each other, no target is fetched twice.
-/

namespace CiPipeline

open CiPipeline.Action CiPipeline.IncludeSources

namespace Include

/-- The address that a directive asks for. -/
def address? : Include → Option String
  | .template name => some (IncludeUrl.ofTemplate name)
  | .remote address => some address
  | _ => none

/-- A template that is published at an address. -/
def isTemplateAt (address : String) : Include → Bool
  | .template name => IncludeUrl.ofTemplate name == address
  | _ => false

/-- How often an address counts: for each template there, and once more if the
first directive that asks for it is no template. -/
def fetches (address : String) (directives : List Include) : Nat :=
  directives.countP (isTemplateAt address) +
    if directives.find? (·.address? == some address) =
    some (.remote address) then 1 else 0

variable {address : String} {directive : Include} {directives : List Include}

private theorem address?_of_isTemplateAt
    (isTemplate : directive.isTemplateAt address = true) :
    directive.address? = some address := by
  cases directive with
  | template name => exact congrArg some (beq_iff_eq.mp isTemplate)
  | _ => cases isTemplate

private theorem isTemplateAt_or_remote
    (asks : directive.address? = some address) :
    directive.isTemplateAt address = true ∨ directive = .remote address := by
  cases directive with
  | template name => exact .inl (beq_iff_eq.mpr (Option.some.inj asks))
  | remote other => exact .inr (congrArg Include.remote (Option.some.inj asks))
  | _ => cases asks

private theorem fetches_cons_of_asks
    (asks : directive.address? = some address) :
    fetches address (directive :: directives) =
      directives.countP (isTemplateAt address) + 1 := by
  have found : (directive :: directives).find? (·.address? == some address) =
      some directive :=
    List.find?_cons_of_pos (by simpa using asks)
  rw [fetches, found, List.countP_cons]
  rcases isTemplateAt_or_remote asks with isTemplate | rfl
  · have notRemote : some directive ≠ some (.remote address) := by
      rintro ⟨⟩
      cases isTemplate
    rw [if_pos isTemplate, if_neg notRemote]
  · rw [if_pos rfl]
    rfl

private theorem fetches_cons_of_not_asks
    (other : directive.address? ≠ some address) :
    fetches address (directive :: directives) = fetches address directives := by
  have notTemplate : ¬ directive.isTemplateAt address = true :=
    fun isTemplate => other (address?_of_isTemplateAt isTemplate)
  have skipped : (directive :: directives).find? (·.address? == some address) =
      directives.find? (·.address? == some address) :=
    List.find?_cons_of_neg (by simpa using other)
  rw [fetches, fetches, skipped, List.countP_cons_of_neg notTemplate]

/-- An address counts more than once exactly when a template there stands behind
another directive that asks for it. -/
theorem fetches_le_one_iff :
    fetches address directives ≤ 1 ↔
      directives.Pairwise fun first second =>
        first.address? = some address →
            second.isTemplateAt address = false := by
  induction directives with
  | nil => simp [fetches]
  | cons directive rest induction =>
      rw [List.pairwise_cons]
      -- Behind the first directive that asks for the address every template
      -- there is one too many.
      by_cases asks : directive.address? = some address
      · have none : fetches address (directive :: rest) ≤ 1 ↔
            ∀ other ∈ rest, other.isTemplateAt address = false := by
          rw [fetches_cons_of_asks asks, Nat.add_le_add_iff_right (k := 0),
            Nat.le_zero, List.countP_eq_zero]
          simp
        rw [none]
        constructor
        · intro others
          refine ⟨fun other member _ => others other member, ?_⟩
          refine List.pairwise_of_forall_mem_list ?_
          exact fun _ _ other member _ => others other member
        · rintro ⟨others, _⟩ other member
          exact others other member asks
      · rw [fetches_cons_of_not_asks asks, induction]
        exact ⟨fun others =>
          ⟨fun _ _ same => (asks same).elim, others⟩, And.right⟩

end Include

namespace Target

/-- The address of a target. -/
def address? : Target → Option String
  | .remote address => some address
  | _ => none

/-! ## Remote files -/

section

variable {address : String} {directive : Include} {directives : List Include}
  {targets : List Target}

theorem mem_addresses_iff :
    address ∈ targets.filterMap address? ↔ .remote address ∈ targets := by
  rw [List.mem_filterMap]
  constructor
  · rintro ⟨target, member, isAddress⟩
    cases target with
    | remote other => exact Option.some.inj isAddress ▸ member
    | _ => cases isAddress
  · intro member
    exact ⟨_, member, rfl⟩

private theorem addresses_append_remote :
    (targets ++ [Target.remote address]).filterMap address? =
      targets.filterMap address? ++ [address] := by
  rw [List.filterMap_append]
  rfl

private theorem gatherRemote_of_new (new : address ∉ targets.filterMap address?)
    (asks : directive.address? = some address) :
    gatherRemote targets directive = targets ++ [.remote address] := by
  cases directive with
  | template name => rw [gatherRemote, Option.some.inj asks]
  | remote other =>
      cases asks
      have notListed : ¬ targets.contains (.remote address) = true := by
        rw [List.contains_iff_mem]
        exact fun listed => new (mem_addresses_iff.mpr listed)
      rw [gatherRemote, if_neg notListed]
  | _ => cases asks

private theorem count_gatherRemote_of_not_asks
    (other : directive.address? ≠ some address) :
    ((gatherRemote targets directive).filterMap address?).count address =
      (targets.filterMap address?).count address := by
  have added {asked : String} (differs : asked ≠ address) :
      ((targets ++ [Target.remote asked]).filterMap address?).count address =
        (targets.filterMap address?).count address := by
    rw [addresses_append_remote, List.count_append, List.count_singleton]
    simp [differs]
  cases directive with
  | template name => exact added fun same => other (congrArg some same)
  | remote asked =>
      rw [gatherRemote]
      split
      · rfl
      · exact added fun same => other (congrArg some same)
  | _ => rfl

private theorem count_gatherRemote_of_mem
    (known : address ∈ targets.filterMap address?) :
    ((gatherRemote targets directive).filterMap address?).count address =
      (targets.filterMap address?).count address +
        if directive.isTemplateAt address then 1 else 0 := by
  by_cases asks : directive.address? = some address
  · rcases Include.isTemplateAt_or_remote asks with isTemplate | rfl
    · cases directive with
      | template name =>
          obtain rfl := beq_iff_eq.mp isTemplate
          rw [if_pos isTemplate, gatherRemote, addresses_append_remote,
            List.count_append, List.count_singleton_self]
      | _ => cases isTemplate
    · have listed : targets.contains (.remote address) = true :=
        List.contains_iff_mem.mpr (mem_addresses_iff.mp known)
      rw [gatherRemote, if_pos listed]
      rfl
  · have notTemplate : ¬ directive.isTemplateAt address = true :=
      fun isTemplate => asks (Include.address?_of_isTemplateAt isTemplate)
    rw [if_neg notTemplate, count_gatherRemote_of_not_asks asks]
    rfl

/-- An address that is listed counts once more for each template there. -/
theorem count_addresses_of_mem (known : address ∈ targets.filterMap address?) :
    ((directives.foldl gatherRemote targets).filterMap address?).count address =
      (targets.filterMap address?).count address +
        directives.countP (Include.isTemplateAt address) := by
  induction directives generalizing targets with
  | nil => rfl
  | cons directive rest induction =>
      have stillKnown :
          address ∈ (gatherRemote targets directive).filterMap address? := by
        rw [← List.count_pos_iff, count_gatherRemote_of_mem known]
        exact Nat.add_pos_left (List.count_pos_iff.mpr known) _
      rw [List.foldl_cons, induction stillKnown,
        count_gatherRemote_of_mem known, List.countP_cons,
        Nat.add_assoc, Nat.add_comm (ite _ _ _)]

/-- An address that is not listed counts as often as the directives
have it fetched. -/
theorem count_addresses_of_not_mem
    (new : address ∉ targets.filterMap address?) :
    ((directives.foldl gatherRemote targets).filterMap address?).count address =
      Include.fetches address directives := by
  induction directives generalizing targets with
  | nil => exact List.count_eq_zero.mpr new
  | cons directive rest induction =>
      rw [List.foldl_cons]
      -- The first directive that asks for the address lists it; behind it only
      -- templates count.
      by_cases asks : directive.address? = some address
      · have listed : address ∈
            (targets ++ [Target.remote address]).filterMap address? := by
          rw [addresses_append_remote]
          exact List.mem_append_right _ (List.mem_singleton_self _)
        rw [gatherRemote_of_new new asks, count_addresses_of_mem listed,
          addresses_append_remote, List.count_append,
          List.count_eq_zero.mpr new, List.count_singleton_self,
          Include.fetches_cons_of_asks asks]
        omega
      · have stillNew :
            address ∉ (gatherRemote targets directive).filterMap address? := by
          rw [← List.count_eq_zero, count_gatherRemote_of_not_asks asks]
          exact List.count_eq_zero.mpr new
        rw [induction stillNew, Include.fetches_cons_of_not_asks asks]

end

/-! ## Projects -/

section

variable {name ref : String} {files : List String} {targets : List Target}

private theorem subset_addFile (files : List String) (file : String) :
    files ⊆ addFile files file ∧ file ∈ addFile files file := by
  unfold addFile
  split
  · rename_i listed
    exact ⟨List.Subset.refl _, List.contains_iff_mem.mp listed⟩
  · exact ⟨List.subset_append_left _ _,
      List.mem_append_right _ (List.mem_singleton_self _)⟩

private theorem subset_foldl_addFile (files known : List String) :
    known ⊆ files.foldl addFile known ∧ files ⊆ files.foldl addFile known := by
  induction files generalizing known with
  | nil => exact ⟨List.Subset.refl _, List.nil_subset _⟩
  | cons file rest induction =>
      obtain ⟨kept, added⟩ := induction (addFile known file)
      obtain ⟨before, listed⟩ := subset_addFile known file
      exact ⟨List.Subset.trans before kept,
        List.cons_subset.mpr ⟨kept listed, added⟩⟩

private theorem exists_of_filled {target : Target}
    (isFilled : target.filled? = some (name, ref)) :
    ∃ known, target = .project name ref known := by
  cases target with
  | project other otherRef known =>
      obtain ⟨rfl, rfl⟩ := Prod.mk.inj (Option.some.inj isFilled)
      exact ⟨known, rfl⟩
  | _ => cases isFilled

private theorem addProject_met (known : List String) :
    addProject name ref files (.project name ref known :: targets) =
      .project name ref (files.foldl addFile known) :: targets := by
  rw [addProject, beq_self_eq_true, beq_self_eq_true]
  rfl

private theorem addProject_passed {target : Target}
    (other : target.filled? ≠ some (name, ref)) :
    addProject name ref files (target :: targets) =
      target :: addProject name ref files targets := by
  cases target with
  | project otherName otherRef known =>
      have differs : ¬ (otherName == name && otherRef == ref) = true := by
        simp only [Bool.and_eq_true, beq_iff_eq]
        rintro ⟨rfl, rfl⟩
        exact other rfl
      rw [addProject, if_neg differs]
  | _ =>
      rw [addProject]
      simp

/-- Asking for files of a project keeps the projects and refs, and adds its own
if it is new. -/
theorem filled_addProject (name ref : String) (files : List String)
    (targets : List Target) :
    (addProject name ref files targets).filterMap filled? =
      if (name, ref) ∈ targets.filterMap filled? then targets.filterMap filled?
      else targets.filterMap filled? ++ [(name, ref)] := by
  induction targets with
  | nil => rfl
  | cons target rest induction =>
      by_cases meets : target.filled? = some (name, ref)
      · obtain ⟨known, rfl⟩ := exists_of_filled meets
        rw [addProject_met]
        simp [filled?]
      · rw [addProject_passed meets, List.filterMap_cons,
          List.filterMap_cons, induction]
        cases asked : target.filled? with
        | none => rfl
        | some other =>
            have unlisted : (name, ref) ≠ other := by
              rintro rfl
              exact meets asked
            simp only [List.mem_cons, unlisted, false_or]
            split <;> rfl

/-- Each project and ref is a target once. -/
theorem nodup_filled (defaultRef : String) {directives : List Include}
    {targets : List Target} (distinct : (targets.filterMap filled?).Nodup) :
    ((directives.foldl (gatherProject defaultRef) targets).filterMap
      filled?).Nodup := by
  induction directives generalizing targets with
  | nil => exact distinct
  | cons directive rest induction =>
      rw [List.foldl_cons]
      refine induction ?_
      cases directive with
      | projectFiles name ref files =>
          rw [gatherProject, filled_addProject]
          split
          · exact distinct
          · rename_i new
            rw [← List.concat_eq_append]
            exact List.Nodup.concat new distinct
      | _ => exact distinct

private theorem exists_of_addProject (name ref : String) (files : List String)
    (targets : List Target) :
    ∃ known, files ⊆ known ∧
      .project name ref known ∈ addProject name ref files targets := by
  induction targets with
  | nil =>
      exact ⟨_, (subset_foldl_addFile files []).2, List.mem_singleton_self _⟩
  | cons target rest induction =>
      by_cases meets : target.filled? = some (name, ref)
      · obtain ⟨earlier, rfl⟩ := exists_of_filled meets
        rw [addProject_met]
        exact ⟨_, (subset_foldl_addFile files earlier).2, List.mem_cons_self⟩
      · obtain ⟨known, asked, member⟩ := induction
        rw [addProject_passed meets]
        exact ⟨known, asked, List.mem_cons_of_mem _ member⟩

end

/-! ## The targets of a document -/

section

variable (defaultRef : String) (directives : List Include)

private theorem filterMap_ofLocal {Value : Type} {asked : Target → Option Value}
    (none : ∀ path, asked (localFile path) = .none) :
    (directives.filterMap ofLocal?).filterMap asked = [] := by
  rw [List.filterMap_eq_nil_iff]
  intro target member
  obtain ⟨directive, _, isLocal⟩ := List.mem_filterMap.mp member
  cases directive with
  | localFile path =>
      cases isLocal
      exact none path
  | _ => cases isLocal

private theorem addresses_ofIncludes :
    (ofIncludes defaultRef directives).filterMap address? =
      (directives.foldl gatherRemote []).filterMap address? := by
  have projects : (directives.foldl (gatherProject defaultRef) []).filterMap
      address? = [] := by
    rw [List.filterMap_eq_nil_iff]
    refine foldl_forall (fun _ member => (List.not_mem_nil member).elim) ?_
    intro directive _ targets none
    cases directive with
    | projectFiles name ref files => exact addProject_forall none fun _ _ => rfl
    | _ => exact none
  rw [ofIncludes, List.filterMap_append, List.filterMap_append,
    filterMap_ofLocal directives fun _ => rfl, projects]
  rfl

private theorem filled_ofIncludes :
    (ofIncludes defaultRef directives).filterMap filled? =
      (directives.foldl (gatherProject defaultRef) []).filterMap filled? := by
  have remotes : (directives.foldl gatherRemote []).filterMap filled? = [] := by
    rw [List.filterMap_eq_nil_iff]
    refine foldl_forall (fun _ member => (List.not_mem_nil member).elim) ?_
    intro directive _ targets none
    have added (address : String) :
        ∀ target ∈ targets ++ [remote address], target.filled? = Option.none :=
      List.forall_mem_append.mpr ⟨none, List.forall_mem_singleton.mpr rfl⟩
    cases directive with
    | template name => exact added _
    | remote address =>
        rw [gatherRemote]
        split
        · exact none
        · exact added address
    | _ => exact none
  rw [ofIncludes, List.filterMap_append, List.filterMap_append,
    filterMap_ofLocal directives fun _ => rfl, remotes, List.append_nil]
  rfl

end

/-- A target that brings what a directive asks for: the same local file, the
same remote file, or all the files of the same project at the same ref. -/
def Covers (defaultRef : String) : Target → Include → Prop
  | .localFile declared, .localFile path => declared = path
  | .project name ref files, .projectFiles asked askedRef names =>
      name = asked ∧ ref = askedRef.getD defaultRef ∧ names ⊆ files
  | .remote address, .template name => address = IncludeUrl.ofTemplate name
  | .remote address, .remote asked => address = asked
  | _, _ => False

section

variable {defaultRef : String} {directive : Include} {directives : List Include}
  {targets : List Target}

private theorem Covers.add {name ref : String} {known : List String}
    (files : List String)
    (covers : Covers defaultRef (.project name ref known) directive) :
    Covers defaultRef (.project name ref (files.foldl addFile known))
      directive := by
  cases directive with
  | projectFiles asked askedRef names =>
      obtain ⟨isAsked, isRef, subset⟩ := covers
      exact ⟨isAsked, isRef,
        List.Subset.trans subset (subset_foldl_addFile files known).1⟩
  | _ => cases covers

/-- What is brought still is when more files of a project are asked for. -/
theorem covered_addProject (name ref : String) (files : List String)
    (covered : ∃ target ∈ targets, target.Covers defaultRef directive) :
    ∃ target ∈ addProject name ref files targets,
      target.Covers defaultRef directive := by
  induction targets with
  | nil =>
      obtain ⟨_, member, _⟩ := covered
      cases member
  | cons first rest induction =>
      rw [List.exists_mem_cons_iff] at covered
      by_cases meets : first.filled? = some (name, ref)
      · obtain ⟨known, rfl⟩ := exists_of_filled meets
        rw [addProject_met, List.exists_mem_cons_iff]
        exact covered.imp_left (Covers.add files)
      · rw [addProject_passed meets, List.exists_mem_cons_iff]
        exact covered.imp_right induction

private theorem covered_gatherProject
    (covered : ∃ target ∈ targets, target.Covers defaultRef directive) :
    ∃ target ∈ directives.foldl (gatherProject defaultRef) targets,
      target.Covers defaultRef directive := by
  induction directives generalizing targets with
  | nil => exact covered
  | cons first rest induction =>
      refine induction ?_
      cases first with
      | projectFiles name ref files =>
          exact covered_addProject name _ files covered
      | _ => exact covered

/-- Every directive is covered by one of the targets. -/
theorem ofIncludes_covers (defaultRef : String)
    (declared : directive ∈ directives) :
    ∃ target ∈ ofIncludes defaultRef directives,
      target.Covers defaultRef directive := by
  unfold ofIncludes
  cases directive with
  | localFile path =>
      have asked : localFile path ∈ directives.filterMap ofLocal? :=
        List.mem_filterMap.mpr ⟨.localFile path, declared, rfl⟩
      exact ⟨_, List.mem_append_left _ (List.mem_append_left _ asked), rfl⟩
  | projectFiles name ref files =>
      have asked : ∃ target ∈ directives.foldl (gatherProject defaultRef) [],
          target.Covers defaultRef (.projectFiles name ref files) := by
        obtain ⟨front, back, rfl⟩ := List.append_of_mem declared
        rw [List.foldl_append, List.foldl_cons]
        obtain ⟨known, subset, member⟩ :=
          exists_of_addProject name (ref.getD defaultRef) files
          (front.foldl (gatherProject defaultRef) [])
        exact covered_gatherProject ⟨_, member, rfl, rfl, subset⟩
      obtain ⟨target, member, covers⟩ := asked
      exact ⟨target,
        List.mem_append_left _ (List.mem_append_right _ member), covers⟩
  | template name =>
      refine ⟨remote (IncludeUrl.ofTemplate name),
        List.mem_append_right _ ?_, rfl⟩
      refine gatherRemote_mem declared ?_
      intro targets
      exact List.mem_append_right _ (List.mem_singleton_self _)
  | remote address =>
      refine ⟨remote address, List.mem_append_right _ ?_, rfl⟩
      refine gatherRemote_mem declared ?_
      intro targets
      rw [gatherRemote]
      split
      · rename_i listed
        exact List.contains_iff_mem.mp listed
      · exact List.mem_append_right _ (List.mem_singleton_self _)

end

end Target

/-! ## What is fetched while targets are prepared -/

/-- The address that a task downloads. -/
def Task.address? : Task → Option String
  | .download _ declared => some declared
  | _ => none

/-- The project and the ref whose folder a task fills. -/
def Task.filled? : Task → Option (String × String)
  | .link project ref _ => some (project, ref)
  | .extract _ project ref _ => some (project, ref)
  | _ => none

/-- The address that is downloaded for a target, once that is planned. -/
def Phase.address? (phase : Phase) : Option String :=
  phase.task?.bind Task.address?

/-- The project and the ref whose folder is filled for a target, once
that is planned. -/
def Phase.filled? (phase : Phase) : Option (String × String) :=
  phase.task?.bind Task.filled?

/-- A phase in which nothing is fetched but what the target asks for. -/
structure Phase.Suits (phase : Phase) (target : Target) : Prop where
  address : phase.address? = none ∨ phase.address? = target.address?
  filled : phase.filled? = none ∨ phase.filled? = target.filled?

namespace IncludeSources

variable {sources : IncludeSources} {surroundings : Surroundings}
  {trail : Trail} {filled : Filled} {before after : Workspace}

/-- A remote file that is not there is downloaded. -/
theorem perform_planRemote_of_absent {address : String} {url : Url}
    (absent : before.files.has (sources.remotePath address) = .ok false)
    (isUrl : Url.read address = .ok url) (isWeb : Download.check url = .ok ()) :
    perform surroundings (sources.planRemote address) before =
      (.ok (.download url address), before) := by
  have stale : perform surroundings
      (sources.cache.isFresh [sources.remotePath address]) before =
      (.ok false, before) := by
    unfold IncludeCache.isFresh
    split
    · rfl
    · rw [IncludeCache.allExist, perform_bind, perform_look, absent]
      rfl
  rw [planRemote, perform_bind, stale]
  dsimp only
  rw [isUrl]
  dsimp only
  rw [isWeb]
  rfl

private theorem suits_of_plan {target : Target} {task : Task}
    (planned : perform surroundings (sources.plan trail filled target) before =
      (.ok task, after)) : (Phase.planned task).Suits target := by
  cases target with
  | localFile declared =>
      obtain ⟨_, rfl, _⟩ := of_perform_plan_localFile planned
      exact ⟨.inl rfl, .inl rfl⟩
  | remote address =>
      obtain ⟨_, ⟨rfl, _⟩ | ⟨_, url, _, rfl⟩⟩ := of_perform_planRemote planned
      · exact ⟨.inl rfl, .inl rfl⟩
      · exact ⟨.inr rfl, .inl rfl⟩
  | project project ref names =>
      obtain ⟨_, rfl | ⟨checkout, rfl⟩ | ⟨afresh, missing, rfl⟩⟩ :=
        of_perform_planProject_cases planned
      · exact ⟨.inl rfl, .inl rfl⟩
      · exact ⟨.inl rfl, .inr rfl⟩
      · exact ⟨.inl rfl, .inr rfl⟩

/-- A target keeps its task from one step to the next. -/
theorem suits_of_advance {target : Target} {phase next : Phase}
    (suits : phase.Suits target)
    (taken : perform surroundings (sources.advance trail filled target phase)
      before = (.ok next, after)) : next.Suits target := by
  cases phase with
  | waiting =>
      obtain ⟨task, between, planned, finished⟩ :=
        perform_bind_eq_ok_iff.mp taken
      cases finished
      exact suits_of_plan planned
  | planned task =>
      obtain ⟨_, _, _, finished⟩ := perform_bind_eq_ok_iff.mp taken
      cases finished
      exact ⟨suits.address, suits.filled⟩
  | cleared task =>
      obtain ⟨_, _, _, finished⟩ := perform_bind_eq_ok_iff.mp taken
      cases finished
      exact ⟨suits.address, suits.filled⟩
  | opened task =>
      obtain ⟨_, _, _, finished⟩ := perform_bind_eq_ok_iff.mp taken
      cases finished
      exact ⟨suits.address, suits.filled⟩
  | finished task =>
      cases taken
      exact suits

/-- However the steps follow each other, the targets stay and are fetched for
themselves alone. -/
theorem Interleaves.suits {states later : List (Target × Phase)}
    (interleaves : Interleaves sources surroundings trail filled states before
      later after) (each : ∀ state ∈ states, state.2.Suits state.1) :
    later.map Prod.fst = states.map Prod.fst ∧ ∀ state ∈ later,
      state.2.Suits state.1 := by
  induction interleaves with
  | stop => exact ⟨rfl, each⟩
  | @step front back states target phase next before between after taken _
      induction =>
      rw [List.forall_mem_append, List.forall_mem_cons] at each induction
      obtain ⟨early, suits, further⟩ := each
      obtain ⟨same, all⟩ :=
        induction ⟨early, suits_of_advance suits taken, further⟩
      refine ⟨?_, all⟩
      rw [same, List.map_append, List.map_append]
      rfl

private theorem filterMap_sublist {Value : Type}
    {states : List (Target × Phase)}
    {given : Phase → Option Value} {asked : Target → Option Value}
    (each : ∀ state ∈ states,
      given state.2 = none ∨ given state.2 = asked state.1) :
    List.Sublist (states.filterMap fun state => given state.2)
      ((states.map Prod.fst).filterMap asked) := by
  induction states with
  | nil => exact .slnil
  | cons state rest induction =>
      obtain ⟨first, others⟩ := List.forall_mem_cons.mp each
      have sublist := induction others
      rw [List.map_cons]
      rcases first with idle | same
      · rw [List.filterMap_cons, idle]
        exact sublist.trans ((List.sublist_cons_self _ _).filterMap asked)
      · rw [List.filterMap_cons, List.filterMap_cons, same]
        split
        · exact sublist
        · exact sublist.cons_cons _

end IncludeSources

namespace Target

/-- The directives of a document are covered by targets among which each
project and ref is there once, and an address as often as it counts: more
than once exactly when a template there stands behind another directive that
asks for it.  However the steps of the targets follow each other, no more
than that is fetched. -/
theorem ofIncludes_fetches (sources : IncludeSources)
    (directives : List Include) :
    let defaultRef := sources.repository.remote.defaultBranch
    let targets := ofIncludes defaultRef directives
    (∀ address,
      (targets.filterMap address?).count address =
        Include.fetches address directives ∧
        (Include.fetches address directives ≤ 1 ↔
          directives.Pairwise fun first second =>
            first.address? = some address →
              second.isTemplateAt address = false)) ∧
      (targets.filterMap filled?).Nodup ∧
      (∀ directive ∈ directives, ∃ target ∈ targets,
        target.Covers defaultRef directive) ∧
      ∀ surroundings trail filled before states after,
        Interleaves sources surroundings trail filled
          (targets.map fun target => (target, .waiting)) before states after →
        (∀ address,
          (states.filterMap (·.2.address?)).count address ≤
            Include.fetches address directives) ∧
          (states.filterMap (·.2.filled?)).Nodup := by
  intro defaultRef targets
  have counted (address : String) :
      (targets.filterMap address?).count address =
        Include.fetches address directives := by
    rw [addresses_ofIncludes]
    exact count_addresses_of_not_mem List.not_mem_nil
  have distinct : (targets.filterMap filled?).Nodup := by
    rw [filled_ofIncludes]
    exact nodup_filled defaultRef List.nodup_nil
  refine ⟨fun address => ⟨counted address, Include.fetches_le_one_iff⟩,
    distinct, ?_, ?_⟩
  · exact fun directive declared => ofIncludes_covers defaultRef declared
  · intro surroundings trail filled before states after interleaves
    have waiting : ∀ state ∈ targets.map fun target => (target, Phase.waiting),
        state.2.Suits state.1 := by
      intro state member
      obtain ⟨target, _, rfl⟩ := List.mem_map.mp member
      exact ⟨.inl rfl, .inl rfl⟩
    obtain ⟨same, suit⟩ := interleaves.suits waiting
    have listed : states.map Prod.fst = targets := by
      rw [same, List.map_map]
      exact List.map_id targets
    constructor
    · intro address
      have sublist :=
        filterMap_sublist fun state member => (suit state member).address
      rw [listed] at sublist
      rw [← counted address]
      exact sublist.count_le address
    · have sublist :=
        filterMap_sublist fun state member => (suit state member).filled
      rw [listed] at sublist
      exact distinct.sublist sublist

/-! ## A project asked for twice, and a template asked for twice -/

/-- Directives for two files of a project, the second by the name of its main
branch, and for a remote file twice. -/
def groupedDirectives : List Include :=
  [.projectFiles "p" none ["a.yml"], .remote "http://h/x.yml",
    .projectFiles "p" (some "main") ["b.yml"], .remote "http://h/x.yml"]

theorem ofIncludes_fetches_grouped :
    ∃ states after,
      Interleaves Level.plainSources
        (Level.serving Level.plainSources "p" "main" "a.yml") Trail.root
        [] ((ofIncludes "main" groupedDirectives).map fun target =>
          (target, .waiting)) KeptFiles.emptyCheckout states after ∧
      (∀ state ∈ states, state.2.isFinished = true) ∧
      (∀ address, (states.filterMap (·.2.address?)).count address ≤
        Include.fetches address groupedDirectives) ∧
      (states.filterMap (·.2.filled?)).Nodup := by
  have completes : ∃ after, Completes Level.plainSources
      (Level.serving Level.plainSources "p" "main" "a.yml") Trail.root []
      (ofIncludes "main" groupedDirectives) KeptFiles.emptyCheckout after :=
    ⟨_, completes_of_isOk (by decide +kernel)⟩
  obtain ⟨after, states, interleaves, finished⟩ := completes
  obtain ⟨_, _, _, run⟩ :=
    ofIncludes_fetches Level.plainSources groupedDirectives
  exact ⟨states, after, interleaves, finished, run _ _ _ _ _ _ interleaves⟩

/-- A template that is asked for twice by its name is downloaded twice, and so
is one that is asked for by its address and then by its name. -/
theorem ofIncludes_repeats_template :
    let address := IncludeUrl.ofTemplate "T.yml"
    let targets := ofIncludes "main" [.template "T.yml", .template "T.yml"]
    targets = [.remote address, .remote address] ∧
      ofIncludes "main" [.remote address, .template "T.yml"] = targets ∧
      ∃ url, ∀ surroundings, perform surroundings
          (stage Trail.root
            (fun target () => Level.plainSources.plan Trail.root [] target)
            (targets.map fun target => (target, ()))) KeptFiles.emptyCheckout =
        (.ok [(.remote address, .download url address), (.remote
            address, .download url address)], KeptFiles.emptyCheckout) := by
  intro address targets
  have twice : targets = [.remote address, .remote address] := by decide
  have evaluated : (KeptFiles.emptyCheckout.files.has
        (Level.plainSources.remotePath address)).toOption = some false ∧
      (Url.read address).toOption.map Url.isWeb = some true := by
    decide +kernel
  obtain ⟨absent, isAddress⟩ := evaluated
  obtain ⟨url, isUrl, isWeb⟩ := Option.map_eq_some_iff.mp isAddress
  refine ⟨twice, by decide, url, ?_⟩
  intro surroundings
  rw [twice]
  refine perform_stage surroundings Trail.root ?_
  intro pair member
  obtain rfl : pair = (.remote address, ()) := by simpa using member
  exact perform_planRemote_of_absent (Sequencing.eq_ok_of_toOption absent)
    (Sequencing.eq_ok_of_toOption isUrl) (if_pos isWeb)

end Target

end CiPipeline
