import CiPipeline.Proofs.Download
import CiPipeline.Proofs.Include.Separation

/-!
# Steps of targets

What one step of a target does to the files, and what stands at its
place afterwards.
-/

namespace CiPipeline

open CiPipeline.Action CiPipeline.Confinement CiPipeline.FileTree
  CiPipeline.Files
open CiPipeline.IncludeSources

namespace Level

/-! ## Steps of local files -/

variable {level : Level} {target : Target} {phase next : Phase}
  {workspace after : Workspace}

/-- Where nothing has to be done, nothing is done. -/
theorem of_advance_nothing (idle : phase.task? = some .nothing)
    (success : perform level.surroundings
      (level.sources.advance level.trail level.filled target phase) workspace =
        (.ok next, after)) :
    after = workspace ∧ next.task? = some .nothing := by
  cases phase with
  | waiting => cases idle
  | planned task =>
      cases idle
      cases success
      exact ⟨rfl, rfl⟩
  | cleared task =>
      cases idle
      cases success
      exact ⟨rfl, rfl⟩
  | opened task =>
      cases idle
      cases success
      exact ⟨rfl, rfl⟩
  | finished task =>
      cases idle
      cases success
      exact ⟨rfl, rfl⟩

/-- The location of a target is the one that its path spells at any time. -/
theorem Holds.place_eq (holds : level.Holds target workspace.files) :
    workspace.files.spelled (target.path level.sources) = level.place target :=
  spelled_of_here holds.here _

private theorem of_advance_waiting
    (success : perform level.surroundings
      (level.sources.advance level.trail level.filled target .waiting)
      workspace = (.ok next, after)) :
    ∃ task, next = .planned task ∧
      perform level.surroundings
        (level.sources.plan level.trail level.filled target) workspace =
        (.ok task, after) := by
  obtain ⟨task, between, planned, rest⟩ := perform_bind_eq_ok_iff.mp success
  cases rest
  exact ⟨task, rfl, planned⟩

theorem of_advance_localFile {declared : String}
    (named : Named (level.sources.localPath declared))
    (holds : level.Holds (.localFile declared) workspace.files)
    (describes : level.DescribesLocal declared phase
      (workspace.files.root.at? (level.place (.localFile declared))))
    (success : perform level.surroundings
      (level.sources.advance level.trail level.filled (.localFile declared)
        phase) workspace = (.ok next, after)) :
    after.files = workspace.files ∧
      level.DescribesLocal declared next
        (workspace.files.root.at? (level.place (.localFile declared))) := by
  cases known : phase.task? with
  | none =>
      cases phase with
      | waiting =>
          obtain ⟨task, rfl, planned⟩ := of_advance_waiting success
          obtain ⟨rfl, rfl, has⟩ := of_perform_plan_localFile planned
          have direct : after.files.Direct (level.sources.localPath declared) :=
            holds.direct
          have place : after.files.spelled (level.sources.localPath declared) =
              level.place (.localFile declared) := holds.place_eq
          have unlinked := holds.unlinked rfl
          rw [← place] at unlinked ⊢
          obtain ⟨stands, reachable⟩ := direct.of_has named unlinked has
          refine ⟨rfl, ?_⟩
          rintro _ ⟨rfl⟩
          exact ⟨rfl, reachable rfl, stands⟩
      | _ => cases known
  | some task =>
      obtain ⟨rfl, reachable, stands⟩ := describes task known
      obtain ⟨rfl, idle⟩ := of_advance_nothing known success
      refine ⟨rfl, ?_⟩
      intro task still
      cases idle.symm.trans still
      exact ⟨rfl, reachable, stands⟩

/-! ## Steps of remote files -/

private theorem of_perform_attempt {surroundings : Surroundings} {address : Url}
    {retries : Nat} {content : ByteArray}
    (success : perform surroundings (Download.attempt address retries)
      workspace = (.ok content, after)) :
    after.files = workspace.files ∧ ∃ count status,
      surroundings.request address count = .answered status (some content) ∧
        Http.isSuccess status = true := by
  obtain ⟨count, _, performed⟩ := Download.perform_attempt address retries
  obtain ⟨settled, rfl⟩ := Prod.mk.inj (performed.symm.trans success)
  refine ⟨rfl, ?_⟩
  generalize outcome :
    workspace.outcomes surroundings address (count - 1) = last at settled
  cases Download.settles_iff.mpr settled.symm with
  | arrived low high =>
      exact ⟨_, _, outcome, Http.isSuccess_iff.mpr ⟨low, high⟩⟩

section

variable {address : String}

/-- A remote file that is downloaded is stored at its place. -/
theorem stored_of_complete {url : Url} (isUrl : Url.read address = .ok url)
    (named : Named (level.sources.remotePath address))
    (stale : ¬ level.Fresh address)
    (holds : level.Holds (.remote address) workspace.files)
    (success : perform level.surroundings (level.sources.complete
      (.download url address)) workspace = (.ok (), after)) :
    level.Effect (.remote address) workspace.files after.files ∧
      level.Stored address
        (after.files.root.at? (level.place (.remote address))) ∧
      Reachable (level.sources.remotePath address) := by
  obtain ⟨content, between, attempted, changed⟩ :=
    perform_bind_eq_ok_iff.mp success
  obtain ⟨same, count, status, answered, isSuccess⟩ :=
    of_perform_attempt (perform_tryCatch_throw_eq_ok_iff.mp attempted)
  have isBody : level.IsBody address content :=
    ⟨url, count, status, isUrl, answered, isSuccess⟩
  have storing := gives_of_perform_change changed
  rw [same] at storing
  have direct : workspace.files.Direct (level.sources.remotePath address) :=
    holds.direct
  have place : workspace.files.spelled (level.sources.remotePath address) =
      level.place (.remote address) := holds.place_eq
  have unlinked := holds.unlinked rfl
  rw [← place] at unlinked
  obtain ⟨reshapes, stands, reachable, notFolder⟩ :=
    IncludeCache.reshapes_store direct named unlinked storing
  rw [place] at reshapes stands notFolder
  refine ⟨.stored rfl stale isBody reshapes stands notFolder,
    ⟨stale, content, isBody, ?_⟩, reachable⟩
  rw [stands]
  exact .refl _

/-- A remote file is fresh when it stood at its place from the start. -/
theorem fresh_of_kept
    (direct : level.start.files.Direct (level.sources.remotePath address))
    (named : Named (level.sources.remotePath address))
    (unlinked : level.start.files.root.Unlinked (level.place (.remote address)))
    (kept : level.sources.cache.refetches = false) {entry : Option FileTree}
    (same : level.Kept (.remote address) entry) (stands : entry.isSome = true)
    (reachable : Reachable (level.sources.remotePath address)) :
    level.Fresh address := by
  refine ⟨kept, direct.has_of_isSome named unlinked reachable ?_⟩
  rw [same.isSome_eq] at stands
  exact stands

private theorem describes_of_planRemote {task : Task}
    (direct : level.start.files.Direct (level.sources.remotePath address))
    (named : Named (level.sources.remotePath address))
    (unlinked : level.start.files.root.Unlinked (level.place (.remote address)))
    (holds : level.Holds (.remote address) workspace.files)
    (untouched : level.Kept (.remote address)
        (workspace.files.root.at? (level.place (.remote address))) ∨
      level.Stored address
        (workspace.files.root.at? (level.place (.remote address))))
    (planned : perform level.surroundings (level.sources.planRemote address)
      workspace = (.ok task, after)) :
    after = workspace ∧ level.DescribesRemote address (.planned task)
      (workspace.files.root.at? (level.place (.remote address))) := by
  have now : workspace.files.Direct (level.sources.remotePath address) :=
    holds.direct
  have place : workspace.files.spelled (level.sources.remotePath address) =
      level.place (.remote address) := holds.place_eq
  have noLink := holds.unlinked rfl
  rw [← place] at noLink
  obtain ⟨same, ⟨rfl, kept, has⟩ | ⟨stale, url, isUrl, rfl⟩⟩ :=
    of_perform_planRemote planned
  · obtain ⟨stands, reachable⟩ := now.of_has named noLink has
    refine ⟨same, .settled (.inl rfl) (reachable rfl) ?_⟩
    rcases untouched with asBefore | stored
    · refine .inl ⟨?_, asBefore⟩
      refine fresh_of_kept direct named unlinked kept asBefore ?_
        (reachable rfl)
      rw [← place]
      exact stands
    · exact .inr stored
  · refine ⟨same, .due rfl rfl isUrl ?_ untouched⟩
    rintro ⟨kept, has⟩
    rcases stale with refetches | absent
    · cases kept.symm.trans refetches
    · obtain ⟨nothing, _⟩ := now.of_has named noLink absent
      rw [place] at nothing
      rcases untouched with asBefore | stored
      · have stood := (direct.of_has named unlinked has).1
        rw [asBefore.isSome_eq] at nothing
        cases nothing.symm.trans stood
      · exact stored.1 ⟨kept, has⟩

theorem of_advance_remote
    (direct : level.start.files.Direct (level.sources.remotePath address))
    (named : Named (level.sources.remotePath address))
    (unlinked : level.start.files.root.Unlinked (level.place (.remote address)))
    (holds : level.Holds (.remote address) workspace.files)
    (describes : level.DescribesRemote address phase
      (workspace.files.root.at? (level.place (.remote address))))
    (success : perform level.surroundings
      (level.sources.advance level.trail level.filled (.remote address) phase)
      workspace = (.ok next, after)) :
    level.Effect (.remote address) workspace.files after.files ∧
      level.DescribesRemote address next
        (after.files.root.at? (level.place (.remote address))) := by
  cases describes with
  | waiting untouched =>
      obtain ⟨task, rfl, planned⟩ := of_advance_waiting success
      obtain ⟨rfl, described⟩ :=
        describes_of_planRemote direct named unlinked holds untouched planned
      exact ⟨.idle rfl, described⟩
  | settled ended reachable settled =>
      rcases ended with idle | finished
      · obtain ⟨rfl, still⟩ := of_advance_nothing idle success
        exact ⟨.idle rfl, .settled (.inl still) reachable settled⟩
      · cases phase with
        | finished task =>
            cases success
            exact ⟨.idle rfl, .settled (.inr rfl) reachable settled⟩
        | _ => cases finished
  | due known open_ isUrl stale untouched =>
      cases phase with
      | waiting => cases known
      | finished task => cases open_
      | planned task =>
          cases known
          cases success
          exact ⟨.idle rfl, .due rfl rfl isUrl stale untouched⟩
      | cleared task =>
          cases known
          cases success
          exact ⟨.idle rfl, .due rfl rfl isUrl stale untouched⟩
      | opened task =>
          cases known
          obtain ⟨_, between, completed, rest⟩ :=
            perform_bind_eq_ok_iff.mp success
          cases rest
          obtain ⟨effect, stored, reachable⟩ :=
            stored_of_complete isUrl named stale holds completed
          exact ⟨effect, .settled (.inr rfl) reachable (.inr stored)⟩

end

/-! ## Steps of projects -/

section

variable {project ref : String} {names : List String}

theorem projectTask_cases (level : Level) (project ref : String)
    (names : List String) :
    level.projectTask project ref names = .nothing ∨
      (∃ checkout, level.projectTask project ref names =
        .link project ref checkout) ∨
      ∃ afresh files, level.projectTask project ref names =
        .extract afresh project ref files := by
  unfold projectTask IncludeSources.renewal
  split
  · split
    · exact .inl rfl
    · exact .inr (.inr ⟨false, _, rfl⟩)
  · split
    · exact .inl rfl
    · cases level.sources.checkouts.folder? project with
      | none => exact .inr (.inr ⟨true, names, rfl⟩)
      | some checkout => exact .inr (.inl ⟨checkout, rfl⟩)

private theorem mem_missing {name : String} :
    name ∈ level.missing project ref names ↔ name ∈ names ∧
      level.start.files.has (level.sources.projectFile project ref name) ≠
        .ok true := by
  unfold missing
  rw [List.mem_filter]
  cases level.start.files.has (level.sources.projectFile project ref name) <;>
    simp [Except.toOption]

/-- Where looking for the files of a project succeeds, those are missing that
were at the start. -/
theorem filter_missing_eq
    (steady : ∀ name ∈ names, level.Steady project ref names name)
    (holds : level.Holds (.project project ref names) workspace.files)
    (kept : level.Kept (.project project ref names)
      (workspace.files.root.at? (level.place (.project project ref names))))
    (each : ∀ name ∈ names, ∃ present,
      workspace.files.has (level.sources.projectFile project ref name) =
        .ok present) :
    (names.filter fun name => (workspace.files.has
      (level.sources.projectFile project ref name)).toOption != some true) =
        level.missing project ref names := by
  unfold Level.missing
  refine List.filter_congr ?_
  intro name member
  obtain ⟨present, has⟩ := each name member
  have reading :=
    steady name member workspace.files holds.here holds.beside kept present has
  rw [has]
  cases present with
  | true => rw [reading.mp rfl]
  | false =>
      cases stood : level.start.files.has
          (level.sources.projectFile project ref name) with
      | error error => rfl
      | ok value =>
          cases value with
          | true => cases reading.mpr stood
          | false => rfl

/-- The folder of a project is a link as long as it is kept exactly if it was
one at the start. -/
theorem hasLink_eq
    (direct : level.start.files.Direct (level.sources.refFolder project ref))
    (named : Named (level.sources.refFolder project ref))
    (holds : level.Holds (.project project ref names) workspace.files)
    (kept : level.Kept (.project project ref names)
      (workspace.files.root.at? (level.place (.project project ref names)))) :
    workspace.files.hasLink (level.sources.refFolder project ref) =
      level.start.files.hasLink (level.sources.refFolder project ref) := by
  have now : workspace.files.Direct (level.sources.refFolder project ref) :=
    holds.direct
  have place : workspace.files.spelled (level.sources.refFolder project ref) =
      level.place (.project project ref names) := holds.place_eq
  rw [Bool.eq_iff_iff, now.hasLink_iff named, direct.hasLink_iff named, place]
  constructor
  · rintro ⟨reachable, target, linked⟩
    exact ⟨reachable, target, kept.eq_link linked⟩
  · rintro ⟨reachable, target, linked⟩
    exact ⟨reachable, target, kept.symm.eq_link linked⟩

/-- What is planned for a project is what has to be done, judged by what is
there at the start. -/
theorem task_of_planProject {task : Task}
    (direct : level.start.files.Direct (level.sources.refFolder project ref))
    (named : Named (level.sources.refFolder project ref))
    (steady : ∀ name ∈ names, level.Steady project ref names name)
    (holds : level.Holds (.project project ref names) workspace.files)
    (kept : level.Kept (.project project ref names)
      (workspace.files.root.at? (level.place (.project project ref names))))
    (planned : perform level.surroundings
      (level.sources.planProject level.filled project ref names) workspace =
      (.ok task, after)) :
    after = workspace ∧ task = level.projectTask project ref names := by
  have reading {name : String} (member : name ∈ names) {present : Bool}
      (has : workspace.files.has (level.sources.projectFile project ref name) =
        .ok present) :
      present = true ↔
        level.start.files.has (level.sources.projectFile project ref name) =
          .ok true :=
    steady name member workspace.files holds.here holds.beside kept present has
  unfold projectTask
  cases known : level.filled.contains (project, ref) with
  | true =>
      obtain ⟨same, missing, read, rfl⟩ :=
        of_perform_planProject_filled known planned
      obtain ⟨_, each, rfl⟩ := of_perform_missingFiles read
      refine ⟨same, ?_⟩
      rw [if_pos rfl, filter_missing_eq steady holds kept each,
        hasLink_eq direct named holds kept]
  | false =>
      obtain ⟨same, ⟨rfl, refetches, present⟩ | ⟨rfl, stale⟩⟩ :=
        of_perform_planProject known planned
      · have none : level.missing project ref names = [] := by
          rw [List.eq_nil_iff_forall_not_mem]
          intro name member
          obtain ⟨asked, absent⟩ := mem_missing.mp member
          exact absent ((reading asked (present name asked)).mp rfl)
        refine ⟨same, ?_⟩
        rw [if_neg (by simp), if_pos ⟨refetches, none⟩]
      · have some : ¬ (level.sources.cache.refetches = false ∧
            level.missing project ref names = []) := by
          rintro ⟨refetches, none⟩
          rcases stale with alsoRefetches | ⟨name, asked, absent⟩
          · cases refetches.symm.trans alsoRefetches
          · have member : name ∈ level.missing project ref names := by
              refine mem_missing.mpr ⟨asked, ?_⟩
              intro present
              cases (reading asked absent).mpr present
            rw [none] at member
            cases member
        refine ⟨same, ?_⟩
        rw [if_neg (by simp), if_neg some]

/-- Removing what is in the way changes nothing but the folder of
the project. -/
theorem of_clear_project {task : Task}
    (named : Named (level.sources.refFolder project ref))
    (isTask : task = level.projectTask project ref names)
    (holds : level.Holds (.project project ref names) workspace.files)
    (kept : level.Kept (.project project ref names)
      (workspace.files.root.at? (level.place (.project project ref names))))
    (success : perform level.surroundings (level.sources.clear task) workspace =
      (.ok (), after)) :
    level.Effect (.project project ref names) workspace.files after.files ∧
      Alike (after.files.root.at? (level.place (.project project ref names)))
        (vacated (level.found (.project project ref names)) task) := by
  have direct : workspace.files.Direct (level.sources.refFolder project ref) :=
    holds.direct
  have place : workspace.files.spelled (level.sources.refFolder project ref) =
      level.place (.project project ref names) := holds.place_eq
  rcases projectTask_cases level project ref names with
    nothing | ⟨checkout, link⟩ | ⟨afresh, files, extract⟩
  · rw [isTask, nothing] at success ⊢
    cases success
    exact ⟨.idle rfl, kept⟩
  · have pending : level.Pending (.project project ref names) := by
      intro nothing
      cases nothing.symm.trans link
    rw [isTask, link] at success ⊢
    obtain ⟨reshapes, absent⟩ := IncludeCache.reshapes_replacement direct named
      holds.orderly (gives_of_perform_change success)
    rw [place] at reshapes absent
    refine ⟨.project rfl pending reshapes, ?_⟩
    rw [absent]
    exact .refl none
  · have pending : level.Pending (.project project ref names) := by
      intro nothing
      cases nothing.symm.trans extract
    rw [isTask, extract] at success ⊢
    cases afresh with
    | false =>
        cases success
        exact ⟨.idle rfl, kept⟩
    | true =>
        obtain ⟨reshapes, absent⟩ := IncludeCache.reshapes_removal direct named
          holds.orderly (gives_of_perform_change success)
        rw [place] at reshapes absent
        refine ⟨.project rfl pending reshapes, ?_⟩
        rw [absent]
        exact .refl none

/-- Making the folder of a project anew leaves it empty. -/
theorem of_reopen_project {task : Task}
    (named : Named (level.sources.refFolder project ref))
    (isTask : task = level.projectTask project ref names)
    (holds : level.Holds (.project project ref names) workspace.files)
    (left : Alike (workspace.files.root.at?
      (level.place (.project project ref names)))
      (vacated (level.found (.project project ref names)) task))
    (success : perform level.surroundings (level.sources.reopen task)
      workspace = (.ok (), after)) :
    level.Effect (.project project ref names) workspace.files after.files ∧
      Alike (after.files.root.at? (level.place (.project project ref names)))
        (reopened (level.found (.project project ref names)) task) := by
  have direct : workspace.files.Direct (level.sources.refFolder project ref) :=
    holds.direct
  have place : workspace.files.spelled (level.sources.refFolder project ref) =
      level.place (.project project ref names) := holds.place_eq
  rcases projectTask_cases level project ref names with
    nothing | ⟨checkout, link⟩ | ⟨afresh, files, extract⟩
  · rw [isTask, nothing] at success left ⊢
    cases success
    exact ⟨.idle rfl, left⟩
  · rw [isTask, link] at success left ⊢
    cases success
    exact ⟨.idle rfl, left⟩
  · have pending : level.Pending (.project project ref names) := by
      intro nothing
      cases nothing.symm.trans extract
    rw [isTask, extract] at success left ⊢
    cases afresh with
    | false =>
        cases success
        exact ⟨.idle rfl, left⟩
    | true =>
        have absent := left.eq_none
        have creating :
            Gives (createFolders (level.sources.refFolder project ref))
            workspace.files () after.files :=
          gives_of_perform_change success
        rw [← place] at absent
        have builds := direct.builds_createFolders creating
        have empty := direct.empty_of_createFolders named absent creating
        rw [place] at empty
        have reshapes := builds.reshapes
        rw [place] at reshapes
        exact ⟨.project rfl pending reshapes, empty⟩

/-- The folder of a project is completed only if it is no link. -/
theorem not_hasLink_of_extract {files : List String}
    (extract : level.projectTask project ref names =
      .extract false project ref files) :
    level.start.files.hasLink (level.sources.refFolder project ref) =
      false := by
  unfold projectTask IncludeSources.renewal at extract
  split at extract
  · split at extract
    · cases extract
    · rename_i busy
      simp only [Bool.or_eq_true, not_or, Bool.not_eq_true] at busy
      exact busy.2
  · split at extract
    · cases extract
    · split at extract <;> cases extract

/-- There is a folder at the place of a project when files are
extracted into it. -/
theorem folder_of_hasFolder {afresh : Bool} {files : List String}
    (named : Named (level.sources.refFolder project ref))
    (start : level.start.files.Direct (level.sources.refFolder project ref))
    (extract : level.projectTask project ref names = .extract afresh project ref
      files) (holds : level.Holds (.project project ref names) workspace.files)
    (left : Alike (workspace.files.root.at?
      (level.place (.project project ref names))) (reopened (level.found
        (.project project ref names)) (.extract afresh project ref files)))
    (hasFolder :
      workspace.files.hasFolder (level.sources.refFolder project ref) = true) :
    (workspace.files.root.at? (level.place (.project project ref names))).map
        kind = some .folder := by
  cases afresh with
  | true => exact left.kind_eq
  | false =>
      have direct : workspace.files.Direct
        (level.sources.refFolder project ref) := holds.direct
      have place :
          workspace.files.spelled (level.sources.refFolder project ref) =
            level.place (.project project ref names) := holds.place_eq
      rw [← place]
      refine direct.folder_of_hasFolder named ?_ hasFolder
      rw [place]
      intro target linked
      have stood := left.eq_link linked
      have reachable : Reachable (level.sources.refFolder project ref) := by
        unfold Files.hasFolder at hasFolder
        rw [named.target] at hasFolder
        split at hasFolder
        · rename_i located
          exact direct.reachable located
        · cases hasFolder
      have hasLink := (start.hasLink_iff named).mpr ⟨reachable, target, stood⟩
      cases (not_hasLink_of_extract extract).symm.trans hasLink

/-- Filling the folder of a project makes of it what the task says. -/
theorem of_complete_project {task : Task} (answers : level.Answers)
    (member : .project project ref names ∈ level.targets)
    (start : level.start.files.Direct (level.sources.refFolder project ref))
    (named : Named (level.sources.refFolder project ref))
    (isTask : task = level.projectTask project ref names)
    (holds : level.Holds (.project project ref names) workspace.files)
    (left : Alike (workspace.files.root.at?
      (level.place (.project project ref names)))
      (reopened (level.found (.project project ref names)) task))
    (success : perform level.surroundings (level.sources.complete task)
      workspace = (.ok (), after)) :
    level.Effect (.project project ref names) workspace.files after.files ∧
      level.Completed (.project project ref names)
        (reopened (level.found (.project project ref names)) task)
        (after.files.root.at? (level.place (.project project ref names)))
        task := by
  have direct : workspace.files.Direct (level.sources.refFolder project ref) :=
    holds.direct
  have place : workspace.files.spelled (level.sources.refFolder project ref) =
      level.place (.project project ref names) := holds.place_eq
  rcases projectTask_cases level project ref names with
    nothing | ⟨checkout, link⟩ | ⟨afresh, files, extract⟩
  · rw [isTask, nothing] at success left ⊢
    cases success
    exact ⟨.idle rfl, left⟩
  · have pending : level.Pending (.project project ref names) := by
      intro nothing
      cases nothing.symm.trans link
    rw [isTask, link] at success ⊢
    obtain ⟨reshapes, linked⟩ :=
      IncludeCache.reshapes_link direct named (gives_of_perform_change success)
    rw [place] at reshapes linked
    refine ⟨.project rfl pending reshapes, ?_⟩
    rw [linked]
    exact .refl _
  · have pending : level.Pending (.project project ref names) := by
      intro nothing
      cases nothing.symm.trans extract
    rw [isTask, extract] at success left ⊢
    obtain ⟨output, ran, zero⟩ := of_perform_extract success
    have hasFolder :=
      answers.folder project ref names files _ output _ member ran zero
    have folder := folder_of_hasFolder named start extract holds left hasFolder
    rw [← place] at folder
    have extraction :=
      answers.extracts project ref names files _ output _ member ran zero folder
    rw [place] at extraction folder
    refine ⟨.project rfl pending
      ⟨extraction.here, extraction.orderly, extraction.same.makesWay⟩, ?_⟩
    exact ⟨workspace.files, output, after.files, holds.here, left, folder, ran,
      zero, extraction.folder, .refl _⟩

theorem of_advance_project (answers : level.Answers)
    (member : .project project ref names ∈ level.targets)
    (start : level.start.files.Direct (level.sources.refFolder project ref))
    (named : Named (level.sources.refFolder project ref))
    (steady : ∀ name ∈ names, level.Steady project ref names name)
    (holds : level.Holds (.project project ref names) workspace.files)
    (describes : level.DescribesProject project ref names
      (workspace.files.root.at? (level.place (.project project ref names)))
      phase)
    (success : perform level.surroundings
      (level.sources.advance level.trail level.filled
        (.project project ref names) phase) workspace = (.ok next, after)) :
    level.Effect (.project project ref names) workspace.files after.files ∧
      level.DescribesProject project ref names
        (after.files.root.at? (level.place (.project project ref names)))
        next := by
  cases phase with
  | waiting =>
      obtain ⟨task, rfl, planned⟩ := of_advance_waiting success
      obtain ⟨rfl, isTask⟩ :=
        task_of_planProject start named steady holds describes planned
      exact ⟨.idle rfl, isTask, describes⟩
  | planned task =>
      obtain ⟨isTask, kept⟩ := describes
      obtain ⟨_, _, cleared, rest⟩ := perform_bind_eq_ok_iff.mp success
      cases rest
      obtain ⟨effect, left⟩ := of_clear_project named isTask holds kept cleared
      exact ⟨effect, isTask, left⟩
  | cleared task =>
      obtain ⟨isTask, left⟩ := describes
      obtain ⟨_, _, opened, rest⟩ := perform_bind_eq_ok_iff.mp success
      cases rest
      obtain ⟨effect, nowLeft⟩ :=
        of_reopen_project named isTask holds left opened
      exact ⟨effect, isTask, nowLeft⟩
  | opened task =>
      obtain ⟨isTask, left⟩ := describes
      obtain ⟨_, _, completed, rest⟩ := perform_bind_eq_ok_iff.mp success
      cases rest
      obtain ⟨effect, done⟩ :=
        of_complete_project answers member start named isTask holds
          left completed
      exact ⟨effect, isTask, done⟩
  | finished task =>
      cases success
      exact ⟨.idle rfl, describes⟩

end

end Level

end CiPipeline
