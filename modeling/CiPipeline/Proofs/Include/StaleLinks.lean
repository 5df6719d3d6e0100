import CiPipeline.Proofs.Include.Archives
import CiPipeline.Proofs.Include.Plans
import CiPipeline.Proofs.Include.Preparation

/-!
# Links that are left over

The folder of a project may be a link that was made for another table of
checkouts.  Bringing the project to its place replaces the link, unless all
files that are asked for are found through it: then nothing is done, and what
the link stands for is what is read.
-/

namespace CiPipeline

open CiPipeline.Action CiPipeline.Archives CiPipeline.Confinement
open CiPipeline.FileTree CiPipeline.Files CiPipeline.IncludeSources

namespace StaleLinks

variable {sources : IncludeSources} {surroundings : Surroundings}
  {project ref : String} {names : List String}

/-- A path that names a link which the way to it does not lead through. -/
def EndsInLink (files : Files) (path : String) : Prop :=
  ∃ location target, files.entry path = .ok (.found location (.link target)) ∧
    (files.put location none).slot path = .ok (.missing location)

/-- Whether the files that are asked for are there and are not fetched anew. -/
def Fresh (sources : IncludeSources) (project ref : String)
    (names : List String) (files : Files) : Prop :=
  sources.cache.refetches = false ∧
    ∀ name ∈ names, files.has (sources.projectFile project ref name) = .ok true

/-- Whether the folder of a project stands for the checkout that the project has
now, or holds the files that are asked for if the project has none. -/
def Current (sources : IncludeSources) (project ref : String)
    (names : List String) (files : Files) : Prop :=
  match sources.checkouts.folder? project with
  | some checkout =>
      ∃ location, files.entry (sources.refFolder project ref) =
        .ok (.found location (.link checkout))
  | none =>
      (∃ location entries, files.entry (sources.refFolder project ref) =
        .ok (.found location (.folder entries))) ∧
      ∀ name ∈ names,
        files.has (sources.projectFile project ref name) = .ok true

/-- An archive command that leaves the folder of a project a folder, and that
has extracted all files that are asked for when it ends with code zero. -/
structure Extracts (sources : IncludeSources) (surroundings : Surroundings)
    (project ref : String) (names : List String) : Prop where
  folder : ∀ before location entries,
    before.entry (sources.refFolder project ref) =
      .ok (.found location (.folder entries)) →
    ∃ place others,
      (surroundings.run (archiveCommand sources project ref names)
        before).2.entry
        (sources.refFolder project ref) = .ok (.found place (.folder others))
  extracted : ∀ before output after,
    surroundings.run (archiveCommand sources project ref names) before =
      (.ok output, after) →
    output.code = 0 →
    ∀ name ∈ names, after.has (sources.projectFile project ref name) = .ok true

/-! ## Replacing a link -/

section

variable {before after : Files} {path : String}

/-- Clearing a path that ends in a link removes the link, and nothing else. -/
theorem slot_of_gives_clear (linked : EndsInLink before path)
    (success : Gives (do IncludeCache.unlinkStale path; IncludeCache.clear path)
      before () after) :
    ∃ location, after.slot path = .ok (.missing location) := by
  obtain ⟨location, target, entry, absent⟩ := linked
  have bare := bare_of_entry_link entry
  obtain ⟨_, between, unlinked, cleared⟩ := gives_bind_iff.mp success
  have removed : between = before.put location none := by
    rcases IncludeCache.of_gives_unlinkStale unlinked with
      ⟨place, found, located, _, equal⟩ | ⟨notLinked, _⟩
    · cases entry.symm.trans located
      exact equal
    · unfold hasLink at notLinked
      rw [entry] at notLinked
      cases notLinked
  rw [removed] at cleared
  have nothing := has_of_missing bare absent
  rcases IncludeCache.of_gives_clear cleared with ⟨present, _⟩ | ⟨_, same⟩
  · cases nothing.symm.trans present
  · exact ⟨location, same ▸ absent⟩

end

variable {workspace after : Workspace}

/-- A checkout is linked where nothing was left. -/
theorem current_of_fill_link {checkout : String}
    (folder : sources.checkouts.folder? project = some checkout)
    (filled : perform surroundings
      (sources.fill (.link project ref checkout)) workspace =
      (.ok (), after)) : Current sources project ref names after.files := by
  obtain ⟨location, absent, bare, equal⟩ :=
    slot_of_gives_link (gives_of_perform_change filled)
  unfold Current
  rw [folder, equal]
  exact ⟨location, entry_put_of_missing bare absent (.link checkout)⟩

/-- Files are extracted into a new folder where nothing was left. -/
theorem current_of_fill_extract
    (folder : sources.checkouts.folder? project = none)
    (extracts : Extracts sources surroundings project ref names)
    (bare : Path.endsWithSlash (sources.refFolder project ref) = false)
    (cleared : ∃ location,
      workspace.files.slot (sources.refFolder project ref) =
        .ok (.missing location))
    (filled : perform surroundings
      (sources.fill (.extract true project ref names)) workspace =
      (.ok (), after)) : Current sources project ref names after.files := by
  obtain ⟨location, absent⟩ := cleared
  obtain ⟨_, between, created, extracted⟩ := perform_bind_eq_ok_iff.mp filled
  have made := gives_of_perform_change created
  unfold Gives at made
  rw [run_createFolders_of_missing absent] at made
  have standing : between.files.entry (sources.refFolder project ref) =
      .ok (.found location (.folder [])) := by
    rw [← (Prod.mk.inj made).2]
    exact entry_put_of_missing bare absent .empty
  obtain ⟨output, ran, zero⟩ := of_perform_extract extracted
  unfold Current
  rw [folder]
  constructor
  · have stays := extracts.folder between.files location [] standing
    rw [ran] at stays
    exact stays
  · exact extracts.extracted between.files output after.files ran zero

/-- Bringing a project to its place when its folder is a link that is left over:
nothing is done if the files that are asked for are found through the link, and
otherwise the folder is what the checkouts of the project make of it now. -/
theorem prepare_linked {trail : Trail} {filled nowFilled : Filled}
    (unfilled : filled.contains (project, ref) = false)
    (linked : EndsInLink workspace.files (sources.refFolder project ref))
    (extracts : Extracts sources surroundings project ref names)
    (success : perform surroundings
      (sources.prepare trail filled [.project project ref names]) workspace =
        (.ok nowFilled, after)) :
    (Fresh sources project ref names workspace.files → after = workspace) ∧
      (¬ Fresh sources project ref names workspace.files →
        Current sources project ref names after.files) := by
  obtain ⟨task, planned, between, plan, cleared, done⟩ :=
    of_perform_prepare_singleton success
  obtain ⟨rfl, outcome⟩ := of_perform_planProject unfilled plan
  rcases outcome with ⟨rfl, refetches, present⟩ | ⟨rfl, stale⟩
  · cases cleared
    cases done
    constructor
    · intro _
      rfl
    · intro notFresh
      exact (notFresh ⟨refetches, present⟩).elim
  · constructor
    · rintro ⟨kept, present⟩
      rcases stale with refetches | ⟨name, member, absent⟩
      · cases kept.symm.trans refetches
      · cases (present name member).symm.trans absent
    · intro _
      unfold renewal at cleared done
      cases folder : sources.checkouts.folder? project with
      | some checkout =>
          rw [folder] at done
          exact current_of_fill_link folder done
      | none =>
          rw [folder] at cleared done
          have bare := bare_of_entry_link linked.choose_spec.choose_spec.1
          have removed :=
            slot_of_gives_clear linked (gives_of_perform_change cleared)
          exact current_of_fill_extract folder extracts bare removed done

/-! ## A link that is replaced, and one that is kept -/

private theorem extracts_archiving (held : List (String × String)) :
    Extracts sources (archiving sources project ref putMissing held) project ref
      names := by
  constructor
  · intro before location entries folder
    rcases run_archiving (Prod.eta _).symm with
      ⟨name, content, _, _, extracted⟩ | ⟨_, same⟩
    · obtain ⟨place, absent, equal⟩ := of_run_putMissing extracted
      obtain ⟨others, stays⟩ :=
        entry_folder_put folder (at?_of_missing absent) _
      rw [equal]
      exact ⟨location, others, stays⟩
    · rw [same]
      exact ⟨location, entries, folder⟩
  · intro before output after ran zero
    exact has_of_run_archiving ran zero

/-- A folder of a project that is a link to a checkout in which there
is one file. -/
def leftOverFiles : Files where
  root := .folder [
    ("old", .folder [("a.yml", .file "".toUTF8)]),
    ("app", .folder
      [(".gitlab-ci-local", .folder [("includes", .folder [("gitlab.com",
      .folder [("ci", .folder [("main", .link "/old")])])])])])]

/-- Where that link stands. -/
def leftOverPlace : List String :=
  ["app", ".gitlab-ci-local", "includes", "gitlab.com", "ci", "main"]

/-- Surroundings in which the archive of that project holds one file. -/
def oneFile (checkouts : Checkouts) (name : String) : Surroundings :=
  archiving (sourcesWith checkouts) "ci" "main" putMissing [(name, "")]

/-- The checkouts do not matter for where the folder of a project is. -/
theorem refFolder_sourcesWith (checkouts : Checkouts) (project ref : String) :
    (sourcesWith checkouts).refFolder project ref =
      (sourcesWith {}).refFolder project ref := rfl

private theorem projectFile_sourcesWith (checkouts : Checkouts)
    (project ref name : String) :
    (sourcesWith checkouts).projectFile project ref name =
      (sourcesWith {}).projectFile project ref name := rfl

/-- What is found through the link, where it stands, and what a file that is
missing behind it comes to. -/
theorem evaluated_leftOver :
    (match leftOverFiles.entry ((sourcesWith {}).refFolder "ci" "main") with
      | .ok (.found location (.link target)) =>
          location == leftOverPlace && target == "/old"
      | _ => false) = true ∧
    (match (leftOverFiles.put leftOverPlace none).slot
        ((sourcesWith {}).refFolder "ci" "main") with
      | .ok (.missing location) => location == leftOverPlace
      | _ => false) = true ∧
    (leftOverFiles.has
      ((sourcesWith {}).projectFile "ci" "main" "a.yml")).toOption = some true ∧
    (leftOverFiles.has ((sourcesWith {}).projectFile "ci" "main"
      "b.yml")).toOption = some false ∧
    (perform (oneFile {} "b.yml")
      ((sourcesWith {}).prepare Trail.root [] [.project "ci" "main" ["b.yml"]])
      { files := leftOverFiles }).1.isOk = true := by
  decide +kernel

private theorem entry_leftOver (checkouts : Checkouts) :
    leftOverFiles.entry ((sourcesWith checkouts).refFolder "ci" "main") =
      .ok (.found leftOverPlace (.link "/old")) := by
  have linked := evaluated_leftOver.1
  split at linked
  · rename_i location target located
    simp only [Bool.and_eq_true, beq_iff_eq] at linked
    rw [linked.1, linked.2] at located
    rw [refFolder_sourcesWith]
    exact located
  · cases linked

private theorem endsInLink_leftOver (checkouts : Checkouts) :
    EndsInLink leftOverFiles
      ((sourcesWith checkouts).refFolder "ci" "main") := by
  have absent := evaluated_leftOver.2.1
  refine ⟨leftOverPlace, "/old", entry_leftOver checkouts, ?_⟩
  rw [refFolder_sourcesWith]
  split at absent
  · rename_i location located
    rw [beq_iff_eq.mp absent] at located
    exact located
  · cases absent

theorem prepare_linked_extracted :
    ∃ nowFilled after,
      perform (oneFile {} "b.yml")
          ((sourcesWith {}).prepare Trail.root []
            [.project "ci" "main" ["b.yml"]]) { files := leftOverFiles } =
          (.ok nowFilled, after) ∧
        Current (sourcesWith {}) "ci" "main" ["b.yml"] after.files := by
  obtain ⟨_, _, _, missing, succeeds⟩ := evaluated_leftOver
  rcases success : perform (oneFile {} "b.yml")
    ((sourcesWith {}).prepare Trail.root [] [.project "ci" "main" ["b.yml"]])
    { files := leftOverFiles } with ⟨failure | nowFilled, after⟩
  · rw [success] at succeeds
    cases succeeds
  · have notFresh :
        ¬ Fresh (sourcesWith {}) "ci" "main" ["b.yml"] leftOverFiles := by
      rintro ⟨_, present⟩
      rw [present "b.yml" (by simp)] at missing
      cases missing
    refine ⟨nowFilled, after, rfl, (prepare_linked ?_ ?_ ?_ success).2 notFresh⟩
    · decide
    · exact endsInLink_leftOver {}
    · exact extracts_archiving [("b.yml", "")]

/-- A link that is left over is kept, although the project has another checkout
now, when the file that is asked for is found through it. -/
theorem prepare_keeps_leftOver :
    EndsInLink leftOverFiles
      ((sourcesWith ⟨[("ci", "/new")]⟩).refFolder "ci" "main") ∧
      ∃ nowFilled after,
        perform (oneFile ⟨[("ci", "/new")]⟩ "a.yml")
            ((sourcesWith ⟨[("ci", "/new")]⟩).prepare Trail.root []
              [.project "ci" "main" ["a.yml"]])
            { files := leftOverFiles } = (.ok nowFilled, after) ∧
        ¬ Current (sourcesWith ⟨[("ci", "/new")]⟩) "ci" "main"
            ["a.yml"] after.files := by
  have present : leftOverFiles.has
      ((sourcesWith ⟨[("ci", "/new")]⟩).projectFile "ci" "main" "a.yml") =
      .ok true := by
    rw [projectFile_sourcesWith]
    exact Sequencing.eq_ok_of_toOption evaluated_leftOver.2.2.1
  refine ⟨endsInLink_leftOver _, _, _,
    perform_prepare _ rfl Trail.root [] ?_, ?_⟩
  · intro target member path asked
    cases List.mem_singleton.mp member
    cases List.mem_singleton.mp asked
    exact present
  · rintro ⟨location, linked⟩
    have same := (entry_leftOver ⟨[("ci", "/new")]⟩).symm.trans linked
    simp at same

end StaleLinks

end CiPipeline
