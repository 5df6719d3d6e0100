import CiPipeline.Proofs.Files.Effects
import CiPipeline.Proofs.Files.Emptying
import CiPipeline.Proofs.Include.ArchiveLine
import CiPipeline.Proofs.Shell.Reading

/-!
# Where archives are extracted

An archive is extracted by a command that runs in the checkout, into a folder
whose path is read from there.  The folder is cleared before and read afterwards
under the same path, from the folder that relative paths start from.
-/

namespace CiPipeline

open CiPipeline.Action CiPipeline.Confinement CiPipeline.FileTree
  CiPipeline.Files

/-! ## The command line -/

namespace IncludeSources

open CiPipeline.Shell

variable (sources : IncludeSources) (project ref : String)

/-- The address that the files of a project are asked for at. -/
def archiveAddress : String :=
  let remote := sources.repository.remote
  s!"ssh://git@{remote.host}:{remote.port}/{project}.git"

private theorem toList_archiveScript (names : List String) :
    (sources.archiveScript project ref names).toList =
      "git".toList ++ ' ' :: ("archive".toList ++ ' ' ::
        ("--remote=".toList ++
          (quote (sources.archiveAddress project)).toList ++ ' ' ::
          ((quote ref).toList ++ ' ' ::
            ((" ".intercalate
              ((names.map Include.dropSlashes).map quote)).toList ++ ' ' ::
              '|' :: ' ' :: ("tar".toList ++
                ' ' :: ("-f".toList ++ ' ' :: ("-".toList ++ ' ' ::
                ("-xC".toList ++ ' ' ::
                  (quote (sources.refFolder project ref)).toList)))))))) := by
  rw [archiveScript_eq, toList_archiveLine]
  rfl

/-- The command line asks for the files at the ref and extracts them into the
folder of the project at the ref, whatever these are called. -/
theorem readPipeline?_archiveScript (names : List String) :
    readPipeline? (sources.archiveScript project ref names) =
      some ["git" :: "archive" ::
        ("--remote=" ++ sources.archiveAddress project) :: ref ::
          names.map Include.dropSlashes,
        ["tar", "-f", "-", "-xC", sources.refFolder project ref]] := by
  have plain (word : String) (present : word.toList ≠ [])
      (ordinary : word.toList.all isOrdinary = true) :
      Spells word.toList word := by
    have spells := spells_ordinary present (List.all_eq_true.mp ordinary)
    rw [String.ofList_toList] at spells
    exact spells
  have address := (plain "--remote=" (by decide) (by decide)).append
    (spells_quote (sources.archiveAddress project))
  have git := plain "git" (by decide) (by decide)
  have archive := plain "archive" (by decide) (by decide)
  have tar := plain "tar" (by decide) (by decide)
  have file := plain "-f" (by decide) (by decide)
  have input := plain "-" (by decide) (by decide)
  have into := plain "-xC" (by decide) (by decide)
  have extraction :
      readLine? ('|' :: ' ' :: ("tar".toList ++ ' ' :: ("-f".toList ++ ' ' ::
      ("-".toList ++ ' ' :: ("-xC".toList ++ ' ' ::
        (quote (sources.refFolder project ref)).toList))))) =
      some [[], ["tar", "-f", "-", "-xC", sources.refFolder project ref]] := by
    rw [readLine?_bar, readLine?_blank, readLine?_word tar, readLine?_word file,
      readLine?_word input, readLine?_word into,
      readLine?_last (spells_quote _)]
    rfl
  rw [readPipeline?_eq, toList_archiveScript, readLine?_word git,
    readLine?_word archive, readLine?_word address,
    readLine?_word (spells_quote ref), readLine?_quotes _ extraction]
  simp [putWord]

end IncludeSources

/-! ## Reading a path from another folder -/

private theorem Path.isAbsolute_join_of_base {base : String}
    (absolute : isAbsolute base = true) (path : String) :
    isAbsolute (join base path) = true := by
  cases relative : isAbsolute path with
  | false => rw [isAbsolute_join base relative, absolute]
  | true =>
      unfold join
      rw [relative, Bool.true_or, if_pos rfl, relative]

namespace Files

variable {files : Files} {path : String} {place : List String}

/-- A path leads to the same place from another folder if it starts at the root,
or if that is the folder that relative paths start from. -/
theorem target_of_entered
    (same : Path.isAbsolute path = true ∨ place = files.here) :
    Files.target { files with here := place } path = files.target path := by
  rcases same with absolute | rfl
  · unfold target locate
    rw [absolute]
    rfl
  · rfl

private theorem Direct.slot_location (direct : files.Direct path)
    {destination : Destination} (success : files.slot path = .ok destination) :
    destination.location = files.spelled path := by
  have leads := direct.locate_leadsTo (by simp) success
  cases destination with
  | found location entry => exact leads.1
  | missing location => exact leads.1

/-- From two folders a relative path leads to two places, if it leads straight
down from both. -/
theorem location_ne_of_entered (relative : Path.isAbsolute path = false)
    (elsewhere : place ≠ files.here) (direct : files.Direct path)
    (entered : Direct { files with here := place } path)
    {first second : Destination} (outside : files.slot path = .ok first)
    (inside : Files.slot { files with here := place } path = .ok second) :
    second.location ≠ first.location := by
  rw [direct.slot_location outside, entered.slot_location inside]
  unfold spelled
  rw [relative]
  exact fun same => elsewhere (List.append_cancel_right same)

end Files

namespace IncludeSources

variable {sources : IncludeSources} {project ref : String}

private theorem isAbsolute_refFolder
    (absolute : Path.isAbsolute sources.cache.checkout = true) :
    Path.isAbsolute (sources.refFolder project ref) = true :=
  Path.isAbsolute_join_of_base (Path.isAbsolute_join_of_base
    (Path.isAbsolute_join_of_base (Path.isAbsolute_join_of_base
      (Path.isAbsolute_join_of_base absolute _) _) _) _) _

/-- Where an archive of some files is extracted.  The folder that is named in
the command line is read from the checkout, in which the command runs.  It is
cleared, and the files in it are loaded, under the same path read from the
folder that relative paths start from. -/
structure ExtractsIntoRefFolder (sources : IncludeSources)
    (project ref : String) (asked : List String) (files : Files) : Prop where
  reads : Shell.readPipeline? (sources.archiveScript project ref asked) =
    some ["git" :: "archive" ::
      ("--remote=" ++ sources.archiveAddress project) :: ref ::
        asked.map Include.dropSlashes,
      ["tar", "-f", "-", "-xC", sources.refFolder project ref]]
  starts : Path.isAbsolute sources.cache.checkout = true →
    Path.isAbsolute (sources.refFolder project ref) = true
  /-- The two readings agree on a path from the root, and in the folder that
  relative paths start from. -/
  agrees : ∀ place entry,
    files.target (archiveCommand sources project ref asked).folder =
      .ok (.found place entry) →
    Path.isAbsolute (sources.refFolder project ref) = true ∨
      place = files.here →
    Files.target { files with here := place } (sources.refFolder project ref) =
        files.target (sources.refFolder project ref) ∧
      ∀ name, Files.target { files with here := place }
        (sources.projectFile project ref name) =
        files.target (sources.projectFile project ref name)
  /-- In any other checkout they do not, as far as the path leads straight down
  from both. -/
  strays : ∀ place entry,
    files.target (archiveCommand sources project ref asked).folder =
      .ok (.found place entry) →
    Path.isAbsolute (sources.refFolder project ref) = false →
    place ≠ files.here →
    files.Direct (sources.refFolder project ref) →
    Files.Direct { files with here := place } (sources.refFolder project ref) →
    ∀ outside inside, files.slot (sources.refFolder project ref) = .ok outside →
      Files.slot { files with here := place } (sources.refFolder project ref) =
        .ok inside →
      inside.location ≠ outside.location

private theorem extractsIntoRefFolder (asked : List String) (files : Files) :
    ExtractsIntoRefFolder sources project ref asked files where
  reads := sources.readPipeline?_archiveScript project ref asked
  starts := isAbsolute_refFolder
  agrees := by
    intro place entry _ same
    refine ⟨Files.target_of_entered same, ?_⟩
    intro name
    refine Files.target_of_entered (same.imp_left ?_)
    exact fun absolute => Path.isAbsolute_join_of_base absolute _
  strays := by
    intro place entry _ relative elsewhere direct entered outside inside
      found foundInside
    exact Files.location_ne_of_entered relative elsewhere direct entered
      found foundInside

/-! ## Runs of archive commands -/

section

variable {surroundings : Surroundings} {workspace : Workspace} {filled : Filled}
  {names : List String}

/-- A command is run behind a change only where the change succeeds. -/
theorem gives_of_commands {Result : Type} {action : FileAction Unit}
    {next : Unit → Action Result}
    (ran : (perform surroundings (change action >>= next)
      workspace).2.commands ≠ workspace.commands) :
    ∃ files, Gives action workspace.files () files ∧
      perform surroundings (change action >>= next) workspace =
        perform surroundings (next ()) { workspace with files } := by
  rw [perform_bind, perform_change] at ran
  rw [perform_bind, perform_change]
  unfold Gives run
  rcases outcome : action.run.run workspace.files with ⟨error | _, files⟩
  · rw [outcome] at ran
    exact (ran rfl).elim
  · exact ⟨files, rfl, rfl⟩

/-- An archive is extracted beside the files of a folder that is filled, and
otherwise into one that has been cleared and created. -/
theorem archived_of_commands {trail : Trail}
    (ran : (perform surroundings
      (sources.prepare trail filled [.project project ref names])
      workspace).2.commands ≠ workspace.commands) :
    ∃ asked opened,
      (perform surroundings (sources.prepare trail filled
        [.project project ref names]) workspace).2 = { workspace with
            files := (surroundings.run
              (archiveCommand sources project ref asked) opened).2
            commands :=
              archiveCommand sources project ref asked :: workspace.commands } ∧
        if filled.contains (project, ref) then opened = workspace.files
        else ∃ cleared,
          IncludeCache.MadeAnew (sources.refFolder project ref) workspace.files
            cleared opened := by
  rcases workspace_of_prepare_project trail with same | ⟨task, planned, after⟩
  · exact (ran (congrArg Workspace.commands same)).elim
  rw [after] at ran ⊢
  cases known : filled.contains (project, ref) with
  | true =>
      rcases task_of_filled known planned with rfl | ⟨missing, rfl, _⟩
      · exact (ran rfl).elim
      · exact ⟨missing, workspace.files, perform_extract_workspace missing, rfl⟩
  | false =>
      rcases (of_perform_planProject known planned).2 with ⟨rfl, _⟩ | ⟨rfl, _⟩
      · exact (ran rfl).elim
      unfold renewal at ran ⊢
      cases folder : sources.checkouts.folder? project with
      | some checkout =>
          rw [folder] at ran
          dsimp only at ran
          rw [clear, fill] at ran
          obtain ⟨files, _, linked⟩ := gives_of_commands ran
          rw [linked, perform_change] at ran
          exact (ran rfl).elim
      | none =>
          rw [folder] at ran
          dsimp only at ran ⊢
          rw [clear, fill] at ran
          rw [clear, fill]
          obtain ⟨cleared, removal, onwards⟩ := gives_of_commands ran
          rw [onwards, if_pos rfl] at ran
          rw [onwards, if_pos rfl]
          obtain ⟨opened, creation, extraction⟩ := gives_of_commands ran
          rw [extraction, perform_extract_workspace]
          exact ⟨names, opened, rfl, cleared, ⟨removal, creation⟩⟩

/-- A command extracts an archive into the folder of the project, under the path
that the cache gives to it.  Unless the folder is filled already it is empty
then, as long as no step up in the path leads from a folder that is missing once
the folder has been cleared. -/
theorem prepare_extracts_refFolder {trail : Trail}
    (orderly : workspace.files.root.Orderly)
    (ran : (perform surroundings
      (sources.prepare trail filled [.project project ref names])
      workspace).2.commands ≠ workspace.commands) :
    ∃ asked opened,
      (perform surroundings (sources.prepare trail filled
        [.project project ref names]) workspace).2 = { workspace with
            files := (surroundings.run
              (archiveCommand sources project ref asked) opened).2
            commands :=
              archiveCommand sources project ref asked :: workspace.commands } ∧
        ExtractsIntoRefFolder sources project ref asked opened ∧
        if filled.contains (project, ref) then opened = workspace.files
        else ∃ cleared,
          IncludeCache.MadeAnew (sources.refFolder project ref) workspace.files
            cleared opened ∧
          (EndsBelow (sources.refFolder project ref) →
            cleared.ClimbsFromFolders (sources.refFolder project ref) →
            ∃ location, opened.target (sources.refFolder project ref) =
              .ok (.found location .empty)) := by
  obtain ⟨asked, opened, leaves, made⟩ := archived_of_commands ran
  refine ⟨asked, opened, leaves, extractsIntoRefFolder asked opened, ?_⟩
  split
  · rename_i known
    rw [if_pos known] at made
    exact made
  · rename_i unknown
    rw [if_neg unknown] at made
    obtain ⟨cleared, anew⟩ := made
    exact ⟨cleared, anew, anew.target orderly⟩

end

end IncludeSources

/-! ## A folder that is not found, and one that is not cleared -/

namespace ArchiveFolder

open CiPipeline.IncludeSources

/-- Sources of a checkout. -/
def sourcesIn (checkout : String) : IncludeSources where
  cache := { checkout, refetches := false }
  repository := {}
  checkouts := {}

/-- Surroundings in which every command ends well and does nothing. -/
def idleSurroundings : Surroundings where
  run := fun _ files => (.ok { text := "", code := 0 }, files)
  request := fun _ _ => .unreachable

/-- A checkout in the folder that relative paths start from, with a file of a
project in the cache. -/
def cachedCheckout : Workspace where
  files :=
    { root := .folder [(".gitlab-ci-local", .folder [("includes",
        .folder [("gitlab.com", .folder [("ci", .folder [("main",
          .folder [("a.yml", .file "a".toUTF8)])])])])])] }

/-- A checkout beside the other files. -/
def innerCheckout : Workspace where
  files := { root := .folder [("sub", .empty)] }

/-- What is left there when a file of the project is asked for. -/
def extracted (checkout ref : String) (names : List String)
    (workspace : Workspace) : Workspace :=
  (perform idleSurroundings
    ((sourcesIn checkout).prepare Trail.root [] [.project "ci" ref names])
    workspace).2

private theorem orderly_cachedCheckout : cachedCheckout.files.root.Orderly := by
  simp [cachedCheckout]

/-- The folder of the project is empty when another file is asked for. -/
theorem prepare_extracts_refFolder_cached :
    cachedCheckout.files.root.Orderly ∧
      (extracted "." "main" ["b.yml"] cachedCheckout).commands ≠
        cachedCheckout.commands ∧
      ∃ location, (extracted "." "main" ["b.yml"] cachedCheckout).files.target
        ((sourcesIn ".").refFolder "ci" "main") =
        .ok (.found location .empty) := by
  have ran : (extracted "." "main" ["b.yml"] cachedCheckout).commands ≠
      cachedCheckout.commands := by
    decide +kernel
  refine ⟨orderly_cachedCheckout, ran, ?_⟩
  unfold extracted at ran ⊢
  obtain ⟨asked, opened, leaves, _, made⟩ :=
    prepare_extracts_refFolder orderly_cachedCheckout ran
  rw [leaves]
  rw [if_neg (by simp)] at made
  obtain ⟨cleared, _, empties⟩ := made
  refine empties ?_ (climbsFromFolders_of_down (by decide +kernel))
  exact ⟨[".gitlab-ci-local", "includes", "gitlab.com", "ci"],
    "main", by decide +kernel,
    by decide⟩

/-- In a checkout that is named from another folder the command reads the path
of the folder anew, and does not find it.  A step up behind a folder that is
missing hides the folder from what clears it: the command finds the file that
was there. -/
theorem prepare_extracts_elsewhere :
    (extracted "sub" "main" ["a.yml"] innerCheckout).commands =
        [archiveCommand (sourcesIn "sub") "ci" "main" ["a.yml"]] ∧
      (archiveCommand (sourcesIn "sub") "ci" "main" ["a.yml"]).folder = "sub" ∧
      ((extracted "sub" "main" ["a.yml"] innerCheckout).files.target
        "sub").toOption.map Destination.location = some ["sub"] ∧
      ((extracted "sub" "main" ["a.yml"] innerCheckout).files.target
        ((sourcesIn "sub").refFolder "ci" "main")).toOption.map
        Destination.location =
        some ["sub", ".gitlab-ci-local", "includes", "gitlab.com",
          "ci", "main"] ∧
      (Files.target { (extracted "sub" "main" ["a.yml"]
        innerCheckout).files with here := ["sub"] } ((sourcesIn "sub").refFolder
          "ci" "main")).toOption.map Destination.location = none ∧
      (extracted "." "b/../main" ["c.yml"] cachedCheckout).commands =
        [archiveCommand (sourcesIn ".") "ci" "b/../main" ["c.yml"]] ∧
      ((extracted "." "b/../main" ["c.yml"] cachedCheckout).files.text
        ((sourcesIn ".").projectFile "ci" "b/../main" "a.yml")).toOption =
        some "a" := by
  decide +kernel

end ArchiveFolder

end CiPipeline
