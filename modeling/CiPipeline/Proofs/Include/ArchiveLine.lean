import CiPipeline.Proofs.Include.Plans
import CiPipeline.Proofs.Shell.Splitting

/-!
# The command line of an archive

Files of a project are extracted by two commands with a pipe between
them.  Whatever the project, the ref, the files and the folder are
called, each of their names is one word of a command or ends one, and
every letter of it is quoted.
-/

namespace CiPipeline.IncludeSources

open CiPipeline.Action CiPipeline.Confinement CiPipeline.Shell
  CiPipeline.Shell.Reading

/-- The command line that extracts files of a project into a folder. -/
def archiveLine (host port project ref folder : String)
    (files : List String) : String :=
  "git archive --remote=" ++ quote s!"ssh://git@{host}:{port}/{project}.git" ++
    " " ++ quote ref ++
    " " ++ " ".intercalate ((files.map Include.dropSlashes).map quote) ++
    " | tar -f - -xC " ++ quote folder

theorem archiveScript_eq (sources : IncludeSources) (project ref : String)
    (files : List String) :
    sources.archiveScript project ref files =
      archiveLine sources.repository.remote.host sources.repository.remote.port
        project ref (sources.refFolder project ref) files := by
  unfold archiveLine
  rw [List.map_map]
  rfl

/-- The words of the line, with a blank or a bar behind each but the last. -/
theorem toList_archiveLine (host port project ref folder : String)
    (files : List String) :
    (archiveLine host port project ref folder files).toList =
      "git".toList ++ ' ' :: ("archive".toList ++ ' ' ::
        (("--remote=".toList ++
          (quote s!"ssh://git@{host}:{port}/{project}.git").toList) ++ ' ' ::
          ((quote ref).toList ++ ' ' ::
            ((" ".intercalate
              ((files.map Include.dropSlashes).map quote)).toList ++ ' ' ::
              '|' :: ' ' :: ("tar".toList ++
                ' ' :: ("-f".toList ++ ' ' :: ("-".toList ++ ' ' ::
                ("-xC".toList ++ ' ' :: (quote folder).toList)))))))) := by
  have front : "git archive --remote=".toList =
      "git".toList ++
        ' ' :: ("archive".toList ++ ' ' :: "--remote=".toList) := rfl
  have middle : " | tar -f - -xC ".toList =
      ' ' :: '|' :: ' ' ::
        ("tar".toList ++ ' ' :: ("-f".toList ++ ' ' :: ("-".toList ++ ' ' ::
        ("-xC".toList ++ [' '])))) := rfl
  have blank : " ".toList = [' '] := rfl
  unfold archiveLine
  simp only [String.toList_append, front, middle, blank, List.append_assoc,
    List.cons_append, List.nil_append]

/-- The line that is handed to the shell is split into two commands: one that
asks for the files at the ref of the project, and one that extracts them into
the folder.  All letters that come from a name are quoted. -/
theorem split_archiveLine (host port project ref folder : String)
    (files : List String) :
    split (archiveLine host port project ref folder files) =
        some [[bare "git", bare "archive",
            bare "--remote=" ++
              quoted s!"ssh://git@{host}:{port}/{project}.git", quoted ref] ++
            files.map fun file => quoted (Include.dropSlashes file),
          [bare "tar", bare "-f", bare "-", bare "-xC", quoted folder]] ∧
      ∀ (sources : IncludeSources) (surroundings : Surroundings)
        (workspace : Workspace),
        (perform surroundings (sources.extract project ref files)
          workspace).2.commands =
          { folder := sources.cache.checkout
            program := "sh"
            arguments := ["-c", archiveLine sources.repository.remote.host
              sources.repository.remote.port project ref
              (sources.refFolder project ref) files] } ::
            workspace.commands := by
  constructor
  · have git := writes_bare "git" (by decide) (by decide)
    have archive := writes_bare "archive" (by decide) (by decide)
    have remote := writes_bare "--remote=" (by decide) (by decide)
    have tar := writes_bare "tar" (by decide) (by decide)
    have file := writes_bare "-f" (by decide) (by decide)
    have input := writes_bare "-" (by decide) (by decide)
    have into := writes_bare "-xC" (by decide) (by decide)
    have address :=
      remote.append (writes_quote s!"ssh://git@{host}:{port}/{project}.git")
    -- Without files two blanks follow each other, which `run_quotes` passes
    -- like one.
    rw [split_eq, toList_archiveLine, run_word git, run_word archive,
      run_word address, run_word (writes_quote ref), run_quotes,
      run_bar (by simp), run_blank, run_word tar, run_word file, run_word input,
      run_word into, finish_word (writes_quote folder), List.map_map]
    rfl
  · intro sources surroundings workspace
    rw [perform_extract_workspace, archiveCommand, archiveScript_eq]

end CiPipeline.IncludeSources
