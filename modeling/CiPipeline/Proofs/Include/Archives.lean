import CiPipeline.Proofs.Include.Confinement
import CiPipeline.Proofs.Shell.Quoting

/-!
# Archives that hold some files

An archive command quotes the names of its files, so that they can be read off
its line.  Surroundings in which a project has some files are therefore given by
what is extracted for each single name.
-/

namespace CiPipeline

open CiPipeline.Confinement

namespace Archives

variable {sources : IncludeSources} {project ref : String}

private theorem names_of_archiveScript {names others : List String}
    (same : sources.archiveScript project ref names =
      sources.archiveScript project ref others) :
    names.map Include.dropSlashes = others.map Include.dropSlashes := by
  have quoted (files : List String) :
      (files.map fun file => Shell.quote (Include.dropSlashes file)) =
        (files.map Include.dropSlashes).map Shell.quote := by
    rw [List.map_map]
    rfl
  unfold IncludeSources.archiveScript at same
  dsimp only at same
  rw [quoted, quoted, ← String.toList_inj] at same
  simp only [String.toList_append] at same
  have lines := List.append_cancel_left
    (List.append_cancel_right (List.append_cancel_right same))
  exact Shell.quotedWords_injective (String.toList_inj.mp lines)

private theorem archiveCommand_injective {names others : List String}
    (same : archiveCommand sources project ref names =
      archiveCommand sources project ref others) :
    names.map (sources.projectFile project ref) =
      others.map (sources.projectFile project ref) := by
  have places (files : List String) :
      files.map (sources.projectFile project ref) =
        (files.map Include.dropSlashes).map
          (Path.join (sources.refFolder project ref)) := by
    rw [List.map_map]
    rfl
  unfold archiveCommand at same
  simp only [Command.mk.injEq, List.cons.injEq, and_true, true_and] at same
  rw [places, places, names_of_archiveScript same]

/-- Puts a file where there is nothing. -/
def putMissing (path : String) (content : ByteArray) : FileAction Unit := do
  match (← get).target path with
  | .ok (.missing location) => Files.place location (some (.file content))
  | _ => throw .alreadyThere

theorem of_run_putMissing {path : String} {content : ByteArray}
    {before after : Files}
    (success : (putMissing path content).run before = (.ok (), after)) :
    ∃ location, before.target path = .ok (.missing location) ∧
      after = before.put location (some (.file content)) := by
  change (match before.target path with
    | .ok (.missing location) =>
        Files.place location (some (.file content))
    | _ => throw .alreadyThere : FileAction Unit).run before =
      (.ok (), after) at success
  split at success
  · rename_i location missing
    cases success
    exact ⟨location, missing, rfl⟩
  · cases success

/-- Surroundings in which archives hold some texts under their names, each of
which is extracted on its own. -/
def archiving (sources : IncludeSources) (project ref : String)
    (extract : String → ByteArray → FileAction Unit)
    (held : List (String × String)) : Surroundings where
  run := fun command files =>
    match held.find? fun entry =>
      command == archiveCommand sources project ref [entry.1] with
    | some (name, text) =>
        match (extract (sources.projectFile project ref name)
          text.toUTF8).run files with
        | (.ok (), after) => (.ok { text := "", code := 0 }, after)
        | (.error _, _) => (.ok { text := "", code := 1 }, files)
    | none => (.ok { text := "", code := 1 }, files)
  request := fun _ _ => .unreachable

/-- A command extracts the one file that it asks for, or it fails and changes
nothing. -/
theorem run_archiving {extract : String → ByteArray → FileAction Unit}
    {held : List (String × String)} {names : List String}
    {before after : Files} {result : Except IoError CommandOutput}
    (ran : (archiving sources project ref extract held).run
      (archiveCommand sources project ref names) before = (result, after)) :
    (∃ name content,
      names.map (sources.projectFile project ref) =
        [sources.projectFile project ref name] ∧
      result = .ok { text := "", code := 0 } ∧
      (extract (sources.projectFile project ref name) content).run before =
        (.ok (), after)) ∨
    (result = .ok { text := "", code := 1 } ∧ after = before) := by
  unfold archiving at ran
  dsimp only at ran
  split at ran
  · rename_i name text holds
    have asks := List.find?_some holds
    have places := archiveCommand_injective (beq_iff_eq.mp asks)
    split at ran
    · rename_i extracted
      cases ran
      exact .inl ⟨name, text.toUTF8, places, rfl, extracted⟩
    · cases ran
      exact .inr ⟨rfl, rfl⟩
  · cases ran
    exact .inr ⟨rfl, rfl⟩

/-- A command that ends with code zero has extracted what it asks for. -/
theorem has_of_run_archiving {held : List (String × String)}
    {names : List String} {before after : Files} {output : CommandOutput}
    (ran : (archiving sources project ref putMissing held).run
      (archiveCommand sources project ref names) before = (.ok output, after))
    (zero : output.code = 0) :
    ∀ name ∈ names,
      after.has (sources.projectFile project ref name) = .ok true := by
  intro name member
  rcases run_archiving ran with
    ⟨only, content, places, _, extracted⟩ | ⟨result, _⟩
  · obtain ⟨place, absent, rfl⟩ := of_run_putMissing extracted
    have here :=
      List.mem_map_of_mem (f := sources.projectFile project ref) member
    rw [places, List.mem_singleton] at here
    rw [here]
    exact Files.has_put_of_missing absent _
  · cases result
    cases zero

/-- A project that has some checkouts, below the folder `app`. -/
def sourcesWith (checkouts : Checkouts) : IncludeSources where
  cache := { checkout := "/app", refetches := false }
  repository := {}
  checkouts

end Archives

end CiPipeline
