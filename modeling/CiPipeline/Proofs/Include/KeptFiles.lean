import CiPipeline.Proofs.Include.Archives
import CiPipeline.Proofs.Include.Plans

/-!
# Files that are kept

Once the folder of a project is filled, bringing more of the project to its
place asks for nothing but what is missing there, and clears nothing.  Whatever
was found before is found afterwards, as long as no name leads over a folder
that is missing back to a file that is there.
-/

namespace CiPipeline

open CiPipeline.Action CiPipeline.Archives CiPipeline.Confinement
open CiPipeline.FileTree CiPipeline.Files CiPipeline.IncludeSources

namespace KeptFiles

variable {sources : IncludeSources} {surroundings : Surroundings}
  {project ref : String}

/-- What is found along any path in some files is found there in others, with
the same content. -/
def Keeps (before after : Files) : Prop :=
  ∀ path location entry, before.target path = .ok (.found location entry) →
    ∃ standing, after.target path = .ok (.found location standing) ∧
      standing.kind = entry.kind

theorem Keeps.refl (files : Files) : Keeps files files :=
  fun _ _ entry found => ⟨entry, found, rfl⟩

theorem Keeps.trans {before between after : Files}
    (first : Keeps before between) (second : Keeps between after) :
    Keeps before after := by
  intro path location entry found
  obtain ⟨middle, foundBetween, same⟩ := first path location entry found
  obtain ⟨standing, foundAfter, sameAgain⟩ :=
    second path location middle foundBetween
  exact ⟨standing, foundAfter, sameAgain.trans same⟩

private theorem Keeps.has {before after : Files} (keeps : Keeps before after)
    {path : String} (present : before.has path = .ok true) :
    after.has path = .ok true := by
  obtain ⟨location, entry, found⟩ := has_eq_true_iff.mp present
  obtain ⟨standing, foundAfter, _⟩ := keeps path location entry found
  exact has_eq_true_iff.mpr ⟨location, standing, foundAfter⟩

/-- An archive command that ends with code zero has extracted the files
that it was asked for.  Unless a name leads upwards these are no others:
what was found elsewhere is found there still.  With any other end the
files are as they were. -/
structure Extracts (sources : IncludeSources) (surroundings : Surroundings)
    (project ref : String) : Prop where
  asked : ∀ names before output after,
    surroundings.run (archiveCommand sources project ref names) before =
      (.ok output, after) →
    output.code = 0 → ∀ name ∈ names,
      after.has (sources.projectFile project ref name) = .ok true
  others : ∀ names before output after,
    (∀ name ∈ names, ".." ∉ Path.parts name) →
    surroundings.run (archiveCommand sources project ref names) before =
      (.ok output, after) →
    output.code = 0 → ∀ path location entry,
      before.target path = .ok (.found location entry) →
    (∀ name ∈ names, ∀ standing,
      before.target (sources.projectFile project ref name) ≠
        .ok (.found location standing)) →
    ∃ standing, after.target path = .ok (.found location standing) ∧
      standing.kind = entry.kind
  failed : ∀ names before result after,
    surroundings.run (archiveCommand sources project ref names) before =
      (result, after) →
    (∀ output, result = .ok output → output.code ≠ 0) → after = before

private theorem Extracts.keeps
    (extracts : Extracts sources surroundings project ref) {names : List String}
    {before after : Files} {result : Except IoError CommandOutput}
    (down : ∀ name ∈ names, ".." ∉ Path.parts name)
    (missing : ∀ name ∈ names,
      before.has (sources.projectFile project ref name) = .ok false)
    (ran : surroundings.run (archiveCommand sources project ref names) before =
      (result, after)) : Keeps before after := by
  by_cases success : ∃ output, result = .ok output ∧ output.code = 0
  · obtain ⟨output, rfl, zero⟩ := success
    intro path location entry found
    apply extracts.others names before output after down ran zero path
      location entry found
    intro name member standing there
    have present := has_eq_true_iff.mpr ⟨location, standing, there⟩
    cases (missing name member).symm.trans present
  · have same := extracts.failed names before result after ran
      fun output equal zero => success ⟨output, equal, zero⟩
    rw [same]
    exact .refl before

/-! ## One call -/

/-- Files of a project that are asked for, and where. -/
structure Request where
  trail : Trail
  names : List String

/-- Brings files of a project to their places.  What is filled is known to the
calls behind only if the call succeeds. -/
def call (sources : IncludeSources) (surroundings : Surroundings)
    (project ref : String) (state : Filled × Workspace) (request : Request) :
    Filled × Workspace :=
  match perform surroundings
      (sources.prepare request.trail state.1
        [.project project ref request.names]) state.2 with
  | (.ok filled, after) => (filled, after)
  | (.error _, after) => (state.1, after)

/-- Makes calls one after another, from what is known to be filled and a
workspace. -/
def calls (sources : IncludeSources) (surroundings : Surroundings)
    (project ref : String) (state : Filled × Workspace)
    (requests : List Request) : Filled × Workspace :=
  requests.foldl (call sources surroundings project ref) state

/-- What a call does to the workspace when the folder of the project is filled:
nothing, or it runs a command that asks for files which are missing. -/
inductive Completes (sources : IncludeSources) (surroundings : Surroundings)
    (project ref : String) (names : List String) (before : Workspace) :
    Workspace → Prop where
  | nothing : Completes sources surroundings project ref names before before
  | asks {missing : List String} {result : Except IoError CommandOutput}
      {files : Files} :
      (∀ name ∈ missing, name ∈ names ∧
        before.files.has (sources.projectFile project ref name) = .ok false) →
      surroundings.run (archiveCommand sources project ref missing)
        before.files = (result, files) →
      Completes sources surroundings project ref names before
        { before with
          files
          commands :=
            archiveCommand sources project ref missing :: before.commands }

section

variable {workspace : Workspace} {filled : Filled} {names : List String}

/-- Bringing files to a folder that is filled completes it, whether or not
this succeeds. -/
theorem completes_of_prepare (known : filled.contains (project, ref) = true)
    (trail : Trail) :
    Completes sources surroundings project ref names workspace
      (perform surroundings (sources.prepare trail filled
        [.project project ref names]) workspace).2 := by
  rcases workspace_of_prepare_project trail with same | ⟨task, planned, after⟩
  · rw [same]
    exact .nothing
  · rw [after]
    rcases task_of_filled known planned with rfl | ⟨missing, rfl, absent⟩
    · exact .nothing
    · have ran : (perform surroundings
          (sources.clear (.extract false project ref missing) >>= fun _ =>
            sources.fill (.extract false project ref missing)) workspace).2 =
          _ :=
        perform_extract_workspace missing
      rw [ran]
      exact .asks absent rfl

private theorem contains_of_prepare {nowFilled : Filled} {trail : Trail}
    {after : Workspace}
    (success : perform surroundings (sources.prepare trail filled
      [.project project ref names]) workspace = (.ok nowFilled, after)) :
    nowFilled.contains (project, ref) = true := by
  obtain ⟨_, _, _, success⟩ := perform_bind_eq_ok_iff.mp success
  obtain ⟨_, _, _, success⟩ := perform_bind_eq_ok_iff.mp success
  obtain ⟨_, _, _, success⟩ := perform_bind_eq_ok_iff.mp success
  cases success
  simp [Target.filled?]

variable (sources surroundings) in
private theorem completes_of_call (request : Request)
    {state : Filled × Workspace}
    (known : state.1.contains (project, ref) = true) :
    (call sources surroundings project ref state request).1.contains
      (project, ref) = true ∧
      Completes sources surroundings project ref request.names state.2
        (call sources surroundings project ref state request).2 := by
  obtain ⟨filled, workspace⟩ := state
  have completes :
      Completes sources surroundings project ref request.names workspace _ :=
    completes_of_prepare known request.trail
  unfold call
  revert completes
  rcases success : perform surroundings
    (sources.prepare request.trail filled [.project project ref request.names])
    workspace with
    ⟨failure | nowFilled, after⟩
  · intro completes
    exact ⟨known, completes⟩
  · intro completes
    exact ⟨contains_of_prepare success, completes⟩

end

/-! ## Many calls -/

/-- What calls have done since a workspace: what was found is kept, and the
commands that were run asked for files of the project that were not there. -/
structure Since (sources : IncludeSources) (project ref : String)
    (start now : Workspace) : Prop where
  keeps : Keeps start.files now.files
  asks : ∃ commands, now.commands = commands ++ start.commands ∧
    ∀ command ∈ commands, ∃ names,
      command = archiveCommand sources project ref names ∧
      ∀ name ∈ names,
        start.files.has (sources.projectFile project ref name) ≠ .ok true

theorem Since.refl (start : Workspace) :
    Since sources project ref start start :=
  ⟨.refl _, [], rfl, by simp⟩

/-- A further call keeps what was found at the start, and asks only for
what was not. -/
theorem Since.completes (extracts : Extracts sources surroundings project ref)
    {start before after : Workspace} {names : List String}
    (since : Since sources project ref start before)
    (down : ∀ name ∈ names, ".." ∉ Path.parts name)
    (completes : Completes sources surroundings project ref names
      before after) :
    Since sources project ref start after := by
  cases completes with
  | nothing => exact since
  | asks missing ran =>
      obtain ⟨commands, equal, each⟩ := since.asks
      have absent := fun name member => (missing name member).2
      constructor
      · apply since.keeps.trans
        exact extracts.keeps
          (fun name member => down name (missing name member).1) absent ran
      · refine ⟨_ :: commands, by rw [equal, List.cons_append], ?_⟩
        rw [List.forall_mem_cons]
        refine ⟨⟨_, rfl, ?_⟩, each⟩
        intro name member present
        cases (absent name member).symm.trans (since.keeps.has present)

private theorem since_calls
    (extracts : Extracts sources surroundings project ref)
    {start : Workspace} {requests : List Request}
    (down : ∀ request ∈ requests, ∀ name ∈ request.names,
      ".." ∉ Path.parts name)
    {state : Filled × Workspace}
    (known : state.1.contains (project, ref) = true)
    (since : Since sources project ref start state.2) :
    Since sources project ref start
        (calls sources surroundings project ref state requests).2 := by
  unfold calls
  -- that the folder is filled is carried along, since a call that fails does
  -- not forget it
  induction requests generalizing state with
  | nil => exact since
  | cons request rest induction =>
      obtain ⟨stillKnown, completes⟩ :=
        completes_of_call sources surroundings request known
      rw [List.foldl_cons]
      apply induction (fun other member =>
        down other (by simp [member])) stillKnown
      exact since.completes extracts (down request (by simp)) completes

/-! ## The files that a call has extracted -/

section

variable {workspace between : Workspace} {filled nowFilled : Filled}
  {trail : Trail} {names asked : List String}

private theorem commands_of_perform_change {action : FileAction Unit}
    {after : Workspace}
    (success : perform surroundings (change action) workspace =
      (.ok (), after)) :
    after.commands = workspace.commands := by
  obtain ⟨files, _, rfl⟩ := perform_change_eq_ok_iff.mp success
  rfl

private theorem commands_of_clear {task : Task} {after : Workspace}
    (success : perform surroundings (sources.clear task) workspace =
      (.ok (), after)) :
    after.commands = workspace.commands := by
  unfold clear at success
  split at success
  · exact commands_of_perform_change success
  · exact commands_of_perform_change success
  · cases success
    rfl

private theorem of_fill_extract {afresh : Bool} {missing : List String}
    {after : Workspace}
    (success : perform surroundings (sources.fill
      (.extract afresh project ref missing)) workspace = (.ok (), after)) :
    ∃ opened, opened.commands = workspace.commands ∧
      perform surroundings (sources.extract project ref missing) opened =
        (.ok (), after) := by
  cases afresh with
  | true =>
      obtain ⟨_, opened, opens, extracted⟩ := perform_bind_eq_ok_iff.mp success
      exact ⟨opened, commands_of_perform_change opens, extracted⟩
  | false => exact ⟨workspace, rfl, success⟩

/-- The files that a successful call has run an archive command for are
there after it. -/
theorem has_of_prepare (extracts : Extracts sources surroundings project ref)
    (success : perform surroundings
      (sources.prepare trail filled [.project project ref names])
      workspace = (.ok nowFilled, between))
    (ran : between.commands =
      archiveCommand sources project ref asked :: workspace.commands) :
    ∀ name ∈ asked, between.files.has (sources.projectFile project ref name) =
        .ok true := by
  obtain ⟨task, planned, cleared, plan, clears, fills⟩ :=
    of_perform_prepare_singleton success
  obtain ⟨rfl, isTask⟩ := of_perform_planProject_cases plan
  have idle : between.commands ≠ planned.commands := by
    rw [ran]
    exact List.cons_ne_self _ _
  rcases isTask with rfl | ⟨checkout, rfl⟩ | ⟨afresh, missing, rfl⟩
  · cases clears
    cases fills
    exact (idle rfl).elim
  · rw [fill] at fills
    exact (idle ((commands_of_perform_change fills).trans
      (commands_of_clear clears))).elim
  · obtain ⟨opened, opens, extracted⟩ := of_fill_extract fills
    obtain ⟨output, executed, zero⟩ := of_perform_extract extracted
    have after : between = _ :=
      (congrArg Prod.snd extracted).symm.trans
        (perform_extract_workspace missing)
    have same : archiveCommand sources project ref missing =
        archiveCommand sources project ref asked := by
      rw [after] at ran
      exact (List.cons.inj ran).1
    rw [same] at executed
    exact extracts.asked asked _ output _ executed zero

/-- Whatever files a call of a parse has extracted, no later call removes or
overwrites what is at their places or asks for them again, as long as the later
ones name no file by a way upwards. -/
theorem calls_keep_extracted
    (extracts : Extracts sources surroundings project ref)
    (success : perform surroundings (sources.prepare trail filled
      [.project project ref names]) workspace = (.ok nowFilled, between))
    (ran : between.commands = archiveCommand sources project ref asked ::
      workspace.commands) {later : List Request}
    (down : ∀ request ∈ later, ∀ name ∈ request.names, ".." ∉ Path.parts name) :
    (∀ name ∈ asked,
      between.files.has (sources.projectFile project ref name) = .ok true) ∧
      Keeps between.files
        (calls sources surroundings project ref (nowFilled, between)
          later).2.files ∧
      ∃ commands, (calls sources surroundings project ref (nowFilled, between)
        later).2.commands = commands ++ between.commands ∧
        ∀ command ∈ commands, ∃ others,
          command = archiveCommand sources project ref others ∧
          ∀ name ∈ asked, sources.projectFile project ref name ∉
            others.map (sources.projectFile project ref) := by
  have present := has_of_prepare extracts success ran
  have since : Since sources project ref between
      (calls sources surroundings project ref (nowFilled, between) later).2 :=
    since_calls extracts down (contains_of_prepare success) (.refl between)
  obtain ⟨commands, equal, each⟩ := since.asks
  refine ⟨present, since.keeps, commands, equal, ?_⟩
  intro command member
  obtain ⟨others, isArchive, absent⟩ := each command member
  refine ⟨others, isArchive, ?_⟩
  intro name isAsked again
  obtain ⟨other, inOthers, samePlace⟩ := List.mem_map.mp again
  apply absent other inOthers
  rw [samePlace]
  exact present name isAsked

end

/-! ## Archives that hold some files -/

private theorem keeps_put {files : Files} {place : List String}
    (absent : files.root.at? place = none) (entry : Option FileTree) :
    Keeps files (files.put place entry) := by
  intro path location standing found
  obtain ⟨permitted, walks⟩ := locate_eq_ok_iff.mp found
  obtain ⟨other, further, same⟩ := walks.found_of_grows (grows_set absent entry)
  exact ⟨other, locate_eq_ok_iff.mpr ⟨permitted, further⟩, same⟩

private theorem extracts_archiving (held : List (String × String)) :
    Extracts sources (archiving sources project ref putMissing held) project
      ref := by
  constructor
  · intro names before output after ran zero
    exact has_of_run_archiving ran zero
  · intro names before output after down ran zero path location entry found _
    rcases run_archiving ran with
      ⟨only, content, _, _, extracted⟩ | ⟨_, rfl⟩
    · obtain ⟨place, absent, rfl⟩ := of_run_putMissing extracted
      exact keeps_put (at?_of_missing absent) _ path location entry found
    · exact ⟨entry, found, rfl⟩
  · intro names before result after ran unsuccessful
    rcases run_archiving ran with ⟨_, _, _, succeeds, _⟩ | ⟨_, rfl⟩
    · exact (unsuccessful _ succeeds rfl).elim
    · rfl

/-- A project that has two files. -/
def twoFiles : Surroundings :=
  archiving (sourcesWith {}) "ci" "main" putMissing
    [("a.yml", "a.yml"), ("b.yml", "b.yml")]

/-- A checkout without anything in it. -/
def emptyCheckout : Workspace where
  files := { root := .folder [("app", .folder [])] }

/-- What a call gives there that asks for the first file. -/
def firstCall : Except Failure Filled × Workspace :=
  perform twoFiles
    ((sourcesWith {}).prepare Trail.root [] [.project "ci" "main" ["a.yml"]])
    emptyCheckout

/-- What a call behind it leaves that asks for both files. -/
def secondCall : Filled × Workspace :=
  calls (sourcesWith {}) twoFiles "ci" "main" ([("ci", "main")], firstCall.2)
    [⟨Trail.root, ["a.yml", "b.yml"]⟩]

private theorem succeeds_of_toOption {Result : Type}
    {outcome : Except Failure Result × Workspace} {result : Result}
    (success : outcome.1.toOption = some result) :
    outcome = (.ok result, outcome.2) := by
  obtain ⟨given, after⟩ := outcome
  cases Sequencing.eq_ok_of_toOption success
  rfl

private theorem evaluated_calls :
    firstCall.1.toOption = some [("ci", "main")] ∧
      firstCall.2.commands =
        [archiveCommand (sourcesWith {}) "ci" "main" ["a.yml"]] ∧
      secondCall.2.commands = [archiveCommand (sourcesWith {}) "ci" "main"
        ["b.yml"], archiveCommand (sourcesWith {}) "ci" "main" ["a.yml"]] := by
  decide +kernel

theorem calls_keep_extracted_both :
    firstCall = (.ok [("ci", "main")], firstCall.2) ∧
      secondCall.2.commands = [archiveCommand (sourcesWith {}) "ci" "main"
        ["b.yml"], archiveCommand (sourcesWith {}) "ci" "main" ["a.yml"]] ∧
      Keeps firstCall.2.files secondCall.2.files := by
  obtain ⟨succeeds, ran, asked⟩ := evaluated_calls
  have success := succeeds_of_toOption succeeds
  have extracts : Extracts (sourcesWith {}) twoFiles "ci" "main" :=
    extracts_archiving _
  have down : ∀ request ∈ [Request.mk Trail.root ["a.yml", "b.yml"]],
      ∀ name ∈ request.names, ".." ∉ Path.parts name := by decide
  unfold secondCall at asked ⊢
  generalize firstCall.2 = between at *
  obtain ⟨_, keeps, _⟩ := calls_keep_extracted extracts success ran down
  exact ⟨success, asked, keeps⟩

/-! ## A file that is named over a folder which is missing -/

/-- A command stores one file, which is what it asks for, or fails and
changes nothing. -/
def StoresAsked (sources : IncludeSources) (surroundings : Surroundings)
    (project ref : String) : Prop :=
  ∀ names before result after,
    surroundings.run (archiveCommand sources project ref names) before =
      (result, after) →
    (∃ name text,
      names.map (sources.projectFile project ref) =
        [sources.projectFile project ref name] ∧
      result = .ok { text := "", code := 0 } ∧
      (IncludeCache.store (sources.projectFile project ref name) text).run
        before = (.ok (), after)) ∨
    (result = .ok { text := "", code := 1 } ∧ after = before)

private theorem storesAsked_archiving (held : List (String × String)) :
    StoresAsked sources
      (archiving sources project ref IncludeCache.store held) project ref := by
  intro names before result after ran
  rcases run_archiving ran with
    ⟨name, content, places, succeeds, stored⟩ | failed
  · exact .inl ⟨name, content, places, succeeds, stored⟩
  · exact .inr failed

/-- A project with a file that is named in two ways. -/
def namedTwice : Surroundings :=
  archiving (sourcesWith {}) "ci" "main" IncludeCache.store
    [("a.yml", "first"), ("b/../a.yml", "second")]

/-- What a call leaves that asks for the file by the one name. -/
def straightCall : Filled × Workspace :=
  call (sourcesWith {}) namedTwice "ci" "main" ([], emptyCheckout)
    ⟨Trail.root, ["a.yml"]⟩

/-- What a call behind it leaves that asks for the file by the other name. -/
def roundaboutCall : Filled × Workspace :=
  call (sourcesWith {}) namedTwice "ci" "main" straightCall
    ⟨Trail.root, ["b/../a.yml"]⟩

/-- A file is looked for by way of the folders in its name.  Where one of these
is missing the file counts as missing, although an earlier call has extracted
it, and is overwritten. -/
theorem calls_overwrite_extracted :
    StoresAsked (sourcesWith {}) namedTwice "ci" "main" ∧
      straightCall.1 = [("ci", "main")] ∧
      straightCall.2.commands =
        [archiveCommand (sourcesWith {}) "ci" "main" ["a.yml"]] ∧
      (straightCall.2.files.text
        ((sourcesWith {}).projectFile "ci" "main" "a.yml")).toOption =
        some "first" ∧
      roundaboutCall.2.commands =
        archiveCommand (sourcesWith {}) "ci" "main" ["b/../a.yml"] ::
          straightCall.2.commands ∧
      (roundaboutCall.2.files.text
        ((sourcesWith {}).projectFile "ci" "main" "a.yml")).toOption =
          some "second" := by
  refine ⟨storesAsked_archiving _, ?_⟩
  decide +kernel

end KeptFiles

end CiPipeline
