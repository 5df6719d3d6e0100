import CiPipeline.Workspace

/-!
# Performing actions

An action is performed step by step.  A failure ends it and keeps what the steps
before it did.
-/

namespace CiPipeline.Action

variable {Given Result : Type} {surroundings : Surroundings}
  {workspace : Workspace}

@[simp] theorem perform_pure (result : Result) :
    perform surroundings (pure result) workspace =
      (.ok result, workspace) := rfl

@[simp] theorem perform_throw (failure : Failure) :
    perform surroundings (throw failure : Action Result) workspace =
      (.error failure, workspace) := rfl

@[simp] theorem perform_read :
    perform surroundings (read : Action Surroundings) workspace =
      (.ok surroundings, workspace) :=
  rfl

@[simp] theorem perform_get :
    perform surroundings (get : Action Workspace) workspace =
      (.ok workspace, workspace) := rfl

theorem perform_ofExcept (result : Except Failure Result) :
    perform surroundings (MonadExcept.ofExcept result) workspace =
      (result, workspace) := by
  cases result <;> rfl

theorem perform_bind (action : Action Given) (next : Given → Action Result) :
    perform surroundings (action >>= next) workspace =
      match perform surroundings action workspace with
      | (.ok given, after) => perform surroundings (next given) after
      | (.error failure, after) => (.error failure, after) := by
  simp only [perform, ReaderT.run_bind, ExceptT.run_bind, StateT.run_bind]
  rcases (ReaderT.run action surroundings).run.run workspace with
    ⟨result, after⟩
  cases result <;> rfl

/-- An action in two parts succeeds when both do, the second one where the first
one ended. -/
theorem perform_bind_eq_ok_iff {action : Action Given}
    {next : Given → Action Result} {result : Result} {after : Workspace} :
    perform surroundings (action >>= next) workspace = (.ok result, after) ↔
      ∃ given between,
        perform surroundings action workspace = (.ok given, between) ∧
        perform surroundings (next given) between = (.ok result, after) := by
  rw [perform_bind]
  rcases perform surroundings action workspace with ⟨failure | given, between⟩
  · simp
  · constructor
    · intro success
      exact ⟨given, between, rfl, success⟩
    · rintro ⟨_, _, ⟨⟩, success⟩
      exact success

/-- An action in two parts changes nothing when neither part does. -/
theorem perform_bind_workspace {action : Action Given}
    {next : Given → Action Result}
    (first : (perform surroundings action workspace).2 = workspace)
    (second : ∀ given,
      (perform surroundings (next given) workspace).2 = workspace) :
    (perform surroundings (action >>= next) workspace).2 = workspace := by
  rw [perform_bind]
  revert first
  rcases perform surroundings action workspace with ⟨failure | given, after⟩
  · exact id
  · rintro rfl
    exact second given

theorem perform_look (reading : Files → Except IoError Result) :
    perform surroundings (look reading) workspace =
      (match reading workspace.files with
        | .ok result => .ok result
        | .error error => .error (.io error.message), workspace) := by
  unfold look
  rw [perform_bind, perform_get]
  dsimp only
  cases reading workspace.files <;> rfl

theorem perform_look_workspace (reading : Files → Except IoError Result) :
    (perform surroundings (look reading) workspace).2 = workspace := by
  rw [perform_look]

theorem perform_look_eq_ok_iff {reading : Files → Except IoError Result}
    {result : Result} {after : Workspace} :
    perform surroundings (look reading) workspace = (.ok result, after) ↔
      reading workspace.files = .ok result ∧ after = workspace := by
  rw [perform_look]
  cases reading workspace.files with
  | error error => simp
  | ok value => simp [eq_comm]

theorem perform_change (action : FileAction Unit) :
    perform surroundings (change action) workspace =
      ((action.run.run workspace.files).1.mapError fun error =>
        .io error.message,
        { workspace with files := (action.run.run workspace.files).2 }) := by
  unfold change
  rw [perform_bind, perform_get]
  dsimp only
  rcases action.run.run workspace.files with ⟨error | result, files⟩ <;> rfl

theorem perform_change_eq_ok_iff {action : FileAction Unit}
    {after : Workspace} :
    perform surroundings (change action) workspace = (.ok (), after) ↔
      ∃ files, action.run.run workspace.files = (.ok (), files) ∧
        after = { workspace with files } := by
  rw [perform_change]
  rcases action.run.run workspace.files with ⟨error | _, files⟩
  · constructor
    · rintro ⟨⟩
    · rintro ⟨_, ⟨⟩, _⟩
  · constructor
    · rintro ⟨⟩
      exact ⟨files, rfl, rfl⟩
    · rintro ⟨_, ⟨⟩, rfl⟩
      rfl

theorem perform_execute (command : Command) :
    perform surroundings (execute command) workspace =
      ((surroundings.run command workspace.files).1.mapError fun error =>
        .io error.message, { workspace with
          files := (surroundings.run command workspace.files).2
          commands := command :: workspace.commands }) := by
  obtain ⟨run, request⟩ := surroundings
  unfold execute
  rw [perform_bind, perform_read]
  dsimp only
  rw [perform_bind, perform_get]
  dsimp only
  rcases run command workspace.files with ⟨error | output, files⟩ <;> rfl

theorem perform_execute_eq_ok_iff {command : Command} {output : CommandOutput}
    {after : Workspace} :
    perform surroundings (execute command) workspace = (.ok output, after) ↔
      ∃ files, surroundings.run command workspace.files = (.ok output, files) ∧
        after = { workspace with
          files, commands := command :: workspace.commands } := by
  rw [perform_execute]
  rcases surroundings.run command workspace.files with ⟨error | written, files⟩
  · constructor
    · rintro ⟨⟩
    · rintro ⟨_, ⟨⟩, _⟩
  · constructor
    · rintro ⟨⟩
      exact ⟨files, rfl, rfl⟩
    · rintro ⟨_, ⟨⟩, rfl⟩
      rfl

theorem perform_request (address : Url) :
    perform surroundings (request address) workspace =
      (.ok (surroundings.request address
        (workspace.requests.count address.text)), { workspace with
          requests := address.text :: workspace.requests }) := rfl

theorem perform_tryCatch (action : Action Result)
    (handler : Failure → Action Result) :
    perform surroundings (tryCatch action handler) workspace =
      match perform surroundings action workspace with
      | (.ok result, after) => (.ok result, after)
      | (.error failure, after) =>
          perform surroundings (handler failure) after := by
  simp only [perform, tryCatch, tryCatchThe, MonadExceptOf.tryCatch,
    ReaderT.run, ExceptT.run,
    StateT.run, ExceptT.tryCatch, ExceptT.mk, bind, StateT.bind]
  rcases action surroundings workspace with ⟨result, after⟩
  cases result <;> rfl

/-- A handler that fails again gives no success of its own. -/
theorem perform_tryCatch_throw_eq_ok_iff {action : Action Result}
    {again : Failure → Failure} {result : Result} {after : Workspace} :
    perform surroundings (tryCatch action fun failure => throw (again failure))
      workspace = (.ok result, after) ↔
      perform surroundings action workspace = (.ok result, after) := by
  rw [perform_tryCatch]
  rcases perform surroundings action workspace with ⟨failure | given, between⟩
  · simp
  · simp

end CiPipeline.Action
