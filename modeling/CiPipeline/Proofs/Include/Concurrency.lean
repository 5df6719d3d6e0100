import CiPipeline.Proofs.Include.TargetSteps
import Mathlib.Data.List.Pairwise

/-!
# Concurrent preparation of includes

When the targets of a level are apart, all orders of their steps leave the same
files, and the local and remote files of the level are there.  Nothing checks
that they are apart: a remote file in the folder of a project may be removed for
the project after it was found to be there.
-/

namespace CiPipeline

open CiPipeline.Action CiPipeline.FileTree CiPipeline.Files
  CiPipeline.IncludeSources

namespace Level

variable {level : Level} {target other : Target} {phase next : Phase}
  {states : List (Target × Phase)} {before now after : Files}

/-! ## Targets that are left alone -/

private theorem incomparable_of_spares (fetched : target.isFetched = true)
    (otherFetched : other.isFetched = true)
    (different : ∀ address, target = .remote address → other ≠ .remote address)
    (there : level.Spares target other) (back : level.Spares other target) :
    Incomparable (level.place target) (level.place other) := by
  cases target with
  | localFile declared => cases fetched
  | project project ref names =>
      cases other with
      | localFile declared => cases otherFetched
      | project otherProject otherRef others => exact ⟨there, back⟩
      | remote address => exact ⟨there, back⟩
  | remote address =>
      cases other with
      | localFile declared => cases otherFetched
      | project otherProject otherRef others => exact ⟨there, back⟩
      | remote otherAddress =>
          constructor
          · rcases there with rfl | apart
            · exact (different address rfl rfl).elim
            · exact apart
          · rcases back with rfl | apart
            · exact (different otherAddress rfl rfl).elim
            · exact apart

private theorem Completed.of_alike {task : Task}
    {entry first second : Option FileTree}
    (completed : level.Completed target entry first task)
    (alike : Alike second first) :
    level.Completed target entry second task := by
  cases task with
  | nothing => exact alike.trans completed
  | download address declared => exact alike.trans completed
  | link project ref checkout => exact alike.trans completed
  | extract afresh project ref names =>
      obtain ⟨before, output, after, here, same, folder, ran, zero, stays,
        result⟩ := completed
      exact ⟨before, output, after, here, same, folder, ran, zero, stays,
        alike.trans result⟩

private theorem Stored.of_alike {address : String}
    {first second : Option FileTree} (stored : level.Stored address first)
    (alike : Alike second first) :
    level.Stored address second := by
  obtain ⟨stale, content, isBody, same⟩ := stored
  exact ⟨stale, content, isBody, alike.trans same⟩

/-- How far a target has come is the same for entries that are alike. -/
theorem Describes.of_alike {first second : Option FileTree}
    (describes : level.Describes target phase first)
    (alike : Alike second first) :
    level.Describes target phase second := by
  cases target with
  | localFile declared =>
      intro task known
      obtain ⟨nothing, reachable, stands⟩ := describes task known
      exact ⟨nothing, reachable, alike.isSome_eq.trans stands⟩
  | project project ref names =>
      cases phase with
      | waiting => exact alike.trans describes
      | planned task => exact ⟨describes.1, alike.trans describes.2⟩
      | cleared task => exact ⟨describes.1, alike.trans describes.2⟩
      | opened task => exact ⟨describes.1, alike.trans describes.2⟩
      | finished task => exact ⟨describes.1, describes.2.of_alike alike⟩
  | remote address =>
      have untouched (state :
        level.Kept (.remote address) first ∨ level.Stored address first) :
          level.Kept (.remote address) second ∨ level.Stored address second :=
        state.imp (fun kept => alike.trans kept) fun stored =>
          stored.of_alike alike
      cases describes with
      | waiting state => exact .waiting (untouched state)
      | due known notFinished isUrl stale state =>
          exact .due known notFinished isUrl stale (untouched state)
      | settled ended reachable state =>
          refine .settled ended reachable ?_
          exact state.imp (fun fresh => ⟨fresh.1, alike.trans fresh.2⟩)
            fun stored => stored.of_alike alike

private theorem Effect.reshapes (effect : level.Effect target before after) :
    Reshapes (level.place target) before after := by
  cases effect with
  | idle same => exact same ▸ .refl _ _
  | project _ _ reshapes => exact reshapes
  | stored _ _ _ reshapes => exact reshapes

/-- A local file that stands still stands when a remote file is stored. -/
theorem isSome_of_stored {location place : List String} {content : ByteArray}
    (reshapes : Reshapes place before after)
    (file : after.root.at? place = some (.file content))
    (notFolder : ∀ entries, before.root.at? place ≠ some (.folder entries))
    (stands : (before.root.at? location).isSome = true) :
    (after.root.at? location).isSome = true := by
  by_cases below : place <+: location
  · obtain ⟨rest, rfl⟩ := below
    cases rest with
    | nil => simp [file]
    | cons name others =>
        obtain ⟨entry, there⟩ := Option.isSome_iff_exists.mp stands
        obtain ⟨entries, _, folder, _⟩ := folder_of_stands there
        exact (notFolder entries folder).elim
  · exact reshapes.way.isSome below stands

/-- What is done in the folder of a project leaves other targets
where they are. -/
theorem Describes.of_reshapes {project ref : String} {names : List String}
    (there : level.Spares (.project project ref names) other)
    (back : level.Spares other (.project project ref names))
    (reshapes : Reshapes (level.place (.project project ref names))
      before after)
    (describes :
      level.Describes other phase (before.root.at? (level.place other))) :
    level.Describes other phase (after.root.at? (level.place other)) := by
  have alike (fetched : other.isFetched = true) :
      Alike (after.root.at? (level.place other))
        (before.root.at? (level.place other)) :=
    reshapes.way.alike (incomparable_of_spares rfl fetched (by simp) there back)
  cases other with
  | localFile declared =>
      intro task known
      obtain ⟨nothing, reachable, stands⟩ := describes task known
      exact ⟨nothing, reachable, reshapes.way.isSome there stands⟩
  | project otherProject otherRef others => exact describes.of_alike (alike rfl)
  | remote address => exact describes.of_alike (alike rfl)

/-- Where a remote file is stored for one target it is there for every other
that asks for it. -/
theorem DescribesRemote.of_stored {address : String} {entry : Option FileTree}
    (stored : level.Stored address entry) {earlier : Option FileTree}
    (describes : level.DescribesRemote address phase earlier) :
    level.DescribesRemote address phase entry := by
  cases describes with
  | waiting _ => exact .waiting (.inr stored)
  | due known notFinished isUrl stale _ =>
      exact .due known notFinished isUrl stale (.inr stored)
  | settled ended reachable _ => exact .settled ended reachable (.inr stored)

/-- A step of one target leaves others that are apart from it where they are. -/
theorem Describes.of_effect (there : level.Spares target other)
    (back : level.Spares other target)
    (effect : level.Effect target before after)
    (describes : level.Describes other phase
      (before.root.at? (level.place other))) :
    level.Describes other phase (after.root.at? (level.place other)) := by
  cases effect with
  | idle same => exact same ▸ describes
  | project isProject _ reshapes =>
      cases target with
      | project project ref names =>
          exact describes.of_reshapes there back reshapes
      | _ => cases isProject
  | @stored address content isRemote stale isBody reshapes file notFolder =>
      cases isRemote
      cases other with
      | localFile declared =>
          intro task known
          obtain ⟨nothing, reachable, stands⟩ := describes task known
          exact ⟨nothing, reachable,
            isSome_of_stored reshapes file notFolder stands⟩
      | project project ref names =>
          have apart : Incomparable (level.place (.remote address))
              (level.place (.project project ref names)) :=
            incomparable_of_spares rfl rfl (by simp) there back
          exact describes.of_alike (reshapes.way.alike apart)
      | remote otherAddress =>
          by_cases same : address = otherAddress
          · subst same
            have stored : level.Stored address
                (after.root.at? (level.place (.remote address))) :=
              ⟨stale, content, isBody, by rw [file]; exact .refl _⟩
            exact DescribesRemote.of_stored stored describes
          · have apart : Incomparable (level.place (.remote address))
                (level.place (.remote otherAddress)) :=
              incomparable_of_spares rfl rfl
                (by simpa [eq_comm] using same) there back
            exact describes.of_alike (reshapes.way.alike apart)

/-! ## All targets on their way -/

/-- What is known of the files when targets have come as far as they have. -/
structure Coherent (level : Level) (states : List (Target × Phase))
    (now : Files) : Prop where
  targets : states.map Prod.fst = level.targets
  here : now.here = level.start.files.here
  orderly : now.root.Orderly
  beside : level.Beside now
  describes : ∀ state ∈ states,
    level.Describes state.1 state.2 (now.root.at? (level.place state.1))

theorem Coherent.exists_phase (coherent : level.Coherent states now)
    (member : target ∈ level.targets) :
    ∃ phase, (target, phase) ∈ states ∧
      level.Describes target phase (now.root.at? (level.place target)) := by
  rw [← coherent.targets] at member
  obtain ⟨⟨_, phase⟩, listed, rfl⟩ := List.mem_map.mp member
  exact ⟨phase, listed, coherent.describes _ listed⟩

private theorem Separated.spares (separated : level.Separated)
    (member : target ∈ level.targets) (otherMember : other ∈ level.targets)
    (different : target ≠ other) :
    level.Spares target other ∧ level.Spares other target := by
  have symmetric : Std.Symm fun first second =>
      level.Spares first second ∧ level.Spares second first :=
        ⟨fun _ _ both => both.symm⟩
  exact separated.apart.forall member otherMember different

private theorem untouched_of_describes {address : String}
    {entry : Option FileTree}
    (describes : level.DescribesRemote address phase entry) :
    level.Kept (.remote address) entry ∨ level.Stored address entry := by
  cases describes with
  | waiting state => exact state
  | due _ _ _ _ state => exact state
  | settled _ _ state => exact state.imp And.right id

/-- No link has come where there was none, but in the folders of projects. -/
theorem Coherent.unlinked (coherent : level.Coherent states now)
    {location : List String}
    (outside : ∀ target ∈ level.targets, target.isProject = true →
      ¬ level.place target <+: location)
    (unlinked : level.start.files.root.Unlinked location) :
        now.root.Unlinked location := by
  by_cases inside : ∃ target ∈ level.targets, target.isFetched = true ∧
      level.place target <+: location
  · obtain ⟨target, member, fetched, below⟩ := inside
    cases target with
    | localFile declared => cases fetched
    | project project ref names => exact (outside _ member rfl below).elim
    | remote address =>
        obtain ⟨phase, _, describes⟩ := coherent.exists_phase member
        obtain ⟨rest, rfl⟩ := below
        intro target linked
        rw [at?_append] at linked
        rcases untouched_of_describes describes with
          kept | ⟨_, content, _, file⟩
        · have stood := (kept.below rest).eq_link linked
          unfold found at stood
          rw [← at?_append] at stood
          exact unlinked target stood
        · have stood := (file.below rest).eq_link linked
          cases rest <;> cases stood
  · refine unlinked_of_made unlinked (coherent.beside location ?_)
    intro target member fetched below
    exact inside ⟨target, member, fetched, below⟩

/-- The conditions under which a target takes a step hold at any time. -/
theorem Coherent.holds (separated : level.Separated)
    (coherent : level.Coherent states now) (member : target ∈ level.targets) :
    level.Holds target now := by
  have outside :
      ∀ other ∈ level.targets, other.isProject = true → other ≠ target →
      ¬ level.place other <+: level.place target := by
    intro other otherMember isProject different
    have spares := (separated.spares otherMember member different).1
    cases other with
    | project project ref names => exact spares
    | _ => cases isProject
  refine ⟨coherent.here, coherent.orderly,
    ⟨(separated.direct target member).down, ?_⟩, ?_, coherent.beside⟩
  · rw [spelled_of_here coherent.here]
    intro above prefixes proper
    refine coherent.unlinked ?_
      ((separated.direct target member).unlinked above prefixes proper)
    intro other otherMember isProject below
    by_cases same : other = target
    · subst same
      exact proper (prefixes.eq_of_length_le below.length_le)
    · exact outside other otherMember isProject same (below.trans prefixes)
  · intro notProject
    refine coherent.unlinked ?_ (separated.unlinked target member notProject)
    intro other otherMember isProject
    refine outside other otherMember isProject ?_
    rintro rfl
    cases notProject.symm.trans isProject

/-- A step has an effect, and the target has come further. -/
theorem effect_of_advance (separated : level.Separated)
    (answers : level.Answers)
    {workspace final : Workspace} (member : target ∈ level.targets)
    (holds : level.Holds target workspace.files)
    (describes : level.Describes target phase
      (workspace.files.root.at? (level.place target)))
    (success : perform level.surroundings
      (level.sources.advance level.trail level.filled target phase) workspace =
        (.ok next, final)) :
    level.Effect target workspace.files final.files ∧
      level.Describes target
        next (final.files.root.at? (level.place target)) := by
  have named := separated.named target member
  have direct := separated.direct target member
  cases target with
  | localFile declared =>
      obtain ⟨same, described⟩ :=
        of_advance_localFile named holds describes success
      exact ⟨.idle same, same ▸ described⟩
  | project project ref names =>
      exact of_advance_project answers member direct named
        (separated.steady project ref names member) holds describes success
  | remote address =>
      exact of_advance_remote direct named (separated.unlinked _ member rfl)
        holds describes success

private theorem Beside.of_effect (member : target ∈ level.targets)
    (beside : level.Beside before) (effect : level.Effect target before after) :
    level.Beside after := by
  have pending :
      after = before ∨ target.isFetched = true ∧ level.Pending target := by
    cases effect with
    | idle same => exact .inl same
    | project isProject pending _ =>
        cases target with
        | project project ref names => exact .inr ⟨rfl, pending⟩
        | _ => cases isProject
    | stored isRemote stale _ _ _ _ =>
        cases isRemote
        exact .inr ⟨rfl, stale⟩
  rcases pending with rfl | ⟨fetched, pending⟩
  · exact beside
  · intro location outside
    refine made_trans (beside location outside) ?_
    rcases effect.reshapes.way location (outside target member fetched) with
      same | ⟨towards, absent, made⟩
    · exact .inl same
    · exact .inr ⟨⟨target, member, pending, towards⟩, absent, made⟩

/-- A step of one target keeps what is known of all. -/
theorem Coherent.step (separated : level.Separated) (answers : level.Answers)
    {front back : List (Target × Phase)} {workspace final : Workspace}
    (coherent : level.Coherent (front ++ (target, phase) :: back)
      workspace.files)
    (success : perform level.surroundings
      (level.sources.advance level.trail level.filled target phase) workspace =
        (.ok next, final)) :
    level.Coherent (front ++ (target, next) :: back) final.files := by
  have listed := coherent.targets
  rw [List.map_append, List.map_cons] at listed
  have member : target ∈ level.targets := by simp [← listed]
  have spares : ∀ state ∈ front ++ back,
      level.Spares target state.1 ∧ level.Spares state.1 target := by
    have apart := separated.apart
    rw [← listed] at apart
    obtain ⟨_, behind, across⟩ := List.pairwise_append.mp apart
    intro state inOthers
    rcases List.mem_append.mp inOthers with inFront | inBack
    · exact (across _ (List.mem_map_of_mem inFront) _ (by simp)).symm
    · exact (List.pairwise_cons.mp behind).1 _ (List.mem_map_of_mem inBack)
  obtain ⟨effect, described⟩ := effect_of_advance separated answers member
    (coherent.holds separated member)
    (coherent.describes (target, phase) (by simp)) success
  have reshapes := effect.reshapes
  refine ⟨?_, reshapes.here.trans coherent.here,
    reshapes.orderly coherent.orderly,
    coherent.beside.of_effect member effect, ?_⟩
  · rw [List.map_append, List.map_cons]
    exact listed
  · intro state inStates
    rcases List.mem_append.mp inStates with inFront | inRest
    · obtain ⟨there, backwards⟩ := spares state (by simp [inFront])
      exact (coherent.describes state (by simp [inFront])).of_effect there
        backwards effect
    · rcases List.mem_cons.mp inRest with rfl | inBack
      · exact described
      · obtain ⟨there, backwards⟩ := spares state (by simp [inBack])
        exact (coherent.describes state (by simp [inBack])).of_effect there
          backwards effect

private theorem Coherent.run (separated : level.Separated)
    (answers : level.Answers)
    {workspace final : Workspace} {finals : List (Target × Phase)}
    (interleaves : Interleaves level.sources
      level.surroundings level.trail level.filled states workspace finals final)
    (coherent : level.Coherent states workspace.files) :
    level.Coherent finals final.files := by
  induction interleaves with
  | stop => exact coherent
  | step taken _ induction =>
      exact induction (coherent.step separated answers taken)

private theorem coherent_start (separated : level.Separated) :
    level.Coherent (level.targets.map fun target => (target, .waiting))
      level.start.files := by
  refine ⟨by simp [Function.comp_def], rfl, separated.orderly,
    fun _ _ => .inl rfl, ?_⟩
  intro state member
  obtain ⟨target, _, rfl⟩ := List.mem_map.mp member
  cases target with
  | localFile declared =>
      rintro task ⟨⟩
  | project project ref names => exact Alike.refl _
  | remote address => exact .waiting (.inl (.refl _))

/-- At the end all targets have come to the end of their steps. -/
theorem Ends.coherent (separated : level.Separated) (answers : level.Answers)
    {final : Workspace} (ends : level.Ends final) :
    ∃ states, level.Coherent states final.files ∧
      ∀ state ∈ states, state.2.isFinished = true := by
  obtain ⟨states, interleaves, finished⟩ := ends
  exact ⟨states,
    (coherent_start separated).run separated answers interleaves, finished⟩

end Level

end CiPipeline
