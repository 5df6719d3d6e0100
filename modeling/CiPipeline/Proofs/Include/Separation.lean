import CiPipeline.Proofs.Include.CacheEffects
import CiPipeline.Proofs.Include.Interleavings

/-!
# Targets that are apart

The targets of one level of includes are apart when the place of none lies in a
place that is removed or filled for another.  Each step of a target then changes
nothing but its own place and the way there, and what stands at the place
depends only on how far the target has come.
-/

namespace CiPipeline

open CiPipeline.Action CiPipeline.Confinement CiPipeline.FileTree
  CiPipeline.Files
open CiPipeline.IncludeSources

namespace Target

/-- The path that a target is brought to, or that a local file has. -/
def path (sources : IncludeSources) : Target → String
  | .localFile declared => sources.localPath declared
  | .project name ref _ => sources.refFolder name ref
  | .remote address => sources.remotePath address

/-- Whether something is fetched for a target. -/
def isFetched : Target → Bool
  | .localFile _ => false
  | _ => true

/-- Whether a target is a project, the folder of which may be a link. -/
def isProject : Target → Bool
  | .project _ _ _ => true
  | _ => false

end Target

/-- The targets of one level of includes, and all that decides what
becomes of them. -/
structure Level where
  sources : IncludeSources
  surroundings : Surroundings
  trail : Trail
  filled : Filled
  targets : List Target
  start : Workspace

namespace Level

variable (level : Level)

/-- Whether a workspace is reached when all targets have taken their steps in
some order. -/
def Ends (after : Workspace) : Prop :=
  Completes level.sources level.surroundings level.trail level.filled
    level.targets level.start after

/-- The location of a target. -/
def place (target : Target) : List String :=
  level.start.files.spelled (target.path level.sources)

/-- What stands at the place of a target at the start. -/
def found (target : Target) : Option FileTree :=
  level.start.files.root.at? (level.place target)

/-! ## What is done for a target -/

/-- Whether a remote file is there at the start and is not fetched anew. -/
def Fresh (address : String) : Prop :=
  level.sources.cache.refetches = false ∧
    level.start.files.has (level.sources.remotePath address) = .ok true

/-- The files of a project that are not there at the start. -/
def missing (project ref : String) (names : List String) : List String :=
  names.filter fun name =>
    (level.start.files.has
      (level.sources.projectFile project ref name)).toOption != some true

/-- What has to be done for a project, judged by what is there at the start. -/
def projectTask (project ref : String) (names : List String) : Task :=
  if level.filled.contains (project, ref) then
    if (level.missing project ref names).isEmpty ||
        level.start.files.hasLink (level.sources.refFolder project ref) then
      .nothing
    else .extract false project ref (level.missing project ref names)
  else if level.sources.cache.refetches = false ∧
      level.missing project ref names = [] then
    .nothing
  else level.sources.renewal project ref names

/-- Whether the place of a target is going to be filled. -/
def Pending : Target → Prop
  | .localFile _ => False
  | .project project ref names => level.projectTask project ref names ≠ .nothing
  | .remote address => ¬ level.Fresh address

/-- Whether files differ from those at the start only at the places of
targets, and by folders that were made on the way to places that are going
to be filled. -/
def Beside (now : Files) : Prop :=
  ∀ other, (∀ target ∈ level.targets,
    target.isFetched = true → ¬ level.place target <+: other) →
    (now.root.at? other).map kind =
      (level.start.files.root.at? other).map kind ∨
    (∃ target ∈ level.targets,
      level.Pending target ∧ other <+: level.place target) ∧
      level.start.files.root.at? other = none ∧
      (now.root.at? other).map kind = some .folder

/-! ## Conditions -/

/-- Whether what is done for the first of two targets leaves the
second one alone. -/
def Spares : Target → Target → Prop
  | .localFile _, _ => True
  | .remote _, .localFile _ => True
  | .remote first, .remote second =>
      first = second ∨
        ¬ level.place (.remote first) <+: level.place (.remote second)
  | first, second => ¬ level.place first <+: level.place second

instance (first second : Target) : Decidable (level.Spares first second) :=
  match first, second with
  | .localFile _, _ => inferInstanceAs (Decidable True)
  | .remote _, .localFile _ => inferInstanceAs (Decidable True)
  | .remote _, .remote _ => inferInstanceAs (Decidable (_ ∨ _))
  | .remote _, .project _ _ _ => inferInstanceAs (Decidable (¬ _))
  | .project _ _ _, _ => inferInstanceAs (Decidable (¬ _))

/-- Whether it depends on the folder of the project, and on nothing that is
changed for other targets, if a file of the project is there. -/
def Steady (project ref : String) (names : List String)
    (name : String) : Prop :=
  ∀ now : Files, now.here = level.start.files.here → level.Beside now →
    Alike (now.root.at? (level.place (.project project ref names)))
      (level.found (.project project ref names)) →
    ∀ present, now.has (level.sources.projectFile project ref name) =
      .ok present →
      (present = true ↔
        level.start.files.has (level.sources.projectFile project ref name) =
          .ok true)

section

variable {project ref : String} {names : List String} {name : String}
  (direct : level.start.files.Direct (level.sources.projectFile project ref
    name)) (named : Named (level.sources.projectFile project ref name))
  (unlinked : level.start.files.root.Unlinked
    (level.start.files.spelled (level.sources.projectFile project ref name)))
  (inside : level.place (.project project ref names) <+:
    level.start.files.spelled (level.sources.projectFile project ref name))
  (apart : ∀ target ∈ level.targets, target.isFetched = true →
    level.place target <+: level.place (.project project ref names) →
    level.place target = level.place (.project project ref names))

include direct unlinked inside apart

/-- No link comes to lie on the way to a file of a project whose
folder is kept. -/
theorem unlinked_of_kept {now : Files} (beside : level.Beside now)
    (kept : Alike (now.root.at? (level.place (.project project ref names)))
      (level.found (.project project ref names)))
    {above : List String}
    (prefixes : above <+: level.start.files.spelled
      (level.sources.projectFile project ref name)) :
    now.root.Unlinked above := by
  -- What lies in the folder is as it was at the start, and what lies above it
  -- has at most been made.
  by_cases below : level.place (.project project ref names) <+: above
  · obtain ⟨rest, rfl⟩ := below
    intro target linked
    rw [at?_append] at linked
    have stood := (kept.below rest).eq_link linked
    unfold found at stood
    rw [← at?_append] at stood
    by_cases whole : level.place (.project project ref names) ++ rest =
        level.start.files.spelled (level.sources.projectFile project ref name)
    · rw [whole] at stood
      exact unlinked target stood
    · exact direct.unlinked _ prefixes whole target stood
  · have higher : above <+: level.place (.project project ref names) :=
      (List.prefix_or_prefix_of_prefix prefixes inside).resolve_right below
    have proper : above ≠
        level.start.files.spelled
          (level.sources.projectFile project ref name) := by
      intro whole
      rw [whole] at below
      exact below inside
    apply unlinked_of_made (direct.unlinked above prefixes proper)
    apply beside
    intro target member fetched higherUp
    rw [apart target member fetched (higherUp.trans higher)] at higherUp
    exact below higherUp

include named

/-- A file of a project is steady when its path leads past no link and no other
target lies above the project. -/
theorem steady_of_direct : level.Steady project ref names name := by
  intro now here beside kept present has
  have place :=
    spelled_of_here here (level.sources.projectFile project ref name)
  have nowDirect : now.Direct (level.sources.projectFile project ref name) := by
    refine ⟨direct.down, ?_⟩
    intro above prefixes _
    rw [place] at prefixes
    exact unlinked_of_kept level direct unlinked inside apart beside
      kept prefixes
  have nowUnlinked := unlinked_of_kept level direct unlinked inside apart beside
    kept List.prefix_rfl
  rw [← place] at nowUnlinked
  obtain ⟨stands, reachable⟩ := nowDirect.of_has named nowUnlinked has
  have same : (now.root.at? (level.start.files.spelled
        (level.sources.projectFile project ref name))).isSome =
      (level.start.files.root.at? (level.start.files.spelled
        (level.sources.projectFile project ref name))).isSome := by
    obtain ⟨rest, spelled⟩ := inside
    rw [← spelled, at?_append, at?_append]
    exact (kept.below rest).isSome_eq
  rw [place, same] at stands
  constructor
  · intro isPresent
    apply direct.has_of_isSome named unlinked (reachable isPresent)
    exact stands.trans isPresent
  · intro stood
    exact stands.symm.trans (direct.of_has named unlinked stood).1

end

/-- Targets whose paths lead straight to places that are apart. -/
structure Separated : Prop where
  orderly : level.start.files.root.Orderly
  named : ∀ target ∈ level.targets, Named (target.path level.sources)
  direct : ∀ target ∈ level.targets, level.start.files.Direct
    (target.path level.sources)
  unlinked : ∀ target ∈ level.targets, target.isProject = false →
    level.start.files.root.Unlinked (level.place target)
  apart : level.targets.Pairwise fun first second =>
    level.Spares first second ∧ level.Spares second first
  steady : ∀ project ref names, .project project ref names ∈ level.targets →
    ∀ name ∈ names, level.Steady project ref names name

/-- Whether some content is what servers answer for an address. -/
def IsBody (address : String) (content : ByteArray) : Prop :=
  ∃ url count status, Url.read address = .ok url ∧
    level.surroundings.request url count = .answered status (some content) ∧
    Http.isSuccess status = true

/-- What an archive command has done when it ends with code zero: there was a
folder to extract into, and nothing has changed but what is in it. -/
structure Extraction (location : List String)
    (before after : Files) : Prop where
  here : after.here = before.here
  orderly : before.root.Orderly → after.root.Orderly
  same : SameBeside location before.root after.root
  folder : (after.root.at? location).map kind = some .folder

/-- Servers that answer an address always with the same content, and archives of
the projects of which the content is fixed. -/
structure Answers : Prop where
  bodies : ∀ address first second,
    level.IsBody address first → level.IsBody address second →
    first = second
  folder : ∀ project ref asked names before output after,
    .project project ref asked ∈ level.targets →
    level.surroundings.run (archiveCommand level.sources project ref names)
      before = (.ok output, after) → output.code = 0 →
    before.hasFolder (level.sources.refFolder project ref) = true
  extracts : ∀ project ref asked names before output after,
    .project project ref asked ∈ level.targets →
    level.surroundings.run (archiveCommand level.sources project ref names)
      before = (.ok output, after) → output.code = 0 →
    (before.root.at? (before.spelled (level.sources.refFolder project ref))).map
      kind = some .folder →
    Extraction (before.spelled (level.sources.refFolder project ref))
      before after
  determined : ∀ project ref asked names first second output other after final,
    .project project ref asked ∈ level.targets → first.here = second.here →
    Alike (first.root.at? (first.spelled (level.sources.refFolder project ref)))
      (second.root.at? (first.spelled (level.sources.refFolder project ref))) →
    (first.root.at? (first.spelled (level.sources.refFolder project ref))).map
      kind = some .folder →
    level.surroundings.run (archiveCommand level.sources project ref names)
      first = (.ok output, after) → output.code = 0 →
    level.surroundings.run (archiveCommand level.sources project ref names)
      second = (.ok other, final) → other.code = 0 →
    Alike (after.root.at? (first.spelled (level.sources.refFolder project ref)))
      (final.root.at? (first.spelled (level.sources.refFolder project ref)))

/-! ## What stands at the place of a target -/

/-- Whether something is what stood at the place of a target at the start. -/
def Kept (target : Target) (entry : Option FileTree) : Prop :=
  Alike entry (level.found target)

/-- Whether something is a remote file that was downloaded. -/
def Stored (address : String) (entry : Option FileTree) : Prop :=
  ¬ level.Fresh address ∧
    ∃ content, level.IsBody address content ∧ Alike entry (some (.file content))

/-- How a local file stands, which is only looked at. -/
def DescribesLocal (declared : String) (phase : Phase)
    (entry : Option FileTree) : Prop :=
  ∀ task, phase.task? = some task →
    task = .nothing ∧ Reachable (level.sources.localPath declared) ∧
      entry.isSome = true

/-- What stands at the place of a remote file.  The same address may be asked
for twice, so that the file may be stored before it has been planned for. -/
inductive DescribesRemote (address : String) :
    Phase → Option FileTree → Prop where
  | waiting {entry : Option FileTree} :
      level.Kept (.remote address) entry ∨ level.Stored address entry →
      DescribesRemote address .waiting entry
  | due {phase : Phase} {url : Url} {entry : Option FileTree} :
      phase.task? = some (.download url address) → phase.isFinished = false →
      Url.read address = .ok url → ¬ level.Fresh address →
      level.Kept (.remote address) entry ∨ level.Stored address entry →
      DescribesRemote address phase entry
  | settled {phase : Phase} {entry : Option FileTree} :
      phase.task? = some .nothing ∨ phase.isFinished = true →
      Reachable (level.sources.remotePath address) →
      (level.Fresh address ∧ level.Kept (.remote address) entry) ∨
        level.Stored address entry →
      DescribesRemote address phase entry

/-- What is left of something once it has been removed for a task. -/
def vacated (entry : Option FileTree) : Task → Option FileTree
  | .link _ _ _ => none
  | .extract true _ _ _ => none
  | _ => entry

/-- What is left of something once it has been removed for a task, and its
folder made anew. -/
def reopened (entry : Option FileTree) : Task → Option FileTree
  | .link _ _ _ => none
  | .extract true _ _ _ => some .empty
  | _ => entry

/-- Whether something is what a task of a project makes of what was left. -/
def Completed (target : Target) (entry result : Option FileTree) : Task → Prop
  | .link _ _ checkout => Alike result (some (.link checkout))
  | .extract _ project ref names => ∃ before output after,
      before.here = level.start.files.here ∧
        Alike (before.root.at? (level.place target)) entry ∧
        (before.root.at? (level.place target)).map kind = some .folder ∧
        level.surroundings.run (archiveCommand level.sources project ref names)
          before = (.ok output, after) ∧
        output.code = 0 ∧
          (after.root.at? (level.place target)).map kind = some .folder ∧
        Alike result (after.root.at? (level.place target))
  | _ => Alike result entry

/-- What stands at the place of a project. -/
def DescribesProject (project ref : String) (names : List String)
    (entry : Option FileTree) :
    Phase → Prop
  | .waiting => level.Kept (.project project ref names) entry
  | .planned task =>
      task = level.projectTask project ref names ∧
        level.Kept (.project project ref names) entry
  | .cleared task =>
      task = level.projectTask project ref names ∧
        Alike entry (vacated (level.found (.project project ref names)) task)
  | .opened task =>
      task = level.projectTask project ref names ∧
        Alike entry (reopened (level.found (.project project ref names)) task)
  | .finished task =>
      task = level.projectTask project ref names ∧
        level.Completed (.project project ref names)
          (reopened (level.found (.project project ref names)) task) entry task

/-- What stands at the place of a target, as far as the target has come. -/
def Describes (target : Target) (phase : Phase)
    (entry : Option FileTree) : Prop :=
  match target with
  | .localFile declared => level.DescribesLocal declared phase entry
  | .project project ref names =>
      level.DescribesProject project ref names entry phase
  | .remote address => level.DescribesRemote address phase entry

/-- What is known of the files whenever a target may take a step. -/
structure Holds (target : Target) (now : Files) : Prop where
  here : now.here = level.start.files.here
  orderly : now.root.Orderly
  direct : now.Direct (target.path level.sources)
  unlinked : target.isProject = false → now.root.Unlinked (level.place target)
  beside : level.Beside now

/-- What a step for a target does to the files. -/
inductive Effect (target : Target) (before after : Files) : Prop where
  | idle : after = before → Effect target before after
  | project : target.isProject = true → level.Pending target →
      Reshapes (level.place target) before after → Effect target before after
  | stored {address : String} {content : ByteArray} : target = .remote address →
      ¬ level.Fresh address → level.IsBody address content →
      Reshapes (level.place target) before after →
      after.root.at? (level.place target) = some (.file content) →
      (∀ entries, before.root.at? (level.place target) ≠
        some (.folder entries)) →
      Effect target before after

end Level

end CiPipeline
