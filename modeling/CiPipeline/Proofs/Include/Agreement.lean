import CiPipeline.Proofs.Include.Concurrency

/-!
# Agreement of interleavings

All interleavings in which the targets of a level are prepared leave the same
files when the targets are apart, and what the level loads without a further
look is there.  When a remote file lies in the folder of a project, an
interleaving may remove it after it was found.
-/

namespace CiPipeline

open CiPipeline.Action CiPipeline.Confinement CiPipeline.FileTree
  CiPipeline.Files
open CiPipeline.IncludeSources

namespace IncludeSources

/-- The path of the file that is loaded for a directive, if that is done without
a further look. -/
def loadedPath? (sources : IncludeSources) : Include → Option String
  | .localFile path => some (sources.localPath path)
  | .template name => some (sources.remotePath (IncludeUrl.ofTemplate name))
  | .remote address => some (sources.remotePath address)
  | .projectFiles _ _ _ => none

end IncludeSources

namespace Target

private theorem mem_gatherRemote {target : Target} {directives : List Include}
    {targets : List Target} (member : target ∈ targets) :
    target ∈ directives.foldl gatherRemote targets := by
  induction directives generalizing targets with
  | nil => exact member
  | cons directive rest induction =>
      refine induction ?_
      cases directive with
      | template name => exact List.mem_append_left _ member
      | remote address =>
          rw [gatherRemote]
          split
          · exact member
          · exact List.mem_append_left _ member
      | _ => exact member

theorem gatherRemote_mem {address : String} {directive : Include}
    {directives : List Include}
    {targets : List Target} (declared : directive ∈ directives)
    (asks : ∀ targets, .remote address ∈ gatherRemote targets directive) :
    .remote address ∈ directives.foldl gatherRemote targets := by
  obtain ⟨front, back, rfl⟩ := List.append_of_mem declared
  rw [List.foldl_append, List.foldl_cons]
  exact mem_gatherRemote (asks _)

/-- A directive whose file is loaded without a further look asks for a target
that is no project. -/
theorem exists_of_loadedPath {sources : IncludeSources} {directive : Include}
    {directives : List Include} (declared : directive ∈ directives)
    {path : String} (loaded : sources.loadedPath? directive = some path) :
    ∃ target ∈ ofIncludes sources.repository.remote.defaultBranch directives,
      target.isProject = false ∧ target.path sources = path := by
  unfold ofIncludes
  cases directive with
  | localFile declaredPath =>
      have equal := Option.some.inj loaded
      have asked :
          Target.localFile declaredPath ∈ directives.filterMap ofLocal? :=
        List.mem_filterMap.mpr ⟨.localFile declaredPath, declared, rfl⟩
      refine ⟨.localFile declaredPath, ?_, rfl, equal⟩
      exact List.mem_append_left _ (List.mem_append_left _ asked)
  | template name =>
      have equal := Option.some.inj loaded
      refine ⟨.remote (IncludeUrl.ofTemplate name), ?_, rfl, equal⟩
      refine List.mem_append_right _ (gatherRemote_mem declared ?_)
      intro targets
      exact List.mem_append_right _ (List.mem_singleton_self _)
  | remote address =>
      have equal := Option.some.inj loaded
      refine ⟨.remote address, ?_, rfl, equal⟩
      refine List.mem_append_right _ (gatherRemote_mem declared ?_)
      intro targets
      rw [gatherRemote]
      split
      · rename_i listed
        simpa using listed
      · exact List.mem_append_right _ (List.mem_singleton_self _)
  | projectFiles project ref files => cases loaded

end Target

namespace Level

variable {level : Level} {target : Target} {phase : Phase} {now other : Files}
  {entry otherEntry : Option FileTree}

/-! ## Places at the end -/

private theorem settled_of_finished {address : String}
    (describes : level.DescribesRemote address phase entry)
    (finished : phase.isFinished = true) :
    Reachable (level.sources.remotePath address) ∧
      (level.Fresh address ∧ level.Kept (.remote address) entry ∨
        level.Stored address entry) := by
  cases describes with
  | waiting => cases finished
  | due _ notFinished => cases notFinished.symm.trans finished
  | settled _ reachable state => exact ⟨reachable, state⟩

private theorem completed_of_finished {project ref : String}
    {names : List String}
    (describes : level.DescribesProject project ref names entry phase)
    (finished : phase.isFinished = true) :
    level.Completed (.project project ref names)
      (reopened (level.found (.project project ref names))
        (level.projectTask project ref names)) entry
        (level.projectTask project ref names) := by
  cases phase with
  | finished task =>
      obtain ⟨rfl, completed⟩ := describes
      exact completed
  | _ => cases finished

/-- What a task makes of what was left is determined. -/
theorem Completed.alike (answers : level.Answers) {project ref : String}
    {names : List String} {left : Option FileTree}
    (member : .project project ref names ∈ level.targets)
    (completed : level.Completed (.project project ref names) left entry
      (level.projectTask project ref names))
    (alsoCompleted :
      level.Completed (.project project ref names) left otherEntry
        (level.projectTask project ref names)) :
    Alike entry otherEntry := by
  rcases projectTask_cases level project ref names with
    nothing | ⟨checkout, link⟩ | ⟨afresh, files, extract⟩
  · rw [nothing] at completed alsoCompleted
    exact completed.trans alsoCompleted.symm
  · rw [link] at completed alsoCompleted
    exact completed.trans alsoCompleted.symm
  · rw [extract] at completed alsoCompleted
    obtain ⟨before, output, after, here, same, folder, ran, zero, _, result⟩ :=
      completed
    obtain ⟨otherBefore, otherOutput, otherAfter, otherHere, otherSame, _,
      otherRan, otherZero, _, otherResult⟩ := alsoCompleted
    have place : before.spelled (level.sources.refFolder project ref) =
        level.place (.project project ref names) := spelled_of_here here _
    have determined :=
      answers.determined project ref names files before otherBefore output
      otherOutput after otherAfter member (here.trans otherHere.symm)
    rw [place] at determined
    exact (result.trans (determined (same.trans otherSame.symm) folder ran zero
      otherRan otherZero)).trans otherResult.symm

/-- What stands at the place of a target at the end is determined. -/
theorem alike_of_finished (answers : level.Answers) {otherPhase : Phase}
    (member : target ∈ level.targets) (fetched : target.isFetched = true)
    (describes : level.Describes target phase entry)
    (finished : phase.isFinished = true)
    (alsoDescribes : level.Describes target otherPhase otherEntry)
    (alsoFinished : otherPhase.isFinished = true) : Alike entry otherEntry := by
  cases target with
  | localFile declared => cases fetched
  | project project ref names =>
      exact (completed_of_finished describes finished).alike answers member
        (completed_of_finished alsoDescribes alsoFinished)
  | remote address =>
      obtain ⟨_, ⟨fresh, kept⟩ | ⟨stale, content, isBody, file⟩⟩ :=
        settled_of_finished describes finished
      · obtain ⟨_, ⟨_, alsoKept⟩ | ⟨stale, _⟩⟩ :=
          settled_of_finished alsoDescribes alsoFinished
        · exact kept.trans alsoKept.symm
        · exact (stale fresh).elim
      · obtain ⟨_, ⟨fresh, _⟩ | ⟨_, otherContent, alsoBody, alsoFile⟩⟩ :=
          settled_of_finished alsoDescribes alsoFinished
        · exact (stale fresh).elim
        · cases answers.bodies address content otherContent isBody alsoBody
          exact file.trans alsoFile.symm

/-- Something stands at every place that was going to be filled. -/
theorem isSome_of_pending (pending : level.Pending target)
    (describes : level.Describes target phase entry)
    (finished : phase.isFinished = true) :
    entry.isSome = true := by
  cases target with
  | localFile declared => cases pending
  | project project ref names =>
      have completed := completed_of_finished describes finished
      rcases projectTask_cases level project ref names with
        nothing | ⟨checkout, link⟩ | ⟨afresh, files, extract⟩
      · exact (pending nothing).elim
      · rw [link] at completed
        exact completed.isSome_eq
      · rw [extract] at completed
        obtain ⟨_, _, _, _, _, _, _, _, folder, result⟩ := completed
        have stands := congrArg Option.isSome folder
        rw [Option.isSome_map] at stands
        exact result.isSome_eq.trans stands
  | remote address =>
      obtain ⟨_, ⟨fresh, _⟩ | ⟨_, content, _, file⟩⟩ :=
        settled_of_finished describes finished
      · exact (pending fresh).elim
      · exact file.isSome_eq

private theorem isFetched_of_pending (pending : level.Pending target) :
    target.isFetched = true := by
  cases target with
  | localFile declared => cases pending
  | project project ref names => rfl
  | remote address => rfl

/-- There is a folder wherever something stands below. -/
theorem folder_above {tree : FileTree} {location place : List String}
    (stands : (tree.at? place).isSome = true) (prefixes : location <+: place)
    (above : ¬ place <+: location) :
    (tree.at? location).map kind = some .folder := by
  obtain ⟨rest, rfl⟩ := prefixes
  cases rest with
  | nil =>
      rw [List.append_nil] at above
      exact (above List.prefix_rfl).elim
  | cons name others =>
      obtain ⟨entry, there⟩ := Option.isSome_iff_exists.mp stands
      obtain ⟨entries, _, folder, _⟩ := folder_of_stands there
      rw [folder]
      rfl

/-- A location beside all places is as it was at the start, or a folder in both
of two ends. -/
theorem kind_eq_beside {states : List (Target × Phase)} {location : List String}
    (outside : ∀ target ∈ level.targets, target.isFetched = true →
      ¬ level.place target <+: location) (beside : level.Beside now)
    (coherent : level.Coherent states other)
    (finished : ∀ state ∈ states, state.2.isFinished = true) :
    (now.root.at? location).map kind =
      (level.start.files.root.at? location).map kind ∨
      (now.root.at? location).map kind =
        (other.root.at? location).map kind := by
  rcases beside location outside with
    same | ⟨⟨target, member, pending, towards⟩, _, made⟩
  · exact .inl same
  · obtain ⟨phase, listed, describes⟩ := coherent.exists_phase member
    have stands := isSome_of_pending pending describes (finished _ listed)
    have folder := folder_above stands towards
      (outside target member (isFetched_of_pending pending))
    exact .inr (made.trans folder.symm)

/-- All interleavings in which a level comes to its end leave the same files. -/
theorem kind_eq_of_ends (separated : level.Separated) (answers : level.Answers)
    {first second : Workspace} (ends : level.Ends first)
    (alsoEnds : level.Ends second) (location : List String) :
    (first.files.root.at? location).map kind =
      (second.files.root.at? location).map kind := by
  obtain ⟨states, coherent, finished⟩ := ends.coherent separated answers
  obtain ⟨otherStates, otherCoherent, otherFinished⟩ :=
    alsoEnds.coherent separated answers
  by_cases inside : ∃ target ∈ level.targets, target.isFetched = true ∧
      level.place target <+: location
  · obtain ⟨target, member, fetched, rest, rfl⟩ := inside
    obtain ⟨phase, listed, describes⟩ := coherent.exists_phase member
    obtain ⟨otherPhase, otherListed, otherDescribes⟩ :=
      otherCoherent.exists_phase member
    have alike := alike_of_finished answers member fetched describes
      (finished _ listed) otherDescribes (otherFinished _ otherListed)
    exact alike_at?_iff.mp alike rest
  · have outside : ∀ target ∈ level.targets, target.isFetched = true →
        ¬ level.place target <+: location := by
      intro target member fetched below
      exact inside ⟨target, member, fetched, below⟩
    rcases kind_eq_beside outside coherent.beside otherCoherent otherFinished
      with same | equal
    · rcases kind_eq_beside outside otherCoherent.beside coherent finished with
        otherSame | otherEqual
      · exact same.trans otherSame.symm
      · exact otherEqual.symm
    · exact equal

/-- At the end local and remote files are there. -/
theorem has_of_ends (separated : level.Separated) (answers : level.Answers)
    {final : Workspace} (ends : level.Ends final)
    (member : target ∈ level.targets) (notProject : target.isProject = false) :
    final.files.has (target.path level.sources) = .ok true := by
  obtain ⟨states, coherent, finished⟩ := ends.coherent separated answers
  obtain ⟨phase, listed, describes⟩ := coherent.exists_phase member
  have holds := coherent.holds separated member
  have named := separated.named target member
  have place :
      final.files.spelled (target.path level.sources) = level.place target :=
    spelled_of_here coherent.here _
  have unlinked := holds.unlinked notProject
  rw [← place] at unlinked
  have stands : Reachable (target.path level.sources) ∧
      (final.files.root.at? (level.place target)).isSome = true := by
    cases target with
    | localFile declared =>
        cases phase with
        | finished task => exact (describes task rfl).2
        | _ => cases finished _ listed
    | project project ref names => cases notProject
    | remote address =>
        obtain ⟨reachable, ⟨fresh, kept⟩ | ⟨_, content, _, file⟩⟩ :=
          settled_of_finished describes (finished _ listed)
        · refine ⟨reachable, ?_⟩
          rw [kept.isSome_eq]
          exact ((separated.direct _ member).of_has named
            (separated.unlinked _ member rfl) fresh.2).1
        · exact ⟨reachable, file.isSome_eq⟩
  rw [← place] at stands
  exact holds.direct.has_of_isSome named unlinked stands.1 stands.2

/-- When the targets of the directives of one level are apart, any two
interleavings of their steps in which all targets are prepared leave the
same files, and every local file, template and remote file that is loaded
then is there. -/
theorem ends_agree (separated : level.Separated) (answers : level.Answers)
    {directives : List Include}
    (asked : level.targets =
      Target.ofIncludes level.sources.repository.remote.defaultBranch
        directives)
    {first second : Workspace} (ends : level.Ends first)
    (alsoEnds : level.Ends second) :
    (∀ location, (first.files.root.at? location).map kind =
        (second.files.root.at? location).map kind) ∧
      ∀ directive ∈ directives, ∀ path,
        level.sources.loadedPath? directive = some path →
        first.files.has path = .ok true ∧ second.files.has path = .ok true := by
  constructor
  · exact kind_eq_of_ends separated answers ends alsoEnds
  · intro directive declared path loaded
    obtain ⟨target, member, notProject, rfl⟩ :=
      Target.exists_of_loadedPath declared loaded
    rw [← asked] at member
    exact ⟨has_of_ends separated answers ends member notProject,
      has_of_ends separated answers alsoEnds member notProject⟩

/-! ## Targets that are apart, and one that lies in another -/

/-- Sources without checkouts of projects. -/
def plainSources : IncludeSources where
  cache := { checkout := "/app", refetches := false }
  repository := {}
  checkouts := {}

/-- Surroundings in which a file of a project is extracted into its folder, and
every address answers with an empty file. -/
def serving (sources : IncludeSources) (project ref name : String) :
    Surroundings where
  run := fun _ files =>
    if files.hasFolder (sources.refFolder project ref) then
      (.ok { text := "", code := 0 },
        files.put (files.spelled (sources.refFolder project ref) ++ [name])
          (some (.file "".toUTF8)))
    else (.ok { text := "", code := 1 }, files)
  request := fun _ _ => .answered 200 (some "".toUTF8)

/-- Directives for a file of each kind. -/
def mixedDirectives : List Include :=
  [.localFile "a.yml", .projectFiles "p" none ["a.yml"],
    .remote "https://h/b.yml"]

/-- A level with those directives.  The folder of the project holds a file
from before. -/
def mixedLevel : Level where
  sources := plainSources
  surroundings := serving plainSources "p" "main" "a.yml"
  trail := Trail.root
  filled := []
  targets := [.localFile "a.yml", .project "p" "main" ["a.yml"],
    .remote "https://h/b.yml"]
  start := {
    files := {
      root := .folder [("app", .folder [
        ("a.yml", .file "".toUTF8),
        (".gitlab-ci-local", .folder [("includes", .folder [("gitlab.com",
          .folder [("p", .folder
            [("main", .folder [("old.yml", .file "".toUTF8)])])])])])])] } }

private theorem separated_mixedLevel : mixedLevel.Separated := by
  have straight :
      (∀ target ∈ mixedLevel.targets, Named (target.path mixedLevel.sources)) ∧
      (∀ target ∈ mixedLevel.targets,
        mixedLevel.start.files.Direct (target.path mixedLevel.sources)) ∧
      (∀ target ∈ mixedLevel.targets, target.isProject = false →
        mixedLevel.start.files.root.Unlinked (mixedLevel.place target)) ∧
      mixedLevel.targets.Pairwise fun first second =>
        mixedLevel.Spares first second ∧ mixedLevel.Spares second first := by
    decide +kernel
  obtain ⟨named, direct, unlinked, apart⟩ := straight
  refine ⟨by simp [mixedLevel], named, direct, unlinked, apart, ?_⟩
  intro project ref names member name asked
  have same : project = "p" ∧ ref = "main" ∧ names = ["a.yml"] := by
    simpa [mixedLevel] using member
  obtain ⟨rfl, rfl, rfl⟩ := same
  cases List.mem_singleton.mp asked
  have below : mixedLevel.start.files.Direct
        (mixedLevel.sources.projectFile "p" "main" "a.yml") ∧
      Named (mixedLevel.sources.projectFile "p" "main" "a.yml") ∧
      mixedLevel.start.files.root.Unlinked (mixedLevel.start.files.spelled
        (mixedLevel.sources.projectFile "p" "main" "a.yml")) ∧
      mixedLevel.place (.project "p" "main" ["a.yml"]) <+:
        mixedLevel.start.files.spelled
        (mixedLevel.sources.projectFile "p" "main" "a.yml") ∧
      ∀ target ∈ mixedLevel.targets, target.isFetched = true →
        mixedLevel.place target <+:
          mixedLevel.place (.project "p" "main" ["a.yml"]) →
        mixedLevel.place target =
          mixedLevel.place (.project "p" "main" ["a.yml"]) := by
    decide +kernel
  exact steady_of_direct _ below.1 below.2.1 below.2.2.1 below.2.2.2.1
    below.2.2.2.2

private theorem extracted_of_serving {sources : IncludeSources}
    {project ref name : String} {command : Command} {before after : Files}
    {output : CommandOutput}
    (ran : (serving sources project ref name).run command before =
      (.ok output, after)) (zero : output.code = 0) :
    before.hasFolder (sources.refFolder project ref) = true ∧
      after = before.put (before.spelled (sources.refFolder project ref) ++
        [name]) (some (.file "".toUTF8)) := by
  unfold serving at ran
  dsimp only at ran
  split at ran
  · rename_i folder
    cases ran
    exact ⟨folder, rfl⟩
  · cases ran
    cases zero

private theorem answers_serving {level : Level} {project ref name : String}
    (serves : level.surroundings = serving level.sources project ref name)
    (only : ∀ other otherRef names,
      .project other otherRef names ∈ level.targets →
      other = project ∧ otherRef = ref) : level.Answers := by
  have body {address : String} {content : ByteArray}
      (isBody : level.IsBody address content) :
      content = "".toUTF8 := by
    obtain ⟨_, _, _, _, answered, _⟩ := isBody
    rw [serves] at answered
    cases answered
    rfl
  constructor
  · intro address first second isBody alsoBody
    exact (body isBody).trans (body alsoBody).symm
  · intro other otherRef asked names before output after member ran zero
    obtain ⟨rfl, rfl⟩ := only other otherRef asked member
    exact (extracted_of_serving (serves ▸ ran) zero).1
  · intro other otherRef asked names before output after member ran zero folder
    obtain ⟨rfl, rfl⟩ := only other otherRef asked member
    obtain ⟨_, rfl⟩ := extracted_of_serving (serves ▸ ran) zero
    constructor
    · rfl
    · intro orderly
      exact orderly.set _ (by simp)
    · exact (sameBeside_set _ _ _).mono (List.prefix_append _ _)
    · exact folder_of_set_below folder
  · intro other otherRef asked names first second output otherOutput after final
      member here alike folder ran zero alsoRan alsoZero
    obtain ⟨rfl, rfl⟩ := only other otherRef asked member
    obtain ⟨_, rfl⟩ := extracted_of_serving (serves ▸ ran) zero
    obtain ⟨_, rfl⟩ := extracted_of_serving (serves ▸ alsoRan) alsoZero
    rw [spelled_of_here here.symm]
    exact alike_of_set_below alike folder

private theorem answers_mixedLevel : mixedLevel.Answers := by
  apply answers_serving rfl
  intro project ref names member
  have same : project = "p" ∧ ref = "main" ∧ names = ["a.yml"] := by
    simpa [mixedLevel] using member
  exact ⟨same.1, same.2.1⟩

theorem ends_agree_mixed :
    ∃ first second, mixedLevel.Ends first ∧ mixedLevel.Ends second ∧
      (∀ location, (first.files.root.at? location).map kind =
        (second.files.root.at? location).map kind) ∧
      ∀ directive ∈ mixedDirectives, ∀ path,
        mixedLevel.sources.loadedPath? directive = some path →
          first.files.has path = .ok true ∧
            second.files.has path = .ok true := by
  have asked : mixedLevel.targets = Target.ofIncludes
      mixedLevel.sources.repository.remote.defaultBranch mixedDirectives := by
    decide +kernel
  have succeed : (perform mixedLevel.surroundings
        (mixedLevel.sources.prepare mixedLevel.trail mixedLevel.filled
          mixedLevel.targets) mixedLevel.start).1.isOk = true ∧
      (perform mixedLevel.surroundings
        (mixedLevel.sources.prepare mixedLevel.trail mixedLevel.filled
          (mixedLevel.targets.take 2)) mixedLevel.start).1.isOk = true ∧
      (perform mixedLevel.surroundings
        (mixedLevel.sources.prepare mixedLevel.trail mixedLevel.filled
          (mixedLevel.targets.drop 2))
        (perform mixedLevel.surroundings
          (mixedLevel.sources.prepare mixedLevel.trail mixedLevel.filled
            (mixedLevel.targets.take 2)) mixedLevel.start).2).1.isOk =
        true := by
    decide +kernel
  have ends := completes_of_isOk succeed.1
  have alsoEnds :=
    (completes_of_isOk succeed.2.1).append (completes_of_isOk succeed.2.2)
  rw [List.take_append_drop] at alsoEnds
  exact ⟨_, _, ends, alsoEnds,
    ends_agree separated_mixedLevel answers_mixedLevel asked ends alsoEnds⟩

/-- Directives for a remote file, and for a project in whose folder the remote
file is kept. -/
def nestedDirectives : List Include :=
  [.remote "http://gitlab.com/p/main/x.yml",
    .projectFiles "p" (some "main") ["a.yml"]]

/-- A level with those directives.  The remote file is there from before. -/
def nestedLevel : Level where
  sources := plainSources
  surroundings := serving plainSources "p" "main" "a.yml"
  trail := Trail.root
  filled := []
  targets :=
    [.project "p" "main" ["a.yml"], .remote "http://gitlab.com/p/main/x.yml"]
  start := {
    files := {
      root := .folder [("app", .folder [
        (".gitlab-ci-local", .folder [("includes", .folder [("gitlab.com",
          .folder [("p", .folder
            [("main", .folder [("x.yml", .file "".toUTF8)])])])])])])] } }

/-- All targets are prepared, but the remote file is gone when its turn comes to
be loaded. -/
theorem ends_without_nested :
    nestedLevel.Answers ∧
      nestedLevel.targets = Target.ofIncludes
        nestedLevel.sources.repository.remote.defaultBranch nestedDirectives ∧
      ∃ final, nestedLevel.Ends final ∧ ∃ directive ∈ nestedDirectives, ∃ path,
        nestedLevel.sources.loadedPath? directive = some path ∧
          final.files.has path = .ok false := by
  have evaluated : (perform nestedLevel.surroundings
        (nestedLevel.sources.prepare nestedLevel.trail nestedLevel.filled
          nestedLevel.targets) nestedLevel.start).1.isOk = true ∧
      ((perform nestedLevel.surroundings
        (nestedLevel.sources.prepare nestedLevel.trail nestedLevel.filled
          nestedLevel.targets) nestedLevel.start).2.files.has
        (nestedLevel.sources.remotePath
          "http://gitlab.com/p/main/x.yml")).toOption =
        some false := by
    decide +kernel
  refine ⟨?_, by decide +kernel, _, completes_of_isOk evaluated.1, _,
    List.mem_cons_self, _, rfl, Sequencing.eq_ok_of_toOption evaluated.2⟩
  apply answers_serving rfl
  intro project ref names member
  have same : project = "p" ∧ ref = "main" ∧ names = ["a.yml"] := by
    simpa [nestedLevel] using member
  exact ⟨same.1, same.2.1⟩

end Level

end CiPipeline
