import CiPipeline.Include.Cache
import CiPipeline.Proofs.Files.Path
import CiPipeline.Proofs.Sequencing

/-!
# Where included files are kept

The place of an included file is its names in a row below the folder of the
cache: a remote file loses its scheme, and a file of a project comes behind
host, project and ref.  Two places are the same exactly when the names in a row
are, however these are told apart in what is included.
-/

namespace CiPipeline

namespace Path

open CiPipeline.Text

/-- What two paths are compared by: where they start, and the names behind that
but for points. -/
def components (path : String) : List String :=
  (if isAbsolute path then ["/"]
  else if (parts path).head? = some "." then ["."] else []) ++ steps path

/-- Two spellings of one path. -/
def Same (first second : String) : Prop := components first = components second

instance (first second : String) : Decidable (Same first second) :=
  inferInstanceAs (Decidable (components first = components second))

private theorem parts_ne_nil {path : String} (present : path ≠ "")
    (relative : isAbsolute path = false) :
    parts path ≠ [] := by
  have nonempty : path.toList ≠ [] := by simpa using present
  obtain ⟨first, rest, spelled⟩ := List.exists_cons_of_ne_nil nonempty
  have noSlash : (first == '/') = false := by
    simpa [isAbsolute, spelled] using relative
  unfold parts
  rw [spelled, splitAll]
  cases splitAll '/' rest with
  | nil => simp
  | cons part others => simp [noSlash]

private theorem steps_join (base : String) {path : String}
    (relative : isAbsolute path = false) :
    steps (join base path) = steps base ++ steps path := by
  unfold steps
  rw [parts_join base relative, List.filter_append]

/-- A relative path adds its names to those of the path that it is below. -/
theorem components_join {base path : String} (present : base ≠ "")
    (relative : isAbsolute path = false) :
    components (join base path) = components base ++ steps path := by
  have start : (parts base ++ parts path).head? = (parts base).head? ∨
      isAbsolute base = true := by
    cases absolute : isAbsolute base with
    | true => exact .inr rfl
    | false =>
        exact .inl
          (List.head?_append_of_ne_nil _ (parts_ne_nil present absolute))
  unfold components
  rw [isAbsolute_join base relative, steps_join base relative,
    parts_join base relative, ← List.append_assoc]
  rcases start with same | absolute
  · rw [same]
  · rw [if_pos absolute, if_pos absolute]

private theorem join_of_isAbsolute (base : String) {path : String}
    (absolute : isAbsolute path = true) :
    join base path = path := by
  unfold join
  rw [absolute, Bool.true_or, if_pos rfl]

private theorem join_ne_empty {base : String} (present : base ≠ "")
    (path : String) :
    join base path ≠ "" := by
  unfold join
  split
  · rename_i alone
    have noBase : base.isEmpty = false := by simpa using present
    rw [noBase, Bool.or_false] at alone
    rintro rfl
    cases alone
  · split <;> simp [present]

/-- Two relative paths below one path are the same exactly when
their names are. -/
theorem same_join_iff {base first second : String} (present : base ≠ "")
    (firstRelative : isAbsolute first = false)
    (secondRelative : isAbsolute second = false) :
    Same (join base first) (join base second) ↔ steps first = steps second := by
  unfold Same
  rw [components_join present firstRelative,
    components_join present secondRelative, List.append_cancel_left_eq]

private theorem isAbsolute_dropSlashes (path : String) :
    isAbsolute (Include.dropSlashes path) = false := by
  unfold isAbsolute Include.dropSlashes
  rw [String.toList_ofList]
  have front := List.head?_dropWhile_not (· == '/') path.toList
  cases first : (path.toList.dropWhile (· == '/')).head? with
  | none => rfl
  | some character =>
      rw [first] at front
      simpa using front

/-- The slashes in front of a path name nothing. -/
theorem steps_dropSlashes (path : String) :
    steps (Include.dropSlashes path) = steps path := by
  have dropped (text : List Char) :
      (splitAll '/' (text.dropWhile (· == '/'))).filter (!·.isEmpty) =
        (splitAll '/' text).filter (!·.isEmpty) := by
    induction text with
    | nil => rfl
    | cons character rest induction =>
        by_cases slash : character = '/'
        · subst slash
          have split : splitAll '/' ('/' :: rest) =
              splitAll '/' [] ++ splitAll '/' rest :=
            splitAll_append [] rest
          rw [List.dropWhile_cons_of_pos (by simp), induction, split,
            List.filter_append]
          rfl
        · rw [List.dropWhile_cons_of_neg (by simpa using slash)]
  unfold steps parts Include.dropSlashes
  rw [String.toList_ofList, dropped]

end Path

namespace IncludeUrl

/-- What is left of an address without its scheme.  An address of another kind
is left whole. -/
inductive Bare : String → String → Prop where
  | secure (rest : String) : Bare ("https://" ++ rest) rest
  | plain (rest : String) : Bare ("http://" ++ rest) rest
  | other {address : String} :
      (∀ rest, address ≠ "https://" ++ rest) →
        (∀ rest, address ≠ "http://" ++ rest) →
      Bare address address

theorem dropFront?_eq_some_iff {front text rest : List Char} :
    dropFront? front text = some rest ↔ text = front ++ rest := by
  unfold dropFront?
  constructor
  · intro found
    split at found
    · rename_i starts
      obtain ⟨behind, rfl⟩ := List.isPrefixOf_iff_prefix.mp starts
      cases found
      rw [List.drop_left]
    · cases found
  · rintro rfl
    simp

private theorem dropFront?_append (front behind : String) :
    dropFront? front.toList (front ++ behind).toList = some behind.toList :=
  dropFront?_eq_some_iff.mpr (String.toList_append)

private theorem dropFront?_eq_none {front address : String}
    (without : ∀ rest, address ≠ front ++ rest) :
    dropFront? front.toList address.toList = none := by
  apply Option.eq_none_iff_forall_ne_some.mpr
  intro text found
  apply without (String.ofList text)
  rw [← String.toList_inj, String.toList_append, String.toList_ofList]
  exact dropFront?_eq_some_iff.mp found

private theorem cachePath_secure (rest : String) :
    cachePath ("https://" ++ rest) = rest := by
  unfold cachePath
  dsimp only
  rw [dropFront?_append, Option.some_or, Option.getD_some, String.ofList_toList]

private theorem cachePath_plain (rest : String) :
    cachePath ("http://" ++ rest) = rest := by
  have notSecure :
      dropFront? "https://".toList ("http://" ++ rest).toList = none := by
    rw [String.toList_append]
    rfl
  unfold cachePath
  dsimp only
  rw [notSecure, Option.none_or, dropFront?_append, Option.getD_some,
    String.ofList_toList]

private theorem cachePath_other {address : String}
    (notSecure : ∀ rest, address ≠ "https://" ++ rest)
    (notPlain : ∀ rest, address ≠ "http://" ++ rest) :
    cachePath address = address := by
  unfold cachePath
  dsimp only
  rw [dropFront?_eq_none notSecure, dropFront?_eq_none notPlain, Option.none_or,
    Option.getD_none, String.ofList_toList]

/-- A remote file is kept under its address without the scheme. -/
theorem bare_iff {address rest : String} :
    Bare address rest ↔ cachePath address = rest := by
  constructor
  · intro bare
    cases bare with
    | secure rest => exact cachePath_secure rest
    | plain rest => exact cachePath_plain rest
    | other notSecure notPlain => exact cachePath_other notSecure notPlain
  · rintro rfl
    by_cases secure : ∃ rest, address = "https://" ++ rest
    · obtain ⟨rest, rfl⟩ := secure
      rw [cachePath_secure]
      exact .secure rest
    · by_cases plain : ∃ rest, address = "http://" ++ rest
      · obtain ⟨rest, rfl⟩ := plain
        rw [cachePath_plain]
        exact .plain rest
      · rw [cachePath_other (not_exists.mp secure) (not_exists.mp plain)]
        exact .other (not_exists.mp secure) (not_exists.mp plain)

end IncludeUrl

namespace IncludeCache

open CiPipeline.Path

/-- A file of a project at a ref, as it is asked for. -/
structure ProjectSource where
  project : String
  ref : String
  file : String
  deriving DecidableEq

namespace ProjectSource

/-- The names of project, ref and file in a row. -/
def names (source : ProjectSource) : List String :=
  steps source.project ++ steps source.ref ++ steps source.file

/-- Neither project nor ref leaves the folder that they are below. -/
structure Relative (source : ProjectSource) : Prop where
  project : isAbsolute source.project = false
  ref : isAbsolute source.ref = false

/-- The place of the file in a cache. -/
def place (cache : IncludeCache) (host : String)
    (source : ProjectSource) : String :=
  cache.projectFile host source.project source.ref source.file

end ProjectSource

variable {cache : IncludeCache} {host : String}

private theorem root_ne_empty (cache : IncludeCache) : cache.root ≠ "" := by
  apply join_ne_empty
  unfold join storage
  rw [show isAbsolute ".gitlab-ci-local" = false by decide, Bool.false_or]
  split
  · decide
  · split <;> simp

private theorem components_place {source : ProjectSource}
    (relative : source.Relative) :
    components (source.place cache host) =
      components (join cache.root host) ++ source.names := by
  have atHost : join cache.root host ≠ "" :=
    join_ne_empty cache.root_ne_empty host
  have atProject : cache.projectFolder host source.project ≠ "" :=
    join_ne_empty atHost _
  have atRef : cache.refFolder host source.project source.ref ≠ "" :=
    join_ne_empty atProject _
  calc
    components (source.place cache host) =
        components (cache.refFolder host source.project source.ref) ++
          steps source.file := by
      rw [ProjectSource.place, projectFile,
        components_join atRef (isAbsolute_dropSlashes _), steps_dropSlashes]
    _ = components (join cache.root host) ++ steps source.project ++
        steps source.ref ++ steps source.file := by
      rw [refFolder, components_join atProject relative.ref, projectFolder,
        components_join atHost relative.project]
    _ = components (join cache.root host) ++ source.names := by
      simp only [ProjectSource.names, List.append_assoc]

/-- Remote files are kept at one place exactly when the names behind the schemes
are the same. -/
theorem same_remotePath_iff {first second firstBare secondBare : String}
    (firstIs : IncludeUrl.Bare first firstBare)
    (secondIs : IncludeUrl.Bare second secondBare)
    (firstRelative : isAbsolute firstBare = false)
    (secondRelative : isAbsolute secondBare = false) :
    Same (cache.remotePath first) (cache.remotePath second) ↔
      steps firstBare = steps secondBare := by
  rw [remotePath, remotePath, IncludeUrl.bare_iff.mp firstIs,
    IncludeUrl.bare_iff.mp secondIs]
  exact same_join_iff cache.root_ne_empty firstRelative secondRelative

/-- Files of projects are kept at one place exactly when their names in a row
are the same. -/
theorem same_place_iff {first second : ProjectSource}
    (firstRelative : first.Relative) (secondRelative : second.Relative) :
    Same (first.place cache host) (second.place cache host) ↔
      first.names = second.names := by
  unfold Same
  rw [components_place firstRelative, components_place secondRelative,
    List.append_cancel_left_eq]

theorem same_remotePath_place_iff {address bare : String}
    {source : ProjectSource} (bareIs : IncludeUrl.Bare address bare)
    (bareRelative : isAbsolute bare = false)
    (hostRelative : isAbsolute host = false) (relative : source.Relative) :
    Same (cache.remotePath address) (source.place cache host) ↔
      steps bare = steps host ++ source.names := by
  rw [Same, remotePath, IncludeUrl.bare_iff.mp bareIs,
    components_join cache.root_ne_empty bareRelative, components_place relative,
    components_join cache.root_ne_empty hostRelative, List.append_assoc,
    List.append_cancel_left_eq]

theorem names_eq_iff {first second : ProjectSource}
    (projects : (steps first.project).length = (steps second.project).length)
    (refs : (steps first.ref).length = (steps second.ref).length) :
    first.names = second.names ↔
      steps first.project = steps second.project ∧
        steps first.ref = steps second.ref ∧
        steps first.file = steps second.file := by
  constructor
  · intro same
    have lengths : (steps first.project ++ steps first.ref).length =
        (steps second.project ++ steps second.ref).length := by
      rw [List.length_append, List.length_append, projects, refs]
    obtain ⟨fronts, files⟩ := List.append_inj same lengths
    obtain ⟨sameProject, sameRef⟩ := List.append_inj fronts projects
    exact ⟨sameProject, sameRef, files⟩
  · intro parts
    obtain ⟨sameProject, sameRef, sameFile⟩ := parts
    rw [ProjectSource.names, ProjectSource.names, sameProject,
      sameRef, sameFile]

/-- Two addresses are kept at one place exactly when their names behind the
scheme are the same.  Two files of projects are exactly when the names of
project, ref and file in a row are, which tell the sources apart as long as
their projects have equally many names, and their refs do.  A remote file is
kept at the place of a file of a project exactly when its names are those of
host, project, ref and file in a row.  No text may start with a slash that is
put below another one. -/
theorem shares_place_iff (cache : IncludeCache) (host : String) :
    (∀ first second firstBare secondBare,
      IncludeUrl.Bare first firstBare → IncludeUrl.Bare second secondBare →
      isAbsolute firstBare = false → isAbsolute secondBare = false →
        (Same (cache.remotePath first) (cache.remotePath second) ↔
          steps firstBare = steps secondBare)) ∧
      (∀ first second : ProjectSource, first.Relative → second.Relative →
        (Same (first.place cache host) (second.place cache host) ↔
          first.names = second.names) ∧
        ((steps first.project).length = (steps second.project).length →
          (steps first.ref).length = (steps second.ref).length →
            (Same (first.place cache host) (second.place cache host) ↔
              steps first.project = steps second.project ∧
                steps first.ref = steps second.ref ∧
                steps first.file = steps second.file))) ∧
      ∀ (address bare : String) (source : ProjectSource),
        IncludeUrl.Bare address bare →
        isAbsolute bare = false → isAbsolute host = false → source.Relative →
          (Same (cache.remotePath address) (source.place cache host) ↔
            steps bare = steps host ++ source.names) := by
  refine ⟨?_, ?_, ?_⟩
  · intro first second firstBare secondBare firstIs secondIs firstRelative
      secondRelative
    exact same_remotePath_iff firstIs secondIs firstRelative secondRelative
  · intro first second firstRelative secondRelative
    have whole : Same (first.place cache host) (second.place cache host) ↔
        first.names = second.names :=
          same_place_iff firstRelative secondRelative
    exact ⟨whole, fun projects refs => whole.trans (names_eq_iff projects refs)⟩
  · intro address bare source bareIs bareRelative hostRelative relative
    exact same_remotePath_place_iff bareIs bareRelative hostRelative relative

/-- Two remote files and two files of projects that are kept apart, and a remote
file that is kept where a file of a project is. -/
theorem shares_place_iff_work :
    let cache : IncludeCache := ⟨"/work", false⟩
    ¬ Same (cache.remotePath "https://e.com/a.yml")
    (cache.remotePath "http://e.com/b.yml") ∧
      ¬ Same (ProjectSource.place cache "gitlab.com"
        ⟨"group/p", "main", "/a.yml"⟩)
        (ProjectSource.place cache "gitlab.com" ⟨"group/q", "main", "a.yml"⟩) ∧
      Same (cache.remotePath "https://gitlab.com/group/p/main/a.yml")
        (ProjectSource.place cache "gitlab.com"
          ⟨"group/p", "main", "/a.yml"⟩) := by
  intro cache
  obtain ⟨remotes, projects, mixed⟩ := shares_place_iff cache "gitlab.com"
  have first : ProjectSource.Relative ⟨"group/p", "main", "/a.yml"⟩ :=
    ⟨by decide, by decide⟩
  have second : ProjectSource.Relative ⟨"group/q", "main", "a.yml"⟩ :=
    ⟨by decide, by decide⟩
  refine ⟨?_, ?_, ?_⟩
  · rw [remotes "https://e.com/a.yml" "http://e.com/b.yml" "e.com/a.yml"
      "e.com/b.yml"
      (.secure "e.com/a.yml") (.plain "e.com/b.yml") (by decide) (by decide)]
    decide
  · rw [(projects _ _ first second).2 (by decide) (by decide)]
    decide
  · rw [mixed "https://gitlab.com/group/p/main/a.yml"
      "gitlab.com/group/p/main/a.yml" _
      (.secure "gitlab.com/group/p/main/a.yml") (by decide) (by decide) first]
    decide

private theorem projectFile_of_isAbsolute (cache : IncludeCache)
    (host project : String) {ref : String} (file : String)
    (absolute : isAbsolute ref = true) :
    cache.projectFile host project ref file =
      join ref (Include.dropSlashes file) := by
  rw [projectFile, refFolder, join_of_isAbsolute _ absolute]

/-- Sources that differ and yet are kept at one place: addresses with different
schemes or with an empty name, projects and refs with slashes, a ref that starts
with a slash, an address behind whose scheme a slash follows, and a remote file
that is spelled like a file of a project. -/
theorem shares_place :
    let cache : IncludeCache := ⟨"/work", false⟩
    Same (cache.remotePath "https://e.com/ci.yml")
    (cache.remotePath "http://e.com/ci.yml") ∧
      Same (cache.remotePath "https://e.com//ci.yml")
        (cache.remotePath "https://e.com/ci.yml") ∧
      Same (cache.remotePath
        "https:///work/.gitlab-ci-local/includes/e.com/ci.yml")
        (cache.remotePath "https://e.com/ci.yml") ∧
      Same (cache.projectFile "gitlab.com" "a" "b/c" "x.yml")
        (cache.projectFile "gitlab.com" "a/b" "c" "x.yml") ∧
      Same (cache.projectFile "gitlab.com" "a" "/c" "x.yml")
        (cache.projectFile "gitlab.com" "b" "/c" "x.yml") ∧
      Same (cache.remotePath "https://gitlab.com/p/main/x.yml")
        (cache.projectFile "gitlab.com" "p" "main" "x.yml") := by
  intro cache
  have secure : IncludeUrl.Bare "https://e.com/ci.yml" "e.com/ci.yml" :=
    .secure "e.com/ci.yml"
  refine ⟨?_, ?_, ?_, ?_, ?_, ?_⟩
  · have plain : IncludeUrl.Bare "http://e.com/ci.yml" "e.com/ci.yml" :=
      .plain "e.com/ci.yml"
    exact (same_remotePath_iff secure plain (by decide) (by decide)).mpr rfl
  · have doubled : IncludeUrl.Bare "https://e.com//ci.yml" "e.com//ci.yml" :=
      .secure "e.com//ci.yml"
    apply (same_remotePath_iff doubled secure (by decide) (by decide)).mpr
    decide
  · have absolute :
        IncludeUrl.Bare "https:///work/.gitlab-ci-local/includes/e.com/ci.yml"
        "/work/.gitlab-ci-local/includes/e.com/ci.yml" :=
      .secure "/work/.gitlab-ci-local/includes/e.com/ci.yml"
    have root : cache.root = "/work/.gitlab-ci-local/includes" := by decide
    have below : join "/work/.gitlab-ci-local/includes" "e.com/ci.yml" =
        "/work/.gitlab-ci-local/includes/e.com/ci.yml" := by decide
    rw [remotePath, remotePath, IncludeUrl.bare_iff.mp absolute,
      IncludeUrl.bare_iff.mp secure,
      join_of_isAbsolute _ (by decide), root, below]
    rfl
  · have first : ProjectSource.Relative ⟨"a", "b/c", "x.yml"⟩ :=
      ⟨by decide, by decide⟩
    have second : ProjectSource.Relative ⟨"a/b", "c", "x.yml"⟩ :=
      ⟨by decide, by decide⟩
    apply (same_place_iff first second).mpr
    decide
  · rw [projectFile_of_isAbsolute cache _ _ _ (by decide),
      projectFile_of_isAbsolute cache _ _ _ (by decide)]
    rfl
  · have address : IncludeUrl.Bare "https://gitlab.com/p/main/x.yml"
        "gitlab.com/p/main/x.yml" :=
      .secure "gitlab.com/p/main/x.yml"
    have source : ProjectSource.Relative ⟨"p", "main", "x.yml"⟩ :=
      ⟨by decide, by decide⟩
    apply (same_remotePath_place_iff address (by decide) (by decide) source).mpr
    decide

end IncludeCache

end CiPipeline
