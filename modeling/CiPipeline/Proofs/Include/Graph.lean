import CiPipeline.Include.Resolution
import CiPipeline.Proofs.Sequencing
import Mathlib.Logic.Relation

/-!
# The graph of includes

The files below a document form a graph: every file that loads includes further
files.  A local include in a file of a project is a file of that project at the
same ref.  The documents of a graph are listed in post-order: whatever a
document includes comes before it.
-/

namespace CiPipeline

/-- A file that is included, with the project and the ref that it is a
file of, if any. -/
structure IncludedFile where
  path : String
  project : Option (String × String)
  deriving DecidableEq

/-- A document with the project and the ref that its local includes are files
of, if any. -/
structure IncludeSite where
  document : Node
  project : Option (String × String)

/-- The include entries of a document. -/
def IncludeSite.directives (site : IncludeSite) :
    Except Failure (List Include) :=
  Include.read Trail.root (site.document.get? "include")

namespace IncludeSources

/-- The files that a directive names. -/
def filesNamed (sources : IncludeSources) (project : Option (String × String)) :
    Include → List IncludedFile
  | .localFile path =>
      match project with
      | none => [⟨sources.localPath path, none⟩]
      | some (name, ref) =>
          [⟨sources.projectFile name ref path, some (name, ref)⟩]
  | .projectFiles name ref files =>
      files.map fun file =>
        ⟨sources.projectFile name (sources.refOf ref) file,
          some (name, sources.refOf ref)⟩
  | .template name => [⟨sources.remotePath (IncludeUrl.ofTemplate name), none⟩]
  | .remote address => [⟨sources.remotePath address, none⟩]

/-- The files that a document includes, in the order of its directives. -/
def filesOf (sources : IncludeSources) (site : IncludeSite) :
    List IncludedFile :=
  match site.directives with
  | .ok directives => directives.flatMap (sources.filesNamed site.project)
  | .error _ => []

end IncludeSources

/-- Loads an included file.  It has to be there, to hold a mapping, and to have
well-formed include entries. -/
def IncludedFile.load? (files : Files) (file : IncludedFile) :
    Option IncludeSite :=
  match files.text file.path with
  | .error _ => none
  | .ok text =>
      match Document.read text with
      | .error _ => none
      | .ok document =>
          let site : IncludeSite := ⟨document, file.project⟩
          if site.directives.isOk then some site else none

/-- A file that loads has a text, which is that of a document with well-formed
include entries. -/
theorem IncludedFile.load?_eq_some {files : Files} {file : IncludedFile}
    {site : IncludeSite} (loaded : file.load? files = some site) :
    site.project = file.project ∧
      (∃ directives, site.directives = .ok directives) ∧
      ∃ text, files.text file.path = .ok text ∧
        Document.read text = .ok site.document := by
  unfold load? at loaded
  split at loaded
  · cases loaded
  · rename_i text there
    split at loaded
    · cases loaded
    · rename_i document read
      cases declared : (IncludeSite.mk document file.project).directives with
      | error failure => simp [declared, Except.isOk, Except.toBool] at loaded
      | ok directives =>
          simp only [declared, Except.isOk, Except.toBool, if_true] at loaded
          cases loaded
          exact ⟨rfl, ⟨directives, declared⟩, text, there, read⟩

theorem IncludedFile.load?_of_text {files : Files} {file : IncludedFile}
    {text : String} {document : Node}
    {directives : List Include} (there : files.text file.path = .ok text)
    (read : Document.read text = .ok document)
    (declared : (IncludeSite.mk document file.project).directives =
      .ok directives) :
    file.load? files = some ⟨document, file.project⟩ := by
  simp [load?, there, read, declared, Except.isOk, Except.toBool]

namespace IncludeSources

theorem filesOf_of_declared (sources : IncludeSources) {site : IncludeSite}
    {directives : List Include} (declared : site.directives = .ok directives) :
    sources.filesOf site =
      directives.flatMap (sources.filesNamed site.project) := by
  unfold filesOf
  rw [declared]

variable (sources : IncludeSources) (files : Files)

/-- Whether a document includes another one. -/
def Includes (outer inner : IncludeSite) : Prop :=
  ∃ file ∈ sources.filesOf outer, file.load? files = some inner

/-- A chain of a number of nested includes. -/
inductive Chain : Nat → IncludeSite → Prop where
  | none (site : IncludeSite) : Chain 0 site
  | some {length : Nat} {outer inner : IncludeSite} :
      sources.Includes files outer inner →
      Chain length inner →
      Chain (length + 1) outer

/-- Every file is there and loads that is included below a document. -/
def Complete (site : IncludeSite) : Prop :=
  ∀ reached, Relation.ReflTransGen (sources.Includes files) site reached →
    ∀ file ∈ sources.filesOf reached, ∃ inner, file.load? files = some inner

/-- The documents of some files in post-order. -/
inductive PostOrder : List IncludedFile → List Node → Prop where
  | nil : PostOrder [] []
  | cons {file : IncludedFile} {site : IncludeSite} {rest : List IncludedFile}
      {inner others : List Node} :
      file.load? files = some site →
      PostOrder (sources.filesOf site) inner →
      PostOrder rest others →
      PostOrder (file :: rest) (inner ++ site.document :: others)

variable {sources files}

/-- There is at most one post-order. -/
theorem PostOrder.unique {names : List IncludedFile} {first second : List Node}
    (left : PostOrder sources files names first)
    (right : PostOrder sources files names second) :
    first = second := by
  induction left generalizing second with
  | nil =>
      cases right
      rfl
  | cons loaded _ _ innerUnique othersUnique =>
      cases right with
      | cons loadedAgain inner others =>
          cases loaded.symm.trans loadedAgain
          rw [innerUnique inner, othersUnique others]

theorem Complete.includes {outer inner : IncludeSite}
    (complete : sources.Complete files outer)
    (included : sources.Includes files outer inner) :
    sources.Complete files inner := by
  intro reached path
  exact complete reached (.head included path)

theorem Complete.load {site : IncludeSite}
    (complete : sources.Complete files site) :
    ∀ file ∈ sources.filesOf site, ∃ inner, file.load? files = some inner :=
  complete site .refl

/-- Every graph is complete in which all files of some documents load as such
documents. -/
theorem Complete.of_closed (closed : IncludeSite → Prop)
    (step : ∀ site, closed site → ∀ file ∈ sources.filesOf site,
      ∃ inner, file.load? files = some inner ∧ closed inner)
    {site : IncludeSite} (start : closed site) :
        sources.Complete files site := by
  intro reached path
  have inside : closed reached := by
    induction path with
    | refl => exact start
    | tail _ included reachedClosed =>
        obtain ⟨file, asked, loaded⟩ := included
        obtain ⟨inner, loadedAgain, innerClosed⟩ :=
          step _ reachedClosed file asked
        cases loaded.symm.trans loadedAgain
        exact innerClosed
  intro file asked
  obtain ⟨inner, loaded, _⟩ := step reached inside file asked
  exact ⟨inner, loaded⟩

private theorem Chain.of_isChain {site : IncludeSite} {rest : List IncludeSite}
    (linked : (site :: rest).IsChain (sources.Includes files)) :
    Chain sources files rest.length site := by
  induction rest generalizing site with
  | nil => exact .none site
  | cons next rest induction =>
      obtain ⟨included, linked⟩ := List.isChain_cons_cons.mp linked
      exact .some included (induction linked)

/-- No cycle can be reached from a document all of whose chains are bounded. -/
theorem not_cycle_of_bounded {outer inner : IncludeSite} {bound : Nat}
    (bounded : ∀ length, Chain sources files length outer → length ≤ bound)
    (reached : Relation.ReflTransGen (sources.Includes files) outer inner) :
    ¬ Relation.TransGen (sources.Includes files) inner inner := by
  intro cycle
  obtain ⟨rest, counted, linked⟩ :=
    Chains.exists_isChain reached cycle (bound + 1)
  have short := bounded rest.length (.of_isChain linked)
  omega

/-- Every chain can be cut off. -/
theorem Chain.shorter {site : IncludeSite} {length shorter : Nat}
    (chain : Chain sources files length site) (bound : shorter ≤ length) :
    Chain sources files shorter site := by
  induction chain generalizing shorter with
  | none site =>
      cases Nat.le_zero.mp bound
      exact .none site
  | some included _ induction =>
      cases shorter with
      | zero => exact .none _
      | succ shorter => exact .some included (induction (by omega))

/-! ## Listing a graph to a bounded depth -/

/-- The lists that some values give, one after another. -/
def collect {Value : Type} (list : Value → Option (List Node))
    (values : List Value) : Option (List Node) :=
  (values.mapM list).map List.flatten

private theorem collect_nil {Value : Type} (list : Value → Option (List Node)) :
    collect list [] = some [] := rfl

private theorem collect_cons {Value : Type} (list : Value → Option (List Node))
    (value : Value) (rest : List Value) :
    collect list (value :: rest) =
      (list value).bind fun first => (collect list rest).map (first ++ ·) := by
  unfold collect
  rw [List.mapM_cons]
  cases list value with
  | none => rfl
  | some first => cases List.mapM list rest <;> rfl

private theorem collect_append {Value : Type}
    (list : Value → Option (List Node)) (front back : List Value) :
    collect list (front ++ back) =
      (collect list front).bind fun first =>
        (collect list back).map (first ++ ·) := by
  induction front with
  | nil => cases equal : collect list back <;> simp [collect_nil, equal]
  | cons value rest induction =>
      rw [List.cons_append, collect_cons, collect_cons, induction]
      cases list value with
      | none => rfl
      | some own =>
          cases collect list rest with
          | none => rfl
          | some others => cases collect list back <;> simp

theorem collect_flatMap {Value Part : Type} (list : Part → Option (List Node))
    (parts : Value → List Part) (values : List Value) :
    collect list (values.flatMap parts) =
      collect (fun value => collect list (parts value)) values := by
  induction values with
  | nil => rfl
  | cons value rest induction =>
      rw [List.flatMap_cons, collect_append, induction, collect_cons]

theorem collect_map {Value Other : Type} (list : Other → Option (List Node))
    (change : Value → Other) (values : List Value) :
    collect list (values.map change) =
      collect (fun value => list (change value)) values := by
  unfold collect
  rw [List.mapM_map]
  rfl

theorem collect_singleton {Value : Type} (list : Value → Option (List Node))
    (value : Value) :
    collect list [value] = list value := by
  rw [collect_cons, collect_nil]
  cases list value <;> simp

variable (sources files)

/-- The documents of a graph in post-order, if no chain has a given length. -/
def documentsWithin : Nat → IncludeSite → Option (List Node)
  | 0, _ => none
  | length + 1, site =>
      (collect (fun file => (file.load? files).bind (documentsWithin length))
        (sources.filesOf site)).map (· ++ [site.document])

variable {sources files}

theorem documentsWithin_succ (length : Nat) (site : IncludeSite) :
    documentsWithin sources files (length + 1) site =
      (collect (fun file =>
        (file.load? files).bind (documentsWithin sources files length))
        (sources.filesOf site)).map (· ++ [site.document]) := rfl

private theorem postOrder_of_collect {length : Nat}
    (inOrder : ∀ site documents,
      documentsWithin sources files length site = some documents →
      ∃ included, PostOrder sources files (sources.filesOf site) included ∧
        documents = included ++ [site.document])
    {names : List IncludedFile} {included : List Node}
    (success : collect
      (fun file =>
        (file.load? files).bind (documentsWithin sources files length)) names =
        some included) : PostOrder sources files names included := by
  induction names generalizing included with
  | nil =>
      cases success
      exact .nil
  | cons file rest induction =>
      rw [collect_cons] at success
      obtain ⟨first, listed, remaining⟩ := Option.bind_eq_some_iff.mp success
      obtain ⟨site, loaded, within⟩ := Option.bind_eq_some_iff.mp listed
      obtain ⟨others, collected, rfl⟩ := Option.map_eq_some_iff.mp remaining
      obtain ⟨inner, innerOrder, rfl⟩ := inOrder site first within
      rw [List.append_assoc, List.singleton_append]
      exact .cons loaded innerOrder (induction collected)

/-- A graph that is listed is listed in post-order. -/
theorem documentsWithin_postOrder (length : Nat) (site : IncludeSite)
    (documents : List Node)
    (success : documentsWithin sources files length site = some documents) :
    ∃ included, PostOrder sources files (sources.filesOf site) included ∧
      documents = included ++ [site.document] := by
  induction length generalizing site documents with
  | zero => cases success
  | succ length induction =>
      rw [documentsWithin_succ] at success
      obtain ⟨included, collected, rfl⟩ := Option.map_eq_some_iff.mp success
      exact ⟨included, postOrder_of_collect induction collected, rfl⟩

private theorem exists_of_collect {Value : Type}
    {list : Value → Option (List Node)} {values : List Value}
    {documents : List Node} (success : collect list values = some documents)
    {value : Value} (member : value ∈ values) :
    ∃ own, list value = some own := by
  induction values generalizing documents with
  | nil => simp at member
  | cons first rest induction =>
      rw [collect_cons] at success
      obtain ⟨own, listed, remaining⟩ := Option.bind_eq_some_iff.mp success
      obtain ⟨others, collected, _⟩ := Option.map_eq_some_iff.mp remaining
      rcases List.mem_cons.mp member with rfl | inRest
      · exact ⟨own, listed⟩
      · exact induction collected inRest

private theorem exists_none_of_collect {Value : Type}
    {list : Value → Option (List Node)} {values : List Value}
    (failed : collect list values = none) :
    ∃ value ∈ values, list value = none := by
  induction values with
  | nil => cases failed
  | cons first rest induction =>
      rw [collect_cons] at failed
      cases listed : list first with
      | none => exact ⟨first, by simp, listed⟩
      | some own =>
          rw [listed, Option.bind_some, Option.map_eq_none_iff] at failed
          obtain ⟨value, member, missing⟩ := induction failed
          exact ⟨value, by simp [member], missing⟩

/-- A complete graph is listed to a depth exactly when it has no chain of
that length. -/
theorem documentsWithin_eq_none_iff (length : Nat) {site : IncludeSite}
    (complete : sources.Complete files site) :
    documentsWithin sources files length site = none ↔
      Chain sources files length site := by
  induction length generalizing site with
  | zero =>
      constructor
      · intro _
        exact .none site
      · intro _
        rfl
  | succ length induction =>
      rw [documentsWithin_succ, Option.map_eq_none_iff]
      constructor
      · intro failed
        obtain ⟨file, named, missing⟩ := exists_none_of_collect failed
        obtain ⟨inner, loaded⟩ := complete.load file named
        rw [loaded, Option.bind_some] at missing
        have included : sources.Includes files site inner :=
          ⟨file, named, loaded⟩
        exact .some included
          ((induction (complete.includes included)).mp missing)
      · intro chain
        cases chain with
        | @some _ _ inner included deeper =>
            have missing := (induction (complete.includes included)).mpr deeper
            obtain ⟨file, named, loaded⟩ := included
            cases collected : collect _ (sources.filesOf site) with
            | none => rfl
            | some documents =>
                obtain ⟨own, listed⟩ := exists_of_collect collected named
                rw [loaded, Option.bind_some, missing] at listed
                cases listed

/-- A complete graph that is listed has only chains that are shorter
than the depth. -/
theorem length_lt_of_documentsWithin {depth length : Nat} {site : IncludeSite}
    {documents : List Node} (complete : sources.Complete files site)
    (listed : documentsWithin sources files depth site = some documents)
    (chain : Chain sources files length site) : length < depth := by
  refine Nat.lt_of_not_le fun long => ?_
  have cut := chain.shorter long
  rw [(documentsWithin_eq_none_iff depth complete).mpr cut] at listed
  cases listed

end IncludeSources

end CiPipeline
