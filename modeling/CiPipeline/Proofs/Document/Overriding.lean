import CiPipeline.Document
import CiPipeline.Proofs.Document.Entries
import Mathlib.Data.List.Induction

/-!
# Which document decides

Merged documents hold under a path of keys what the last document says that says
anything about the path.  A document says something when it binds the path, or
when a front part of the path ends in it at what is no mapping.
-/

namespace CiPipeline

namespace Node

/-! ## Mappings without equal keys -/

/-- A node that is no mapping, or a mapping in which no key occurs twice and
whose values are orderly as well. -/
inductive Orderly : Node → Prop where
  | leaf {node : Node} : node.isMapping = false → Orderly node
  | mapping {entries : Entries} :
      entries.keys.Nodup → (∀ entry ∈ entries, Orderly entry.2) →
        Orderly (.mapping entries)

@[simp]
private theorem orderly_null : Orderly .null := .leaf rfl

@[simp]
private theorem orderly_text (value : String) :
    Orderly (.text value) := .leaf rfl

@[simp]
private theorem orderly_sequence (items : List Node) :
    Orderly (.sequence items) := .leaf rfl

@[simp]
theorem orderly_mapping_iff {entries : Entries} :
    Orderly (.mapping entries) ↔ entries.keys.Nodup ∧ ∀ entry ∈ entries,
      entry.2.Orderly := by
  constructor
  · intro orderly
    cases orderly with
    | leaf isLeaf => cases isLeaf
    | mapping distinct inside => exact ⟨distinct, inside⟩
  · intro both
    exact .mapping both.1 both.2

private theorem Orderly.distinct {entries : Entries}
    (orderly : Orderly (.mapping entries)) :
    entries.keys.Nodup :=
  (orderly_mapping_iff.mp orderly).1

private theorem Orderly.lookup {entries : Entries}
    (orderly : Orderly (.mapping entries)) {key : String} {value : Node}
    (found : entries.lookup key = some value) : value.Orderly :=
  (orderly_mapping_iff.mp orderly).2 (key, value) (Entries.mem_of_lookup found)

private theorem Orderly.put {entries : Entries}
    (orderly : Orderly (.mapping entries))
    (key : String) {value : Node} (valueOrderly : value.Orderly) :
    Orderly (.mapping (entries.put key value)) := by
  apply Orderly.mapping
  · exact Entries.nodup_keys_put orderly.distinct key value
  · intro entry member
    rcases Entries.mem_put member with ⟨_, isValue⟩ | earlier
    · rw [isValue]
      exact valueOrderly
    · exact (orderly_mapping_iff.mp orderly).2 entry earlier

private theorem orderly_empty : empty.Orderly :=
  .mapping List.nodup_nil (by simp)

private theorem orderly_ofPairs {pairs : List (String × Node)}
    (all : ∀ pair ∈ pairs, pair.2.Orderly) :
    Orderly (.mapping (Entries.ofPairs pairs)) := by
  unfold Entries.ofPairs
  apply List.foldlRecOn (motive := fun entries => Orderly (.mapping entries))
  · exact orderly_empty
  · intro entries orderly pair member
    exact orderly.put pair.1 (all pair member)

end Node

namespace Yaml.Value

mutual

/-- Of equal keys in a text only the last one counts, so that what is
read is orderly. -/
theorem orderly_toNode (value : Value) : value.toNode.Orderly := by
  cases value with
  | mapping entries => exact Node.orderly_ofPairs (orderly_toPairs entries)
  | tagged tag value =>
      have inner := orderly_toNode value
      rw [toNode]
      cases node : value.toNode with
      | sequence items =>
          unfold applyTag
          dsimp only
          split
          · exact .leaf rfl
          · exact .leaf rfl
      | _ =>
          rw [node] at inner
          exact inner
  | _ => exact .leaf rfl

private theorem orderly_toPairs (entries : List (Value × Value)) :
    ∀ pair ∈ toPairs entries, pair.2.Orderly := by
  cases entries with
  | nil => simp [toPairs]
  | cons entry rest =>
      obtain ⟨key, value⟩ := entry
      intro pair member
      rw [toPairs] at member
      rcases List.mem_cons.mp member with first | later
      · rw [first]
        exact orderly_toNode value
      · exact orderly_toPairs rest pair later

end

end Yaml.Value

/-- A document that is read is orderly. -/
theorem Document.orderly_of_read {text : String} {document : Node}
    (success : Document.read text = .ok document) : document.Orderly := by
  unfold Document.read at success
  split at success
  · cases success
    exact Node.orderly_empty
  · split at success
    · cases success
    · cases success
      exact Node.orderly_empty
    · rename_i entries read
      cases success
      unfold Node.ofYaml at read
      cases value : Yaml.Value.ofText (annotate text) with
      | error error =>
          rw [value] at read
          cases read
      | ok value' =>
          rw [value] at read
          have equal := Except.ok.inj read
          rw [← equal]
          exact Yaml.Value.orderly_toNode value'
    · cases success

namespace Node

/-! ## Paths of keys -/

/-- The value under a path of keys.  An explicit null is a value. -/
def at? (node : Node) : List String → Option Node
  | [] => some node
  | key :: rest =>
      match node with
      | .mapping entries =>
          (entries.lookup key).bind fun child => child.at? rest
      | _ => none

/-- Whether a document says what stands under a path: it binds the path, or it
binds a front part of the path to what is no mapping. -/
def Decides (document : Node) (path : List String) : Prop :=
  (∃ value, document.at? path = some value) ∨
    ∃ front back value, front ≠ [] ∧ back ≠ [] ∧ path = front ++ back ∧
      document.at? front = some value ∧ value.isMapping = false

private theorem at?_append (node : Node) (front back : List String) :
    node.at? (front ++ back) = (node.at? front).bind fun value =>
      value.at? back := by
  induction front generalizing node with
  | nil => rfl
  | cons key rest induction =>
      cases node with
      | mapping entries =>
          simp only [List.cons_append, at?]
          cases entries.lookup key with
          | none => rfl
          | some child => exact induction child
      | _ => rfl

private theorem at?_of_leaf {node : Node} (leaf : node.isMapping = false)
    {path : List String} (nonempty : path ≠ []) : node.at? path = none := by
  cases path with
  | nil => exact absurd rfl nonempty
  | cons key rest =>
      cases node with
      | mapping entries => cases leaf
      | _ => rfl

private theorem not_decides_of_leaf {node : Node}
    (leaf : node.isMapping = false) {path : List String}
    (nonempty : path ≠ []) : ¬ node.Decides path := by
  intro decides
  rcases decides with
    ⟨value, bound⟩ | ⟨front, back, value, frontNonempty, _, _, bound, _⟩
  · rw [at?_of_leaf leaf nonempty] at bound
    cases bound
  · rw [at?_of_leaf leaf frontNonempty] at bound
    cases bound

/-- A mapping that leaves a path open goes on to a mapping that leaves
the rest open. -/
theorem open_rest {entries : Entries} {key : String} {rest : List String}
    {child : Node} (found : entries.lookup key = some child)
    (undecided : ¬ (Node.mapping entries).Decides (key :: rest)) :
    child.isMapping = true ∧ rest ≠ [] ∧ ¬ child.Decides rest := by
  have below (path : List String) :
      (Node.mapping entries).at? (key :: path) = child.at? path := by
    simp [at?, found]
  have longer : rest ≠ [] := by
    intro finished
    apply undecided
    exact .inl ⟨child, by rw [below, finished, at?]⟩
  refine ⟨?_, longer, ?_⟩
  · by_contra leaf
    apply undecided
    exact .inr ⟨[key], rest,
      child, by simp, longer, rfl, by rw [below, at?], by simpa using leaf⟩
  · intro decides
    apply undecided
    rcases decides with
      ⟨value, bound⟩ | ⟨front, back, value, _, backNonempty, split, bound, leaf⟩
    · exact .inl ⟨value, by rw [below, bound]⟩
    · exact .inr ⟨key :: front, back,
        value, by simp, backNonempty, by rw [split, List.cons_append],
        by rw [below, bound], leaf⟩

/-! ## Merging two documents -/

/-- A value that comes onto what stood in its place. -/
def onto (value : Node) : Option Node → Node
  | none => value
  | some earlier => earlier.merge value

private theorem onto_leaf {value : Node} (leaf : value.isMapping = false)
    (earlier : Option Node) :
    value.onto earlier = value := by
  cases earlier with
  | none => rfl
  | some earlier =>
      cases value with
      | mapping entries => cases leaf
      | _ => rfl

theorem isMapping_eq_true_iff {node : Node} :
    node.isMapping = true ↔ ∃ entries, node = .mapping entries := by
  cases node <;> simp [isMapping]

private theorem isMapping_onto (value : Node) (earlier : Option Node) :
    (value.onto earlier).isMapping = value.isMapping := by
  cases earlier with
  | none => rfl
  | some earlier =>
      cases value with
      | mapping entries => cases earlier <;> rfl
      | _ => rfl

private theorem lookup_mergeEntries {later : Entries}
    (distinct : later.keys.Nodup) (earlier : Entries) (key : String) :
    (mergeEntries earlier later).lookup key =
      match later.lookup key with
      | none => earlier.lookup key
      | some value => some (value.onto (earlier.lookup key)) := by
  induction later generalizing earlier with
  | nil => rfl
  | cons entry rest induction =>
      obtain ⟨name, value⟩ := entry
      obtain ⟨new, others⟩ := List.nodup_cons.mp distinct
      rw [mergeEntries, induction others]
      by_cases same : key = name
      · subst same
        rw [Entries.lookup_of_notMem_keys new]
        simp only [List.lookup_cons_self, Entries.lookup_put_self]
        cases earlier.lookup key <;> rfl
      · have different : (key == name) = false := by simpa using same
        rw [List.lookup_cons, different, Entries.lookup_put_of_ne _ _ same]

/-- What a later document binds comes over what stood under the path. -/
theorem at?_merge_of_bound {earlier later value : Node}
    (orderly : later.Orderly) {path : List String}
    (bound : later.at? path = some value) :
    (earlier.merge later).at? path = some (value.onto (earlier.at? path)) := by
  induction path generalizing earlier later with
  | nil =>
      cases bound
      rfl
  | cons key rest induction =>
      cases later with
      | mapping laterEntries =>
          cases earlier with
          | mapping entries =>
              simp only [at?] at bound
              obtain ⟨child, found, below⟩ := Option.bind_eq_some_iff.mp bound
              rw [merge]
              simp only [at?]
              rw [lookup_mergeEntries orderly.distinct, found]
              cases standing : entries.lookup key with
              | none => exact below
              | some other => exact induction (orderly.lookup found) below
          | _ => exact bound
      | _ => cases bound

/-- A later document that leaves a path open leaves what stood under it. -/
theorem at?_merge_of_open {earlier later : Node} (orderly : later.Orderly)
    (isMapping : later.isMapping = true) {path : List String}
    (undecided : ¬ later.Decides path) :
    (earlier.merge later).at? path = earlier.at? path := by
  have unbound : later.at? path = none := by
    by_contra bound
    apply undecided
    exact .inl (Option.ne_none_iff_exists'.mp bound)
  induction path generalizing earlier later with
  | nil => cases unbound
  | cons key rest induction =>
      cases later with
      | mapping laterEntries =>
          cases earlier with
          | mapping entries =>
              rw [merge]
              simp only [at?]
              rw [lookup_mergeEntries orderly.distinct]
              cases found : laterEntries.lookup key with
              | none => rfl
              | some child =>
                  obtain ⟨childMapping, _, childUndecided⟩ :=
                    open_rest found undecided
                  have childUnbound : child.at? rest = none := by
                    simpa [at?, found] using unbound
                  cases standing : entries.lookup key with
                  | none => exact childUnbound
                  | some other =>
                      exact induction (orderly.lookup found) childMapping
                        childUndecided childUnbound
          | _ => exact unbound
      | _ => cases isMapping

/-- A later document that ends a front part of a path leaves nothing
under the path. -/
theorem at?_merge_of_ended {earlier later : Node} (orderly : later.Orderly)
    {path : List String} (decides : later.Decides path)
    (unbound : later.at? path = none) :
    (earlier.merge later).at? path = none := by
  rcases decides with
    ⟨value, bound⟩ | ⟨front, back, value, _, backNonempty, split, bound, leaf⟩
  · rw [unbound] at bound
    cases bound
  · rw [split, at?_append, at?_merge_of_bound orderly bound, onto_leaf leaf]
    exact at?_of_leaf leaf backNonempty

/-! ## Merging any number of documents -/

/-- A document of a list that decides a path, with none behind it that does. -/
def IsLastDeciding (documents : List Node) (path : List String)
    (document : Node) : Prop :=
  ∃ before after, documents = before ++ document :: after ∧
    document.Decides path ∧
    ∀ later ∈ after, ¬ later.Decides path

private theorem isLastDeciding_concat_of_decides {documents : List Node}
    {path : List String} {last document : Node} (decides : last.Decides path) :
    IsLastDeciding (documents ++ [last]) path document ↔ document = last := by
  constructor
  · intro lastDeciding
    obtain ⟨before, after, split, _, undecided⟩ := lastDeciding
    rcases List.eq_nil_or_concat' after with rfl | ⟨front, other, rfl⟩
    · exact (List.singleton_inj.mp (List.append_inj' split rfl).2).symm
    · rw [← List.cons_append, ← List.append_assoc] at split
      have same := List.singleton_inj.mp (List.append_inj' split rfl).2
      exact absurd decides (undecided last (by simp [same]))
  · intro same
    rw [same]
    exact ⟨documents, [], rfl, decides, by simp⟩

private theorem isLastDeciding_concat_of_open {documents : List Node}
    {path : List String} {last document : Node}
    (undecided : ¬ last.Decides path) :
    IsLastDeciding (documents ++ [last]) path document ↔
      IsLastDeciding documents path document := by
  constructor
  · intro lastDeciding
    obtain ⟨before, after, split, decides, behind⟩ := lastDeciding
    rcases List.eq_nil_or_concat' after with rfl | ⟨front, other, rfl⟩
    · have same := List.singleton_inj.mp (List.append_inj' split rfl).2
      rw [← same] at decides
      exact absurd decides undecided
    · rw [← List.cons_append, ← List.append_assoc] at split
      refine ⟨before, front, (List.append_inj' split rfl).1, decides, ?_⟩
      intro later member
      exact behind later (by simp [member])
  · intro lastDeciding
    obtain ⟨before, after, split, decides, behind⟩ := lastDeciding
    refine ⟨before, after ++ [last], by simp [split], decides, ?_⟩
    intro later member
    rcases List.mem_append.mp member with early | isLast
    · exact behind later early
    · rw [List.mem_singleton.mp isLast]
      exact undecided

private theorem not_isLastDeciding_nil (path : List String) (document : Node) :
    ¬ IsLastDeciding [] path document := by
  intro lastDeciding
  obtain ⟨before, after, split, _, _⟩ := lastDeciding
  simp at split

/-- At most one document is the last one that decides. -/
theorem IsLastDeciding.unique {documents : List Node} {path : List String}
    {document other : Node} (first : IsLastDeciding documents path document)
    (second : IsLastDeciding documents path other) : document = other := by
  induction documents using List.reverseRecOn with
  | nil => exact absurd first (not_isLastDeciding_nil path document)
  | append_singleton documents last induction =>
      by_cases decides : last.Decides path
      · rw [(isLastDeciding_concat_of_decides decides).mp first,
          (isLastDeciding_concat_of_decides decides).mp second]
      · apply induction
        · exact (isLastDeciding_concat_of_open decides).mp first
        · exact (isLastDeciding_concat_of_open decides).mp second

private theorem mergeAll_concat (documents : List Node) (last : Node) :
    mergeAll (documents ++ [last]) =
      if last.isMapping then (mergeAll documents).merge last
      else mergeAll documents := by
  unfold mergeAll
  rw [List.filter_append, List.foldl_append]
  cases isMapping : last.isMapping <;> simp [isMapping]

/-- What merged documents hold under a path: nothing, if no document decides the
path or the last one that does leaves nothing under it, and otherwise what that
one binds over what stood there. -/
inductive Outcome (documents : List Node) (path : List String) :
    Option Node → Prop where
  | absent : (∀ document, IsLastDeciding documents path document →
      document.at? path = none) →
      Outcome documents path none
  | bound {document value : Node} (earlier : Option Node) :
      IsLastDeciding documents path document → document.at? path = some value →
      Outcome documents path (some (value.onto earlier))

private theorem Outcome.concat_of_open {documents : List Node}
    {path : List String}
    {last : Node} {result : Option Node} (undecided : ¬ last.Decides path)
    (outcome : Outcome documents path result) :
    Outcome (documents ++ [last]) path result := by
  have same (document : Node) :
      IsLastDeciding (documents ++ [last]) path document ↔
      IsLastDeciding documents path document :=
        isLastDeciding_concat_of_open undecided
  cases outcome with
  | absent unbound =>
      apply Outcome.absent
      intro document lastDeciding
      exact unbound document ((same document).mp lastDeciding)
  | bound earlier lastDeciding bound =>
      exact .bound earlier ((same _).mpr lastDeciding) bound

section

variable {documents : List Node} {path : List String} {result : Option Node}

/-- A value that is no mapping does not depend on what stood in its place. -/
theorem Outcome.eq_some_iff (outcome : Outcome documents path result)
    {value : Node} (leaf : value.isMapping = false) :
    result = some value ↔
      ∃ document, IsLastDeciding documents path document ∧
        document.at? path = some value := by
  cases outcome with
  | absent unbound =>
      constructor
      · intro equal
        cases equal
      · intro decided
        obtain ⟨document, lastDeciding, bound⟩ := decided
        cases (unbound document lastDeciding).symm.trans bound
  | @bound document standing earlier lastDeciding bound =>
      constructor
      · intro equal
        have same : standing.onto earlier = value := Option.some.inj equal
        have standingLeaf : standing.isMapping = false := by
          rw [← isMapping_onto standing earlier, same, leaf]
        rw [onto_leaf standingLeaf] at same
        exact ⟨document, lastDeciding, by rw [bound, same]⟩
      · intro decided
        obtain ⟨other, also, binds⟩ := decided
        rw [also.unique lastDeciding, bound] at binds
        cases binds
        rw [onto_leaf leaf]

theorem Outcome.isMapping_iff (outcome : Outcome documents path result) :
    (∃ entries, result = some (.mapping entries)) ↔
      ∃ document entries, IsLastDeciding documents path document ∧
        document.at? path = some (.mapping entries) := by
  cases outcome with
  | absent unbound =>
      constructor
      · intro bound
        obtain ⟨entries, equal⟩ := bound
        cases equal
      · intro decided
        obtain ⟨document, entries, lastDeciding, bound⟩ := decided
        cases (unbound document lastDeciding).symm.trans bound
  | @bound document standing earlier lastDeciding bound =>
      constructor
      · intro merged
        obtain ⟨entries, equal⟩ := merged
        have isMapping : standing.isMapping = true := by
          rw [← isMapping_onto standing earlier, Option.some.inj equal]
          rfl
        obtain ⟨own, rfl⟩ := isMapping_eq_true_iff.mp isMapping
        exact ⟨document, own, lastDeciding, bound⟩
      · intro decided
        obtain ⟨other, entries, also, binds⟩ := decided
        rw [also.unique lastDeciding, bound] at binds
        cases binds
        obtain ⟨own, equal⟩ := isMapping_eq_true_iff.mp
          (isMapping_onto (.mapping entries) earlier)
        exact ⟨own, by rw [equal]⟩

end

/-- The induction is on the number of documents: the last one decides, or it
leaves what the others come to. -/
theorem mergeAll_outcome {documents : List Node}
    (orderly : ∀ document ∈ documents, document.Orderly) {path : List String}
    (nonempty : path ≠ []) :
    Outcome documents path ((mergeAll documents).at? path) := by
  induction documents using List.reverseRecOn with
  | nil =>
      have nothing : (mergeAll []).at? path = none := by
        cases path with
        | nil => exact absurd rfl nonempty
        | cons key rest => rfl
      rw [nothing]
      apply Outcome.absent
      intro document lastDeciding
      exact absurd lastDeciding (not_isLastDeciding_nil path document)
  | append_singleton documents last induction =>
      have others := induction fun document member =>
        orderly document (List.mem_append_left _ member)
      have lastOrderly := orderly last (by simp)
      rw [mergeAll_concat]
      cases isMapping : last.isMapping with
      | false =>
          exact others.concat_of_open (not_decides_of_leaf isMapping nonempty)
      | true =>
          rw [if_pos rfl]
          by_cases decides : last.Decides path
          · have lastDeciding :
                IsLastDeciding (documents ++ [last]) path last :=
              (isLastDeciding_concat_of_decides decides).mpr rfl
            cases bound : last.at? path with
            | none =>
                rw [at?_merge_of_ended lastOrderly decides bound]
                apply Outcome.absent
                intro document other
                rw [other.unique lastDeciding, bound]
            | some value =>
                rw [at?_merge_of_bound lastOrderly bound]
                exact .bound _ lastDeciding bound
          · rw [at?_merge_of_open lastOrderly isMapping decides]
            exact others.concat_of_open decides

/-- Under a path of keys, merged documents hold what the last document binds
that decides the path: the same value if that is no mapping, an explicit null
included, and a mapping exactly if it is one. -/
theorem mergeAll_last_decides {documents : List Node}
    (orderly : ∀ document ∈ documents, document.Orderly) {path : List String}
    (nonempty : path ≠ []) :
    (∀ value : Node, value.isMapping = false →
      ((mergeAll documents).at? path = some value ↔
        ∃ document, IsLastDeciding documents path document ∧
          document.at? path = some value)) ∧
    ((∃ entries, (mergeAll documents).at? path = some (.mapping entries)) ↔
      ∃ document entries, IsLastDeciding documents path document ∧
        document.at? path = some (.mapping entries)) := by
  have outcome := mergeAll_outcome orderly nonempty
  exact ⟨fun _ leaf => outcome.eq_some_iff leaf, outcome.isMapping_iff⟩

/-- Documents that give a variable, take all variables away, and give
another one anew. -/
def variableLayers : List Node :=
  [.mapping [("job", .mapping [("variables",
      .mapping [("MODE", .text "fast"), ("LEVEL", .text "high")])])],
    .mapping [("job",
      .mapping [("variables", .null), ("tags", .sequence [.text "linux"])])],
    .text "no mapping",
    .mapping
      [("job", .mapping [("variables", .mapping [("MODE", .text "slow")])])]]

/-- The last document decides one of the variables.  The other one is decided
by the null. -/
theorem mergeAll_last_decides_null :
    (∃ document, IsLastDeciding variableLayers
      ["job", "variables", "MODE"] document ∧
      document.at? ["job", "variables", "MODE"] = some (.text "slow")) ∧
    ¬ ∃ document, IsLastDeciding variableLayers
      ["job", "variables", "LEVEL"] document ∧
      document.at? ["job", "variables", "LEVEL"] = some (.text "high") := by
  have orderly : ∀ document ∈ variableLayers, document.Orderly := by
    simp [variableLayers, Entries.keys]
  constructor
  · exact ((mergeAll_last_decides orderly (by simp)).1 (.text "slow") rfl).mp
      rfl
  · intro decided
    have bound := ((mergeAll_last_decides orderly (by simp)).1
      (.text "high") rfl).mpr decided
    cases bound

end Node

end CiPipeline
