import CiPipeline.Proofs.Document.Entries

/-!
# Merging without a key

Dropping a key commutes with merging: what a merged mapping holds under the
other keys, and in which order, does not depend on the dropped one.
-/

namespace CiPipeline

namespace Node

/-- A mapping without one of its keys; any other node stays as it is. -/
def without (node : Node) (key : String) : Node :=
  match node with
  | .mapping entries => .mapping (Entries.without entries key)
  | node => node

@[simp] theorem isMapping_without (node : Node) (key : String) :
    (node.without key).isMapping = node.isMapping := by
  cases node <;> rfl

private theorem mergeEntries_without (earlier later : Entries) (key : String) :
    Entries.without (mergeEntries earlier later) key =
      mergeEntries (earlier.without key) (later.without key) := by
  induction later generalizing earlier with
  | nil => rfl
  | cons entry rest step =>
      obtain ⟨name, value⟩ := entry
      by_cases dropped : name = key
      · subst dropped
        rw [mergeEntries, step, Entries.without_put_self,
          Entries.without_cons_self]
      · rw [mergeEntries, step, Entries.without_put_of_ne _ _ dropped,
          Entries.without_cons_of_ne dropped, mergeEntries,
          Entries.lookup_without_of_ne _ dropped]

private theorem merge_without (earlier later : Node) (key : String) :
    (earlier.merge later).without key =
      (earlier.without key).merge (later.without key) := by
  cases later with
  | mapping laterEntries =>
      cases earlier with
      | mapping entries => simp [merge, without, mergeEntries_without]
      | _ => rfl
  | _ => rfl

private theorem foldl_merge_without (documents : List Node) (merged : Node)
    (key : String) :
    (documents.foldl merge merged).without key =
      (documents.map (·.without key)).foldl merge (merged.without key) := by
  induction documents generalizing merged with
  | nil => rfl
  | cons document rest step =>
      rw [List.foldl_cons, step, merge_without, List.map_cons, List.foldl_cons]

private theorem filter_isMapping_without (documents : List Node)
    (key : String) :
    (documents.map (·.without key)).filter isMapping =
      (documents.filter isMapping).map (·.without key) := by
  rw [List.filter_map]
  simp [Function.comp_def]

/-- Dropping a key from merged documents is merging the documents without it. -/
theorem mergeAll_without (documents : List Node) (key : String) :
    (mergeAll documents).without key =
      mergeAll (documents.map (·.without key)) := by
  rw [mergeAll, foldl_merge_without, mergeAll, filter_isMapping_without]
  rfl

end Node

end CiPipeline
