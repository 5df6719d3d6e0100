import CiPipeline.Normalization
import CiPipeline.Proofs.Document.Inheritance
import CiPipeline.Proofs.Document.JobFields
import CiPipeline.Proofs.Document.References

/-!
# Documents without references

Once its references are resolved, a document stays free of them.  No later pass
makes up values: it merges, moves and picks those that the document holds.
-/

namespace CiPipeline

open CiPipeline.Sequencing

namespace Node

theorem anyReference_eq_false_iff {items : List Node} :
    anyReference items = false ↔ ∀ item ∈ items,
      item.containsReference = false := by
  simp [anyReference_eq]

theorem anyReferenceEntry_eq_false_iff {entries : Entries} :
    anyReferenceEntry entries = false ↔ ∀ entry ∈ entries,
      entry.2.containsReference = false := by
  simp [anyReferenceEntry_eq]

private theorem lookup_free {entries : Entries} {key : String} {value : Node}
    (free : anyReferenceEntry entries = false)
    (found : entries.lookup key = some value) :
    value.containsReference = false :=
  anyReferenceEntry_eq_false_iff.mp free _ (Entries.mem_of_lookup found)

private theorem value?_free {entries : Entries} {key : String} {value : Node}
    (free : anyReferenceEntry entries = false)
    (found : entries.value? key = some value) :
    value.containsReference = false := by
  unfold Entries.value? at found
  split at found
  · simp at found
  · exact lookup_free free found

private theorem get?_free {node value : Node} {key : String}
    (free : node.containsReference = false)
    (found : node.get? key = some value) : value.containsReference = false := by
  cases node with
  | mapping entries => exact value?_free free found
  | _ => simp [get?] at found

theorem put_free {entries : Entries} {key : String} {value : Node}
    (free : anyReferenceEntry entries = false)
    (valueFree : value.containsReference = false) :
    anyReferenceEntry (entries.put key value) = false := by
  induction entries with
  | nil => simp [Entries.put, anyReferenceEntry, valueFree]
  | cons entry rest step =>
      obtain ⟨name, old⟩ := entry
      simp only [anyReferenceEntry, Bool.or_eq_false_iff] at free
      by_cases same : name = key
      · simp [Entries.put, same, anyReferenceEntry, valueFree, free.2]
      · simp [Entries.put, same, anyReferenceEntry, free.1, step free.2]

private theorem without_free {entries : Entries}
    (free : anyReferenceEntry entries = false) (key : String) :
    anyReferenceEntry (entries.without key) = false := by
  rw [anyReferenceEntry_eq_false_iff] at free ⊢
  intro entry member
  exact free entry (List.mem_of_mem_filter member)

mutual

private theorem merge_free (later : Node) {earlier : Node}
    (left : earlier.containsReference = false)
    (right : later.containsReference = false) :
    (earlier.merge later).containsReference = false := by
  cases later with
  | mapping entries =>
      cases earlier with
      | mapping others => exact mergeEntries_free entries left right
      | _ => exact right
  | _ => exact right

private theorem mergeEntries_free (later : List (String × Node))
    {earlier : Entries} (left : anyReferenceEntry earlier = false)
    (right : anyReferenceEntry later = false) :
    anyReferenceEntry (mergeEntries earlier later) = false := by
  cases later with
  | nil => exact left
  | cons entry rest =>
      obtain ⟨key, value⟩ := entry
      simp only [anyReferenceEntry, Bool.or_eq_false_iff] at right
      rw [mergeEntries]
      refine mergeEntries_free rest (put_free left ?_) right.2
      cases found : earlier.lookup key with
      | none => exact right.1
      | some existing => exact merge_free value (lookup_free left found) right.1

end

private theorem mergeAll_free {documents : List Node}
    (free : ∀ document ∈ documents, document.containsReference = false) :
    (mergeAll documents).containsReference = false := by
  have run (rest : List Node) (merged : Node)
      (mergedFree : merged.containsReference = false)
      (restFree : ∀ document ∈ rest, document.containsReference = false) :
      (rest.foldl merge merged).containsReference = false := by
    induction rest generalizing merged with
    | nil => exact mergedFree
    | cons document rest step =>
        have headFree := restFree document (by simp)
        refine step _ (merge_free document mergedFree headFree) ?_
        intro other member
        exact restFree other (by simp [member])
  refine run _ empty rfl ?_
  intro document member
  exact free document (List.mem_of_mem_filter member)

end Node

namespace Inheritance

private theorem normalizeParents_free {trail : Trail} {value : Option Node}
    {parents : List Node}
    (free : ∀ node ∈ value, node.containsReference = false)
    (success : normalizeParents trail value = .ok parents) :
    Node.anyReference parents = false := by
  cases value with
  | none =>
      cases success
      rfl
  | some node =>
      cases node with
      | null =>
          cases success
          rfl
      | text parent =>
          cases success
          rfl
      | sequence items =>
          obtain ⟨_, _, equal⟩ := bind_eq_ok_iff.mp success
          cases equal
          exact free _ rfl
      | _ => cases success

private theorem normalizeEntry_free {trail : Trail}
    {entry normal : String × Node} (free : entry.2.containsReference = false)
    (success : normalizeEntry trail entry = .ok normal) :
    normal.2.containsReference = false := by
  obtain ⟨name, definition⟩ := entry
  rcases normalizeEntry_eq_ok_iff.mp success with
    ⟨_, rfl⟩ | ⟨_, fields, parents, rfl, normalized, rfl⟩
  · exact free
  · refine Node.put_free free (normalizeParents_free ?_ normalized)
    intro node found
    exact Node.lookup_free free found

private theorem ancestors_free {entries : Entries}
    (free : Node.anyReferenceEntry entries = false) (depth : Nat)
    {trail : Trail} {name : String} {definition : Node} {lines : List Node}
    (success : ancestors entries depth trail name definition = .ok lines) :
    ∀ line ∈ lines, line.containsReference = false := by
  induction depth generalizing trail name definition lines with
  | zero => cases success
  | succ depth step =>
      obtain ⟨lists, collected, rfl⟩ := ancestors_succ_eq_ok_iff.mp success
      have listsFree : ∀ list ∈ lists, ∀ line ∈ list,
          line.containsReference = false := by
        refine forall_of_mapM collected ?_
        intro parentName _ list listSuccess
        obtain ⟨parent, above, found, aboveSuccess, rfl⟩ :=
          parentLine_eq_ok_iff.mp listSuccess
        intro line member
        rcases List.mem_append.mp member with inAbove | inParent
        · exact step aboveSuccess line inAbove
        · rw [List.mem_singleton.mp inParent]
          exact Node.value?_free free found
      intro line member
      obtain ⟨list, listed, inList⟩ := List.mem_flatten.mp member
      exact listsFree list listed line inList

private theorem inheritEntry_free {trail : Trail} {entries : Entries}
    {entry inherited : String × Node}
    (free : Node.anyReferenceEntry entries = false)
    (entryFree : entry.2.containsReference = false)
    (success : inheritEntry trail entries entry = .ok inherited) :
    inherited.2.containsReference = false := by
  obtain ⟨name, definition⟩ := entry
  rcases inheritEntry_eq_ok_iff.mp success with
    ⟨_, rfl⟩ | ⟨_, above, collected, rfl⟩
  · exact entryFree
  · refine Node.mergeAll_free ?_
    intro document member
    rcases List.mem_append.mp member with inAbove | own
    · exact ancestors_free free _ collected document inAbove
    · rw [List.mem_singleton.mp own]
      exact entryFree

private theorem forgetParents_free {entry : String × Node}
    (free : entry.2.containsReference = false) :
    (forgetParents entry).2.containsReference = false := by
  obtain ⟨name, definition⟩ := entry
  cases definition with
  | mapping fields =>
      simp only [forgetParents]
      split
      · exact free
      · exact Node.without_free free "extends"
  | _ => exact free

private theorem resolve_free {trail : Trail} {document result : Node}
    (free : document.containsReference = false)
    (success : resolve trail document = .ok result) :
    result.containsReference = false := by
  cases document with
  | mapping entries =>
      obtain ⟨normal, inherited, normalized, collected, rfl⟩ :=
        resolve_eq_ok_iff.mp success
      have entriesFree := Node.anyReferenceEntry_eq_false_iff.mp free
      have normalFree : ∀ entry ∈ normal, entry.2.containsReference = false :=
        forall_of_mapM normalized fun entry member _ step =>
          normalizeEntry_free (entriesFree entry member) step
      have inheritedFree :
          ∀ entry ∈ inherited, entry.2.containsReference = false :=
        forall_of_mapM collected fun entry member _ step =>
          inheritEntry_free (Node.anyReferenceEntry_eq_false_iff.mpr normalFree)
            (normalFree entry member) step
      refine Node.anyReferenceEntry_eq_false_iff.mpr ?_
      intro entry member
      obtain ⟨original, listed, rfl⟩ := List.mem_map.mp member
      exact forgetParents_free (inheritedFree original listed)
  | _ =>
      cases success
      exact free

end Inheritance

namespace JobFields

private theorem pipelineDefault_free {document : Node}
    (free : document.containsReference = false) (field : String) :
    ∀ node ∈ pipelineDefault document field,
      node.containsReference = false := by
  intro node found
  simp only [pipelineDefault, Option.mem_def] at found
  split at found
  · rename_i value inDefault
    obtain ⟨defaults, defaultsFound, inside⟩ :=
      Option.bind_eq_some_iff.mp inDefault
    cases found
    exact Node.get?_free (Node.get?_free free defaultsFound) inside
  · split at found
    · exact Node.get?_free free found
    · cases found

private theorem given_free {current : Option Node}
    (free : ∀ node ∈ current, node.containsReference = false) :
    ∀ node ∈ given current, node.containsReference = false := by
  intro node found
  refine free node ?_
  unfold given at found
  split at found
  · cases found
  · exact found

/-- An update that puts values without references in the place of
such values. -/
def Update.Free (update : Update) : Prop :=
  ∀ trail current value, (∀ node ∈ current, node.containsReference = false) →
    update trail current = .ok (some value) → value.containsReference = false

section

variable {fallback : Option Node}
  (fallbackFree : ∀ node ∈ fallback, node.containsReference = false)
include fallbackFree

private theorem inheriting_free : (inheriting fallback).Free := by
  intro trail current value _ success
  unfold inheriting at success
  split at success
  · cases success
    exact fallbackFree _ rfl
  · cases success

private theorem normalizing_free (field : String)
    {normal : Trail → Node → Except Failure Node}
    (normalFree : ∀ trail node result, node.containsReference = false →
      normal trail node = .ok result → result.containsReference = false) :
    (normalizing field normal fallback).Free := by
  intro trail current value currentFree success
  unfold normalizing at success
  split at success
  · cases success
  · rename_i source chosen
    obtain ⟨result, normalized, equal⟩ := bind_eq_ok_iff.mp success
    cases equal
    refine normalFree _ source _ ?_ normalized
    rcases Option.or_eq_some_iff.mp chosen with own | ⟨_, common⟩
    · exact given_free currentFree source own
    · exact fallbackFree source common

private theorem scriptLines_free {trail : Trail} {lines : List Node}
    (success : scriptLines trail fallback = .ok lines) :
    Node.anyReference lines = false := by
  cases fallback with
  | none =>
      cases success
      rfl
  | some node =>
      cases node with
      | mapping entries => cases success
      | reference pointer => cases success
      | sequence items =>
          cases success
          exact fallbackFree _ rfl
      | _ =>
          cases success
          rfl

end

private theorem joining_free (field : String) {fallback : Option Node}
    (fallbackFree : ∀ node ∈ fallback, node.containsReference = false) :
    (joining field fallback).Free := by
  intro trail current value currentFree success
  obtain ⟨common, commonLines, afterCommon⟩ := bind_eq_ok_iff.mp success
  obtain ⟨own, ownLines, joined⟩ := bind_eq_ok_iff.mp afterCommon
  split at joined
  · cases joined
  · obtain ⟨flat, flattened, equal⟩ := bind_eq_ok_iff.mp joined
    cases equal
    refine References.flattenItems_free ?_ flattened
    have commonFree := scriptLines_free fallbackFree commonLines
    have ownFree := scriptLines_free currentFree ownLines
    rw [Node.anyReference_eq] at commonFree ownFree ⊢
    rw [List.any_append, commonFree, ownFree]
    rfl

private theorem pick_free {fields : Entries}
    (free : Node.anyReferenceEntry fields = false) (keys : List String) :
    Node.anyReferenceEntry (pick fields keys) = false := by
  refine Node.anyReferenceEntry_eq_false_iff.mpr ?_
  intro entry member
  obtain ⟨key, _, picked⟩ := List.mem_filterMap.mp member
  obtain ⟨value, found, rfl⟩ := Option.map_eq_some_iff.mp picked
  exact Node.value?_free free found

private theorem normalizeImage_free (trail : Trail) (node result : Node)
    (free : node.containsReference = false)
    (success : normalizeImage trail node = .ok result) :
    result.containsReference = false := by
  cases node with
  | text name =>
      cases success
      rfl
  | mapping fields =>
      cases success
      exact pick_free free _
  | _ => cases success

private theorem normalizeService_free {trail : Trail} {node result : Node}
    (free : node.containsReference = false)
    (success : normalizeService trail node = .ok result) :
    result.containsReference = false := by
  cases node with
  | text name =>
      cases success
      rfl
  | mapping fields =>
      simp only [normalizeService] at success
      split at success
      · cases success
        exact pick_free free _
      · cases success
  | _ => cases success

private theorem normalizeServices_free (trail : Trail) (node result : Node)
    (free : node.containsReference = false)
    (success : normalizeServices trail node = .ok result) :
    result.containsReference = false := by
  cases node with
  | sequence items =>
      obtain ⟨services, normalized, equal⟩ := bind_eq_ok_iff.mp success
      cases equal
      have itemsFree := Node.anyReference_eq_false_iff.mp free
      refine Node.anyReference_eq_false_iff.mpr (forall_of_mapM normalized ?_)
      rintro ⟨entry, index⟩ member service step
      have listed : entry ∈ items := List.fst_mem_of_mem_zipIdx member
      exact normalizeService_free (itemsFree entry listed) step
  | _ => cases success

private theorem write_free {field : String} {update : Update}
    (updateFree : update.Free) {trail : Trail}
    {job changed : Entries} (free : Node.anyReferenceEntry job = false)
    (success : write field update trail job = .ok changed) :
    Node.anyReferenceEntry changed = false := by
  rcases write_eq_ok_iff.mp success with ⟨_, rfl⟩ | ⟨value, updated, rfl⟩
  · exact free
  · refine Node.put_free free (updateFree trail _ value ?_ updated)
    intro node found
    exact Node.lookup_free free found

private theorem mapJobs_free {trail : Trail}
    {change : Trail → Entries → Except Failure Entries}
    (changeFree : ∀ trail job changed, Node.anyReferenceEntry job = false →
      change trail job = .ok changed → Node.anyReferenceEntry changed = false)
    {document result : Node} (free : document.containsReference = false)
    (success : mapJobs trail change document = .ok result) :
    result.containsReference = false := by
  cases document with
  | mapping entries =>
      obtain ⟨after, rfl, related⟩ := mapJobs_eq_ok_iff.mp success
      have entriesFree := Node.anyReferenceEntry_eq_false_iff.mp free
      refine Node.anyReferenceEntry_eq_false_iff.mpr ?_
      rintro ⟨name, definition⟩ member
      obtain ⟨original, listed, becomes⟩ := related.mem_right member
      cases becomes with
      | job _ step => exact changeFree _ _ _ (entriesFree _ listed) step
      | other _ => exact entriesFree _ listed
  | _ =>
      cases success
      exact free

private theorem joinScripts_free {field : String} {trail : Trail}
    {document result : Node} (free : document.containsReference = false)
    (success : joinScripts field trail document = .ok result) :
    result.containsReference = false := by
  rw [joinScripts_eq_write] at success
  exact mapJobs_free
    (fun _ _ _ => write_free
      (joining_free field (pipelineDefault_free free field))) free success

end JobFields

namespace Pass

/-- No pass brings references into a document that is free of them. -/
theorem run_free (pass : Pass) {trail : Trail} {document result : Node}
    (free : document.containsReference = false)
    (success : pass.run trail document = .ok result) :
    result.containsReference = false := by
  have fallbackFree := JobFields.pipelineDefault_free free
  cases pass with
  | references =>
      rw [Pass.run, References.resolve_of_free free] at success
      cases success
      exact free
  | inheritance => exact Inheritance.resolve_free free success
  | artifacts =>
      rw [Pass.run, JobFields.artifacts_eq_write] at success
      exact JobFields.mapJobs_free
        (fun _ _ _ => JobFields.write_free
          (JobFields.inheriting_free (fallbackFree _))) free success
  | image =>
      rw [Pass.run, JobFields.image_eq_write] at success
      exact JobFields.mapJobs_free
        (fun _ _ _ => JobFields.write_free
          (JobFields.normalizing_free (fallbackFree _) _
            JobFields.normalizeImage_free))
        free success
  | services =>
      rw [Pass.run, JobFields.services_eq_write] at success
      exact JobFields.mapJobs_free
        (fun _ _ _ => JobFields.write_free
          (JobFields.normalizing_free (fallbackFree _) _
            JobFields.normalizeServices_free))
        free success
  | beforeScripts => exact JobFields.joinScripts_free free success
  | afterScripts => exact JobFields.joinScripts_free free success
  | scripts =>
      obtain ⟨joined, joins, required⟩ := bind_eq_ok_iff.mp success
      refine JobFields.mapJobs_free ?_
        (JobFields.joinScripts_free free joins) required
      intro trail job changed jobFree step
      obtain ⟨_, rfl⟩ := JobFields.requireScript_eq_ok_iff.mp step
      exact jobFree

end Pass

/-- A normalized document is free of references. -/
theorem normalize_free {trail : Trail} {entries : Entries} {result : Node}
    (success : normalize trail (.mapping entries) = .ok result) :
    result.containsReference = false := by
  have run (passes : List Pass) (document : Node)
      (free : document.containsReference = false)
      (rest : passes.foldlM
        (fun document pass => pass.run trail document) document = .ok result) :
      result.containsReference = false := by
    induction passes generalizing document with
    | nil =>
        cases rest
        exact free
    | cons pass passes step =>
        rw [List.foldlM_cons] at rest
        obtain ⟨next, first, others⟩ := bind_eq_ok_iff.mp rest
        exact step next (pass.run_free free first) others
  rw [normalize, Pass.all, List.foldlM_cons] at success
  obtain ⟨resolved, first, others⟩ := bind_eq_ok_iff.mp success
  have collection : References.IsCollection (.mapping entries) := .inl rfl
  exact run _ resolved (References.resolve_clears collection first) others

end CiPipeline
