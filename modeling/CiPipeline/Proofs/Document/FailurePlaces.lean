import CiPipeline.Proofs.Document.Inheritance
import CiPipeline.Proofs.Document.JobFields
import CiPipeline.Proofs.Document.ReferenceTransfer
import CiPipeline.Proofs.Trails

/-!
# Where the passes over a document fail

Every step of a pass enters the key of the entry on which it works, and its
failures are at places below that key.
-/

namespace CiPipeline

open CiPipeline.Trail CiPipeline.Sequencing

variable {trail : Trail}

/-! ## References -/

namespace References

private theorem follow_failsBelow (node : Node) (pointer : List Node) :
    trail.FailsBelow (follow trail node pointer) := by
  induction pointer generalizing node with
  | nil => exact failsBelow_ok trail node
  | cons segment rest induction =>
      rw [follow]
      split
      · exact failsBelow_fail trail _
      · split
        · exact failsBelow_fail trail _
        · exact induction _

private theorem splice_failsBelow (node : Node) :
    trail.FailsBelow (splice trail node) := by
  cases node with
  | null => exact failsBelow_fail trail _
  | _ => exact failsBelow_ok trail _

private theorem flattenItems_failsBelow (items : List Node) :
    trail.FailsBelow (flattenItems trail items) := by
  unfold flattenItems
  split
  · apply FailsBelow.bind
    · exact .mapM splice_failsBelow
    · intro lists
      exact failsBelow_ok trail _
  · exact failsBelow_ok trail items

private theorem flatten_failsBelow (node : Node) :
    trail.FailsBelow (flatten trail node) := by
  cases node with
  | sequence items =>
      apply FailsBelow.bind (flattenItems_failsBelow items)
      intro flat
      exact failsBelow_ok trail _
  | _ => exact failsBelow_ok trail _

/-- The trail on which the value under a key is resolved. -/
def entered (trail : Trail) (key : String) : Node → Trail
  | .reference pointer => pointerTrail trail key pointer
  | _ => trail.descend key

private theorem leads_entered (trail : Trail) (key : String) (node : Node) :
    trail.frames <:+ (entered trail key node).frames := by
  cases node <;> exact List.suffix_cons _ _

/-- A hop that fails below the trail on which it is taken. -/
def Hop.FailsBelow (hop : Hop) : Prop :=
  ∀ (trail : Trail) (key : String) (node : Node),
    trail.FailsBelow (hop trail key node)

variable {root : Node} {hop : Hop}

mutual

private theorem resolveEntry_failsBelow (hops : hop.FailsBelow) (trail : Trail)
    (key : String) (node : Node) : (entered trail key node).FailsBelow
      (resolveEntry root hop trail key node) := by
  cases contains : node.containsReference with
  | false =>
      rw [resolveEntry_of_free contains]
      exact failsBelow_ok _ node
  | true =>
      cases node with
      | reference pointer =>
          rw [resolveEntry_reference]
          apply FailsBelow.bind (follow_failsBelow root pointer)
          intro target
          apply FailsBelow.bind
          · split
            · exact hops _ key target
            · exact failsBelow_ok _ target
          · intro resolved
            exact flatten_failsBelow resolved
      | sequence items =>
          rw [resolveEntry, if_pos contains]
          apply FailsBelow.bind
            (resolveItems_failsBelow hops (trail.descend key) 0 items)
          intro resolved
          exact failsBelow_ok _ _
      | mapping entries =>
          rw [resolveEntry, if_pos contains]
          apply FailsBelow.bind
            (resolveEntries_failsBelow hops (trail.descend key) entries)
          intro resolved
          exact failsBelow_ok _ _
      | _ => cases contains

private theorem resolveItems_failsBelow (hops : hop.FailsBelow) (trail : Trail)
    (index : Nat) (items : List Node) :
    trail.FailsBelow (resolveItems root hop trail index items) := by
  cases items with
  | nil => exact failsBelow_ok trail []
  | cons item rest =>
      rw [resolveItems]
      apply FailsBelow.bind
      · have first := resolveEntry_failsBelow hops trail (toString index) item
        exact first.mono (leads_entered trail _ item)
      · intro resolved
        apply FailsBelow.bind
          (resolveItems_failsBelow hops trail (index + 1) rest)
        intro others
        exact failsBelow_ok trail _

private theorem resolveEntries_failsBelow (hops : hop.FailsBelow)
    (trail : Trail) (entries : List (String × Node)) :
    trail.FailsBelow (resolveEntries root hop trail entries) := by
  cases entries with
  | nil => exact failsBelow_ok trail []
  | cons entry rest =>
      obtain ⟨key, value⟩ := entry
      rw [resolveEntries]
      apply FailsBelow.bind
      · have first := resolveEntry_failsBelow hops trail key value
        exact first.mono (leads_entered trail key value)
      · intro resolved
        apply FailsBelow.bind (resolveEntries_failsBelow hops trail rest)
        intro others
        exact failsBelow_ok trail _

end

private theorem hopWithin_failsBelow (root : Node) (count : Nat) :
    (hopWithin root count).FailsBelow := by
  induction count with
  | zero =>
      intro trail key node
      exact failsBelow_fail trail _
  | succ count induction =>
      intro trail key node
      apply FailsBelow.mono _ (leads_entered trail key node)
      exact resolveEntry_failsBelow induction trail key node

/-- The resolution of one entry of a document. -/
def resolveOne (trail : Trail) (document : Node) (entry : String × Node) :
    Except Failure (String × Node) := do
  return (entry.1,
    ← resolveEntry document (hopWithin document hopLimit) trail entry.1 entry.2)

theorem resolveOne_failsBelow (trail : Trail) (document : Node)
    (entry : String × Node) :
    (entered trail entry.1 entry.2).FailsBelow
      (resolveOne trail document entry) := by
  apply FailsBelow.bind
  · exact resolveEntry_failsBelow (hopWithin_failsBelow document hopLimit) trail
      entry.1 entry.2
  · intro resolved
    exact failsBelow_ok _ _

theorem resolve_eq_error_iff {entries : Entries} {failure : Failure} :
    resolve trail (.mapping entries) = .error failure ↔
      ∃ entry, StopsAt (resolveOne trail (.mapping entries)) failure entry
        entries := by
  have spelled : resolve trail (.mapping entries) =
      entries.mapM (resolveOne trail (.mapping entries)) >>= fun resolved =>
        .ok (Node.mapping resolved) := by
    unfold resolve
    dsimp only
    rw [resolveEntries_eq_mapM]
    rfl
  rw [← mapM_eq_error_iff, spelled, bind_ok_eq_error_iff]

end References

/-! ## Inheritance -/

namespace Inheritance

private theorem checkParents_failsBelow (parents : List Node) :
    trail.FailsBelow (checkParents trail parents) := by
  induction parents with
  | nil => exact failsBelow_ok trail ()
  | cons parent rest induction =>
      cases parent with
      | text _ => exact induction
      | _ => exact failsBelow_fail trail _

private theorem normalizeParents_failsBelow (value : Option Node) :
    trail.FailsBelow (normalizeParents trail value) := by
  unfold normalizeParents
  split
  · exact failsBelow_ok trail _
  · exact failsBelow_ok trail _
  · exact failsBelow_ok trail _
  · rename_i parents
    apply FailsBelow.bind (checkParents_failsBelow parents)
    intro checked
    exact failsBelow_ok trail _
  · exact failsBelow_fail trail _

theorem normalizeEntry_failsBelow (trail : Trail) (entry : String × Node) :
    (trail.descend entry.1).FailsBelow (normalizeEntry trail entry) := by
  obtain ⟨name, definition⟩ := entry
  unfold normalizeEntry
  dsimp only
  split
  · exact failsBelow_ok _ _
  · split
    · apply FailsBelow.bind
      · exact (normalizeParents_failsBelow _).of_descend
      · intro parents
        exact failsBelow_ok _ _
    · split
      · exact failsBelow_fail _ _
      · exact failsBelow_ok _ _

private theorem ancestors_failsBelow (entries : Entries) (depth : Nat)
    (name : String) (definition : Node) :
    trail.FailsBelow (ancestors entries depth trail name definition) := by
  induction depth generalizing trail name definition with
  | zero => exact failsBelow_fail trail _
  | succ depth induction =>
      rw [ancestors]
      apply FailsBelow.bind
      · apply FailsBelow.mapM
        intro parent
        refine FailsBelow.of_descend
          (?_ : (trail.descend "extends").FailsBelow _)
        refine FailsBelow.of_descend
          (?_ : ((trail.descend "extends").descend parent).FailsBelow _)
        apply FailsBelow.bind (failsBelow_require _ _ _)
        intro found
        apply FailsBelow.bind (induction parent found)
        intro above
        exact failsBelow_ok _ _
      · intro lines
        exact failsBelow_ok trail _

theorem inheritEntry_failsBelow (trail : Trail) (entries : Entries)
    (entry : String × Node) :
    (trail.descend entry.1).FailsBelow (inheritEntry trail entries entry) := by
  obtain ⟨name, definition⟩ := entry
  unfold inheritEntry
  dsimp only
  split
  · apply FailsBelow.bind
      (ancestors_failsBelow entries depthLimit name definition)
    intro inherited
    exact failsBelow_ok _ _
  · exact failsBelow_ok _ _

theorem resolve_eq_error_iff {entries : Entries} {failure : Failure} :
    resolve trail (.mapping entries) = .error failure ↔
      (∃ entry, StopsAt (normalizeEntry trail) failure entry entries) ∨
        ∃ normal, entries.mapM (normalizeEntry trail) = .ok normal ∧
          ∃ entry, StopsAt (inheritEntry trail normal) failure entry
            normal := by
  unfold resolve
  simp only [← mapM_eq_error_iff, bind_eq_error_iff, pure_eq_ok, reduceCtorEq,
    and_false, exists_false, or_false]

end Inheritance

/-! ## Fields of jobs -/

namespace JobFields

/-- An update that fails below the trail of the job. -/
def Update.FailsBelow (update : Update) : Prop :=
  ∀ (trail : Trail) (current : Option Node),
    trail.FailsBelow (update trail current)

theorem changeEntry_failsBelow
    {change : Trail → Entries → Except Failure Entries}
    (changes : ∀ (trail : Trail) job, trail.FailsBelow (change trail job))
    (trail : Trail) (entry : String × Node) :
    (trail.descend entry.1).FailsBelow (changeEntry trail change entry) := by
  obtain ⟨name, definition⟩ := entry
  unfold changeEntry
  dsimp only
  split
  · split
    · rename_i fields
      apply FailsBelow.bind (changes _ fields)
      intro changed
      exact failsBelow_ok _ _
    · exact failsBelow_fail _ _
  · exact failsBelow_ok _ _

theorem mapJobs_eq_error_iff {change : Trail → Entries → Except Failure Entries}
    {entries : Entries} {failure : Failure} :
    mapJobs trail change (.mapping entries) = .error failure ↔
      ∃ entry, StopsAt (changeEntry trail change) failure entry entries := by
  have spelled : mapJobs trail change (.mapping entries) =
      entries.mapM (changeEntry trail change) >>= fun changed =>
        .ok (Node.mapping changed) := rfl
  rw [← mapM_eq_error_iff, spelled, bind_ok_eq_error_iff]

theorem write_failsBelow {update : Update} (updates : update.FailsBelow)
    (field : String) (trail : Trail) (job : Entries) :
    trail.FailsBelow (write field update trail job) := by
  apply FailsBelow.bind (updates trail _)
  intro new
  cases new <;> exact failsBelow_ok trail _

theorem inheriting_failsBelow (fallback : Option Node) :
    (inheriting fallback).FailsBelow := by
  intro trail current
  unfold inheriting
  split <;> exact failsBelow_ok trail _

theorem normalizing_failsBelow {normal : Trail → Node → Except Failure Node}
    (normals : ∀ (trail : Trail) node, trail.FailsBelow (normal trail node))
    (field : String) (fallback : Option Node) :
    (normalizing field normal fallback).FailsBelow := by
  intro trail current
  unfold normalizing
  split
  · exact failsBelow_ok trail _
  · rename_i value _
    apply FailsBelow.bind (normals _ value).of_descend
    intro result
    exact failsBelow_ok trail _

theorem normalizeImage_failsBelow (trail : Trail) (node : Node) :
    trail.FailsBelow (normalizeImage trail node) := by
  cases node with
  | text | mapping => exact failsBelow_ok trail _
  | _ => exact failsBelow_fail trail _

private theorem normalizeService_failsBelow (node : Node) :
    trail.FailsBelow (normalizeService trail node) := by
  cases node with
  | text => exact failsBelow_ok trail _
  | mapping fields =>
      unfold normalizeService
      dsimp only
      split
      · exact failsBelow_ok trail _
      · exact failsBelow_fail trail _
  | _ => exact failsBelow_fail trail _

theorem normalizeServices_failsBelow (trail : Trail) (node : Node) :
    trail.FailsBelow (normalizeServices trail node) := by
  cases node with
  | sequence items =>
      apply FailsBelow.bind
      · apply FailsBelow.mapM
        intro entry
        exact (normalizeService_failsBelow entry.1).of_descend
      · intro services
        exact failsBelow_ok trail _
  | _ => exact failsBelow_fail trail _

private theorem scriptLines_failsBelow (value : Option Node) :
    trail.FailsBelow (scriptLines trail value) := by
  unfold scriptLines
  split <;> first | exact failsBelow_ok trail _ | exact failsBelow_fail trail _

theorem joining_failsBelow (field : String) (fallback : Option Node) :
    (joining field fallback).FailsBelow := by
  intro trail current
  refine FailsBelow.of_descend (?_ : (trail.descend field).FailsBelow _)
  apply FailsBelow.bind (scriptLines_failsBelow fallback)
  intro common
  apply FailsBelow.bind (scriptLines_failsBelow current)
  intro own
  split
  · exact failsBelow_ok _ _
  · apply FailsBelow.bind (References.flattenItems_failsBelow _)
    intro flat
    exact failsBelow_ok _ _

theorem requireScript_failsBelow (trail : Trail) (job : Entries) :
    trail.FailsBelow (requireScript trail job) := by
  apply FailsBelow.bind (failsBelow_assert trail _ _)
  intro required
  exact failsBelow_ok trail job

end JobFields

end CiPipeline
