import CiPipeline.Proofs.Document.Entries
import CiPipeline.Proofs.Document.References
import CiPipeline.Proofs.Document.Splicing

/-!
# References in a larger document

A document that can be resolved holds no reference to itself as a whole.  All
its references name an entry, so that they lead to the same values in every
document with the same and further entries.
-/

namespace CiPipeline

open CiPipeline.Sequencing

namespace References

variable {root node part : Node} {place : List Step} {hop : Hop} {trail : Trail}
  {key : String} {resolved : Node}

/-- A node that holds no reference to the document as a whole. -/
def NoWhole (node : Node) : Prop :=
  ∀ place, ¬ node.Part place (.reference [])

theorem NoWhole.of_part (noWhole : NoWhole node)
    (occurs : node.Part place part) :
    NoWhole part := by
  intro inner reference
  induction occurs with
  | whole _ => exact noWhole inner reference
  | item found inside induction =>
      refine induction ?_ reference
      intro place occurs
      exact noWhole _ (.item found occurs)
  | entry found inside induction =>
      refine induction ?_ reference
      intro place occurs
      exact noWhole _ (.entry found occurs)

/-- A node that refers to a document as a whole is never resolved, when it is a
part of that document: every hop leads back to it. -/
theorem resolveEntry_whole (inRoot : root.Part place (.reference []))
    (count : Nat) {inner : List Step}
    (occurs : node.Part inner (.reference [])) :
    resolveEntry root (hopWithin root count) trail key node ≠ .ok resolved := by
  -- Following the reference gives the document again, which holds the
  -- reference, so that one hop more is needed, however many are left.
  have rootHolds := containsReference_of_part inRoot rfl
  induction count generalizing node inner trail key resolved with
  | zero =>
      intro success
      obtain ⟨_, _, _, reference, _⟩ := resolveEntry_place occurs success
      rw [resolveEntry_reference, follow, ok_bind, if_pos rootHolds]
        at reference
      cases reference
  | succ count induction =>
      intro success
      obtain ⟨_, _, _, reference, _⟩ := resolveEntry_place occurs success
      rw [resolveEntry_reference, follow, ok_bind, if_pos rootHolds]
        at reference
      obtain ⟨_, again, _⟩ := bind_eq_ok_iff.mp reference
      exact induction inRoot again

/-- A document that is resolved holds no reference to itself as a whole. -/
theorem noWhole_of_resolveEntries {entries after : Entries} {count : Nat}
    (success :
      resolveEntries (.mapping entries) (hopWithin (.mapping entries) count)
        trail entries =
        .ok after) : NoWhole (.mapping entries) := by
  intro place occurs
  have whole := occurs
  cases occurs with
  | entry found inside =>
      obtain ⟨_, _, resolution⟩ := resolveEntries_getElem? success found
      exact resolveEntry_whole whole count inside resolution

private theorem child?_part {segment : String} {value : Node}
    (found : child? node segment = some value) :
    ∃ step, node.Part [step] value := by
  unfold child? at found
  obtain ⟨present, _⟩ := Option.filter_eq_some_iff.mp found
  cases node with
  | mapping entries =>
      obtain ⟨index, stands⟩ :=
        List.mem_iff_getElem?.mp (Entries.mem_of_lookup present)
      exact ⟨_, .entry stands (.whole value)⟩
  | sequence items =>
      obtain ⟨index, _, stands⟩ := Option.bind_eq_some_iff.mp present
      exact ⟨_, .item stands (.whole value)⟩
  | _ => cases present

private theorem NoWhole.follow {pointer : List Node} {target : Node}
    (noWhole : NoWhole node)
    (success : References.follow trail node pointer = .ok target) :
    NoWhole target := by
  induction pointer generalizing node with
  | nil =>
      cases success
      exact noWhole
  | cons segment rest induction =>
      unfold References.follow at success
      split at success
      · cases success
      · split at success
        · cases success
        · rename_i value found
          obtain ⟨_, occurs⟩ := child?_part found
          exact induction (noWhole.of_part occurs) success

theorem follow_trail {pointer : List Node} {target : Node} (other : Trail)
    (success : follow trail node pointer = .ok target) :
    follow other node pointer = .ok target := by
  induction pointer generalizing node with
  | nil => exact success
  | cons segment rest induction =>
      rw [follow] at success ⊢
      cases isScalar : segment.scalar? with
      | none =>
          rw [isScalar] at success
          cases success
      | some name =>
          rw [isScalar] at success
          dsimp only at success ⊢
          cases found : child? node name with
          | none =>
              rw [found] at success
              cases success
          | some value =>
              rw [found] at success
              exact induction success

section Transfer

variable {other : Node} {within : Node → Prop} {otherHop : Hop}

/-- Nodes of which two documents resolve one as the other does: with a node
there are its parts, and a reference names the same value in both documents,
which is such a node again. -/
structure Shared (root other : Node) (within : Node → Prop) : Prop where
  item : ∀ {items : List Node},
    within (.sequence items) → ∀ item ∈ items, within item
  entry : ∀ {entries : Entries}, within (.mapping entries) → ∀ entry ∈ entries,
    within entry.2
  target : ∀ {pointer : List Node} {target : Node},
    within (.reference pointer) →
    follow Trail.root root pointer = .ok target →
    follow Trail.root other pointer = .ok target ∧ within target

theorem Shared.refl (root : Node) : Shared root root fun _ => True := by
  constructor
  · intro _ _ _ _
    trivial
  · intro _ _ _ _
    trivial
  · intro _ _ _ followed
    exact ⟨followed, trivial⟩

/-- A hop that resolves the nodes another hop resolves in the same way, wherever
they stand. -/
def Hop.Covers (within : Node → Prop) (hop other : Hop) : Prop :=
  ∀ trail key node resolved, within node → other trail key node = .ok resolved →
    ∀ newTrail newKey, hop newTrail newKey node = .ok resolved

mutual

private theorem resolveEntry_transfer (shared : Shared root other within)
    (covers : otherHop.Covers within hop) (node : Node)
    (inside : within node) {trail : Trail} {key : String} {resolved : Node}
    (success : resolveEntry root hop trail key node = .ok resolved)
    (newTrail : Trail) (newKey : String) :
    resolveEntry other otherHop newTrail newKey node = .ok resolved := by
  cases free : node.containsReference with
  | false =>
      rw [resolveEntry_of_free free] at success ⊢
      exact success
  | true =>
      cases node with
      | reference pointer =>
          rw [resolveEntry_reference] at success ⊢
          obtain ⟨target, followed, rest⟩ := bind_eq_ok_iff.mp success
          obtain ⟨inner, reached, flattened⟩ := bind_eq_ok_iff.mp rest
          obtain ⟨named, targetInside⟩ :=
            shared.target inside (follow_trail _ followed)
          rw [follow_trail _ named, ok_bind]
          refine bind_eq_ok_iff.mpr ⟨inner, ?_, flatten_trail _ flattened⟩
          cases holds : target.containsReference with
          | true =>
              rw [holds, if_pos rfl] at reached
              exact covers _ _ _ _ targetInside reached _ _
          | false => simpa [holds] using reached
      | sequence items =>
          obtain ⟨resolvedItems, steps, rfl⟩ :=
            (resolveEntry_sequence_eq_ok_iff free).mp success
          exact (resolveEntry_sequence_eq_ok_iff free).mpr
            ⟨_, resolveItems_transfer shared covers items (shared.item
              inside) steps _ _, rfl⟩
      | mapping entries =>
          obtain ⟨resolvedEntries, steps, rfl⟩ :=
            (resolveEntry_mapping_eq_ok_iff free).mp success
          exact (resolveEntry_mapping_eq_ok_iff free).mpr
            ⟨_, resolveEntries_transfer shared covers entries (shared.entry
              inside) steps _, rfl⟩
      | _ => simp [Node.containsReference] at free

private theorem resolveItems_transfer (shared : Shared root other within)
    (covers : otherHop.Covers within hop) (items : List Node)
    (inside : ∀ item ∈ items, within item) {trail : Trail} {index : Nat}
    {resolved : List Node}
    (success : resolveItems root hop trail index items = .ok resolved)
    (newTrail : Trail) (newIndex : Nat) :
    resolveItems other otherHop newTrail newIndex items = .ok resolved := by
  cases items with
  | nil => exact success
  | cons item rest =>
      obtain ⟨first, others, firstStep, otherSteps, rfl⟩ :=
        resolveItems_cons_eq_ok_iff.mp success
      have itemInside := inside item (by simp)
      have restInside : ∀ item ∈ rest, within item := fun item member =>
        inside item (by simp [member])
      exact resolveItems_cons_eq_ok_iff.mpr
        ⟨first, others,
          resolveEntry_transfer shared covers item itemInside firstStep _ _,
          resolveItems_transfer shared covers rest restInside
            otherSteps _ _, rfl⟩

private theorem resolveEntries_transfer (shared : Shared root other within)
    (covers : otherHop.Covers within hop) (entries : List (String × Node))
    (inside : ∀ entry ∈ entries, within entry.2) {trail : Trail}
    {resolved : List (String × Node)}
    (success : resolveEntries root hop trail entries = .ok resolved)
    (newTrail : Trail) :
    resolveEntries other otherHop newTrail entries = .ok resolved := by
  cases entries with
  | nil => exact success
  | cons entry rest =>
      obtain ⟨key, value⟩ := entry
      obtain ⟨first, others, firstStep, otherSteps, rfl⟩ :=
        resolveEntries_cons_eq_ok_iff.mp success
      have valueInside := inside (key, value) (by simp)
      have restInside : ∀ entry ∈ rest, within entry.2 := fun entry member =>
        inside entry (by simp [member])
      exact resolveEntries_cons_eq_ok_iff.mpr
        ⟨first, others,
          resolveEntry_transfer shared covers value valueInside firstStep _ _,
          resolveEntries_transfer shared covers rest restInside
            otherSteps _, rfl⟩

end

/-- What is resolved within some hops is resolved within more of them. -/
theorem hopWithin_covers (shared : Shared root other within) {count more : Nat}
    (fewer : count ≤ more) :
    (hopWithin other more).Covers within (hopWithin root count) := by
  induction count generalizing more with
  | zero =>
      intro trail key node resolved _ success
      cases success
  | succ count induction =>
      intro trail key node resolved inside success newTrail newKey
      obtain ⟨rest, rfl⟩ := Nat.exists_eq_add_of_le' (Nat.zero_lt_of_lt fewer)
      have covers := induction (Nat.le_of_succ_le_succ fewer)
      exact resolveEntry_transfer shared covers node inside success
        newTrail newKey

variable {small large : Entries}

/-- Pointers that lead somewhere in the smaller document lead there in the
larger one. -/
theorem follow_of_lookup
    (finds : ∀ name value,
      small.lookup name = some value → large.lookup name = some value)
    {pointer : List Node} (pointing : pointer ≠ []) {target : Node}
    (success : follow trail (.mapping small) pointer = .ok target) :
    follow trail (.mapping large) pointer = .ok target := by
  cases pointer with
  | nil => exact (pointing rfl).elim
  | cons segment rest =>
      unfold follow at success ⊢
      split at success
      · cases success
      · split at success
        · cases success
        · rename_i _ name _ _ value found
          obtain ⟨present, visible⟩ := Option.filter_eq_some_iff.mp found
          have also : child? (.mapping large) name = some value :=
            Option.filter_eq_some_iff.mpr ⟨finds name value present, visible⟩
          simp only [also]
          exact success

theorem shared_of_lookup
    (finds : ∀ name value, small.lookup name = some value →
      large.lookup name = some value) (rootNoWhole : NoWhole (.mapping small)) :
    Shared (.mapping small) (.mapping large) NoWhole := by
  constructor
  · intro items noWhole item member
    obtain ⟨index, found⟩ := List.mem_iff_getElem?.mp member
    exact noWhole.of_part (.item found (.whole item))
  · intro entries noWhole entry member
    obtain ⟨index, found⟩ := List.mem_iff_getElem?.mp member
    exact noWhole.of_part (.entry found (.whole entry.2))
  · intro pointer target noWhole followed
    -- The empty pointer would lead to the whole document, which differs between
    -- the two.
    have pointing : pointer ≠ [] := by
      rintro rfl
      exact noWhole [] (.whole _)
    exact ⟨follow_of_lookup finds pointing followed,
      rootNoWhole.follow followed⟩

end Transfer

theorem resolveEntries_eq_mapM (root : Node) (hop : Hop) (trail : Trail)
    (entries : Entries) :
    resolveEntries root hop trail entries = entries.mapM fun entry => do
      return (entry.1, ← resolveEntry root hop trail entry.1 entry.2) := by
  induction entries with
  | nil => rfl
  | cons entry rest induction =>
      obtain ⟨key, value⟩ := entry
      rw [resolveEntries, List.mapM_cons, induction]
      dsimp only
      cases resolveEntry root hop trail key value <;> rfl

end References

end CiPipeline
