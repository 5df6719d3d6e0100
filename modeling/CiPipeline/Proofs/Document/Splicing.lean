import CiPipeline.Proofs.Sequencing
import CiPipeline.References
import Mathlib.Logic.Function.Iterate

/-!
# Splicing nested lists

A list is flattened by putting the items of each nested list in its place.  That
goes one level deep, so that a list of nested lists becomes smaller, and may
have nested lists still.
-/

namespace CiPipeline.References

open CiPipeline.Sequencing

/-- The items that stand in the place of an item of a flattened list. -/
def spliced : Node → List Node
  | .sequence inner => inner
  | item => [item]

theorem splice_eq_ok_iff {trail : Trail} {item : Node} {items : List Node} :
    splice trail item = .ok items ↔ item ≠ .null ∧ items = spliced item := by
  cases item <;> simp [splice, spliced, eq_comm]

theorem mapM_splice_eq_ok_iff {trail : Trail} {items : List Node}
    {lists : List (List Node)} :
    items.mapM (splice trail) = .ok lists ↔
      .null ∉ items ∧ lists = items.map spliced := by
  simp only [mapM_eq_ok_iff, splice_eq_ok_iff]
  constructor
  · intro each
    induction each with
    | nil => simp
    | cons head _ induction =>
        obtain ⟨present, rfl⟩ := head
        obtain ⟨others, rfl⟩ := induction
        exact ⟨by simp [Ne.symm present, others], rfl⟩
  · intro both
    obtain ⟨present, rfl⟩ := both
    rw [List.forall₂_map_right_iff, List.forall₂_same]
    intro item member
    refine ⟨?_, rfl⟩
    rintro rfl
    exact present member

private theorem flatMap_spliced_of_flat {items : List Node}
    (flat : items.any isSequence = false) :
    items.flatMap spliced = items := by
  rw [List.any_eq_false] at flat
  apply (List.flatMap_congr _).trans (List.flatMap_singleton' items)
  intro item member
  have plain := flat item member
  cases item <;> simp_all [isSequence, spliced]

/-- Flattening splices every item; beside a nested list no item may be null. -/
theorem flattenItems_eq_ok_iff {trail : Trail} {items flat : List Node} :
    flattenItems trail items = .ok flat ↔
      (items.any isSequence = true → .null ∉ items) ∧
        flat = items.flatMap spliced := by
  unfold flattenItems
  cases nested : items.any isSequence with
  | true =>
      simp only [if_true, bind_eq_ok_iff, mapM_splice_eq_ok_iff, true_implies,
        pure_eq_ok, List.flatMap_def]
      constructor
      · intro success
        obtain ⟨_, ⟨present, rfl⟩, equal⟩ := success
        cases equal
        exact ⟨present, rfl⟩
      · intro both
        exact ⟨_, ⟨both.1, rfl⟩, by rw [both.2]⟩
  | false =>
      simp [flatMap_spliced_of_flat nested, eq_comm]

theorem flatten_trail {trail : Trail} {node flat : Node} (other : Trail)
    (success : flatten trail node = .ok flat) :
    flatten other node = .ok flat := by
  cases node with
  | sequence items =>
      obtain ⟨flatItems, flattened, equal⟩ := bind_eq_ok_iff.mp success
      have spliceable := flattenItems_eq_ok_iff.mp flattened
      exact bind_eq_ok_iff.mpr
        ⟨flatItems, flattenItems_eq_ok_iff.mpr spliceable, equal⟩
  | _ => exact success

theorem flatMap_spliced_of_scalars {items : List Node}
    (scalars : ∀ item ∈ items, item.scalar?.isSome = true) :
    items.flatMap spliced = items := by
  apply flatMap_spliced_of_flat
  rw [List.any_eq_false]
  intro item member
  have scalar := scalars item member
  cases item <;> simp_all [Node.scalar?, isSequence]

theorem null_notMem_of_scalars {items : List Node}
    (scalars : ∀ item ∈ items, item.scalar?.isSome = true) : .null ∉ items := by
  intro member
  cases scalars _ member

/-! ## Splicing again -/

/-- A list with its nested lists spliced, one level deep; any other
node as it is. -/
def spread : Node → Node
  | .sequence items => .sequence (items.flatMap spliced)
  | node => node

/-- Whether a node is a list with a list among its items. -/
def isNested : Node → Bool
  | .sequence items => items.any isSequence
  | _ => false

theorem eq_spread_of_flatten {trail : Trail} {node flat : Node}
    (success : flatten trail node = .ok flat) : flat = spread node := by
  cases node with
  | sequence items =>
      obtain ⟨flatItems, flattened, equal⟩ := bind_eq_ok_iff.mp success
      cases equal
      rw [spread, (flattenItems_eq_ok_iff.mp flattened).2]
  | _ =>
      cases success
      rfl

private theorem spread_of_flat {node : Node} (flat : isNested node = false) :
    spread node = node := by
  cases node with
  | sequence items => rw [spread, flatMap_spliced_of_flat flat]
  | _ => rfl

private theorem sizeOf_append (front rest : List Node) :
    sizeOf (front ++ rest) + 1 = sizeOf front + sizeOf rest := by
  induction front with
  | nil => simp [Nat.add_comm]
  | cons item front induction =>
      simp only [List.cons_append, List.cons.sizeOf_spec]
      omega

private theorem sizeOf_spliced_le (item : Node) :
    sizeOf (spliced item) ≤ sizeOf item + 2 := by
  cases item with
  | sequence inner =>
      simp only [spliced, Node.sequence.sizeOf_spec]
      omega
  | _ =>
      simp only [spliced, List.cons.sizeOf_spec, List.nil.sizeOf_spec]
      omega

private theorem sizeOf_flatMap_spliced_le (items : List Node) :
    sizeOf (items.flatMap spliced) ≤ sizeOf items := by
  induction items with
  | nil => exact Nat.le_refl _
  | cons item rest induction =>
      have joined := sizeOf_append (spliced item) (rest.flatMap spliced)
      have bounded := sizeOf_spliced_le item
      simp only [List.flatMap_cons, List.cons.sizeOf_spec]
      omega

/-- A nested list gives way to its items, so that a node is lost. -/
theorem sizeOf_flatMap_spliced_lt {items : List Node}
    (nested : items.any isSequence = true) :
    sizeOf (items.flatMap spliced) < sizeOf items := by
  induction items with
  | nil => cases nested
  | cons item rest induction =>
      have joined := sizeOf_append (spliced item) (rest.flatMap spliced)
      simp only [List.flatMap_cons, List.cons.sizeOf_spec]
      rcases Bool.or_eq_true_iff.mp nested with isList | others
      · have kept := sizeOf_flatMap_spliced_le rest
        cases item with
        | sequence inner =>
            simp only [spliced, Node.sequence.sizeOf_spec] at joined ⊢
            omega
        | _ => cases isList
      · have bounded := sizeOf_spliced_le item
        have fewer := induction others
        omega

private theorem sizeOf_spread_le (node : Node) :
    sizeOf (spread node) ≤ sizeOf node := by
  cases node with
  | sequence items =>
      have bounded := sizeOf_flatMap_spliced_le items
      simp only [spread, Node.sequence.sizeOf_spec]
      omega
  | _ => exact Nat.le_refl _

private theorem sizeOf_iterate_spread_le (count : Nat) (node : Node) :
    sizeOf (spread^[count] node) ≤ sizeOf node := by
  induction count with
  | zero => exact Nat.le_refl _
  | succ count induction =>
      rw [Function.iterate_succ_apply']
      exact Nat.le_trans (sizeOf_spread_le _) induction

/-- Splicing a list, however often, leaves it as it is only if no list is
nested in it. -/
theorem iterate_spread_eq_iff (count : Nat) (node : Node) :
    spread^[count + 1] node = node ↔ isNested node = false := by
  constructor
  · intro same
    cases nested : isNested node with
    | false => rfl
    | true =>
        cases node with
        | sequence items =>
            have fewer := sizeOf_flatMap_spliced_lt nested
            have bounded :=
              sizeOf_iterate_spread_le count (spread (.sequence items))
            rw [← Function.iterate_succ_apply, same] at bounded
            simp only [spread, Node.sequence.sizeOf_spec] at bounded
            omega
        | _ => cases nested
  · intro flat
    exact Function.iterate_fixed (spread_of_flat flat) _

end CiPipeline.References
