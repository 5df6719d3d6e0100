import CiPipeline.Proofs.Document.ReferenceTransfer
import CiPipeline.Proofs.Document.Splicing
import Mathlib.Data.List.Perm.Basic

/-!
# Documents in another order

References are resolved against the document as it was written, and a mapping is
read by its keys.  So documents that differ only in the order of keys are
resolved alike, and the results again differ only in the order of keys.
-/

namespace CiPipeline

open CiPipeline.Sequencing

/-- Entries with the same key and related values. -/
inductive Entries.Alike (relation : Node → Node → Prop) :
    String × Node → String × Node → Prop where
  | value {key : String} {left right : Node} :
      relation left right → Alike relation (key, left) (key, right)

/-- Nodes that differ at most in the order of the entries of their mappings, at
any depth. -/
inductive Node.Reordered : Node → Node → Prop where
  | null : Reordered .null .null
  | boolean (value : Bool) : Reordered (.boolean value) (.boolean value)
  | number (value : Number) : Reordered (.number value) (.number value)
  | text (value : String) : Reordered (.text value) (.text value)
  | sequence {items others : List Node} :
      List.Forall₂ Reordered items others →
      Reordered (.sequence items) (.sequence others)
  | mapping {entries middle others : Entries} :
      List.Forall₂ (Entries.Alike Reordered) entries middle →
      middle.Perm others →
      Reordered (.mapping entries) (.mapping others)
  | reference {pointer others : List Node} :
      List.Forall₂ Reordered pointer others →
      Reordered (.reference pointer) (.reference others)

/-- A node in which no mapping, at any depth, has two entries with
the same key. -/
inductive Node.Unambiguous : Node → Prop where
  | leaf {node : Node} :
      node.isMapping = false → References.isSequence node = false →
        Unambiguous node
  | sequence {items : List Node} :
      (∀ item ∈ items, Unambiguous item) → Unambiguous (.sequence items)
  | mapping {entries : Entries} :
      entries.keys.Nodup → (∀ entry ∈ entries, Unambiguous entry.2) →
      Unambiguous (.mapping entries)

namespace Node

theorem reordered_mapping_iff {entries : Entries} {other : Node} :
    Reordered (.mapping entries) other ↔
      ∃ middle others, Entries.Related (fun _ => Reordered) entries middle ∧
        middle.Perm others ∧ other = .mapping others := by
  constructor
  · intro reordered
    cases reordered with
    | mapping alike permutation =>
        refine ⟨_, _, alike.imp ?_, permutation, rfl⟩
        intro entry other pair
        cases pair with
        | value related => exact ⟨rfl, related⟩
  · intro parts
    obtain ⟨middle, others, related, permutation, rfl⟩ := parts
    refine .mapping (related.imp ?_) permutation
    rintro ⟨key, left⟩ ⟨_, right⟩ ⟨rfl, values⟩
    exact .value values

mutual

theorem Reordered.symm (node : Node) {other : Node}
    (reordered : node.Reordered other) :
    other.Reordered node := by
  cases node with
  | sequence items =>
      cases reordered with
      | sequence each => exact .sequence (reordered_symm_items items each)
  | mapping entries =>
      obtain ⟨middle, others, related, permutation, rfl⟩ :=
        reordered_mapping_iff.mp reordered
      have back := reordered_symm_entries entries related
      obtain ⟨between, alike, moved⟩ :=
        List.perm_comp_forall₂ permutation.symm back
      exact reordered_mapping_iff.mpr ⟨between, entries, alike, moved, rfl⟩
  | reference pointer =>
      cases reordered with
      | reference each => exact .reference (reordered_symm_items pointer each)
  | null =>
      cases reordered
      exact .null
  | boolean value =>
      cases reordered
      exact .boolean value
  | number value =>
      cases reordered
      exact .number value
  | text value =>
      cases reordered
      exact .text value

private theorem reordered_symm_items (items : List Node) {others : List Node}
    (each : List.Forall₂ Reordered items others) :
    List.Forall₂ Reordered others items := by
  cases items with
  | nil =>
      cases each
      exact .nil
  | cons item rest =>
      cases each with
      | cons first remaining =>
          exact .cons (Reordered.symm item first)
            (reordered_symm_items rest remaining)

private theorem reordered_symm_entries (entries : List (String × Node))
    {others : Entries}
    (related : Entries.Related (fun _ => Reordered) entries others) :
    Entries.Related (fun _ => Reordered) others entries := by
  cases entries with
  | nil =>
      cases related
      exact .nil
  | cons entry rest =>
      obtain ⟨key, value⟩ := entry
      cases related with
      | cons first remaining =>
          exact .cons ⟨first.1.symm, Reordered.symm value first.2⟩
            (reordered_symm_entries rest remaining)

end

private theorem Unambiguous.of_reordered {node : Node}
    (unambiguous : node.Unambiguous) {other : Node}
    (reordered : node.Reordered other) : other.Unambiguous := by
  induction unambiguous generalizing other with
  | leaf noMapping noSequence =>
      cases reordered with
      | sequence => cases noSequence
      | mapping => cases noMapping
      | _ => exact .leaf rfl rfl
  | @sequence items _ induction =>
      cases reordered with
      | sequence each =>
          apply Unambiguous.sequence
          intro item member
          obtain ⟨index, bound, rfl⟩ := List.mem_iff_getElem.mp member
          have inside : index < items.length := each.length_eq ▸ bound
          exact induction _ (List.getElem_mem inside) (each.get inside bound)
  | mapping distinct _ induction =>
      obtain ⟨middle, others, related, permutation, rfl⟩ :=
        reordered_mapping_iff.mp reordered
      apply Unambiguous.mapping
      · apply (permutation.map Prod.fst).nodup_iff.mp
        rw [← Entries.keys, related.keys]
        exact distinct
      · intro entry member
        obtain ⟨original, listed, alike⟩ :=
          related.mem_right (permutation.mem_iff.mpr member)
        exact induction (entry.1, original) listed alike

private theorem Reordered.scalar? {node other : Node}
    (reordered : node.Reordered other) :
    other.scalar? = node.scalar? := by
  cases reordered <;> rfl

private theorem Reordered.isNull {node other : Node}
    (reordered : node.Reordered other) :
    other.isNull = node.isNull := by
  cases reordered <;> rfl

mutual

private theorem Reordered.containsReference (node : Node) {other : Node}
    (reordered : node.Reordered other) :
    other.containsReference = node.containsReference := by
  cases node with
  | sequence items =>
      cases reordered with
      | sequence each => exact anyReference_of_reordered items each
  | mapping entries =>
      obtain ⟨middle, others, related, permutation, rfl⟩ :=
        reordered_mapping_iff.mp reordered
      have alike := anyReferenceEntry_of_reordered entries related
      rw [anyReferenceEntry_eq] at alike
      show anyReferenceEntry others = anyReferenceEntry entries
      rw [← alike, anyReferenceEntry_eq]
      exact permutation.symm.any_eq
  | _ =>
      cases reordered
      rfl

private theorem anyReference_of_reordered (items : List Node)
    {others : List Node} (each : List.Forall₂ Reordered items others) :
    anyReference others = anyReference items := by
  cases items with
  | nil =>
      cases each
      rfl
  | cons item rest =>
      cases each with
      | cons first remaining =>
          rw [anyReference, anyReference,
            Reordered.containsReference item first,
            anyReference_of_reordered rest remaining]

private theorem anyReferenceEntry_of_reordered (entries : List (String × Node))
    {others : Entries}
    (related : Entries.Related (fun _ => Reordered) entries others) :
    anyReferenceEntry others = anyReferenceEntry entries := by
  cases entries with
  | nil =>
      cases related
      rfl
  | cons entry rest =>
      obtain ⟨key, value⟩ := entry
      cases related with
      | cons first remaining =>
          rw [anyReferenceEntry, anyReferenceEntry,
            Reordered.containsReference value first.2,
            anyReferenceEntry_of_reordered rest remaining]

end

end Node

/-! ## Following pointers -/

namespace References

open Node

variable {node other root otherRoot : Node} {hop otherHop : Hop}
  {trail otherTrail : Trail} {key otherKey : String}

private theorem child?_reordered (unambiguous : node.Unambiguous)
    (reordered : node.Reordered other) {segment : String} {value : Node}
    (found : child? node segment = some value) :
    ∃ otherValue, child? other segment = some otherValue ∧
      value.Reordered otherValue ∧
      value.Unambiguous := by
  obtain ⟨present, visible⟩ := Option.filter_eq_some_iff.mp found
  have shown {otherValue : Node} (alike : value.Reordered otherValue) :
      (!otherValue.isNull) = true := by
    rw [alike.isNull]
    exact visible
  cases unambiguous with
  | leaf noMapping noSequence =>
      cases node with
      | mapping => cases noMapping
      | sequence => cases noSequence
      | _ => cases present
  | @sequence items inside =>
      cases reordered with
      | @sequence _ others each =>
          obtain ⟨index, read, stands⟩ := Option.bind_eq_some_iff.mp present
          obtain ⟨bound, rfl⟩ := List.getElem?_eq_some_iff.mp stands
          have otherBound : index < others.length := each.length_eq ▸ bound
          have alike : items[index].Reordered others[index] :=
            each.get bound otherBound
          refine ⟨others[index],
            Option.filter_eq_some_iff.mpr ⟨?_, shown alike⟩, alike, ?_⟩
          · apply Option.bind_eq_some_iff.mpr
            exact ⟨index, read, List.getElem?_eq_getElem otherBound⟩
          · exact inside _ (List.getElem_mem bound)
  | mapping distinct inside =>
      obtain ⟨middle, others, related, permutation, rfl⟩ :=
        reordered_mapping_iff.mp reordered
      obtain ⟨otherValue, foundMiddle, alike⟩ := related.lookup present
      have othersDistinct : Entries.keys others |>.Nodup := by
        apply (permutation.map Prod.fst).nodup_iff.mp
        rw [← Entries.keys, related.keys]
        exact distinct
      have member := permutation.mem_iff.mp (Entries.mem_of_lookup foundMiddle)
      refine ⟨otherValue,
        Option.filter_eq_some_iff.mpr ⟨?_, shown alike⟩, alike, ?_⟩
      · exact lookup_of_mem_of_nodup othersDistinct member
      · exact inside _ (Entries.mem_of_lookup present)

private theorem follow_reordered (unambiguous : node.Unambiguous)
    (reordered : node.Reordered other) {pointer otherPointer : List Node}
    (pointers : List.Forall₂ Reordered pointer otherPointer) {target : Node}
    (success : follow trail node pointer = .ok target) (otherTrail : Trail) :
    ∃ otherTarget, follow otherTrail other otherPointer = .ok otherTarget ∧
      target.Reordered otherTarget := by
  induction pointers generalizing node other with
  | nil =>
      cases success
      exact ⟨other, rfl, reordered⟩
  | cons first _ induction =>
      rw [follow] at success ⊢
      rw [first.scalar?]
      split at success
      · cases success
      · split at success
        · cases success
        · rename_i value found
          obtain ⟨otherValue, otherFound, alike, inside⟩ :=
            child?_reordered unambiguous reordered found
          simp only [otherFound]
          exact induction inside alike success

private theorem spliced_reordered {item otherItem : Node}
    (reordered : item.Reordered otherItem) :
    List.Forall₂ Reordered (spliced item) (spliced otherItem) := by
  cases item with
  | sequence items =>
      cases reordered with
      | sequence each => exact each
  | _ =>
      have single : spliced otherItem = [otherItem] := by
        cases reordered
        rfl
      rw [single]
      exact .cons reordered .nil

private theorem flattenItems_reordered {items others : List Node}
    (each : List.Forall₂ Reordered items others) {flat : List Node}
    (success : flattenItems trail items = .ok flat) :
    ∃ otherFlat, flattenItems otherTrail others = .ok otherFlat ∧
      List.Forall₂ Reordered flat otherFlat := by
  obtain ⟨noNull, rfl⟩ := flattenItems_eq_ok_iff.mp success
  refine ⟨others.flatMap spliced, flattenItems_eq_ok_iff.mpr ⟨?_, rfl⟩, ?_⟩
  · have lists : others.any isSequence = items.any isSequence := by
      clear success noNull
      induction each with
      | nil => rfl
      | cons first _ induction =>
          rw [List.any_cons, List.any_cons, induction]
          cases first <;> rfl
    have nulls : .null ∈ others ↔ .null ∈ items := by
      clear success noNull lists
      induction each with
      | nil => exact Iff.rfl
      | cons first _ induction =>
          rw [List.mem_cons, List.mem_cons, induction]
          cases first <;> simp
    rw [lists, nulls]
    exact noNull
  · exact List.rel_flatMap each fun _ _ related => spliced_reordered related

private theorem flatten_reordered (reordered : node.Reordered other)
    {flat : Node} (success : flatten trail node = .ok flat)
    (otherTrail : Trail) :
    ∃ otherFlat, flatten otherTrail other = .ok otherFlat ∧
      flat.Reordered otherFlat := by
  cases node with
  | sequence items =>
      cases reordered with
      | sequence each =>
          obtain ⟨flatItems, flattened, equal⟩ := bind_eq_ok_iff.mp success
          cases equal
          obtain ⟨others, otherFlattened, alike⟩ :=
            flattenItems_reordered each flattened
          exact ⟨.sequence others,
            bind_eq_ok_iff.mpr ⟨others, otherFlattened, rfl⟩, .sequence alike⟩
  | _ =>
      cases success
      refine ⟨other, ?_, reordered⟩
      cases reordered
      rfl

/-! ## Resolving -/

/-- A hop that resolves a node as another hop resolves the node in
another order. -/
def Hop.Reorders (hop otherHop : Hop) : Prop :=
  ∀ trail otherTrail key otherKey node other resolved, node.Reordered other →
    hop trail key node = .ok resolved →
    ∃ otherResolved, otherHop otherTrail otherKey other = .ok otherResolved ∧
      resolved.Reordered otherResolved

private theorem mapM_perm {Value Result : Type}
    {step : Value → Except Failure Result} {values others : List Value}
    {results : List Result} (permutation : values.Perm others)
    (success : values.mapM step = .ok results) :
    ∃ otherResults,
      others.mapM step = .ok otherResults ∧ results.Perm otherResults := by
  obtain ⟨otherResults, each, moved⟩ :=
    List.perm_comp_forall₂ permutation.symm (mapM_eq_ok_iff.mp success)
  exact ⟨otherResults, mapM_eq_ok_iff.mpr each, moved.symm⟩

private theorem resolveEntries_perm {entries others resolved : Entries}
    (permutation : entries.Perm others)
    (success : resolveEntries root hop trail entries = .ok resolved) :
    ∃ otherResolved, resolveEntries root hop trail others = .ok otherResolved ∧
      resolved.Perm otherResolved := by
  rw [resolveEntries_eq_mapM] at success ⊢
  exact mapM_perm permutation success

private theorem resolveReference_reordered (unambiguous : root.Unambiguous)
    (roots : root.Reordered otherRoot) (hops : hop.Reorders otherHop)
    {pointer otherPointer : List Node}
    (pointers : List.Forall₂ Reordered pointer otherPointer) {resolved : Node}
    (success : resolveEntry root hop trail key (.reference pointer) =
      .ok resolved) :
    ∃ otherResolved, resolveEntry otherRoot otherHop otherTrail otherKey
      (.reference otherPointer) =
      .ok otherResolved ∧ resolved.Reordered otherResolved := by
  rw [resolveEntry_reference] at success
  obtain ⟨target, followed, rest⟩ := bind_eq_ok_iff.mp success
  obtain ⟨inner, reached, flattened⟩ := bind_eq_ok_iff.mp rest
  let behind := pointerTrail otherTrail otherKey otherPointer
  obtain ⟨otherTarget, otherFollowed, targets⟩ :=
    follow_reordered unambiguous roots pointers followed behind
  have onward : ∃ otherInner,
      (if otherTarget.containsReference then otherHop behind
        otherKey otherTarget
        else .ok otherTarget) = .ok otherInner ∧
            inner.Reordered otherInner := by
    rw [targets.containsReference]
    cases holds : target.containsReference with
    | true =>
        rw [holds] at reached
        exact hops _ _ _ _ _ _ _ targets reached
    | false =>
        rw [holds] at reached
        cases reached
        exact ⟨otherTarget, rfl, targets⟩
  obtain ⟨otherInner, otherReached, inners⟩ := onward
  obtain ⟨otherFlat, otherFlattened, flats⟩ :=
    flatten_reordered inners flattened behind
  refine ⟨otherFlat, ?_, flats⟩
  rw [resolveEntry_reference]
  exact bind_eq_ok_iff.mpr ⟨otherTarget, otherFollowed,
    bind_eq_ok_iff.mpr ⟨otherInner, otherReached, otherFlattened⟩⟩

mutual

private theorem resolveEntry_reordered (unambiguous : root.Unambiguous)
    (roots : root.Reordered otherRoot) (hops : hop.Reorders otherHop)
    (node : Node) {other : Node} (reordered : node.Reordered other)
    {trail otherTrail : Trail} {key otherKey : String} {resolved : Node}
    (success : resolveEntry root hop trail key node = .ok resolved) :
    ∃ otherResolved, resolveEntry otherRoot otherHop otherTrail otherKey other =
      .ok otherResolved ∧ resolved.Reordered otherResolved := by
  cases contains : node.containsReference with
  | false =>
      have otherFree := (reordered.containsReference node).trans contains
      rw [resolveEntry_of_free contains] at success
      cases success
      exact ⟨other, resolveEntry_of_free otherFree _ _, reordered⟩
  | true =>
      have otherContains := (reordered.containsReference node).trans contains
      cases node with
      | reference pointer =>
          cases reordered with
          | reference pointers =>
              exact resolveReference_reordered unambiguous roots hops
                pointers success
      | sequence items =>
          cases reordered with
          | sequence each =>
              obtain ⟨resolvedItems, steps, rfl⟩ :=
                (resolveEntry_sequence_eq_ok_iff contains).mp success
              obtain ⟨otherItems, otherSteps, alike⟩ :=
                resolveItems_reordered unambiguous roots hops items each steps
              exact ⟨.sequence otherItems,
                (resolveEntry_sequence_eq_ok_iff otherContains).mpr
                  ⟨otherItems, otherSteps, rfl⟩, .sequence alike⟩
      | mapping entries =>
          obtain ⟨middle, others, related, permutation, rfl⟩ :=
            reordered_mapping_iff.mp reordered
          obtain ⟨resolvedEntries, steps, rfl⟩ :=
            (resolveEntry_mapping_eq_ok_iff contains).mp success
          obtain ⟨resolvedMiddle, middleSteps, alike⟩ :=
            resolveEntries_reordered unambiguous roots hops entries
              related steps
          obtain ⟨otherEntries, otherSteps, moved⟩ :=
            resolveEntries_perm permutation middleSteps
          exact ⟨.mapping otherEntries,
            (resolveEntry_mapping_eq_ok_iff otherContains).mpr
              ⟨otherEntries, otherSteps, rfl⟩, reordered_mapping_iff.mpr
                ⟨resolvedMiddle, otherEntries, alike, moved, rfl⟩⟩
      | _ => cases contains
termination_by structural node

private theorem resolveItems_reordered (unambiguous : root.Unambiguous)
    (roots : root.Reordered otherRoot) (hops : hop.Reorders otherHop)
    (items : List Node) {others : List Node}
    (each : List.Forall₂ Reordered items others) {trail otherTrail : Trail}
    {index otherIndex : Nat} {resolved : List Node}
    (success : resolveItems root hop trail index items = .ok resolved) :
    ∃ otherResolved,
      resolveItems otherRoot otherHop otherTrail otherIndex others =
      .ok otherResolved ∧ List.Forall₂ Reordered resolved otherResolved := by
  cases items with
  | nil =>
      cases each
      cases success
      exact ⟨[], rfl, .nil⟩
  | cons item rest =>
      cases each with
      | cons head remaining =>
          obtain ⟨first, later, firstStep, laterSteps, rfl⟩ :=
            resolveItems_cons_eq_ok_iff.mp success
          obtain ⟨otherFirst, otherStep, firsts⟩ :=
            resolveEntry_reordered unambiguous roots hops item head firstStep
          obtain ⟨otherLater, otherSteps, laters⟩ :=
            resolveItems_reordered unambiguous roots hops rest
              remaining laterSteps
          exact ⟨otherFirst :: otherLater,
            resolveItems_cons_eq_ok_iff.mpr ⟨_, _, otherStep, otherSteps, rfl⟩,
            .cons firsts laters⟩
termination_by structural items

private theorem resolveEntries_reordered (unambiguous : root.Unambiguous)
    (roots : root.Reordered otherRoot) (hops : hop.Reorders otherHop)
    (entries : List (String × Node)) {others : Entries}
    (related : Entries.Related (fun _ => Reordered) entries others)
    {trail otherTrail : Trail} {resolved : Entries}
    (success : resolveEntries root hop trail entries = .ok resolved) :
    ∃ otherResolved,
      resolveEntries otherRoot otherHop otherTrail others = .ok otherResolved ∧
      Entries.Related (fun _ => Reordered) resolved otherResolved := by
  cases entries with
  | nil =>
      cases related
      cases success
      exact ⟨[], rfl, .nil⟩
  | cons entry rest =>
      obtain ⟨key, value⟩ := entry
      cases related with
      | @cons _ other _ _ head remaining =>
          obtain ⟨_, otherValue⟩ := other
          obtain ⟨rfl, values⟩ := head
          obtain ⟨first, later, firstStep, laterSteps, rfl⟩ :=
            resolveEntries_cons_eq_ok_iff.mp success
          obtain ⟨otherFirst, otherStep, firsts⟩ :=
            resolveEntry_reordered unambiguous roots hops value values firstStep
          obtain ⟨otherLater, otherSteps, laters⟩ :=
            resolveEntries_reordered unambiguous roots hops rest
              remaining laterSteps
          exact ⟨(_, otherFirst) :: otherLater,
            resolveEntries_cons_eq_ok_iff.mpr ⟨_, _, otherStep, otherSteps,
              rfl⟩, .cons ⟨rfl, firsts⟩ laters⟩
termination_by structural entries

end

private theorem hopWithin_reorders (unambiguous : root.Unambiguous)
    (roots : root.Reordered otherRoot) (count : Nat) :
    (hopWithin root count).Reorders (hopWithin otherRoot count) := by
  induction count with
  | zero =>
      intro trail otherTrail key otherKey node other resolved _ success
      cases success
  | succ count induction =>
      intro trail otherTrail key otherKey node other resolved reordered success
      exact resolveEntry_reordered unambiguous roots induction node
        reordered success

/-! ## Whole documents -/

variable {document : Node}

private theorem resolve_of_reordered (unambiguous : document.Unambiguous)
    (reordered : document.Reordered other) {result : Node}
    (success : resolve trail document = .ok result) (otherTrail : Trail) :
    ∃ otherResult, resolve otherTrail other = .ok otherResult ∧
      result.Reordered otherResult := by
  have hops := hopWithin_reorders unambiguous reordered hopLimit
  cases document with
  | mapping entries =>
      obtain ⟨resolved, steps, equal⟩ := bind_eq_ok_iff.mp success
      cases equal
      obtain ⟨middle, others, related, permutation, rfl⟩ :=
        reordered_mapping_iff.mp reordered
      obtain ⟨resolvedMiddle, middleSteps, alike⟩ :=
        resolveEntries_reordered unambiguous reordered hops entries
          related steps
      obtain ⟨otherEntries, otherSteps, moved⟩ :=
        resolveEntries_perm permutation middleSteps
      exact ⟨.mapping otherEntries, bind_eq_ok_iff.mpr ⟨otherEntries,
        otherSteps, rfl⟩, reordered_mapping_iff.mpr ⟨resolvedMiddle,
          otherEntries, alike, moved, rfl⟩⟩
  | sequence items =>
      obtain ⟨resolved, steps, equal⟩ := bind_eq_ok_iff.mp success
      cases equal
      cases reordered with
      | sequence each =>
          obtain ⟨otherItems, otherSteps, alike⟩ :=
            resolveItems_reordered unambiguous (.sequence each) hops
              items each steps
          exact ⟨.sequence otherItems,
            bind_eq_ok_iff.mpr ⟨otherItems, otherSteps, rfl⟩, .sequence alike⟩
  | _ =>
      cases success
      refine ⟨other, ?_, reordered⟩
      cases reordered
      rfl

/-- Of two documents that differ only in the order of keys, references
are resolved in both or in neither, and the results differ only in the
order of keys. -/
theorem resolve_reordered (unambiguous : document.Unambiguous)
    (reordered : document.Reordered other) (trail otherTrail : Trail) :
    ((∃ result, resolve trail document = .ok result) ↔
        ∃ result, resolve otherTrail other = .ok result) ∧
      ∀ result otherResult, resolve trail document = .ok result →
        resolve otherTrail other = .ok otherResult →
        result.Reordered otherResult := by
  refine ⟨⟨?_, ?_⟩, ?_⟩
  · intro resolved
    obtain ⟨result, success⟩ := resolved
    obtain ⟨otherResult, otherSuccess, _⟩ :=
      resolve_of_reordered unambiguous reordered success otherTrail
    exact ⟨otherResult, otherSuccess⟩
  · intro resolved
    obtain ⟨result, success⟩ := resolved
    obtain ⟨otherResult, otherSuccess, _⟩ :=
      resolve_of_reordered (unambiguous.of_reordered reordered)
        (reordered.symm document) success trail
    exact ⟨otherResult, otherSuccess⟩
  · intro result otherResult success otherSuccess
    obtain ⟨found, foundSuccess, alike⟩ :=
      resolve_of_reordered unambiguous reordered success otherTrail
    cases foundSuccess.symm.trans otherSuccess
    exact alike

/-- Two jobs that refer to each other's fields. -/
def referringJobs : Node :=
  .mapping [("build", .mapping [("script", .sequence [.text "make"]),
      ("image", .reference [.text "test", .text "image"])]),
    ("test", .mapping [("image", .text "alpine"),
      ("script", .reference [.text "build", .text "script"])])]

/-- The jobs with all keys in the opposite order. -/
def swappedJobs : Node :=
  .mapping
    [("test", .mapping [("script", .reference [.text "build", .text "script"]),
      ("image", .text "alpine")]),
    ("build", .mapping [("image", .reference [.text "test", .text "image"]),
      ("script", .sequence [.text "make"])])]

theorem resolve_reordered_swapped :
    referringJobs.Unambiguous ∧ referringJobs.Reordered swappedJobs ∧
      ∃ result otherResult, resolve Trail.root referringJobs = .ok result ∧
        resolve Trail.root swappedJobs = .ok otherResult ∧
        result.Reordered otherResult := by
  have unambiguous : referringJobs.Unambiguous := by
    apply Unambiguous.mapping (by decide)
    simp only [List.forall_mem_cons, List.not_mem_nil, false_implies,
      implies_true, and_true]
    constructor
    · apply Unambiguous.mapping (by decide)
      simp only [List.forall_mem_cons, List.not_mem_nil, false_implies,
        implies_true, and_true]
      refine ⟨.sequence ?_, .leaf rfl rfl⟩
      simpa using Unambiguous.leaf rfl rfl
    · apply Unambiguous.mapping (by decide)
      simp only [List.forall_mem_cons, List.not_mem_nil, false_implies,
        implies_true, and_true]
      exact ⟨.leaf rfl rfl, .leaf rfl rfl⟩
  have pointer (first second : String) :
      Reordered (.reference [.text first, .text second])
        (.reference [.text first, .text second]) :=
    .reference (.cons (.text first) (.cons (.text second) .nil))
  have build : Reordered
      (.mapping [("script", .sequence [.text "make"]),
        ("image", .reference [.text "test", .text "image"])])
      (.mapping [("image", .reference [.text "test", .text "image"]),
        ("script", .sequence [.text "make"])]) :=
    .mapping (.cons (.value (.sequence (.cons (.text "make") .nil)))
      (.cons (.value (pointer "test" "image")) .nil)) (.swap _ _ _)
  have test : Reordered
      (.mapping [("image", .text "alpine"),
        ("script", .reference [.text "build", .text "script"])])
      (.mapping [("script", .reference [.text "build", .text "script"]),
        ("image", .text "alpine")]) :=
    .mapping (.cons (.value (.text "alpine"))
      (.cons (.value (pointer "build" "script")) .nil)) (.swap _ _ _)
  have reordered : referringJobs.Reordered swappedJobs :=
    .mapping (.cons (.value build) (.cons (.value test) .nil)) (.swap _ _ _)
  obtain ⟨result, success⟩ :
      ∃ result, resolve Trail.root referringJobs = .ok result := ⟨_, rfl⟩
  obtain ⟨both, alike⟩ :=
    resolve_reordered unambiguous reordered Trail.root Trail.root
  obtain ⟨otherResult, otherSuccess⟩ := both.mp ⟨result, success⟩
  exact ⟨unambiguous, reordered, result, otherResult, success, otherSuccess,
    alike result otherResult success otherSuccess⟩

end References

end CiPipeline
