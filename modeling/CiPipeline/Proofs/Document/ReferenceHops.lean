import CiPipeline.Proofs.Document.ReferenceChains
import CiPipeline.Proofs.Document.Splicing

/-!
# References to references

A value is flattened once for every reference that it is reached through.  So a
reference to a reference gives what that one gives with its nested lists spliced
once more, and the two are equal only where no list is nested in a list.
-/

namespace CiPipeline

open CiPipeline.Sequencing

/-- An entry whose value is changed is found with the new value, and all others
as before. -/
theorem Entries.lookup_modify {entries : Entries} {index : Nat} {key : String}
    {value : Node} (stands : entries[index]? = some (key, value))
    (change : Node → Node) {name : String} {found : Node}
    (present : entries.lookup name = some found) :
    (entries.modify index fun entry => (entry.1, change entry.2)).lookup name =
      some found ∨
      found = value ∧
        (entries.modify index fun entry => (entry.1, change entry.2)).lookup
          name = some (change value) := by
  induction entries generalizing index with
  | nil => cases present
  | cons entry rest induction =>
      obtain ⟨first, old⟩ := entry
      cases same : name == first with
      | true =>
          simp only [List.lookup_cons, same, Option.some.injEq] at present
          cases index with
          | zero =>
              cases stands
              exact .inr ⟨present.symm, by simp [List.lookup_cons, same]⟩
          | succ index => exact .inl (by simp [List.lookup_cons, same, present])
      | false =>
          simp only [List.lookup_cons, same] at present
          cases index with
          | zero => exact .inl (by simpa [List.lookup_cons, same] using present)
          | succ index =>
              simpa [List.lookup_cons, same] using induction stands present

namespace Node

/-- A node with another node put at a place in it. -/
def putAt (node : Node) (place : List Step) (new : Node) : Node :=
  match place, node with
  | [], _ => new
  | .item index :: place, .sequence items =>
      .sequence (items.modify index fun item => item.putAt place new)
  | .entry index _ :: place, .mapping entries =>
      .mapping (entries.modify index fun entry =>
        (entry.1, entry.2.putAt place new))
  | _, node => node

private theorem Part.putAt {node part : Node} {place : List Step}
    (occurs : node.Part place part) (new : Node) :
    (node.putAt place new).Part place new := by
  induction occurs with
  | whole _ => exact .whole new
  | item found _ induction =>
      apply Part.item _ induction
      rw [List.getElem?_modify_eq, found]
      rfl
  | entry found _ induction =>
      apply Part.entry _ induction
      rw [List.getElem?_modify_eq, found]
      rfl

end Node

namespace References

variable {node document : Node} {place : List Step}
  {old new pointer first last : List Node} {trail : Trail} {key : String}
  {length : Nat}

/-! ## Putting a reference in the place of another -/

private theorem isNull_putAt_reference (place : List Step) {value : Node}
    (visible : value.isNull = false) :
    (value.putAt place (.reference new)).isNull = false := by
  cases place with
  | nil => rfl
  | cons step place =>
      cases value with
      | null => cases visible
      | _ => cases step <;> rfl

/-- A child is the same as before, or the one that the reference stands in. -/
theorem child?_putAt (occurs : node.Part place (.reference old))
    {segment : String} {value : Node}
    (found : child? node segment = some value) :
    child? (node.putAt place (.reference new)) segment = some value ∨
      ∃ inner, value.Part inner (.reference old) ∧
        child? (node.putAt place (.reference new)) segment =
          some (value.putAt inner (.reference new)) := by
  obtain ⟨present, visible⟩ := Option.filter_eq_some_iff.mp found
  have shown (inner : List Step) :
      (!(value.putAt inner (.reference new)).isNull) = true := by
    rw [isNull_putAt_reference inner (by simpa using visible)]
    rfl
  cases occurs with
  | whole => cases present
  | @item items index item inner _ stands inside =>
      obtain ⟨position, read, listed⟩ := Option.bind_eq_some_iff.mp present
      by_cases same : index = position
      · subst same
        cases stands.symm.trans listed
        refine .inr ⟨inner, inside,
          Option.filter_eq_some_iff.mpr ⟨?_, shown inner⟩⟩
        refine Option.bind_eq_some_iff.mpr ⟨index, read, ?_⟩
        rw [List.getElem?_modify_eq, listed]
        rfl
      · refine .inl (Option.filter_eq_some_iff.mpr ⟨?_, visible⟩)
        refine Option.bind_eq_some_iff.mpr ⟨position, read, ?_⟩
        rw [List.getElem?_modify_ne _ _ same]
        exact listed
  | @entry entries index name old inner _ stands inside =>
      rcases Entries.lookup_modify stands (fun value =>
        value.putAt inner (.reference new)) present with kept | ⟨rfl, changed⟩
      · exact .inl (Option.filter_eq_some_iff.mpr ⟨kept, visible⟩)
      · exact .inr ⟨inner, inside,
          Option.filter_eq_some_iff.mpr ⟨changed, shown inner⟩⟩

/-- A pointer names the same value as before, unless that value holds the
reference. -/
theorem follow_putAt (occurs : node.Part place (.reference old)) {target : Node}
    (success : follow trail node pointer = .ok target) :
    follow trail (node.putAt place (.reference new)) pointer = .ok target ∨
      Holds target old := by
  induction pointer generalizing node place with
  | nil =>
      cases success
      exact .inr ⟨place, occurs⟩
  | cons segment rest induction =>
      rw [follow] at success ⊢
      split at success
      · cases success
      · split at success
        · cases success
        · rename_i value found
          rcases child?_putAt occurs found with same | ⟨inner, inside, changed⟩
          · rw [same]
            exact .inl success
          · rw [changed]
            exact induction inside success

/-- A node none of whose references leads on to a given one. -/
def Avoids (document : Node) (pointer : List Node) (node : Node) : Prop :=
  ∀ held, Holds node held →
    ¬ Relation.ReflTransGen (LeadsTo document) held pointer

/-- What does not lead to a reference is resolved in the same way when another
reference is put in its place. -/
theorem shared_putAt (occurs : document.Part place (.reference old)) :
    Shared document (document.putAt place (.reference new))
      (Avoids document old) := by
  constructor
  · intro items avoids item member held holds
    exact avoids held (holds.item member)
  · intro entries avoids entry member held holds
    exact avoids held (Holds.entry member holds)
  · intro pointer target avoids followed
    have further {held : List Node} (holds : Holds target held) :
        ¬ Relation.ReflTransGen (LeadsTo document) held old := by
      intro path
      exact avoids pointer ⟨[], .whole _⟩ (path.head ⟨target, followed, holds⟩)
    refine ⟨?_, fun held holds => further holds⟩
    rcases follow_putAt occurs followed with same | holds
    · exact same
    · exact (further holds .refl).elim

/-! ## Chains of references -/

/-- A reference whose value is another reference, whose value is another one in
turn, and so on for a number of hops. -/
inductive Forwards (document : Node) : List Node → Nat → List Node → Prop where
  | here (pointer : List Node) : Forwards document pointer 0 pointer
  | hop {first second last : List Node} {length : Nat} :
      follow Trail.root document first = .ok (.reference second) →
      Forwards document second length last →
      Forwards document first (length + 1) last

private theorem Forwards.path (forwards : Forwards document first length last) :
    Relation.ReflTransGen (LeadsTo document) first last := by
  induction forwards with
  | here pointer => exact .refl
  | hop followed _ induction =>
      exact .head ⟨_, followed, [], .whole _⟩ induction

/-- A value that is reached through a chain of references is spliced once for
every hop. -/
theorem Forwards.resolveEntry (forwards : Forwards document first length last)
    {count : Nat} {value : Node}
    (success : References.resolveEntry document (hopWithin document count) trail
      key (.reference first) = .ok value) :
    ∃ trail key direct,
      References.resolveEntry document (hopWithin document count) trail key
        (.reference last) =
        .ok direct ∧ value = spread^[length] direct := by
  induction forwards generalizing trail key value with
  | here pointer => exact ⟨trail, key, value, success, rfl⟩
  | hop followed _ induction =>
      rw [resolveEntry_reference, follow_trail _ followed, ok_bind] at success
      obtain ⟨inner, hopped, flattened⟩ := bind_eq_ok_iff.mp success
      have again := hopWithin_covers (Shared.refl document) (Nat.le_succ count)
        _ _ _ _ trivial hopped trail key
      obtain ⟨trail, key, direct, resolution, rfl⟩ := induction again
      refine ⟨trail, key, direct, resolution, ?_⟩
      rw [Function.iterate_succ_apply', eq_spread_of_flatten flattened]

private theorem avoids_last (collection : IsCollection document) {result : Node}
    (success : resolve trail document = .ok result)
    (holds : Holds document first)
    (forwards : Forwards document first (length + 1) last) :
    Avoids document first (.reference last) := by
  rintro held ⟨_, occurs⟩ back
  cases occurs
  cases forwards with
  | hop followed rest =>
      have cycle : Relation.TransGen (LeadsTo document) first first :=
        .head' ⟨_, followed, [], .whole _⟩ (rest.path.trans back)
      obtain ⟨failure, failed⟩ :=
        resolve_of_chain collection (.of_cycle holds .refl cycle 11)
      cases failed.symm.trans success

/-- An entry that refers to a reference resolves to what that one, put directly
in its place, resolves to with nested lists spliced once more, and so on for
every further hop.  Both values are the same exactly if no list is nested in the
one of the direct reference. -/
theorem resolve_forwarded {trail : Trail} {document result : Node}
    {place : List Step}
    {first last : List Node} {length : Nat} (collection : IsCollection document)
    (success : resolve trail document = .ok result)
    (occurs : document.Part place (.reference first))
    (forwards : Forwards document first (length + 1) last) :
    ∃ direct,
      (∀ trail key,
        resolveEntry (document.putAt place (.reference last))
          (hopWithin (document.putAt place (.reference last)) hopLimit) trail
          key (.reference last) = .ok direct) ∧
      (∀ trail otherResult,
        resolve trail (document.putAt place (.reference last)) =
          .ok otherResult →
        otherResult.Part place direct) ∧
      result.Part place (spread^[length + 1] direct) ∧
      (spread^[length + 1] direct = direct ↔ isNested direct = false) := by
  have inner : place ≠ [] := by
    rintro rfl
    cases occurs
    simp [IsCollection, Node.isMapping, isSequence] at collection
  obtain ⟨_, _, value, resolution, placed⟩ := resolve_place success occurs inner
  obtain ⟨_, _, direct, lastResolution, rfl⟩ := forwards.resolveEntry resolution
  have avoids := avoids_last collection success ⟨place, occurs⟩ forwards
  have shared : Shared document (document.putAt place (.reference last))
      (Avoids document first) :=
    shared_putAt occurs
  have covers := hopWithin_covers shared (Nat.le_refl (hopLimit + 1))
  have direct_everywhere := covers _ _ _ _ avoids lastResolution
  refine ⟨direct, direct_everywhere, ?_, placed,
    iterate_spread_eq_iff length direct⟩
  intro trail otherResult otherSuccess
  obtain ⟨_, _, value, resolution, otherPlaced⟩ :=
    resolve_place otherSuccess (occurs.putAt (.reference last)) inner
  cases resolution.symm.trans (direct_everywhere _ _)
  exact otherPlaced

/-- Entries of which each refers to the next, and the last one holds a list in a
list in a list. -/
def nestedHops : Node :=
  .mapping [("use", .reference [.text "middle"]),
    ("middle", .reference [.text "list"]),
    ("list", .sequence [.sequence [.sequence [.text "a"]]])]

theorem resolve_forwarded_nestedHops :
    IsCollection nestedHops ∧
      nestedHops.Part [.entry 0 "use"] (.reference [.text "middle"]) ∧
      Forwards nestedHops [.text "middle"] 1 [.text "list"] ∧
      ∃ result, resolve Trail.root nestedHops = .ok result ∧
        result.Part [.entry 0 "use"]
          (spread (.sequence [.sequence [.text "a"]])) ∧
        spread (.sequence [.sequence [.text "a"]]) ≠
          .sequence [.sequence [.text "a"]] := by
  have collection : IsCollection nestedHops := .inl rfl
  have occurs :
      nestedHops.Part [.entry 0 "use"] (.reference [.text "middle"]) :=
    .entry rfl (.whole _)
  have forwards : Forwards nestedHops [.text "middle"] 1 [.text "list"] :=
    .hop rfl (.here _)
  obtain ⟨result, success⟩ :
      ∃ result, resolve Trail.root nestedHops = .ok result := ⟨_, rfl⟩
  obtain ⟨direct, resolution, _, placed, same⟩ :=
    resolve_forwarded collection success occurs forwards
  have isDirect : direct = .sequence [.sequence [.text "a"]] := by
    cases resolution Trail.root "use"
    rfl
  rw [isDirect] at placed same
  refine ⟨collection, occurs, forwards, result, success, placed, ?_⟩
  intro equal
  cases same.mp equal

/-- Through two references a nested list is spliced twice, through the second
one alone once. -/
theorem resolve_forwarded_differs :
    nestedHops.Part [.entry 0 "use"] (.reference [.text "middle"]) ∧
      follow Trail.root nestedHops [.text "middle"] =
        .ok (.reference [.text "list"]) ∧
      ∃ result otherResult, resolve Trail.root nestedHops = .ok result ∧
        resolve Trail.root
          (nestedHops.putAt [.entry 0 "use"] (.reference [.text "list"])) =
          .ok otherResult ∧
        result.get? "use" = some (.sequence [.text "a"]) ∧
        otherResult.get? "use" = some (.sequence [.sequence [.text "a"]]) ∧
        result.get? "use" ≠ otherResult.get? "use" := by
  refine ⟨.entry rfl (.whole _), rfl, _, _, rfl, rfl, rfl, rfl, ?_⟩
  intro equal
  cases equal

end References

end CiPipeline
