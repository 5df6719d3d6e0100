import CiPipeline.Proofs.Sequencing
import CiPipeline.References

/-!
# What resolving references leaves

A resolved document holds no reference, and whatever held none before stands
where it stood.
-/

namespace CiPipeline

/-- One step from a node to a part of it. -/
inductive Step where
  | item (index : Nat)
  | entry (index : Nat) (key : String)
  deriving DecidableEq, Repr

/-- A part of a node, with the steps that lead to it.  The segments of a pointer
are no parts: a reference stands in for the value that it names. -/
inductive Node.Part : Node → List Step → Node → Prop where
  | whole (node : Node) : Part node [] node
  | item {items : List Node} {index : Nat} {item : Node} {place : List Step}
      {part : Node} :
      items[index]? = some item →
      Part item place part →
      Part (.sequence items) (.item index :: place) part
  | entry {entries : Entries} {index : Nat} {key : String} {value : Node}
      {place : List Step} {part : Node} :
      entries[index]? = some (key, value) →
      Part value place part →
      Part (.mapping entries) (.entry index key :: place) part

namespace References

open CiPipeline.Sequencing

variable {root : Node} {hop : Hop}

/-- A hop after which no reference is left. -/
def Hop.Clears (hop : Hop) : Prop :=
  ∀ trail key node resolved, hop trail key node = .ok resolved →
    resolved.containsReference = false

private theorem splice_free {trail : Trail} {item : Node} {spliced : List Node}
    (free : item.containsReference = false)
    (success : splice trail item = .ok spliced) :
    Node.anyReference spliced = false := by
  cases item with
  | null => cases success
  | sequence inner =>
      cases success
      exact free
  | _ =>
      cases success
      simp [Node.anyReference, free]

private theorem mapM_splice_free {trail : Trail} {items : List Node}
    {lists : List (List Node)} (free : Node.anyReference items = false)
    (success : items.mapM (splice trail) = .ok lists) :
    Node.anyReference lists.flatten = false := by
  induction items generalizing lists with
  | nil =>
      cases success
      rfl
  | cons item rest step =>
      simp only [Node.anyReference, Bool.or_eq_false_iff] at free
      rw [List.mapM_cons] at success
      obtain ⟨first, spliced, remaining⟩ := bind_eq_ok_iff.mp success
      obtain ⟨others, splicedRest, equal⟩ := bind_eq_ok_iff.mp remaining
      cases equal
      have firstFree := splice_free free.1 spliced
      have othersFree := step free.2 splicedRest
      rw [Node.anyReference_eq] at firstFree othersFree ⊢
      simp [firstFree, othersFree]

theorem flattenItems_free {trail : Trail} {items flat : List Node}
    (free : Node.anyReference items = false)
    (success : flattenItems trail items = .ok flat) :
    Node.anyReference flat = false := by
  unfold flattenItems at success
  split at success
  · obtain ⟨lists, spliced, equal⟩ := bind_eq_ok_iff.mp success
    cases equal
    exact mapM_splice_free free spliced
  · cases success
    exact free

private theorem flatten_free {trail : Trail} {node flat : Node}
    (free : node.containsReference = false)
    (success : flatten trail node = .ok flat) :
    flat.containsReference = false := by
  cases node with
  | sequence items =>
      obtain ⟨flatItems, flattened, equal⟩ := bind_eq_ok_iff.mp success
      cases equal
      exact flattenItems_free free flattened
  | _ =>
      cases success
      exact free

/-- A value without references is kept. -/
theorem resolveEntry_of_free {node : Node}
    (free : node.containsReference = false) (trail : Trail) (key : String) :
    resolveEntry root hop trail key node = .ok node := by
  cases node with
  | reference pointer => simp [Node.containsReference] at free
  | sequence items => simp [resolveEntry, free]
  | mapping entries => simp [resolveEntry, free]
  | _ => rw [resolveEntry] <;> simp

section

variable {trail : Trail} {key : String}

theorem resolveEntry_sequence_eq_ok_iff {items : List Node} {resolved : Node}
    (contains : (Node.sequence items).containsReference = true) :
    resolveEntry root hop trail key (.sequence items) = .ok resolved ↔
      ∃ others, resolveItems root hop (trail.descend key) 0 items = .ok others ∧
        resolved = .sequence others := by
  rw [resolveEntry, if_pos contains, bind_eq_ok_iff]
  refine exists_congr fun others => and_congr_right fun _ => ?_
  rw [pure_eq_ok, Except.ok.injEq, eq_comm]

theorem resolveEntry_mapping_eq_ok_iff {entries : Entries} {resolved : Node}
    (contains : (Node.mapping entries).containsReference = true) :
    resolveEntry root hop trail key (.mapping entries) = .ok resolved ↔
      ∃ others, resolveEntries root hop (trail.descend key) entries =
        .ok others ∧
        resolved = .mapping others := by
  rw [resolveEntry, if_pos contains, bind_eq_ok_iff]
  refine exists_congr fun others => and_congr_right fun _ => ?_
  rw [pure_eq_ok, Except.ok.injEq, eq_comm]

theorem resolveItems_cons_eq_ok_iff {index : Nat} {item : Node}
    {rest resolved : List Node} :
    resolveItems root hop trail index (item :: rest) = .ok resolved ↔
      ∃ first others,
        resolveEntry root hop trail (toString index) item = .ok first ∧
        resolveItems root hop trail (index + 1) rest = .ok others ∧
        resolved = first :: others := by
  rw [resolveItems]
  constructor
  · intro success
    obtain ⟨first, firstStep, remaining⟩ := bind_eq_ok_iff.mp success
    obtain ⟨others, otherSteps, equal⟩ := bind_eq_ok_iff.mp remaining
    cases equal
    exact ⟨first, others, firstStep, otherSteps, rfl⟩
  · rintro ⟨first, others, firstStep, otherSteps, rfl⟩
    exact bind_eq_ok_iff.mpr
      ⟨first, firstStep, bind_eq_ok_iff.mpr ⟨others, otherSteps, rfl⟩⟩

theorem resolveEntries_cons_eq_ok_iff {value : Node} {rest resolved : Entries} :
    resolveEntries root hop trail ((key, value) :: rest) = .ok resolved ↔
      ∃ first others, resolveEntry root hop trail key value = .ok first ∧
        resolveEntries root hop trail rest = .ok others ∧
        resolved = (key, first) :: others := by
  rw [resolveEntries]
  constructor
  · intro success
    obtain ⟨first, firstStep, remaining⟩ := bind_eq_ok_iff.mp success
    obtain ⟨others, otherSteps, equal⟩ := bind_eq_ok_iff.mp remaining
    cases equal
    exact ⟨first, others, firstStep, otherSteps, rfl⟩
  · rintro ⟨first, others, firstStep, otherSteps, rfl⟩
    exact bind_eq_ok_iff.mpr
      ⟨first, firstStep, bind_eq_ok_iff.mpr ⟨others, otherSteps, rfl⟩⟩

end

/-- The trail behind a reference. -/
def pointerTrail (trail : Trail) (key : String) (pointer : List Node) : Trail :=
  trail.descendValued "reference" key (.pointer (pointer.map segmentText))

theorem resolveEntry_reference (trail : Trail) (key : String)
    (pointer : List Node) :
    resolveEntry root hop trail key (.reference pointer) =
      follow (pointerTrail trail key pointer) root pointer >>= fun target =>
        (if target.containsReference then hop
          (pointerTrail trail key pointer) key target
          else .ok target) >>= flatten (pointerTrail trail key pointer) := by
  rw [resolveEntry]
  congr 1
  funext target
  cases target.containsReference <;> rfl

mutual

private theorem resolveEntry_clears (clears : hop.Clears) (node : Node)
    {trail : Trail} {key : String} {resolved : Node}
    (success : resolveEntry root hop trail key node = .ok resolved) :
    resolved.containsReference = false := by
  cases free : node.containsReference with
  | false =>
      rw [resolveEntry_of_free free] at success
      cases success
      exact free
  | true =>
      cases node with
      | reference pointer =>
          rw [resolveEntry_reference] at success
          obtain ⟨target, followed, rest⟩ := bind_eq_ok_iff.mp success
          obtain ⟨inner, reached, flattened⟩ := bind_eq_ok_iff.mp rest
          refine flatten_free ?_ flattened
          cases holds : target.containsReference with
          | true => exact clears _ _ _ _ (by simpa [holds] using reached)
          | false =>
              simp only [holds, Bool.false_eq_true, if_false] at reached
              cases reached
              exact holds
      | sequence items =>
          obtain ⟨resolvedItems, step, rfl⟩ :=
            (resolveEntry_sequence_eq_ok_iff free).mp success
          exact resolveItems_clears clears items step
      | mapping entries =>
          obtain ⟨resolvedEntries, step, rfl⟩ :=
            (resolveEntry_mapping_eq_ok_iff free).mp success
          exact resolveEntries_clears clears entries step
      | _ => simp [Node.containsReference] at free

private theorem resolveItems_clears (clears : hop.Clears) (items : List Node)
    {trail : Trail} {index : Nat} {resolved : List Node}
    (success : resolveItems root hop trail index items = .ok resolved) :
    Node.anyReference resolved = false := by
  cases items with
  | nil =>
      cases success
      rfl
  | cons item rest =>
      obtain ⟨first, others, firstStep, otherSteps, rfl⟩ :=
        resolveItems_cons_eq_ok_iff.mp success
      simp [Node.anyReference, resolveEntry_clears clears item firstStep,
        resolveItems_clears clears rest otherSteps]

private theorem resolveEntries_clears (clears : hop.Clears)
    (entries : List (String × Node)) {trail : Trail}
    {resolved : List (String × Node)}
    (success : resolveEntries root hop trail entries = .ok resolved) :
    Node.anyReferenceEntry resolved = false := by
  cases entries with
  | nil =>
      cases success
      rfl
  | cons entry rest =>
      obtain ⟨key, value⟩ := entry
      obtain ⟨first, others, firstStep, otherSteps, rfl⟩ :=
        resolveEntries_cons_eq_ok_iff.mp success
      simp [Node.anyReferenceEntry, resolveEntry_clears clears value firstStep,
        resolveEntries_clears clears rest otherSteps]

end

private theorem hopWithin_clears (root : Node) (count : Nat) :
    (hopWithin root count).Clears := by
  induction count with
  | zero =>
      intro trail key node resolved success
      cases success
  | succ count step =>
      intro trail key node resolved success
      exact resolveEntry_clears step node success

private theorem resolveItems_getElem? {trail : Trail} {start : Nat}
    {items resolved : List Node}
    (success : resolveItems root hop trail start items = .ok resolved)
    {index : Nat} {item : Node} (found : items[index]? = some item) :
    ∃ value, resolved[index]? = some value ∧
      resolveEntry root hop trail (toString (start + index)) item =
        .ok value := by
  induction items generalizing start index resolved with
  | nil => simp at found
  | cons first rest step =>
      obtain ⟨value, others, firstStep, otherSteps, rfl⟩ :=
        resolveItems_cons_eq_ok_iff.mp success
      cases index with
      | zero =>
          cases found
          exact ⟨value, rfl, firstStep⟩
      | succ index =>
          obtain ⟨other, place, resolution⟩ := step otherSteps found
          exact ⟨other, place, by
            rwa [← Nat.add_right_comm, Nat.add_assoc] at resolution⟩

theorem resolveEntries_getElem? {trail : Trail}
    {entries resolved : List (String × Node)}
    (success : resolveEntries root hop trail entries = .ok resolved)
    {index : Nat} {key : String} {node : Node}
    (found : entries[index]? = some (key, node)) :
    ∃ value, resolved[index]? = some (key, value) ∧
      resolveEntry root hop trail key node = .ok value := by
  induction entries generalizing index resolved with
  | nil => simp at found
  | cons entry rest step =>
      obtain ⟨firstKey, first⟩ := entry
      obtain ⟨value, others, firstStep, otherSteps, rfl⟩ :=
        resolveEntries_cons_eq_ok_iff.mp success
      cases index with
      | zero =>
          cases found
          exact ⟨value, rfl, firstStep⟩
      | succ index => exact step otherSteps found

theorem resolveEntries_keys {trail : Trail} {entries resolved : Entries}
    (success : resolveEntries root hop trail entries = .ok resolved) :
    resolved.keys = entries.keys := by
  induction entries generalizing resolved with
  | nil =>
      cases success
      rfl
  | cons entry rest step =>
      obtain ⟨key, value⟩ := entry
      obtain ⟨_, others, _, otherSteps, rfl⟩ :=
        resolveEntries_cons_eq_ok_iff.mp success
      have restKeys := step otherSteps
      simp only [Entries.keys, List.map_cons] at restKeys ⊢
      rw [restKeys]

theorem containsReference_of_part {node part : Node} {place : List Step}
    (occurs : node.Part place part) (holds : part.containsReference = true) :
    node.containsReference = true := by
  induction occurs with
  | whole _ => exact holds
  | item found _ induction =>
      rw [Node.containsReference, Node.anyReference_eq, List.any_eq_true]
      exact ⟨_, List.mem_of_getElem? found, induction holds⟩
  | entry found _ induction =>
      rw [Node.containsReference, Node.anyReferenceEntry_eq, List.any_eq_true]
      exact ⟨_, List.mem_of_getElem? found, induction holds⟩

private theorem free_of_part {node part : Node} {place : List Step}
    (occurs : node.Part place part) (free : node.containsReference = false) :
    part.containsReference = false := by
  cases holds : part.containsReference with
  | false => rfl
  | true => cases free.symm.trans (containsReference_of_part occurs holds)

private theorem resolveEntry_place_of_free {node part : Node}
    {place : List Step}
    (occurs : node.Part place part) (free : node.containsReference = false)
    {trail : Trail} {key : String} {resolved : Node}
    (success : resolveEntry root hop trail key node = .ok resolved) :
    ∃ trail key value, resolveEntry root hop trail key part = .ok value ∧
      resolved.Part place value := by
  rw [resolveEntry_of_free free] at success
  cases success
  exact ⟨trail, key, part,
    resolveEntry_of_free (free_of_part occurs free) trail key, occurs⟩

/-- Resolving a node resolves each of its parts, and puts what a part resolves
to where the part stood. -/
theorem resolveEntry_place {node part : Node} {place : List Step}
    (occurs : node.Part place part) {trail : Trail} {key : String}
    {resolved : Node}
    (success : resolveEntry root hop trail key node = .ok resolved) :
    ∃ trail key value, resolveEntry root hop trail key part = .ok value ∧
      resolved.Part place value := by
  induction occurs generalizing trail key resolved with
  | whole node => exact ⟨trail, key, resolved, success, .whole resolved⟩
  | @item items index item place part found inside step =>
      cases holds : (Node.sequence items).containsReference with
      | false =>
          exact resolveEntry_place_of_free (.item found inside) holds success
      | true =>
          obtain ⟨resolvedItems, steps, rfl⟩ :=
            (resolveEntry_sequence_eq_ok_iff holds).mp success
          obtain ⟨_, stands, resolution⟩ := resolveItems_getElem? steps found
          obtain ⟨trail, key, value, partResolution, placed⟩ := step resolution
          exact ⟨trail, key, value, partResolution, .item stands placed⟩
  | @entry entries index name value place part found inside step =>
      cases holds : (Node.mapping entries).containsReference with
      | false =>
          exact resolveEntry_place_of_free (.entry found inside) holds success
      | true =>
          obtain ⟨resolvedEntries, steps, rfl⟩ :=
            (resolveEntry_mapping_eq_ok_iff holds).mp success
          obtain ⟨_, stands, resolution⟩ := resolveEntries_getElem? steps found
          obtain ⟨trail, key, value, partResolution, placed⟩ := step resolution
          exact ⟨trail, key, value, partResolution, .entry stands placed⟩

private theorem resolveItems_of_free {items : List Node}
    (free : Node.anyReference items = false) (trail : Trail) (start : Nat) :
    resolveItems root hop trail start items = .ok items := by
  induction items generalizing start with
  | nil => rfl
  | cons item rest step =>
      simp only [Node.anyReference, Bool.or_eq_false_iff] at free
      rw [resolveItems, resolveEntry_of_free free.1, step free.2]
      rfl

private theorem resolveEntries_of_free {entries : List (String × Node)}
    (free : Node.anyReferenceEntry entries = false) (trail : Trail) :
    resolveEntries root hop trail entries = .ok entries := by
  induction entries with
  | nil => rfl
  | cons entry rest step =>
      obtain ⟨key, value⟩ := entry
      simp only [Node.anyReferenceEntry, Bool.or_eq_false_iff] at free
      rw [resolveEntries, resolveEntry_of_free free.1, step free.2]
      rfl

/-- Resolving a document without references changes nothing. -/
theorem resolve_of_free {document : Node}
    (free : document.containsReference = false) (trail : Trail) :
    resolve trail document = .ok document := by
  cases document with
  | mapping entries =>
      rw [resolve, resolveEntries_of_free free]
      rfl
  | sequence items =>
      rw [resolve, resolveItems_of_free free]
      rfl
  | _ => rfl

/-- A mapping or a sequence: what a document is rooted in. -/
def IsCollection (document : Node) : Prop :=
  document.isMapping = true ∨ isSequence document = true

theorem resolve_clears {trail : Trail} {document result : Node}
    (collection : IsCollection document)
    (success : resolve trail document = .ok result) :
    result.containsReference = false := by
  have clears := hopWithin_clears document hopLimit
  cases document with
  | mapping entries =>
      obtain ⟨resolved, steps, equal⟩ := bind_eq_ok_iff.mp success
      cases equal
      exact resolveEntries_clears clears entries steps
  | sequence items =>
      obtain ⟨resolved, steps, equal⟩ := bind_eq_ok_iff.mp success
      cases equal
      exact resolveItems_clears clears items steps
  | _ => simp [IsCollection, Node.isMapping, isSequence] at collection

/-- Resolving a document resolves each of its parts, and puts what a part
resolves to where the part stood. -/
theorem resolve_place {trail : Trail} {document result part : Node}
    {place : List Step} (success : resolve trail document = .ok result)
    (occurs : document.Part place part) (inner : place ≠ []) :
    ∃ trail key value,
      resolveEntry document (hopWithin document hopLimit) trail key part =
        .ok value ∧
        result.Part place value := by
  cases occurs with
  | whole => exact (inner rfl).elim
  | item found inside =>
      obtain ⟨resolved, steps, equal⟩ := bind_eq_ok_iff.mp success
      cases equal
      obtain ⟨_, stands, resolution⟩ := resolveItems_getElem? steps found
      obtain ⟨trail, key, value, partResolution, placed⟩ :=
        resolveEntry_place inside resolution
      exact ⟨trail, key, value, partResolution, .item stands placed⟩
  | entry found inside =>
      obtain ⟨resolved, steps, equal⟩ := bind_eq_ok_iff.mp success
      cases equal
      obtain ⟨_, stands, resolution⟩ := resolveEntries_getElem? steps found
      obtain ⟨trail, key, value, partResolution, placed⟩ :=
        resolveEntry_place inside resolution
      exact ⟨trail, key, value, partResolution, .entry stands placed⟩

private theorem resolve_part {trail : Trail} {document result part : Node}
    {place : List Step} (success : resolve trail document = .ok result)
    (occurs : document.Part place part)
    (free : part.containsReference = false) : result.Part place part := by
  by_cases outer : place = []
  · subst outer
    cases occurs
    rw [resolve_of_free free] at success
    cases success
    exact .whole _
  · obtain ⟨_, _, value, resolution, placed⟩ :=
      resolve_place success occurs outer
    rw [resolveEntry_of_free free] at resolution
    cases resolution
    exact placed

/-- A resolved document holds no reference, keeps every part that held none at
its place, and is not changed by resolving it again. -/
theorem resolve_settles {trail : Trail} {document result : Node}
    (collection : IsCollection document)
    (success : resolve trail document = .ok result) :
    result.containsReference = false ∧
      (∀ place part, document.Part place part → part.containsReference = false →
        result.Part place part) ∧
      ∀ other, resolve other result = .ok result := by
  have free := resolve_clears collection success
  refine ⟨free, ?_, ?_⟩
  · intro place part occurs partFree
    exact resolve_part success occurs partFree
  · intro other
    exact resolve_of_free free other

/-- A job that takes its script from a template. -/
def templateUse : Node :=
  .mapping [(".setup",
    .mapping [("script", .sequence [.text "a", .sequence [.text "b"]])]),
    ("job", .mapping [("script", .reference [.text ".setup", .text "script"])])]

/-- The job with the script of the template, whose nested list is spliced. -/
def templateUsed : Node :=
  .mapping [(".setup",
    .mapping [("script", .sequence [.text "a", .sequence [.text "b"]])]),
    ("job", .mapping [("script", .sequence [.text "a", .text "b"])])]

theorem resolve_settles_template :
    IsCollection templateUse ∧
      resolve Trail.root templateUse = .ok templateUsed ∧
      templateUsed.containsReference = false ∧
      ∀ other, resolve other templateUsed = .ok templateUsed := by
  have collection : IsCollection templateUse := .inl rfl
  have resolved : resolve Trail.root templateUse = .ok templateUsed := rfl
  have settled := resolve_settles collection resolved
  exact ⟨collection, resolved, settled.1, settled.2.2⟩

end References

end CiPipeline
