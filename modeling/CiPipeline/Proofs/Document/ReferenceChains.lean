import CiPipeline.Proofs.Document.ReferenceTransfer

/-!
# Chains of references

One reference leads to another when the value that it names holds the other.
Resolving a document goes into the parts of nodes and through a bounded number
of references, so that it ends; it fails on long chains of references, and
reports a circular one for no other reason.
-/

namespace CiPipeline.References

open CiPipeline.Sequencing

/-! ## References and what they lead to -/

/-- Whether a reference stands somewhere in a node. -/
def Holds (node : Node) (pointer : List Node) : Prop :=
  ∃ place, node.Part place (.reference pointer)

/-- Whether a reference names a value of a document that holds another
reference. -/
def LeadsTo (document : Node) (first second : List Node) : Prop :=
  ∃ target, follow Trail.root document first = .ok target ∧ Holds target second

/-- Whether a reference in a node starts a chain of a number of references, of
which each but the last one leads to the next. -/
def StartsChain (document node : Node) (length : Nat) : Prop :=
  ∃ pointers : List (List Node),
    pointers.length = length ∧ (∀ first ∈ pointers.head?, Holds node first) ∧
    pointers.IsChain (LeadsTo document)

variable {root node : Node} {pointer : List Node} {trail : Trail}
  {failure : Failure}

theorem Holds.item {items : List Node} {item : Node} (member : item ∈ items)
    (holds : Holds item pointer) : Holds (.sequence items) pointer := by
  obtain ⟨index, found⟩ := List.mem_iff_getElem?.mp member
  obtain ⟨place, occurs⟩ := holds
  exact ⟨_, .item found occurs⟩

theorem Holds.entry {entries : Entries} {key : String} {value : Node}
    (member : (key, value) ∈ entries) (holds : Holds value pointer) :
    Holds (.mapping entries) pointer := by
  obtain ⟨index, found⟩ := List.mem_iff_getElem?.mp member
  obtain ⟨place, occurs⟩ := holds
  exact ⟨_, .entry found occurs⟩

private theorem StartsChain.of_holds {inner : Node} {length : Nat}
    (within : ∀ pointer, Holds inner pointer → Holds node pointer)
    (chain : StartsChain root inner length) : StartsChain root node length := by
  obtain ⟨pointers, counted, starts, leads⟩ := chain
  exact ⟨pointers, counted, fun first isFirst =>
    within first (starts first isFirst), leads⟩

/-- A reference starts a chain that is longer by one than one which its
value starts. -/
theorem StartsChain.reference {target : Node} {length : Nat}
    (followed : follow Trail.root root pointer = .ok target)
    (chain : StartsChain root target length) :
    StartsChain root (.reference pointer) (length + 1) := by
  obtain ⟨pointers, counted, starts, leads⟩ := chain
  refine ⟨pointer :: pointers, by simp [counted], ?_, ?_⟩
  · rintro first ⟨rfl⟩
    exact ⟨[], .whole _⟩
  · refine List.isChain_cons.mpr ⟨?_, leads⟩
    intro second isSecond
    exact ⟨target, followed, starts second isSecond⟩

/-- The first reference of a chain names a value that starts the rest
of the chain. -/
theorem StartsChain.next {length : Nat}
    (chain : StartsChain root node (length + 2)) :
    ∃ pointer target,
      Holds node pointer ∧ follow Trail.root root pointer = .ok target ∧
      StartsChain root target (length + 1) := by
  obtain ⟨pointers, counted, starts, leads⟩ := chain
  match pointers with
  | [] | [_] => simp at counted
  | first :: second :: rest =>
      obtain ⟨⟨target, followed, holds⟩, further⟩ :=
        List.isChain_cons_cons.mp leads
      refine ⟨first, target, starts first rfl, followed, second :: rest, ?_,
        ?_, further⟩
      · simpa using counted
      · rintro _ ⟨rfl⟩
        exact holds

private theorem StartsChain.containsReference {length : Nat}
    (chain : StartsChain root node (length + 1)) :
    node.containsReference = true := by
  obtain ⟨pointers, counted, starts, _⟩ := chain
  match pointers with
  | [] => simp at counted
  | first :: rest =>
      obtain ⟨_, occurs⟩ := starts first rfl
      exact containsReference_of_part occurs rfl

mutual

/-- A node that contains a reference holds one. -/
theorem exists_holds (node : Node) (contains : node.containsReference = true) :
    ∃ pointer, Holds node pointer := by
  cases node with
  | reference pointer => exact ⟨pointer, [], .whole _⟩
  | sequence items =>
      obtain ⟨item, member, pointer, holds⟩ := exists_holdsItem items contains
      exact ⟨pointer, holds.item member⟩
  | mapping entries =>
      obtain ⟨⟨key, value⟩, member, pointer, holds⟩ :=
        exists_holdsEntry entries contains
      exact ⟨pointer, Holds.entry member holds⟩
  | _ => cases contains

private theorem exists_holdsItem (items : List Node)
    (contains : Node.anyReference items = true) :
    ∃ item ∈ items, ∃ pointer, Holds item pointer := by
  cases items with
  | nil => cases contains
  | cons item rest =>
      rcases Bool.or_eq_true_iff.mp contains with first | others
      · exact ⟨item, by simp, exists_holds item first⟩
      · obtain ⟨other, member, found⟩ := exists_holdsItem rest others
        exact ⟨other, by simp [member], found⟩

private theorem exists_holdsEntry (entries : List (String × Node))
    (contains : Node.anyReferenceEntry entries = true) :
    ∃ entry ∈ entries, ∃ pointer, Holds entry.2 pointer := by
  cases entries with
  | nil => cases contains
  | cons entry rest =>
      obtain ⟨key, value⟩ := entry
      rcases Bool.or_eq_true_iff.mp contains with first | others
      · exact ⟨(key, value), by simp, exists_holds value first⟩
      · obtain ⟨other, member, found⟩ := exists_holdsEntry rest others
        exact ⟨other, by simp [member], found⟩

end

/-! ## Why a pointer cannot be followed -/

/-- The problems of a single reference. -/
inductive Undefined : Problem → Prop where
  | pointer : Undefined .undefinedPointer
  | value (segment : String) : Undefined (.undefinedReference segment)
  | expansion : Undefined .undefinedExpansion

private theorem follow_error
    (failed : follow trail node pointer = .error failure) :
    ∃ problem path, failure = .located problem path ∧ Undefined problem := by
  induction pointer generalizing node with
  | nil => cases failed
  | cons segment rest induction =>
      rw [follow] at failed
      split at failed
      · cases failed
        exact ⟨_, _, rfl, .pointer⟩
      · split at failed
        · cases failed
          exact ⟨_, _, rfl, .value _⟩
        · exact induction failed

private theorem flatten_error (failed : flatten trail node = .error failure) :
    ∃ problem path, failure = .located problem path ∧ Undefined problem := by
  cases node with
  | sequence items =>
      rcases bind_eq_error_iff.mp failed with flattened | ⟨flat, _, impossible⟩
      · unfold flattenItems at flattened
        split at flattened
        · rcases bind_eq_error_iff.mp flattened with
            spliced | ⟨lists, _, impossible⟩
          · obtain ⟨item, _, itemFailed⟩ := exists_of_mapM_error spliced
            unfold splice at itemFailed
            split at itemFailed
            · cases itemFailed
              exact ⟨_, _, rfl, .expansion⟩
            · cases itemFailed
            · cases itemFailed
          · cases impossible
        · cases flattened
      · cases impossible
  | _ => cases failed

/-! ## Nested resolutions -/

/-- The resolutions of nodes that one resolution calls for, each with the number
of hops that are left: those of the parts of a node, and that of the value that
a reference names. -/
inductive CallsFor (root : Node) : Nat × Node → Nat × Node → Prop where
  | item {left : Nat} {items : List Node} {item : Node} :
      item ∈ items →
      CallsFor root (left, .sequence items) (left, item)
  | entry {left : Nat} {entries : Entries} {key : String} {value : Node} :
      (key, value) ∈ entries →
      CallsFor root (left, .mapping entries) (left, value)
  | target {left : Nat} {pointer : List Node} {target : Node} :
      follow Trail.root root pointer = .ok target →
      CallsFor root (left + 1, .reference pointer) (left, target)

/-- Resolutions do not call for each other for ever. -/
theorem callsFor_wellFounded (root : Node) :
    WellFounded fun inner outer => CallsFor root outer inner := by
  -- A part is smaller than its node; a value that a reference names may be
  -- larger, but there is one hop less.
  refine Subrelation.wf (r := InvImage (Prod.Lex (· < ·) (· < ·))
    fun call : Nat × Node => (call.1, sizeOf call.2)) ?_ (InvImage.wf _ ?_)
  · intro inner outer calls
    cases calls with
    | item member =>
        refine Prod.Lex.right _ ?_
        have smaller := List.sizeOf_lt_of_mem member
        simp only [Node.sequence.sizeOf_spec]
        omega
    | entry member =>
        refine Prod.Lex.right _ ?_
        have smaller := List.sizeOf_lt_of_mem member
        simp only [Node.mapping.sizeOf_spec, Prod.mk.sizeOf_spec] at smaller ⊢
        omega
    | target _ => exact Prod.Lex.left _ _ (Nat.lt_succ_self _)
  · exact (Prod.lex Nat.lt_wfRel Nat.lt_wfRel).wf

/-! ## Failures -/

/-- Why a node is not resolved with a number of hops left: a reference in it
names nothing or what cannot be spliced, or a chain of references is longer than
the hops allow. -/
def Blamed (root node : Node) (left : Nat) (failure : Failure) : Prop :=
  ∃ problem path, failure = .located problem path ∧
    (Undefined problem ∨
      problem = .circularReference ∧ StartsChain root node (left + 2))

variable {hop : Hop} {key : String} {left : Nat}

private theorem Blamed.of_undefined
    (failed : ∃ problem path,
      failure = .located problem path ∧ Undefined problem) :
    Blamed root node left failure := by
  obtain ⟨problem, path, located, undefined⟩ := failed
  exact ⟨problem, path, located, .inl undefined⟩

private theorem Blamed.of_holds {inner : Node}
    (within : ∀ pointer, Holds inner pointer → Holds node pointer)
    (blamed : Blamed root inner left failure) :
    Blamed root node left failure := by
  obtain ⟨problem, path, located, undefined | ⟨circular, chain⟩⟩ := blamed
  · exact ⟨problem, path, located, .inl undefined⟩
  · exact ⟨problem, path, located, .inr ⟨circular, chain.of_holds within⟩⟩

private theorem Blamed.reference {target : Node}
    (followed : follow Trail.root root pointer = .ok target)
    (blamed : Blamed root target left failure) :
    Blamed root (.reference pointer) (left + 1) failure := by
  obtain ⟨problem, path, located, undefined | ⟨circular, chain⟩⟩ := blamed
  · exact ⟨problem, path, located, .inl undefined⟩
  · exact ⟨problem, path, located, .inr ⟨circular, chain.reference followed⟩⟩

private theorem resolveItems_error {index : Nat} {items : List Node}
    (failed : resolveItems root hop trail index items = .error failure) :
    ∃ item ∈ items, ∃ key,
      resolveEntry root hop trail key item = .error failure := by
  induction items generalizing index with
  | nil => cases failed
  | cons item rest induction =>
      rw [resolveItems] at failed
      rcases bind_eq_error_iff.mp failed with first | ⟨resolved, _, remaining⟩
      · exact ⟨item, by simp, _, first⟩
      · rcases bind_eq_error_iff.mp remaining with others | ⟨_, _, impossible⟩
        · obtain ⟨other, member, otherFailed⟩ := induction others
          exact ⟨other, by simp [member], otherFailed⟩
        · cases impossible

private theorem resolveEntries_error {entries : Entries}
    (failed : resolveEntries root hop trail entries = .error failure) :
    ∃ entry ∈ entries,
      resolveEntry root hop trail entry.1 entry.2 = .error failure := by
  induction entries with
  | nil => cases failed
  | cons entry rest induction =>
      obtain ⟨key, value⟩ := entry
      rw [resolveEntries] at failed
      rcases bind_eq_error_iff.mp failed with first | ⟨resolved, _, remaining⟩
      · exact ⟨(key, value), by simp, first⟩
      · rcases bind_eq_error_iff.mp remaining with others | ⟨_, _, impossible⟩
        · obtain ⟨other, member, otherFailed⟩ := induction others
          exact ⟨other, by simp [member], otherFailed⟩
        · cases impossible

/-- A reference is not resolved because of itself, because of the value that it
names, or because no hop is left for the references in that value. -/
theorem reference_blamed
    (failed : resolveEntry root (hopWithin root left) trail key
      (.reference pointer) = .error failure)
    (onwards : ∀ fewer target,
      left = fewer + 1 → follow Trail.root root pointer = .ok target →
      ∀ inner, resolveEntry root (hopWithin root fewer) inner key target =
        .error failure →
        Blamed root target fewer failure) :
    Blamed root (.reference pointer) left failure := by
  rw [resolveEntry_reference] at failed
  rcases bind_eq_error_iff.mp failed with unfollowed | ⟨target, followed, rest⟩
  · exact .of_undefined (follow_error unfollowed)
  have named := follow_trail Trail.root followed
  rcases bind_eq_error_iff.mp rest with hopped | ⟨resolved, _, unflattened⟩
  · split at hopped
    · rename_i contains
      cases left with
      | zero =>
          cases hopped
          obtain ⟨second, holds⟩ := exists_holds target contains
          have last : StartsChain root target 1 :=
            ⟨[second], rfl, by rintro _ ⟨rfl⟩; exact holds, .singleton second⟩
          exact ⟨_, _, rfl, .inr ⟨rfl, last.reference named⟩⟩
      | succ fewer =>
          exact (onwards fewer target rfl named _ hopped).reference named
    · cases hopped
  · exact .of_undefined (flatten_error unflattened)

private theorem resolveEntry_blamed (call : Nat × Node) {trail : Trail}
    {key : String} {failure : Failure}
    (failed : resolveEntry root (hopWithin root call.1) trail key call.2 =
      .error failure) :
    Blamed root call.2 call.1 failure := by
  -- The induction is on the calls: a part of the node has as many hops left,
  -- and the value that a reference names has one less.
  induction call using (callsFor_wellFounded root).induction
      generalizing trail key failure with
  | _ call induction =>
      obtain ⟨left, node⟩ := call
      dsimp only at failed ⊢
      cases contains : node.containsReference with
      | false =>
          rw [resolveEntry_of_free contains] at failed
          cases failed
      | true =>
          cases node with
          | sequence items =>
              rw [resolveEntry, if_pos contains] at failed
              rcases bind_eq_error_iff.mp failed with
                itemsFailed | ⟨_, _, impossible⟩
              · obtain ⟨item, member, _, itemFailed⟩ :=
                  resolveItems_error itemsFailed
                exact (induction (left, item) (.item member)
                  itemFailed).of_holds fun _ holds => holds.item member
              · cases impossible
          | mapping entries =>
              rw [resolveEntry, if_pos contains] at failed
              rcases bind_eq_error_iff.mp failed with
                entriesFailed | ⟨_, _, impossible⟩
              · obtain ⟨⟨_, value⟩, member, entryFailed⟩ :=
                  resolveEntries_error entriesFailed
                exact (induction (left, value) (.entry member)
                  entryFailed).of_holds fun _ holds => holds.entry member
              · cases impossible
          | reference pointer =>
              refine reference_blamed failed ?_
              rintro fewer target rfl followed inner hopped
              exact induction (fewer, target) (.target followed) hopped
          | _ => cases contains

/-- When all references of a node are resolved, the first one of a chain takes a
hop to a value in which the rest of the chain starts. -/
theorem StartsChain.hopped {length : Nat}
    (chain : StartsChain root node (length + 2))
    (resolves : ∀ pointer, Holds node pointer →
      ∃ trail key resolved,
        resolveEntry root hop trail key (.reference pointer) = .ok resolved) :
    ∃ trail key target resolved, hop trail key target = .ok resolved ∧
      StartsChain root target (length + 1) := by
  obtain ⟨pointer, target, holds, named, further⟩ := chain.next
  obtain ⟨_, _, _, reference⟩ := resolves pointer holds
  rw [resolveEntry_reference, follow_trail _ named, ok_bind,
    if_pos further.containsReference] at reference
  obtain ⟨resolved, hopped, _⟩ := bind_eq_ok_iff.mp reference
  exact ⟨_, _, target, resolved, hopped, further⟩

/-- Hops are too few for a value in which a longer chain of
references starts. -/
theorem hopWithin_of_chain {left : Nat} {resolved : Node}
    (chain : StartsChain root node (left + 1)) :
    hopWithin root left trail key node ≠ .ok resolved := by
  intro success
  induction left generalizing trail key node resolved with
  | zero => cases success
  | succ left induction =>
      have resolves : ∀ pointer, Holds node pointer → ∃ trail key resolved,
          resolveEntry root (hopWithin root left) trail key
            (.reference pointer) = .ok resolved := by
        rintro pointer ⟨place, occurs⟩
        obtain ⟨trail, key, value, resolution, _⟩ :=
          resolveEntry_place occurs success
        exact ⟨trail, key, value, resolution⟩
      obtain ⟨_, _, target, _, hopped, further⟩ := chain.hopped resolves
      exact induction further hopped

/-! ## Whole documents -/

variable {document : Node}

/-- Resolving a document resolves each of its references. -/
theorem resolveEntry_of_holds {result : Node}
    (collection : IsCollection document)
    (success : resolve trail document = .ok result)
    (holds : Holds document pointer) :
    ∃ trail key resolved,
      resolveEntry document (hopWithin document hopLimit) trail key
        (.reference pointer) = .ok resolved := by
  obtain ⟨place, occurs⟩ := holds
  have inner : place ≠ [] := by
    rintro rfl
    cases occurs
    simp [IsCollection, Node.isMapping, isSequence] at collection
  obtain ⟨trail, key, value, resolution, _⟩ :=
    resolve_place success occurs inner
  exact ⟨trail, key, value, resolution⟩

/-- A document in which a chain of references starts that is too long for the
hops fails. -/
theorem resolve_of_chain (collection : IsCollection document)
    (chain : StartsChain document document (hopLimit + 2)) :
    ∃ failure, resolve trail document = .error failure := by
  cases outcome : resolve trail document with
  | error failure => exact ⟨failure, rfl⟩
  | ok result =>
      obtain ⟨_, _, target, _, hopped, further⟩ :=
        chain.hopped fun _ => resolveEntry_of_holds collection outcome
      exact (hopWithin_of_chain further hopped).elim

private theorem resolve_blamed
    (failed : resolve trail document = .error failure) :
    Blamed document document hopLimit failure := by
  cases document with
  | mapping entries =>
      rcases bind_eq_error_iff.mp failed with entriesFailed | ⟨_, _, impossible⟩
      · obtain ⟨⟨_, value⟩, member, entryFailed⟩ :=
          resolveEntries_error entriesFailed
        exact (resolveEntry_blamed (hopLimit, value) entryFailed).of_holds
          fun _ holds => holds.entry member
      · cases impossible
  | sequence items =>
      rcases bind_eq_error_iff.mp failed with itemsFailed | ⟨_, _, impossible⟩
      · obtain ⟨item, member, _, itemFailed⟩ := resolveItems_error itemsFailed
        exact (resolveEntry_blamed (hopLimit, item) itemFailed).of_holds
          fun _ holds => holds.item member
      · cases impossible
  | _ => cases failed

/-- A reference that leads to one which leads back to itself starts chains of
every length. -/
theorem StartsChain.of_cycle {other : List Node} (holds : Holds node pointer)
    (path : Relation.ReflTransGen (LeadsTo root) pointer other)
    (cycle : Relation.TransGen (LeadsTo root) other other) (length : Nat) :
    StartsChain root node (length + 1) := by
  obtain ⟨rest, counted, chain⟩ := Chains.exists_isChain path cycle length
  refine ⟨pointer :: rest, by simp [counted], ?_, chain⟩
  rintro _ ⟨rfl⟩
  exact holds

/-- Resolving a document ends, with a document without references or with a
failure that has its place.  It fails when a chain of twelve references starts
in the document, in particular when references lead to a cycle, and does not
report a circular reference otherwise. -/
theorem resolve_ends (trail : Trail) (collection : IsCollection document) :
    (WellFounded fun inner outer => CallsFor document outer inner) ∧
      ((∃ result, resolve trail document = .ok result ∧
        result.containsReference = false) ∨
        ∃ problem path,
          resolve trail document = .error (.located problem path)) ∧
      (StartsChain document document 12 → ∃ failure,
        resolve trail document = .error failure) ∧
      (∀ pointer other, Holds document pointer →
        Relation.ReflTransGen (LeadsTo document) pointer other →
        Relation.TransGen (LeadsTo document) other other →
        ∃ failure, resolve trail document = .error failure) ∧
      ∀ path, resolve trail document =
        .error (.located .circularReference path) →
        StartsChain document document 12 := by
  refine ⟨callsFor_wellFounded document, ?_,
    resolve_of_chain collection, ?_, ?_⟩
  · cases outcome : resolve trail document with
    | ok result => exact .inl ⟨result, rfl, resolve_clears collection outcome⟩
    | error failure =>
        obtain ⟨problem, path, rfl, _⟩ := resolve_blamed outcome
        exact .inr ⟨problem, path, rfl⟩
  · intro pointer other holds path cycle
    exact resolve_of_chain collection (.of_cycle holds path cycle 11)
  · intro path failed
    obtain ⟨problem, _, located, undefined | ⟨_, chain⟩⟩ :=
      resolve_blamed failed
    · cases located
      cases undefined
    · exact chain

/-- Entries of which each but the last one refers to the next, the last
one to a text. -/
def ladder (length : Nat) : Node :=
  .mapping ((List.range length).map (fun index =>
    (toString index, .reference [.text (toString (index + 1))])) ++
    [(toString length, .text "end")])

/-- Eleven references can be followed one from another, twelve cannot. -/
theorem resolve_ends_ladder :
    IsCollection (ladder 11) ∧ IsCollection (ladder 12) ∧
      ¬ StartsChain (ladder 11) (ladder 11) 12 ∧
      StartsChain (ladder 12) (ladder 12) 12 ∧
      ∃ failure, resolve Trail.root (ladder 12) = .error failure := by
  have short : IsCollection (ladder 11) := .inl rfl
  have long : IsCollection (ladder 12) := .inl rfl
  obtain ⟨result, resolved⟩ :
      ∃ result, resolve Trail.root (ladder 11) = .ok result :=
    ⟨_, rfl⟩
  obtain ⟨path, circular⟩ : ∃ path,
      resolve Trail.root (ladder 12) =
        .error (.located .circularReference path) :=
    ⟨_, rfl⟩
  obtain ⟨_, _, fails, _, _⟩ := resolve_ends Trail.root short
  obtain ⟨_, _, longFails, _, reported⟩ := resolve_ends Trail.root long
  have chain := reported path circular
  refine ⟨short, long, ?_, chain, longFails chain⟩
  intro shortChain
  obtain ⟨failure, failed⟩ := fails shortChain
  cases failed.symm.trans resolved

end CiPipeline.References
