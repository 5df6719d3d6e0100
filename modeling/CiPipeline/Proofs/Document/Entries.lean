import CiPipeline.Node
import Mathlib.Data.List.Forall2

/-!
# Entries of mappings

Laws of dropping a key, and mappings that agree key by key up to a relation
between their values.
-/

namespace CiPipeline

/-- Where no name occurs twice, every pair is the one that is found
under its name. -/
theorem lookup_of_mem_of_nodup {Value : Type} {pairs : List (String × Value)}
    {name : String} {value : Value} (distinct : (pairs.map Prod.fst).Nodup)
    (member : (name, value) ∈ pairs) :
    pairs.lookup name = some value := by
  obtain ⟨before, after, rfl⟩ := List.append_of_mem member
  rw [List.lookup_eq_some_iff]
  refine ⟨before, after, rfl, ?_⟩
  intro pair earlier
  rw [List.map_append, List.nodup_append] at distinct
  have different : pair.1 ≠ name :=
    distinct.2.2 pair.1 (List.mem_map_of_mem earlier) name (by simp)
  simpa using Ne.symm different

namespace Entries

@[simp] theorem without_nil (key : String) : without [] key = [] := rfl

@[simp] theorem without_cons_self (key : String) (value : Node)
    (rest : Entries) :
    without ((key, value) :: rest) key = without rest key := by
  simp [without]

theorem without_cons_of_ne {name key : String} (different : name ≠ key)
    (value : Node) (rest : Entries) :
    without ((name, value) :: rest) key =
      (name, value) :: without rest key := by
  simp [without, different]

theorem without_put_self (entries : Entries) (key : String) (value : Node) :
    (entries.put key value).without key = entries.without key := by
  induction entries with
  | nil => simp [put]
  | cons entry rest step =>
      obtain ⟨name, old⟩ := entry
      by_cases same : name = key
      · subst same
        simp [put]
      · simp [put, same, without_cons_of_ne same, step]

theorem without_put_of_ne (entries : Entries) {key other : String}
    (value : Node) (different : other ≠ key) :
    (entries.put other value).without key =
      (entries.without key).put other value := by
  induction entries with
  | nil => simp [put, without_cons_of_ne different]
  | cons entry rest step =>
      obtain ⟨name, old⟩ := entry
      by_cases same : name = other
      · subst same
        simp [put, without_cons_of_ne different]
      · by_cases dropped : name = key
        · subst dropped
          simp [put, same, step]
        · simp [put, same, without_cons_of_ne dropped, step]

theorem lookup_without_of_ne (entries : Entries) {key other : String}
    (different : other ≠ key) :
    (entries.without key).lookup other = entries.lookup other := by
  induction entries with
  | nil => rfl
  | cons entry rest step =>
      obtain ⟨name, old⟩ := entry
      by_cases dropped : name = key
      · subst dropped
        have absent : (other == name) = false := by simpa using different
        rw [without_cons_self, step, List.lookup_cons, absent]
      · rw [without_cons_of_ne dropped, List.lookup_cons,
          List.lookup_cons, step]

theorem mem_of_lookup {entries : Entries} {key : String} {value : Node}
    (found : entries.lookup key = some value) : (key, value) ∈ entries := by
  obtain ⟨before, after, equal, _⟩ := List.lookup_eq_some_iff.mp found
  simp [equal]

theorem lookup_of_notMem_keys {entries : Entries} {key : String}
    (absent : key ∉ entries.keys) :
    entries.lookup key = none := by
  rw [List.lookup_eq_none_iff]
  intro entry member
  have different : key ≠ entry.1 := by
    rintro rfl
    exact absent (List.mem_map_of_mem member)
  simpa using different

theorem keys_put_of_mem {entries : Entries} {key : String}
    (present : key ∈ entries.keys) (value : Node) :
    (entries.put key value).keys = entries.keys := by
  induction entries with
  | nil => simp [keys] at present
  | cons entry rest step =>
      obtain ⟨name, old⟩ := entry
      by_cases same : name = key
      · simp [put, keys, same]
      · have inRest : key ∈ keys rest := by
          simpa [keys, Ne.symm same] using present
        simpa [put, keys, same] using step inRest

theorem mem_keys_put {entries : Entries} {key other : String} {value : Node} :
    other ∈ (entries.put key value).keys ↔
      other = key ∨ other ∈ entries.keys := by
  induction entries with
  | nil => simp [put, keys]
  | cons entry rest step =>
      obtain ⟨name, old⟩ := entry
      by_cases same : name = key
      · simp [put, keys, same]
      · simp only [put, beq_iff_eq, same, if_false, keys, List.map_cons,
          List.mem_cons]
        simp only [keys] at step
        rw [step]
        exact or_left_comm

theorem nodup_keys_put {entries : Entries} (distinct : entries.keys.Nodup)
    (key : String) (value : Node) : (entries.put key value).keys.Nodup := by
  induction entries with
  | nil => simp [put, keys]
  | cons entry rest induction =>
      obtain ⟨name, old⟩ := entry
      obtain ⟨new, others⟩ := List.nodup_cons.mp distinct
      by_cases same : name = key
      · subst same
        simpa [put, keys] using distinct
      · have unchanged : name ∉ keys (put rest key value) := by
          intro member
          rcases mem_keys_put.mp member with equal | inRest
          · exact same equal
          · exact new inRest
        simpa [put, keys, same]
          using And.intro (by simpa [keys] using unchanged) (induction others)

theorem put_of_lookup {entries : Entries} {key : String} {value : Node}
    (found : entries.lookup key = some value) :
    entries.put key value = entries := by
  induction entries with
  | nil => cases found
  | cons entry rest step =>
      obtain ⟨name, old⟩ := entry
      by_cases same : name = key
      · subst same
        rw [List.lookup_cons_self] at found
        cases found
        simp [put]
      · have different : (key == name) = false := by simpa using Ne.symm same
        rw [List.lookup_cons, different] at found
        simp [put, same, step found]

theorem put_of_notMem_keys {entries : Entries} {key : String}
    (absent : key ∉ entries.keys) (value : Node) :
    entries.put key value = entries ++ [(key, value)] := by
  induction entries with
  | nil => rfl
  | cons entry rest step =>
      obtain ⟨name, old⟩ := entry
      obtain ⟨different, notInRest⟩ := not_or.mp (List.mem_cons.not.mp absent)
      simp [put, Ne.symm different, step notInRest]

theorem mem_put {entries : Entries} {key name : String} {value node : Node}
    (member : (name, node) ∈ entries.put key value) :
    (name = key ∧ node = value) ∨ (name, node) ∈ entries := by
  induction entries with
  | nil => simpa [put] using member
  | cons entry rest step =>
      obtain ⟨other, old⟩ := entry
      by_cases same : other = key
      · simp only [put, same, BEq.rfl, if_true] at member
        rcases List.mem_cons.mp member with equal | inRest
        · cases equal
          exact .inl ⟨rfl, rfl⟩
        · exact .inr (by simp [inRest])
      · simp only [put, beq_iff_eq, same, if_false] at member
        rcases List.mem_cons.mp member with equal | inRest
        · cases equal
          exact .inr (by simp)
        · rcases step inRest with new | kept
          · exact .inl new
          · exact .inr (by simp [kept])

theorem value?_of_lookup {entries : Entries} {key : String} {value : Node}
    (found : entries.lookup key = some value) (present : value ≠ .null) :
    entries.value? key = some value := by
  unfold value?
  split
  · rename_i null
    cases found.symm.trans null
    exact (present rfl).elim
  · exact found

theorem lookup_of_value? {entries : Entries} {key : String} {value : Node}
    (found : entries.value? key = some value) :
    entries.lookup key = some value := by
  unfold value? at found
  split at found
  · cases found
  · exact found

theorem notMem_keys_without (entries : Entries) (key : String) :
    key ∉ (entries.without key).keys := by
  simp [keys, without]

theorem without_of_notMem_keys {entries : Entries} {key : String}
    (absent : key ∉ entries.keys) :
    entries.without key = entries := by
  apply List.filter_eq_self.mpr
  intro entry member
  have different : entry.1 ≠ key := by
    rintro rfl
    exact absent (List.mem_map_of_mem member)
  simpa using different

theorem nodup_keys_without {entries : Entries} (distinct : entries.keys.Nodup)
    (key : String) :
    (entries.without key).keys.Nodup :=
  distinct.sublist (List.filter_sublist.map Prod.fst)

/-- The entries under a key, in their order. -/
def under (entries : Entries) (key : String) : Entries :=
  entries.filter fun entry => entry.1 == key

theorem under_put_self (entries : Entries) (key : String) (value : Node) :
    (entries.put key value).under key =
      (key, value) :: (entries.under key).tail := by
  induction entries with
  | nil => simp [put, under]
  | cons entry rest induction =>
      obtain ⟨name, old⟩ := entry
      by_cases same : name = key
      · simp [put, under, same]
      · simpa [put, under, same] using induction

theorem under_put_of_ne (entries : Entries) {key other : String} (value : Node)
    (different : other ≠ key) :
    (entries.put key value).under other = entries.under other := by
  induction entries with
  | nil => simp [put, under, different.symm]
  | cons entry rest induction =>
      obtain ⟨name, old⟩ := entry
      by_cases same : name = key
      · simp [put, under, same, different.symm]
      · simp only [under] at induction
        simp [put, under, same, List.filter_cons, induction]

theorem lookup_eq_under (entries : Entries) (key : String) :
    entries.lookup key = (entries.under key).head?.map Prod.snd := by
  induction entries with
  | nil => rfl
  | cons entry rest induction =>
      obtain ⟨name, value⟩ := entry
      by_cases same : name = key
      · simp [under, same]
      · have different : (key == name) = false := by simpa using Ne.symm same
        simp only [under] at induction
        rw [List.lookup_cons, different, induction]
        simp [under, same]

/-- The keys agree one by one, and the values under them are related. -/
def Related (relation : String → Node → Node → Prop)
    (before after : Entries) : Prop :=
  List.Forall₂ (fun first second =>
    second.1 = first.1 ∧ relation first.1 first.2 second.2) before after

namespace Related

variable {first second : String → Node → Node → Prop}
  {before between after : Entries}

theorem keys (related : Related first before after) :
    after.keys = before.keys := by
  induction related with
  | nil => rfl
  | cons head _ step =>
      simp only [Entries.keys, List.map_cons] at step ⊢
      rw [head.1, step]

theorem lookup (related : Related first before after) {key : String}
    {value : Node} (found : before.lookup key = some value) :
    ∃ other, after.lookup key = some other ∧ first key value other := by
  induction related with
  | nil => simp at found
  | @cons entry other rest others head _ step =>
      obtain ⟨name, old⟩ := entry
      obtain ⟨otherName, new⟩ := other
      obtain ⟨rfl, values⟩ := head
      rw [List.lookup_cons] at found ⊢
      cases same : key == otherName with
      | true =>
          rw [same] at found
          cases found
          rw [eq_of_beq same]
          exact ⟨new, rfl, values⟩
      | false =>
          rw [same] at found
          exact step found

theorem mem_right (related : Related first before after) {key : String}
    {value : Node} (member : (key, value) ∈ after) :
    ∃ original, (key, original) ∈ before ∧ first key original value := by
  induction related with
  | nil => simp at member
  | @cons entry other rest others head _ step =>
      rcases List.mem_cons.mp member with rfl | inRest
      · obtain ⟨rfl, values⟩ := head
        exact ⟨entry.2, by simp, values⟩
      · obtain ⟨original, found, values⟩ := step inRest
        exact ⟨original, by simp [found], values⟩

theorem symm (related : Related first before after) :
    Related (fun key value other => first key other value) after before := by
  induction related with
  | nil => exact .nil
  | cons head _ step => exact .cons ⟨head.1.symm, head.1 ▸ head.2⟩ step

theorem trans (related : Related first before between)
    (next : Related second between after) :
    Related (fun key value other => ∃ middle,
      first key value middle ∧ second key middle other) before after := by
  induction related generalizing after with
  | nil =>
      cases next
      exact .nil
  | cons head _ step =>
      cases next with
      | cons nextHead others =>
          refine .cons ⟨nextHead.1.trans head.1, _, head.2, ?_⟩ (step others)
          exact head.1 ▸ nextHead.2

theorem mono (related : Related first before after)
    (implies : ∀ key value other,
      first key value other → second key value other) :
    Related second before after :=
  List.Forall₂.imp (fun _ _ both => ⟨both.1, implies _ _ _ both.2⟩) related

/-- What is related through a middle is related to a mapping of the middles,
which is related on. -/
theorem split
    (related : Related (fun key value other =>
      ∃ middle, first key value middle ∧ second key middle other)
        before after) :
    ∃ between, Related first before between ∧ Related second between after := by
  induction related with
  | nil => exact ⟨[], .nil, .nil⟩
  | @cons entry _ _ _ head _ step =>
      obtain ⟨same, middle, left, right⟩ := head
      obtain ⟨others, leftOthers, rightOthers⟩ := step
      exact ⟨(entry.1, middle) :: others, .cons ⟨rfl, left⟩ leftOthers,
        .cons ⟨same, right⟩ rightOthers⟩

theorem exists_of_each
    (each : ∀ key value, (key, value) ∈ before → ∃ other,
      first key value other) :
    ∃ after, Related first before after := by
  induction before with
  | nil => exact ⟨[], .nil⟩
  | cons entry rest step =>
      obtain ⟨key, value⟩ := entry
      obtain ⟨other, head⟩ := each key value (by simp)
      obtain ⟨others, related⟩ :=
        step fun key value member => each key value (by simp [member])
      exact ⟨(key, other) :: others, .cons ⟨rfl, head⟩ related⟩

theorem filter (related : Related first before after) (keep : String → Bool) :
    Related (fun key value other => keep key = true ∧ first key value other)
      (before.filter fun entry => keep entry.1)
      (after.filter fun entry => keep entry.1) := by
  induction related with
  | nil => exact .nil
  | cons head _ step =>
      rw [List.filter_cons, List.filter_cons, head.1]
      split
      · rename_i kept
        exact .cons ⟨head.1, kept, head.2⟩ step
      · exact step

theorem eq_of_each (related : Related first before after)
    (each : ∀ key value other, first key value other → other = value) :
    after = before := by
  induction related with
  | nil => rfl
  | cons head _ step => rw [step, Prod.ext head.1 (each _ _ _ head.2)]

/-- A key whose value stays as it is under the relation is bound to
the same value. -/
theorem lookup_eq (related : Related first before after) {key : String}
    (fixed : ∀ value other, first key value other → other = value) :
    after.lookup key = before.lookup key := by
  cases found : before.lookup key with
  | some value =>
      obtain ⟨other, foundOther, values⟩ := related.lookup found
      rw [foundOther, fixed value other values]
  | none =>
      cases foundOther : after.lookup key with
      | none => rfl
      | some other =>
          obtain ⟨_, foundValue, _⟩ := related.symm.lookup foundOther
          cases found.symm.trans foundValue

end Related

end Entries

end CiPipeline
