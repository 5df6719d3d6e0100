import CiPipeline.Failure
import CiPipeline.Proofs.Document.Entries
import CiPipeline.Proofs.Sequencing

/-!
# Entries with one more entry

Whatever is found by name in a mapping is found in the same mapping with one
more entry.  Steps that do on the common entries of two such mappings the same
leave these alike, and the additional entry where it stood.
-/

namespace CiPipeline

open CiPipeline.Sequencing

/-- Entries, and the same entries with one more: it stands between two parts
whose keys are given, and none of them is its key. -/
inductive Entries.Inserted (key : String) (before after : List String) :
    Entries → Entries → Prop where
  | between {earlier later : Entries} {value : Node} :
      Entries.keys earlier = before →
      Entries.keys later = after →
      key ∉ before ++ after →
      Inserted key before after (earlier ++ later)
        (earlier ++ (key, value) :: later)

namespace Entries.Inserted

variable {key : String} {before after : List String} {small large : Entries}

private theorem lookup_of_ne (inserted : Inserted key before after small large)
    {name : String} (different : name ≠ key) :
    large.lookup name = small.lookup name := by
  have absent : (name == key) = false := by simpa using different
  cases inserted with
  | between _ _ _ => simp [List.lookup_append, List.lookup_cons, absent]

private theorem ne_of_lookup (inserted : Inserted key before after small large)
    {name : String} {value : Node} (found : small.lookup name = some value) :
    name ≠ key := by
  rintro rfl
  cases inserted with
  | @between earlier later _ front back fresh =>
      subst front back
      have absent : name ∉ Entries.keys (earlier ++ later) := by
        simpa [Entries.keys] using fresh
      simp [Entries.lookup_of_notMem_keys absent] at found

/-- What is found in the smaller mapping is found in the larger one. -/
theorem lookup (inserted : Inserted key before after small large)
    {name : String} {value : Node} (found : small.lookup name = some value) :
    large.lookup name = some value := by
  rw [inserted.lookup_of_ne (inserted.ne_of_lookup found), found]

theorem value?_of_ne (inserted : Inserted key before after small large)
    {name : String} (different : name ≠ key) :
    large.value? name = small.value? name := by
  unfold Entries.value?
  rw [inserted.lookup_of_ne different]

theorem value? (inserted : Inserted key before after small large)
    {name : String} {value : Node} (found : small.value? name = some value) :
    large.value? name = some value := by
  have different : name ≠ key := by
    cases present : small.lookup name with
    | none => simp [Entries.value?, present] at found
    | some other => exact inserted.ne_of_lookup present
  rw [inserted.value?_of_ne different, found]

theorem map (inserted : Inserted key before after small large)
    (change : String × Node → String × Node)
    (names : ∀ entry, (change entry).1 = entry.1) :
    Inserted key before after (small.map change) (large.map change) := by
  have keys (entries : Entries) :
      Entries.keys (entries.map change) = entries.keys := by
    simp [Entries.keys, Function.comp_def, names]
  cases inserted with
  | @between earlier later value front back fresh =>
      have changed : change (key, value) = (key, (change (key, value)).2) :=
        Prod.ext (names (key, value)) rfl
      rw [List.map_append, List.map_append, List.map_cons, changed]
      exact .between ((keys earlier).trans front)
        ((keys later).trans back) fresh

end Entries.Inserted

/-- A step over entries that keeps the names. -/
def KeepsNames (step : String × Node → Except Failure (String × Node)) : Prop :=
  ∀ entry result, step entry = .ok result → result.1 = entry.1

private theorem KeepsNames.keys
    {step : String × Node → Except Failure (String × Node)}
    (keeps : KeepsNames step)
    {entries results : Entries} (success : entries.mapM step = .ok results) :
    results.keys = entries.keys := by
  have related := mapM_eq_ok_iff.mp success
  clear success
  induction related with
  | nil => rfl
  | cons head _ induction =>
      simp only [Entries.keys, List.map_cons] at induction ⊢
      rw [keeps _ _ head, induction]

/-- Steps that do on the common entries of two mappings what they do on the
smaller one leave the common entries alike. -/
theorem Entries.Inserted.mapM {key : String} {before after : List String}
    {small large smallAfter largeAfter : Entries}
    {first second : String × Node → Except Failure (String × Node)}
    (inserted : Inserted key before after small large)
    (keepsFirst : KeepsNames first) (keepsSecond : KeepsNames second)
    (same : ∀ entry ∈ small, ∀ result, first entry = .ok result →
      second entry = .ok result) (left : small.mapM first = .ok smallAfter)
    (right : large.mapM second = .ok largeAfter) :
    Inserted key before after smallAfter largeAfter := by
  cases inserted with
  | @between earlier later value front back fresh =>
      obtain ⟨earlierAfter, laterAfter, rfl, leftFront, leftBack⟩ :=
        mapM_append_eq_ok_iff.mp left
      obtain ⟨otherEarlier, rest, rfl, rightFront, rightRest⟩ :=
        mapM_append_eq_ok_iff.mp right
      rw [List.mapM_cons] at rightRest
      obtain ⟨added, step, remaining⟩ := bind_eq_ok_iff.mp rightRest
      obtain ⟨otherLater, rightBack, equal⟩ := bind_eq_ok_iff.mp remaining
      cases equal
      have sameFront := mapM_of_steps
        (fun entry member => same entry (by simp [member])) leftFront
      have sameBack := mapM_of_steps
        (fun entry member => same entry (by simp [member])) leftBack
      cases sameFront.symm.trans rightFront
      cases sameBack.symm.trans rightBack
      obtain ⟨name, definition⟩ := added
      cases keepsSecond _ _ step
      exact .between ((keepsFirst.keys leftFront).trans front)
        ((keepsFirst.keys leftBack).trans back) fresh

end CiPipeline
