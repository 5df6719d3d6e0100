import CiPipeline.Files.Path
import Mathlib.Data.List.Basic

/-!
# The names of paths

The names of a path that is put together from several ones are those of the
single paths in turn, as long as none of the later ones starts at the root.
-/

namespace CiPipeline

namespace Text

variable {separator : Char}

private theorem splitAll_ne_nil (separator : Char) (text : List Char) :
    splitAll separator text ≠ [] := by
  cases text with
  | nil => simp [splitAll]
  | cons character rest =>
      rw [splitAll]
      split
      · simp
      · split <;> simp

/-- A separator splits what stands before it from what stands behind it. -/
theorem splitAll_append (before after : List Char) :
    splitAll separator (before ++ separator :: after) =
      splitAll separator before ++ splitAll separator after := by
  induction before with
  | nil =>
      cases equal : splitAll separator after with
      | nil => exact (splitAll_ne_nil separator after equal).elim
      | cons part parts => simp [splitAll, equal]
  | cons character rest induction =>
      rw [List.cons_append, splitAll, induction, splitAll]
      cases equal : splitAll separator rest with
      | nil => exact (splitAll_ne_nil separator rest equal).elim
      | cons part parts =>
          simp only [List.cons_append]
          split <;> rfl

private theorem splitAll_of_notMem {text : List Char}
    (absent : separator ∉ text) :
    splitAll separator text = [text] := by
  induction text with
  | nil => rfl
  | cons character rest induction =>
      rw [List.mem_cons, not_or] at absent
      have different : (character == separator) = false := by
        simpa using Ne.symm absent.1
      simp [splitAll, induction absent.2, different]

private theorem notMem_of_mem_splitAll {text part : List Char}
    (member : part ∈ splitAll separator text) :
    separator ∉ part := by
  induction text generalizing part with
  | nil =>
      simp only [splitAll, List.mem_singleton] at member
      simp [member]
  | cons character rest induction =>
      rw [splitAll] at member
      split at member
      · rename_i none
        exact (splitAll_ne_nil separator rest none).elim
      · rename_i first others equal
        rw [equal] at induction
        split at member
        · rcases List.mem_cons.mp member with rfl | inRest
          · simp
          · exact induction inRest
        · rename_i different
          rcases List.mem_cons.mp member with rfl | inRest
          · have absent := induction (List.mem_cons_self)
            simp only [beq_iff_eq] at different
            simp [absent, Ne.symm different]
          · exact induction (List.mem_cons_of_mem _ inRest)

end Text

namespace Path

open CiPipeline.Text

@[simp] theorem parts_empty : parts "" = [] := by decide

private theorem parts_append_slash (before after : String) :
    parts (before ++ "/" ++ after) = parts before ++ parts after := by
  have slash : "/".toList = ['/'] := by decide
  simp only [parts, String.toList_append, slash, List.append_assoc,
    List.singleton_append, splitAll_append, List.filter_append, List.map_append]

theorem exists_of_endsWithSlash {path : String}
    (ends : endsWithSlash path = true) :
    ∃ front, path = front ++ "/" := by
  simp only [endsWithSlash, beq_iff_eq] at ends
  obtain ⟨front, equal⟩ := List.getLast?_eq_some_iff.mp ends
  refine ⟨String.ofList front, ?_⟩
  rw [← String.toList_inj, String.toList_append, String.toList_ofList, equal]
  rfl

/-- The names of a path below another one follow the names of that one. -/
theorem parts_join (base : String) {path : String}
    (relative : isAbsolute path = false) :
    parts (join base path) = parts base ++ parts path := by
  unfold join
  rw [relative, Bool.false_or]
  split
  · rename_i empty
    rw [String.isEmpty_iff.mp empty, parts_empty, List.nil_append]
  · split
    · rename_i ends
      obtain ⟨front, rfl⟩ := exists_of_endsWithSlash ends
      have bare : parts (front ++ "/") = parts front := by
        have appended := parts_append_slash front ""
        simpa using appended
      rw [parts_append_slash, bare]
    · exact parts_append_slash base path

/-- A relative path all of whose names lead down. -/
structure Descends (path : String) : Prop where
  relative : isAbsolute path = false
  down : ∀ name ∈ parts path, name ≠ "." ∧ name ≠ ".."

theorem down_join {base path : String}
    (down : ∀ name ∈ parts base, name ≠ "." ∧ name ≠ "..")
    (descends : Descends path) :
    ∀ name ∈ parts (join base path), name ≠ "." ∧ name ≠ ".." := by
  rw [parts_join base descends.relative]
  exact List.forall_mem_append.mpr ⟨down, descends.down⟩

private theorem isAbsolute_append {front : String} (present : front ≠ "")
    (back : String) :
    isAbsolute (front ++ back) = isAbsolute front := by
  unfold isAbsolute
  rw [String.toList_append, List.head?_append_of_ne_nil]
  simpa using present

theorem isAbsolute_join (base : String) {path : String}
    (relative : isAbsolute path = false) :
    isAbsolute (join base path) = isAbsolute base := by
  unfold join
  rw [relative, Bool.false_or]
  split
  · rename_i empty
    rw [String.isEmpty_iff.mp empty, relative]
    decide
  · rename_i nonempty
    have present : base ≠ "" := by simpa using nonempty
    split
    · exact isAbsolute_append present path
    · rw [String.append_assoc]
      exact isAbsolute_append present _

theorem endsWithSlash_append (front : String) {back : String}
    (present : back ≠ "") :
    endsWithSlash (front ++ back) = endsWithSlash back := by
  unfold endsWithSlash
  rw [String.toList_append, List.getLast?_append_of_ne_nil]
  simpa using present

theorem endsWithSlash_join (base : String) {path : String}
    (present : path ≠ "") :
    endsWithSlash (join base path) = endsWithSlash path := by
  unfold join
  split
  · rfl
  · split
    · exact endsWithSlash_append base present
    · exact endsWithSlash_append _ present

/-- What a name of a path looks like. -/
def IsName (name : String) : Prop := name ≠ "" ∧ '/' ∉ name.toList

theorem isName_of_mem_parts {path name : String} (member : name ∈ parts path) :
    IsName name := by
  obtain ⟨characters, kept, rfl⟩ := List.mem_map.mp member
  obtain ⟨inSplit, nonempty⟩ := List.mem_filter.mp kept
  refine ⟨?_, ?_⟩
  · simpa using nonempty
  · rw [String.toList_ofList]
    exact notMem_of_mem_splitAll inSplit

private theorem parts_of_isName {name : String} (isName : IsName name) :
    parts name = [name] := by
  have nonempty : name.toList.isEmpty = false := by simpa using isName.1
  simp [parts, splitAll_of_notMem isName.2, nonempty]

private theorem isAbsolute_of_isName {name : String} (isName : IsName name) :
    isAbsolute name = false := by
  by_contra absolute
  simp only [isAbsolute, Bool.not_eq_false, beq_iff_eq] at absolute
  exact isName.2 (List.mem_of_mem_head? absolute)

private theorem parts_intercalate {names : List String}
    (areNames : ∀ name ∈ names, IsName name) :
    parts ("/".intercalate names) = names := by
  induction names with
  | nil => rfl
  | cons first rest induction =>
      cases rest with
      | nil =>
          rw [String.intercalate_singleton]
          exact parts_of_isName (areNames first (by simp))
      | cons second others =>
          have remaining :=
            induction fun name member => areNames name (by simp [member])
          rw [String.intercalate_cons_cons, parts_append_slash, remaining,
            parts_of_isName (areNames first (by simp)), List.singleton_append]

/-- The names of a path that is made from names. -/
theorem parts_ofSteps {names : List String} (absolute : Bool)
    (areNames : ∀ name ∈ names, IsName name) :
    parts (ofSteps absolute names) = names := by
  unfold ofSteps
  cases absolute with
  | false => simpa using parts_intercalate areNames
  | true =>
      have appended := parts_append_slash "" ("/".intercalate names)
      rw [parts_empty, List.nil_append, parts_intercalate areNames] at appended
      simpa using appended

theorem isAbsolute_ofSteps {names : List String} (absolute : Bool)
    (areNames : ∀ name ∈ names, IsName name) :
    isAbsolute (ofSteps absolute names) = absolute := by
  unfold ofSteps
  cases absolute with
  | true => exact isAbsolute_append (by decide) _
  | false =>
      rw [if_neg Bool.false_ne_true, String.empty_append]
      cases names with
      | nil => rfl
      | cons first rest =>
          have isName := areNames first (by simp)
          cases rest with
          | nil =>
              rw [String.intercalate_singleton]
              exact isAbsolute_of_isName isName
          | cons second others =>
              rw [String.intercalate_cons_cons, String.append_assoc,
                isAbsolute_append isName.1]
              exact isAbsolute_of_isName isName

end Path

end CiPipeline
