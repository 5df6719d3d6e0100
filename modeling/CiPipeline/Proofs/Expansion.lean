import CiPipeline.Expansion
import Mathlib.Algebra.Order.BigOperators.Group.List
import Mathlib.Algebra.Order.Group.Nat
import Mathlib.Data.List.TakeWhile
import Mathlib.Tactic.ByContra

/-!
# The two forms of a reference to a variable

A text refers to a variable by a dollar sign and its name, or by a dollar sign
and its name in braces.  `Substituted` replaces these two forms and keeps every
other character.

The expansion takes each brace by itself.  It cuts a text into pieces, and its
result is the substituted text exactly where no piece lacks its name or has a
brace on one side only.
-/

namespace CiPipeline

open CiPipeline.Text

namespace Expansion

/-! ## Substitution of the two forms -/

/-- The value of a variable, or nothing. -/
def valueOf (bindings : Variables) (name : List Char) : List Char :=
  ((bindings.lookup (String.ofList name)).getD "").toList

/-- A text starts with a reference to a variable, behind which another
text follows. -/
inductive Refers : List Char → List Char → List Char → Prop where
  /-- A name without braces is as long as it can be. -/
  | bare {name behind : List Char} :
      name ≠ [] →
      (∀ character ∈ name, isWordCharacter character = true) →
      (∀ character, behind.head? = some character →
        isWordCharacter character = false) →
      Refers ('$' :: (name ++ behind)) name behind
  | braced {name behind : List Char} :
      name ≠ [] →
      (∀ character ∈ name, isWordCharacter character = true) →
      Refers ('$' :: '\x7b' :: (name ++ '\x7d' :: behind)) name behind

/-- From left to right every reference is replaced by a value, which is not
looked at again, and every character that starts none is kept. -/
inductive Substituted (bindings : Variables) :
    List Char → List Char → Prop where
  | nil : Substituted bindings [] []
  | reference {text name behind result : List Char} :
      Refers text name behind →
      Substituted bindings behind result →
      Substituted bindings text (valueOf bindings name ++ result)
  | kept {character : Char} {rest result : List Char} :
      (∀ name behind, ¬ Refers (character :: rest) name behind) →
      Substituted bindings rest result →
      Substituted bindings (character :: rest) (character :: result)

/-! ## The pieces of a text -/

/-- A character that may be there. -/
def optional (present : Bool) (character : Char) : List Char :=
  if present then [character] else []

/-- What the expansion sees in a text. -/
inductive Piece where
  | plain (character : Char)
  /-- A dollar sign with what is replaced together with it. -/
  | reference (opening : Bool) (name : List Char) (closing : Bool)
  deriving DecidableEq, Repr

namespace Piece

/-- What stands behind the first character. -/
def tail : Piece → List Char
  | .plain _ => []
  | .reference opening name closing =>
      optional opening '\x7b' ++ (name ++ optional closing '\x7d')

/-- The spelling of a piece. -/
def text : Piece → List Char
  | .plain character => [character]
  | .reference opening name closing =>
      '$' :: tail (.reference opening name closing)

/-- What the expansion makes of a piece. -/
def value (bindings : Variables) : Piece → List Char
  | .plain character => [character]
  | .reference _ name _ => valueOf bindings name

/-- The name of the reference that a piece starts with, and what stands behind
that reference. -/
def referred? : Piece → Option (List Char × List Char)
  | .plain _ => none
  | .reference _ [] _ => none
  | .reference true _ false => none
  | .reference true name true => some (name, [])
  | .reference false name closing => some (name, optional closing '\x7d')

/-- What substitution makes of a piece. -/
def substituted (bindings : Variables) (piece : Piece) : List Char :=
  match piece.referred? with
  | some (name, leftOver) => valueOf bindings name ++ leftOver
  | none => piece.text

/-- A name stands between two braces or none. -/
def isComplete : Piece → Bool
  | .plain _ => true
  | .reference opening name closing => !name.isEmpty && opening == closing

end Piece

/-- The piece that a dollar sign in front of a text starts. -/
def reference (text : List Char) : Piece :=
  .reference (text.head? == some '\x7b') (splitName text).1
    (((dropOne '\x7b' text).dropWhile isWordCharacter).head? == some '\x7d')

/-- Cuts a text into pieces. -/
def pieces : List Char → List Piece
  | [] => []
  | character :: rest =>
      if character = '$' then
        have := length_splitName_le rest
        reference rest :: pieces (splitName rest).2
      else .plain character :: pieces rest
  termination_by text => text.length

private theorem pieces_dollar (rest : List Char) :
    pieces ('$' :: rest) = reference rest :: pieces (splitName rest).2 := by
  rw [pieces]
  simp

private theorem pieces_of_ne {character : Char} (plain : character ≠ '$')
    (rest : List Char) :
    pieces (character :: rest) = .plain character :: pieces rest := by
  rw [pieces]
  simp [plain]

private theorem expand_dollar (bindings : Variables) (rest : List Char) :
    expand bindings ('$' :: rest) =
      valueOf bindings (splitName rest).1 ++
        expand bindings (splitName rest).2 := by
  rw [expand]
  simp [valueOf]

private theorem expand_of_ne (bindings : Variables) {character : Char}
    (plain : character ≠ '$') (rest : List Char) :
    expand bindings (character :: rest) =
      character :: expand bindings rest := by
  rw [expand]
  simp [plain]

theorem expand_eq_value (bindings : Variables) (text : List Char) :
    expand bindings text = (pieces text).flatMap (Piece.value bindings) := by
  induction text using pieces.induct with
  | case1 => simp [expand, pieces]
  | case2 rest _ induction =>
      rw [expand_dollar, pieces_dollar, List.flatMap_cons, induction]
      rfl
  | case3 character rest plain induction =>
      rw [expand_of_ne bindings plain, pieces_of_ne plain,
        List.flatMap_cons, induction]
      rfl

private theorem optional_append_dropOne (character : Char) (text : List Char) :
    optional (text.head? == some character) character ++
      dropOne character text = text := by
  cases text with
  | nil => rfl
  | cons first rest =>
      by_cases same : first = character <;> simp [optional, dropOne, same]

/-- A dollar sign takes a longest run of word characters with it, and the braces
next to it. -/
theorem exists_reference (rest : List Char) :
    ∃ opening name closing, reference rest = .reference opening name closing ∧
      (∀ character ∈ name, isWordCharacter character = true) ∧
      (∀ character, (optional closing '\x7d' ++ (splitName rest).2).head? =
        some character →
        isWordCharacter character = false) ∧
      rest = optional opening '\x7b' ++
        (name ++ (optional closing '\x7d' ++ (splitName rest).2)) := by
  refine ⟨_, _, _, rfl, fun _ member => List.mem_takeWhile_imp member, ?_, ?_⟩
  · intro character
    rw [splitName, optional_append_dropOne]
    intro stands
    have stops := List.head?_dropWhile_not isWordCharacter (dropOne '\x7b' rest)
    rw [stands] at stops
    simpa using stops
  · simp only [splitName, optional_append_dropOne,
      List.takeWhile_append_dropWhile]

private theorem tail_reference (rest : List Char) :
    (reference rest).tail ++ (splitName rest).2 = rest := by
  obtain ⟨opening, name, closing, shape, -, -, spelled⟩ := exists_reference rest
  rw [shape, Piece.tail, List.append_assoc, List.append_assoc, ← spelled]

private theorem text_pieces (text : List Char) :
    (pieces text).flatMap Piece.text = text := by
  induction text using pieces.induct with
  | case1 => simp [pieces]
  | case2 rest _ induction =>
      have spelled : (reference rest).text = '$' :: (reference rest).tail := rfl
      rw [pieces_dollar, List.flatMap_cons, induction, spelled,
        List.cons_append, tail_reference]
  | case3 character rest plain induction =>
      rw [pieces_of_ne plain, List.flatMap_cons, induction]
      rfl

/-! ## References and pieces -/

private theorem dollar_notMem_optional (present : Bool) {character : Char}
    (plain : character ≠ '$') :
    '$' ∉ optional present character := by
  cases present <;> simp [optional, Ne.symm plain]

private theorem dollar_notMem_tail (text : List Char) :
    '$' ∉ (reference text).tail := by
  obtain ⟨opening, name, closing, shape, word, -⟩ := exists_reference text
  have named : '$' ∉ name := by
    intro member
    have isWord := word '$' member
    contradiction
  simp only [shape, Piece.tail, List.mem_append, not_or]
  exact ⟨dollar_notMem_optional _ (by decide), named,
    dollar_notMem_optional _ (by decide)⟩

private theorem dollar_notMem_leftOver {piece : Piece}
    {name leftOver : List Char}
    (referred : piece.referred? = some (name, leftOver)) : '$' ∉ leftOver := by
  unfold Piece.referred? at referred
  split at referred <;> cases referred
  · simp
  · exact dollar_notMem_optional _ (by decide)

/-- A run of word characters that goes on no further. -/
theorem splitRun {name behind : List Char}
    (word : ∀ character ∈ name, isWordCharacter character = true)
    (ends : ∀ character,
      behind.head? = some character → isWordCharacter character = false) :
    (name ++ behind).takeWhile isWordCharacter = name ∧
      (name ++ behind).dropWhile isWordCharacter = behind := by
  rw [List.takeWhile_append_of_pos word, List.dropWhile_append_of_pos word]
  cases behind with
  | nil => simp
  | cons character rest => simp [ends character rfl]

private theorem reference_bare {name behind : List Char} (named : name ≠ [])
    (word : ∀ character ∈ name, isWordCharacter character = true)
    (ends : ∀ character,
      behind.head? = some character → isWordCharacter character = false) :
    reference (name ++ behind) =
      .reference false name (behind.head? == some '\x7d') ∧
      (splitName (name ++ behind)).2 = dropOne '\x7d' behind := by
  obtain ⟨first, others, rfl⟩ := List.exists_cons_of_ne_nil named
  obtain ⟨taken, dropped⟩ := splitRun word ends
  have starts : first ≠ '\x7b' := by
    rintro rfl
    have isWord := word '\x7b' List.mem_cons_self
    contradiction
  have inner : dropOne '\x7b' (first :: others ++ behind) =
      first :: others ++ behind := by
    simp [dropOne, starts]
  constructor
  · simp only [reference, splitName, inner, taken, dropped]
    simp [starts]
  · simp only [splitName, inner, dropped]

private theorem reference_braced {name behind : List Char}
    (word : ∀ character ∈ name, isWordCharacter character = true) :
    reference ('\x7b' :: (name ++ '\x7d' :: behind)) =
      .reference true name true ∧
      (splitName ('\x7b' :: (name ++ '\x7d' :: behind))).2 = behind := by
  have ends : ∀ character, ('\x7d' :: behind).head? = some character →
      isWordCharacter character = false := by
    rintro character equal
    cases equal
    decide
  obtain ⟨taken, dropped⟩ := splitRun word ends
  have inner : dropOne '\x7b' ('\x7b' :: (name ++ '\x7d' :: behind)) =
      name ++ '\x7d' :: behind := rfl
  constructor
  · simp only [reference, splitName, inner, taken, dropped]
    rfl
  · simp only [splitName, inner, dropped]
    rfl

/-- What a reference spells is what the piece at its dollar sign refers to, with
a closing brace behind a name without braces left over. -/
theorem refers_dollar_iff {rest name behind : List Char} :
    Refers ('$' :: rest) name behind ↔
      ∃ leftOver, (reference rest).referred? = some (name, leftOver) ∧
        behind = leftOver ++ (splitName rest).2 := by
  constructor
  · intro refers
    cases refers with
    | bare named word ends =>
        obtain ⟨piece, after⟩ := reference_bare named word ends
        obtain ⟨first, others, rfl⟩ := List.exists_cons_of_ne_nil named
        rw [piece, after]
        exact ⟨_, rfl, (optional_append_dropOne _ _).symm⟩
    | braced named word =>
        obtain ⟨piece, after⟩ := reference_braced word
        obtain ⟨first, others, rfl⟩ := List.exists_cons_of_ne_nil named
        rw [piece, after]
        exact ⟨_, rfl, rfl⟩
  · rintro ⟨leftOver, referred, rfl⟩
    obtain ⟨opening, found, closing, shape, word, ends, spelled⟩ :=
      exists_reference rest
    rw [shape] at referred
    generalize (splitName rest).2 = behind at ends spelled
    subst spelled
    unfold Piece.referred? at referred
    -- Only pieces of the two forms refer to a variable.
    split at referred <;> cases referred
    · rename_i named equal
      cases equal
      exact .braced named word
    · rename_i named equal
      cases equal
      exact .bare named word ends

/-- A text refers to one variable at most. -/
theorem Refers.unique {text name otherName behind otherBehind : List Char}
    (refers : Refers text name behind)
    (others : Refers text otherName otherBehind) :
    name = otherName ∧ behind = otherBehind := by
  obtain ⟨rest, rfl⟩ : ∃ rest, text = '$' :: rest := by
    cases refers <;> exact ⟨_, rfl⟩
  obtain ⟨leftOver, referred, rfl⟩ := refers_dollar_iff.mp refers
  obtain ⟨otherLeft, otherReferred, rfl⟩ := refers_dollar_iff.mp others
  rw [referred] at otherReferred
  cases otherReferred
  exact ⟨rfl, rfl⟩

theorem Substituted.unique {bindings : Variables}
    {text result other : List Char} (first : Substituted bindings text result)
    (second : Substituted bindings text other) :
    result = other := by
  induction first generalizing other with
  | nil =>
      cases second with
      | nil => rfl
      | reference refers _ => cases refers
  | reference refers _ induction =>
      cases second with
      | nil => cases refers
      | reference others rest =>
          obtain ⟨rfl, rfl⟩ := refers.unique others
          rw [induction rest]
      | kept plain _ => exact absurd refers (plain _ _)
  | kept plain _ induction =>
      cases second with
      | reference refers _ => exact absurd refers (plain _ _)
      | kept _ rest => rw [induction rest]

private theorem not_refers_of_ne {character : Char} (plain : character ≠ '$')
    (rest name behind : List Char) :
    ¬ Refers (character :: rest) name behind := by
  intro refers
  cases refers <;> exact plain rfl

/-- Characters without a dollar sign are kept in front of any text. -/
theorem Substituted.keep {bindings : Variables} {text result run : List Char}
    (substituted : Substituted bindings text result) (plain : '$' ∉ run) :
    Substituted bindings (run ++ text) (run ++ result) := by
  induction run with
  | nil => exact substituted
  | cons character rest induction =>
      obtain ⟨different, others⟩ := List.ne_and_not_mem_of_not_mem_cons plain
      exact .kept (not_refers_of_ne (Ne.symm different) _) (induction others)

/-- The pieces of a text are substituted one by one. -/
theorem substituted_pieces (bindings : Variables) (text : List Char) :
    Substituted bindings text
      ((pieces text).flatMap (Piece.substituted bindings)) := by
  induction text using pieces.induct with
  | case1 =>
      simp only [pieces, List.flatMap_nil]
      exact .nil
  | case2 rest _ induction =>
      rw [pieces_dollar, List.flatMap_cons, Piece.substituted]
      cases referred : (reference rest).referred? with
      -- The dollar sign refers to nothing, so that the whole piece is kept.
      | none =>
          have kept : ∀ name behind, ¬ Refers ('$' :: rest) name behind := by
            intro name behind refers
            obtain ⟨leftOver, some, -⟩ := refers_dollar_iff.mp refers
            rw [referred] at some
            cases some
          have others := induction.keep (dollar_notMem_tail rest)
          rw [tail_reference] at others
          exact .kept kept others
      | some found =>
          obtain ⟨name, leftOver⟩ := found
          have refers :
              Refers ('$' :: rest) name (leftOver ++ (splitName rest).2) :=
            refers_dollar_iff.mpr ⟨leftOver, referred, rfl⟩
          have others := induction.keep (dollar_notMem_leftOver referred)
          simpa using Substituted.reference refers others
  | case3 character rest plain induction =>
      rw [pieces_of_ne plain, List.flatMap_cons]
      exact .kept (not_refers_of_ne plain rest) induction

/-! ## Where the expansion substitutes -/

namespace Piece

private theorem value_of_isComplete {piece : Piece}
    (complete : piece.isComplete = true) (bindings : Variables) :
    piece.value bindings = piece.substituted bindings := by
  cases piece with
  | plain character => rfl
  | reference opening name closing =>
      cases name with
      | nil => cases complete
      | cons first others =>
          have balanced : opening = closing := by
            simpa [isComplete] using complete
          subst balanced
          cases opening <;> simp [value, substituted, referred?, optional]

private theorem value_le_substituted (piece : Piece) :
    (piece.value []).length ≤ (piece.substituted []).length := by
  cases piece with
  | plain character => exact Nat.le_refl _
  | reference opening name closing => exact Nat.zero_le _

private theorem value_lt_substituted {piece : Piece}
    (incomplete : piece.isComplete = false) :
    (piece.value []).length < (piece.substituted []).length := by
  cases piece with
  | plain character => cases incomplete
  | reference opening name closing =>
      have nothing : value [] (.reference opening name closing) = [] := rfl
      rw [nothing]
      cases name with
      | nil => simp [substituted, referred?, text]
      | cons first others =>
          have unbalanced : opening ≠ closing := by
            simpa [isComplete] using incomplete
          cases opening <;> cases closing <;>
            simp_all [substituted, referred?, text, optional]

end Piece

/-- The expansion replaces the two forms of a reference and keeps all else
exactly where a text has no incomplete pieces. -/
theorem expandText_substituted_iff (text : String) :
    (pieces text.toList).flatMap Piece.text = text.toList ∧
      (∀ bindings,
        (expandText bindings text).toList =
          (pieces text.toList).flatMap (Piece.value bindings) ∧
        ∀ result, Substituted bindings text.toList result ↔
          result = (pieces text.toList).flatMap (Piece.substituted bindings)) ∧
      ((∀ bindings, Substituted bindings text.toList
        (expandText bindings text).toList) ↔
        ∀ piece ∈ pieces text.toList, piece.isComplete = true) := by
  have expanded : ∀ bindings, (expandText bindings text).toList =
      (pieces text.toList).flatMap (Piece.value bindings) := by
    intro bindings
    rw [expandText, String.toList_ofList, expand_eq_value]
  have substituted :
      ∀ bindings result, Substituted bindings text.toList result ↔
      result = (pieces text.toList).flatMap (Piece.substituted bindings) := by
    intro bindings result
    constructor
    · intro other
      exact other.unique (substituted_pieces bindings text.toList)
    · rintro rfl
      exact substituted_pieces bindings text.toList
  refine ⟨text_pieces text.toList, fun bindings =>
    ⟨expanded bindings, substituted bindings⟩, ?_⟩
  constructor
  · intro always piece member
    -- Without variables, an incomplete piece would make the result too short.
    have same := (substituted [] _).mp (always [])
    rw [expanded] at same
    by_contra incomplete
    have shorter : ((pieces text.toList).flatMap (Piece.value [])).length <
        ((pieces text.toList).flatMap (Piece.substituted [])).length := by
      rw [List.length_flatMap, List.length_flatMap]
      exact List.sum_lt_sum _ _ (fun piece _ => piece.value_le_substituted)
        ⟨piece, member,
          Piece.value_lt_substituted (Bool.eq_false_of_not_eq_true incomplete)⟩
    rw [same] at shorter
    exact Nat.lt_irrefl _ shorter
  · intro complete bindings
    rw [substituted, expanded, List.flatMap_def, List.flatMap_def]
    congr 1
    apply List.map_congr_left
    intro piece member
    exact Piece.value_of_isComplete (complete piece member) bindings

/-- A dollar sign alone, a brace behind a name and a brace that stays
open are lost. -/
theorem expandText_swallows :
    expandText [("NAME", "x")] "$ $NAME\x7d $\x7bNAME" = " x x" ∧
      Substituted [("NAME", "x")] "$ $NAME\x7d $\x7bNAME".toList
        "$ x\x7d $\x7bNAME".toList ∧
      ¬ Substituted [("NAME", "x")] "$ $NAME\x7d $\x7bNAME".toList
        " x x".toList := by
  have cut : pieces "$ $NAME\x7d $\x7bNAME".toList =
      [.reference false [] false, .plain ' ',
        .reference false "NAME".toList true, .plain ' ',
        .reference true "NAME".toList false] := by
    decide +kernel
  have expanded : expand [("NAME", "x")] "$ $NAME\x7d $\x7bNAME".toList =
      " x x".toList := by
    rw [expand_eq_value, cut]
    rfl
  have substituted : Substituted [("NAME", "x")] "$ $NAME\x7d $\x7bNAME".toList
      "$ x\x7d $\x7bNAME".toList := by
    have each :=
      substituted_pieces [("NAME", "x")] "$ $NAME\x7d $\x7bNAME".toList
    rwa [cut] at each
  refine ⟨?_, substituted, ?_⟩
  · rw [expandText, expanded, String.ofList_toList]
  · intro other
    exact absurd (substituted.unique other) (by decide)

end Expansion

end CiPipeline
