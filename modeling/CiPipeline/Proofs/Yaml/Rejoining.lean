import CiPipeline.Proofs.Sequencing
import CiPipeline.Yaml.Cursor

/-!
# Texts whose lines are joined again

When the lines of a text are joined with line feeds, the end of its last line
is gone, and so are the carriage returns in front of line feeds.  A reader
that passes visible characters, or the end of a line as a whole, finds the
same in both texts.
-/

namespace CiPipeline.Yaml

/-! ## Characters and texts -/

/-- The characters that end a line. -/
def lineBreaks : List Char :=
  ['\n', '\r', Char.ofNat 0x85, Char.ofNat 0x2028, Char.ofNat 0x2029]

instance (test : Char → Prop) [DecidablePred test] :
    Decidable (∀ character ∈ lineBreaks, test character) :=
  List.decidableBAll test lineBreaks

theorem isBreak_iff {character : Char} :
    isBreak character = true ↔ character ∈ lineBreaks := by
  constructor
  · intro breaks
    simp only [isBreak, Bool.or_eq_true, beq_iff_eq] at breaks
    have numbered {point : Nat} (equal : character.toNat = point) :
        character = Char.ofNat point := by
      rw [← equal, Char.ofNat_toNat]
    rcases breaks with (((rfl | rfl) | point) | point) | point
    · decide
    · decide
    · rw [numbered point]
      decide
    · rw [numbered point]
      decide
    · rw [numbered point]
      decide
  · intro member
    have all : ∀ character ∈ lineBreaks, isBreak character = true := by decide
    exact all character member

/-- A character with a property that no end of a line has is visible. -/
theorem visible_of_test {character : Char} (test : Char → Bool)
    (ends : ∀ character ∈ lineBreaks, test character = false)
    (holds : test character = true) :
    isBreak character = false := by
  cases breaks : isBreak character with
  | false => rfl
  | true => cases holds.symm.trans (ends character (isBreak_iff.mp breaks))

/-- The end of a line, with or without a carriage return. -/
inductive LineEnd : List Char → Prop where
  | feed : LineEnd ['\n']
  | returnFeed : LineEnd ['\r', '\n']

/-- A text, and what becomes of it when its lines are joined again. -/
inductive Rejoined : List Char → List Char → Prop where
  | nothing : Rejoined [] []
  | lastEnd {ending : List Char} : LineEnd ending → Rejoined ending []
  | lineEnd {ending left right : List Char} :
      LineEnd ending → left ≠ [] → Rejoined left right →
      Rejoined (ending ++ left) ('\n' :: right)
  | character {character : Char} {left right : List Char} :
      character ≠ '\n' →
      (character = '\r' → left.head? ≠ some '\n' ∧ right.head? ≠ some '\n') →
      Rejoined left right → Rejoined (character :: left) (character :: right)

namespace Rejoined

variable {left right : List Char} {character : Char}

private theorem of_nil (rejoined : Rejoined [] right) : right = [] := by
  generalize empty : ([] : List Char) = whole at rejoined
  cases rejoined with
  | nothing => exact empty.symm
  | lastEnd isEnd => cases isEnd <;> cases empty
  | lineEnd isEnd => cases isEnd <;> cases empty
  | character => cases empty

/-- A character that does not end a line stands in both texts. -/
theorem of_visible (visible : isBreak character = false)
    (rejoined : Rejoined (character :: left) right) :
    ∃ rest, right = character :: rest ∧ Rejoined left rest := by
  generalize shape : character :: left = whole at rejoined
  cases rejoined with
  | nothing => cases shape
  | lastEnd isEnd =>
      cases isEnd <;> cases shape <;> cases visible
  | lineEnd isEnd =>
      cases isEnd <;> cases shape <;> cases visible
  | character _ _ further =>
      cases shape
      exact ⟨_, rfl, further⟩

private theorem visible_of_right (visible : isBreak character = false)
    (rejoined : Rejoined left (character :: right)) :
    ∃ rest, left = character :: rest ∧ Rejoined rest right := by
  generalize shape : character :: right = whole at rejoined
  cases rejoined with
  | nothing => cases shape
  | lastEnd => cases shape
  | lineEnd => cases shape; cases visible
  | character _ _ further =>
      cases shape
      exact ⟨_, rfl, further⟩

/-- A test that does not tell the end of a line from the end of the text finds
the same in both texts. -/
theorem test_head? (rejoined : Rejoined left right) {test : Option Char → Bool}
    (ends : ∀ character ∈ lineBreaks, test (some character) = test none) :
    test left.head? = test right.head? := by
  cases rejoined with
  | nothing => rfl
  | lastEnd isEnd => cases isEnd <;> exact ends _ (by decide)
  | lineEnd isEnd =>
      cases isEnd with
      | feed => rfl
      | returnFeed =>
          exact (ends '\r' (by decide)).trans (ends '\n' (by decide)).symm
  | character => rfl

theorem take (rejoined : Rejoined left right) (count : Nat)
    (visible : ∀ character ∈ left.take count, isBreak character = false) :
    right.take count = left.take count := by
  induction count generalizing left right with
  | zero => rfl
  | succ count induction =>
      cases left with
      | nil => rw [rejoined.of_nil]
      | cons first left =>
          obtain ⟨right, rfl, further⟩ :=
            rejoined.of_visible (visible first (by simp))
          have others := induction further fun other member =>
            visible other (by simp [member])
          rw [List.take_succ_cons, List.take_succ_cons, others]

private theorem takeWhile (rejoined : Rejoined left right)
    {condition : Char → Bool}
    (ends : ∀ character ∈ lineBreaks, condition character = false) :
    left.takeWhile condition = right.takeWhile condition ∧
      Rejoined (left.dropWhile condition) (right.dropWhile condition) := by
  induction rejoined with
  | nothing => exact ⟨rfl, .nothing⟩
  | lastEnd isEnd =>
      cases isEnd with
      | feed =>
          have stops := ends '\n' (by decide)
          simp only [List.takeWhile, List.dropWhile, stops]
          exact ⟨trivial, .lastEnd .feed⟩
      | returnFeed =>
          have stops := ends '\r' (by decide)
          simp only [List.takeWhile, List.dropWhile, stops]
          exact ⟨trivial, .lastEnd .returnFeed⟩
  | lineEnd isEnd notLast further =>
      have stops := ends '\n' (by decide)
      cases isEnd with
      | feed =>
          simp only [List.cons_append, List.nil_append, List.takeWhile,
            List.dropWhile, stops]
          exact ⟨trivial, .lineEnd .feed notLast further⟩
      | returnFeed =>
          have alsoStops := ends '\r' (by decide)
          simp only [List.cons_append, List.nil_append, List.takeWhile,
            List.dropWhile, stops, alsoStops]
          exact ⟨trivial, .lineEnd .returnFeed notLast further⟩
  | @character character left right noFeed noReturn further induction =>
      cases holds : condition character with
      | true =>
          simp only [List.takeWhile, List.dropWhile, holds]
          exact ⟨congrArg _ induction.1, induction.2⟩
      | false =>
          simp only [List.takeWhile, List.dropWhile, holds]
          exact ⟨trivial, .character noFeed noReturn further⟩

end Rejoined

/-! ## Cursors -/

namespace Cursor

/-- Cursors at the same place of a text and of its joined lines. -/
structure Follows (left right : Cursor) : Prop where
  rest : Rejoined left.rest right.rest
  line : left.line = right.line
  column : left.column = right.column

/-- Two cursors that went on alike, over a number of characters at least.
Carriage returns are counted in the one text only, so that places are as far
apart only on one line. -/
structure Passes (count : Nat)
    (left right newLeft newRight : Cursor) : Prop where
  follows : newLeft.Follows newRight
  forward : left.line ≤ newLeft.line
  index : newLeft.line = left.line →
    newLeft.index + right.index = newRight.index + left.index
  leftPassed : newLeft.rest.length + count ≤ left.rest.length
  rightPassed : newRight.rest.length + count ≤ right.rest.length

/-- Two cursors that reached the ends of their texts, the first one over the end
of a line. -/
structure Ends (left newLeft newRight : Cursor) : Prop where
  leftEnd : newLeft.rest = []
  rightEnd : newRight.rest = []
  line : left.line < newLeft.line

variable {left right newLeft newRight lastLeft lastRight : Cursor}
  {character : Char} {count further : Nat}

theorem Passes.refl (follows : left.Follows right) :
    Passes 0 left right left right := by
  constructor
  · exact follows
  · exact Nat.le_refl _
  · intro _
    omega
  · exact Nat.le_refl _
  · exact Nat.le_refl _

theorem Passes.trans (first : Passes count left right newLeft newRight)
    (second : Passes further newLeft newRight lastLeft lastRight) :
    Passes (count + further) left right lastLeft lastRight := by
  have firstForward := first.forward
  have secondForward := second.forward
  have firstLeft := first.leftPassed
  have secondLeft := second.leftPassed
  have firstRight := first.rightPassed
  have secondRight := second.rightPassed
  constructor
  · exact second.follows
  · omega
  · intro sameLine
    have firstIndex := first.index (by omega)
    have secondIndex := second.index (by omega)
    omega
  · omega
  · omega

theorem Passes.weaken (passes : Passes count left right newLeft newRight)
    (fewer : further ≤ count) : Passes further left right newLeft newRight := by
  have leftPassed := passes.leftPassed
  have rightPassed := passes.rightPassed
  exact ⟨passes.follows, passes.forward, passes.index, by omega, by omega⟩

theorem Passes.left_lt {fuel : Nat}
    (passes : Passes 1 left right newLeft newRight)
    (enough : left.rest.length < fuel + 1) : newLeft.rest.length < fuel :=
  Nat.lt_of_lt_of_le passes.leftPassed (Nat.le_of_lt_succ enough)

theorem Passes.right_lt {fuel : Nat}
    (passes : Passes 1 left right newLeft newRight)
    (enough : right.rest.length < fuel + 1) : newRight.rest.length < fuel :=
  Nat.lt_of_lt_of_le passes.rightPassed (Nat.le_of_lt_succ enough)

theorem Ends.after (passes : Passes count left right newLeft newRight)
    (ends : Ends newLeft lastLeft lastRight) : Ends left lastLeft lastRight :=
  ⟨ends.leftEnd, ends.rightEnd, Nat.lt_of_le_of_lt passes.forward ends.line⟩

/-! ### Tests of what follows -/

theorem Follows.test_peek (follows : left.Follows right)
    (test : Option Char → Bool)
    (ends : ∀ character ∈ lineBreaks, test (some character) = test none) :
    test left.peek = test right.peek :=
  follows.rest.test_head? ends

theorem Follows.at_ (follows : left.Follows right)
    (visible : ∀ other ∈ lineBreaks, (other == character) = false) :
    left.at_ character = right.at_ character := by
  apply follows.test_peek (fun next => next == some character)
  intro other member
  simpa using visible other member

theorem Follows.rest_nil (follows : left.Follows right)
    (atEnd : left.peek = none) :
    right.rest = [] := by
  have rejoined := follows.rest
  rw [List.head?_eq_none_iff.mp atEnd] at rejoined
  exact rejoined.of_nil

theorem Follows.peek (follows : left.Follows right)
    (stands : left.peek = some character)
    (visible : isBreak character = false) : right.peek = some character := by
  obtain ⟨rest, shape⟩ : ∃ rest, left.rest = character :: rest :=
    List.head?_eq_some_iff.mp stands
  obtain ⟨other, otherShape, _⟩ := (shape ▸ follows.rest).of_visible visible
  rw [Cursor.peek, otherShape]
  rfl

theorem Follows.any_isBreak_eq_false (follows : left.Follows right)
    (noBreak : left.peek.any isBreak = false) :
    right.peek.any isBreak = false := by
  cases stands : left.peek with
  | none =>
      rw [Cursor.peek, follows.rest_nil stands]
      rfl
  | some character =>
      rw [stands] at noBreak
      rw [follows.peek stands noBreak]
      exact noBreak

/-- What stands behind a visible character is tested alike. -/
theorem Follows.test_peekAt (follows : left.Follows right)
    (stands : left.peek = some character)
    (visible : isBreak character = false) (test : Option Char → Bool)
    (ends : ∀ character ∈ lineBreaks, test (some character) = test none) :
    test (left.peekAt 1) = test (right.peekAt 1) := by
  obtain ⟨rest, shape⟩ : ∃ rest, left.rest = character :: rest :=
    List.head?_eq_some_iff.mp stands
  obtain ⟨other, otherShape, further⟩ :=
    (shape ▸ follows.rest).of_visible visible
  have tested := further.test_head? ends
  rw [List.head?_eq_getElem?, List.head?_eq_getElem?] at tested
  simpa [Cursor.peekAt, shape, otherShape] using tested

theorem Follows.atIndicator (follows : left.Follows right)
    (visible : isBreak character = false) :
    left.atIndicator character = right.atIndicator character := by
  have opens (test : List Char → Bool)
      (alike : ∀ left right, Rejoined left right → test left = test right) :
      ∀ left right, Rejoined left right →
        (left.head? == some character && test left.tail) =
          (right.head? == some character && test right.tail) := by
    intro left right rejoined
    cases left with
    | nil => rw [rejoined.of_nil]
    | cons first left =>
        by_cases same : first = character
        · subst same
          obtain ⟨right, rfl, further⟩ := rejoined.of_visible visible
          simp [alike left right further]
        · have other : right.head? ≠ some character := by
            intro stands
            obtain ⟨right, rfl⟩ : ∃ rest, right = character :: rest :=
              List.head?_eq_some_iff.mp stands
            obtain ⟨_, shape, _⟩ := rejoined.visible_of_right visible
            exact same (List.cons.inj shape).1
          have notFirst : (first == character) = false := by simpa using same
          have notOther : (right.head? == some character) = false := by
            simpa using other
          simp [notFirst, notOther]
  have blankOrEnd : ∀ left right, Rejoined left right →
      isBlankOrEnd left.head? = isBlankOrEnd right.head? :=
    fun left right rejoined => rejoined.test_head? (by decide)
  have alike := opens _ (opens _ (opens _ blankOrEnd)) _ _ follows.rest
  simp only [List.head?_eq_getElem?, List.getElem?_tail] at alike
  simp only [Cursor.atIndicator, Cursor.peek, Cursor.peekAt, follows.column,
    List.head?_eq_getElem?, Bool.and_assoc, alike]

theorem Follows.atDocumentBoundary (follows : left.Follows right) :
    left.atDocumentBoundary = right.atDocumentBoundary := by
  rw [Cursor.atDocumentBoundary, Cursor.atDocumentBoundary,
    follows.atIndicator (by decide), follows.atIndicator (by decide)]

theorem peek_advance (cursor : Cursor) :
    cursor.advance.peek = cursor.peekAt 1 := by
  obtain ⟨rest, index, line, column⟩ := cursor
  cases rest with
  | nil => rfl
  | cons first rest =>
      simp [Cursor.advance, Cursor.peek, Cursor.peekAt, List.head?_eq_getElem?]

theorem prefix_of_peekAt {cursor : Cursor} {next : Char}
    (stands : cursor.peek = some character)
    (behind : cursor.peekAt 1 = some next) :
    [character, next] <+: cursor.rest := by
  obtain ⟨rest, shape⟩ : ∃ rest, cursor.rest = character :: rest :=
    List.head?_eq_some_iff.mp stands
  rw [Cursor.peekAt, shape, List.getElem?_cons_succ, ← List.head?_eq_getElem?]
    at behind
  obtain ⟨rest, rfl⟩ := List.head?_eq_some_iff.mp behind
  exact ⟨rest, shape.symm⟩

/-! ### Steps within a line -/

theorem Follows.advance (follows : left.Follows right)
    (stands : left.peek = some character)
    (visible : isBreak character = false) :
    Passes 1 left right left.advance right.advance := by
  obtain ⟨rest, index, line, column⟩ := left
  obtain ⟨_, otherIndex, _, _⟩ := right
  obtain ⟨rejoined, rfl, rfl⟩ := follows
  obtain ⟨rest, rfl⟩ := List.head?_eq_some_iff.mp stands
  obtain ⟨other, rfl, further⟩ := rejoined.of_visible visible
  refine ⟨⟨further, rfl, rfl⟩, Nat.le_refl _, ?_, ?_, ?_⟩
  · intro _
    simp only [Cursor.advance]
    omega
  · simp [Cursor.advance]
  · simp [Cursor.advance]

/-- Passing characters that are known to stand in a line. -/
theorem Follows.advanceBy {characters : List Char}
    (follows : left.Follows right) (stand : characters <+: left.rest)
    (visible : ∀ character ∈ characters, isBreak character = false) :
    Passes characters.length left right (left.advanceBy characters.length)
      (right.advanceBy characters.length) := by
  induction characters generalizing left right with
  | nil => exact .refl follows
  | cons character characters induction =>
      obtain ⟨rest, shape⟩ := stand
      have stands : left.peek = some character := by
        rw [Cursor.peek, ← shape]
        rfl
      have first := follows.advance stands (visible character (by simp))
      have further : characters <+: left.advance.rest := by
        refine ⟨rest, ?_⟩
        rw [Cursor.advance, ← shape]
        rfl
      have others := induction first.follows further
        (fun other member => visible other (by simp [member]))
      exact (first.trans others).weaken (by simp [Nat.add_comm])

/-- Passing the three characters that start or end a document. -/
theorem Follows.advanceIndicator (follows : left.Follows right)
    (boundary : left.atIndicator character = true)
    (visible : isBreak character = false) :
    Passes 1 left right (left.advanceBy 3) (right.advanceBy 3) := by
  obtain ⟨rest, index, line, column⟩ := left
  simp only [Cursor.atIndicator, Cursor.peek, Cursor.peekAt, Bool.and_eq_true,
    beq_iff_eq] at boundary
  obtain ⟨⟨⟨⟨_, first⟩, second⟩, third⟩, _⟩ := boundary
  have stand : [character, character, character] <+: rest := by
    rcases rest with _ | ⟨_, _ | ⟨_, _ | ⟨_, rest⟩⟩⟩
    · cases first
    · cases second
    · cases third
    · cases first
      cases second
      cases third
      exact ⟨rest, rfl⟩
  exact (follows.advanceBy stand (by simpa using visible)).weaken (by simp)

theorem Follows.takeWhile (follows : left.Follows right)
    (condition : Char → Bool)
    (ends : ∀ character ∈ lineBreaks, condition character = false) :
    (left.takeWhile condition).1 = (right.takeWhile condition).1 ∧
      Passes 0 left right (left.takeWhile condition).2
        (right.takeWhile condition).2 := by
  obtain ⟨sameTaken, further⟩ := follows.rest.takeWhile ends
  refine ⟨sameTaken, ⟨further, follows.line, ?_⟩, Nat.le_refl _, ?_, ?_, ?_⟩
  · simp only [Cursor.takeWhile, sameTaken, follows.column]
  · intro _
    simp only [Cursor.takeWhile, sameTaken]
    omega
  · exact (List.dropWhile_suffix condition).length_le
  · exact (List.dropWhile_suffix condition).length_le

theorem Follows.advanceSpaces (follows : left.Follows right) {spaces : Nat}
    (stand : spaces ≤ (left.takeWhile (· == ' ')).1.length) :
    Passes 0 left right (left.advanceBy spaces) (right.advanceBy spaces) := by
  have counted :
      ((left.rest.takeWhile (· == ' ')).take spaces).length = spaces :=
    List.length_take_of_le stand
  have prefixes : (left.rest.takeWhile (· == ' ')).take spaces <+: left.rest :=
    (List.take_prefix _ _).trans (List.takeWhile_prefix _)
  have passes := follows.advanceBy prefixes (by
    intro character member
    have space :=
      List.all_eq_true.mp List.all_takeWhile _ (List.mem_of_mem_take member)
    rw [beq_iff_eq.mp space]
    decide)
  rw [counted] at passes
  exact passes.weaken (Nat.zero_le _)

private theorem length_takeWhile_lt {cursor : Cursor} {condition : Char → Bool}
    (stands : cursor.peek = some character)
    (holds : condition character = true) :
    (cursor.takeWhile condition).2.rest.length < cursor.rest.length := by
  obtain ⟨rest, shape⟩ : ∃ rest, cursor.rest = character :: rest :=
    List.head?_eq_some_iff.mp stands
  show (cursor.rest.dropWhile condition).length < cursor.rest.length
  rw [shape, List.dropWhile_cons_of_pos holds]
  exact Nat.lt_succ_of_le (List.dropWhile_suffix condition).length_le

/-- Passing a line of which a character is left. -/
theorem Follows.takeLine (follows : left.Follows right)
    (stands : left.peek = some character)
    (visible : isBreak character = false) :
    Passes 1 left right (left.takeWhile fun character => !isBreak character).2
      (right.takeWhile fun character => !isBreak character).2 := by
  have passes :=
    (follows.takeWhile (fun character => !isBreak character) (by decide)).2
  have taken : (!isBreak character) = true := by rw [visible, Bool.not_false]
  exact ⟨passes.follows, passes.forward, passes.index,
    length_takeWhile_lt stands taken,
    length_takeWhile_lt (follows.peek stands visible) taken⟩

theorem peek_takeWhile {cursor : Cursor} {condition : Char → Bool}
    (stands : (cursor.takeWhile condition).2.peek = some character) :
    condition character = false := by
  have stops := List.head?_dropWhile_not condition cursor.rest
  rw [show (cursor.rest.dropWhile condition).head? = some character from stands]
    at stops
  exact stops

theorem Follows.dropWhile (follows : left.Follows right)
    (condition : Char → Bool)
    (ends : ∀ character ∈ lineBreaks, condition character = false) :
    Passes 0 left right (left.dropWhile condition)
      (right.dropWhile condition) :=
  (follows.takeWhile condition ends).2

theorem Follows.dropComment (follows : left.Follows right) :
    Passes 0 left right left.dropComment right.dropComment := by
  unfold Cursor.dropComment
  rw [← follows.at_ (by decide)]
  split
  · exact follows.dropWhile _ (by decide)
  · exact .refl follows

/-! ### Steps over the end of a line -/

theorem advanceLine_nil {cursor : Cursor} (atEnd : cursor.rest = []) :
    cursor.advanceLine = cursor := by
  rw [Cursor.advanceLine, atEnd]

theorem breakText_nil {cursor : Cursor} (atEnd : cursor.rest = []) :
    cursor.breakText = [] := by
  rw [Cursor.breakText, atEnd]

/-- What becomes of two cursors at the end of a line that the
first one passes. -/
inductive Breaks (left right : Cursor) : Prop where
  /-- Both lines end. -/
  | both (character : Char) :
      right.peek = some character → isBreak character = true →
        left.breakText = right.breakText →
      Passes 1 left right left.advanceLine right.advanceLine → Breaks left right
  /-- The end of the last line is gone. -/
  | last :
      right.rest = [] → left.breakText = ['\n'] → left.advanceLine.column = 0 →
      Ends left left.advanceLine right → Breaks left right

private theorem advanceLine_single {rest : List Char}
    (isEnd : isBreak character = true)
    (single : character = '\r' → rest.head? ≠ some '\n')
    (index line column : Nat) :
    advanceLine ⟨character :: rest, index, line, column⟩ =
      ⟨rest, index + 1, line + 1, 0⟩ := by
  unfold advanceLine
  split
  · rename_i shape
    obtain ⟨rfl, rfl⟩ := List.cons.inj shape
    exact (single rfl rfl).elim
  · rename_i shape
    obtain ⟨rfl, rfl⟩ := List.cons.inj shape
    rw [if_pos isEnd]
  · rename_i shape
    cases shape

theorem Follows.breaks (follows : left.Follows right)
    (stands : left.peek = some character) (isEnd : isBreak character = true) :
    Breaks left right := by
  obtain ⟨text, index, line, column⟩ := left
  obtain ⟨otherText, otherIndex, _, _⟩ := right
  obtain ⟨rejoined, rfl, rfl⟩ := follows
  cases rejoined with
  | nothing => cases stands
  | lastEnd ending =>
      refine .last rfl ?_ ?_ ⟨?_, rfl, ?_⟩
      · cases ending <;> rfl
      · cases ending <;> rfl
      · cases ending <;> rfl
      · cases ending <;> exact Nat.lt_succ_self _
  | @lineEnd ending rest otherRest lineEnd notLast further =>
      have noReturn (rest : List Char) : '\n' = '\r' → rest.head? ≠ some '\n' :=
        fun equal => absurd equal (by decide)
      have right := advanceLine_single (by decide) (noReturn otherRest)
        otherIndex line column
      refine .both '\n' rfl (by decide) ?_ ?_
      · cases lineEnd <;> rfl
      · rw [right]
        cases lineEnd with
        | feed =>
            have left :=
              advanceLine_single (by decide) (noReturn rest) index line column
            show Passes 1 ⟨'\n' :: rest, _, _, _⟩ _
              (advanceLine ⟨'\n' :: rest, _, _, _⟩) _
            rw [left]
            refine ⟨⟨further, rfl, rfl⟩, Nat.le_succ _, ?_, Nat.le_refl _,
              Nat.le_refl _⟩
            intro sameLine
            simp at sameLine
        | returnFeed =>
            refine ⟨⟨further, rfl, rfl⟩, Nat.le_succ _, ?_, Nat.le_succ _,
              Nat.le_refl _⟩
            intro sameLine
            simp [advanceLine] at sameLine
  | @character character rest otherRest noFeed noReturn further =>
      cases stands
      have left := advanceLine_single isEnd
        (fun isReturn => (noReturn isReturn).1) index line column
      have right := advanceLine_single isEnd
        (fun isReturn => (noReturn isReturn).2) otherIndex line column
      refine .both _ rfl isEnd rfl ?_
      rw [left, right]
      refine ⟨⟨further, rfl, rfl⟩, Nat.le_succ _, ?_, Nat.le_refl _,
        Nat.le_refl _⟩
      intro sameLine
      simp at sameLine

/-- Passing the end of a line, or staying at the end of the text. -/
theorem Follows.advanceLine (follows : left.Follows right)
    (atEnd : isBreakOrEnd left.peek = true) :
    Passes 0 left right left.advanceLine right.advanceLine ∨
      Ends left left.advanceLine right.advanceLine := by
  cases stands : left.peek with
  | none =>
      rw [advanceLine_nil (List.head?_eq_none_iff.mp stands),
        advanceLine_nil (follows.rest_nil stands)]
      exact .inl (.refl follows)
  | some character =>
      rw [stands] at atEnd
      cases follows.breaks stands atEnd with
      | both _ _ _ _ passes => exact .inl (passes.weaken (Nat.zero_le 1))
      | last rightEnd _ _ ends =>
          rw [advanceLine_nil rightEnd]
          exact .inr ends

end Cursor

/-! ## Readers -/

section Readers

open Cursor Sequencing

variable {Value Result : Type} {left right : Cursor} {count total : Nat}
  {read other : Except YamlError (Value × Cursor)}

/-- The same value is read at both cursors, which go on alike. -/
def ReadsAlike (count : Nat) (left right : Cursor)
    (first second : Value × Cursor) : Prop :=
  second.1 = first.1 ∧ Passes count left right first.2 second.2

/-- What is read alike behind some characters is read alike from in
front of them. -/
theorem ReadsAlike.after {nextLeft nextRight : Cursor}
    (passes : Passes count left right nextLeft nextRight)
    (tracks : Tracks (ReadsAlike 0 nextLeft nextRight) read other)
    (fewer : total ≤ count) :
    Tracks (ReadsAlike total left right) read other := by
  apply tracks.mono
  intro first second alike
  exact ⟨alike.1, (passes.trans alike.2).weaken fewer⟩

theorem ReadsAlike.bind
    (first : Tracks (ReadsAlike count left right) read other)
    {next otherNext : Value × Cursor → Except YamlError (Result × Cursor)}
    (second : ∀ value newLeft newRight,
      Passes count left right newLeft newRight →
      Tracks (ReadsAlike 0 newLeft newRight) (next (value, newLeft))
        (otherNext (value, newRight)))
    (fewer : total ≤ count) :
    Tracks (ReadsAlike total left right) (read >>= next)
        (other >>= otherNext) := by
  apply first.bind
  rintro ⟨_, newLeft⟩ ⟨value, newRight⟩ ⟨rfl, passes⟩
  exact ReadsAlike.after passes (second value newLeft newRight passes) fewer

end Readers

end CiPipeline.Yaml
