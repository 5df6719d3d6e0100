import CiPipeline.Proofs.Yaml.Scalars

/-!
# Block scalars of texts whose lines are joined again

A block scalar ends in front of a line, or with the text.  In the second case
the end of its last line is missing from the joined lines, and its text may be
shorter by this line feed.
-/

namespace CiPipeline.Yaml

open Cursor Sequencing

variable {left right : Cursor} {character : Char} {fuel otherFuel : Nat}
  {indent : Option Nat}

/-! ## Headers -/

private theorem readChomping_tracks (follows : left.Follows right) :
    (readChomping left = none ∧ readChomping right = none) ∨
      ∃ chomping newLeft newRight,
        readChomping left = some (chomping, newLeft) ∧
        readChomping right = some (chomping, newRight) ∧
        Passes 1 left right newLeft newRight := by
  unfold readChomping
  rw [← follows.at_ (by decide), ← follows.at_ (by decide)]
  cases plus : left.at_ '+' with
  | true =>
      exact .inr ⟨_, _, _, rfl, rfl,
        follows.advance (beq_iff_eq.mp plus) (by decide)⟩
  | false =>
      cases minus : left.at_ '-' with
      | true =>
          exact .inr ⟨_, _, _, rfl, rfl,
            follows.advance (beq_iff_eq.mp minus) (by decide)⟩
      | false => exact .inl ⟨rfl, rfl⟩

private theorem readIndentation_of_noDigit {cursor : Cursor}
    (noDigit : cursor.peek.any Char.isDigit = false) :
    readIndentation cursor = .ok (none, cursor) := by
  unfold readIndentation
  cases stands : cursor.peek with
  | none => rfl
  | some character =>
      rw [stands, Option.any_some] at noDigit
      have notZero : (character == '0') = false := by
        rw [beq_eq_false_iff_ne]
        rintro rfl
        cases noDigit
      simp [notZero, noDigit]

private theorem readIndentation_tracks (follows : left.Follows right) :
    Tracks (ReadsAlike 0 left right) (readIndentation left)
      (readIndentation right) := by
  cases digit : left.peek.any Char.isDigit with
  | false =>
      rw [readIndentation_of_noDigit digit]
      rw [follows.test_peek (fun next => next.any Char.isDigit) (by decide)]
        at digit
      rw [readIndentation_of_noDigit digit]
      exact .ok ⟨rfl, .refl follows⟩
  | true =>
      obtain ⟨character, stands, isDigit⟩ := (Option.any_eq_true _ _).mp digit
      have visible := visible_of_test Char.isDigit (by decide) isDigit
      unfold readIndentation
      rw [stands, follows.peek stands visible]
      have passes := (follows.advance stands visible).weaken (Nat.zero_le 1)
      exact .ite (fun _ => .error _ _) fun _ =>
        .ite (fun _ => .ok ⟨rfl, passes⟩) fun _ => .ok ⟨rfl, .refl follows⟩

/-- The same indicators are read at both cursors. -/
def HeadersAlike (left right : Cursor)
    (first second : Chomping × Option Nat × Cursor) : Prop :=
  second.1 = first.1 ∧ second.2.1 = first.2.1 ∧
    Passes 0 left right first.2.2 second.2.2

private theorem readHeader_tracks (follows : left.Follows right) :
    Tracks (HeadersAlike left right) (readHeader left) (readHeader right) := by
  unfold readHeader
  rcases readChomping_tracks follows with ⟨none, otherNone⟩ |
    ⟨chomping, newLeft, newRight, some, otherSome, passes⟩
  · rw [none, otherNone]
    apply (readIndentation_tracks follows).bind
    rintro ⟨_, newLeft⟩ ⟨increment, newRight⟩ ⟨rfl, passes⟩
    cases increment with
    | none => exact .ok ⟨rfl, rfl, passes⟩
    | some increment =>
        rcases readChomping_tracks passes.follows with ⟨noMore, otherNoMore⟩ |
          ⟨chomping, lastLeft, lastRight, more, otherMore, further⟩
        · simp only [noMore, otherNoMore]
          exact .ok ⟨rfl, rfl, passes⟩
        · simp only [more, otherMore]
          exact .ok ⟨rfl, rfl, (passes.trans further).weaken (Nat.zero_le _)⟩
  · rw [some, otherSome]
    apply (readIndentation_tracks passes.follows).bind
    rintro ⟨_, lastLeft⟩ ⟨increment, lastRight⟩ ⟨rfl, further⟩
    exact .ok ⟨rfl, rfl, (passes.trans further).weaken (Nat.zero_le _)⟩

/-! ## Lines -/

/-- What is passed in front of a line of a block scalar.  Where the texts end,
the second one is by the end of a line shorter. -/
def BreaksAlike (left right : Cursor)
    (first second : Nat × List Char × Cursor) : Prop :=
  second.1 = first.1 ∧
    ((second.2.1 = first.2.1 ∧ Passes 0 left right first.2.2 second.2.2 ∧
        first.2.2.peek.any isBreak = false) ∨
      (first.2.1 = '\n' :: second.2.1 ∧ Ends left first.2.2 second.2.2))

/-- The number of spaces that are passed as indentation. -/
def indentation (indent : Option Nat) (cursor : Cursor) : Nat :=
  match indent with
  | none => (cursor.takeWhile (· == ' ')).1.length
  | some indent =>
      min (indent - cursor.column) (cursor.takeWhile (· == ' ')).1.length

private theorem readBlockBreaks_succ (deepest : Nat) (breaks : List Char)
    (cursor : Cursor) :
    readBlockBreaks indent (fuel + 1) deepest breaks cursor =
      let next := cursor.advanceBy (indentation indent cursor)
      if indent.all (next.column < ·) && next.at_ '\t' then .error .misplacedTab
      else if next.peek.any isBreak then
        readBlockBreaks indent fuel (max deepest next.column)
          (next.breakText ++ breaks) next.advanceLine
      else .ok (max deepest next.column, breaks, next) :=
  rfl

private theorem passes_indentation (follows : left.Follows right)
    (indent : Option Nat) :
    Passes 0 left right (left.advanceBy (indentation indent left))
      (right.advanceBy (indentation indent right)) := by
  have spaces := (follows.takeWhile (· == ' ') (by decide)).1
  cases indent with
  | none =>
      show Passes 0 left right _
        (right.advanceBy (right.takeWhile (· == ' ')).1.length)
      rw [← spaces]
      exact follows.advanceSpaces (Nat.le_refl _)
  | some indent =>
      show Passes 0 left right _
        (right.advanceBy
          (min (indent - right.column) (right.takeWhile (· == ' ')).1.length))
      rw [← spaces, ← follows.column]
      exact follows.advanceSpaces (Nat.min_le_right _ _)

private theorem readBlockBreaks_nil {cursor : Cursor} (atEnd : cursor.rest = [])
    (indent : Option Nat) (fuel deepest : Nat) (breaks : List Char) :
    ∃ column, readBlockBreaks indent fuel deepest breaks cursor =
      .ok (column, breaks, cursor) ∧
      (cursor.column ≤ deepest → column = deepest) := by
  cases fuel with
  | zero => exact ⟨deepest, rfl, fun _ => rfl⟩
  | succ fuel =>
      obtain ⟨rest, index, line, column⟩ := cursor
      subst atEnd
      refine ⟨max deepest column, ?_, fun reached => Nat.max_eq_left reached⟩
      have nothing : indentation indent ⟨[], index, line, column⟩ = 0 := by
        cases indent with
        | none => rfl
        | some indent => exact Nat.min_zero _
      rw [readBlockBreaks_succ, nothing]
      simp [Cursor.advanceBy, Cursor.at_, Cursor.peek]

private theorem readBlockBreaks_tracks (follows : left.Follows right)
    (enough : left.rest.length < fuel)
    (otherEnough : right.rest.length < otherFuel) (deepest : Nat)
    (breaks : List Char) :
    Tracks (BreaksAlike left right) (readBlockBreaks indent fuel deepest breaks
      left) (readBlockBreaks indent otherFuel deepest breaks right) := by
  induction fuel generalizing left right otherFuel deepest breaks with
  | zero => cases enough
  | succ fuel induction =>
      obtain ⟨otherFuel, rfl⟩ :=
        Nat.exists_eq_succ_of_ne_zero (Nat.ne_zero_of_lt otherEnough)
      have spaces := passes_indentation follows indent
      rw [readBlockBreaks_succ, readBlockBreaks_succ]
      generalize left.advanceBy (indentation indent left) = nextLeft at spaces ⊢
      generalize right.advanceBy (indentation indent right) =
        nextRight at spaces ⊢
      dsimp only
      rw [← spaces.follows.column, ← spaces.follows.at_ (by decide)]
      refine .ite (fun _ => .error _ _) fun _ => ?_
      cases ended : nextLeft.peek.any isBreak with
      | false =>
          rw [spaces.follows.any_isBreak_eq_false ended]
          exact .ok ⟨rfl, .inl ⟨rfl, spaces, ended⟩⟩
      | true =>
          obtain ⟨character, stands, isEnd⟩ :=
            (Option.any_eq_true isBreak _).mp ended
          rw [if_pos rfl]
          cases spaces.follows.breaks stands isEnd with
          | both other otherStands otherIsEnd sameText passes =>
              rw [otherStands, Option.any_some, otherIsEnd,
                if_pos rfl, ← sameText]
              have further := spaces.trans passes
              apply (induction passes.follows (further.left_lt enough)
                (further.right_lt otherEnough) _ _).mono
              rintro first second
                ⟨same, ⟨sameBreaks, last, noBreak⟩ | ⟨longer, ends⟩⟩
              · have whole := (further.trans last).weaken (Nat.zero_le _)
                exact ⟨same, .inl ⟨sameBreaks, whole, noBreak⟩⟩
              · exact ⟨same, .inr ⟨longer, ends.after further⟩⟩
          | last otherEnd feed first ends =>
              obtain ⟨column, read, reached⟩ :=
                readBlockBreaks_nil ends.leftEnd indent fuel
                (max deepest nextLeft.column) (nextLeft.breakText ++ breaks)
              rw [read, reached (by rw [first]; exact Nat.zero_le _),
                Cursor.peek, otherEnd, feed]
              exact .ok ⟨rfl, .inr ⟨rfl, ends.after spaces⟩⟩

/-! ## Whole block scalars -/

/-- A block scalar with one more line, its end and the empty lines behind it. -/
def Block.addLine (literal startsBlank : Bool) (block : Block)
    (line lastBreak emptyLines : List Char) : Block :=
  let folds :=
    !literal && block.lastBreak == ['\n'] && !block.blankLine && !startsBlank
  let break_ := if folds then
    (if block.emptyLines.isEmpty then [' '] else []) else block.lastBreak
  { text := line.reverse ++ block.emptyLines ++ break_ ++ block.text,
    lastBreak, emptyLines,
    blankLine := startsBlank }

private theorem readBlockLines_succ (literal : Bool) (indent : Nat)
    (block : Block) (cursor : Cursor) :
    readBlockLines literal indent (fuel + 1) block cursor =
      if cursor.column != indent || cursor.rest.isEmpty then .ok (block, cursor)
      else
        let line := cursor.takeWhile fun character => !isBreak character
        readBlockBreaks (some indent) (line.2.rest.length + 1) 0
            [] line.2.advanceLine >>= fun next => readBlockLines literal indent
              fuel (block.addLine literal (cursor.peek.any isBlank) line.1
                line.2.breakText next.2.1) next.2.2 := by
  rw [readBlockLines]
  split
  · rfl
  · dsimp only
    generalize readBlockBreaks (some indent) _ 0 [] _ = outcome
    cases outcome with
    | error error => rfl
    | ok next => rfl

/-- A block scalar at the end of a text, and the same one without the end of the
last line. -/
inductive LosesBreak (block other : Block) : Prop where
  | ofLine :
      other.text = block.text → block.lastBreak = ['\n'] →
        other.lastBreak = [] →
      block.emptyLines = [] → other.emptyLines = [] → LosesBreak block other
  | ofEmptyLine :
      other.text = block.text → other.lastBreak = block.lastBreak →
      block.emptyLines = '\n' :: other.emptyLines → LosesBreak block other

def BlocksAlike (left right : Cursor) (first second : Block × Cursor) : Prop :=
  (second.1 = first.1 ∧ Passes 0 left right first.2 second.2) ∨
    (LosesBreak first.1 second.1 ∧ Ends left first.2 second.2)

private theorem readBlockLines_nil {cursor : Cursor} (atEnd : cursor.rest = [])
    (literal : Bool) (indent : Nat) (block : Block) :
    readBlockLines literal indent fuel block cursor = .ok (block, cursor) := by
  cases fuel with
  | zero => rfl
  | succ fuel =>
      rw [readBlockLines_succ, atEnd, List.isEmpty_nil,
        Bool.or_true, if_pos rfl]

/-- At the end of a text, a block scalar ends with the line that
was read last. -/
theorem readBlockLines_last {cursor : Cursor} (atEnd : cursor.rest = [])
    (literal : Bool) (indent rounds : Nat) (next : List Char → Block) :
    (readBlockBreaks (some indent) rounds 0 [] cursor >>= fun behind =>
      readBlockLines literal indent fuel (next behind.2.1) behind.2.2) =
          .ok (next [], cursor) := by
  obtain ⟨_, read, _⟩ := readBlockBreaks_nil atEnd (some indent) rounds 0 []
  rw [read, ok_bind, readBlockLines_nil atEnd]

private theorem readBlockLines_tracks (follows : left.Follows right)
    (enough : left.rest.length < fuel)
    (otherEnough : right.rest.length < otherFuel)
    (noBreak : left.peek.any isBreak = false) (literal : Bool) (indent : Nat)
    (block : Block) :
    Tracks (BlocksAlike left right) (readBlockLines literal indent fuel block
      left) (readBlockLines literal indent otherFuel block right) := by
  induction fuel generalizing left right otherFuel block with
  | zero => cases enough
  | succ fuel induction =>
      obtain ⟨otherFuel, rfl⟩ :=
        Nat.exists_eq_succ_of_ne_zero (Nat.ne_zero_of_lt otherEnough)
      cases stands : left.peek with
      | none =>
          rw [readBlockLines_nil (List.head?_eq_none_iff.mp stands),
            readBlockLines_nil (follows.rest_nil stands)]
          exact .ok (.inl ⟨rfl, .refl follows⟩)
      | some character =>
          rw [stands, Option.any_some] at noBreak
          have otherStands := follows.peek stands noBreak
          have passes := follows.takeLine stands noBreak
          have line := (follows.takeWhile
            (fun character => !isBreak character) (by decide)).1
          have alike : (left.column != indent || left.rest.isEmpty) =
              (right.column != indent || right.rest.isEmpty) := by
            obtain ⟨_, shape⟩ := List.head?_eq_some_iff.mp stands
            obtain ⟨_, otherShape⟩ := List.head?_eq_some_iff.mp otherStands
            rw [follows.column, shape, otherShape]
            rfl
          have behind (next : Char)
              (nextStands : (left.takeWhile fun character =>
                !isBreak character).2.peek = some next) :
              isBreak next = true := by
            have stops := peek_takeWhile nextStands
            rwa [Bool.not_eq_false'] at stops
          rw [readBlockLines_succ, readBlockLines_succ, alike, stands,
            otherStands]
          refine .ite (fun _ => .ok (.inl ⟨rfl, .refl follows⟩)) fun _ => ?_
          dsimp only
          rw [← line]
          generalize left.takeWhile (fun character => !isBreak character) =
            leftLine at *
          generalize right.takeWhile (fun character => !isBreak character) =
            rightLine at *
          cases nextStands : leftLine.2.peek with
          | none =>
              -- The line ends with both texts.
              have leftEnd := List.head?_eq_none_iff.mp nextStands
              have rightEnd := passes.follows.rest_nil nextStands
              rw [advanceLine_nil leftEnd, advanceLine_nil rightEnd,
                breakText_nil leftEnd, breakText_nil rightEnd,
                readBlockLines_last leftEnd, readBlockLines_last rightEnd]
              exact .ok (.inl ⟨rfl, passes.weaken (Nat.zero_le _)⟩)
          | some next =>
              cases passes.follows.breaks nextStands
                  (behind next nextStands) with
              | both _ _ _ sameText further =>
                  rw [← sameText]
                  have both := passes.trans further
                  apply (readBlockBreaks_tracks further.follows
                    (Nat.lt_succ_of_le (Nat.le_of_succ_le further.leftPassed))
                    (Nat.lt_succ_of_le (Nat.le_of_succ_le further.rightPassed))
                    0 []).bind
                  rintro ⟨_, emptyLines, lastLeft⟩ ⟨_, otherEmptyLines,
                    lastRight⟩ ⟨_, ⟨same, last, noBreak⟩ | ⟨longer, ends⟩⟩
                  · cases same
                    have all := both.trans last
                    apply (induction last.follows
                      (all.weaken (by decide) |>.left_lt enough) (all.weaken
                        (by decide) |>.right_lt otherEnough) noBreak _).mono
                    rintro first second (⟨same, rest⟩ | ⟨loses, ends⟩)
                    · exact .inl ⟨same, (all.trans rest).weaken (Nat.zero_le _)⟩
                    · exact .inr ⟨loses, ends.after all⟩
                  · dsimp only at longer ends ⊢
                    rw [readBlockLines_nil ends.leftEnd,
                      readBlockLines_nil ends.rightEnd]
                    exact .ok
                      (.inr ⟨.ofEmptyLine rfl rfl longer, ends.after both⟩)
              | last rightEnd feed _ ends =>
                  rw [advanceLine_nil rightEnd, breakText_nil rightEnd, feed,
                    readBlockLines_last ends.leftEnd,
                    readBlockLines_last rightEnd]
                  exact .ok
                    (.inr ⟨.ofLine rfl rfl rfl rfl rfl, ends.after passes⟩)

/-- The text of a block scalar, as far as its ending is kept. -/
def chomped (chomping : Chomping) (block : Block) : String :=
  let ending := match chomping with
    | .strip => []
    | .clip => block.lastBreak
    | .keep => block.emptyLines ++ block.lastBreak
  String.ofList (ending ++ block.text).reverse

/-- Reads a block scalar behind the line of its indicators. -/
def readBlockBody (literal : Bool) (parent : Option Nat) (chomping : Chomping)
    (increment : Option Nat) (cursor : Cursor) :
    Except YamlError (String × Cursor) := do
  let known := increment.map fun increment => parent.getD 0 + increment
  let rounds := cursor.rest.length + 1
  let (deepest, emptyLines, cursor) ← readBlockBreaks known rounds 0 [] cursor
  let least := match parent with
    | some parent => parent + 1
    | none => 1
  let indent := known.getD (max deepest least)
  let (block, cursor) ← readBlockLines literal indent rounds
    { emptyLines } cursor
  return (chomped chomping block, cursor)

private theorem readBlock_eq (literal : Bool) (parent : Option Nat)
    (cursor : Cursor) :
    readBlock literal parent cursor = readHeader cursor.advance >>=
      fun header =>
      let behind := (header.2.2.dropWhile isBlank).dropComment
      if !isBreakOrEnd behind.peek then .error .malformedBlockScalar
      else readBlockBody literal parent header.1 header.2.1
          behind.advanceLine :=
  rfl

/-- What is read of a block scalar, of some characters at least.  One that ends
a text is read the same if it does not end with the end of a line. -/
def BlockScalarsAlike (count : Nat) (left right : Cursor)
    (first second : String × Cursor) : Prop :=
  (second.1 = first.1 ∧ Passes count left right first.2 second.2) ∨
    ((first.1.toList.getLast? ≠ some '\n' → second.1 = first.1) ∧
      Ends left first.2 second.2)

private theorem LosesBreak.chomped_eq {block other : Block}
    (loses : LosesBreak block other) (chomping : Chomping)
    (noBreak : (chomped chomping block).toList.getLast? ≠ some '\n') :
    chomped chomping other = chomped chomping block := by
  simp only [chomped, String.toList_ofList, List.getLast?_reverse] at noBreak ⊢
  cases loses with
  | ofLine text lastBreak otherLastBreak emptyLines otherEmptyLines =>
      cases chomping with
      | strip => rw [text]
      | clip => simp [lastBreak] at noBreak
      | keep => simp [lastBreak, emptyLines] at noBreak
  | ofEmptyLine text lastBreak emptyLines =>
      cases chomping with
      | strip => rw [text]
      | clip => rw [text, lastBreak]
      | keep => simp [emptyLines] at noBreak

private theorem readBlockBody_nil {cursor : Cursor} (atEnd : cursor.rest = [])
    (literal : Bool) (parent : Option Nat) (chomping : Chomping)
    (increment : Option Nat) :
    readBlockBody literal parent chomping increment cursor =
      .ok ("", cursor) := by
  obtain ⟨deepest, read, _⟩ := readBlockBreaks_nil atEnd
    (increment.map fun increment => parent.getD 0 + increment)
    (cursor.rest.length + 1) 0 []
  unfold readBlockBody
  dsimp only
  rw [read, ok_bind, readBlockLines_nil atEnd]
  cases chomping <;> rfl

private theorem readBlockBody_tracks (follows : left.Follows right)
    (literal : Bool) (parent : Option Nat) (chomping : Chomping)
    (increment : Option Nat) :
    Tracks (BlockScalarsAlike 0 left right)
      (readBlockBody literal parent chomping increment left)
      (readBlockBody literal parent chomping increment right) := by
  apply (readBlockBreaks_tracks follows (Nat.lt_succ_self _)
    (Nat.lt_succ_self _) 0 []).bind
  rintro ⟨deepest, emptyLines, newLeft⟩ ⟨_, otherEmptyLines, newRight⟩
    ⟨sameDeepest, ⟨same, passes, noBreak⟩ | ⟨longer, ends⟩⟩
  · cases sameDeepest
    cases same
    apply (readBlockLines_tracks passes.follows
      (Nat.lt_succ_of_le passes.leftPassed)
      (Nat.lt_succ_of_le passes.rightPassed) noBreak literal _ _).bind
    rintro ⟨block, lastLeft⟩ ⟨otherBlock, lastRight⟩
      (⟨same, further⟩ | ⟨loses, ends⟩)
    · cases same
      exact .ok (.inl ⟨rfl, passes.trans further⟩)
    · exact .ok (.inr ⟨loses.chomped_eq chomping, ends.after passes⟩)
  · dsimp only at longer ends ⊢
    rw [readBlockLines_nil ends.leftEnd, readBlockLines_nil ends.rightEnd]
    have loses : LosesBreak { emptyLines } { emptyLines := otherEmptyLines } :=
      .ofEmptyLine rfl rfl longer
    exact .ok (.inr ⟨loses.chomped_eq chomping, ends⟩)

theorem readBlock_tracks (follows : left.Follows right)
    (stands : left.peek = some character) (visible : isBreak character = false)
    (literal : Bool) (parent : Option Nat) :
    Tracks (BlockScalarsAlike 1 left right) (readBlock literal parent left)
      (readBlock literal parent right) := by
  have passes := follows.advance stands visible
  rw [readBlock_eq, readBlock_eq]
  apply (readHeader_tracks passes.follows).bind
  rintro ⟨_, _, newLeft⟩ ⟨chomping, increment, newRight⟩ ⟨rfl, rfl, header⟩
  have blanks := header.follows.dropWhile isBlank (by decide)
  have comment := blanks.follows.dropComment
  have behind := passes.trans (header.trans (blanks.trans comment))
  dsimp only
  generalize (newLeft.dropWhile isBlank).dropComment =
    leftBehind at behind comment ⊢
  generalize (newRight.dropWhile isBlank).dropComment =
    rightBehind at behind comment ⊢
  rw [← comment.follows.test_peek isBreakOrEnd (by decide)]
  refine .ite (fun _ => .error _ _) fun atEnd => ?_
  rcases comment.follows.advanceLine (by simpa using atEnd) with steps | ends
  · have before := behind.trans steps
    apply (readBlockBody_tracks steps.follows literal parent chomping
      increment).mono
    rintro first second (⟨same, rest⟩ | ⟨same, ends⟩)
    · exact .inl ⟨same, (before.trans rest).weaken (Nat.le_add_right 1 0)⟩
    · exact .inr ⟨same, ends.after before⟩
  · rw [readBlockBody_nil ends.leftEnd, readBlockBody_nil ends.rightEnd]
    exact .ok (.inr ⟨fun _ => rfl, ends.after behind⟩)

end CiPipeline.Yaml
