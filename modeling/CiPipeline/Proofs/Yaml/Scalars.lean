import CiPipeline.Proofs.Yaml.Rejoining
import CiPipeline.Yaml.Scalar

/-!
# Scalars of texts whose lines are joined again

A plain or a quoted scalar reads the same in the joined lines of a text.  So
does a block scalar, unless it goes up to the end of the text and keeps the end
of the last line.
-/

namespace CiPipeline.Yaml

open Cursor Sequencing

variable {left right newLeft : Cursor} {folded result : Folded}
  {character : Char} {fuel otherFuel : Nat}

/-! ## Plain scalars -/

/-- What becomes of a scalar: both cursors go on alike with the same result, or
both texts end, with the same text read. -/
def Folds (left right : Cursor) (first second : Folded × Cursor) : Prop :=
  (second.1 = first.1 ∧ Passes 0 left right first.2 second.2) ∨
    (second.1.text = first.1.text ∧ Ends left first.2 second.2)

private theorem Folds.after {count : Nat} {nextLeft nextRight : Cursor}
    {first second : Folded × Cursor}
    (passes : Passes count left right nextLeft nextRight)
    (folds : Folds nextLeft nextRight first second) :
    Folds left right first second := by
  rcases folds with ⟨same, further⟩ | ⟨same, ends⟩
  · exact .inl ⟨same, (passes.trans further).weaken (Nat.zero_le _)⟩
  · exact .inr ⟨same, ends.after passes⟩

theorem isBlank_of_isBreak (breaks : isBreak character = true) :
    isBlank character = false := by
  have all : ∀ character ∈ lineBreaks, isBlank character = false := by decide
  exact all character (isBreak_iff.mp breaks)

private theorem endsPlain_eq (follows : left.Follows right)
    (stands : left.peek = some character) (visible : isBreak character = false)
    (inFlow : Bool) :
    endsPlain inFlow left character = endsPlain inFlow right character := by
  rw [endsPlain, endsPlain,
    follows.test_peekAt stands visible isBlankOrEnd (by decide)]

private theorem text_addBreak (folded : Folded) (breakText : List Char) :
    (folded.addBreak breakText).text = folded.text := by
  unfold Folded.addBreak
  split <;> rfl

private theorem readPlainFrom_nil {inFlow : Bool} {indent : Nat}
    (atEnd : left.rest = []) :
    readPlainFrom inFlow indent fuel left folded = .ok (folded, left) := by
  cases fuel with
  | zero => rfl
  | succ fuel => simp [readPlainFrom, Cursor.peek, atEnd]

private theorem readPlainFrom_tracks {inFlow : Bool} {indent : Nat}
    (follows : left.Follows right) (enough : left.rest.length < fuel)
    (otherEnough : right.rest.length < otherFuel) :
    Tracks (Folds left right) (readPlainFrom inFlow indent fuel left folded)
      (readPlainFrom inFlow indent otherFuel right folded) := by
  induction fuel generalizing left right folded otherFuel with
  | zero => cases enough
  | succ fuel induction =>
      obtain ⟨otherFuel, rfl⟩ :=
        Nat.exists_eq_succ_of_ne_zero (Nat.ne_zero_of_lt otherEnough)
      have stops : Tracks (Folds left right)
          (.ok (folded, left) : Except YamlError _) (.ok (folded, right)) :=
        .ok (.inl ⟨rfl, .refl follows⟩)
      have goesOn {nextLeft nextRight : Cursor}
          (passes : Passes 1 left right nextLeft nextRight) (next : Folded) :
          Tracks (Folds left right) (readPlainFrom inFlow indent fuel nextLeft
            next) (readPlainFrom inFlow indent otherFuel nextRight next) :=
        (induction passes.follows (passes.left_lt enough)
          (passes.right_lt otherEnough)).mono fun _ _ folds =>
            folds.after passes
      cases stands : left.peek with
      | none =>
          rw [readPlainFrom_nil (List.head?_eq_none_iff.mp stands),
            readPlainFrom_nil (follows.rest_nil stands)]
          exact stops
      | some character =>
          rw [readPlainFrom, stands]
          cases breaks : isBreak character with
          | true =>
              simp only [isBlank_of_isBreak breaks, breaks, Bool.false_eq_true,
                if_false, if_true]
              cases follows.breaks stands breaks with
              | both other otherStands otherBreaks sameText passes =>
                  rw [readPlainFrom, otherStands]
                  simp only [isBlank_of_isBreak otherBreaks, otherBreaks,
                    Bool.false_eq_true, if_false, if_true, ← sameText]
                  exact goesOn passes _
              | last otherEnd _ _ ends =>
                  rw [readPlainFrom_nil ends.leftEnd,
                    readPlainFrom_nil otherEnd]
                  exact .ok (.inr ⟨(text_addBreak folded _).symm, ends⟩)
          | false =>
              have passes := follows.advance stands breaks
              rw [readPlainFrom, follows.peek stands breaks]
              simp only [breaks, Bool.false_eq_true, if_false]
              rw [← follows.column, ← follows.atDocumentBoundary,
                ← endsPlain_eq follows stands breaks,
                ← follows.test_peekAt stands breaks (fun next => next.any
                  fun next => isFlowIndicator next || next == '?') (by decide)]
              refine .ite (fun _ => ?_) fun _ => .ite (fun _ => stops) fun _ =>
                .ite (fun _ => stops) fun _ =>
                  .ite (fun _ => .error _ _) fun _ =>
                  .ite (fun _ => stops) fun _ => goesOn passes _
              exact .ite (fun _ => .error _ _) fun _ => goesOn passes _

/-- What is read of a plain scalar, of one character at least.  Behind a scalar
that ends a text, it does not matter whether a line ended. -/
def PlainAlike (left right : Cursor)
    (first second : String × Cursor × Bool) : Prop :=
  second.1 = first.1 ∧
    ((Passes 1 left right first.2.1 second.2.1 ∧ second.2.2 = first.2.2) ∨
      Ends left first.2.1 second.2.1)

private theorem readPlainFrom_start {inFlow : Bool} {indent : Nat}
    (stands : left.peek = some character)
    (notBlank : isBlank character = false) (visible : isBreak character = false)
    (inside : left.atDocumentBoundary = false)
    (noValue : (character == ':' && (inFlow || isBlankOrEnd (left.peekAt 1))) =
      false) (noIndicator : isFlowIndicator character = false) :
    readPlainFrom inFlow indent (fuel + 1) left {} =
      readPlainFrom inFlow indent fuel left.advance
        (({} : Folded).add character) := by
  rw [readPlainFrom, stands]
  have fresh : ({} : Folded).pending = false := rfl
  have noError : (inFlow && character == ':' &&
      (left.peekAt 1).any fun next => isFlowIndicator next || next == '?') =
      false := by
    cases inFlow with
    | false => rfl
    | true =>
        rw [Bool.true_or, Bool.and_true] at noValue
        rw [noValue]
        rfl
  have further : endsPlain inFlow left character = false := by
    rw [endsPlain, noIndicator, Bool.and_false, Bool.or_false]
    cases colon : character == ':' with
    | false => rfl
    | true =>
        rw [colon, Bool.true_and, Bool.or_eq_false_iff] at noValue
        rw [noValue.2]
        rfl
  simp only [notBlank, visible, fresh, inside, noError, further, Bool.false_and,
    Bool.false_eq_true, if_false]

theorem readPlain_tracks {inFlow : Bool} {indent : Nat}
    (follows : left.Follows right) (stands : left.peek = some character)
    (notBlank : isBlank character = false) (visible : isBreak character = false)
    (inside : left.atDocumentBoundary = false)
    (noValue : (character == ':' && (inFlow || isBlankOrEnd (left.peekAt 1))) =
      false) (noIndicator : isFlowIndicator character = false) :
    Tracks (PlainAlike left right) (readPlain inFlow indent left)
      (readPlain inFlow indent right) := by
  have passes := follows.advance stands visible
  have otherNoValue := noValue
  rw [follows.test_peekAt stands visible isBlankOrEnd (by decide)]
    at otherNoValue
  have otherInside := inside
  rw [follows.atDocumentBoundary] at otherInside
  unfold readPlain
  rw [readPlainFrom_start stands notBlank visible inside noValue noIndicator,
    readPlainFrom_start (follows.peek stands visible) notBlank visible
      otherInside otherNoValue noIndicator]
  apply (readPlainFrom_tracks passes.follows passes.leftPassed
    passes.rightPassed).bind
  intro first second folds
  obtain ⟨folded, newLeft⟩ := first
  obtain ⟨otherFolded, newRight⟩ := second
  apply Tracks.ok
  rcases folds with ⟨same, further⟩ | ⟨same, ends⟩
  · cases same
    exact ⟨rfl, .inl ⟨passes.trans further, rfl⟩⟩
  · refine ⟨?_, .inr (ends.after passes)⟩
    show String.ofList otherFolded.text.reverse =
      String.ofList folded.text.reverse
    rw [same]

/-! ## Quoted scalars -/

private theorem readQuotedFrom_nil {quote : Char} (atEnd : left.rest = []) :
    readQuotedFrom quote fuel left folded = .error .unterminatedScalar := by
  cases fuel with
  | zero => rfl
  | succ fuel =>
      rw [readQuotedFrom, Cursor.peek, atEnd]
      split <;> rfl

theorem visible_of_hexValue? {digits : List Char} {value : Nat}
    (reads : hexValue? digits = some value) :
    ∀ digit ∈ digits, isBreak digit = false := by
  obtain ⟨values, each, computed⟩ := Option.bind_eq_some_iff.mp reads
  clear reads computed
  induction digits generalizing values with
  | nil => simp
  | cons first digits induction =>
      rw [List.mapM_cons] at each
      obtain ⟨_, firstReads, remaining⟩ := Option.bind_eq_some_iff.mp each
      obtain ⟨others, othersRead, _⟩ := Option.bind_eq_some_iff.mp remaining
      rw [List.forall_mem_cons]
      have firstVisible := visible_of_test (fun digit =>
        (Text.hexDigit? digit).isSome) (by decide) (by rw [firstReads]; rfl)
      exact ⟨firstVisible, induction others othersRead⟩

private theorem readEscape_rejoined {text otherText : List Char}
    (rejoined : Rejoined text otherText) {escaped : Char} {count : Nat}
    (success : readEscape text = .ok (escaped, count)) :
    readEscape otherText = .ok (escaped, count) ∧
      ∃ characters, characters.length = count ∧ characters <+: text ∧
        ∀ character ∈ characters, isBreak character = false := by
  cases text with
  | nil => cases success
  | cons kind digits =>
      rw [readEscape] at success
      cases short : shortEscape? kind with
      | some character =>
          have visible := visible_of_test (fun kind =>
            (shortEscape? kind).isSome) (by decide) (by rw [short]; rfl)
          obtain ⟨_, rfl, _⟩ := rejoined.of_visible visible
          simp only [short] at success
          cases success
          refine ⟨by simp only [readEscape, short], [kind], rfl,
            ⟨digits, rfl⟩, ?_⟩
          simpa using visible
      | none =>
          simp only [short] at success
          cases long : escapeLength? kind with
          | none =>
              simp only [long] at success
              cases success
          | some length =>
              have visible := visible_of_test (fun kind =>
                (escapeLength? kind).isSome) (by decide) (by rw [long]; rfl)
              obtain ⟨otherDigits, rfl, further⟩ := rejoined.of_visible visible
              simp only [long] at success
              cases value : hexValue? (digits.take length) with
              | none =>
                  simp only [value] at success
                  cases success
              | some point =>
                  have digitsVisible := visible_of_hexValue? value
                  have sameDigits := further.take length digitsVisible
                  simp only [readEscape, short, long, sameDigits, value]
                    at success ⊢
                  refine ⟨success, kind :: digits.take length, ?_, ?_, ?_⟩
                  · split at success
                    · rename_i valid
                      cases success
                      rw [Bool.and_eq_true, decide_eq_true_eq] at valid
                      rw [List.length_cons, valid.1]
                    · cases success
                  · exact (List.prefix_cons_inj kind).mpr
                      (List.take_prefix length digits)
                  · rw [List.forall_mem_cons]
                    exact ⟨visible, digitsVisible⟩

/-- An escape stands within a line. -/
theorem readEscape_follows (follows : left.Follows right)
    (stands : left.peek = some character)
    (visible : isBreak character = false) {escaped : Char} {count : Nat}
    (success : readEscape left.advance.rest = .ok (escaped, count)) :
    readEscape right.advance.rest = .ok (escaped, count) ∧
      Passes 1 left right (left.advanceBy (count + 1))
        (right.advanceBy (count + 1)) := by
  have passes := follows.advance stands visible
  obtain ⟨otherSuccess, characters, counted, stand, eachVisible⟩ :=
    readEscape_rejoined passes.follows.rest success
  have others := passes.follows.advanceBy stand eachVisible
  rw [counted] at others
  exact ⟨otherSuccess, (passes.trans others).weaken (Nat.le_add_right 1 count)⟩

private theorem readQuotedFrom_tracks {quote : Char}
    (follows : left.Follows right) (enough : left.rest.length < fuel)
    (otherEnough : right.rest.length < otherFuel) :
    Tracks (ReadsAlike 0 left right) (readQuotedFrom quote fuel left folded)
      (readQuotedFrom quote otherFuel right folded) := by
  induction fuel generalizing left right folded otherFuel with
  | zero => cases enough
  | succ fuel induction =>
      obtain ⟨otherFuel, rfl⟩ :=
        Nat.exists_eq_succ_of_ne_zero (Nat.ne_zero_of_lt otherEnough)
      have goesOn {nextLeft nextRight : Cursor}
          (passes : Passes 1 left right nextLeft nextRight) (next : Folded) :
          Tracks (ReadsAlike 0 left right) (readQuotedFrom quote fuel nextLeft
            next) (readQuotedFrom quote otherFuel nextRight next) := by
        apply (induction passes.follows (passes.left_lt enough)
          (passes.right_lt otherEnough)).mono
        intro first second alike
        exact ⟨alike.1, (passes.trans alike.2).weaken (Nat.zero_le _)⟩
      rw [readQuotedFrom, readQuotedFrom, ← follows.atDocumentBoundary]
      refine .ite (fun _ => .error _ _) fun _ => ?_
      cases stands : left.peek with
      | none => exact .error _ _
      | some character =>
          cases breaks : isBreak character with
          | true =>
              simp only [isBlank_of_isBreak breaks, breaks, Bool.false_eq_true,
                if_false, if_true]
              cases follows.breaks stands breaks with
              | both other otherStands otherBreaks sameText passes =>
                  simp only [otherStands, isBlank_of_isBreak otherBreaks,
                    otherBreaks,
                    Bool.false_eq_true, if_false, if_true, ← sameText]
                  exact goesOn passes _
              | last _ _ _ ends =>
                  rw [readQuotedFrom_nil ends.leftEnd]
                  exact .error _ _
          | false =>
              have passes := follows.advance stands breaks
              simp only [follows.peek stands breaks, breaks,
                Bool.false_eq_true, if_false]
              rw [← follows.test_peekAt stands breaks
                (fun next => next == some '\'') (by decide)]
              refine .ite (fun _ => goesOn passes _) fun _ =>
                .ite (fun doubled => ?_) fun _ =>
                  .ite (fun _ => .ok ⟨rfl, passes.weaken (Nat.zero_le _)⟩)
                    fun _ => .ite (fun _ => ?_) fun _ => goesOn passes _
              · simp only [Bool.and_eq_true, beq_iff_eq] at doubled
                obtain ⟨⟨rfl, _⟩, next⟩ := doubled
                have both := follows.advanceBy (prefix_of_peekAt stands next)
                  (List.forall_mem_cons.mpr ⟨breaks,
                    List.forall_mem_singleton.mpr breaks⟩)
                exact goesOn (both.weaken (by decide)) _
              · rw [← peek_advance, ← peek_advance]
                cases next : left.advance.peek.any isBreak with
                | true =>
                    obtain ⟨second, nextStands, nextBreaks⟩ :=
                      (Option.any_eq_true isBreak _).mp next
                    cases passes.follows.breaks nextStands nextBreaks with
                    | both other otherStands otherBreaks _ further =>
                        simp only [if_true, otherStands, Option.any_some,
                          otherBreaks]
                        exact goesOn ((passes.trans further).weaken (by decide))
                          _
                    | last _ _ _ ends =>
                        rw [if_pos rfl, readQuotedFrom_nil ends.leftEnd]
                        exact .error _ _
                | false =>
                    rw [passes.follows.any_isBreak_eq_false next]
                    simp only [Bool.false_eq_true, if_false]
                    cases escape : readEscape left.advance.rest with
                    | error error => exact .error _ _
                    | ok read =>
                        obtain ⟨otherEscape, further⟩ :=
                          readEscape_follows follows stands breaks escape
                        simp only [otherEscape]
                        exact goesOn further _

theorem readQuoted_tracks {quote : Char} (follows : left.Follows right)
    (stands : left.peek = some character)
    (visible : isBreak character = false) :
    Tracks (ReadsAlike 1 left right) (readQuoted quote left)
      (readQuoted quote right) := by
  have passes := follows.advance stands visible
  unfold readQuoted
  apply (readQuotedFrom_tracks passes.follows (Nat.lt_succ_of_le ?_)
    (Nat.lt_succ_of_le ?_)).bind
  · intro first second alike
    obtain ⟨folded, newLeft⟩ := first
    obtain ⟨otherFolded, newRight⟩ := second
    obtain ⟨same, further⟩ := alike
    cases same
    exact .ok ⟨rfl, passes.trans further⟩
  · exact Nat.le_of_succ_le passes.leftPassed
  · exact Nat.le_of_succ_le passes.rightPassed

end CiPipeline.Yaml
