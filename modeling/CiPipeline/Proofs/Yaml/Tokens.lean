import CiPipeline.Proofs.Yaml.Scalars
import CiPipeline.Yaml.Token

/-!
# Anchors, tags and directives of texts whose lines are joined again

They stand on one line each, so that they are read the same in the joined lines.
-/

namespace CiPipeline.Yaml

open Cursor Sequencing

variable {left right : Cursor} {character : Char} {fuel otherFuel : Nat}

theorem readAnchor_tracks (follows : left.Follows right)
    (stands : left.peek = some character)
    (visible : isBreak character = false) :
    Tracks (ReadsAlike 1 left right) (readAnchor left) (readAnchor right) := by
  have passes := follows.advance stands visible
  obtain ⟨sameName, named⟩ :=
    passes.follows.takeWhile isNameCharacter (by decide)
  unfold readAnchor
  dsimp only
  rw [← sameName, ← named.follows.test_peek endsAnchor (by decide)]
  exact .ite (fun _ => .error _ _) fun _ => .ok ⟨rfl, passes.trans named⟩

/-! ## Tags -/

private theorem readOctet_tracks (follows : left.Follows right) :
    Tracks (ReadsAlike 1 left right) (readOctet left) (readOctet right) := by
  intro value success
  unfold readOctet at success
  split at success
  · rename_i high low rest shape
    split at success
    · rename_i octet reads
      cases success
      have visible := visible_of_hexValue? reads
      have rejoined := follows.rest
      rw [shape] at rejoined
      obtain ⟨_, otherShape, behindSign⟩ := rejoined.of_visible (by decide)
      obtain ⟨_, rfl, behindHigh⟩ :=
        behindSign.of_visible (visible high (by simp))
      obtain ⟨_, rfl, _⟩ := behindHigh.of_visible (visible low (by simp))
      have stand : ['%', high, low] <+: left.rest := ⟨rest, shape.symm⟩
      refine ⟨(octet, right.advanceBy 3), ?_, rfl, ?_⟩
      · simp only [readOctet, otherShape, reads]
      · refine (follows.advanceBy stand ?_).weaken (Nat.le_add_left 1 2)
        rw [List.forall_mem_cons]
        exact ⟨by decide, visible⟩
    · cases success
  · cases success

private theorem readOctets_tracks (follows : left.Follows right) (count : Nat) :
    Tracks (ReadsAlike 0 left right) (readOctets count left)
      (readOctets count right) := by
  induction count generalizing left right with
  | zero => exact .ok ⟨rfl, .refl follows⟩
  | succ count induction =>
      rw [readOctets, readOctets]
      apply ReadsAlike.bind (readOctet_tracks follows)
      · intro octet newLeft newRight passes
        apply ReadsAlike.bind (induction passes.follows)
        · intro octets lastLeft lastRight others
          exact .ok ⟨rfl, .refl others.follows⟩
        · exact Nat.le_refl 0
      · exact Nat.zero_le _

private theorem readEscapedCharacter_tracks (follows : left.Follows right) :
    Tracks (ReadsAlike 1 left right) (readEscapedCharacter left)
      (readEscapedCharacter right) := by
  unfold readEscapedCharacter
  apply ReadsAlike.bind (readOctet_tracks follows)
  · intro first newLeft newRight passes
    dsimp only
    cases furtherOctets? first with
    | none => exact .error _ _
    | some count =>
        apply ReadsAlike.bind (readOctets_tracks passes.follows count)
        · intro octets lastLeft lastRight others
          dsimp only
          cases String.fromUTF8?
              ⟨((first :: octets).map UInt8.ofNat).toArray⟩ with
          | none => exact .error _ _
          | some text => exact .ok ⟨rfl, .refl others.follows⟩
        · exact Nat.le_refl 0
  · exact Nat.le_refl 1

private theorem readTagCharacters_of_noTag {bracketed : Bool} {read : List Char}
    {cursor : Cursor}
    (noTag : cursor.peek.any (isTagCharacter bracketed) = false) :
    readTagCharacters bracketed fuel cursor read =
      .ok (read.reverse, cursor) := by
  cases fuel with
  | zero => rfl
  | succ fuel =>
      rw [readTagCharacters]
      cases stands : cursor.peek with
      | none => rfl
      | some character =>
          rw [stands, Option.any_some] at noTag
          simp only [noTag, Bool.not_false, if_true]

private theorem readTagCharacters_tracks {bracketed : Bool} {read : List Char}
    (follows : left.Follows right) (enough : left.rest.length < fuel)
    (otherEnough : right.rest.length < otherFuel) :
    Tracks (ReadsAlike 0 left right) (readTagCharacters bracketed fuel left
      read) (readTagCharacters bracketed otherFuel right read) := by
  induction fuel generalizing left right read otherFuel with
  | zero => cases enough
  | succ fuel induction =>
      obtain ⟨otherFuel, rfl⟩ :=
        Nat.exists_eq_succ_of_ne_zero (Nat.ne_zero_of_lt otherEnough)
      have breaksEndTag : ∀ character ∈ lineBreaks,
          isTagCharacter bracketed character = false := by
        cases bracketed <;> decide
      have stops : Tracks (ReadsAlike 0 left right)
          (.ok (read.reverse, left) : Except YamlError _)
          (.ok (read.reverse, right)) :=
        .ok ⟨rfl, .refl follows⟩
      have goesOn {nextLeft nextRight : Cursor}
          (passes : Passes 1 left right nextLeft nextRight) (next : List Char) :
          Tracks (ReadsAlike 0 left right)
            (readTagCharacters bracketed fuel nextLeft next)
            (readTagCharacters bracketed otherFuel nextRight next) :=
        ReadsAlike.after passes (induction passes.follows
          (passes.left_lt enough) (passes.right_lt otherEnough)) (Nat.zero_le _)
      cases tagged : left.peek.any (isTagCharacter bracketed) with
      | false =>
          rw [readTagCharacters_of_noTag tagged]
          rw [follows.test_peek (fun next =>
            next.any (isTagCharacter bracketed)) breaksEndTag] at tagged
          rw [readTagCharacters_of_noTag tagged]
          exact stops
      | true =>
          obtain ⟨character, stands, isTag⟩ :=
            (Option.any_eq_true _ _).mp tagged
          have visible :=
            visible_of_test (isTagCharacter bracketed) breaksEndTag isTag
          have passes := follows.advance stands visible
          rw [readTagCharacters, readTagCharacters, stands,
            follows.peek stands visible]
          dsimp only
          rw [isTag, Bool.not_true, if_neg Bool.false_ne_true,
            if_neg Bool.false_ne_true]
          refine .ite (fun _ => ?_) fun _ => goesOn passes _
          cases escape : readEscapedCharacter left with
          | error error => exact .error _ _
          | ok escaped =>
              obtain ⟨⟨decoded, nextRight⟩, otherEscape, same, further⟩ :=
                readEscapedCharacter_tracks follows escaped escape
              simp only [otherEscape]
              cases same
              exact goesOn further _

private theorem readTagRest_tracks (follows : left.Follows right)
    (bracketed : Bool) :
    Tracks (ReadsAlike 0 left right) (readTagRest bracketed left)
      (readTagRest bracketed right) :=
  readTagCharacters_tracks follows (Nat.lt_succ_self _) (Nat.lt_succ_self _)

private theorem readHandle_follows (follows : left.Follows right)
    (stands : left.peek = some character)
    (visible : isBreak character = false) :
    ReadsAlike 1 left right (readHandle left) (readHandle right) := by
  have passes := follows.advance stands visible
  obtain ⟨sameName, named⟩ :=
    passes.follows.takeWhile isNameCharacter (by decide)
  unfold readHandle
  dsimp only
  rw [← sameName, ← named.follows.at_ (by decide)]
  cases closed : (left.advance.takeWhile isNameCharacter).2.at_ '!' with
  | false => exact ⟨rfl, passes.trans named⟩
  | true =>
      have mark := named.follows.advance (beq_iff_eq.mp closed) (by decide)
      exact ⟨rfl, (passes.trans (named.trans mark)).weaken (by decide)⟩

private theorem readBracketedTag_tracks (follows : left.Follows right)
    (stands : left.peek = some character) (visible : isBreak character = false)
    (bracket : left.peekAt 1 = some '<') :
    Tracks (ReadsAlike 1 left right) (readBracketedTag left)
      (readBracketedTag right) := by
  have both := follows.advanceBy (prefix_of_peekAt stands bracket)
    (List.forall_mem_cons.mpr ⟨visible,
      List.forall_mem_singleton.mpr (by decide)⟩)
  unfold readBracketedTag
  refine ReadsAlike.after both ?_ (Nat.le_add_left 1 1)
  apply ReadsAlike.bind (readTagRest_tracks both.follows true)
  · intro suffix newLeft newRight passes
    dsimp only
    rw [← passes.follows.at_ (by decide)]
    refine .ite (fun _ => .error _ _) fun closed => ?_
    have bracket : newLeft.at_ '>' = true := by
      rw [Bool.not_eq_true, Bool.or_eq_false_iff, Bool.not_eq_false'] at closed
      exact closed.2
    have mark := passes.follows.advance (beq_iff_eq.mp bracket) (by decide)
    exact .ok ⟨rfl, mark.weaken (Nat.zero_le 1)⟩
  · exact Nat.zero_le _

private theorem readShortTag_tracks (follows : left.Follows right)
    (stands : left.peek = some character)
    (visible : isBreak character = false) :
    Tracks (ReadsAlike 1 left right) (readShortTag left)
      (readShortTag right) := by
  obtain ⟨sameHandle, passes⟩ := readHandle_follows follows stands visible
  unfold readShortTag
  dsimp only
  rw [sameHandle]
  refine ReadsAlike.after passes ?_ (Nat.le_refl 1)
  apply ReadsAlike.bind (readTagRest_tracks passes.follows false)
  · intro rest newLeft newRight further
    dsimp only
    refine .ite (fun _ => .ite (fun _ => .error _ _) fun _ =>
      .ok ⟨rfl, .refl further.follows⟩) fun _ => ?_
    split
    · exact .ok ⟨rfl, .refl further.follows⟩
    · exact .ok ⟨rfl, .refl further.follows⟩
  · exact Nat.le_refl 0

theorem readTag_tracks (inFlow : Bool) (follows : left.Follows right)
    (stands : left.peek = some character)
    (visible : isBreak character = false) :
    Tracks (ReadsAlike 1 left right) (readTag inFlow left)
      (readTag inFlow right) := by
  unfold readTag
  rw [← follows.test_peekAt stands visible
    (fun next => next == some '<') (by decide)]
  have ends {newLeft newRight : Cursor} (further : newLeft.Follows newRight)
      (token : Token) :
      Tracks (ReadsAlike 0 newLeft newRight)
        (if isBlankOrEnd newLeft.peek || (inFlow && newLeft.at_ ',') then
            (.ok (token, newLeft) : Except YamlError _)
          else .error .malformedTag)
        (if isBlankOrEnd newRight.peek || (inFlow && newRight.at_ ',') then .ok
          (token, newRight)
          else .error .malformedTag) := by
    rw [← further.test_peek isBlankOrEnd (by decide), ← further.at_ (by decide)]
    exact .ite (fun _ => .ok ⟨rfl, .refl further⟩) fun _ => .error _ _
  refine .ite (fun bracket => ?_) fun _ => ?_
  · apply ReadsAlike.bind
      (readBracketedTag_tracks follows stands visible (beq_iff_eq.mp bracket))
    · exact fun token _ _ passes => ends passes.follows token
    · exact Nat.le_refl 1
  · apply ReadsAlike.bind (readShortTag_tracks follows stands visible)
    · exact fun token _ _ passes => ends passes.follows token
    · exact Nat.le_refl 1

/-! ## Directives -/

private theorem readVersionPart_tracks (follows : left.Follows right) :
    Tracks (ReadsAlike 0 left right) (readVersionPart left)
      (readVersionPart right) := by
  obtain ⟨sameDigits, passes⟩ := follows.takeWhile Char.isDigit (by decide)
  unfold readVersionPart
  dsimp only
  rw [← sameDigits]
  exact .ite (fun _ => .error _ _) fun _ => .ok ⟨rfl, passes⟩

private theorem readVersion_tracks (follows : left.Follows right) :
    Tracks (ReadsAlike 0 left right) (readVersion left)
      (readVersion right) := by
  unfold readVersion
  apply ReadsAlike.bind (readVersionPart_tracks follows)
  · intro major newLeft newRight passes
    dsimp only
    rw [← passes.follows.at_ (by decide)]
    refine .ite (fun _ => .error _ _) fun dot => ?_
    have stands : newLeft.at_ '.' = true := by simpa using dot
    have mark := passes.follows.advance (beq_iff_eq.mp stands) (by decide)
    refine ReadsAlike.after mark ?_ (Nat.zero_le 1)
    apply ReadsAlike.bind (readVersionPart_tracks mark.follows)
    · intro minor lastLeft lastRight further
      exact .ok ⟨rfl, .refl further.follows⟩
    · exact Nat.le_refl 0
  · exact Nat.le_refl 0

private theorem readTagHandle_tracks (follows : left.Follows right) :
    Tracks (ReadsAlike 0 left right) (readTagHandle left)
      (readTagHandle right) := by
  unfold readTagHandle
  rw [← follows.at_ (by decide)]
  refine .ite (fun _ => .error _ _) fun mark => ?_
  have stands : left.at_ '!' = true := by simpa using mark
  obtain ⟨sameHandle, passes⟩ :=
    readHandle_follows follows (beq_iff_eq.mp stands) (by decide)
  dsimp only
  rw [sameHandle,
    ← passes.follows.test_peek (fun next => next.any isBlank) (by decide)]
  refine .ite (fun _ => .error _ _) fun _ =>
    .ite (fun _ => .error _ _) fun _ => ?_
  have blanks := passes.follows.dropWhile isBlank (by decide)
  refine ReadsAlike.after (passes.trans blanks) ?_ (Nat.zero_le _)
  apply ReadsAlike.bind (readTagRest_tracks blanks.follows true)
  · intro meaning newLeft newRight further
    dsimp only
    rw [← further.follows.test_peek isBlankOrEnd (by decide)]
    exact .ite (fun _ => .error _ _) fun _ => .ok ⟨rfl, .refl further.follows⟩
  · exact Nat.le_refl 0

/-- The same value is read at both cursors, from one character at least.  Its
line may be the last one. -/
def LinesAlike {Value : Type} (left right : Cursor)
    (first second : Value × Cursor) : Prop :=
  second.1 = first.1 ∧
    (Passes 1 left right first.2 second.2 ∨ Ends left first.2 second.2)

private theorem directiveEnd_tracks {newLeft newRight : Cursor}
    (passes : Passes 1 left right newLeft newRight) (token : Token) :
    Tracks (LinesAlike left right)
      (let behind := (newLeft.dropWhile isBlank).dropComment
        if !isBreakOrEnd behind.peek then
          (.error .malformedDirective : Except YamlError (Token × Cursor))
        else .ok (token, behind.advanceLine))
      (let behind := (newRight.dropWhile isBlank).dropComment
        if !isBreakOrEnd behind.peek then .error .malformedDirective
        else .ok (token, behind.advanceLine)) := by
  have blanks := passes.follows.dropWhile isBlank (by decide)
  have comment := blanks.follows.dropComment
  have before := passes.trans (blanks.trans comment)
  dsimp only
  generalize (newLeft.dropWhile isBlank).dropComment =
    leftBehind at comment before ⊢
  generalize (newRight.dropWhile isBlank).dropComment =
    rightBehind at comment before ⊢
  rw [← comment.follows.test_peek isBreakOrEnd (by decide)]
  refine .ite (fun _ => .error _ _) fun atEnd => .ok ⟨rfl, ?_⟩
  rcases comment.follows.advanceLine (by simpa using atEnd) with steps | ends
  · exact .inl (before.trans steps)
  · exact .inr (ends.after before)

theorem readDirective_tracks (follows : left.Follows right)
    (stands : left.peek = some character)
    (visible : isBreak character = false) :
    Tracks (LinesAlike left right) (readDirective left)
      (readDirective right) := by
  have passes := follows.advance stands visible
  obtain ⟨sameName, named⟩ :=
    passes.follows.takeWhile isNameCharacter (by decide)
  unfold readDirective
  dsimp only
  rw [← sameName, ← named.follows.test_peek isBlankOrEnd (by decide)]
  refine .ite (fun _ => .error _ _) fun _ => ?_
  have blanks := named.follows.dropWhile isBlank (by decide)
  have start := passes.trans (named.trans blanks)
  split
  · apply (readVersion_tracks blanks.follows).bind
    rintro ⟨_, newLeft⟩ ⟨token, newRight⟩ ⟨rfl, further⟩
    exact directiveEnd_tracks (start.trans further) token
  · apply (readTagHandle_tracks blanks.follows).bind
    rintro ⟨_, newLeft⟩ ⟨token, newRight⟩ ⟨rfl, further⟩
    exact directiveEnd_tracks (start.trans further) token
  · exact .error _ _

end CiPipeline.Yaml
