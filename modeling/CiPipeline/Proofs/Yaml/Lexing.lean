import CiPipeline.Proofs.Yaml.BlockScalars
import CiPipeline.Proofs.Yaml.Tokens
import CiPipeline.Yaml.Lexer

/-!
# Tokens of texts whose lines are joined again

The tokens of a text are those of its joined lines, unless the text ends within
a block scalar.  Token by token, the same is read in both.  Once the first text
has passed the end of its last line, both have ended, and only open blocks are
left to close.
-/

namespace CiPipeline.Yaml

open Cursor Sequencing

/-! ## Possible keys -/

/-- Possible keys at the same place of two texts.  Those on the line of the
cursors are as far away from them. -/
structure PossibleKey.Follows (left right : Cursor)
    (key other : PossibleKey) : Prop where
  required : other.required = key.required
  position : other.position = key.position
  line : other.cursor.line = key.cursor.line
  column : other.cursor.column = key.cursor.column
  behind : key.cursor.line ≤ left.line
  index : key.cursor.line = left.line →
    left.index + other.cursor.index = right.index + key.cursor.index

/-- Possible keys at the ends of two texts, the first one behind the
end of a line. -/
structure PossibleKey.Ended (left : Cursor)
    (key other : PossibleKey) : Prop where
  required : other.required = key.required
  stale : key.cursor.line < left.line

namespace PossibleKey

variable {left right newLeft newRight : Cursor} {key other : PossibleKey}
  {count : Nat}

private theorem Follows.passes (follows : key.Follows left right other)
    (passes : Passes count left right newLeft newRight) :
    key.Follows newLeft newRight other := by
  have behind := follows.behind
  have forward := passes.forward
  refine ⟨follows.required, follows.position, follows.line,
    follows.column, by omega, ?_⟩
  intro sameLine
  have keyIndex := follows.index (by omega)
  have index := passes.index (by omega)
  omega

private theorem Follows.ends (follows : key.Follows left right other)
    (ends : Ends left newLeft newRight) :
    key.Ended newLeft other :=
  ⟨follows.required, Nat.lt_of_le_of_lt follows.behind ends.line⟩

end PossibleKey

/-! ## States -/

namespace Lexing

/-- Texts in the course of being cut into tokens, alike up to the places
where they are. -/
structure Follows (left right : Lexing) : Prop where
  cursor : left.cursor.Follows right.cursor
  tokens : right.tokens = left.tokens
  count : right.count = left.count
  blocks : right.blocks = left.blocks
  keyAllowed : right.keyAllowed = left.keyAllowed
  possibleKey : Option.Rel (PossibleKey.Follows left.cursor right.cursor)
    left.possibleKey right.possibleKey
  outerKeys : List.Forall₂
    (Option.Rel (PossibleKey.Follows left.cursor right.cursor))
    left.outerKeys right.outerKeys

/-- Texts that have been read up to their ends, the first one over the end of
its last line. -/
structure Ended (left right : Lexing) : Prop where
  leftEnd : left.cursor.rest = []
  rightEnd : right.cursor.rest = []
  tokens : right.tokens = left.tokens
  blocks : right.blocks = left.blocks
  possibleKey : Option.Rel (PossibleKey.Ended left.cursor) left.possibleKey
    right.possibleKey
  outerKeys : List.Forall₂ (Option.Rel (PossibleKey.Ended left.cursor))
    left.outerKeys right.outerKeys

/-- States that are alike, at given places. -/
structure Stays (leftPlace rightPlace : Cursor)
    (left right : Lexing) : Prop where
  follows : left.Follows right
  leftCursor : left.cursor = leftPlace
  rightCursor : right.cursor = rightPlace

variable {left right : Lexing} {newLeft newRight : Cursor} {count : Nat}

private theorem relKeys_passes {key other : Option PossibleKey}
    {before otherBefore : Cursor}
    (passes : Passes count before otherBefore newLeft newRight)
    (related : Option.Rel (PossibleKey.Follows before otherBefore) key other) :
    Option.Rel (PossibleKey.Follows newLeft newRight) key other := by
  cases related with
  | none => exact .none
  | some follows => exact .some (follows.passes passes)

private theorem relKeys_ends {key other : Option PossibleKey}
    {before otherBefore : Cursor} (ends : Ends before newLeft newRight)
    (related : Option.Rel (PossibleKey.Follows before otherBefore) key other) :
    Option.Rel (PossibleKey.Ended newLeft) key other := by
  cases related with
  | none => exact .none
  | some follows => exact .some (follows.ends ends)

private theorem inFlow_eq
    {related : Option PossibleKey → Option PossibleKey → Prop}
    (keys : List.Forall₂ related left.outerKeys right.outerKeys) :
    right.inFlow = left.inFlow := by
  unfold Lexing.inFlow
  generalize left.outerKeys = outer at keys ⊢
  generalize right.outerKeys = otherOuter at keys ⊢
  cases keys <;> rfl

theorem Follows.inFlow (follows : left.Follows right) :
    right.inFlow = left.inFlow :=
  inFlow_eq follows.outerKeys

theorem Follows.indent (follows : left.Follows right) :
    right.indent = left.indent := by
  rw [Lexing.indent, Lexing.indent, follows.blocks]

theorem Follows.push (follows : left.Follows right) (token : Token) :
    (left.push token).Follows (right.push token) where
  cursor := follows.cursor
  tokens := congrArg (token :: ·) follows.tokens
  count := congrArg (· + 1) follows.count
  blocks := follows.blocks
  keyAllowed := follows.keyAllowed
  possibleKey := follows.possibleKey
  outerKeys := follows.outerKeys

theorem Follows.insert (follows : left.Follows right) (position : Nat)
    (token : Token) :
    (left.insert position token).Follows (right.insert position token) where
  cursor := follows.cursor
  tokens := by simp only [Lexing.insert, follows.tokens, follows.count]
  count := congrArg (· + 1) follows.count
  blocks := follows.blocks
  keyAllowed := follows.keyAllowed
  possibleKey := follows.possibleKey
  outerKeys := follows.outerKeys

/-- Both cursors go on alike. -/
theorem Follows.passes (follows : left.Follows right)
    (passes : Passes count left.cursor right.cursor newLeft newRight)
    (keyAllowed : Bool) :
    Follows { left with cursor := newLeft, keyAllowed }
      { right with cursor := newRight, keyAllowed } where
  cursor := passes.follows
  tokens := follows.tokens
  count := follows.count
  blocks := follows.blocks
  keyAllowed := rfl
  possibleKey := relKeys_passes passes follows.possibleKey
  outerKeys := follows.outerKeys.imp fun _ _ => relKeys_passes passes

/-- Both cursors reach the ends of their texts. -/
theorem Follows.ends (follows : left.Follows right)
    (ends : Ends left.cursor newLeft newRight)
    (keyAllowed otherAllowed : Bool) :
    Ended { left with cursor := newLeft, keyAllowed }
      { right with cursor := newRight, keyAllowed := otherAllowed } where
  leftEnd := ends.leftEnd
  rightEnd := ends.rightEnd
  tokens := follows.tokens
  blocks := follows.blocks
  possibleKey := relKeys_ends ends follows.possibleKey
  outerKeys := follows.outerKeys.imp fun _ _ => relKeys_ends ends

/-! ## Blocks -/

theorem Follows.openBlock (follows : left.Follows right) (column position : Nat)
    (token : Token) :
    (left.openBlock column position token).Follows
      (right.openBlock column position token) := by
  unfold Lexing.openBlock
  rw [follows.inFlow, follows.indent]
  split
  · exact follows
  · split
    · have inserted := follows.insert position token
      exact ⟨inserted.cursor, inserted.tokens, inserted.count,
        congrArg (column :: ·) follows.blocks, inserted.keyAllowed,
        inserted.possibleKey, inserted.outerKeys⟩
    · exact follows

@[simp] theorem openBlock_cursor (lexing : Lexing) (column position : Nat)
    (token : Token) :
    (lexing.openBlock column position token).cursor = lexing.cursor := by
  unfold Lexing.openBlock
  split
  · rfl
  · split <;> rfl

private theorem Follows.closeBlocks (follows : left.Follows right)
    (condition : Nat → Bool) (columns : List Nat) :
    (Lexing.closeBlocks condition columns left).Follows
      (Lexing.closeBlocks condition columns right) := by
  induction columns generalizing left right with
  | nil => exact follows
  | cons column outer induction =>
      unfold Lexing.closeBlocks
      split
      · apply induction
        have pushed := follows.push .blockEnd
        exact ⟨pushed.cursor, pushed.tokens, pushed.count, rfl,
          pushed.keyAllowed, pushed.possibleKey, pushed.outerKeys⟩
      · exact follows

private theorem Follows.closeBlocksAfter (follows : left.Follows right)
    (column : Nat) :
    (left.closeBlocksAfter column).Follows (right.closeBlocksAfter column) := by
  unfold Lexing.closeBlocksAfter
  rw [follows.inFlow, follows.blocks]
  split
  · exact follows
  · exact follows.closeBlocks _ _

theorem Follows.closeAllBlocks (follows : left.Follows right) :
    left.closeAllBlocks.Follows right.closeAllBlocks := by
  unfold Lexing.closeAllBlocks
  rw [follows.inFlow, follows.blocks]
  split
  · exact follows
  · exact follows.closeBlocks _ _

private theorem closeBlocks_eq (condition : Nat → Bool) (columns : List Nat)
    (lexing : Lexing) :
    Lexing.closeBlocks condition columns lexing =
      { lexing with
        tokens := (Lexing.closeBlocks condition columns lexing).tokens,
        count := (Lexing.closeBlocks condition columns lexing).count,
        blocks := (Lexing.closeBlocks condition columns lexing).blocks } := by
  induction columns generalizing lexing with
  | nil => rfl
  | cons column outer induction =>
      unfold Lexing.closeBlocks
      split
      · exact induction _
      · rfl

private theorem closeAllBlocks_eq (lexing : Lexing) :
    lexing.closeAllBlocks =
      { lexing with
        tokens := lexing.closeAllBlocks.tokens,
        count := lexing.closeAllBlocks.count,
        blocks := lexing.closeAllBlocks.blocks } := by
  unfold Lexing.closeAllBlocks
  split
  · rfl
  · exact closeBlocks_eq _ _ _

private theorem closeBlocksAfter_eq (lexing : Lexing) (column : Nat) :
    lexing.closeBlocksAfter column =
      { lexing with
        tokens := (lexing.closeBlocksAfter column).tokens,
        count := (lexing.closeBlocksAfter column).count,
        blocks := (lexing.closeBlocksAfter column).blocks } := by
  unfold Lexing.closeBlocksAfter
  split
  · rfl
  · exact closeBlocks_eq _ _ _

@[simp] theorem closeAllBlocks_cursor (lexing : Lexing) :
    lexing.closeAllBlocks.cursor = lexing.cursor := by
  rw [closeAllBlocks_eq]

@[simp] theorem closeBlocksAfter_cursor (lexing : Lexing) (column : Nat) :
    (lexing.closeBlocksAfter column).cursor = lexing.cursor := by
  rw [closeBlocksAfter_eq]

/-! ## Keys -/

/-- States that are alike, and differ from earlier ones in the
possible key only. -/
structure Rekeyed (left right newLeft newRight : Lexing) : Prop where
  follows : newLeft.Follows newRight
  left : newLeft = { left with possibleKey := newLeft.possibleKey }
  right : newRight = { right with possibleKey := newRight.possibleKey }

private theorem Follows.rekey (follows : left.Follows right)
    {key other : Option PossibleKey}
    (related : Option.Rel (PossibleKey.Follows left.cursor right.cursor)
      key other) :
    Rekeyed left right { left with possibleKey := key }
      { right with possibleKey := other } where
  follows := ⟨follows.cursor, follows.tokens, follows.count, follows.blocks,
    follows.keyAllowed, related, follows.outerKeys⟩
  left := rfl
  right := rfl

theorem Rekeyed.stays {newLeft newRight : Lexing}
    (rekeyed : Rekeyed left right newLeft newRight) :
    Stays left.cursor right.cursor newLeft newRight where
  follows := rekeyed.follows
  leftCursor := by rw [rekeyed.left]
  rightCursor := by rw [rekeyed.right]

private theorem dropKey_tracks {key other : Option PossibleKey}
    {before otherBefore : Cursor}
    (related : Option.Rel (PossibleKey.Follows before otherBefore) key other) :
    Tracks (Option.Rel (PossibleKey.Follows before otherBefore)) (dropKey key)
      (dropKey other) := by
  cases related with
  | none => exact .ok .none
  | some follows =>
      unfold dropKey
      dsimp only
      rw [follows.required]
      exact .ite (fun _ => .error _ _) fun _ => .ok .none

theorem Follows.withoutKey (follows : left.Follows right) :
    Tracks (Rekeyed left right) left.withoutKey right.withoutKey := by
  apply (dropKey_tracks follows.possibleKey).bind
  intro key other related
  exact .ok (follows.rekey related)

theorem Follows.noteKey (follows : left.Follows right) :
    Tracks (Rekeyed left right) left.noteKey right.noteKey := by
  unfold Lexing.noteKey
  rw [follows.keyAllowed]
  refine .ite (fun _ => .ok ⟨follows, rfl, rfl⟩) fun _ => ?_
  apply (follows.withoutKey).bind
  intro newLeft newRight unkeyed
  have placed : PossibleKey.Follows newLeft.cursor newRight.cursor
      { required :=
          !newLeft.inFlow && newLeft.blocks.head? == some newLeft.cursor.column,
        position := newLeft.count, cursor := newLeft.cursor }
      { required := !newRight.inFlow &&
          newRight.blocks.head? == some newRight.cursor.column,
        position := newRight.count, cursor := newRight.cursor } := by
    refine ⟨?_, unkeyed.follows.count, unkeyed.follows.cursor.line.symm,
      unkeyed.follows.cursor.column.symm, Nat.le_refl _, fun _ =>
        Nat.add_comm _ _⟩
    simp only [unkeyed.follows.inFlow, unkeyed.follows.blocks,
      unkeyed.follows.cursor.column]
  have noted := unkeyed.follows.rekey (.some placed)
  refine .ok ⟨noted.follows, ?_, ?_⟩
  · rw [unkeyed.left]
  · rw [unkeyed.right]

private theorem dropStaleKey_tracks {key other : Option PossibleKey}
    {before otherBefore : Cursor} (cursors : before.Follows otherBefore)
    (related : Option.Rel (PossibleKey.Follows before otherBefore) key other) :
    Tracks (Option.Rel (PossibleKey.Follows before otherBefore))
      (dropStaleKey before key) (dropStaleKey otherBefore other) := by
  cases related with
  | none => exact .ok .none
  | @some place otherPlace follows =>
      have line := follows.line
      have cursorLine := cursors.line
      have behind := follows.behind
      have index := follows.index
      have stale : (otherPlace.cursor.line < otherBefore.line ||
            otherPlace.cursor.index + 1024 < otherBefore.index) =
          (place.cursor.line < before.line ||
              place.cursor.index + 1024 < before.index) := by
        rw [Bool.eq_iff_iff]
        simp only [Bool.or_eq_true, decide_eq_true_eq]
        omega
      unfold dropStaleKey
      dsimp only
      rw [stale]
      exact .ite (fun _ => dropKey_tracks (.some follows)) fun _ =>
        .ok (.some follows)

private theorem Follows.withoutStaleKeys (follows : left.Follows right) :
    Tracks (Stays left.cursor right.cursor) left.withoutStaleKeys
      right.withoutStaleKeys := by
  apply (dropStaleKey_tracks follows.cursor follows.possibleKey).bind
  intro key otherKey related
  have outer : Tracks
    (List.Forall₂ (Option.Rel (PossibleKey.Follows left.cursor right.cursor)))
      (left.outerKeys.mapM (dropStaleKey left.cursor))
      (right.outerKeys.mapM (dropStaleKey right.cursor)) := by
    intro keys success
    exact mapM_alike follows.outerKeys
      (fun _ _ result related =>
        dropStaleKey_tracks follows.cursor related result) success
  apply outer.bind
  intro keys otherKeys relatedKeys
  exact .ok ⟨⟨follows.cursor, follows.tokens, follows.count, follows.blocks,
    follows.keyAllowed, related, relatedKeys⟩, rfl, rfl⟩

/-! ## Spaces -/

/-- The place behind a byte order mark that starts a line. -/
def pastMark (cursor : Cursor) : Cursor :=
  if cursor.column == 0 && cursor.peek.any (·.toNat == 0xfeff) then
    cursor.advance else cursor

/-- The place behind the blanks and the comment that follow. -/
def spaced (lexing : Lexing) : Cursor :=
  let tabs := lexing.inFlow || !lexing.keyAllowed
  ((pastMark lexing.cursor).dropWhile fun character =>
    character == ' ' || (tabs && character == '\t')).dropComment

private theorem skipSpace_succ (rounds : Nat) (lexing : Lexing) :
    skipSpace (rounds + 1) lexing =
      if lexing.spaced.peek.any isBreak then
        skipSpace rounds { lexing with
          cursor := lexing.spaced.advanceLine, keyAllowed :=
            lexing.keyAllowed || !lexing.inFlow }
      else { lexing with cursor := lexing.spaced } :=
  rfl

private theorem skipSpace_nil {lexing : Lexing}
    (atEnd : lexing.cursor.rest = []) (rounds : Nat) :
    skipSpace rounds lexing = lexing := by
  cases rounds with
  | zero => rfl
  | succ rounds =>
      obtain ⟨⟨rest, index, line, column⟩, _, _, _, _, _, _⟩ := lexing
      subst atEnd
      simp [skipSpace_succ, spaced, pastMark, Cursor.peek, Cursor.dropWhile,
        Cursor.takeWhile, Cursor.dropComment, Cursor.at_]

private theorem passes_pastMark {before otherBefore : Cursor}
    (follows : before.Follows otherBefore) :
    Passes 0 before otherBefore (pastMark before) (pastMark otherBefore) := by
  unfold pastMark
  rw [← follows.column,
    ← follows.test_peek (fun next => next.any (·.toNat == 0xfeff)) (by decide)]
  split
  · rename_i marked
    obtain ⟨character, stands, mark⟩ :=
      (Option.any_eq_true _ _).mp (Bool.and_eq_true_iff.mp marked).2
    have visible := visible_of_test (·.toNat == 0xfeff) (by decide) mark
    exact (follows.advance stands visible).weaken (Nat.zero_le 1)
  · exact .refl follows

private theorem Follows.spaced (follows : left.Follows right) :
    Passes 0 left.cursor right.cursor left.spaced right.spaced := by
  have tabsEnd (tabs : Bool) : ∀ character ∈ lineBreaks,
      (character == ' ' || (tabs && character == '\t')) = false := by
    cases tabs <;> decide
  unfold Lexing.spaced
  rw [follows.inFlow, follows.keyAllowed]
  have mark := passes_pastMark follows.cursor
  have blanks :=
    mark.follows.dropWhile _ (tabsEnd (left.inFlow || !left.keyAllowed))
  exact mark.trans (blanks.trans blanks.follows.dropComment)

/-- What becomes of two texts when spaces are passed. -/
def Spaced (left right newLeft newRight : Lexing) : Prop :=
  (newLeft.Follows newRight ∧ newLeft.cursor.peek.any isBreak = false ∧
      Passes 0 left.cursor right.cursor newLeft.cursor newRight.cursor) ∨
    newLeft.Ended newRight

private theorem Follows.skipSpace {rounds otherRounds : Nat}
    (follows : left.Follows right) (enough : left.cursor.rest.length < rounds)
    (otherEnough : right.cursor.rest.length < otherRounds) :
    Spaced left right (Lexing.skipSpace rounds left)
      (Lexing.skipSpace otherRounds right) := by
  induction rounds generalizing left right otherRounds with
  | zero => cases enough
  | succ rounds induction =>
      obtain ⟨otherRounds, rfl⟩ :=
        Nat.exists_eq_succ_of_ne_zero (Nat.ne_zero_of_lt otherEnough)
      have spaces := follows.spaced
      rw [skipSpace_succ, skipSpace_succ, follows.inFlow, follows.keyAllowed]
      cases stands : left.spaced.peek.any isBreak with
      | false =>
          rw [spaces.follows.any_isBreak_eq_false stands]
          exact .inl ⟨follows.passes spaces left.keyAllowed, stands, spaces⟩
      | true =>
          obtain ⟨character, next, breaks⟩ := (Option.any_eq_true _ _).mp stands
          rw [if_pos rfl]
          cases spaces.follows.breaks next breaks with
          | both other otherNext otherBreaks _ passes =>
              rw [otherNext, Option.any_some, if_pos otherBreaks]
              have steps := spaces.trans passes
              have goesOn :=
                follows.passes steps (left.keyAllowed || !left.inFlow)
              rcases induction goesOn (steps.left_lt enough)
                (steps.right_lt otherEnough)
                with ⟨further, noBreak, rest⟩ | ended
              · exact .inl ⟨further, noBreak,
                  (steps.trans rest).weaken (Nat.zero_le _)⟩
              · exact .inr ended
          | last rightEnd _ _ ends =>
              rw [skipSpace_nil ends.leftEnd]
              have noBreak : right.spaced.peek.any isBreak = false := by
                rw [Cursor.peek, rightEnd]
                rfl
              rw [noBreak, if_neg Bool.false_ne_true]
              exact .inr (follows.ends (ends.after spaces) _ _)

/-! ## The next token -/

/-- Gives up the keys that have ended, and closes the blocks that have. -/
def settle (lexing : Lexing) : Except YamlError Lexing := do
  let lexing ← lexing.withoutStaleKeys
  return lexing.closeBlocksAfter lexing.cursor.column

/-- The state in which the next token starts. -/
def ready (lexing : Lexing) : Except YamlError Lexing :=
  (skipSpace (lexing.cursor.rest.length + 1) lexing).settle

theorem run_succ (rounds : Nat) (lexing : Lexing) :
    run (rounds + 1) lexing = lexing.ready >>= fun lexing =>
      match lexing.cursor.peek with
      | none => lexing.endStream
      | some character => lexing.lexCharacter character >>= run rounds := by
  rw [run, ready, settle]
  cases (skipSpace (lexing.cursor.rest.length + 1) lexing).withoutStaleKeys with
  | error => rfl
  | ok settled =>
      simp only [ok_bind, pure_bind]
      cases (settled.closeBlocksAfter settled.cursor.column).cursor.peek with
      | none => rfl
      | some character =>
          dsimp only
          cases (settled.closeBlocksAfter settled.cursor.column).lexCharacter
            character <;> rfl

/-! ### At the ends of both texts -/

private theorem closeAll_closeBlocks (condition : Nat → Bool)
    (lexing : Lexing) :
    closeBlocks (fun _ => true) (closeBlocks condition lexing.blocks
      lexing).blocks (closeBlocks condition lexing.blocks lexing) =
      closeBlocks (fun _ => true) lexing.blocks lexing := by
  generalize open_ : lexing.blocks = columns
  induction columns generalizing lexing with
  | nil => simp only [closeBlocks, open_]
  | cons column outer induction =>
      cases holds : condition column with
      | true =>
          simp only [closeBlocks, holds, if_true]
          exact induction _ rfl
      | false =>
          simp only [closeBlocks, holds, Bool.false_eq_true, if_false,
            if_true, open_]

private theorem closeAllBlocks_closeBlocksAfter (lexing : Lexing)
    (column : Nat) :
    (lexing.closeBlocksAfter column).closeAllBlocks =
      lexing.closeAllBlocks := by
  unfold Lexing.closeBlocksAfter
  split
  · rfl
  · rename_i outside
    have stillOutside :
        (Lexing.closeBlocks (column < ·) lexing.blocks lexing).inFlow =
          lexing.inFlow := by
      rw [closeBlocks_eq]
      rfl
    simp only [Lexing.closeAllBlocks, stillOutside, outside,
      closeAll_closeBlocks, Bool.false_eq_true, if_false]

private theorem closeAllBlocks_tokens (lexing : Lexing) :
    lexing.closeAllBlocks.tokens =
      if lexing.inFlow then lexing.tokens
      else List.replicate lexing.blocks.length .blockEnd ++ lexing.tokens := by
  have closes (columns : List Nat) (lexing : Lexing) :
      (closeBlocks (fun _ => true) columns lexing).tokens =
        List.replicate columns.length .blockEnd ++ lexing.tokens := by
    induction columns generalizing lexing with
    | nil => rfl
    | cons column outer induction =>
        rw [closeBlocks, if_pos rfl, induction, List.length_cons,
          List.replicate_succ']
        simp [Lexing.push]
  unfold Lexing.closeAllBlocks
  split
  · rfl
  · exact closes _ _

/-- Texts that have been read up to their ends, with no key that is required. -/
structure Finished (left right : Lexing) : Prop where
  leftEnd : left.cursor.rest = []
  rightEnd : right.cursor.rest = []
  tokens : right.closeAllBlocks.tokens = left.closeAllBlocks.tokens
  leftKey : dropKey left.possibleKey = .ok none
  rightKey : dropKey right.possibleKey = .ok none

/-- Keys that may be given up. -/
def Droppable (key other : Option PossibleKey) : Prop :=
  dropKey key = .ok none ∧ dropKey other = .ok none

private theorem dropStaleKey_ended {key other : Option PossibleKey}
    {before otherBefore : Cursor}
    (related : Option.Rel (PossibleKey.Ended before) key other) :
    Tracks Droppable (dropStaleKey before key)
      (dropStaleKey otherBefore other) := by
  cases related with
  | none => exact .ok ⟨rfl, rfl⟩
  | @some place otherPlace ended =>
      have stale : (place.cursor.line < before.line ||
          place.cursor.index + 1024 < before.index) = true := by
        rw [decide_eq_true ended.stale, Bool.true_or]
      unfold dropStaleKey
      dsimp only
      rw [if_pos stale]
      cases needed : place.required with
      | true =>
          rw [dropKey, needed]
          exact .error _ _
      | false =>
          have dropped : dropKey (some place) = .ok none := by
            rw [dropKey, needed]
            rfl
          have otherDropped : dropKey (some otherPlace) = .ok none := by
            rw [dropKey, ended.required, needed]
            rfl
          rw [dropped, otherDropped]
          split
          · exact .ok ⟨rfl, rfl⟩
          · exact .ok ⟨rfl, otherDropped⟩

private theorem Ended.settle (ended : left.Ended right) :
    Tracks Finished left.settle right.settle := by
  -- The first text has left the lines of its keys.  So none of them is
  -- required, nor is any of the other text, which may still stand in the line
  -- of its own.
  have outer : Tracks (List.Forall₂ Droppable)
    (left.outerKeys.mapM (dropStaleKey left.cursor))
      (right.outerKeys.mapM (dropStaleKey right.cursor)) := by
    intro keys success
    exact mapM_alike ended.outerKeys
      (fun _ _ result related => dropStaleKey_ended related result) success
  have settles :
      Tracks Finished left.withoutStaleKeys right.withoutStaleKeys := by
    apply (dropStaleKey_ended ended.possibleKey).bind
    intro key otherKey droppable
    apply outer.bind
    intro keys otherKeys relatedKeys
    have sameFlow : Lexing.inFlow
      { right with possibleKey := otherKey, outerKeys := otherKeys } =
      Lexing.inFlow { left with possibleKey := key, outerKeys := keys } :=
      inFlow_eq relatedKeys
    refine .ok ⟨ended.leftEnd, ended.rightEnd, ?_, droppable.1, droppable.2⟩
    rw [closeAllBlocks_tokens, closeAllBlocks_tokens, sameFlow, ended.tokens,
      ended.blocks]
  apply settles.bind
  intro newLeft newRight finished
  refine .ok ⟨?_, ?_, ?_, ?_, ?_⟩
  · rw [closeBlocksAfter_cursor]
    exact finished.leftEnd
  · rw [closeBlocksAfter_cursor]
    exact finished.rightEnd
  · rw [closeAllBlocks_closeBlocksAfter, closeAllBlocks_closeBlocksAfter]
    exact finished.tokens
  · rw [closeBlocksAfter_eq]
    exact finished.leftKey
  · rw [closeBlocksAfter_eq]
    exact finished.rightKey

/-- The same tokens were cut from two texts. -/
def SameTokens (left right : Lexing) : Prop := right.tokens = left.tokens

theorem Finished.endStream (finished : left.Finished right) :
    Tracks SameTokens left.endStream right.endStream := by
  have leftKey : left.closeAllBlocks.possibleKey = left.possibleKey := by
    rw [closeAllBlocks_eq]
  have rightKey : right.closeAllBlocks.possibleKey = right.possibleKey := by
    rw [closeAllBlocks_eq]
  unfold Lexing.endStream Lexing.withoutKey
  rw [leftKey, rightKey, finished.leftKey, finished.rightKey]
  exact .ok (congrArg (Token.streamEnd :: ·) finished.tokens)

/-! ### Within both texts -/

private theorem Follows.settle (follows : left.Follows right) :
    Tracks (Stays left.cursor right.cursor) left.settle right.settle := by
  apply follows.withoutStaleKeys.bind
  rintro newLeft newRight ⟨further, sameLeft, sameRight⟩
  rw [← further.cursor.column]
  refine .ok ⟨further.closeBlocksAfter _, ?_, ?_⟩
  · rw [closeBlocksAfter_cursor, sameLeft]
  · rw [closeBlocksAfter_cursor, sameRight]

theorem Follows.endStream (follows : left.Follows right) :
    Tracks SameTokens left.endStream right.endStream := by
  apply follows.closeAllBlocks.withoutKey.bind
  intro newLeft newRight unkeyed
  exact .ok (unkeyed.follows.push .streamEnd).tokens

/-- The states in which the next tokens start, within both texts or
at their ends. -/
def Readied (left right : Cursor) (newLeft newRight : Lexing) : Prop :=
  (newLeft.Follows newRight ∧ newLeft.cursor.peek.any isBreak = false ∧
      Passes 0 left right newLeft.cursor newRight.cursor) ∨
    newLeft.Finished newRight

theorem Follows.ready (follows : left.Follows right) :
    Tracks (Readied left.cursor right.cursor) left.ready right.ready := by
  rcases follows.skipSpace (Nat.lt_succ_self _) (Nat.lt_succ_self _) with
    ⟨further, noBreak, passes⟩ | ended
  · apply further.settle.mono
    rintro newLeft newRight ⟨settled, sameLeft, sameRight⟩
    rw [← sameLeft] at noBreak passes
    rw [← sameRight] at passes
    exact .inl ⟨settled, noBreak, passes⟩
  · exact ended.settle.mono fun _ _ => .inr

theorem Ended.ready (ended : left.Ended right) :
    Tracks Finished left.ready right.ready := by
  unfold Lexing.ready
  rw [skipSpace_nil ended.leftEnd, skipSpace_nil ended.rightEnd]
  exact ended.settle

end Lexing

end CiPipeline.Yaml
