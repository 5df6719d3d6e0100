import CiPipeline.Proofs.Yaml.Lexing

/-!
# Single tokens of texts whose lines are joined again

Every kind of token is cut alike from a text and from its joined lines: the same
tokens are added, and both cursors go on by a character at least or reach the
ends of their texts.  Only a block scalar may lose the end of the last line.
-/

namespace CiPipeline.Yaml.Lexing

open Cursor Sequencing

variable {left right newLeft newRight : Lexing} {character : Char}

/-- What becomes of two texts from which a token is cut. -/
def Lexed (left right : Cursor) (newLeft newRight : Lexing) : Prop :=
  (newLeft.Follows newRight ∧
    Passes 1 left right newLeft.cursor newRight.cursor) ∨
    newLeft.Ended newRight

/-! ## Adding a token -/

section Adding

variable {leftPlace rightPlace leftCursor rightCursor : Cursor}

private theorem Stays.lexed (stays : Stays leftPlace rightPlace left right)
    (passes : Passes 1 leftPlace rightPlace leftCursor rightCursor)
    (token : Token) (keyAllowed : Bool) :
    Lexed leftPlace rightPlace
      { left.push token with cursor := leftCursor, keyAllowed }
      { right.push token with cursor := rightCursor, keyAllowed } := by
  obtain ⟨follows, rfl, rfl⟩ := stays
  exact .inl ⟨(follows.push token).passes passes keyAllowed, passes⟩

private theorem Stays.lexed_last (stays : Stays leftPlace rightPlace left right)
    (ends : Ends leftPlace leftCursor rightCursor) (token : Token)
    (keyAllowed otherAllowed : Bool) :
    Lexed leftPlace rightPlace { left.push token with
      cursor := leftCursor, keyAllowed } { right.push token with
        cursor := rightCursor, keyAllowed := otherAllowed } := by
  obtain ⟨follows, rfl, rfl⟩ := stays
  exact .inr ((follows.push token).ends ends keyAllowed otherAllowed)

private theorem Stays.lexed_indicator
    (stays : Stays leftPlace rightPlace left right) {length : Nat}
    (passes : Passes 1 leftPlace rightPlace (leftPlace.advanceBy length)
      (rightPlace.advanceBy length)) (token : Token) (keyAllowed : Bool) :
    Lexed leftPlace rightPlace { left.pushIndicator length token with
      keyAllowed } { right.pushIndicator length token with keyAllowed } := by
  obtain ⟨_, rfl, rfl⟩ := id stays
  exact stays.lexed passes token keyAllowed

private theorem Stays.withoutKey
    (stays : Stays leftPlace rightPlace left right) :
    Tracks (Stays leftPlace rightPlace) left.withoutKey right.withoutKey := by
  obtain ⟨follows, rfl, rfl⟩ := stays
  exact follows.withoutKey.mono fun _ _ => Rekeyed.stays

end Adding

/-! ## Indicators -/

/-- Leaves the innermost bracket. -/
def leaveFlow (lexing : Lexing) : Lexing :=
  match lexing.outerKeys with
  | [] => lexing
  | key :: outer => { lexing with possibleKey := key, outerKeys := outer }

private theorem closeFlow_eq (lexing : Lexing) (token : Token) :
    lexing.closeFlow token = lexing.withoutKey >>= fun lexing =>
      .ok (leaveFlow
          { lexing.pushIndicator 1 token with keyAllowed := false }) := by
  unfold Lexing.closeFlow
  apply bind_congr
  intro lexing
  unfold leaveFlow
  dsimp only
  cases (lexing.pushIndicator 1 token).outerKeys <;> rfl

@[simp] theorem leaveFlow_cursor (lexing : Lexing) :
    (leaveFlow lexing).cursor = lexing.cursor := by
  unfold leaveFlow
  split <;> rfl

private theorem Follows.leaveFlow (follows : left.Follows right) :
    (leaveFlow left).Follows (leaveFlow right) := by
  obtain ⟨_, _, _, _, _, _, outer⟩ := left
  obtain ⟨_, _, _, _, _, _, otherOuter⟩ := right
  obtain ⟨cursor, tokens, count, blocks, keyAllowed, possibleKey, outerKeys⟩ :=
    follows
  dsimp only at outerKeys
  cases outerKeys with
  | nil => exact ⟨cursor, tokens, count, blocks, keyAllowed, possibleKey, .nil⟩
  | cons key keys =>
      exact ⟨cursor, tokens, count, blocks, keyAllowed, key, keys⟩

private theorem Follows.stays (follows : left.Follows right) :
    Stays left.cursor right.cursor left right :=
  ⟨follows, rfl, rfl⟩

private theorem Follows.stays_openBlock (follows : left.Follows right)
    (column position : Nat) (token : Token) :
    Stays left.cursor right.cursor (left.openBlock column position token)
      (right.openBlock column position token) :=
  ⟨follows.openBlock column position token, openBlock_cursor _ _ _ _,
    openBlock_cursor _ _ _ _⟩

private theorem Follows.stays_closeAllBlocks (follows : left.Follows right) :
    Stays left.cursor right.cursor left.closeAllBlocks right.closeAllBlocks :=
  ⟨follows.closeAllBlocks, closeAllBlocks_cursor _, closeAllBlocks_cursor _⟩

section Indicators

variable (follows : left.Follows right)
  (stands : left.cursor.peek = some character)
  (visible : isBreak character = false)
include follows stands visible

private theorem openFlow_tracks (token : Token) :
    Tracks (Lexed left.cursor right.cursor) (left.openFlow token)
      (right.openFlow token) := by
  have passes := follows.cursor.advance stands visible
  apply follows.noteKey.bind
  intro newLeft newRight noted
  rw [← noted.stays.leftCursor, ← noted.stays.rightCursor] at passes ⊢
  have opened := (noted.follows.push token).passes passes true
  exact .ok (.inl
    ⟨⟨opened.cursor, opened.tokens, opened.count, opened.blocks, rfl, .none,
    .cons opened.possibleKey opened.outerKeys⟩, passes⟩)

private theorem closeFlow_tracks (token : Token) :
    Tracks (Lexed left.cursor right.cursor) (left.closeFlow token)
      (right.closeFlow token) := by
  have passes := follows.cursor.advance stands visible
  rw [closeFlow_eq, closeFlow_eq]
  apply follows.withoutKey.bind
  intro newLeft newRight unkeyed
  rw [← unkeyed.stays.leftCursor, ← unkeyed.stays.rightCursor] at passes ⊢
  have closed := (unkeyed.follows.push token).passes passes false
  refine .ok (.inl ⟨closed.leaveFlow, ?_⟩)
  rw [leaveFlow_cursor, leaveFlow_cursor]
  exact passes

private theorem unkeyedIndicator_tracks {start otherStart : Lexing}
    (stays : Stays left.cursor right.cursor start otherStart) (token : Token)
    (keyAllowed : Lexing → Bool)
    (same : ∀ newLeft newRight : Lexing, newLeft.Follows newRight →
      keyAllowed newRight = keyAllowed newLeft) :
    Tracks (Lexed left.cursor right.cursor)
      (start.withoutKey >>= fun lexing =>
        .ok { lexing.pushIndicator 1 token with
          keyAllowed := keyAllowed lexing })
      (otherStart.withoutKey >>= fun lexing =>
        .ok { lexing.pushIndicator 1 token with
          keyAllowed := keyAllowed lexing }) := by
  have passes : Passes 1 left.cursor right.cursor (left.cursor.advanceBy 1)
      (right.cursor.advanceBy 1) := follows.cursor.advance stands visible
  apply stays.withoutKey.bind
  intro newLeft newRight unkeyed
  rw [same newLeft newRight unkeyed.follows]
  exact .ok (unkeyed.lexed_indicator passes token _)

private theorem lexFlowEntry_tracks :
    Tracks (Lexed left.cursor right.cursor) left.lexFlowEntry
      right.lexFlowEntry :=
  unkeyedIndicator_tracks follows stands visible follows.stays .flowEntry
    (fun _ => true) fun _ _ _ => rfl

private theorem lexBlockEntry_tracks :
    Tracks (Lexed left.cursor right.cursor) left.lexBlockEntry
      right.lexBlockEntry := by
  unfold Lexing.lexBlockEntry
  rw [follows.inFlow, follows.keyAllowed, ← follows.cursor.column,
    follows.count]
  refine .ite (fun _ => .error _ _) fun _ => ?_
  have opened :=
    follows.stays_openBlock left.cursor.column left.count .blockSequenceStart
  exact unkeyedIndicator_tracks follows stands visible opened .blockEntry
    (fun _ => true) fun _ _ _ => rfl

private theorem lexKey_tracks :
    Tracks (Lexed left.cursor right.cursor) left.lexKey right.lexKey := by
  unfold Lexing.lexKey
  rw [follows.inFlow, follows.keyAllowed, ← follows.cursor.column,
    follows.count]
  refine .ite (fun _ => .error _ _) fun _ => ?_
  have opened :=
    follows.stays_openBlock left.cursor.column left.count .blockMappingStart
  exact unkeyedIndicator_tracks follows stands visible opened .key
    (fun lexing => !lexing.inFlow) fun _ _ further =>
      congrArg (!·) further.inFlow

private theorem lexValue_tracks :
    Tracks (Lexed left.cursor right.cursor) left.lexValue right.lexValue := by
  have passes : Passes 1 left.cursor right.cursor (left.cursor.advanceBy 1)
      (right.cursor.advanceBy 1) := follows.cursor.advance stands visible
  unfold Lexing.lexValue
  have keys := follows.possibleKey
  generalize left.possibleKey = key at keys ⊢
  generalize right.possibleKey = otherKey at keys ⊢
  cases keys with
  | none =>
      dsimp only
      rw [follows.inFlow, follows.keyAllowed, ← follows.cursor.column,
        follows.count]
      refine .ite (fun _ => .error _ _) fun _ => ?_
      have opened :=
        follows.stays_openBlock left.cursor.column left.count .blockMappingStart
      rw [opened.follows.inFlow]
      exact .ok (opened.lexed_indicator passes .value _)
  | @some place other placed =>
      dsimp only
      rw [placed.position, placed.column]
      have announced : Stays left.cursor right.cursor _ _ :=
        (follows.insert place.position .key).stays_openBlock place.cursor.column
          place.position .blockMappingStart
      have behind := passes
      rw [← announced.leftCursor, ← announced.rightCursor] at behind
      have valued := (announced.follows.push .value).passes behind false
      refine .ok (.inl
        ⟨⟨valued.cursor, valued.tokens, valued.count, valued.blocks, rfl, .none,
        valued.outerKeys⟩, ?_⟩)
      rw [← announced.leftCursor, ← announced.rightCursor]
      exact behind

end Indicators

private theorem lexBoundary_tracks (follows : left.Follows right)
    (boundary : left.cursor.atIndicator character = true)
    (visible : isBreak character = false) (token : Token) :
    Tracks (Lexed left.cursor right.cursor) (left.lexBoundary token)
      (right.lexBoundary token) := by
  have passes : Passes 1 left.cursor right.cursor (left.cursor.advanceBy 3)
      (right.cursor.advanceBy 3) :=
    follows.cursor.advanceIndicator boundary visible
  apply follows.stays_closeAllBlocks.withoutKey.bind
  intro newLeft newRight unkeyed
  exact .ok (unkeyed.lexed_indicator passes token false)

/-! ## Tokens that are read -/

section Readers

variable (follows : left.Follows right)
  (stands : left.cursor.peek = some character)
  (visible : isBreak character = false)
include follows stands visible

private theorem lexDirective_tracks :
    Tracks (Lexed left.cursor right.cursor) left.lexDirective
      right.lexDirective := by
  apply follows.stays_closeAllBlocks.withoutKey.bind
  intro newLeft newRight unkeyed
  rw [unkeyed.leftCursor, unkeyed.rightCursor]
  apply (readDirective_tracks follows.cursor stands visible).bind
  rintro ⟨_, leftCursor⟩ ⟨token, rightCursor⟩ ⟨rfl, passes | ends⟩
  · exact .ok (unkeyed.lexed passes _ false)
  · exact .ok (unkeyed.lexed_last ends _ false false)

private theorem lexAnchor_tracks (token : String → Token) :
    Tracks (Lexed left.cursor right.cursor) (left.lexAnchor token)
      (right.lexAnchor token) := by
  apply follows.noteKey.bind
  intro newLeft newRight noted
  rw [noted.stays.leftCursor, noted.stays.rightCursor]
  apply (readAnchor_tracks follows.cursor stands visible).bind
  rintro ⟨_, leftCursor⟩ ⟨name, rightCursor⟩ ⟨rfl, passes⟩
  exact .ok (noted.stays.lexed passes (token _) false)

private theorem lexTag_tracks :
    Tracks (Lexed left.cursor right.cursor) left.lexTag right.lexTag := by
  apply follows.noteKey.bind
  intro newLeft newRight noted
  rw [noted.stays.leftCursor, noted.stays.rightCursor, noted.follows.inFlow]
  apply (readTag_tracks newLeft.inFlow follows.cursor stands visible).bind
  rintro ⟨_, leftCursor⟩ ⟨token, rightCursor⟩ ⟨rfl, passes⟩
  exact .ok (noted.stays.lexed passes _ false)

private theorem lexQuoted_tracks (quote : Char) :
    Tracks (Lexed left.cursor right.cursor) (left.lexQuoted quote)
      (right.lexQuoted quote) := by
  apply follows.noteKey.bind
  intro newLeft newRight noted
  rw [noted.stays.leftCursor, noted.stays.rightCursor]
  apply (readQuoted_tracks follows.cursor stands visible).bind
  rintro ⟨_, leftCursor⟩ ⟨text, rightCursor⟩ ⟨rfl, passes⟩
  exact .ok (noted.stays.lexed passes (.scalar _ false) false)

private theorem lexPlain_tracks (notBlank : isBlank character = false)
    (inside : left.cursor.atDocumentBoundary = false)
    (noValue : (character == ':' &&
      (left.inFlow || isBlankOrEnd (left.cursor.peekAt 1))) = false)
    (noIndicator : isFlowIndicator character = false) :
    Tracks (Lexed left.cursor right.cursor) left.lexPlain right.lexPlain := by
  apply follows.noteKey.bind
  intro newLeft newRight noted
  have inFlow : newLeft.inFlow = left.inFlow := by
    rw [noted.left]
    rfl
  rw [noted.stays.leftCursor, noted.stays.rightCursor, noted.follows.inFlow,
    noted.follows.indent, inFlow]
  apply (readPlain_tracks follows.cursor stands notBlank visible inside noValue
    noIndicator).bind
  rintro ⟨_, leftCursor, broken⟩ ⟨text, rightCursor, otherBroken⟩
    ⟨rfl, ⟨passes, rfl⟩ | ends⟩
  · exact .ok (noted.stays.lexed passes (.scalar _ true) _)
  · exact .ok (noted.stays.lexed_last ends (.scalar _ true) _ _)

private theorem lexBlockScalar_tracks (literal : Bool)
    (notLast : ∀ text cursor,
      readBlock literal left.blocks.head? left.cursor = .ok (text, cursor) →
      cursor.rest = [] → text.toList.getLast? ≠ some '\n') :
    Tracks (Lexed left.cursor right.cursor) (left.lexBlockScalar literal)
      (right.lexBlockScalar literal) := by
  have reads : Tracks (LinesAlike left.cursor right.cursor)
      (readBlock literal left.blocks.head? left.cursor)
      (readBlock literal left.blocks.head? right.cursor) := by
    intro first success
    obtain ⟨second, otherSuccess, alike⟩ :=
      readBlock_tracks follows.cursor stands visible literal _ first success
    refine ⟨second, otherSuccess, ?_⟩
    rcases alike with ⟨same, passes⟩ | ⟨same, ends⟩
    · exact ⟨same, .inl passes⟩
    · exact ⟨same (notLast _ _ success ends.leftEnd), .inr ends⟩
  apply follows.withoutKey.bind
  intro newLeft newRight unkeyed
  have blocks : newLeft.blocks = left.blocks := by
    rw [unkeyed.left]
  rw [unkeyed.stays.leftCursor, unkeyed.stays.rightCursor,
    unkeyed.follows.blocks, blocks]
  apply reads.bind
  rintro ⟨_, leftCursor⟩ ⟨text, rightCursor⟩ ⟨rfl, passes | ends⟩
  · exact .ok (unkeyed.stays.lexed passes (.scalar _ false) true)
  · exact .ok (unkeyed.stays.lexed_last ends (.scalar _ false) true true)

end Readers

/-! ## The token that starts with a character -/

private theorem startsPlain_ends (inFlow : Bool) (character : Char) :
    ∀ ending ∈ lineBreaks, startsPlain inFlow character (some ending) =
      startsPlain inFlow character none := by
  intro ending member
  have breaks := isBreak_iff.mpr member
  simp [startsPlain, isBlankOrEnd, isBlank_of_isBreak breaks, breaks]

/-- A plain scalar starts with a character of its own. -/
theorem of_startsPlain {inFlow : Bool} {next : Option Char}
    (starts : startsPlain inFlow character next = true) :
    isBlank character = false ∧ isFlowIndicator character = false := by
  unfold startsPlain at starts
  split at starts
  · rename_i dash
    rw [beq_iff_eq.mp dash]
    decide
  · split at starts
    · rename_i mark
      rcases Bool.or_eq_true_iff.mp mark with mark | mark
      · rw [beq_iff_eq.mp mark]
        decide
      · rw [beq_iff_eq.mp mark]
        decide
    · simp only [Bool.and_eq_true, Bool.not_eq_true'] at starts
      obtain ⟨⟨notBlank, _⟩, other⟩ := starts
      refine ⟨notBlank, ?_⟩
      cases indicator : isFlowIndicator character with
      | false => rfl
      | true =>
          have all : [',', '[', ']', '\x7b', '\x7d'].all
              (",[]\x7b\x7d#&*!|>'\"%@\x60".toList.contains ·) =
              true := by decide
          rw [List.all_eq_true.mp all character
            (List.contains_iff_mem.mp indicator)] at other
          cases other

/-- Whether a block scalar starts here that goes on to the end of the text and
ends with the end of a line. -/
def endsInBlock (lexing : Lexing) : Bool :=
  !lexing.inFlow && (lexing.cursor.at_ '|' || lexing.cursor.at_ '>') &&
    match readBlock (lexing.cursor.at_ '|') lexing.blocks.head?
      lexing.cursor with
    | .ok (text, cursor) =>
        cursor.rest.isEmpty && text.toList.getLast? == some '\n'
    | .error _ => false

private theorem getLast?_ne_of_endsInBlock {literal : Bool}
    (goesOn : left.endsInBlock = false) (outside : left.inFlow = false)
    (stands : left.cursor.peek = some (if literal then '|' else '>'))
    (text : String) (cursor : Cursor)
    (success : readBlock literal left.blocks.head? left.cursor =
      .ok (text, cursor))
    (atEnd : cursor.rest = []) : text.toList.getLast? ≠ some '\n' := by
  intro last
  have ends : left.endsInBlock = true := by
    cases literal <;>
      simp [Lexing.endsInBlock, outside, Cursor.at_, stands, success,
        atEnd, last]
  rw [goesOn] at ends
  cases ends

theorem lexCharacter_tracks (follows : left.Follows right)
    (stands : left.cursor.peek = some character)
    (visible : isBreak character = false) (goesOn : left.endsInBlock = false) :
    Tracks (Lexed left.cursor right.cursor) (left.lexCharacter character)
      (right.lexCharacter character) := by
  unfold Lexing.lexCharacter
  dsimp only
  rw [follows.inFlow, ← follows.cursor.column, ← follows.cursor.atIndicator (by
    decide), ← follows.cursor.atIndicator (by decide),
    ← follows.cursor.test_peekAt stands visible isBlankOrEnd (by decide),
    ← follows.cursor.test_peekAt stands visible
      (startsPlain left.inFlow character) (startsPlain_ends _ _)]
  refine .ite (fun _ => lexDirective_tracks follows stands visible) fun _ => ?_
  refine .ite (fun boundary =>
    lexBoundary_tracks follows boundary (by decide) _) fun noStart => ?_
  refine .ite (fun boundary =>
    lexBoundary_tracks follows boundary (by decide) _) fun noEnd => ?_
  refine .ite (fun _ => lexBlockEntry_tracks follows stands visible) fun _ => ?_
  refine .ite (fun _ => lexKey_tracks follows stands visible) fun _ => ?_
  refine .ite (fun _ => lexValue_tracks follows stands visible)
    fun noValue => ?_
  split
  · exact openFlow_tracks follows stands visible _
  · exact openFlow_tracks follows stands visible _
  · exact closeFlow_tracks follows stands visible _
  · exact closeFlow_tracks follows stands visible _
  · exact lexFlowEntry_tracks follows stands visible
  · exact lexAnchor_tracks follows stands visible _
  · exact lexAnchor_tracks follows stands visible _
  · exact lexTag_tracks follows stands visible
  · exact lexQuoted_tracks follows stands visible _
  · exact lexQuoted_tracks follows stands visible _
  · -- No other indicator: a block scalar outside of brackets, or a plain
    -- scalar.
    have block {literal : Bool}
        (marks : (character == if literal then '|' else '>') = true)
        (outside : (!left.inFlow) = true) :
        Tracks (Lexed left.cursor right.cursor) (left.lexBlockScalar literal)
          (right.lexBlockScalar literal) := by
      apply lexBlockScalar_tracks follows stands visible
      apply getLast?_ne_of_endsInBlock goesOn (by simpa using outside)
      rw [stands, beq_iff_eq.mp marks]
    refine .ite (fun bar => ?_) fun _ => ?_
    · obtain ⟨bar, outside⟩ := Bool.and_eq_true_iff.mp bar
      exact block bar outside
    refine .ite (fun angle => ?_) fun _ => ?_
    · obtain ⟨angle, outside⟩ := Bool.and_eq_true_iff.mp angle
      exact block angle outside
    refine .ite (fun starts => ?_) fun _ => .error _ _
    obtain ⟨notBlank, noIndicator⟩ := of_startsPlain starts
    have inside : left.cursor.atDocumentBoundary = false := by
      simp only [Cursor.atDocumentBoundary, noStart, noEnd, Bool.or_self]
    exact lexPlain_tracks follows stands visible notBlank inside
      (Bool.eq_false_iff.mpr noValue) noIndicator

end CiPipeline.Yaml.Lexing
