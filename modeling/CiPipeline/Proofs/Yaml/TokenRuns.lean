import CiPipeline.Proofs.Yaml.TokenSteps
import CiPipeline.Yaml.Node

/-!
# Whole texts whose lines are joined again

Token by token, a text is cut as its joined lines are.  So both have the same
tokens, and with them the same trees, values and nodes, unless the text ends
within a block scalar.
-/

namespace CiPipeline

open Sequencing

namespace Yaml

namespace Lexing

variable {left right : Lexing} {rounds otherRounds : Nat}

/-- The states in which the tokens of a text start. -/
def starts : Nat → Lexing → List Lexing
  | 0, _ => []
  | rounds + 1, lexing =>
      match lexing.ready with
      | .error _ => []
      | .ok lexing =>
          match lexing.cursor.peek with
          | none => []
          | some character =>
              match lexing.lexCharacter character with
              | .error _ => [lexing]
              | .ok further => lexing :: starts rounds further

private theorem starts_succ {lexing next further : Lexing} {character : Char}
    (readied : lexing.ready = .ok next)
    (stands : next.cursor.peek = some character)
    (lexed : next.lexCharacter character = .ok further) (rounds : Nat) :
    starts (rounds + 1) lexing = next :: starts rounds further := by
  simp only [starts, readied, stands, lexed]

private theorem run_finished (finished : left.Finished right) :
    Tracks SameTokens
      (match left.cursor.peek with
        | none => left.endStream
        | some character => left.lexCharacter character >>= run rounds)
      (match right.cursor.peek with
        | none => right.endStream
        | some character =>
            right.lexCharacter character >>= run otherRounds) := by
  have leftEnd : left.cursor.peek = none :=
    List.head?_eq_none_iff.mpr finished.leftEnd
  have rightEnd : right.cursor.peek = none :=
    List.head?_eq_none_iff.mpr finished.rightEnd
  rw [leftEnd, rightEnd]
  exact finished.endStream

private theorem run_ended (ended : left.Ended right) (some_ : 0 < rounds)
    (otherSome : 0 < otherRounds) :
    Tracks SameTokens (run rounds left) (run otherRounds right) := by
  obtain ⟨rounds, rfl⟩ :=
    Nat.exists_eq_succ_of_ne_zero (Nat.ne_zero_of_lt some_)
  obtain ⟨otherRounds, rfl⟩ :=
    Nat.exists_eq_succ_of_ne_zero (Nat.ne_zero_of_lt otherSome)
  rw [run_succ, run_succ]
  exact ended.ready.bind fun _ _ finished => run_finished finished

private theorem run_tracks (follows : left.Follows right)
    (enough : left.cursor.rest.length < rounds)
    (otherEnough : right.cursor.rest.length < otherRounds)
    (goesOn : ∀ lexing ∈ starts rounds left, lexing.endsInBlock = false) :
    Tracks SameTokens (run rounds left) (run otherRounds right) := by
  induction rounds generalizing left right otherRounds with
  | zero => cases enough
  | succ rounds induction =>
      obtain ⟨otherRounds, rfl⟩ :=
        Nat.exists_eq_succ_of_ne_zero (Nat.ne_zero_of_lt otherEnough)
      rw [run_succ, run_succ]
      intro last success
      obtain ⟨next, readied, remaining⟩ := bind_eq_ok_iff.mp success
      obtain ⟨otherNext, otherReadied, related⟩ := follows.ready next readied
      rw [otherReadied, ok_bind]
      rcases related with ⟨further, noBreak, passes⟩ | finished
      · cases stands : next.cursor.peek with
        | none =>
            have otherEnd : otherNext.cursor.peek = none :=
              List.head?_eq_none_iff.mpr (further.cursor.rest_nil stands)
            rw [stands] at remaining
            rw [otherEnd]
            exact further.endStream last remaining
        | some character =>
            rw [stands] at remaining noBreak
            rw [further.cursor.peek stands noBreak]
            obtain ⟨state, lexed, rest⟩ := bind_eq_ok_iff.mp remaining
            rw [starts_succ readied stands lexed] at goesOn
            obtain ⟨inside, others⟩ := List.forall_mem_cons.mp goesOn
            obtain ⟨otherState, otherLexed, cut⟩ :=
              lexCharacter_tracks further stands noBreak inside state lexed
            dsimp only
            rw [otherLexed, ok_bind]
            rcases cut with ⟨again, token⟩ | ended
            · have steps := passes.trans token
              exact induction again (steps.left_lt enough)
                (steps.right_lt otherEnough) others last rest
            · -- A character was passed, so a round is left in which the text
              -- ends.
              have leftRest := List.length_pos_of_mem (List.mem_of_head? stands)
              have rightRest := List.length_pos_of_mem
                (List.mem_of_head? (further.cursor.peek stands noBreak))
              have leftPassed := passes.leftPassed
              have rightPassed := passes.rightPassed
              exact run_ended ended (by omega) (by omega) last rest
      · exact run_finished finished last remaining

end Lexing

/-- Whether a text ends with a block scalar that ends with the end of a line. -/
def endsInBlockScalar (text : String) : Bool :=
  (Lexing.starts (text.toList.length + 1)
    { cursor := { rest := text.toList } }).any Lexing.endsInBlock

private theorem Rejoined.all {left right : List Char}
    (rejoined : Rejoined left right) {test : Char → Bool}
    (feed : test '\n' = true) (holds : left.all test = true) :
    right.all test = true := by
  induction rejoined with
  | nothing => rfl
  | lastEnd => rfl
  | lineEnd _ _ _ induction =>
      rw [List.all_append, Bool.and_eq_true] at holds
      rw [List.all_cons, feed, induction holds.2, Bool.and_self]
  | character _ _ _ induction =>
      rw [List.all_cons, Bool.and_eq_true] at holds ⊢
      exact ⟨holds.1, induction holds.2⟩

theorem Token.ofText_eq_ok_iff {text : String} {tokens : List Token} :
    Token.ofText text = .ok tokens ↔ text.toList.all isAllowed = true ∧
      ∃ last, Lexing.run (text.toList.length + 1)
        { cursor := { rest := text.toList } } = .ok last ∧
        last.tokens.reverse = tokens := by
  unfold Token.ofText
  dsimp only
  cases text.toList.all isAllowed with
  | false =>
      rw [eq_false Bool.false_ne_true, false_and]
      exact iff_false_intro fun success => by cases success
  | true =>
      rw [eq_self, true_and]
      exact bind_eq_ok_iff.trans
          (exists_congr fun last => and_congr_right fun _ =>
        Iff.of_eq (Except.ok.injEq _ _))

private theorem Token.ofText_rejoined {text joined : String}
    (rejoined : Rejoined text.toList joined.toList)
    (goesOn : endsInBlockScalar text = false)
    {tokens : List Token} (success : Token.ofText text = .ok tokens) :
    Token.ofText joined = .ok tokens := by
  have starting : Lexing.Follows { cursor := { rest := text.toList } }
      { cursor := { rest := joined.toList } } :=
    ⟨⟨rejoined, rfl, rfl⟩, rfl, rfl, rfl, rfl, .none, .nil⟩
  have inside : ∀ lexing ∈ Lexing.starts (text.toList.length + 1)
      { cursor := { rest := text.toList } }, lexing.endsInBlock = false := by
    simpa [endsInBlockScalar] using goesOn
  obtain ⟨allowed, last, run, shape⟩ := Token.ofText_eq_ok_iff.mp success
  obtain ⟨otherLast, otherRun, same⟩ := Lexing.run_tracks starting
    (Nat.lt_succ_self _) (Nat.lt_succ_self _) inside last run
  refine Token.ofText_eq_ok_iff.mpr
    ⟨rejoined.all (by decide) allowed, otherLast, otherRun, ?_⟩
  rw [same]
  exact shape

end Yaml

/-- A text and its joined lines are the same node. -/
theorem Node.ofYaml_rejoined {text joined : String}
    (rejoined : Yaml.Rejoined text.toList joined.toList)
    (goesOn : Yaml.endsInBlockScalar text = false) {node : Node}
    (success : Node.ofYaml text = .ok node) :
    Node.ofYaml joined = .ok node := by
  unfold Node.ofYaml Yaml.Value.ofText at success ⊢
  unfold Yaml.DocumentTree.ofText at success ⊢
  cases read : Yaml.Token.ofText text with
  | error error =>
      rw [read] at success
      cases success
  | ok tokens =>
      rw [Yaml.Token.ofText_rejoined rejoined goesOn read]
      rw [read] at success
      exact success

end CiPipeline
