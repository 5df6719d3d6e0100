import CiPipeline.Proofs.Condition.Lexing
import CiPipeline.Proofs.Text.Blanks
import Mathlib.Data.List.TakeWhile

/-!
# Lexemes of conditions

A text that splits into tokens is made of one lexeme for each token and of
blanks, and each lexeme by itself is that one token.  Conversely texts of one
token each, with blanks between them, split into these tokens.
-/

namespace CiPipeline.Condition

open CiPipeline.Text

/-! ## Texts that end in a visible character -/

/-- A text that does not end in a blank. -/
def EndsVisibly (text : List Char) : Prop :=
  ∀ last ∈ text.getLast?, isBlank last = false

private theorem endsVisibly_concat (text : List Char) {last : Char}
    (visible : isBlank last = false) :
    EndsVisibly (text ++ [last]) := by
  intro other member
  rw [List.getLast?_concat] at member
  cases member
  exact visible

theorem EndsVisibly.append {text more : List Char} (ends : EndsVisibly text)
    (visible : ∀ character ∈ more, isBlank character = false) :
    EndsVisibly (text ++ more) := by
  rcases List.eq_nil_or_concat more with rfl | ⟨front, last, rfl⟩
  · rwa [List.append_nil]
  · rw [List.concat_eq_append, ← List.append_assoc]
    exact endsVisibly_concat _ (visible last (by simp))

private theorem visible_of_isNameCharacter {character : Char}
    (member : isNameCharacter character = true) :
    isBlank character = false := by
  refine Bool.eq_false_iff.mpr fun blank => ?_
  have noWord := isAlphanumeric_of_isBlank blank
  rw [isNameCharacter, noWord, Bool.false_or, beq_iff_eq] at member
  rw [member] at blank
  cases blank

private theorem isNameCharacter_of_isAlpha {character : Char}
    (letter : character.isAlpha = true) :
    isNameCharacter character = true := by
  have plain : character.toNat < 128 := by
    rcases Bool.or_eq_true_iff.mp letter with upper | lower
    · have bound := (of_decide_eq_true upper).2
      exact Nat.lt_of_le_of_lt (UInt32.le_iff_toNat_le.mp bound) (by decide)
    · have bound := of_decide_eq_true (Bool.and_eq_true_iff.mp lower).2
      exact Nat.lt_of_le_of_lt (UInt32.le_iff_toNat_le.mp bound) (by decide)
  rw [isNameCharacter, isAlphanumeric, if_pos plain, Char.isAlphanum, letter]
  rfl

/-- A blank prolongs no lexeme. -/
theorem separates_of_isBlank {character : Char}
    (blank : isBlank character = true) (text : List Char) :
    Separates (character :: text) := by
  intro first member
  cases member
  have noName : isNameCharacter character = false := by
    refine Bool.eq_false_iff.mpr fun name => ?_
    rw [visible_of_isNameCharacter name] at blank
    cases blank
  refine ⟨noName, ?_, ?_, ?_⟩
  · refine Bool.eq_false_iff.mpr fun letter => ?_
    rw [isNameCharacter_of_isAlpha letter] at noName
    cases noName
  · rintro rfl
    cases blank
  · rintro rfl
    cases blank

/-! ## The lexeme at the front of a text -/

/-- The name at the front of a text is read alone, and holds no blank. -/
theorem readName_front {text name rest : List Char}
    (read : readName text = (name, rest)) :
    text = name ++ rest ∧ readName name = (name, []) ∧
      ∀ character ∈ name, isBlank character = false := by
  cases read
  have named : ∀ character ∈ text.takeWhile isNameCharacter,
      isNameCharacter character = true :=
    fun _ => List.mem_takeWhile_imp
  refine ⟨List.takeWhile_append_dropWhile.symm, ?_, fun character member =>
    visible_of_isNameCharacter (named character member)⟩
  rw [readName, List.takeWhile_eq_self_iff.mpr named,
    List.dropWhile_eq_nil_iff.mpr named]

/-- The token at the front of a text has a lexeme of its own: the lexeme ends in
a visible character, and without the rest of the text the same token is read. -/
def StandsAlone (character : Char) (text rest : List Char)
    (token : Token) : Prop :=
  ∃ front, text = front ++ rest ∧
    (∀ offset, readToken offset character front = .ok (token, [])) ∧
    EndsVisibly (character :: front)

variable {character : Char} {text rest : List Char} {token : Token}

private theorem standsAlone_of_reads (front : List Char)
    (shape : text = front ++ rest) (alone : Reads character front token [])
    (ends : EndsVisibly (character :: front)) :
    StandsAlone character text rest token :=
  ⟨front, shape, alone.readToken, ends⟩

private theorem standsAlone_single (visible : isBlank character = false)
    (alone : Reads character [] token []) :
    StandsAlone character rest rest token :=
  standsAlone_of_reads [] rfl alone (endsVisibly_concat [] visible)

private theorem standsAlone_variable {name : List Char}
    (names : NamesVariable text name rest) :
    StandsAlone '$' text rest (.variable (String.ofList name)) := by
  cases names with
  | braced found named =>
      obtain ⟨rfl, alone, _⟩ := readName_front found
      have separates : Separates ['\x7d'] := by
        rintro character ⟨⟩
        decide
      refine standsAlone_of_reads ('\x7b' :: (name ++ ['\x7d'])) (by simp) ?_
        (endsVisibly_concat ('$' :: '\x7b' :: name) (by decide))
      refine .dollar (.braced ?_ named)
      rw [readName_append separates, alone]
      rfl
  | plain found named =>
      obtain ⟨rfl, alone, visible⟩ := readName_front found
      exact standsAlone_of_reads name rfl (.dollar (.plain alone named))
        ((endsVisibly_concat [] (by decide)).append visible)

private theorem standsAlone_quoted {value : List Char}
    (quote : character = '\'' ∨ character = '"')
    (read : readQuoted character text = some (value, rest)) :
    StandsAlone character text rest (.text (String.ofList value)) := by
  obtain ⟨body, rfl, same⟩ := readClosed_front read
  refine standsAlone_of_reads (body ++ [character]) (by simp)
    (.text quote (same [])) ?_
  refine endsVisibly_concat (character :: body) ?_
  rcases quote with rfl | rfl <;> decide

private theorem standsAlone_pattern {offset : Nat}
    {source behind flags : List Char}
    (read : readSource text = some (source, behind))
    (flagged : readFlags offset behind = .ok (flags, rest)) :
    StandsAlone '/' text rest
      (.pattern (String.ofList source) (String.ofList flags)) := by
  obtain ⟨body, rfl, same⟩ := readClosed_front read
  obtain ⟨rfl, letters, _, alone⟩ := readFlags_front flagged
  have flagsAlone := alone offset [] (by simp)
  rw [List.append_nil] at flagsAlone
  refine standsAlone_of_reads (body ++ '/' :: flags) (by simp)
    (.pattern (same flags) flagsAlone) ?_
  have ends :=
    endsVisibly_concat ('/' :: body) (show isBlank '/' = false by decide)
  simpa using ends.append fun flag member =>
    visible_of_isNameCharacter
      (isNameCharacter_of_isAlpha (letters flag member))

private theorem standsAlone_word {name : List Char}
    (letter : character.isAlpha = true) (read : readName text = (name, rest))
    (known : constant? (String.ofList (character :: name)) = some token) :
    StandsAlone character text rest token := by
  obtain ⟨rfl, alone, visible⟩ := readName_front read
  refine standsAlone_of_reads name rfl (.word letter alone known) ?_
  have first := visible_of_isNameCharacter (isNameCharacter_of_isAlpha letter)
  exact (endsVisibly_concat [] first).append visible

/-- Every token stands alone. -/
theorem standsAlone_of_readToken {offset : Nat}
    (read : readToken offset character text = .ok (token, rest)) :
    StandsAlone character text rest token := by
  cases reads_of_readToken read with
  | openParenthesis => exact standsAlone_single (by decide) .openParenthesis
  | closeParenthesis => exact standsAlone_single (by decide) .closeParenthesis
  | not => exact standsAlone_single (by decide) (.not (by simp) (by simp))
  | @doubled _ second _ _ doubled =>
      refine standsAlone_of_reads [second] rfl (.doubled doubled)
        (endsVisibly_concat [character] ?_)
      cases doubled <;> decide
  | pattern source flagged => exact standsAlone_pattern source flagged
  | dollar names => exact standsAlone_variable names
  | text quote read => exact standsAlone_quoted quote read
  | word letter name known => exact standsAlone_word letter name known

/-! ## Texts made of lexemes -/

/-- A text that is a token by itself and has no blanks around it. -/
structure IsLexeme (lexeme : String) (token : Token) : Prop where
  alone : tokenize lexeme = .ok [token]
  starts : ∀ first ∈ lexeme.toList.head?, isBlank first = false
  ends : EndsVisibly lexeme.toList

/-- A text that is made of texts in their order, with any blanks before, between
and behind them. -/
inductive LaidOut : List String → List Char → Prop where
  | nothing : LaidOut [] []
  | blank {character : Char} {texts : List String} {rest : List Char} :
      isBlank character = true → LaidOut texts rest →
        LaidOut texts (character :: rest)
  | text (text : String) {texts : List String} {rest : List Char} :
      LaidOut texts rest → LaidOut (text :: texts) (text.toList ++ rest)

/-- A text that is made of texts in their order, with one or more blanks between
every two. -/
inductive Joined : List String → List Char → Prop where
  | nothing : Joined [] []
  | last (text : String) : Joined [text] text.toList
  | next (text : String) {second : String} {texts : List String}
      {gap rest : List Char} :
      gap ≠ [] → (∀ character ∈ gap, isBlank character = true) →
        Joined (second :: texts) rest →
      Joined (text :: second :: texts) (text.toList ++ (gap ++ rest))

private theorem laidOut_of_tokensFrom {offset : Nat} {text : List Char}
    {tokens : List Token} (lexed : tokensFrom offset text = .ok tokens) :
    ∃ lexemes, LaidOut lexemes text ∧ List.Forall₂ IsLexeme lexemes tokens := by
  fun_induction tokensFrom offset text generalizing tokens with
  | case1 =>
      cases lexed
      exact ⟨[], .nothing, .nil⟩
  | case2 offset character rest blank step =>
      obtain ⟨lexemes, laidOut, each⟩ := step lexed
      exact ⟨lexemes, .blank blank laidOut, each⟩
  | case3 => simp at lexed
  | case4 => simp at lexed
  | case5 offset character rest visible token behind read _ consumed
      inner found =>
      rename_i step
      cases lexed
      obtain ⟨lexemes, laidOut, each⟩ := step found
      have shown := Bool.eq_false_iff.mpr visible
      obtain ⟨front, rfl, alone, ends⟩ := standsAlone_of_readToken read
      have lexeme : IsLexeme (String.ofList (character :: front)) token := by
        refine ⟨?_, ?_, ?_⟩
        · rw [tokenize, String.toList_ofList]
          exact Lexes.nil.token visible alone 0
        · rw [String.toList_ofList]
          rintro first ⟨⟩
          exact shown
        · rwa [String.toList_ofList]
      have whole := laidOut.text (String.ofList (character :: front))
      rw [String.toList_ofList] at whole
      exact ⟨_, whole, .cons lexeme each⟩

private theorem Lexes.blanks {gap text : List Char} {tokens : List Token}
    (blanks : ∀ character ∈ gap, isBlank character = true)
    (lexes : Lexes text tokens) :
    Lexes (gap ++ text) tokens := by
  induction gap with
  | nil => exact lexes
  | cons character gap step =>
      obtain ⟨first, others⟩ := List.forall_mem_cons.mp blanks
      exact (step others).blank first

private theorem lexes_of_joined {texts : List String} {whole : List Char}
    {tokens : List Token} (joined : Joined texts whole)
    (each : List.Forall₂
      (fun text token => tokenize text = .ok [token]) texts tokens) :
    Lexes whole tokens := by
  induction joined generalizing tokens with
  | nothing =>
      cases each
      exact .nil
  | last text =>
      obtain _ | ⟨lexed, ⟨⟩⟩ := each
      exact .of_tokensFrom lexed
  | @next text second texts gap rest nonempty blanks _ step =>
      obtain _ | ⟨lexed, others⟩ := each
      obtain ⟨first, more, rfl⟩ := List.exists_cons_of_ne_nil nonempty
      have blank := (List.forall_mem_cons.mp blanks).1
      have behind : Lexes (first :: more ++ rest) _ :=
        (step others).blanks blanks
      exact (Lexes.of_tokensFrom lexed).append
        (separates_of_isBlank blank _) behind

/-- A text that splits into tokens is made of blanks and of one lexeme for each
token, which is that token by itself.  Texts of one token each split into these
tokens when they are joined with blanks. -/
theorem tokenize_lexemes :
    (∀ text tokens, tokenize text = .ok tokens →
      ∃ lexemes, LaidOut lexemes text.toList ∧
        List.Forall₂ IsLexeme lexemes tokens) ∧
    ∀ texts tokens whole,
      List.Forall₂ (fun text token => tokenize text = .ok [token])
        texts tokens →
      Joined texts whole.toList → tokenize whole = .ok tokens := by
  constructor
  · intro text tokens lexed
    exact laidOut_of_tokensFrom lexed
  · intro texts tokens whole each joined
    exact lexes_of_joined joined each 0

/-- Lexemes need no blanks between them, and the blanks in a quoted text or a
pattern separate nothing. -/
theorem tokenize_lexemes_adjacent :
    tokenize "!$A=~/b\\/ c/i\t&&( ' x'" =
        .ok [.not, .variable "A", .isMatch, .pattern "b/ c" "i", .and,
          .openParenthesis, .text " x"] ∧
      (∃ lexemes, LaidOut lexemes "!$A=~/b\\/ c/i\t&&( ' x'".toList ∧
        List.Forall₂ IsLexeme lexemes [.not, .variable "A", .isMatch,
          .pattern "b/ c" "i", .and, .openParenthesis, .text " x"]) ∧
      List.Forall₂ (fun text token => tokenize text = .ok [token])
        ["! ", "$A", " ' x'"] [.not, .variable "A", .text " x"] ∧
      Joined ["! ", "$A", " ' x'"] "! \t$A\n ' x'".toList ∧
      tokenize "! \t$A\n ' x'" = .ok [.not, .variable "A", .text " x"] := by
  have lexed : tokenize "!$A=~/b\\/ c/i\t&&( ' x'" =
      .ok [.not, .variable "A", .isMatch, .pattern "b/ c" "i", .and,
        .openParenthesis, .text " x"] := by decide +kernel
  have each : List.Forall₂ (fun text token => tokenize text = .ok [token])
      ["! ", "$A", " ' x'"] [.not, .variable "A", .text " x"] :=
    .cons (by decide +kernel)
      (.cons (by decide +kernel) (.cons (by decide +kernel) .nil))
  have joined : Joined ["! ", "$A", " ' x'"] "! \t$A\n ' x'".toList :=
    .next "! " (List.cons_ne_nil '\t' []) (List.forall_mem_singleton.mpr rfl)
      (.next "$A" (List.cons_ne_nil '\n' []) (List.forall_mem_singleton.mpr rfl)
        (.last " ' x'"))
  exact ⟨lexed, tokenize_lexemes.1 _ _ lexed, each, joined,
    tokenize_lexemes.2 _ _ _ each joined⟩

end CiPipeline.Condition
