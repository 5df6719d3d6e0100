import CiPipeline.Proofs.Shell.Quoting

/-!
# Reading command lines

A command line that is put together from words, with blanks between them and
bars between commands, is read back as the texts of these words.  A quoted text
is such a word whatever it consists of.
-/

namespace CiPipeline.Shell

/-! ## Words -/

/-- What is written for a word: it ends where the next blank stands, and has
this text. -/
def Spells (written : List Char) (text : String) : Prop :=
  ∃ word, word ≠ [] ∧ (∀ mark ∈ word, Mark.isInWord mark = true) ∧
    wordText? word = some text ∧
    ∀ rest, marks .plain (written ++ rest) = (marks .plain rest).map (word ++ ·)

/-- Whether a character stands for itself where nothing is quoted. -/
def isOrdinary (character : Char) : Bool :=
  !isBlank character && !isOperator character &&
    !"'\"\\$".toList.contains character

private theorem wordText?_append {first second : List Mark}
    {front back : String} (hasFirst : wordText? first = some front)
    (hasSecond : wordText? second = some back) :
    wordText? (first ++ second) = some (front ++ back) := by
  obtain ⟨fronts, partsOfFirst, rfl⟩ := Option.map_eq_some_iff.mp hasFirst
  obtain ⟨backs, partsOfSecond, rfl⟩ := Option.map_eq_some_iff.mp hasSecond
  unfold wordText?
  rw [List.mapM_append, partsOfFirst, partsOfSecond]
  simp

theorem Spells.append {first second : List Char} {front back : String}
    (hasFirst : Spells first front) (hasSecond : Spells second back) :
    Spells (first ++ second) (front ++ back) := by
  obtain ⟨word, present, inWord, text, written⟩ := hasFirst
  obtain ⟨other, _, inOther, otherText, otherWritten⟩ := hasSecond
  refine ⟨word ++
    other, by simp [present], ?_, wordText?_append text otherText, ?_⟩
  · rw [List.forall_mem_append]
    exact ⟨inWord, inOther⟩
  · intro rest
    rw [List.append_assoc, written, otherWritten, Option.map_map]
    simp [Function.comp_def]

private theorem marks_ordinary {character : Char}
    (ordinary : isOrdinary character = true) (rest : List Char) :
    marks .plain (character :: rest) =
      (marks .plain rest).map (.character character :: ·) := by
  simp only [isOrdinary, Bool.and_eq_true, Bool.not_eq_true',
    List.contains_eq_mem, decide_eq_false_iff_not] at ordinary
  obtain ⟨⟨notBlank, notOperator⟩, special⟩ := ordinary
  have mark : Mark.ofPlain character = .character character := by
    rw [Mark.ofPlain, notBlank, notOperator]
    rfl
  have different (other : Char) (member : other ∈ "'\"\\$".toList) :
      character ≠ other := by
    rintro rfl
    exact special member
  rw [marks, mark]
  · exact different '\'' (by decide)
  · exact different '"' (by decide)
  · exact fun _ same _ => different '\\' (by decide) same
  · exact fun _ _ same _ => different '\\' (by decide) same
  · exact fun _ _ same _ => different '$' (by decide) same

private theorem spells_singleton {character : Char}
    (ordinary : isOrdinary character = true) :
    Spells [character] (String.ofList [character]) :=
  ⟨[.character character], by simp, by
    simp [Mark.isInWord], rfl, marks_ordinary ordinary⟩

/-- Characters that stand for themselves are a word. -/
theorem spells_ordinary {written : List Char} (present : written ≠ [])
    (ordinary : ∀ character ∈ written, isOrdinary character = true) :
    Spells written (String.ofList written) := by
  induction written with
  | nil => exact (present rfl).elim
  | cons character rest induction =>
      obtain ⟨first, others⟩ := List.forall_mem_cons.mp ordinary
      cases rest with
      | nil => exact spells_singleton first
      | cons second behind =>
          have whole := (spells_singleton first).append
            (induction (List.cons_ne_nil _ _) others)
          rw [← String.ofList_append] at whole
          exact whole

/-! ## Quoted texts -/

/-- The marks of a text between quotes: a quote in it is written behind a
backslash, with a quoted text before and behind. -/
def quotedMarks (text : List Char) : List Mark :=
  text.flatMap fun character =>
    if character == '\'' then [.quote, .character '\'', .quote]
    else [.character character]

private theorem marks_backslash {character : Char}
    (different : character ≠ '\n') (rest : List Char) :
    marks .plain ('\\' :: character :: rest) =
      (marks .plain rest).map (.character character :: ·) := by
  rw [marks]
  exact different

private theorem marks_escaped (text rest : List Char) :
    marks .single (escaped text ++ '\'' :: rest) =
      (marks .plain rest).map (quotedMarks text ++ .quote :: ·) := by
  induction text with
  | nil => rfl
  | cons character text induction =>
      by_cases quoted : character = '\''
      · subst quoted
        rw [escaped_quote, List.cons_append, List.cons_append, List.cons_append,
          List.cons_append,
          marks, marks_backslash (by decide), marks, induction]
        simp [Function.comp_def, quotedMarks]
      · rw [escaped_of_ne quoted, List.cons_append, marks, induction,
          Option.map_map]
        · simp [Function.comp_def, quotedMarks, quoted]
        · exact quoted

private theorem wordText?_quotedMarks (text : List Char) :
    wordText? (quotedMarks text) = some (String.ofList text) := by
  induction text with
  | nil => rfl
  | cons character text induction =>
      have first :
          wordText? (if character == '\'' then [.quote, .character '\'', .quote]
          else [.character character]) = some (String.ofList [character]) := by
        split
        next quoted =>
          rw [beq_iff_eq.mp quoted]
          rfl
        next => rfl
      have whole := wordText?_append first induction
      rw [← String.ofList_append] at whole
      exact whole

private theorem isInWord_quotedMarks {text : List Char} {mark : Mark}
    (member : mark ∈ quotedMarks text) :
    mark.isInWord = true := by
  obtain ⟨character, _, written⟩ := List.mem_flatMap.mp member
  split at written
  · simp only [List.mem_cons, List.not_mem_nil, or_false] at written
    rcases written with rfl | rfl | rfl <;> rfl
  · rw [List.mem_singleton.mp written]
    rfl

/-- A quoted text is a word. -/
theorem spells_quote (text : String) : Spells (quote text).toList text := by
  refine ⟨[.quote] ++ quotedMarks text.toList ++ [.quote], by simp, ?_, ?_, ?_⟩
  · rw [List.forall_mem_append, List.forall_mem_append]
    exact ⟨⟨by simp [Mark.isInWord], fun _ => isInWord_quotedMarks⟩, by
      simp [Mark.isInWord]⟩
  · have border : wordText? [.quote] = some "" := rfl
    have whole := wordText?_append
      (wordText?_append border (wordText?_quotedMarks text.toList)) border
    simpa using whole
  · intro rest
    rw [toList_quote, List.cons_append, List.append_assoc, marks,
      List.singleton_append, marks_escaped, Option.map_map]
    simp [Function.comp_def]

/-! ## Lines -/

/-- The commands of a line. -/
def readLine? (line : List Char) : Option (List (List String)) :=
  (marks .plain line).bind fun marks => pipeline? (tokens marks)

theorem readPipeline?_eq (line : String) :
    readPipeline? line = readLine? line.toList := rfl

/-- Puts a word in front of the words of the first command. -/
def putWord (word : String) : List (List String) → Option (List (List String))
  | [] => none
  | words :: commands => some ((word :: words) :: commands)

private theorem tokens_cons {mark : Mark} (inWord : mark.isInWord = true)
    (rest : List Mark) :
    tokens (mark :: rest) =
      Token.extend mark (rest.head?.any Mark.isInWord) (tokens rest) := by
  cases mark with
  | blank => cases inWord
  | operator value => cases inWord
  | _ => rfl

/-- Marks of a word are one token, unless the marks behind them belong to
the word too. -/
theorem tokens_word {word : List Mark} (present : word ≠ [])
    (inWord : ∀ mark ∈ word, mark.isInWord = true) {rest : List Mark}
    (ends : rest.head?.any Mark.isInWord = false) :
    tokens (word ++ rest) = .word word :: tokens rest := by
  induction word with
  | nil => exact (present rfl).elim
  | cons mark word induction =>
      obtain ⟨first, others⟩ := List.forall_mem_cons.mp inWord
      rw [List.cons_append, tokens_cons first]
      cases word with
      | nil =>
          rw [List.nil_append, ends]
          rcases tokens rest with _ | ⟨_ | _, _⟩ <;> rfl
      | cons second behind =>
          have joined :
              ((second :: behind) ++ rest).head?.any Mark.isInWord = true :=
            others second List.mem_cons_self
          rw [induction (List.cons_ne_nil _ _) others, joined]
          rfl

private theorem pipeline?_word {word : List Mark} {text : String}
    (hasText : wordText? word = some text) (rest : List Token) :
    pipeline? (.word word :: rest) = (pipeline? rest).bind (putWord text) := by
  rw [pipeline?, hasText]
  rcases pipeline? rest with _ | _ | ⟨words, commands⟩ <;> rfl

private theorem marks_blank (rest : List Char) :
    marks .plain (' ' :: rest) = (marks .plain rest).map (.blank :: ·) := by
  rw [marks] <;> simp [Mark.ofPlain, isBlank]

private theorem marks_bar (rest : List Char) :
    marks .plain ('|' :: rest) =
      (marks .plain rest).map (.operator '|' :: ·) := by
  rw [marks] <;> simp [Mark.ofPlain, isBlank, isOperator]

theorem readLine?_blank (rest : List Char) :
    readLine? (' ' :: rest) = readLine? rest := by
  unfold readLine?
  rw [marks_blank]
  cases marks .plain rest <;> rfl

theorem readLine?_bar (rest : List Char) :
    readLine? ('|' :: rest) = (readLine? rest).map ([] :: ·) := by
  unfold readLine?
  rw [marks_bar]
  cases marks .plain rest <;> rfl

/-- A word is read up to the blank behind it. -/
theorem readLine?_word {written : List Char} {text : String}
    (spells : Spells written text) (rest : List Char) :
    readLine? (written ++ ' ' :: rest) =
      (readLine? rest).bind (putWord text) := by
  obtain ⟨word, present, inWord, hasText, marked⟩ := spells
  unfold readLine?
  rw [marked, marks_blank]
  cases marks .plain rest with
  | none => rfl
  | some behind =>
      have ends : (Mark.blank :: behind).head?.any Mark.isInWord = false := rfl
      have read := tokens_word present inWord ends
      simp only [Option.map_some, Option.bind_some]
      rw [read, pipeline?_word hasText]
      rfl

theorem readLine?_last {written : List Char} {text : String}
    (spells : Spells written text) :
    readLine? written = some [[text]] := by
  obtain ⟨word, present, inWord, hasText, marked⟩ := spells
  have whole := marked []
  have ends : ([] : List Mark).head?.any Mark.isInWord = false := rfl
  have read := tokens_word present inWord ends
  rw [List.append_nil] at whole read
  unfold readLine?
  rw [whole, show marks .plain [] = some [] from rfl, Option.map_some,
    Option.bind_some, List.append_nil, read, pipeline?_word hasText]
  rfl

/-- Quoted texts with blanks between them are read as these texts. -/
theorem readLine?_quotes (texts : List String) {rest : List Char}
    {words : List String} {commands : List (List String)}
    (read : readLine? rest = some (words :: commands)) :
    readLine? ((" ".intercalate (texts.map quote)).toList ++ ' ' :: rest) =
      some ((texts ++ words) :: commands) := by
  induction texts with
  | nil =>
      rw [List.map_nil, List.nil_append]
      exact (readLine?_blank rest).trans read
  | cons text others induction =>
      have step (behind : List Char) :
          readLine? ((quote text).toList ++ ' ' :: behind) =
            (readLine? behind).bind (putWord text) :=
              readLine?_word (spells_quote text) behind
      cases others with
      | nil =>
          rw [List.map_singleton, String.intercalate_singleton, step, read]
          rfl
      | cons second behind =>
          rw [List.map_cons, List.map_cons, String.intercalate_cons_cons,
            ← List.map_cons, String.toList_append, String.toList_append,
            List.append_assoc, List.append_assoc, show " ".toList =
              [' '] from rfl, List.singleton_append, step, induction]
          rfl

end CiPipeline.Shell
