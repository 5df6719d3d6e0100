import CiPipeline.Proofs.Shell.Quoting

/-!
# Splitting command lines

A line is split into commands and words by what blanks, bars, single quotes and
backslashes mean, and every letter of a word keeps whether it was quoted.  Where
nothing is quoted only letters, digits and a few signs are accepted, so that a
shell has nothing else to interpret in a line that is split.
-/

namespace CiPipeline.Shell

/-- A character of a word, and whether it was quoted. -/
structure Letter where
  value : Char
  quoted : Bool
  deriving DecidableEq, Repr

/-- The letters of a text that was not quoted. -/
def bare (text : String) : List Letter := text.toList.map (⟨·, false⟩)

/-- The letters of a text that was quoted. -/
def quoted (text : String) : List Letter := text.toList.map (⟨·, true⟩)

/-- How the next character is read. -/
inductive Mode where
  | plain
  /-- The character is quoted by the backslash in front. -/
  | escaped
  /-- The character stands between single quotes. -/
  | single
  deriving DecidableEq, Repr

/-- How far a line has been read: the word and the command that the place is in,
and the commands before. -/
structure Reading where
  mode : Mode := .plain
  word : Option (List Letter) := none
  words : List (List Letter) := []
  commands : List (List (List Letter)) := []
  deriving DecidableEq, Repr

/-- Whether a character has no meaning to a shell wherever it
stands in a word. -/
def isHarmless (character : Char) : Bool :=
  character.isAlphanum || "-=_./:".toList.contains character

namespace Reading

/-- Adds letters to the word, or makes them one.  No letters at all make an
empty word. -/
def put (reading : Reading) (letters : List Letter) : Reading :=
  { reading with word := some (reading.word.getD [] ++ letters) }

/-- Ends the word, if there is one. -/
def endWord (reading : Reading) : Reading :=
  { reading with word := none, words := reading.words ++ reading.word.toList }

/-- Ends the command, which has to have words. -/
def endCommand (reading : Reading) : Option Reading :=
  let words := reading.endWord.words
  if words.isEmpty then none
  else some { commands := reading.commands ++ [words] }

/-- Reads a character.  A line feed behind a backslash is dropped. -/
def step (reading : Reading) (character : Char) : Option Reading :=
  match reading.mode with
  | .single =>
      if character == '\'' then some { reading with mode := .plain }
      else some (reading.put [⟨character, true⟩])
  | .escaped =>
      if character == '\n' then some { reading with mode := .plain }
      else some { reading.put [⟨character, true⟩] with mode := .plain }
  | .plain =>
      if character == '\'' then some { reading.put [] with mode := .single }
      else if character == '\\' then some { reading with mode := .escaped }
      else if isBlank character then some reading.endWord
      else if character == '|' then reading.endCommand
      else if isHarmless character then some (reading.put [⟨character, false⟩])
      else none

/-- Reads characters one after the other. -/
def run : Reading → List Char → Option Reading
  | reading, [] => some reading
  | reading, character :: rest => (reading.step character).bind (run · rest)

/-- The commands, if nothing is left open at the end. -/
def finish (reading : Reading) : Option (List (List (List Letter))) :=
  if reading.mode = .plain then reading.endCommand.map commands else none

end Reading

/-- The commands of a line, and the words of each. -/
def split (line : String) : Option (List (List (List Letter))) :=
  (({} : Reading).run line.toList).bind Reading.finish

namespace Reading

variable {reading : Reading}

private theorem put_put (reading : Reading) (letters others : List Letter) :
    (reading.put letters).put others = reading.put (letters ++ others) := by
  simp [put]

private theorem run_append (reading : Reading) (front back : List Char) :
    reading.run (front ++ back) = (reading.run front).bind (run · back) := by
  induction front generalizing reading with
  | nil => rfl
  | cons character rest induction =>
      rw [List.cons_append, run, run, Option.bind_assoc]
      exact Option.bind_congr fun next _ => induction next

/-! ## Words -/

/-- What is written for letters: wherever nothing is quoted, reading it adds
them to the word. -/
def Writes (written : List Char) (letters : List Letter) : Prop :=
  ∀ reading : Reading,
    reading.mode = .plain → reading.run written = some (reading.put letters)

theorem Writes.append {written others : List Char} {letters more : List Letter}
    (writes : Writes written letters) (alsoWrites : Writes others more) :
    Writes (written ++ others) (letters ++ more) := by
  intro reading plain
  rw [run_append, writes reading plain, Option.bind_some,
    alsoWrites (reading.put letters) plain, put_put]

private theorem step_harmless {character : Char}
    (harmless : isHarmless character = true) (plain : reading.mode = .plain) :
    reading.step character = some (reading.put [⟨character, false⟩]) := by
  have different (other : Char) (harmful : isHarmless other = false) :
      character ≠ other := by
    rintro rfl
    rw [harmful] at harmless
    cases harmless
  have notBlank : isBlank character = false := by
    simp [isBlank, different ' ' rfl, different '\t' rfl]
  simp [step, plain, notBlank, harmless, different '\'' rfl, different '\\' rfl,
    different '|' rfl]

private theorem writes_harmless {text : List Char} (present : text ≠ [])
    (harmless : text.all isHarmless = true) :
    Writes text (text.map (⟨·, false⟩)) := by
  induction text with
  | nil => exact (present rfl).elim
  | cons character rest induction =>
      obtain ⟨first, others⟩ := (Bool.and_eq_true _ _).mp harmless
      have one : Writes [character] [⟨character, false⟩] := by
        intro reading plain
        rw [run, step_harmless first plain]
        rfl
      cases rest with
      | nil => exact one
      | cons second behind =>
          exact one.append (induction (List.cons_ne_nil _ _) others)

/-- A text of harmless characters stands for itself. -/
theorem writes_bare (text : String) (present : text.toList ≠ [])
    (harmless : text.toList.all isHarmless = true) :
    Writes text.toList (bare text) :=
  writes_harmless present harmless

/-- Between quotes what is written for a text adds its letters to the word.  A
quote in the text ends the quoted part, is quoted by the backslash in front of
it, and starts the next part. -/
theorem run_escaped (text : List Char) (word : List Letter)
    (words : List (List Letter)) (commands : List (List (List Letter))) :
    run ⟨.single, some word, words, commands⟩ (escaped text) =
      some ⟨.single, some (word ++ text.map (⟨·, true⟩)), words, commands⟩ := by
  induction text generalizing word with
  | nil =>
      rw [List.map_nil, List.append_nil]
      rfl
  | cons character rest induction =>
      have continued := induction (word ++ [⟨character, true⟩])
      rw [List.append_assoc, List.singleton_append] at continued
      by_cases isQuote : character = '\''
      · subst isQuote
        rw [escaped_quote, List.map_cons, ← continued]
        simp [run, step, put]
      · rw [escaped_of_ne isQuote, List.map_cons, ← continued]
        simp [run, step, put, isQuote]

/-- A quoted text is written for its letters, whatever they are. -/
theorem writes_quote (text : String) :
    Writes (quote text).toList (quoted text) := by
  rintro ⟨mode, word, words, commands⟩ rfl
  rw [toList_quote, run]
  have opened : step ⟨.plain, word, words, commands⟩ '\'' =
      some ⟨.single, some (word.getD []), words, commands⟩ := by
    simp [step, put]
  rw [opened, Option.bind_some, run_append, run_escaped]
  rfl

/-! ## Lines -/

/-- Between two words of a line. -/
def between (words : List (List Letter))
    (commands : List (List (List Letter))) : Reading :=
  { words, commands }

variable {words : List (List Letter)} {commands : List (List (List Letter))}

theorem run_blank (rest : List Char) :
    (between words commands).run (' ' :: rest) =
      (between words commands).run rest := by
  rw [run]
  simp [step, between, endWord, isBlank]

/-- A word ends at the blank behind it. -/
theorem run_word {written : List Char} {letters : List Letter}
    (writes : Writes written letters) (rest : List Char) :
    (between words commands).run (written ++ ' ' :: rest) =
      (between (words ++ [letters]) commands).run rest := by
  rw [run_append, writes _ rfl, Option.bind_some, run]
  simp [step, between, put, endWord, isBlank]

/-- Quoted texts are words of their own. -/
theorem run_quotes (texts : List String) (rest : List Char) :
    (between words commands).run
      ((" ".intercalate (texts.map quote)).toList ++ ' ' :: rest) =
      (between (words ++ texts.map quoted) commands).run rest := by
  induction texts generalizing words with
  | nil =>
      rw [List.map_nil, List.map_nil, List.append_nil, ← run_blank rest]
      rfl
  | cons text others induction =>
      cases others with
      | nil =>
          rw [List.map_singleton, List.map_singleton,
            String.intercalate_singleton, run_word (writes_quote text)]
      | cons second behind =>
          rw [List.map_cons, List.map_cons, String.intercalate_cons_cons,
            ← List.map_cons, String.toList_append,
            String.toList_append, List.append_assoc, List.append_assoc,
            show " ".toList = [' '] from rfl, List.singleton_append, run_word
              (writes_quote text), induction, List.map_cons, List.append_assoc]
          rfl

/-- A command that has words ends at the bar behind it. -/
theorem run_bar (present : words ≠ []) (rest : List Char) :
    (between words commands).run ('|' :: rest) =
      (between [] (commands ++ [words])).run rest := by
  rw [run]
  simp [step, between, endCommand, endWord, isBlank, present]

/-- The last word of a line ends with the line. -/
theorem finish_word {written : List Char} {letters : List Letter}
    (writes : Writes written letters) :
    ((between words commands).run written).bind finish =
      some (commands ++ [words ++ [letters]]) := by
  rw [writes _ rfl, Option.bind_some]
  simp [finish, between, put, endCommand, endWord]

end Reading

theorem split_eq (line : String) :
    split line = ((Reading.between [] []).run line.toList).bind
      Reading.finish := rfl

example : split "a 'b c'''\\|\\ d" =
    some [[bare "a", quoted "b c|" ++ quoted " " ++ bare "d"]] := by decide

end CiPipeline.Shell
