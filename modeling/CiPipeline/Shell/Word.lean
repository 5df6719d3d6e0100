/-!
# Words of a command line

A command line consists of marks: characters that stand for themselves,
parameters, blanks and operators.  Quotes and backslashes decide which a
character is, and words are what stands between blanks and operators.  A quoted
text is one word and nothing in it is interpreted.
-/

namespace CiPipeline.Shell

/-- How the characters at a place of a command line are read. -/
inductive Quoting where
  | plain
  | single
  | double
  deriving DecidableEq, Repr

/-- What a character of a command line stands for. -/
inductive Mark where
  | character (value : Char)
  /-- A parameter, and whether it stands between double quotes. -/
  | parameter (quoted : Bool) (name : Char)
  /-- The border of a quoted text. -/
  | quote
  | blank
  | operator (value : Char)
  deriving DecidableEq, Repr

/-- Whether a character separates words. -/
def isBlank (character : Char) : Bool := character == ' ' || character == '\t'

/-- Whether a character separates commands or redirects them. -/
def isOperator (character : Char) : Bool :=
  ";|&<>()\n".toList.contains character

/-- Whether a character names a parameter behind a dollar sign. -/
def isParameter (character : Char) : Bool :=
  "0123456789#?$".toList.contains character

/-- Whether a backslash takes away the meaning of a character between
double quotes. -/
def isEscapedInQuotes (character : Char) : Bool :=
  "$\x60\"\\".toList.contains character

/-- The mark of a character that is not quoted. -/
def Mark.ofPlain (character : Char) : Mark :=
  if isBlank character then .blank
  else if isOperator character then .operator character
  else .character character

/-- The marks of a command line.  There are none if a quote is not closed. -/
def marks : Quoting → List Char → Option (List Mark)
  | .plain, [] => some []
  | .plain, '\'' :: rest => (marks .single rest).map (.quote :: ·)
  | .plain, '"' :: rest => (marks .double rest).map (.quote :: ·)
  | .plain, '\\' :: '\n' :: rest => marks .plain rest
  | .plain, '\\' :: character :: rest =>
      (marks .plain rest).map (.character character :: ·)
  | .plain, '$' :: character :: rest =>
      if isParameter character then
        (marks .plain rest).map (.parameter false character :: ·)
      else (marks .plain (character :: rest)).map (.character '$' :: ·)
  | .plain, character :: rest =>
      (marks .plain rest).map (Mark.ofPlain character :: ·)
  | .single, [] => none
  | .single, '\'' :: rest => (marks .plain rest).map (.quote :: ·)
  | .single, character :: rest =>
      (marks .single rest).map (.character character :: ·)
  | .double, [] => none
  | .double, '"' :: rest => (marks .plain rest).map (.quote :: ·)
  | .double, '\\' :: '\n' :: rest => marks .double rest
  | .double, '\\' :: character :: rest =>
      if isEscapedInQuotes character then
        (marks .double rest).map (.character character :: ·)
      else (marks .double (character :: rest)).map (.character '\\' :: ·)
  | .double, '$' :: character :: rest =>
      if isParameter character then
        (marks .double rest).map (.parameter true character :: ·)
      else (marks .double (character :: rest)).map (.character '$' :: ·)
  | .double, character :: rest =>
      (marks .double rest).map (.character character :: ·)

/-- A word, as the marks that it consists of, or an operator. -/
inductive Token where
  | word (marks : List Mark)
  | operator (value : Char)
  deriving DecidableEq, Repr

/-- Puts a mark in front of the word that tokens start with, or makes it a word
of its own. -/
def Token.extend (mark : Mark) (joined : Bool) : List Token → List Token
  | .word marks :: rest =>
      if joined then .word (mark :: marks) :: rest
      else .word [mark] :: .word marks :: rest
  | tokens => .word [mark] :: tokens

def Mark.isInWord : Mark → Bool
  | .blank => false
  | .operator _ => false
  | _ => true

/-- The words and operators of marks. -/
def tokens : List Mark → List Token
  | [] => []
  | .blank :: rest => tokens rest
  | .operator value :: rest => .operator value :: tokens rest
  | mark :: rest =>
      Token.extend mark (rest.head?.any Mark.isInWord) (tokens rest)

/-- What a mark that needs no interpretation contributes to its word. -/
def Mark.plainText? : Mark → Option (List Char)
  | .character value => some [value]
  | .quote => some []
  | _ => none

/-- The text of a word in which nothing has to be interpreted. -/
def wordText? (marks : List Mark) : Option String :=
  (marks.mapM Mark.plainText?).map fun parts => String.ofList parts.flatten

/-- The texts of tokens, split at the bars between them. -/
def pipeline? : List Token → Option (List (List String))
  | [] => some [[]]
  | .operator '|' :: rest => (pipeline? rest).map ([] :: ·)
  | .operator _ :: _ => none
  | .word marks :: rest => do
      let text ← wordText? marks
      match ← pipeline? rest with
      | [] => none
      | words :: commands => some ((text :: words) :: commands)

/-- The commands of a command line that only connects them by bars, and the
words of each. -/
def readPipeline? (line : String) : Option (List (List String)) := do
  pipeline? (tokens (← marks .plain line.toList))

/-- A text as a quoted word. -/
def quote (text : String) : String :=
  String.ofList ('\'' :: (text.toList.flatMap fun character =>
    if character == '\'' then ['\'', '\\', '\'', '\''] else [character]) ++
      ['\''])

end CiPipeline.Shell
