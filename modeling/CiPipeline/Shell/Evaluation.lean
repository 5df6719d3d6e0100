import CiPipeline.Shell.Word
import CiPipeline.Text.Utf8
import CiPipeline.Workspace

/-!
# Evaluation of command lines

A command line whose commands belong to the shell itself can be evaluated
without other programs.  Its commands run one after the other, some of them only
if the one before succeeded or failed.
-/

namespace CiPipeline.Shell

/-! ## Escapes -/

def isOctal (character : Char) : Bool := '0' ≤ character && character ≤ '7'

/-- The character that a letter stands for behind a backslash. -/
def escapedLetter? : Char → Option Char
  | 'a' => some '\x07'
  | 'b' => some '\x08'
  | 'f' => some '\x0c'
  | 'n' => some '\n'
  | 'r' => some '\r'
  | 't' => some '\t'
  | 'v' => some '\x0b'
  | '\\' => some '\\'
  | _ => none

def bytesOf (text : List Char) : List UInt8 :=
  (String.ofList text).toUTF8.toList

/-- The byte of a number in octal digits. -/
def octalByte (digits : List Char) : UInt8 :=
  (digits.foldl (fun value digit =>
    value * 8 + (digit.toNat - '0'.toNat)) 0).toUInt8

/-- The bytes of a text in which backslashes introduce letters and octal
numbers of up to three digits.  On request a zero in front of an octal number
does not count. -/
def unescape (skipsZero : Bool) (text : List Char) : List UInt8 :=
  match text with
  | [] => []
  | ['\\'] => bytesOf ['\\']
  | '\\' :: character :: rest =>
      if isOctal character then
        let behind :=
          if skipsZero && character == '0' then rest else character :: rest
        let digits := (behind.take 3).takeWhile isOctal
        octalByte digits :: unescape skipsZero (behind.drop digits.length)
      else
        match escapedLetter? character with
        | some letter => bytesOf [letter] ++ unescape skipsZero rest
        | none => bytesOf ['\\', character] ++ unescape skipsZero rest
  | character :: rest => bytesOf [character] ++ unescape skipsZero rest
termination_by text.length
decreasing_by
  all_goals simp only [List.length_cons, List.length_drop]
  · split <;> simp_all <;> omega
  all_goals omega

/-- The bytes of a format in which arguments stand for the places of texts
and numbers. -/
def fillFormat : List String → List Char → List Char → List UInt8
  | arguments, pending, '%' :: '%' :: rest =>
      fillFormat arguments ('%' :: pending) rest
  | arguments, pending, '%' :: kind :: rest =>
      if kind == 's' || kind == 'd' then
        unescape false pending.reverse ++ bytesOf (arguments.headD "").toList ++
          fillFormat (arguments.drop 1) [] rest
      else fillFormat arguments (kind :: '%' :: pending) rest
  | arguments, pending, character :: rest =>
      fillFormat arguments (character :: pending) rest
  | _, pending, [] => unescape false pending.reverse

/-! ## Parameters -/

/-- What a command line sees of its surroundings. -/
structure Parameters where
  folder : String
  /-- The parameter zero and those that follow it. -/
  arguments : List String
  /-- The code of the command before. -/
  code : Nat := 0
  deriving Repr, Inhabited

def Parameters.value (parameters : Parameters) (name : Char) : String :=
  if name == '#' then toString (parameters.arguments.length - 1)
  else if name == '?' then toString parameters.code
  else if name == '$' then "1"
  else (parameters.arguments[name.toNat - '0'.toNat]?).getD ""

/-- A part of a word, or a gap at which it falls apart. -/
inductive Piece where
  | text (value : List Char)
  | gap
  deriving DecidableEq, Repr

def pieces (parameters : Parameters) : Mark → List Piece
  | .character value => [.text [value]]
  | .quote => [.text []]
  | .parameter true name => [.text (parameters.value name).toList]
  | .parameter false name => (parameters.value name).toList.map fun character =>
      if isBlank character || character == '\n' then .gap else .text [character]
  | _ => []

/-- The words that pieces form between their gaps. -/
def gather (word : Option (List Char)) : List Piece → List String
  | [] => (word.map String.ofList).toList
  | .gap :: rest => (word.map String.ofList).toList ++ gather none rest
  | .text value :: rest => gather (some (word.getD [] ++ value)) rest

/-- The words that a word of a command line stands for. -/
def expandWord (parameters : Parameters) (marks : List Mark) : List String :=
  gather none (marks.flatMap (pieces parameters))

/-! ## Commands -/

/-- When a command runs. -/
inductive Condition where
  | always
  | onSuccess
  | onFailure
  deriving DecidableEq, Repr

/-- A command: when it runs, its words, and whether its output is
thrown away. -/
structure Step where
  condition : Condition := .always
  words : List (List Mark) := []
  isSilent : Bool := false
  deriving Repr, Inhabited

/-- The commands of tokens, given the one that is being read.  There are none if
the tokens need more than the shell itself. -/
def steps (current : Step) : List Token → Option (List Step)
  | [] => some [current]
  | .word marks :: rest =>
      steps { current with words := current.words ++ [marks] } rest
  | .operator '>' :: .operator '&' :: .word _ :: rest =>
      steps { current with isSilent := true } rest
  | .operator '>' :: .word _ :: rest =>
      steps { current with isSilent := true } rest
  | .operator '&' :: .operator '&' :: rest =>
      (steps { condition := .onSuccess } rest).map (current :: ·)
  | .operator '|' :: .operator '|' :: rest =>
      (steps { condition := .onFailure } rest).map (current :: ·)
  | .operator ';' :: rest => (steps {} rest).map (current :: ·)
  | .operator '\n' :: rest => (steps {} rest).map (current :: ·)
  | .operator _ :: _ => none

/-- What a command does: it writes something and has a code, or it ends the
command line. -/
inductive Effect where
  | done (output : List UInt8) (code : Nat)
  | ended (code : Nat)
  | killed
  deriving Repr

/-- The effect of a command of the shell. -/
def effect (parameters : Parameters) : List String → Effect
  | [] => .done [] parameters.code
  | ":" :: _ => .done [] 0
  | ["exit"] => .ended parameters.code
  | "exit" :: code :: _ =>
      match code.toNat? with
      | some code => .ended (code % 256)
      | none => .ended 2
  | "kill" :: _ => .killed
  | "true" :: _ => .done [] 0
  | "false" :: _ => .done [] 1
  | "pwd" :: _ => .done (bytesOf (parameters.folder ++ "\n").toList) 0
  | "echo" :: "-n" :: words =>
      .done (unescape true (" ".intercalate words).toList) 0
  | "echo" :: words =>
      .done (unescape true (" ".intercalate words ++ "\n").toList) 0
  | "printf" :: format :: arguments =>
      .done (fillFormat arguments [] format.toList) 0
  | _ => .done [] 127

/-- Whether a command runs behind one with a code. -/
def Condition.holds (code : Nat) : Condition → Bool
  | .always => true
  | .onSuccess => code == 0
  | .onFailure => code != 0

/-- Runs commands: what they write, and the code at the end. -/
def runSteps (parameters : Parameters) : List Step → List UInt8 × Int
  | [] => ([], parameters.code)
  | step :: rest =>
      if step.condition.holds parameters.code then
        match effect parameters
            (step.words.flatMap (expandWord parameters)) with
        | .ended code => ([], code)
        | .killed => ([], -1)
        | .done output code =>
            let (later, last) := runSteps { parameters with code } rest
            ((if step.isSilent then [] else output) ++ later, last)
      else runSteps parameters rest

def outputOf (bytes : List UInt8) (code : Int) : CommandOutput :=
  { text := String.ofList (Text.readUtf8 bytes), code }

def evaluate (parameters : Parameters) (line : String) : CommandOutput :=
  match (marks .plain line.toList).bind fun marks =>
    steps {} (tokens marks) with
  | none => outputOf [] 2
  | some steps =>
      let (bytes, code) := runSteps parameters steps
      outputOf bytes code

/-- Runs a command where the shell is the only program. -/
def runAlone (command : Command) : Except IoError CommandOutput :=
  if command.program == "/bin/sh" then
    match command.arguments with
    | "-c" :: line :: arguments =>
        let arguments :=
          if arguments.isEmpty then [command.program] else arguments
        .ok (evaluate { folder := command.folder, arguments } line)
    | [] => .ok (outputOf [] 0)
    | _ => .ok (outputOf [] 2)
  else .error .notFound

end CiPipeline.Shell
