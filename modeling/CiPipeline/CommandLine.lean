import CiPipeline.Version
import CiPipeline.Text.Lines
import CiPipeline.Variables

/-!
# Command lines

The words of a command line name an action, switches, and parameters with their
values.  Each switch and each parameter but the variables may stand once in
front of the action and once behind it, where the latter counts.
-/

namespace CiPipeline

open CiPipeline.Text

/-- What is done with a pipeline, or with a condition. -/
inductive CommandAction where
  | list
  | preview
  | json
  | evaluate
  deriving DecidableEq, Repr, Inhabited

def CommandAction.ofName? : String → Option CommandAction
  | "list" => some .list
  | "preview" => some .preview
  | "json" => some .json
  | "eval-if" => some .evaluate
  | _ => none

/-- Why a command line is not carried out. -/
inductive UsageError where
  | helpWanted
  | versionWanted
  | unknownWord
  | unknownAction
  | invalidValue
  | missingValue
  | surplusValue
  | repeated
  | missingExpression
  deriving DecidableEq, Repr

inductive Parameter where
  | folder
  | file
  | configuration
  | home
  | variable_
  | version
  | output
  deriving DecidableEq, Repr

inductive Switch where
  | refetch
  | pretty
  | help
  | version
  deriving DecidableEq, Repr

structure CommandLine where
  action : Option CommandAction := none
  /-- The condition that is evaluated. -/
  expression : Option String := none
  folder : Option String := none
  file : Option String := none
  configuration : Option String := none
  refetches : Bool := false
  home : Option String := none
  bindings : Variables := []
  version : Option Version := none
  output : Option String := none
  isPretty : Bool := false
  deriving DecidableEq, Repr, Inhabited

/-- A word that stands for a switch or a parameter. -/
inductive Keyword where
  | switch (switch : Switch)
  | parameter (parameter : Parameter)
  deriving DecidableEq, Repr

namespace Keyword

/-- The keyword of a name behind two dashes.  The version is told only in front
of an action. -/
def ofName? (isFirst : Bool) : String → Option Keyword
  | "cwd" => some (.parameter .folder)
  | "file" => some (.parameter .file)
  | "config" => some (.parameter .configuration)
  | "fetch-includes" => some (.switch .refetch)
  | "home" => some (.parameter .home)
  | "variable" => some (.parameter .variable_)
  | "gitlab-version" => some (.parameter .version)
  | "output" => some (.parameter .output)
  | "pretty" => some (.switch .pretty)
  | "help" => some (.switch .help)
  | "version" => if isFirst then some (.switch .version) else none
  | _ => none

def ofLetter? (isFirst : Bool) : Char → Option Keyword
  | 'f' => some (.parameter .file)
  | 'c' => some (.parameter .configuration)
  | 'o' => some (.parameter .output)
  | 'p' => some (.switch .pretty)
  | 'h' => some (.switch .help)
  | 'V' => if isFirst then some (.switch .version) else none
  | _ => none

end Keyword

namespace CommandLine

/-- Gives a parameter its value, if it has none yet. -/
def once {Value : Type} (before : Option Value)
    (read : Except UsageError Value) : Except UsageError (Option Value) :=
  match before with
  | some _ => .error .repeated
  | none => read.map some

/-- A path, which may not be empty. -/
def readPath (text : String) : Except UsageError String :=
  if text.isEmpty then .error .missingValue else .ok text

/-- A variable, written as its name and its value around a sign of equality. -/
def readVariable (text : String) : Except UsageError (String × String) :=
  match splitAtFirst? '=' text.toList with
  | some (name, value) =>
      if name.isEmpty then .error .invalidValue
      else .ok (String.ofList name, String.ofList value)
  | none => .error .invalidValue

def readVersion (text : String) : Except UsageError Version :=
  match Version.read? text with
  | some version => .ok version
  | none => .error .invalidValue

def set (line : CommandLine) (text : String) :
    Parameter → Except UsageError CommandLine
  | .folder => do
      return { line with folder := ← once line.folder (readPath text) }
  | .file => do return { line with file := ← once line.file (.ok text) }
  | .configuration => do
      return { line with
        configuration := ← once line.configuration (readPath text) }
  | .home => do return { line with home := ← once line.home (readPath text) }
  | .variable_ => do
      return { line with bindings := line.bindings ++ [← readVariable text] }
  | .version => do
      return { line with version := ← once line.version (readVersion text) }
  | .output => do
      return { line with output := ← once line.output (readPath text) }

def turnOn (line : CommandLine) : Switch → Except UsageError CommandLine
  | .refetch =>
      if line.refetches then .error .repeated
      else .ok { line with refetches := true }
  | .pretty =>
      if line.isPretty then .error .repeated
        else .ok { line with isPretty := true }
  | .help => .error .helpWanted
  | .version => .error .versionWanted

/-- What is said in front of an action, and behind it. -/
def combine (front behind : CommandLine) : CommandLine :=
  { action := behind.action, expression := behind.expression,
    folder := behind.folder.or front.folder, file := behind.file.or front.file,
    configuration := behind.configuration.or front.configuration,
    refetches := front.refetches || behind.refetches, home :=
      behind.home.or front.home,
    bindings :=
      if behind.bindings.isEmpty then front.bindings else behind.bindings,
    version := behind.version.or front.version, output :=
      behind.output.or front.output,
    isPretty := front.isPretty || behind.isPretty }

/-! ## Reading -/

/-- A parameter whose value is not set yet. -/
inductive Open where
  | nothing
  | awaited (parameter : Parameter)
  | held (parameter : Parameter) (value : String)
  deriving DecidableEq, Repr, Inhabited

/-- A command line in the course of being read. -/
structure Draft where
  line : CommandLine := {}
  pending : Open := .nothing
  /-- Whether all further words are values. -/
  isTrailing : Bool := false
  deriving Repr, Inhabited

namespace Draft

/-- Whether this is read in front of an action. -/
def isFirst (draft : Draft) : Bool := draft.line.action.isNone

/-- Whether the next word may be the value of a parameter. -/
def isAwaiting (draft : Draft) : Bool :=
  match draft.pending with
  | .awaited _ => true
  | _ => false

/-- Sets the value of the open parameter, which has to have one. -/
def settle (draft : Draft) : Except UsageError Draft :=
  match draft.pending with
  | .nothing => .ok draft
  | .awaited _ => .error .missingValue
  | .held parameter value => do
      return { draft with
        line := ← draft.line.set value parameter, pending := .nothing }

/-- Reads a parameter with its value, if that is attached to it. -/
def readParameter (draft : Draft) (parameter : Parameter)
    (attached : Option String) : Except UsageError Draft := do
  let draft ← draft.settle
  match attached with
  | some value => return { draft with line := ← draft.line.set value parameter }
  | none => return { draft with pending := .awaited parameter }

def readSwitch (draft : Draft) (switch : Switch) : Except UsageError Draft := do
  let draft ← draft.settle
  return { draft with line := ← draft.line.turnOn switch }

/-- Reads a keyword behind two dashes. -/
def readLong (draft : Draft) (text : List Char) : Except UsageError Draft :=
  let (name, attached) := match splitAtFirst? '=' text with
    | some (name, value) => (name, some (String.ofList value))
    | none => (text, none)
  match Keyword.ofName? draft.isFirst (String.ofList name) with
  | none => .error .unknownWord
  | some (.parameter parameter) => draft.readParameter parameter attached
  | some (.switch switch) =>
      if attached.isSome then .error .surplusValue else draft.readSwitch switch

/-- Reads letters behind a dash.  What stands behind the letter of a parameter
is its value. -/
def readLetters (draft : Draft) : List Char → Except UsageError Draft
  | [] => .ok draft
  | letter :: rest =>
      match Keyword.ofLetter? draft.isFirst letter with
      | none => .error .unknownWord
      | some (.switch switch) => do (← draft.readSwitch switch).readLetters rest
      | some (.parameter parameter) =>
          draft.readParameter parameter (match rest with
            | [] => none
            | '=' :: value => some (String.ofList value)
            | value => some (String.ofList value))

/-- Reads a word that is neither a keyword nor an action. -/
def readPlain (draft : Draft) (word : String) : Except UsageError Draft := do
  if draft.line.action == some .evaluate && draft.line.expression.isNone then
    let draft ← draft.settle
    return { draft with line := { draft.line with expression := some word } }
  else if draft.isFirst &&
      !(draft.isTrailing && (CommandAction.ofName? word).isSome) then
    throw .unknownAction
  else throw .unknownWord

/-- Reads a word that names no action. -/
def readWord (draft : Draft) (word : String) : Except UsageError Draft :=
  if draft.isTrailing then draft.readPlain word
  else
    match word.toList, draft.pending with
    | ['-', '-'], _ => .ok { draft with isTrailing := true }
    | '-' :: '-' :: text, _ => draft.readLong text
    | '-' :: letter :: rest, _ => draft.readLetters (letter :: rest)
    | _, .awaited parameter =>
        .ok { draft with pending := .held parameter word }
    | _, _ => draft.readPlain word

def finish (draft : Draft) : Except UsageError CommandLine := do
  let draft ← draft.settle
  if draft.line.action == some .evaluate && draft.line.expression.isNone then
    throw .missingExpression
  return draft.line

def read (draft : Draft) : List String → Except UsageError CommandLine
  | [] => draft.finish
  | word :: rest =>
      if draft.isFirst && !draft.isTrailing && !draft.isAwaiting &&
          word == "help" then
        match rest with
        | [] => .error .helpWanted
        | [action] =>
            if (CommandAction.ofName? action).isSome || action == "help" then
              .error .helpWanted
            else .error .unknownAction
        | _ => .error .unknownAction
      else if draft.isFirst && !draft.isTrailing && !draft.isAwaiting &&
          (CommandAction.ofName? word).isSome then do
        let behind ← read
          { line := { action := CommandAction.ofName? word } } rest
        let front ← draft.settle
        return combine front.line behind
      else do
        let draft ← draft.readWord word
        read draft rest

end Draft

def read (words : List String) : Except UsageError CommandLine :=
  Draft.read {} words

end CommandLine

end CiPipeline
