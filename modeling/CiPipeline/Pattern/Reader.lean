import CiPipeline.Pattern.Basic
import CiPipeline.Pattern.Property

/-!
# Reading patterns

The text of a pattern is read from left to right with a stack of open groups.
Flags hold from where they are set to the end of the group around them.
-/

namespace CiPipeline

open CiPipeline.Text

namespace Pattern

/-- The flags under which a part of a pattern is read. -/
structure Flags where
  anyCase : Bool := false
  multiLine : Bool := false
  dotMatchesNewline : Bool := false
  carriageReturn : Bool := false
  unicode : Bool := true
  freeSpacing : Bool := false
  deriving DecidableEq, Repr, Inhabited

/-- A part of a pattern with the depth to which it is nested. -/
structure Piece where
  pattern : Pattern
  depth : Nat := 0
  /-- Whether a repetition may follow. -/
  repeatable : Bool := true
  /-- The character of a lone literal, which may bound a range of a class. -/
  literal : Option Char := none
  /-- The class of a lone escape, which may stand in a class. -/
  members : Option CharacterClass := none
  deriving Inhabited

def dropSpace (inComment : Bool) : List Char → List Char
  | [] => []
  | letter :: rest =>
      if inComment then dropSpace (letter != '\n') rest
      else if isBlank letter then dropSpace false rest
      else if letter == '#' then dropSpace true rest
      else letter :: rest

/-- Drops blanks and comments where spacing is free. -/
def Flags.skip (flags : Flags) (text : List Char) : List Char :=
  if flags.freeSpacing then dropSpace false text else text

/-- Whether a class has a member that is no single byte of the encoding. -/
def reachesBeyondAscii (members : CharacterClass) : Bool :=
  (List.range 128).any fun offset =>
    members.contains (Char.ofNat (128 + offset))

/-- The pattern of a class, which without Unicode may hold ASCII
characters only. -/
def ofClass (flags : Flags) (members : CharacterClass) :
    Except PatternError Pattern :=
  if !flags.unicode && reachesBeyondAscii members then .error .invalidEncoding
  else .ok (.character members)

/-- Closes a class under case where case is ignored. -/
def Flags.fold (flags : Flags) (members : CharacterClass) : CharacterClass :=
  if !flags.anyCase then members
  else if flags.unicode then .anyCase members
  else .both .ascii (.anyCase members)

def literalPiece (flags : Flags) (letter : Char) :
    Except PatternError Piece := do
  let pattern ← ofClass flags (flags.fold (.single letter))
  .ok { pattern, literal := some letter }

/-- A class named by an escape. -/
def classPiece (flags : Flags) (members : CharacterClass) :
    Except PatternError Piece :=
  match ofClass flags members with
  | .ok pattern => .ok { pattern, members := some members }
  | .error error => .error error

def boundaryPiece (condition : Boundary) : Piece :=
  { pattern := .boundary condition }

/-! ## Escapes -/

def hexValue? (digit : Char) : Option Nat :=
  if digit.isDigit then some (digit.toNat - 48)
  else if 'a' ≤ digit && digit ≤ 'f' then some (digit.toNat - 87)
  else if 'A' ≤ digit && digit ≤ 'F' then some (digit.toNat - 55)
  else none

/-- The literal of a code point. -/
def codePointPiece (flags : Flags) (point : Nat) : Except PatternError Piece :=
  if point.isValidChar then literalPiece flags (Char.ofNat point)
  else .error .invalidEscape

/-- Reads a given number of hexadecimal digits. -/
def readHexDigits (flags : Flags) :
    Nat → Nat → List Char → Except PatternError (Nat × List Char)
  | 0, value, text => .ok (value, text)
  | count + 1, value, digit :: rest =>
      match hexValue? digit with
      | some next =>
          readHexDigits flags count (value * 16 + next) (flags.skip rest)
      | none => .error .invalidEscape
  | _ + 1, _, [] => .error .invalidEscape

/-- Reads the hexadecimal digits up to a closing brace. -/
def readBracedHex (digits : List Nat) :
    List Char → Except PatternError (Nat × List Char)
  | [] => .error .invalidEscape
  | letter :: rest =>
      if letter == '\x7d' then
        if digits.isEmpty then .error .invalidEscape
        else .ok (digits.foldr (fun digit total => total * 16 + digit) 0, rest)
      else
        match hexValue? letter with
        | some digit => readBracedHex (digit :: digits) rest
        | none => .error .invalidEscape

/-- Drops the blanks of a short text where spacing is free. -/
def Flags.compact (flags : Flags) (text : List Char) : List Char :=
  if flags.freeSpacing then text.filter (!isBlank ·) else text

/-- Reads the code point of an escape whose digits follow. -/
def readHexEscape (flags : Flags) (count : Nat) (text : List Char) :
    Except PatternError (Piece × List Char) := do
  let text := flags.skip text
  let (point, rest) ← match text with
    | '\x7b' :: rest => do
        let inside := rest.takeWhile (· != '\x7d')
        let behind := rest.dropWhile (· != '\x7d')
        let (point, rest) ← readBracedHex [] (flags.compact inside ++ behind)
        pure (point, flags.skip rest)
    | text => readHexDigits flags count 0 text
  return (← codePointPiece flags point, rest)

def splitAt? (separator : List Char) :
    List Char → Option (List Char × List Char)
  | [] => none
  | letter :: rest =>
      if separator.isPrefixOf (letter :: rest) then
        some ([], (letter :: rest).drop separator.length)
      else
        (splitAt? separator rest).map fun (before, after) =>
          (letter :: before, after)

/-- The class of a property, mentioned by a name or by a name and a value. -/
def propertyClass? (text : List Char) : Option CharacterClass :=
  match splitAt? ['!', '='] text with
  | some (name, value) =>
      (CharacterClass.ofPropertyValue? name value).map .other
  | none =>
    match (splitAt? [':'] text).or (splitAt? ['='] text) with
    | some (name, value) => CharacterClass.ofPropertyValue? name value
    | none => CharacterClass.ofPropertyName? text

/-- Reads the name of a property behind its escape. -/
def readProperty (flags : Flags) (negated : Bool) (text : List Char) :
    Except PatternError (Piece × List Char) := do
  let (name, rest) ← match flags.skip text with
    | '\x7b' :: rest =>
        match splitAt? ['\x7d'] rest with
        | some (name, rest) => .ok (flags.compact name, rest)
        | none => .error .invalidEscape
    | letter :: rest =>
        if letter == '\\' then .error .invalidEscape
        else .ok ([letter], flags.skip rest)
    | [] => .error .invalidEscape
  if !flags.unicode then .error .invalidEncoding
  else match propertyClass? name with
    | some members =>
        return (← classPiece flags
          ((flags.fold members).negateIf negated), rest)
    | none => .error .unknownProperty

/-- The class of a one-letter escape. -/
def shorthandClass? (flags : Flags) (letter : Char) : Option CharacterClass :=
  let choose (unicode ascii : CharacterClass) :=
    if flags.unicode then unicode else ascii
  match letter with
  | 'd' => some (choose .digit .asciiDigit)
  | 'D' => some (.other (choose .digit .asciiDigit))
  | 's' => some (choose .blank .asciiBlank)
  | 'S' => some (.other (choose .blank .asciiBlank))
  | 'w' => some (choose .word .asciiWord)
  | 'W' => some (.other (choose .word .asciiWord))
  | _ => none

/-- The control character of a one-letter escape. -/
def controlEscape? : Char → Option Char
  | 'a' => some (Char.ofNat 7)
  | 'f' => some (Char.ofNat 12)
  | 't' => some '\t'
  | 'r' => some '\r'
  | 'n' => some '\n'
  | 'v' => some (Char.ofNat 11)
  | _ => none

/-- Reads the braced kind of a word boundary; other braces are left to a
repetition. -/
def readWordBoundary (flags : Flags) (text : List Char) :
    Except PatternError (Piece × List Char) :=
  let ascii := !flags.unicode
  let isKind (letter : Char) : Bool := letter.isAlpha || letter == '-'
  let plain : Except PatternError (Piece × List Char) :=
    .ok (boundaryPiece (.wordEdge ascii false), text)
  match text with
  | '\x7b' :: behind =>
      match flags.skip behind with
      | [] => .error .invalidEscape
      | first :: inner =>
          if !isKind first then plain
          else
            let kind := flags.compact ((first :: inner).takeWhile fun letter =>
              isKind letter || (flags.freeSpacing && isBlank letter))
            match (first :: inner).dropWhile fun letter =>
              isKind letter || (flags.freeSpacing && isBlank letter) with
            | '\x7d' :: rest =>
                match String.ofList kind with
                | "start" => .ok (boundaryPiece (.wordStart ascii false), rest)
                | "end" => .ok (boundaryPiece (.wordEnd ascii false), rest)
                | "start-half" =>
                    .ok (boundaryPiece (.wordStart ascii true), rest)
                | "end-half" => .ok (boundaryPiece (.wordEnd ascii true), rest)
                | _ => .error .invalidEscape
            | _ => .error .invalidEscape
  | _ => plain

/-- Reads what follows a backslash. -/
def readEscape (flags : Flags) :
    List Char → Except PatternError (Piece × List Char)
  | [] => .error .invalidEscape
  | letter :: rest =>
      match letter with
      | 'x' => readHexEscape flags 2 rest
      | 'u' => readHexEscape flags 4 rest
      | 'U' => readHexEscape flags 8 rest
      | 'p' => readProperty flags false rest
      | 'P' => readProperty flags true rest
      | 'A' => .ok (boundaryPiece .textStart, rest)
      | 'z' => .ok (boundaryPiece .textEnd, rest)
      | 'b' => readWordBoundary flags rest
      | 'B' => .ok (boundaryPiece (.wordEdge (!flags.unicode) true), rest)
      | '<' => .ok (boundaryPiece (.wordStart (!flags.unicode) false), rest)
      | '>' => .ok (boundaryPiece (.wordEnd (!flags.unicode) false), rest)
      | _ =>
        match shorthandClass? flags letter with
        | some members => do return (← classPiece flags members, rest)
        | none =>
          match controlEscape? letter with
          | some control => do return (← literalPiece flags control, rest)
          | none =>
            if letter.toNat < 128 && !letter.isAlphanum then do
              return (← literalPiece flags letter, rest)
            else .error .invalidEscape

/-! ## Bracketed classes -/

/-- A part of a bracketed class with the depth to which it is nested. -/
structure ClassPart where
  members : CharacterClass
  depth : Nat := 0
  deriving Inhabited

/-- The operators between the parts of a bracketed class. -/
inductive ClassOperator where
  | intersection
  | difference
  | symmetricDifference
  deriving DecidableEq

/-- A bracketed class that is still open: the operand left of its last operator,
and the items since, the latest first. -/
structure OpenClass where
  negated : Bool
  left : Option (ClassOperator × ClassPart)
  items : List ClassPart

namespace OpenClass

def add (class_ : OpenClass) (item : ClassPart) : OpenClass :=
  { class_ with items := item :: class_.items }

/-- The items since the last operator as one part. -/
def union (class_ : OpenClass) : ClassPart :=
  match class_.items with
  | [] => ⟨.nothing, 0⟩
  | [item] => item
  | items =>
      ⟨.ofList (items.map (·.members)), 1 + (items.map (·.depth)).foldl max 0⟩

/-- Everything read so far as one part. -/
def operand (flags : Flags) (class_ : OpenClass) : ClassPart :=
  match class_.left with
  | none => class_.union
  | some (operator, left) =>
      let right := class_.union
      let first := flags.fold left.members
      let second := flags.fold right.members
      let members := match operator with
        | .intersection => .both first second
        | .difference => first.without second
        | .symmetricDifference => first.onlyOne second
      ⟨members, 1 + max left.depth right.depth⟩

/-- Continues behind an operator. -/
def operate (flags : Flags) (class_ : OpenClass) (operator : ClassOperator) :
    OpenClass :=
  { class_ with left := some (operator, class_.operand flags), items := [] }

def close (flags : Flags) (class_ : OpenClass) : ClassPart :=
  let part := class_.operand flags
  ⟨(flags.fold part.members).negateIf class_.negated, 1 + part.depth⟩

end OpenClass

/-- Reads dashes that stand first in a class. -/
def readLeadingDashes (flags : Flags) (class_ : OpenClass) :
    List Char → OpenClass × List Char
  | '-' :: rest =>
      if flags.freeSpacing then (class_.add ⟨.single '-', 0⟩, flags.skip rest)
      else readLeadingDashes flags (class_.add ⟨.single '-', 0⟩) rest
  | text => (class_, text)

/-- Reads what follows an opening bracket: a negation, and a dash or bracket
that stands for itself because it is first. -/
def openClass (flags : Flags) (text : List Char) : OpenClass × List Char :=
  let text := flags.skip text
  let (negated, text) := match text with
    | '^' :: rest => (true, flags.skip rest)
    | text => (false, text)
  let (class_, text) := readLeadingDashes flags ⟨negated, none, []⟩ text
  match text with
  | ']' :: rest =>
      if class_.items.isEmpty then
        (class_.add ⟨.single ']', 0⟩, flags.skip rest)
      else (class_, text)
  | text => (class_, text)

/-- Reads the name of an ASCII class behind an opening bracket, if
there is one. -/
def readAsciiClass? (flags : Flags) : List Char → Option (ClassPart × List Char)
  | ':' :: rest =>
      let (negated, rest) := match rest with
        | '^' :: rest => (true, rest)
        | rest => (false, rest)
      let name := rest.takeWhile (· != ':')
      match rest.dropWhile (· != ':') with
      | ':' :: ']' :: behind =>
          (CharacterClass.ofAsciiName? (String.ofList name)).map fun members =>
            (⟨(flags.fold members).negateIf negated, 0⟩, behind)
      | _ => none
  | _ => none

/-- Reads one item of a class: a character or an escape. -/
def readClassItem (flags : Flags) :
    List Char → Except PatternError (Piece × List Char)
  | '\\' :: rest => readEscape flags rest
  | letter :: rest => .ok ({ pattern := .empty, literal := some letter }, rest)
  | [] => .error .unclosedClass

/-- Reads an item of a class or a range of characters. -/
def readClassRange (flags : Flags) (text : List Char) :
    Except PatternError (ClassPart × List Char) := do
  let (first, rest) ← readClassItem flags text
  let single : Except PatternError (ClassPart × List Char) :=
    match first.literal, first.members with
    | some letter, _ => .ok (⟨.single letter, 0⟩, flags.skip rest)
    | none, some members => .ok (⟨members, 0⟩, flags.skip rest)
    | none, none => .error .invalidClassItem
  match flags.skip rest with
  | [] => .error .unclosedClass
  | '-' :: behind =>
      let behind := flags.skip behind
      if behind.head? == some ']' || behind.head? == some '-' then single
      else
        let (last, rest) ← readClassItem flags behind
        match first.literal, last.literal with
        | some low, some high =>
            if low ≤ high then .ok (⟨.range low high, 0⟩, rest)
            else .error .invalidRange
        | _, _ => .error .invalidRange
  | _ => single

/-- Reads a bracketed class behind its opening bracket.  Every round reads a
character at least. -/
def readClassItems (flags : Flags) :
    Nat → OpenClass → List OpenClass → List Char →
      Except PatternError (ClassPart × List Char)
  | 0, _, _, _ => .error .unclosedClass
  | rounds + 1, class_, outer, text =>
      match flags.skip text with
      | [] => .error .unclosedClass
      | '[' :: rest =>
          match readAsciiClass? flags rest with
          | some (part, rest) =>
              readClassItems flags rounds (class_.add part) outer rest
          | none =>
              let (inner, rest) := openClass flags rest
              readClassItems flags rounds inner (class_ :: outer) rest
      | ']' :: rest =>
          match outer with
          | [] => .ok (class_.close flags, rest)
          | parent :: outer =>
              readClassItems flags rounds
                (parent.add (class_.close flags)) outer rest
      | '&' :: '&' :: rest =>
          readClassItems flags rounds
            (class_.operate flags .intersection) outer rest
      | '-' :: '-' :: rest =>
          readClassItems flags rounds
            (class_.operate flags .difference) outer rest
      | '~' :: '~' :: rest =>
          readClassItems flags rounds
            (class_.operate flags .symmetricDifference) outer rest
      | text =>
          match readClassRange flags text with
          | .error error => .error error
          | .ok (part, rest) =>
              readClassItems flags rounds (class_.add part) outer rest

/-- Reads a bracketed class behind its opening bracket. -/
def readClass (flags : Flags) (text : List Char) :
    Except PatternError (Piece × List Char) := do
  let (class_, rest) := openClass flags text
  let (part, rest) ← readClassItems flags (text.length + 1) class_ [] rest
  let pattern ← ofClass flags part.members
  return ({ pattern, depth := part.depth }, rest)

/-! ## Repetitions -/

/-- The greatest count of a repetition. -/
def greatestCount : Nat := Nat.pow 2 32 - 1

/-- Reads a decimal count with the blanks around it. -/
def readCount (flags : Flags) (text : List Char) :
    Except PatternError (Nat × List Char) :=
  let text := text.dropWhile isBlank
  let isPart (letter : Char) : Bool :=
    letter.isDigit || (flags.freeSpacing && isBlank letter)
  let digits := (text.takeWhile isPart).filter Char.isDigit
  let rest := (flags.skip (text.dropWhile isPart)).dropWhile isBlank
  let count :=
    digits.foldl (fun total digit => total * 10 + (digit.toNat - 48)) 0
  if digits.isEmpty || count > greatestCount then .error .invalidRepetition
  else .ok (count, rest)

/-- Drops the mark by which a repetition prefers fewer rounds. -/
def dropLazyMark : List Char → List Char
  | '?' :: rest => rest
  | text => text

/-- Reads the counts of a repetition behind its opening brace. -/
def readCounts (flags : Flags) (text : List Char) :
    Except PatternError ((Nat × Option Nat) × List Char) := do
  let text := flags.skip text
  if text.isEmpty then .error .unclosedRepetition
  let (least, rest) ← readCount flags text
  let (most, rest) ← match rest with
    | ',' :: rest =>
        match flags.skip rest with
        | '\x7d' :: rest => .ok (none, '\x7d' :: rest)
        | rest => do
            let (most, rest) ← readCount flags rest
            pure (some most, rest)
    | rest => .ok (some least, rest)
  match rest with
  | '\x7d' :: rest =>
      if most.any (· < least) then .error .invalidRepetition
      else .ok ((least, most), dropLazyMark (flags.skip rest))
  | _ => .error .unclosedRepetition

def repeatLast (least : Nat) (most : Option Nat) :
    List Piece → Except PatternError (List Piece)
  | [] => .error .nothingToRepeat
  | item :: items =>
      if item.repeatable then
        .ok ({ pattern := .repeated item.pattern least most,
               depth := item.depth + 1 } :: items)
      else .error .nothingToRepeat

/-! ## Groups -/

/-- A group that is still open: the flags to restore behind it, and what stands
before it. -/
structure OpenGroup where
  flags : Flags
  alternatives : List Piece
  items : List Piece

/-- The state of reading: the flags, the names given to groups, the open groups,
and the alternatives and items of the innermost one, the latest first. -/
structure ReaderState where
  flags : Flags
  names : List String := []
  groups : List OpenGroup := []
  alternatives : List Piece := []
  items : List Piece := []

def joinItems (items : List Piece) : Piece :=
  match items with
  | [] => { pattern := .empty }
  | [item] => item
  | items =>
      { pattern := (items.reverse.map (·.pattern)).foldr .sequence .empty,
        depth := 1 + (items.map (·.depth)).foldl max 0 }

def joinAlternatives (alternatives : List Piece) (last : Piece) : Piece :=
  match alternatives with
  | [] => last
  | alternatives =>
      { pattern := alternatives.foldl
          (fun right left => .either left.pattern right) last.pattern,
        depth := 1 + (alternatives.map (·.depth)).foldl max last.depth }

/-- Everything read in the innermost group. -/
def ReaderState.contents (state : ReaderState) : Piece :=
  joinAlternatives state.alternatives (joinItems state.items)

def Flags.set? (flags : Flags) (value : Bool) : Char → Option Flags
  | 'i' => some { flags with anyCase := value }
  | 'm' => some { flags with multiLine := value }
  | 's' => some { flags with dotMatchesNewline := value }
  | 'R' => some { flags with carriageReturn := value }
  | 'u' => some { flags with unicode := value }
  | 'x' => some { flags with freeSpacing := value }
  | 'U' => some flags
  | _ => none

/-- Reads flags up to a colon or a closing parenthesis.  No flag and no negation
may be repeated, and a negation needs a flag behind it. -/
def readFlags (flags : Flags) (seen : List Char) :
    List Char → Except PatternError (Flags × List Char × List Char)
  | [] => .error .invalidFlag
  | letter :: rest =>
      if letter == ':' || letter == ')' then
        if seen.head? == some '-' then .error .invalidFlag
        else .ok (flags, seen, letter :: rest)
      else if seen.contains letter then .error .invalidFlag
      else if letter == '-' then readFlags flags ('-' :: seen) rest
      else
        match flags.set? (!seen.contains '-') letter with
        | some flags => readFlags flags (letter :: seen) rest
        | none => .error .invalidFlag

def isGroupNameCharacter (first : Bool) (letter : Char) : Bool :=
  letter == '_' || if first then isAlphabetic letter
    else letter == '.' || letter == '[' || letter == ']' ||
      isAlphanumeric letter

/-- Reads the name of a group up to its closing angle. -/
def readGroupName (names : List String) (text : List Char) :
    Except PatternError (String × List Char) :=
  let name := text.takeWhile (· != '>')
  match name, text.dropWhile (· != '>') with
  | first :: others, _ :: rest =>
      if isGroupNameCharacter true first &&
        others.all (isGroupNameCharacter false) &&
        !names.contains (String.ofList name) then .ok (String.ofList name, rest)
      else .error .invalidGroupName
  | _, _ => .error .invalidGroupName

/-- Opens a group under the given flags. -/
def ReaderState.open_ (state : ReaderState) (flags : Flags) : ReaderState :=
  { flags, names := state.names,
    groups := ⟨state.flags, state.alternatives, state.items⟩ :: state.groups }

/-- Reads what follows an opening parenthesis. -/
def readOpening (state : ReaderState) (text : List Char) :
    Except PatternError (ReaderState × List Char) :=
  match state.flags.skip text with
  | '?' :: '=' :: _ => .error .unsupportedLookAround
  | '?' :: '!' :: _ => .error .unsupportedLookAround
  | '?' :: '<' :: '=' :: _ => .error .unsupportedLookAround
  | '?' :: '<' :: '!' :: _ => .error .unsupportedLookAround
  | '?' :: 'P' :: '<' :: rest => named rest
  | '?' :: '<' :: rest => named rest
  | '?' :: rest => do
      match ← readFlags state.flags [] rest with
      | (flags, _, ':' :: rest) => .ok (state.open_ flags, rest)
      | (flags, seen, _ :: rest) =>
          if seen.isEmpty then .error .nothingToRepeat
          else
            let mark : Piece := { pattern := .empty, repeatable := false }
            .ok ({ state with flags, items := mark :: state.items }, rest)
      | (_, _, []) => .error .unclosedGroup
  | rest => .ok (state.open_ state.flags, rest)
where
  named (rest : List Char) : Except PatternError (ReaderState × List Char) := do
    let (name, rest) ← readGroupName state.names rest
    return ({ state.open_ state.flags with names := name :: state.names }, rest)

/-- Closes the innermost group. -/
def ReaderState.close (state : ReaderState) : Except PatternError ReaderState :=
  match state.groups with
  | [] => .error .unopenedGroup
  | group :: groups =>
      let contents := state.contents
      let item : Piece :=
        { pattern := contents.pattern, depth := contents.depth + 1 }
      .ok { flags := group.flags, names := state.names, groups,
            alternatives := group.alternatives, items := item :: group.items }

def ReaderState.add (state : ReaderState) (item : Piece) : ReaderState :=
  { state with items := item :: state.items }

def dotPiece (flags : Flags) : Except PatternError Piece :=
  let members : CharacterClass :=
    if flags.dotMatchesNewline then .anything
    else if flags.carriageReturn then
      .other (.either (.single '\r') (.single '\n'))
    else .other (.single '\n')
  (ofClass flags members).map fun pattern => { pattern }

/-- Reads the next part of a pattern, which starts with the given character. -/
def readNext (state : ReaderState) (letter : Char) (rest : List Char) :
    Except PatternError (ReaderState × List Char) :=
  let flags := state.flags
  let add (reading : Except PatternError (Piece × List Char)) :
      Except PatternError (ReaderState × List Char) :=
    reading.map fun (item, rest) => (state.add item, rest)
  let repeatItem (least : Nat) (most : Option Nat) (rest : List Char) :
      Except PatternError (ReaderState × List Char) :=
    (repeatLast least most state.items).map fun items =>
      ({ state with items }, rest)
  match letter with
  | '(' => readOpening state rest
  | ')' => state.close.map fun state => (state, rest)
  | '|' => .ok ({ state with
      alternatives :=
        joinItems state.items :: state.alternatives, items := [] }, rest)
  | '[' => add (readClass flags rest)
  | '?' => repeatItem 0 (some 1) (dropLazyMark rest)
  | '*' => repeatItem 0 none (dropLazyMark rest)
  | '+' => repeatItem 1 none (dropLazyMark rest)
  | '\x7b' =>
      match state.items with
      | [] => .error .nothingToRepeat
      | item :: _ =>
          if !item.repeatable then .error .nothingToRepeat
          else
            match readCounts flags rest with
            | .ok ((least, most), rest) => repeatItem least most rest
            | .error error => .error error
  | '\\' => add (readEscape flags rest)
  | '.' => add ((dotPiece flags).map fun item => (item, rest))
  | '^' =>
      let condition :=
        if flags.multiLine then .lineStart flags.carriageReturn else .textStart
      add (.ok (boundaryPiece condition, rest))
  | '$' =>
      let condition :=
        if flags.multiLine then .lineEnd flags.carriageReturn else .textEnd
      add (.ok (boundaryPiece condition, rest))
  | _ => add ((literalPiece flags letter).map fun item => (item, rest))

/-- Reads a whole pattern.  Every round reads a character at least. -/
def readAll : Nat → ReaderState → List Char → Except PatternError Piece
  | 0, _, _ => .error .unclosedGroup
  | rounds + 1, state, text =>
      match state.flags.skip text with
      | [] =>
          if state.groups.isEmpty then .ok state.contents
            else .error .unclosedGroup
      | letter :: rest =>
          match readNext state letter rest with
          | .error error => .error error
          | .ok (state, rest) => readAll rounds state rest

/-- The greatest depth to which a pattern may be nested. -/
def depthLimit : Nat := 250

def read (flags : Flags) (text : String) : Except PatternError Pattern :=
  let characters := text.toList
  match readAll (characters.length + 1) { flags } characters with
  | .error error => .error error
  | .ok piece =>
      if piece.depth > depthLimit then .error .nestedTooDeeply
      else if piece.pattern.stateCount * stateSize > PatternError.sizeLimit then
        .error .tooLarge
      else .ok piece.pattern

end Pattern

end CiPipeline
