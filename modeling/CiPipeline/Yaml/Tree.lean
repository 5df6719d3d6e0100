import CiPipeline.Yaml.Lexer

/-!
# Trees of YAML documents

The tokens of a document are composed into a tree of nodes as they are written:
scalars are not interpreted yet, and an alias stands for the node that its
number means.

An anchor takes as its number the count of the names that are known by then.  An
anchor whose name is known already takes a new number nevertheless, which the
next new name takes as well; a number means the last node to which it was given,
also for the aliases in front of that node.
-/

namespace CiPipeline.Yaml

/-- A node of a document as it is written. -/
inductive Tree where
  | scalar (tag : Option String) (plain : Bool) (text : String)
  | sequence (tag : Option String) (items : List Tree)
  | mapping (tag : Option String) (entries : List (Tree × Tree))
  | alias_ (number : Nat)
  deriving Repr, Inhabited

/-- A document in the course of being composed. -/
structure Composition where
  tokens : List Token
  /-- What the handles of tags stand for. -/
  handles : List (String × String) := []
  /-- The number of scalars and aliases, and of starts and ends of
  collections. -/
  events : Nat := 0
  /-- The numbers of the anchors. -/
  numbers : List (String × Nat) := []
  /-- The places that the numbers mean, the last one first. -/
  places : List (Nat × Nat) := []
  /-- The nodes at the places that have an anchor. -/
  nodes : List (Nat × Tree) := []
  deriving Inhabited

/-- Composing may fail. -/
abbrev Composing := StateT Composition (Except YamlError)

namespace Composing

/-- The next token. -/
def peek : Composing Token := do
  return (← get).tokens.headD .streamEnd

/-- Passes a token. -/
def skip : Composing Unit :=
  modify fun composition =>
    { composition with tokens := composition.tokens.drop 1 }

/-- Counts a scalar, an alias, or a start or end of a collection. -/
def countEvent : Composing Unit :=
  modify fun composition =>
    { composition with events := composition.events + 1 }

/-- A scalar that is left out. -/
def missingScalar : Composing Tree := do
  countEvent
  return .scalar none true ""

/-! ## Properties of nodes -/

/-- The tag for which a handle and a suffix stand. -/
def resolveTag (handle suffix : String) : Composing String := do
  if handle.isEmpty then return suffix
  match (← get).handles.lookup handle with
  | some meaning => return meaning ++ suffix
  | none => throw .undefinedTagHandle

/-- Reads a tag if one is written here. -/
def readTag? : Composing (Option String) := do
  match ← peek with
  | .tag handle suffix => skip; return some (← resolveTag handle suffix)
  | _ => return none

/-- Reads an anchor if one is written here. -/
def readAnchor? : Composing (Option String) := do
  match ← peek with
  | .anchor name => skip; return some name
  | _ => return none

/-- Reads an anchor and a tag, which may come in either order. -/
def readProperties : Composing (Option String × Option String) := do
  let anchor ← readAnchor?
  let tag ← readTag?
  match anchor with
  | some name => return (some name, tag)
  | none => return (← readAnchor?, tag)

/-- Gives a number to the node that starts here. -/
def defineAnchor (name : String) : Composing Unit :=
  modify fun composition =>
    let number := composition.numbers.length
    let others := composition.numbers.filter fun known => known.1 != name
    { composition with
      numbers := (name, number) :: others,
      places := (number, composition.events) :: composition.places }

/-- The number that an alias stands for. -/
def resolveAlias (name : String) : Composing Tree := do
  match (← get).numbers.lookup name with
  | some number => return .alias_ number
  | none => throw .undefinedAnchor

/-- Keeps the node that starts at a place, if it has an anchor. -/
def keepNode (anchor : Option String) (place : Nat) (node : Tree) :
    Composing Tree := do
  if anchor.isSome then
    modify fun composition =>
      { composition with nodes := (place, node) :: composition.nodes }
  return node

/-! ## Nodes -/

mutual

/-- Composes a node.  A block may start only where `block` allows it, and the
items of a sequence may start without indentation of their own only where `bare`
allows it. -/
def node : Nat → Bool → Bool → Composing Tree
  | 0, _, _ => throw .unexpectedToken
  | rounds + 1, block, bare => do
      match ← peek with
      | .alias_ name =>
          skip
          countEvent
          resolveAlias name
      | _ =>
          let (anchor, tag) ← readProperties
          let place := (← get).events
          if let some name := anchor then defineAnchor name
          countEvent
          let written ← content rounds block bare anchor.isSome tag
          keepNode anchor place written

/-- Composes what follows the anchor and the tag of a node.  With one of them,
it may be missing. -/
def content : Nat → Bool → Bool → Bool → Option String → Composing Tree
  | 0, _, _, _, _ => throw .unexpectedToken
  | rounds + 1, block, bare, anchored, tag => do
      match ← peek with
      | .scalar text plain =>
          skip
          return .scalar (tag.filter (· != "!")) plain text
      | .flowSequenceStart =>
          skip
          return .sequence tag (← flowItems rounds true)
      | .flowMappingStart =>
          skip
          return .mapping tag (← flowEntries rounds true)
      | token =>
          if bare && token == .blockEntry then
            return .sequence tag (← bareItems rounds)
          if block && token == .blockSequenceStart then
            skip
            return .sequence tag (← blockItems rounds)
          if block && token == .blockMappingStart then
            skip
            return .mapping tag (← blockEntries rounds)
          if anchored || tag.isSome then return .scalar tag true ""
          throw .unexpectedToken

/-- Composes the items of a sequence that is indented. -/
def blockItems : Nat → Composing (List Tree)
  | 0 => throw .unexpectedToken
  | rounds + 1 => do
      match ← peek with
      | .blockEntry =>
          skip
          let item ← match ← peek with
            | .blockEntry | .blockEnd => missingScalar
            | _ => node rounds true false
          return item :: (← blockItems rounds)
      | .blockEnd => skip; countEvent; return []
      | _ => throw .unexpectedToken

/-- Composes the items of a sequence that is not indented. -/
def bareItems : Nat → Composing (List Tree)
  | 0 => throw .unexpectedToken
  | rounds + 1 => do
      match ← peek with
      | .blockEntry =>
          skip
          let item ← match ← peek with
            | .blockEntry | .key | .value | .blockEnd => missingScalar
            | _ => node rounds true false
          return item :: (← bareItems rounds)
      | _ => countEvent; return []

/-- Composes a key or a value of a mapping in a block, behind its indicator. -/
def blockPart : Nat → Composing Tree
  | 0 => throw .unexpectedToken
  | rounds + 1 => do
      match ← peek with
      | .key | .value | .blockEnd => missingScalar
      | _ => node rounds true true

def blockEntries : Nat → Composing (List (Tree × Tree))
  | 0 => throw .unexpectedToken
  | rounds + 1 => do
      match ← peek with
      | .key =>
          skip
          let key ← blockPart rounds
          let value ← match ← peek with
            | .value => skip; blockPart rounds
            | _ => missingScalar
          return (key, value) :: (← blockEntries rounds)
      | .blockEnd => skip; countEvent; return []
      | _ => throw .unexpectedToken

def flowItems : Nat → Bool → Composing (List Tree)
  | 0, _ => throw .unexpectedToken
  | rounds + 1, first => do
      if (← peek) != .flowSequenceEnd && !first then
        if (← peek) != .flowEntry then throw .unexpectedToken
        skip
      match ← peek with
      | .flowSequenceEnd => skip; countEvent; return []
      | .key =>
          skip
          let item ← flowPair rounds
          return item :: (← flowItems rounds false)
      | _ =>
          let item ← node rounds false false
          return item :: (← flowItems rounds false)

/-- Composes a key with its value that stand in a sequence, as a mapping of
their own.  What follows a missing key is passed, whatever it is. -/
def flowPair : Nat → Composing Tree
  | 0 => throw .unexpectedToken
  | rounds + 1 => do
      countEvent
      let key ← match ← peek with
        | .value | .flowEntry | .flowSequenceEnd => skip; missingScalar
        | _ => node rounds false false
      let value ← match ← peek with
        | .value =>
            skip
            match ← peek with
            | .flowEntry | .flowSequenceEnd => missingScalar
            | _ => node rounds false false
        | _ => missingScalar
      countEvent
      return .mapping none [(key, value)]

/-- Composes a key or a value of a mapping in brackets, behind its indicator. -/
def flowPart : Nat → Composing Tree
  | 0 => throw .unexpectedToken
  | rounds + 1 => do
      match ← peek with
      | .value | .flowEntry | .flowMappingEnd => missingScalar
      | _ => node rounds false false

def flowEntries : Nat → Bool → Composing (List (Tree × Tree))
  | 0, _ => throw .unexpectedToken
  | rounds + 1, first => do
      if (← peek) != .flowMappingEnd && !first then
        if (← peek) != .flowEntry then throw .unexpectedToken
        skip
      match ← peek with
      | .flowMappingEnd => skip; countEvent; return []
      | .key =>
          skip
          let key ← flowPart rounds
          let value ← match ← peek with
            | .value =>
                skip
                match ← peek with
                | .flowEntry | .flowMappingEnd => missingScalar
                | _ => node rounds false false
            | _ => missingScalar
          return (key, value) :: (← flowEntries rounds false)
      | _ =>
          let key ← node rounds false false
          let value ← missingScalar
          return (key, value) :: (← flowEntries rounds false)

end

/-! ## Documents -/

/-- The handles that need no directive. -/
def standardHandles : List (String × String) :=
  [("!", "!"), ("!!", "tag:yaml.org,2002:")]

/-- Reads the directives of a document: at most one version, which is 1.1 or
1.2, and handles of tags. -/
def readDirectives : List Token → Bool → List (String × String) →
    Except YamlError (List (String × String) × List Token)
  | .version major minor :: rest, versionKnown, handles =>
      if versionKnown || major != 1 || (minor != 1 && minor != 2) then
        .error .malformedDirective
      else readDirectives rest true handles
  | .tagHandle handle meaning :: rest, versionKnown, handles =>
      if (handles.lookup handle).isSome then .error .malformedDirective
      else readDirectives rest versionKnown (handles ++ [(handle, meaning)])
  | tokens, _, handles => .ok (handles ++ standardHandles, tokens)

/-- Composes the contents of a document whose start is marked. -/
def contents (rounds : Nat) : Composing Tree := do
  match ← peek with
  | .version .. | .tagHandle .. | .documentStart | .documentEnd | .streamEnd =>
      missingScalar
  | _ => node rounds true false

end Composing

/-- A document: its root, the nodes that the numbers of aliases mean, and the
number of scalars and aliases, and of starts and ends of collections. -/
structure DocumentTree where
  root : Tree
  targets : List (Nat × Tree) := []
  events : Nat := 0
  deriving Inhabited

namespace DocumentTree

/-- A composed document, behind which no other may follow. -/
def ofComposition (root : Tree) (composition : Composition) :
    Except YamlError DocumentTree :=
  match composition.tokens.dropWhile (· == .documentEnd) with
  | [.streamEnd] =>
      let targets := composition.places.filterMap fun (number, place) =>
        (composition.nodes.lookup place).map fun node => (number, node)
      .ok { root, targets, events := composition.events }
  | _ => .error .severalDocuments

/-- Composes the document of a text.  A text without any is a missing scalar. -/
def ofText (text : String) : Except YamlError DocumentTree := do
  let tokens ← Token.ofText text
  let rounds := 6 * tokens.length + 6
  let (handles, rest) ← Composing.readDirectives tokens false []
  let start : Composition := { tokens := rest, handles }
  match rest with
  | .documentStart :: rest => do
      let (root, composition) ← (Composing.contents rounds).run
        { start with tokens := rest }
      ofComposition root composition
  | _ =>
      if rest.length < tokens.length then throw .unexpectedToken
      else if rest == [.streamEnd] then return { root := .scalar none true "" }
      else
        let (root, composition) ← (Composing.node rounds true false).run start
        ofComposition root composition

end DocumentTree

end CiPipeline.Yaml
