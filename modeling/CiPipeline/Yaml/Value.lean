import CiPipeline.Number
import CiPipeline.Yaml.Tree

/-!
# Values of YAML documents

A value is a tree whose scalars are interpreted and whose aliases are replaced.
Of tags, those of the standard types ask for a type, and those of the document's
own are kept.
-/

namespace CiPipeline.Yaml

inductive Value where
  | null
  | boolean (value : Bool)
  | number (value : Number)
  | text (value : String)
  | sequence (items : List Value)
  | mapping (entries : List (Value × Value))
  | tagged (tag : String) (value : Value)
  deriving Repr, Inhabited

/-! ## Plain scalars -/

/-- Reads null; an empty scalar is not an explicit null. -/
def isNull (text : String) : Bool :=
  ["null", "Null", "NULL", "~"].contains text

def readBoolean? (text : String) : Option Bool :=
  if ["true", "True", "TRUE"].contains text then some true
  else if ["false", "False", "FALSE"].contains text then some false
  else none

/-- Whether a text is a sequence of digits that starts with a
superfluous zero. -/
def isZeroPadded (text : List Char) : Bool :=
  let digits := match text with
    | '-' :: digits => digits
    | '+' :: digits => digits
    | digits => digits
  digits.length > 1 && digits.head? == some '0' && digits.all Char.isDigit

/-- Reads digits of a base up to sixteen. -/
def readDigits? (base : Nat) (digits : List Char) : Option Nat := do
  if digits.isEmpty then none
  let values ← digits.mapM Text.hexDigit?
  if values.all (· < base) then
    some (values.foldl (fun total digit => total * base + digit) 0)
  else none

/-- Reads an unsigned integer of base ten, or of the base that its first two
characters tell. -/
def readMagnitude? : List Char → Option Nat
  | '0' :: 'x' :: digits => readDigits? 16 digits
  | '0' :: 'o' :: digits => readDigits? 8 digits
  | '0' :: 'b' :: digits => readDigits? 2 digits
  | digits => readDigits? 10 digits

/-- An integer within given bounds, and not within 64 bits, is not a number
of a document. -/
def boundedInteger? (value : Int) (least greatest : Int) :
    Option (Except YamlError Number) :=
  if Number.leastInteger ≤ value && value ≤ Number.greatestInteger then
    some (.ok (.integer value))
  else if least ≤ value && value ≤ greatest then some (.error .invalidScalar)
  else none

/-- Reads an integer.  One that takes more than 64 bits is refused, and one that
takes more than 128 bits is not read as an integer at all. -/
def readInteger? (text : List Char) : Option (Except YamlError Number) := do
  if isZeroPadded text then none
  match text with
  | '-' :: digits =>
      boundedInteger? (-Int.ofNat (← readMagnitude? digits))
        (-Int.ofNat (Nat.pow 2 127)) (Int.ofNat (Nat.pow 2 128) - 1)
  | '+' :: digits =>
      boundedInteger? (Int.ofNat (← readMagnitude? digits)) 0
        (Int.ofNat (Nat.pow 2 128) - 1)
  | digits =>
      boundedInteger? (Int.ofNat (← readMagnitude? digits)) 0
        (Int.ofNat (Nat.pow 2 128) - 1)

/-- Reads the names of infinity behind its sign. -/
def isInfinity (text : List Char) : Bool :=
  [".inf", ".Inf", ".INF"].contains (String.ofList text)

/-- Reads a finite decimal. -/
def readFinite? (negative : Bool) (text : List Char) : Option Number :=
  match Number.readDecimal? text with
  | some (digits, exponent) =>
      let number := Number.ofDecimal negative digits exponent
      if number.isFinite then some number else none
  | none => none

def readDouble? (text : List Char) : Option Number :=
  if [".nan", ".NaN", ".NAN"].contains (String.ofList text) then
    some (.double Number.notANumberBits)
  else
    let (negative, magnitude) := match text with
      | '-' :: magnitude => (true, magnitude)
      | '+' :: magnitude => (false, magnitude)
      | magnitude => (false, magnitude)
    if isInfinity magnitude then
      some (.double (Decimal.infinityBits +
        if negative then Number.signBit else 0))
    else readFinite? negative magnitude

/-- Interprets a plain scalar without a tag. -/
def interpret (text : String) : Except YamlError Value :=
  if text.isEmpty || isNull text then .ok .null
  else
    match readBoolean? text with
    | some value => .ok (.boolean value)
    | none =>
        match readInteger? text.toList with
        | some number => number.map .number
        | none =>
            if isZeroPadded text.toList then .ok (.text text)
            else
              match readDouble? text.toList with
              | some number => .ok (.number number)
              | none => .ok (.text text)

/-! ## Tags -/

/-- What a tag asks for. -/
inductive TagMeaning where
  | boolean
  | integer
  | double
  | null
  /-- A tag of the document's own. -/
  | own (name : String)
  | other
  deriving DecidableEq, Repr

/-- The name of a tag of the document's own without its exclamation marks. -/
def ownTagName (tag : List Char) : String :=
  match tag with
  | '!' :: rest => String.ofList (if rest.isEmpty then tag else rest)
  | tag => String.ofList tag

def tagMeaning (tag : String) : TagMeaning :=
  match tag with
  | "tag:yaml.org,2002:bool" => .boolean
  | "tag:yaml.org,2002:int" => .integer
  | "tag:yaml.org,2002:float" => .double
  | "tag:yaml.org,2002:null" => .null
  | tag =>
      match tag.toList with
      | '!' :: name => .own (ownTagName name)
      | _ => .other

/-- Requires that a scalar is of the type for which its tag asks. -/
def requireType {Read : Type} (value : Option Read) (make : Read → Value) :
    Except YamlError Value :=
  match value with
  | some read => .ok (make read)
  | none => .error .invalidScalar

def scalarValue (tag : Option String) (plain : Bool) (text : String) :
    Except YamlError Value :=
  let untagged := if plain then interpret text else .ok (.text text)
  match tag.map tagMeaning with
  | none => untagged
  | some .boolean => requireType (readBoolean? text) .boolean
  | some .integer =>
      match readInteger? text.toList with
      | some number => number.map .number
      | none => .error .invalidScalar
  | some .double => requireType (readDouble? text.toList) .number
  | some .null =>
      requireType (if isNull text then some () else none) fun _ => .null
  | some (.own "") => .error .emptyTag
  | some (.own name) => untagged.map (.tagged name)
  | some .other => .ok (.text text)

/-- Adds the tag of a collection to its value. -/
def addTag (tag : Option String) (value : Value) : Except YamlError Value :=
  match tag.map tagMeaning with
  | some (.own "") => .error .emptyTag
  | some (.own name) => .ok (.tagged name value)
  | _ => .ok value

/-! ## Equality of keys -/

/-- Whether two numbers are the same key: the two zeros are, and so are all
doubles that are not numbers. -/
def sameNumber : Number → Number → Bool
  | .integer left, .integer right => left == right
  | .double left, .double right =>
      let magnitude (bits : Nat) : Nat := bits % Number.signBit
      left == right || (magnitude left == 0 && magnitude right == 0) ||
        (magnitude left > Decimal.infinityBits &&
          magnitude right > Decimal.infinityBits)
  | _, _ => false

mutual

/-- Whether two values are the same key.  The order of the entries of a mapping
does not count. -/
def Value.same : Value → Value → Bool
  | .null, .null => true
  | .boolean left, .boolean right => left == right
  | .number left, .number right => sameNumber left right
  | .text left, .text right => left == right
  | .sequence left, .sequence right => Value.sameItems left right
  | .mapping left, .mapping right =>
      left.length == right.length && Value.sameEntries left right
  | .tagged leftTag left, .tagged rightTag right =>
      leftTag == rightTag && Value.same left right
  | _, _ => false

/-- Whether two lists have the same items in the same order. -/
def Value.sameItems : List Value → List Value → Bool
  | [], [] => true
  | left :: lefts, right :: rights =>
      Value.same left right && Value.sameItems lefts rights
  | _, _ => false

/-- Whether each of some entries is among others. -/
def Value.sameEntries : List (Value × Value) → List (Value × Value) → Bool
  | [], _ => true
  | (key, value) :: rest, others =>
      others.any (fun other => Value.same key other.1 &&
        Value.same value other.2) && Value.sameEntries rest others

end

/-- Whether no two entries have the same key. -/
def distinctKeys : List (Value × Value) → Bool
  | [] => true
  | (key, _) :: rest =>
      !(rest.any fun other => Value.same key other.1) && distinctKeys rest

/-! ## Values of trees -/

namespace DocumentTree

/-- Aliases are counted while they are replaced. -/
abbrev Replacing := StateT Nat (Except YamlError)

/-- Replaces an alias by the node that its number means.  A document may not use
aliases more than a hundred times as often as it has scalars and ends of
collections. -/
def target (document : DocumentTree) : Tree → Replacing Tree
  | .alias_ number => do
      modify (· + 1)
      if (← get) > document.events * 100 then throw .repeatedTooOften
      match document.targets.lookup number with
      | some tree => return tree
      | none => throw .undefinedAnchor
  | tree => return tree

/-- The value of a node, with no more than a number of collections
around each other. -/
def valueOf (document : DocumentTree) : Nat → Tree → Replacing Value
  | depth, tree => do
      match ← document.target tree, depth with
      | .scalar tag plain text, _ => scalarValue tag plain text
      | .alias_ _, _ => throw .undefinedAnchor
      | _, 0 => throw .nestedTooDeeply
      | .sequence tag items, depth + 1 => do
          let items ← items.mapM (document.valueOf depth)
          addTag tag (.sequence items)
      | .mapping tag entries, depth + 1 => do
          let entries ← entries.mapM fun (key, value) => do
            return (← document.valueOf depth
              key, ← document.valueOf depth value)
          if !distinctKeys entries then throw .duplicateKey
          addTag tag (.mapping entries)

/-- The greatest number of collections around each other. -/
def greatestDepth : Nat := 128

end DocumentTree

def Value.ofText (text : String) : Except YamlError Value := do
  let document ← DocumentTree.ofText text
  return (← (document.valueOf DocumentTree.greatestDepth document.root).run 0).1

end CiPipeline.Yaml
