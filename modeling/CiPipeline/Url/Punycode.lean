/-!
# Names beyond ASCII in ASCII

A label is written as its ASCII characters followed by the places and values of
the others.  The others come in increasing order, each as the distance from the
one before in a number system whose digit weights adapt to the distances so far.
-/

namespace CiPipeline.Url.Punycode

/-- The digit for a value below 36. -/
def digit (value : Nat) : Char :=
  if value < 26 then Char.ofNat (value + 97) else Char.ofNat (value + 22)

def digitValue? (character : Char) : Option Nat :=
  if 'a' ≤ character && character ≤ 'z' then some (character.toNat - 97)
  else if 'A' ≤ character && character ≤ 'Z' then some (character.toNat - 65)
  else if character.isDigit then some (character.toNat - 22)
  else none

/-- The value at which a number ends, for a digit at a position. -/
def threshold (position bias : Nat) : Nat :=
  if position ≤ bias then 1 else min (position - bias) 26

/-- Shrinks a distance. -/
def shrink : Nat → Nat → Nat → Nat × Nat
  | 0, distance, steps => (distance, steps)
  | rounds + 1, distance, steps =>
      if distance > 455 then shrink rounds (distance / 35) (steps + 36)
      else (distance, steps)

/-- The bias after a distance, given the number of characters so far. -/
def adapt (distance count : Nat) (first : Bool) : Nat :=
  let scaled := if first then distance / 700 else distance / 2
  let (rest, steps) := shrink 64 (scaled + scaled / count) 0
  steps + 36 * rest / (rest + 38)

def writeDistance (bias : Nat) : Nat → Nat → Nat → List Char
  | 0, _, _ => []
  | rounds + 1, position, distance =>
      let limit := threshold position bias
      if distance < limit then [digit distance]
      else
        digit (limit + (distance - limit) % (36 - limit)) ::
          writeDistance bias rounds (position + 36)
            ((distance - limit) / (36 - limit))

structure Writing where
  written : List Char
  distance : Nat
  bias : Nat
  handled : Nat
  basicCount : Nat

/-- Passes one character of the label while the characters of one value
are written. -/
def writeCharacter (value : Nat) (writing : Writing)
    (character : Char) : Writing :=
  if character.toNat < value then
    { writing with distance := writing.distance + 1 }
  else if character.toNat > value then writing
  else
    { writing with
      written :=
        writing.written ++ writeDistance writing.bias 64 36 writing.distance,
      bias := adapt writing.distance (writing.handled + 1)
        (writing.handled == writing.basicCount),
      distance := 0,
      handled := writing.handled + 1 }

/-- Writes the characters from a value on, the least value first. -/
def writeFrom (label : List Char) : Nat → Nat → Writing → List Char
  | 0, _, writing => writing.written
  | rounds + 1, value, writing =>
      match ((label.map Char.toNat).filter (value ≤ ·)).min? with
      | none => writing.written
      | some next =>
          let distance :=
            writing.distance + (next - value) * (writing.handled + 1)
          let writing :=
            label.foldl (writeCharacter next) { writing with distance }
          writeFrom label rounds
            (next + 1) { writing with distance := writing.distance + 1 }

/-- Writes a label in ASCII. -/
def encode (label : List Char) : List Char :=
  let basic := label.filter fun character => character.toNat < 128
  let start := if basic.isEmpty then [] else basic ++ ['-']
  writeFrom label (label.length + 1) 128
    { written := start, distance := 0, bias := 72, handled := basic.length,
      basicCount := basic.length }

/-- Reads a distance: the value to which it leads, and what follows. -/
def readDistance (bias : Nat) :
    Nat → Nat → Nat → List Char → Option (Nat × List Char)
  | _, _, _, [] => none
  | position, weight, value, character :: rest =>
      match digitValue? character with
      | none => none
      | some read =>
          let value := value + read * weight
          let limit := threshold position bias
          if read < limit then some (value, rest)
          else readDistance bias (position + 36)
            (weight * (36 - limit)) value rest

/-- Reads the places and values of the characters beyond ASCII. -/
def readFrom :
    Nat → Nat → Nat → Nat → List Char → List Char → Option (List Char)
  | 0, _, _, _, label, _ => some label
  | rounds + 1, value, place, bias, label, text =>
      if text.isEmpty then some label
      else
        match readDistance bias 36 1 place text with
        | none => none
        | some (reached, rest) =>
            let count := label.length + 1
            let next := value + reached / count
            let position := reached % count
            if !next.isValidChar then none
            else
              readFrom rounds next (position + 1) (adapt (reached - place) count
                (place == 0)) (label.take position ++
                  Char.ofNat next :: label.drop position) rest

/-- Reads a label back. -/
def decode? (text : List Char) : Option (List Char) :=
  let (basic, rest) := match text.reverse.dropWhile (· != '-') with
    | [] => ([], text)
    | _ :: before => (before.reverse, text.drop (before.length + 1))
  if basic.all (·.toNat < 128) then
    readFrom (rest.length + 1) 128 0 72 basic rest else none

end CiPipeline.Url.Punycode
