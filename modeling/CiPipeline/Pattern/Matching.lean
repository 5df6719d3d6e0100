import CiPipeline.Pattern.Basic

/-!
# Matching

A pattern is run on all places of a text at once: a set of places is a natural
number whose bits are the places, and a pattern maps the places where it may
start to the places where it may end.
-/

namespace CiPipeline

open CiPipeline.Text

/-- A set of places between the characters of a text, one bit for each. -/
abbrev Places := Nat

namespace Places

def ofList (places : List Nat) : Places :=
  places.foldl (fun set place => set ||| (1 <<< place)) 0

/-- All places of a text of some length. -/
def all (length : Nat) : Places := 1 <<< (length + 1) - 1

end Places

namespace Boundary

/-- Whether the condition holds between the character before and the
character after. -/
def holds (before after : Option Char) : Boundary → Bool
  | .textStart => before.isNone
  | .textEnd => after.isNone
  | .lineStart false => before.all (· == '\n')
  | .lineStart true => before.all fun character =>
      character == '\n' || (character == '\r' && after != some '\n')
  | .lineEnd false => after.all (· == '\n')
  | .lineEnd true => after.all fun character =>
      character == '\r' || (character == '\n' && before != some '\r')
  | .wordEdge ascii negated =>
      (inWord ascii before != inWord ascii after) != negated
  | .wordStart ascii half =>
      !inWord ascii before && (half || inWord ascii after)
  | .wordEnd ascii half => (half || inWord ascii before) && !inWord ascii after
where
  inWord (ascii : Bool) (character : Option Char) : Bool :=
    character.any fun character =>
      if ascii then CharacterClass.asciiWord.contains character
      else isWordCharacter character

end Boundary

/-- A pattern prepared for one text: classes and conditions are the places where
they hold. -/
inductive Walk where
  | stay
  | step (from_ : Places)
  | check (at_ : Places)
  | sequence (first second : Walk)
  | either (left right : Walk)
  | repeated (inner : Walk) (least : Nat) (most : Option Nat)

namespace Pattern

/-- The places of a text where a character of the class follows. -/
def placesBefore (members : CharacterClass) (text : List Char) : Places :=
  Places.ofList ((text.zipIdx.filter fun (letter, _) =>
    members.contains letter).map Prod.snd)

/-- The places of a text where a condition holds. -/
def placesAt (condition : Boundary) (text : List Char) : Places :=
  let before := none :: text.map some
  let after := text.map some ++ [none]
  Places.ofList (((before.zip after).zipIdx.filter fun ((left, right), _) =>
    condition.holds left right).map Prod.snd)

/-- Prepares a pattern for a text. -/
def walk (text : List Char) : Pattern → Walk
  | .empty => .stay
  | .character members => .step (placesBefore members text)
  | .boundary condition => .check (placesAt condition text)
  | .sequence first second => .sequence (first.walk text) (second.walk text)
  | .either left right => .either (left.walk text) (right.walk text)
  | .repeated inner least most => .repeated (inner.walk text) least most

end Pattern

/-- Applies a step a number of times, or until no place is left. -/
def Places.iterate (step : Places → Places) : Nat → Places → Places
  | 0, places => places
  | count + 1, places =>
      if places = 0 then 0 else iterate step count (step places)

/-- Adds the places reached by at most a number of steps; a round that adds none
is the last. -/
def Places.close (step : Places → Places) : Nat → Places → Places
  | 0, places => places
  | count + 1, places =>
      let next := places ||| step places
      if next = places then places else close step count next

namespace Walk

/-- The places where the pattern may end if it starts at one of the given ones.
An unbounded repetition needs no more rounds than the text has places. -/
def run (size : Nat) : Walk → Places → Places
  | .stay, places => places
  | .step from_, places => (places &&& from_) <<< 1
  | .check at_, places => places &&& at_
  | .sequence first second, places => second.run size (first.run size places)
  | .either left right, places => left.run size places ||| right.run size places
  | .repeated inner least most, places =>
      let rounds := match most with
        | some most => most - least
        | none => size + 1
      Places.close (inner.run size) rounds
        (Places.iterate (inner.run size) least places)

end Walk

namespace Pattern

/-- Whether the pattern matches somewhere in the text. -/
def isMatch (pattern : Pattern) (text : String) : Bool :=
  let characters := text.toList
  (pattern.walk characters).run characters.length
  (Places.all characters.length) != 0

end Pattern

end CiPipeline
