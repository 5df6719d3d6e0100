import CiPipeline.Text.Basic
import CiPipeline.Text.Characters

/-!
# Lines of texts

Trimming blanks and splitting into lines, on lists of characters.
-/

namespace CiPipeline.Text

/-- Drops the blanks in front. -/
def trimStart (text : List Char) : List Char :=
  text.dropWhile isBlank

/-- Drops the blanks at the end. -/
def trimEnd (text : List Char) : List Char :=
  (text.reverse.dropWhile isBlank).reverse

/-- Drops the blanks on both sides. -/
def trim (text : List Char) : List Char :=
  trimEnd (trimStart text)

/-- The parts of a text that end with a line feed, and what is left after
the last one. -/
def splitLines (line : List Char) : List Char → List (List Char)
  | [] => if line.isEmpty then [] else [line.reverse]
  | character :: rest =>
      if character == '\n' then line.reverse :: splitLines [] rest
      else splitLines (character :: line) rest

/-- Drops a carriage return at the end of a line. -/
def dropCarriageReturn (line : List Char) : List Char :=
  match line.reverse with
  | '\r' :: rest => rest.reverse
  | _ => line

/-- The lines of a text without the line feeds that end them, or the carriage
returns before those.  What follows the last line feed is a line only if it is
not empty. -/
def lines (text : List Char) : List (List Char) :=
  let parts := splitLines [] text
  match parts.reverse, text.getLast? with
  | last :: before, some ending =>
      if ending == '\n' then parts.map dropCarriageReturn
      else (before.map dropCarriageReturn).reverse ++ [last]
  | _, _ => parts

end CiPipeline.Text
