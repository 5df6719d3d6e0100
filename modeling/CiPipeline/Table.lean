import CiPipeline.Text.Columns

/-!
# Tables of text

A table with a header, drawn with lines around its cells.  A cell may have
several lines.
-/

namespace CiPipeline

open CiPipeline.Text

/-- A table; each cell holds lines. -/
structure Table where
  header : List String
  rows : List (List (List String))
  deriving DecidableEq, Repr, Inhabited

namespace Table

/-- The number of columns of the longest of some lines. -/
def widest (lines : List String) : Nat :=
  (lines.map columns).foldl max 0

/-- The widths of the columns, each that of its widest line. -/
def widths (table : Table) : List Nat :=
  table.rows.foldl
    (fun widths row => widths.zipWith (fun width cell =>
      max width (widest cell)) row) (table.header.map columns)

/-- A line between rows. -/
def rule (left fill middle right : String) (widths : List Nat) : String :=
  let parts :=
    widths.map fun width => "".intercalate (List.replicate (width + 2) fill)
  left ++ middle.intercalate parts ++ right

/-- Fills a line up to a width. -/
def padTo (width : Nat) (line : String) : String :=
  line ++ "".pushn ' ' (width - columns line)

def rowLines (widths : List Nat) (row : List (List String)) : List String :=
  let height := (row.map List.length).foldl max 1
  (List.range height).map fun index =>
    let parts := widths.zipWith
      (fun width cell => " " ++ padTo width (cell.getD index "") ++ " ") row
    "│" ++ "┆".intercalate parts ++ "│"

def lines (table : Table) : List String :=
  let widths := table.widths
  let between := rule "├" "╌" "┼" "┤" widths
  let rows := table.rows.map (rowLines widths)
  [rule "╭" "─" "┬" "╮" widths] ++
  rowLines widths (table.header.map fun label => [label]) ++
    [rule "╞" "═" "╪" "╡" widths] ++ [between].intercalate rows ++
    [rule "╰" "─" "┴" "╯" widths]

def text (table : Table) : String := "\n".intercalate table.lines

end Table

end CiPipeline
