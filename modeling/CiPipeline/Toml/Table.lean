/-!
# TOML tables

A table is filled entry by entry.  A name may be given a value once; a table
may be declared once, and a dotted name may only enter tables that dotted
names have made.
-/

namespace CiPipeline.Toml

/-- How a table came about. -/
inductive Origin where
  /-- By a header of its own. -/
  | declared
  /-- As a part of the header of another table. -/
  | implied
  /-- As a part of a dotted name. -/
  | dotted
  deriving DecidableEq, Repr, Inhabited

inductive Value where
  | text (value : String)
  | integer (value : Int)
  | boolean (value : Bool)
  | double
  | time
  | array (items : List Value)
  /-- A table between braces. -/
  | inline (entries : List (String × Value))
  | table (origin : Origin) (entries : List (String × Value))
  /-- Tables that were declared one after the other under one name. -/
  | tables (items : List (List (String × Value)))
  deriving Repr, Inhabited

abbrev Entries := List (String × Value)

namespace Entries

def put (entries : Entries) (name : String) (value : Value) : Entries :=
  match entries with
  | [] => [(name, value)]
  | (known, old) :: rest =>
      if known == name then (known, value) :: rest
      else (known, old) :: put rest name value

/-- Changes the last of a list of tables. -/
def changeLast (change : Entries → Option Entries) :
    List Entries → Option (List Entries)
  | [] => none
  | [last] => (change last).map ([·])
  | first :: rest => (changeLast change rest).map (first :: ·)

/-- Changes the table at the end of some names, given how tables on the way come
about.  The change is told how the table itself came about. -/
def alter (made : Origin) (change : Origin → Entries → Option Entries)
    (here : Origin) :
    List String → Entries → Option Entries
  | [], entries => change here entries
  | name :: rest, entries =>
      match entries.lookup name with
      | none =>
          (alter made change made rest []).map fun inner =>
            entries.put name (.table made inner)
      | some (.table origin inner) =>
          if made == .dotted && origin == .declared then none
          else (alter made change origin rest inner).map fun inner =>
            entries.put name (.table origin inner)
      | some (.tables items) =>
          (changeLast (alter made change .declared rest) items).map fun items =>
            entries.put name (.tables items)
      | some _ => none

/-- Adds a value whose name has no value yet. -/
def addValue (name : String) (value : Value) (entries : Entries) :
    Option Entries :=
  if (entries.lookup name).isSome then none
  else some (entries ++ [(name, value)])

/-- Adds a value under a dotted name to a table that is declared. -/
def insert (entries : Entries) (path : List String) (name : String)
    (value : Value) : Option Entries :=
  alter .dotted (fun origin inner =>
    if path.isEmpty || origin == .dotted then
      addValue name value inner else none)
    .declared path entries

/-- Declares a table under a name. -/
def declare (name : String) (entries : Entries) : Option Entries :=
  match entries.lookup name with
  | none => some (entries ++ [(name, .table .declared [])])
  | some (.table .implied inner) =>
      some (entries.put name (.table .declared inner))
  | some _ => none

/-- Declares one more table under a name. -/
def declareMore (name : String) (entries : Entries) : Option Entries :=
  match entries.lookup name with
  | none => some (entries ++ [(name, .tables [[]])])
  | some (.tables items) => some (entries.put name (.tables (items ++ [[]])))
  | some _ => none

/-- Acts on the table at the end of the names of a header. -/
def under (entries : Entries) (path : List String)
    (change : Entries → Option Entries) : Option Entries :=
  alter .implied (fun _ inner => change inner) .declared path entries

end Entries

end CiPipeline.Toml
