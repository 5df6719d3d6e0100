import CiPipeline.Yaml.Value

/-!
# Settings

A setting is a value of a configuration file, whatever the format of the file.
Some formats fix the type of a value where it is written.  In others it is the
type that is asked for that decides how a written text is read.
-/

namespace CiPipeline

inductive Setting where
  | null
  | boolean (value : Bool)
  | natural (value : Nat)
  | text (value : String)
  /-- A text that is read as what is asked for, and whether it stands
  without quotes. -/
  | written (isPlain : Bool) (text : String)
  | sequence (items : List Setting)
  /-- Entries by name.  A name that is no text makes the whole mapping
  unreadable. -/
  | mapping (entries : List (Option String × Setting))
  /-- A value of a type that is never asked for. -/
  | other
  deriving Repr, Inhabited

namespace Setting

def greatestNatural : Nat := Nat.pow 2 64 - 1

def text? : Setting → Option String
  | .text value => some value
  | .written _ value => some value
  | _ => none

def boolean? : Setting → Option Bool
  | .boolean value => some value
  | .written true value => Yaml.readBoolean? value
  | _ => none

/-- A setting read as a number without sign. -/
def natural? : Setting → Option Nat
  | .natural value => if value ≤ greatestNatural then some value else none
  | .written true value =>
      match Yaml.readInteger? value.toList with
      | some (.ok (.integer value)) =>
          if 0 ≤ value && value ≤ greatestNatural then
            some value.toNat else none
      | _ => none
  | _ => none

/-- A setting read as a text that may be absent. -/
def optionalText? : Setting → Option (Option String)
  | .null => some none
  | .written true value =>
      if value.isEmpty || Yaml.isNull value then some none
      else some (some value)
  | setting => setting.text?.map some

/-- The name of a choice.  It may be written as the only name of a mapping,
without a value. -/
def choice? : Setting → Option String
  | .mapping [(some name, .null)] => some name
  | setting => setting.text?

def entries? : Setting → Option (List (String × Setting))
  | .mapping entries =>
      entries.mapM fun (name, value) => name.map fun name => (name, value)
  | .written true "" => some []
  | _ => none

/-- The value of a name that is given at most once. -/
def single? (name : String) (entries : List (String × Setting)) :
    Option (Option Setting) :=
  match entries.filter fun entry => entry.1 == name with
  | [] => some none
  | [(_, value)] => some (some value)
  | _ => none

/-- The values of some names.  Values may also be given in order without their
names, from the first one up to any of those that follow a number of them that
are required then. -/
def fields? (names : List String) (required : Nat) (setting : Setting) :
    Option (List (Option Setting)) :=
  match setting with
  | .sequence items =>
      if required ≤ items.length && items.length ≤ names.length then
        some (items.map some ++
          List.replicate (names.length - items.length) none)
      else none
  | setting => do
      let entries ← setting.entries?
      names.mapM fun name => single? name entries

/-- A value that is absent or has to be readable. -/
def field? {Value : Type} (fallback : Value) (read? : Setting → Option Value) :
    Option Setting → Option Value
  | none => some fallback
  | some setting => read? setting

end Setting

end CiPipeline
