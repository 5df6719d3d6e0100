import CiPipeline.Pattern.Class
import CiPipeline.Text.Script

/-!
# Named classes of patterns

The names under which a pattern may mention a property of characters:
bracketed names of ASCII classes, general categories, scripts and a few
further properties.
-/

namespace CiPipeline.CharacterClass

open CiPipeline.Text

/-- The ASCII class of a bracketed name. -/
def ofAsciiName? : String → Option CharacterClass
  | "alnum" => some (ofList [.range '0' '9', .range 'A' 'Z', .range 'a' 'z'])
  | "alpha" => some (ofList [.range 'A' 'Z', .range 'a' 'z'])
  | "ascii" => some ascii
  | "blank" => some (ofList [single '\t', single ' '])
  | "cntrl" =>
      some (ofList [.range (Char.ofNat 0) (Char.ofNat 31),
        single (Char.ofNat 127)])
  | "digit" => some asciiDigit
  | "graph" => some (.range '!' '~')
  | "lower" => some (.range 'a' 'z')
  | "print" => some (.range ' ' '~')
  | "punct" =>
      some (ofList [.range '!' '/', .range ':' '@',
        .range '[' (Char.ofNat 0x60), .range '\x7b' '~'])
  | "space" => some asciiBlank
  | "upper" => some (.range 'A' 'Z')
  | "word" => some asciiWord
  | "xdigit" => some (ofList [.range '0' '9', .range 'A' 'F', .range 'a' 'f'])
  | _ => none

/-- Names are compared without case, blanks, dashes and underscores, and without
a leading `is`. -/
def normalizeName (name : List Char) : String :=
  let (name, dropped) := match name with
    | first :: second :: rest =>
        if (first == 'i' || first == 'I') &&
          (second == 's' || second == 'S') then (rest, true)
        else (name, false)
    | _ => (name, false)
  let kept := (name.filter fun character =>
    character.toNat < 128 && character != ' ' && character != '-' &&
      character != '_').map Char.toLower
  if dropped && kept == ['c'] then "isc" else String.ofList kept

/-- The categories by their short and long names. -/
def categories : List (List String × CodePoints) :=
  [ (["lu", "uppercaseletter"], Category.uppercaseLetter),
    (["ll", "lowercaseletter"], Category.lowercaseLetter),
    (["lt", "titlecaseletter"], Category.titlecaseLetter),
    (["lc", "casedletter"], Category.uppercaseLetter.union
      (Category.lowercaseLetter.union Category.titlecaseLetter)),
    (["lm", "modifierletter"], Category.modifierLetter),
    (["lo", "otherletter"], Category.otherLetter),
    (["l", "letter"], Category.letter),
    (["mn", "nonspacingmark"], Category.nonspacingMark),
    (["mc", "spacingmark"], Category.spacingMark),
    (["me", "enclosingmark"], Category.enclosingMark),
    (["m", "mark", "combiningmark"], Category.mark),
    (["nd", "decimalnumber", "digit"], Category.decimalNumber),
    (["nl", "letternumber"], Category.letterNumber),
    (["no", "othernumber"], Category.otherNumber),
    (["n", "number"], Category.number),
    (["pc", "connectorpunctuation"], Category.connectorPunctuation),
    (["pd", "dashpunctuation"], Category.dashPunctuation),
    (["ps", "openpunctuation"], Category.openPunctuation),
    (["pe", "closepunctuation"], Category.closePunctuation),
    (["pi", "initialpunctuation"], Category.initialPunctuation),
    (["pf", "finalpunctuation"], Category.finalPunctuation),
    (["po", "otherpunctuation"], Category.otherPunctuation),
    (["p", "punctuation", "punct"], Category.connectorPunctuation.union
      (Category.dashPunctuation.union (Category.openPunctuation.union
        (Category.closePunctuation.union (Category.initialPunctuation.union
          (Category.finalPunctuation.union Category.otherPunctuation)))))),
    (["sm", "mathsymbol"], Category.mathSymbol),
    (["sc", "currencysymbol"], Category.currencySymbol),
    (["sk", "modifiersymbol"], Category.modifierSymbol),
    (["so", "othersymbol"], Category.otherSymbol),
    (["s", "symbol"], Category.mathSymbol.union (Category.currencySymbol.union
      (Category.modifierSymbol.union Category.otherSymbol))),
    (["zs", "spaceseparator"], Category.spaceSeparator),
    (["zl", "lineseparator"], Category.lineSeparator),
    (["zp", "paragraphseparator"], Category.paragraphSeparator),
    (["z", "separator"], Category.spaceSeparator.union
      (Category.lineSeparator.union Category.paragraphSeparator)),
    (["cc", "control", "cntrl"], Category.control),
    (["cf", "format"], Category.format),
    (["co", "privateuse"], Category.privateUse) ]

/-- The scripts by their long and short names. -/
def scripts : List (List String × CodePoints) :=
  [ (["latin", "latn"], Script.latin), (["greek", "grek"], Script.greek),
    (["cyrillic", "cyrl"], Script.cyrillic),
    (["armenian", "armn"], Script.armenian),
    (["hebrew", "hebr"], Script.hebrew), (["arabic", "arab"], Script.arabic),
    (["devanagari", "deva"], Script.devanagari),
    (["bengali", "beng"], Script.bengali), (["tamil", "taml"], Script.tamil),
    (["thai"], Script.thai), (["georgian", "geor"], Script.georgian),
    (["hangul", "hang"], Script.hangul),
    (["ethiopic", "ethi"], Script.ethiopic),
    (["cherokee", "cher"], Script.cherokee),
    (["mongolian", "mong"], Script.mongolian),
    (["hiragana", "hira"], Script.hiragana),
    (["katakana", "kana"], Script.katakana), (["han", "hani"], Script.han),
    (["common", "zyyy"], Script.common),
    (["inherited", "zinh", "qaai"], Script.inherited) ]

/-- The further properties by their names. -/
def properties : List (List String × CharacterClass) :=
  [ (["alphabetic", "alpha"], .property Category.alphabetic),
    (["lowercase", "lower"],
      .property (Category.lowercaseLetter.union Category.otherLowercase)),
    (["uppercase", "upper"],
      .property (Category.uppercaseLetter.union Category.otherUppercase)),
    (["whitespace", "wspace", "space"], blank),
    (["emoji"], .property Script.emoji),
    (["ideographic", "ideo"], .property Script.ideographic),
    (["asciihexdigit", "ahex"],
      ofList [.range '0' '9', .range 'A' 'F', .range 'a' 'f']) ]

def byName? {Value : Type} (table : List (List String × Value))
    (name : String) : Option Value :=
  (table.find? fun (names, _) => names.contains name).map Prod.snd

/-- The characters without a category. -/
def unassigned : CharacterClass :=
  .other (.either (.property Category.alphabetic)
    (ofList (categories.map fun (_, points) => .property points)))

def ofCategory? (name : String) : Option CharacterClass :=
  match name with
  | "any" => some anything
  | "assigned" => some (.other unassigned)
  | "ascii" => some ascii
  | "cn" | "unassigned" => some unassigned
  | "c" | "other" =>
      some (ofList [.property Category.control, .property Category.format,
      .property Category.privateUse, unassigned])
  | _ => (byName? categories name).map .property

def ofScript? (name : String) : Option CharacterClass :=
  (byName? scripts name).map .property

/-- The class of a property mentioned by one name. -/
def ofPropertyName? (name : List Char) : Option CharacterClass :=
  let name := normalizeName name
  let property := if ["cf", "sc", "lc"].contains name then
    none else byName? properties name
  property.or ((ofCategory? name).or (ofScript? name))

/-- The class of a property mentioned by a name and a value. -/
def ofPropertyValue? (name value : List Char) : Option CharacterClass :=
  match normalizeName name with
  | "generalcategory" | "gc" => ofCategory? (normalizeName value)
  | "script" | "sc" | "scriptextensions" | "scx" =>
      ofScript? (normalizeName value)
  | _ => none

end CiPipeline.CharacterClass
