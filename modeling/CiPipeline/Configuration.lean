import CiPipeline.Document
import CiPipeline.Files.Access
import CiPipeline.Json.Reader
import CiPipeline.Toml.Reader
import CiPipeline.Variables
import CiPipeline.Version

/-!
# Configuration

A file in the checkout may say how its pipeline is resolved and shown.  The
format of the file goes by its extension; a file with another extension is read
in the first format that fits.
-/

namespace CiPipeline

/-- A form in which a pipeline is shown. -/
inductive OutputFormat where
  /-- The table of jobs. -/
  | list
  /-- The normalized document. -/
  | preview
  /-- The jobs as data. -/
  | json
  deriving DecidableEq, Repr, Inhabited

namespace OutputFormat

def name : OutputFormat → String
  | .list => "list"
  | .preview => "preview"
  | .json => "json"

def ofName? : String → Option OutputFormat
  | "list" => some .list
  | "preview" => some .preview
  | "json" => some .json
  | _ => none

end OutputFormat

/-- How a pipeline is resolved and shown unless the command line says
otherwise. -/
structure Configuration where
  file : String := Document.usualFile
  refetches : Bool := false
  version : Version := Version.standard
  home : Option String := none
  pipelineNumber : Nat := 0
  bindings : Variables := []
  format : OutputFormat := .list
  isPretty : Bool := false
  deriving DecidableEq, Repr, Inhabited

/-! ## Settings of the formats -/

namespace Toml

mutual

def Value.toSetting : Value → Setting
  | .text value => .text value
  | .integer value => if value < 0 then .other else .natural value.toNat
  | .boolean value => .boolean value
  | .double => .other
  | .time => .other
  | .array items => .sequence (settingsOf items)
  | .inline entries => .mapping (namedSettings entries)
  | .table _ entries => .mapping (namedSettings entries)
  | .tables items => .sequence (mappingsOf items)

def settingsOf : List Value → List Setting
  | [] => []
  | value :: rest => value.toSetting :: settingsOf rest

def namedSettings : List (String × Value) → List (Option String × Setting)
  | [] => []
  | (name, value) :: rest => (some name, value.toSetting) :: namedSettings rest

def mappingsOf : List (List (String × Value)) → List Setting
  | [] => []
  | entries :: rest => .mapping (namedSettings entries) :: mappingsOf rest

end

def readSetting? (text : String) : Option Setting :=
  (read? text).map fun entries => .mapping (namedSettings entries)

end Toml

namespace Yaml.DocumentTree

def nameText? (document : DocumentTree) : Tree → Option String
  | .scalar _ _ text => some text
  | .alias_ number =>
      match document.targets.lookup number with
      | some (.scalar _ _ text) => some text
      | _ => none
  | _ => none

/-- A node as a setting, down to a depth.  No setting is asked for
as a sequence. -/
def settingAt (document : DocumentTree) : Nat → Tree → Setting
  | 0, _ => .other
  | _ + 1, .scalar _ plain text => .written plain text
  | _ + 1, .sequence _ _ => .other
  | depth + 1, .mapping _ entries => .mapping (entries.map fun (name, value) =>
      (document.nameText? name, document.settingAt depth value))
  | depth + 1, .alias_ number =>
      match document.targets.lookup number with
      | some tree => document.settingAt depth tree
      | none => .other

/-- The depth below which no setting is asked for. -/
def settingDepth : Nat := 8

end Yaml.DocumentTree

def Yaml.readSetting? (text : String) : Option Setting :=
  match DocumentTree.ofText text with
  | .ok document =>
      some (document.settingAt DocumentTree.settingDepth document.root)
  | .error _ => none

/-! ## Reading a configuration -/

namespace Configuration

/-- Reads how the pipeline is resolved. -/
def readResolution? (base : Configuration) (setting : Setting) :
    Option Configuration := do
  let [file, refetches, version, home, number] ←
    setting.fields? ["file", "fetch-includes", "gitlab-version", "home",
      "pipeline-iid"] 4 | none
  return { base with
    file := ← Setting.field? base.file Setting.text? file,
    refetches := ← Setting.field? base.refetches Setting.boolean? refetches,
    version := ← Setting.field? base.version
      (fun setting => setting.text?.bind Version.read?) version,
    home := ← Setting.field? base.home Setting.optionalText? home,
    pipelineNumber :=
      ← Setting.field? base.pipelineNumber Setting.natural? number }

/-- Reads how the pipeline is shown. -/
def readOutput? (base : Configuration) (setting : Setting) :
    Option Configuration := do
  let [format, pretty] ← setting.fields? ["format", "pretty"] 0 | none
  return { base with
    format := ← Setting.field? base.format
      (fun setting => setting.choice?.bind OutputFormat.ofName?) format,
    isPretty := ← Setting.field? base.isPretty Setting.boolean? pretty }

def readVariables? (setting : Setting) : Option Variables := do
  let entries ← setting.entries?
  let pairs ← entries.mapM fun (name, value) => value.text?.map fun value =>
    (name, value)
  return Variables.ofPairs pairs

def ofSetting? (setting : Setting) : Option Configuration := do
  let [resolution, bindings, output] ← setting.fields?
    ["parser", "variables", "output"] 0 | none
  let base : Configuration := {}
  let base ← Setting.field? base (readResolution? base) resolution
  let bindings ← Setting.field? [] readVariables? bindings
  Setting.field? { base with bindings }
    (readOutput? { base with bindings }) output

inductive LoadError where
  | unreadable (path : String)
  /-- The text does not fit its format, which has a name if the
  extension tells it. -/
  | malformed (format path : String)
  deriving DecidableEq, Repr

/-- What is wrong with a configuration file. -/
def LoadError.message : LoadError → String
  | .unreadable path => s!"Failed to read config file: {path}"
  | .malformed "" path => s!"Failed to parse config file: {path}"
  | .malformed format path => s!"Failed to parse {format} config: {path}"

/-- Reads a configuration in the format of an extension. -/
def ofText? (extension text : String) : String × Option Configuration :=
  let toml := (Toml.readSetting? text).bind ofSetting?
  let json := (Json.readSetting? text).bind ofSetting?
  let yaml := (Yaml.readSetting? text).bind ofSetting?
  if extension == "toml" then ("TOML", toml)
  else if extension == "json" then ("JSON", json)
  else if extension == "yaml" || extension == "yml" then ("YAML", yaml)
  else ("", (toml.or json).or yaml)

def loadFile (files : Files) (path : String) : Except LoadError Configuration :=
  match files.text path with
  | .error _ => .error (.unreadable path)
  | .ok text =>
      match ofText? ((Path.extension? path).getD "") text with
      | (_, some configuration) => .ok configuration
      | (format, none) => .error (.malformed format path)

/-- The names of configuration files, the first of which counts
that there is. -/
def usualNames : List String := ["gcl.toml", "gcl.json", "gcl.yaml", "gcl.yml"]

/-- Reads the configuration at a path, or else that of a checkout.  Without a
file everything is as usual. -/
def load (files : Files) (path : Option String) (checkout : String) :
    Except LoadError Configuration :=
  match path with
  | some path => loadFile files path
  | none =>
      match usualNames.find? fun name =>
        (files.has (Path.join checkout name)).toOption.getD false with
      | some name => loadFile files (Path.join checkout name)
      | none => .ok {}

end Configuration

end CiPipeline
