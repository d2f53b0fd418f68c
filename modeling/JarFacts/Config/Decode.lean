import JarFacts.Config.Basic
import JarFacts.Json.Decode
import JarFacts.Toml.Document

/-!
# Written configurations

A configuration is read from TOML, its parts from JSON as well, and it is written in JSON.  Every
field may be missing, and then has the value that holds when nothing is set; fields nobody asks for
are ignored.  A record may be given as an array of its fields from the first one on.
-/

namespace JarFacts

/-! ## Fields -/

/-- A format that records are read from. -/
structure FieldReader (ν : Type) where
  text? : ν → Option String
  bool? : ν → Option Bool
  nat? : ν → Option Nat
  texts? : ν → Option (List String)

/-- A field that may be missing. -/
def fieldOr {ν α : Type} (fields : String → Option ν) (name : String) (decode : ν → Option α)
    (default : α) :
    Option α :=
  match fields name with
  | none => some default
  | some value => decode value

/-- The names of the fields of an extraction configuration in order. -/
def ExtractionConfig.fieldNames : List String :=
  ["skip_meta_inf", "threads", "jar_extensions", "exclude_dirs"]

/-- An extraction configuration from its fields. -/
def ExtractionConfig.ofFields? {ν : Type} (reader : FieldReader ν) (fields : String → Option ν) :
    Option ExtractionConfig := do
  return {
    skipMetaInf := ← fieldOr fields "skip_meta_inf" reader.bool? default.skipMetaInf
    threads := ← fieldOr fields "threads" reader.nat? default.threads
    jarExtensions := ← fieldOr fields "jar_extensions" reader.texts? default.jarExtensions
    excludeDirs := ← fieldOr fields "exclude_dirs" reader.texts? default.excludeDirs }

/-- The names of the fields of an output configuration in order. -/
def OutputConfig.fieldNames : List String :=
  ["output_dir", "entities_file", "relations_file", "files_file",
    "local_variables_file", "marker_file"]

/-- An output configuration from its fields. -/
def OutputConfig.ofFields? {ν : Type} (reader : FieldReader ν) (fields : String → Option ν) :
    Option OutputConfig := do
  return {
    outputDir := ← fieldOr fields "output_dir" reader.text? default.outputDir
    entitiesFile := ← fieldOr fields "entities_file" reader.text? default.entitiesFile
    relationsFile := ← fieldOr fields "relations_file" reader.text? default.relationsFile
    filesFile := ← fieldOr fields "files_file" reader.text? default.filesFile
    variablesFile := ← fieldOr fields "local_variables_file" reader.text? default.variablesFile
    markerFile := ← fieldOr fields "marker_file" reader.text? default.markerFile }

/-- A logging configuration from its fields. -/
def LoggingConfig.ofFields? {ν : Type} (reader : FieldReader ν) (fields : String → Option ν) :
    Option LoggingConfig := do
  return { level := ← fieldOr fields "level" reader.text? LoggingConfig.default.level }

/-! ## JSON -/

/-- Fields in JSON. -/
def FieldReader.json : FieldReader Json where
  text? := Json.text?
  bool? := Json.bool?
  nat? := Json.unsigned? 64
  texts? := Json.list? Json.text?

/-- An extraction configuration from JSON. -/
def ExtractionConfig.ofJson? (json : Json) : Option ExtractionConfig := do
  ofFields? .json (← json.partialRecord? fieldNames)

/-- An output configuration from JSON. -/
def OutputConfig.ofJson? (json : Json) : Option OutputConfig := do
  ofFields? .json (← json.partialRecord? fieldNames)

/-- The written form of a list of texts. -/
def Json.texts (list : List String) : Json :=
  .array (list.map .string)

/-- The written form. -/
def ExtractionConfig.toJson (config : ExtractionConfig) : Json :=
  .object [
    ("skip_meta_inf", .bool config.skipMetaInf),
    ("threads", .nat config.threads),
    ("jar_extensions", .texts config.jarExtensions),
    ("exclude_dirs", .texts config.excludeDirs)]

/-- The written form. -/
def OutputConfig.toJson (config : OutputConfig) : Json :=
  .object [
    ("output_dir", .string config.outputDir),
    ("entities_file", .string config.entitiesFile),
    ("relations_file", .string config.relationsFile),
    ("files_file", .string config.filesFile),
    ("local_variables_file", .string config.variablesFile),
    ("marker_file", .string config.markerFile)]

/-- The written form. -/
def Config.toJson (config : Config) : Json :=
  .object [
    ("extraction", config.extraction.toJson),
    ("output", config.output.toJson),
    ("logging", .object [("level", .string config.logging.level)])]

/-! ## TOML -/

namespace Toml

/-- A text. -/
def text? : Toml → Option String
  | .string text => some text
  | _ => none

/-- A truth value. -/
def bool? : Toml → Option Bool
  | .bool value => some value
  | _ => none

/-- A number that is not negative. -/
def nat? : Toml → Option Nat
  | .integer value => if 0 ≤ value then some value.toNat else none
  | _ => none

/-- A list of texts. -/
def texts? : Toml → Option (List String)
  | .array items => items.mapM text?
  | _ => none

/-- The fields of a record.  A point in time has none that anybody asks for, but counts as a
record. -/
def fields? (names : List String) : Toml → Option (String → Option Toml)
  | .table members => some fun name => members.lookup name
  | .array items => some fun name => (names.zip items).lookup name
  | .time => some fun _ => none
  | _ => none

end Toml

/-- Fields in TOML. -/
def FieldReader.toml : FieldReader Toml := ⟨Toml.text?, Toml.bool?, Toml.nat?, Toml.texts?⟩

/-- A configuration from the table of a document. -/
def Config.ofToml? (members : List (String × Toml)) : Option Config := do
  let part {α : Type} (name : String) (names : List String)
      (ofFields : (String → Option Toml) → Option α) (default : α) : Option α :=
    fieldOr (fun name => members.lookup name) name
      (fun value => (value.fields? names).bind ofFields) default
  return {
    extraction :=
      ← part "extraction" ExtractionConfig.fieldNames (ExtractionConfig.ofFields? .toml) .default
    output := ← part "output" OutputConfig.fieldNames (OutputConfig.ofFields? .toml) .default
    logging := ← part "logging" ["level"] (LoggingConfig.ofFields? .toml) .default }

end JarFacts
