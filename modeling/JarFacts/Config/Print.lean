import JarFacts.Config.Basic
import JarFacts.Bytes.Basic

/-!
# Printing configurations

A configuration as the TOML text that describes it.  Lists of more than one text stand on lines of
their own.
-/

namespace JarFacts

namespace Toml

/-- A character of a quoted text. -/
def escapeChar (c : Char) : List Char :=
  if c = '"' ∨ c = '\\' then ['\\', c]
  else if c.toNat < 0x20 ∨ c.toNat = 0x7F then '\\' :: 'u' :: Bytes.hexNumber 4 c.toNat
  else [c]

/-- A quoted text. -/
def quote (text : String) : String :=
  String.ofList ('"' :: (text.toList.flatMap escapeChar ++ ['"']))

/-- A list of texts. -/
def printTexts : List String → String
  | [] => "[]"
  | [text] => "[" ++ quote text ++ "]"
  | texts => "[\n" ++ String.join (texts.map fun text => "    " ++ quote text ++ ",\n") ++ "]"

/-- A line that sets a key. -/
def printField (key value : String) : String :=
  key ++ " = " ++ value ++ "\n"

end Toml

namespace Config

/-- The text of a configuration. -/
def print (config : Config) : String :=
  "[extraction]\n" ++
  Toml.printField "skip_meta_inf" (if config.extraction.skipMetaInf then "true" else "false") ++
  Toml.printField "threads" (toString config.extraction.threads) ++
  Toml.printField "jar_extensions" (Toml.printTexts config.extraction.jarExtensions) ++
  Toml.printField "exclude_dirs" (Toml.printTexts config.extraction.excludeDirs) ++
  "\n[output]\n" ++
  Toml.printField "output_dir" (Toml.quote config.output.outputDir) ++
  Toml.printField "entities_file" (Toml.quote config.output.entitiesFile) ++
  Toml.printField "relations_file" (Toml.quote config.output.relationsFile) ++
  Toml.printField "files_file" (Toml.quote config.output.filesFile) ++
  Toml.printField "local_variables_file" (Toml.quote config.output.variablesFile) ++
  Toml.printField "marker_file" (Toml.quote config.output.markerFile) ++
  "\n[logging]\n" ++
  Toml.printField "level" (Toml.quote config.logging.level)

end Config

end JarFacts
