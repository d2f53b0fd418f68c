import JarFacts.Storage.Path
import JarFacts.Text.Blank

/-!
# Configuration

What can be set, with the values that hold when nothing is: which entries and files count, where the
output goes and what its files are called, and how much is logged.
-/

namespace JarFacts

/-- Which entries of an archive are read, and which files are archives. -/
structure ExtractionConfig where
  /-- Are entries below `META-INF/` left out? -/
  skipMetaInf : Bool
  /-- How many archives are worked on at a time; zero leaves that open. -/
  threads : Nat
  /-- The extensions of archives, without the dot. -/
  jarExtensions : List String
  /-- The names of directories no archive is looked for in. -/
  excludeDirs : List String
  deriving DecidableEq

/-- Where facts go. -/
structure OutputConfig where
  /-- The directory under which every archive gets one of its own. -/
  outputDir : String
  entitiesFile : String
  relationsFile : String
  filesFile : String
  variablesFile : String
  /-- The file that says that the others are complete. -/
  markerFile : String
  deriving DecidableEq

/-- What is logged. -/
structure LoggingConfig where
  level : String
  deriving DecidableEq

/-- All that can be set. -/
structure Config where
  extraction : ExtractionConfig
  output : OutputConfig
  logging : LoggingConfig
  deriving DecidableEq

namespace ExtractionConfig

/-- What holds when nothing is set. -/
def default : ExtractionConfig where
  skipMetaInf := true
  threads := 0
  jarExtensions := ["jar"]
  excludeDirs := [".git", ".svn", ".hg", "node_modules", ".gradle", ".idea", ".classmine"]

/-- Is the entry of an archive a class file to be read? -/
def isClassEntry (config : ExtractionConfig) (entry : String) : Bool :=
  ".class".toList.isSuffixOf entry.toList &&
    !(config.skipMetaInf && "META-INF/".toList.isPrefixOf entry.toList)

/-- Does the path have the extension of an archive?  Case matters only outside ASCII. -/
def isJarPath (config : ExtractionConfig) (path : String) : Bool :=
  match Path.extension? path with
  | some extension => config.jarExtensions.any fun wanted => wanted.toLower == extension.toLower
  | none => false

end ExtractionConfig

namespace OutputConfig

/-- What holds when nothing is set. -/
def default : OutputConfig where
  outputDir := "classmine-out"
  entitiesFile := "entities.jsonl"
  relationsFile := "relations.jsonl"
  filesFile := "files.jsonl"
  variablesFile := "local_variables.jsonl"
  markerFile := "extraction.json"

end OutputConfig

/-- The directory of an archive below the root of the output: the name of the archive without its
extension. -/
def jarDirectory (root jar : String) : String :=
  Path.join root ((Path.stem? jar).getD "unnamed")

/-- What holds when nothing is set. -/
def LoggingConfig.default : LoggingConfig := ⟨"info"⟩

/-- Why a configuration cannot be used. -/
inductive ConfigError where
  /-- The file is missing, cannot be read, or is not text. -/
  | unreadable
  /-- The text is no configuration. -/
  | unparsable
  /-- No file would count as an archive. -/
  | noExtensions
  /-- There is nowhere to write to. -/
  | blankOutputDir
  deriving DecidableEq

/-- The message for a configuration that cannot be used. -/
def ConfigError.message : ConfigError → String
  | unreadable => "Failed to read config file"
  | unparsable => "Failed to parse config file"
  | noExtensions => "Invalid configuration: extraction.jar_extensions must not be empty"
  | blankOutputDir => "Invalid configuration: output.output_dir must not be empty"

namespace Config

/-- What holds when nothing is set. -/
def default : Config := ⟨.default, .default, .default⟩

/-- The configuration, if it can be used. -/
def validate (config : Config) : Except ConfigError Config :=
  if config.extraction.jarExtensions.isEmpty then .error .noExtensions
  else if Text.isAllBlank config.output.outputDir then .error .blankOutputDir
  else .ok config

end Config

end JarFacts
