import JarFacts.Config.Decode
import JarFacts.Storage.Volume

/-!
# Loading configurations

A configuration comes from a file that is named, or else from the first of two places where there is
one: the working directory and the user's own directory.  Environment variables go over what the
file says; values they cannot have are passed over.
-/

namespace JarFacts

/-- The environment: variables by name. -/
abbrev Environment := String → Option String

namespace Config

/-- The configuration file of a working directory. -/
def projectFile : String := "classmine.toml"

/-- The configuration file below the user's configuration directory. -/
def userFile (configDirectory : String) : String :=
  Path.join (Path.join configDirectory "classmine") "config.toml"

/-- The user's configuration directory. -/
def userDirectory? (environment : Environment) : Option String :=
  match (environment "XDG_CONFIG_HOME").filter fun path => Path.isAbsolute path with
  | some path => some path
  | none => ((environment "HOME").filter fun path => path ≠ "").map fun home =>
      Path.join home ".config"

/-- A number of threads: digits, with an optional plus sign, of a number that fits 64 bits. -/
def threads? (text : String) : Option Nat :=
  (Text.unsigned? text).filter (· < 0x10000000000000000)

/-- A truth value, spelled exactly. -/
def truth? (text : String) : Option Bool :=
  if text = "true" then some true else if text = "false" then some false else none

/-- The configuration with what the environment says. -/
def override (environment : Environment) (config : Config) : Config where
  extraction := { config.extraction with
    threads := ((environment "CLASSMINE_THREADS").bind threads?).getD config.extraction.threads
    skipMetaInf :=
      ((environment "CLASSMINE_SKIP_META_INF").bind truth?).getD config.extraction.skipMetaInf }
  output := { config.output with
    outputDir := (environment "CLASSMINE_OUTPUT_DIR").getD config.output.outputDir }
  logging := { config.logging with
    level := (environment "CLASSMINE_LOG_LEVEL").getD config.logging.level }

/-- The configuration that a text describes. -/
def ofText (environment : Environment) (text : String) : Except ConfigError Config :=
  match (Toml.parse? text).bind ofToml? with
  | some config => (config.override environment).validate
  | none => .error .unparsable

/-- The configuration in a file. -/
def ofFile (environment : Environment) (volume : Volume) (path : String) :
    Except ConfigError Config :=
  match (volume.read path).toOption.bind Utf8.decodeString? with
  | some text => ofText environment text
  | none => .error .unreadable

/-- The configuration in the first place where there is one. -/
def load (environment : Environment) (volume : Volume) : Except ConfigError Config :=
  if volume.contains projectFile then ofFile environment volume projectFile
  else
    match ((userDirectory? environment).map userFile).filter volume.contains with
    | some path => ofFile environment volume path
    | none => (Config.default.override environment).validate

end Config

end JarFacts
