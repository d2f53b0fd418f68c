import JarFacts.Command.Arguments
import JarFacts.Config.Print
import JarFacts.Jar.Batch
import JarFacts.Jar.Discover
import JarFacts.Storage.Journal

/-!
# Running commands

What a command does to a volume and what it has to say, as a function of its arguments, the
environment and the time.  The volume comes with a journal, so that a command can be run on an image
of a disk and what it did be done to the disk.
-/

namespace JarFacts.Command

/-! ## Reports -/

/-- Why a command failed. -/
inductive CommandError where
  /-- The arguments make no request. -/
  | usage
  | config (error : ConfigError)
  | pathNotFound (path : String)
  | noJars
  | jarsFailed (failed total : Nat)
  deriving DecidableEq

/-- The message of a command that failed. -/
def CommandError.message : CommandError → String
  | usage => "Usage: classmine [--config FILE] (extract PATHS... | config)"
  | config error => error.message
  | pathNotFound path => "Path not found: " ++ path
  | noJars => "No jar files found"
  | jarsFailed failed total => toString failed ++ " of " ++ toString total ++ " jars failed"

/-- The exit code of a command that failed. -/
def CommandError.exitCode : CommandError → Nat
  | usage => 2
  | _ => 1

/-- What a command has to say. -/
structure Report where
  output : String
  /-- Archives that failed, as far as they are told one by one. -/
  failures : List (String × WalkError)
  error : Option CommandError
  log : Array LogEvent
  /-- What is logged. -/
  level : String

namespace Report

/-- The report of a command that says something and is done. -/
def say (output : String) : Report := ⟨output, [], none, #[], ""⟩

/-- The report of a command that fails at once. -/
def fail (error : CommandError) : Report := ⟨"", [], some error, #[], ""⟩

/-- The exit code. -/
def exitCode (report : Report) : Nat :=
  (report.error.map CommandError.exitCode).getD 0

/-- The line for an archive that failed. -/
def failureLine (failure : String × WalkError) : String :=
  failure.1 ++ " failed: " ++ failure.2.message ++ "\n"

end Report

/-- How the command is used. -/
def helpText : String :=
  "Extract entities and relations from Java jar files\n\n" ++
  "Usage: classmine [--config FILE] extract PATHS... [-o DIR] [-j N] [--include-meta-inf] " ++
  "[--json]\n" ++
  "       classmine [--config FILE] config\n"

/-! ## Results -/

/-- The summaries of the archives that did not fail. -/
def summaries (outcomes : List JarOutcome) : List WalkSummary :=
  outcomes.filterMap fun outcome => outcome.result.toOption

/-- The archives that failed. -/
def failures (outcomes : List JarOutcome) : List (String × WalkError) :=
  outcomes.filterMap fun outcome =>
    match outcome.result with
    | .error error => some (outcome.jar, error)
    | .ok _ => none

/-- All facts together. -/
def totalFacts (outcomes : List JarOutcome) : Nat :=
  ((summaries outcomes).foldl (fun counts summary => counts.add summary.facts)
    FactCounts.zero).total

/-- An outcome in JSON. -/
def outcomeJson (outcome : JarOutcome) : Json :=
  let result := match outcome.result with
    | .ok summary => ("summary", summary.toJson)
    | .error error => ("error", .string error.message)
  .object [("jar", .string outcome.jar), ("output", .string outcome.directory), result]

/-- The outcomes for programs. -/
def jsonText (outcomes : List JarOutcome) : String :=
  (Json.array (outcomes.map outcomeJson)).sorted.pretty ++ "\n"

/-- The part of the text for people that is about one archive. -/
def outcomeText (outcome : JarOutcome) : String :=
  match outcome.result with
  | .ok summary => outcome.jar ++ " -> " ++ outcome.directory ++ "\n" ++ summary.report
  | .error _ => ""

/-- The outcomes for people. -/
def plainText (root : String) (outcomes : List JarOutcome) : String :=
  String.join (outcomes.map outcomeText) ++
  "Extracted " ++ toString (summaries outcomes).length ++ " of " ++
    toString outcomes.length ++ " jars (" ++
  toString (totalFacts outcomes) ++ " facts) into " ++ root ++ "\n"

/-! ## Commands -/

/-- The archives that paths lead to; every path has to lead somewhere. -/
def findJars (config : ExtractionConfig) (volume : Volume) :
    List String → Except CommandError (List String)
  | [] => .ok []
  | path :: paths =>
    if volume.contains path then do
      let found ← findJars config volume paths
      return Discover.jars config volume path ++ found
    else .error (.pathNotFound path)

/-- The configuration of an extraction: options go over what is configured. -/
def configure (environment : Environment) (volume : Volume) (configFile : Option String)
    (options : ExtractOptions) : Except ConfigError Config := do
  let config ← match configFile with
    | some path => Config.ofFile environment volume path
    | none => Config.load environment volume
  return { config with extraction := { config.extraction with
    threads := options.jobs.getD config.extraction.threads
    skipMetaInf := config.extraction.skipMetaInf && !options.includeMetaInf } }

/-- The directory below which every archive gets one of its own. -/
def outputRoot (config : Config) (options : ExtractOptions) : String :=
  options.output.getD config.output.outputDir

/-- Extracts the archives that paths lead to. -/
def extract (environment : Environment) (period : Period) (configFile : Option String)
    (options : ExtractOptions) (journal : Journal) : Report × Journal :=
  match configure environment journal.volume configFile options with
  | .error error => (.fail (.config error), journal)
  | .ok config =>
    match findJars config.extraction journal.volume options.paths with
    | .error error => (.fail error, journal)
    | .ok [] => (.fail .noJars, journal)
    | .ok jars =>
      let root := outputRoot config options
      let log := #[.runStarted jars.length root]
      let (outcomes, journal, log) := (Batch.extractJars config period root jars).run (journal, log)
      let failed := failures outcomes
      ({ output := if options.json then jsonText outcomes else plainText root outcomes
         failures := if options.json then [] else failed
         error := if failed.isEmpty then none else some (.jarsFailed failed.length outcomes.length)
         log := log
         level := config.logging.level }, journal)

/-- Runs the command that arguments ask for. -/
def run (environment : Environment) (period : Period) (arguments : List String)
    (journal : Journal) :
    Report × Journal :=
  match parse? arguments with
  | none => (.fail .usage, journal)
  | some .help => (.say helpText, journal)
  | some .printConfig => (.say Config.default.print, journal)
  | some (.extract configFile options) => extract environment period configFile options journal

end JarFacts.Command
