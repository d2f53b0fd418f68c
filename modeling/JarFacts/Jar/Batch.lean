import JarFacts.Jar.Output
import JarFacts.Jar.Walk
import JarFacts.Sink.Lines

/-!
# Extracting many archives

Each archive is walked through on its own, into a directory of its own.  What becomes of one does
not touch the others, so it does not matter in which order they are taken.
-/

namespace JarFacts

/-- What has become of an archive. -/
structure JarOutcome where
  jar : String
  directory : String
  result : Except WalkError WalkSummary

namespace Batch

variable {δ : Type} [Storage δ]

/-- A run over a store, with what is worth telling. -/
abbrev Run (δ : Type) := StateM (δ × Array LogEvent)

/-- Walks through an archive that is read from the store, into an open sink.  The sink is given up
in any case. -/
def walkInto (config : ExtractionConfig) (period : Period) (jar : String) (sink : LinesSink) :
    Run δ (Except WalkError WalkSummary) := fun (storage, log) =>
  let walk : Walk (LinesOutput δ) WalkSummary :=
    Walk.file config period jar (Storage.read jar storage)
  let (result, context) := walk.start ⟨sink, storage, #[]⟩
  let output := context.sink
  (result, output.sink.close output.storage, log ++ context.log ++ output.log)

/-- Extracts an archive into a directory. -/
def extractJar (config : Config) (period : Period) (jar directory : String) : Run δ JarOutcome :=
  fun (storage, log) =>
    let log := log.push (.jarStarted jar directory)
    match (LinesSink.create directory config.output).run.run storage with
    | (.error error, storage) => (⟨jar, directory, .error (.sink error)⟩, storage, log)
    | (.ok sink, storage) =>
      let (result, state) := walkInto config.extraction period jar sink (storage, log)
      (⟨jar, directory, result⟩, state)

/-- Extracts archives into directories of their own below a root. -/
def extractJars (config : Config) (period : Period) (root : String) (jars : List String) :
    Run δ (List JarOutcome) :=
  (jars.zip (OutputDirectory.ofJars root jars)).mapM fun (jar, directory) =>
    extractJar config period jar directory

end Batch

end JarFacts
