import JarFacts.Archive.Basic
import JarFacts.Bytes.Sha256
import JarFacts.Config.Basic
import JarFacts.Extract.Entry

/-!
# Walking through an archive

The facts of an archive: first the archive itself, then everything in its class entries in the order
of its directory, and at last a summary.  An entry whose class file is malformed is counted as
failed and does not stop the walk.  What does stop it is an archive that cannot be read on, and a
sink that fails; no summary is written then.
-/

namespace JarFacts

/-- Why a walk ended early. -/
inductive WalkError where
  /-- The archive could not be read. -/
  | unreadable (path : String) (fault : StorageFault)
  /-- The data of an entry is damaged. -/
  | damagedEntry (jar entry : String)
  /-- The bytes are no archive. -/
  | notAnArchive (jar : String)
  /-- An entry cannot be opened. -/
  | closedEntry (jar entry : String)
  /-- The sink failed. -/
  | sink (error : SinkError)
  deriving DecidableEq

/-- The message of a walk that ended early. -/
def WalkError.message : WalkError → String
  | unreadable path fault => "IO error at " ++ path ++ ": " ++ fault.message
  | damagedEntry jar entry => "IO error at " ++ jar ++ "!" ++ entry ++ ": damaged data"
  | notAnArchive jar => "Failed to read archive " ++ jar ++ ": no directory of entries"
  | closedEntry jar entry => "Failed to read archive " ++ jar ++ ": entry " ++ entry ++
      " cannot be opened"
  | sink error => "fact sink failed: " ++ error.message

/-- When a walk began and ended. -/
structure Period where
  started : Instant
  finished : Instant
  deriving DecidableEq

/-- What has become of the class entries so far. -/
structure Tally where
  seen : Nat
  extracted : Nat
  failed : Nat
  deriving DecidableEq

/-- No class entries. -/
def Tally.zero : Tally := ⟨0, 0, 0⟩

/-- A step of a walk. -/
abbrev Walk (σ : Type) := ExceptT WalkError (StateM (ExtractContext σ))

namespace Walk

variable {σ : Type} [FactSink σ]

/-- Writes a fact. -/
def write (fact : Fact) : Walk σ Unit := do
  match ← ExceptT.lift (Extract.emit fact).run with
  | .ok () | .error (.classFile _) | .error (.signature _) | .error (.scope _) => return ()
  | .error (.sink error) => throw (.sink error)

/-- Closes the sink with a summary. -/
def finish (summary : WalkSummary) : Walk σ Unit := do
  let context ← get
  let (result, sink) := FactSink.finish summary context.sink
  set { context with sink := sink }
  match result with
  | .ok () => return ()
  | .error error => throw (.sink error)

/-- Extracts a class file.  Only a failure of the sink ends the walk. -/
def classFile (name : String) (bytes : Bytes) (tally : Tally) : Walk σ Tally := do
  match ← ExceptT.lift (Extract.entry name bytes).run with
  | .ok () => return { tally with seen := tally.seen + 1, extracted := tally.extracted + 1 }
  | .error (.sink error) => throw (.sink error)
  | .error _ => return { tally with seen := tally.seen + 1, failed := tally.failed + 1 }

/-- Goes to an entry.  It has to open, whatever it is; it is read if it is a class file. -/
def visit (config : ExtractionConfig) (jar : String) (tally : Tally) (entry : ArchiveEntry) :
    Walk σ Tally := do
  if !entry.opens then throw (.closedEntry jar entry.name)
  else if !entry.isFile || !config.isClassEntry entry.name then return tally
  else
    match entry.content () with
    | none => throw (.damagedEntry jar entry.name)
    | some bytes => classFile entry.name bytes tally

/-- The archive itself as a file. -/
def jarFact (jar : String) : Fact :=
  .file ⟨.jar, (Path.fileName? jar).getD jar, some jar, .nowhere⟩

/-- The summary of a walk. -/
def summarize (jar : String) (sha256 : Option String) (period : Period) (tally : Tally)
    (facts : FactCounts) :
    WalkSummary where
  jar := jar
  sha256 := sha256
  classesSeen := tally.seen
  classesExtracted := tally.extracted
  classesFailed := tally.failed
  facts := facts
  startedAt := period.started
  finishedAt := period.finished

/-- The whole walk over the entries of an archive. -/
def entries (config : ExtractionConfig) (period : Period) (jar : String) (sha256 : Option String)
    (list : List ArchiveEntry) : Walk σ WalkSummary := do
  write (jarFact jar)
  let tally ← list.foldlM (visit config jar) Tally.zero
  let summary := summarize jar sha256 period tally (← get).counts
  finish summary
  modify fun context =>
    let event := .jarExtracted jar tally.extracted tally.failed summary.facts.total
    { context with log := context.log.push event }
  return summary

/-- The whole walk over the bytes of an archive.  `jar` names it in facts and messages. -/
def archive (config : ExtractionConfig) (period : Period) (jar : String) (sha256 : Option String)
    (bytes : Bytes) : Walk σ WalkSummary :=
  match Archive.entries? bytes with
  | some list => entries config period jar sha256 list
  | none => throw (.notAnArchive jar)

/-- The whole walk over an archive that is a file, given by what came of reading it.  The summary
says which file it was by its digest. -/
def file (config : ExtractionConfig) (period : Period) (path : String)
    (content : Except StorageFault Bytes) :
    Walk σ WalkSummary :=
  match content with
  | .ok bytes => archive config period path (some (Bytes.hex (Sha256.digest bytes))) bytes
  | .error fault => throw (.unreadable path fault)

/-- Walks with a sink: the result and the state at the end. -/
def start {α : Type} (walk : Walk σ α) (sink : σ) : Except WalkError α × ExtractContext σ :=
  walk.run.run (.start sink)

end Walk

end JarFacts
