import JarFacts.Fact.Basic
import JarFacts.Time.Instant

/-!
# Summaries

What came of walking through one archive.
-/

namespace JarFacts

/-- The account of one walk. -/
structure WalkSummary where
  /-- The path of the archive as given, or a name for it. -/
  jar : String
  /-- The SHA-256 of the archive in hexadecimal, if it was read from disk. -/
  sha256 : Option String
  classesSeen : Nat
  classesExtracted : Nat
  classesFailed : Nat
  facts : FactCounts
  startedAt : Instant
  finishedAt : Instant
  deriving DecidableEq

namespace WalkSummary

/-- Was every class worked through to its end? -/
def isClean (summary : WalkSummary) : Bool :=
  summary.classesFailed == 0

/-- How long the walk took. -/
def durationMillis (summary : WalkSummary) : Int :=
  Instant.millisBetween summary.startedAt summary.finishedAt

/-- A line of the report: a label padded to a common width, and a number. -/
def reportLine (label : String) (value : Nat) : String :=
  "  " ++ label ++ toString value ++ "\n"

/-- The summary for people.  Failures are mentioned only if there are any. -/
def report (summary : WalkSummary) : String :=
  summary.jar ++ "\n" ++
  "Classes:\n" ++
  reportLine "Seen:      " summary.classesSeen ++
  reportLine "Extracted: " summary.classesExtracted ++
  (if summary.classesFailed > 0 then reportLine "Failed:    " summary.classesFailed else "") ++
  "Facts:\n" ++
  reportLine "Entities:  " summary.facts.entities ++
  reportLine "Relations: " summary.facts.relations ++
  reportLine "Files:     " summary.facts.files ++
  reportLine "Params:    " summary.facts.params

end WalkSummary

end JarFacts
