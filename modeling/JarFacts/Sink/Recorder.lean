import JarFacts.Sink.Basic

/-!
# Recording sinks

A sink that keeps what it was given in the order it came, over all families, and that can be told to
give up: it accepts a limited number of writes, of which closing is one, or refuses to be closed.
-/

namespace JarFacts

/-- Something a sink was given. -/
inductive SinkWrite where
  | fact (fact : Fact)
  | finish (summary : WalkSummary)
  deriving DecidableEq

/-- A sink that records. -/
structure Recorder where
  /-- What was accepted, in order. -/
  accepted : Array SinkWrite
  /-- How many writes are accepted; without a limit when absent. -/
  limit : Option Nat
  /-- Is closing refused? -/
  refusesFinish : Bool
  deriving DecidableEq

namespace Recorder

/-- A recorder that has accepted nothing yet. -/
def new (limit : Option Nat) (refusesFinish : Bool) : Recorder := ⟨#[], limit, refusesFinish⟩

/-- Is there room for one more write? -/
def hasRoom (recorder : Recorder) : Bool :=
  match recorder.limit with
  | some limit => recorder.accepted.size < limit
  | none => true

/-- Takes a write if there is room for it. -/
def accept (write : SinkWrite) (recorder : Recorder) : Except SinkError Unit × Recorder :=
  if recorder.hasRoom then (.ok (), { recorder with accepted := recorder.accepted.push write })
  else (.error .finished, recorder)

end Recorder

instance : FactSink Recorder where
  write fact recorder := recorder.accept (.fact fact)
  finish summary recorder :=
    if recorder.refusesFinish then (.error .finished, recorder)
    else recorder.accept (.finish summary)

end JarFacts
