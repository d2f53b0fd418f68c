import JarFacts.Fact.Summary
import JarFacts.Storage.Fault

/-!
# Fact sinks

Facts go to a sink one by one, and a run that came to its end closes with a summary.  A sink is a
state with two transitions; each may fail, and the state goes on after a failure as well.  What is
extracted never depends on which sink it goes to, so everything that writes facts is stated for an
arbitrary one.
-/

namespace JarFacts

/-- Why a sink did not take a fact or a summary. -/
inductive SinkError where
  | io (path : String) (fault : StorageFault)
  | finished
  deriving DecidableEq

/-- The message of a sink that failed. -/
def SinkError.message : SinkError → String
  | io path fault => "IO error at " ++ path ++ ": " ++ fault.message
  | finished => "Sink already finished"

/-- A destination of facts. -/
class FactSink (σ : Type) where
  /-- Takes a fact. -/
  write : Fact → σ → Except SinkError Unit × σ
  /-- Takes the summary that closes a run. -/
  finish : WalkSummary → σ → Except SinkError Unit × σ

end JarFacts
