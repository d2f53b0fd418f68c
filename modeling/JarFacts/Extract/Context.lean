import JarFacts.ClassFile.Error
import JarFacts.Log
import JarFacts.Scope
import JarFacts.Signature.Error
import JarFacts.Sink.Basic

/-!
# The state of an extraction

One extraction serves one archive.  Its context is the sink that facts go to, the open scopes, the
location that facts are stamped with, the number of facts written so far, and the log.  A step
changes the context and may fail; the context it leaves behind on failure is the one the failing
operation was made in.
-/

namespace JarFacts

/-- Why the work on one class file ended early. -/
inductive ExtractError where
  | classFile (error : ClassFileError)
  | signature (error : SignatureError)
  | scope (error : ScopeError)
  | sink (error : SinkError)
  deriving DecidableEq

/-- The message of work that ended early. -/
def ExtractError.message : ExtractError → String
  | classFile error => "malformed class file: " ++ error.message
  | signature error => "malformed signature: " ++ error.message
  | scope error => "scope stack invariant violated: " ++ error.message
  | sink error => "fact sink failed: " ++ error.message

/-- The state of an extraction that writes to a sink of type `σ`. -/
structure ExtractContext (σ : Type) where
  sink : σ
  scope : ScopeStack
  location : Location
  counts : FactCounts
  log : Array LogEvent

/-- The state before anything is extracted. -/
def ExtractContext.start {σ : Type} (sink : σ) : ExtractContext σ :=
  ⟨sink, .empty, .nowhere, .zero, #[]⟩

/-- A step of an extraction. -/
abbrev Extract (σ : Type) := ExceptT ExtractError (StateM (ExtractContext σ))

namespace Extract

variable {σ : Type}

/-- Notes an event. -/
def note (event : LogEvent) : Extract σ Unit :=
  modify fun context => { context with log := context.log.push event }

/-- Takes over the reading of a signature or name. -/
def decoded {α : Type} : Except SignatureError α → Extract σ α
  | .ok value => return value
  | .error error => throw (.signature error)

/-- Asks the open scopes. -/
def inScope {α : Type} (ask : ScopeStack → Except ScopeError α) : Extract σ α := do
  match ask (← get).scope with
  | .ok value => return value
  | .error error => throw (.scope error)

/-- The name of the innermost scope. -/
def currentFqn : Extract σ String :=
  inScope ScopeStack.currentFqn

/-- Opens a scope. -/
def push (fqn : String) (kind : ScopeKind) : Extract σ Unit :=
  modify fun context => { context with scope := context.scope.push fqn kind }

/-- Closes the innermost scope. -/
def pop : Extract σ ScopeFrame := do
  let (frame, scope) ← inScope ScopeStack.pop
  modify fun context => { context with scope := scope }
  return frame

/-- Notes that the place of the innermost scope's entity has been stated. -/
def markContainment : Extract σ Unit := do
  let scope ← inScope ScopeStack.markContainment
  modify fun context => { context with scope := scope }

/-- Writes a fact.  It counts once the sink has taken it. -/
def emit [FactSink σ] (fact : Fact) : Extract σ Unit := do
  let context ← get
  let (result, sink) := FactSink.write fact context.sink
  match result with
  | .ok () => set { context with sink := sink, counts := context.counts.count fact }
  | .error error =>
    set { context with sink := sink }
    throw (.sink error)

/-- Writes a relation found at the current location. -/
def relation [FactSink σ] (kind : RelationKind) (source target : String) : Extract σ Unit := do
  emit (.relation ⟨kind, source, target, (← get).location⟩)

/-- Writes a relation that starts at the innermost scope. -/
def relationFromScope [FactSink σ] (kind : RelationKind) (target : String) : Extract σ Unit := do
  relation kind (← currentFqn) target

end Extract

end JarFacts
