import JarFacts.Fact.Kind

/-!
# Open scopes

While a class is worked through, a stack holds the scopes that are open: the package, the type, and
the method whose parts are being taken.  The innermost one names the source of most relations.
`pushes` and `pops` count what went on and off; frames cut off after a failure count as neither.
-/

namespace JarFacts

/-- Why a scope could not be used. -/
inductive ScopeError where
  | underflow
  | empty
  deriving DecidableEq

/-- The message for a scope that could not be used. -/
def ScopeError.message : ScopeError → String
  | underflow => "scope stack underflow"
  | empty => "no open scope"

/-- What a scope stands for. -/
inductive ScopeKind where
  | entity (kind : EntityKind)
  /-- A declaration that is no entity: a package or module descriptor. -/
  | placeholder
  deriving DecidableEq

/-- The name of what a scope stands for. -/
def ScopeKind.name : ScopeKind → String
  | entity kind => kind.name
  | placeholder => "PLACEHOLDER"

/-- What a scope with the given name stands for. -/
def ScopeKind.ofName? (name : String) : Option ScopeKind :=
  if name = "PLACEHOLDER" then some .placeholder else (EntityKind.ofName? name).map .entity

/-- An open scope. -/
structure ScopeFrame where
  kind : ScopeKind
  fqn : String
  /-- Has the place of the scope's entity been stated already? -/
  containmentEmitted : Bool
  deriving DecidableEq

/-- The open scopes, innermost first. -/
structure ScopeStack where
  frames : List ScopeFrame
  pushes : Nat
  pops : Nat
  deriving DecidableEq

namespace ScopeStack

/-- No scope. -/
def empty : ScopeStack := ⟨[], 0, 0⟩

/-- How many scopes are open. -/
def depth (stack : ScopeStack) : Nat :=
  stack.frames.length

/-- Opens a scope. -/
def push (stack : ScopeStack) (fqn : String) (kind : ScopeKind) : ScopeStack :=
  ⟨⟨kind, fqn, false⟩ :: stack.frames, stack.pushes + 1, stack.pops⟩

/-- Closes the innermost scope. -/
def pop (stack : ScopeStack) : Except ScopeError (ScopeFrame × ScopeStack) :=
  match stack.frames with
  | frame :: frames => .ok (frame, ⟨frames, stack.pushes, stack.pops + 1⟩)
  | [] => .error .underflow

/-- The innermost scope. -/
def top (stack : ScopeStack) : Except ScopeError ScopeFrame :=
  match stack.frames with
  | frame :: _ => .ok frame
  | [] => .error .empty

/-- The name of the innermost scope. -/
def currentFqn (stack : ScopeStack) : Except ScopeError String :=
  stack.top.map ScopeFrame.fqn

/-- What the innermost scope stands for. -/
def currentKind (stack : ScopeStack) : Except ScopeError ScopeKind :=
  stack.top.map ScopeFrame.kind

/-- Has the place of the innermost scope's entity been stated? -/
def containmentEmitted (stack : ScopeStack) : Except ScopeError Bool :=
  stack.top.map ScopeFrame.containmentEmitted

/-- Notes that the place of the innermost scope's entity has been stated. -/
def markContainment (stack : ScopeStack) : Except ScopeError ScopeStack :=
  match stack.frames with
  | frame :: frames =>
      .ok { stack with frames := { frame with containmentEmitted := true } :: frames }
  | [] => .error .empty

/-- Cuts off the scopes beyond the outermost `depth` ones. -/
def truncate (stack : ScopeStack) (depth : Nat) : ScopeStack :=
  { stack with frames := stack.frames.drop (stack.frames.length - depth) }

end ScopeStack

end JarFacts
