import Mathlib.Tactic.Common
import JarFacts.Storage.Basic

/-!
# Work on a store, step by step

What is done to a store is written as a function of the whole store, and such a function cannot be
interrupted.  A `Routine` is the same work as a tree: it has something to ask of a store, and goes
on according to the answer.  Run to the end it is a function of the store again (`run`); but it can
also be taken one step at a time (`step`), with others at work in between.

`Keeps` says what a routine may ask for and what it may come back with, whatever the answers are.
-/

namespace JarFacts

/-- Work that comes back with a value. -/
inductive Routine (α : Type) where
  | done (value : α)
  /-- Is there something at the path? -/
  | present (path : String) (next : Bool → Routine α)
  /-- What is in the file? -/
  | read (path : String) (next : Except StorageFault Bytes → Routine α)
  | perform (action : StorageAction) (next : Except StorageFault Unit → Routine α)

namespace Routine

variable {α β : Type}

/-- One routine and then another. -/
def bind (next : α → Routine β) : Routine α → Routine β
  | done value => next value
  | present path more => .present path fun answer => (more answer).bind next
  | read path more => .read path fun answer => (more answer).bind next
  | perform action more => .perform action fun answer => (more answer).bind next

instance : Monad Routine where
  pure := done
  bind routine next := routine.bind next

/-! ## On a store -/

section
variable {δ : Type} [Storage δ]

/-- What becomes of a routine and a store when nobody else works on it. -/
def run : Routine α → δ → α × δ
  | done value, storage => (value, storage)
  | present path next, storage => (next (Storage.present path storage)).run storage
  | read path next, storage => (next (Storage.read path storage)).run storage
  | perform action next, storage =>
    (next (Storage.perform action storage).1).run (Storage.perform action storage).2

/-- A single step. -/
def step : Routine α → δ → Routine α × δ
  | done value, storage => (done value, storage)
  | present path next, storage => (next (Storage.present path storage), storage)
  | read path next, storage => (next (Storage.read path storage), storage)
  | perform action next, storage =>
      (next (Storage.perform action storage).1, (Storage.perform action storage).2)

/-- The routine comes to the same, one step further. -/
lemma run_step (routine : Routine α) (storage : δ) :
    (routine.step storage).1.run (routine.step storage).2 = routine.run storage := by
  cases routine <;> rfl

lemma run_bind (routine : Routine α) (next : α → Routine β) (storage : δ) :
    (routine >>= next).run storage = (next (routine.run storage).1).run
      (routine.run storage).2 := by
  induction routine generalizing storage with
  | done value => rfl
  | present path more ih => exact ih _ storage
  | read path more ih => exact ih _ storage
  | perform action more ih => exact ih _ _

end

/-! ## What a routine asks for -/

/-- What may be asked of a store. -/
structure Permit where
  present : String → Prop
  read : String → Prop
  perform : StorageAction → Prop

/-- The routine asks for nothing that is not permitted, and what it comes back with is as it should
be. -/
def Keeps (permit : Permit) (ends : α → Prop) : Routine α → Prop
  | done value => ends value
  | present path next => permit.present path ∧ ∀ answer, (next answer).Keeps permit ends
  | read path next => permit.read path ∧ ∀ answer, (next answer).Keeps permit ends
  | perform action next => permit.perform action ∧ ∀ answer, (next answer).Keeps permit ends

variable {permit : Permit} {ends : α → Prop} {routine : Routine α}

lemma Keeps.bind {ends' : β → Prop} {next : α → Routine β} (h : routine.Keeps permit ends)
    (hnext : ∀ value, ends value → (next value).Keeps permit ends') :
      (routine >>= next).Keeps permit ends' := by
  induction routine with
  | done value => exact hnext value h
  | present path more ih => exact ⟨h.1, fun answer => ih answer (h.2 answer)⟩
  | read path more ih => exact ⟨h.1, fun answer => ih answer (h.2 answer)⟩
  | perform action more ih => exact ⟨h.1, fun answer => ih answer (h.2 answer)⟩

lemma Keeps.step {δ : Type} [Storage δ] (h : routine.Keeps permit ends) (storage : δ) :
    (routine.step storage).1.Keeps permit ends := by
  cases routine with
  | done value => exact h
  | present path next => exact h.2 _
  | read path next => exact h.2 _
  | perform action next => exact h.2 _

end Routine

end JarFacts
