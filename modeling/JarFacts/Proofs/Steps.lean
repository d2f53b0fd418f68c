import Mathlib.Tactic.Common

/-!
# Running steps that may fail

Extractions, walks and readers are all steps with a state and an error, where the state goes on
after a failure. Running one is a function of the state, and this file says how that function goes
through the text of a step.
-/

namespace JarFacts

variable {ε τ α β : Type}

lemma discard_eq_bind {m : Type → Type} [Monad m] [LawfulMonad m] (step : m α) :
    discard step = step >>= fun _ => pure PUnit.unit := by
  rw [discard, LawfulFunctor.map_const, Function.comp, map_eq_pure_bind]

lemma run_bind (step : ExceptT ε (StateM τ) α) (next : α → ExceptT ε (StateM τ) β) (state : τ) :
    (step >>= next).run.run state =
      match step.run.run state with
      | (.ok value, state') => (next value).run.run state'
      | (.error error, state') => (.error error, state') := by
  rw [ExceptT.run_bind, StateT.run_bind]
  rcases step.run.run state with ⟨_ | _, state'⟩ <;> rfl

/-- Where a sequence of two steps succeeds both do. -/
lemma run_bind_of_ok {step : ExceptT ε (StateM τ) α} {next : α → ExceptT ε (StateM τ) β} {state : τ}
    {value : β} (h : ((step >>= next).run.run state).1 = .ok value) :
    ∃ found state', step.run.run state = (.ok found, state') ∧
      (step >>= next).run.run state = (next found).run.run state' := by
  rw [run_bind] at h ⊢
  rcases hrun : step.run.run state with ⟨error | found, state'⟩ <;> rw [hrun] at h
  · cases h
  · exact ⟨found, state', rfl, rfl⟩

/-- Where a computation in two parts has a value both parts do. -/
lemma exists_ok_of_bind {first : Except ε α} {next : α → Except ε β} {value : β}
    (h : (first >>= next) = .ok value) : ∃ found, first = .ok found ∧ next found = .ok value := by
  cases first with
  | error error => cases h
  | ok found => exact ⟨found, rfl, h⟩

/-- What is done with a value that was found. -/
lemma bind_of_eq_some {found : Option α} {value : α} (h : found = some value)
    (next : α → Option β) :
    found >>= next = next value := by
  rw [h]
  rfl

lemma bind_of_eq_ok {found : Except ε α} {value : α} (h : found = .ok value)
    (next : α → Except ε β) :
    found >>= next = next value := by
  rw [h]
  rfl

lemma bind_of_eq_error {found : Except ε α} {error : ε} (h : found = .error error)
    (next : α → Except ε β) :
    found >>= next = .error error := by
  rw [h]
  rfl

lemma run_get_bind (next : τ → ExceptT ε (StateM τ) β) (state : τ) :
    (get >>= next).run.run state = (next state).run.run state := rfl

lemma run_modify_bind (change : τ → τ) (next : PUnit → ExceptT ε (StateM τ) β) (state : τ) :
    (modify change >>= next).run.run state = (next ⟨⟩).run.run (change state) := rfl

lemma run_lift_bind (inner : StateM τ α) (next : α → ExceptT ε (StateM τ) β) (state : τ) :
    (ExceptT.lift inner >>= next).run.run state = (next (inner.run state).1).run.run
      (inner.run state).2 := rfl

lemma run_tryCatch (step : ExceptT ε (StateM τ) α) (handle : ε → ExceptT ε (StateM τ) α)
    (state : τ) :
    (tryCatch step handle).run.run state =
      match step.run.run state with
      | (.ok value, state') => (.ok value, state')
      | (.error error, state') => (handle error).run.run state' := by
  rw [ExceptT.run_tryCatch, StateT.run_bind]
  rcases step.run.run state with ⟨_ | _, state'⟩ <;> rfl

end JarFacts
