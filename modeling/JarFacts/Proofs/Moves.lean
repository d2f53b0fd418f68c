import Mathlib.Logic.Relation
import JarFacts.Proofs.Steps

/-!
# What a run is made of

A step with a state and an error may end in many places, and its state goes on from wherever it
ended.  `Moves` says that on every way through a step, whatever the result, the state changes by
moves of a given kind only.  What holds of a single move and is carried on from one to the next then
holds of the whole run, also of one that broke off.

The rules follow the text of a step; the moves of extractions and of class-file readers are given
where those are.
-/

namespace JarFacts

variable {ε τ α β ι : Type} {move : τ → τ → Prop}

/-- The step takes its state from where it starts to where it ends by moves. -/
def Moves (move : τ → τ → Prop) (step : ExceptT ε (StateM τ) α) : Prop :=
  ∀ state, Relation.ReflTransGen move state (step.run.run state).2

namespace Moves

lemma pure (value : α) : Moves (ε := ε) move (pure value) :=
  fun _ => .refl

lemma throw (error : ε) : Moves (α := α) move (throw error : ExceptT ε (StateM τ) α) :=
  fun _ => .refl

/-- The rule for a given state: what comes second is asked of those states only that the first step
leads to. -/
lemma bind_at {step : ExceptT ε (StateM τ) α} {next : α → ExceptT ε (StateM τ) β} {state : τ}
    (hstep : Relation.ReflTransGen move state (step.run.run state).2)
    (hnext : ∀ value state', step.run.run state = (.ok value, state') →
      Relation.ReflTransGen move state' ((next value).run.run state').2) :
    Relation.ReflTransGen move state ((step >>= next).run.run state).2 := by
  rw [run_bind]
  rcases hrun : step.run.run state with ⟨error | value, state'⟩ <;> rw [hrun] at hstep
  · exact hstep
  · exact hstep.trans (hnext value state' hrun)

lemma bind {step : ExceptT ε (StateM τ) α} {next : α → ExceptT ε (StateM τ) β}
    (hstep : Moves move step)
    (hnext : ∀ value, Moves move (next value)) : Moves move (step >>= next) :=
  fun state => bind_at (hstep state) fun value state' _ => hnext value state'

lemma discard {step : ExceptT ε (StateM τ) α} (h : Moves move step) :
    Moves move (Functor.discard step) := by
  rw [discard_eq_bind]
  exact h.bind fun _ => .pure _

lemma get_bind {next : τ → ExceptT ε (StateM τ) β} (hnext : ∀ state, Moves move (next state)) :
    Moves move (get >>= next) :=
  fun state => hnext state state

lemma modify {change : τ → τ} (h : ∀ state, move state (change state)) :
    Moves (ε := ε) move (modify change) :=
  fun state => .single (h state)

lemma ite {condition : Prop} [Decidable condition] {step other : ExceptT ε (StateM τ) α}
    (hstep : Moves move step) (hother : Moves move other) :
      Moves move (if condition then step else other) := by
  split
  · exact hstep
  · exact hother

lemma forM {step : ι → ExceptT ε (StateM τ) PUnit} (items : List ι)
    (hstep : ∀ item ∈ items, Moves move (step item)) :
    Moves move (items.forM step) := by
  induction items with
  | nil => exact .pure _
  | cons item rest ih =>
      have hrest := ih fun other hother => hstep other (List.mem_cons_of_mem _ hother)
      exact (hstep item List.mem_cons_self).bind fun _ => hrest

end Moves

end JarFacts
