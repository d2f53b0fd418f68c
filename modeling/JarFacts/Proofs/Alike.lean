import JarFacts.Proofs.Steps

/-!
# Steps that look alike

Two steps are alike to somebody who sees a part of the state only, its `view`: started where the
view is the same, they come to the same result and leave the same view.  What the view does not show
may differ before, and the steps may do different things to it.

A step that is like doing nothing can be left out (`Alike.drop`), and in a loop each item can be
passed over or taken for another one (`Alike.forM_filterMap`).  Being alike to itself says something
about a step as well: it does not look at what the view does not show.
-/

namespace JarFacts

variable {ε τ ν α β ι κ : Type} {view : τ → ν}

/-- From states with the same view the steps come to the same result, and to states with the same
view. -/
def Alike (view : τ → ν) (step other : ExceptT ε (StateM τ) α) : Prop :=
  ∀ state state', view state = view state' →
    (step.run.run state).1 = (other.run.run state').1 ∧
    view (step.run.run state).2 = view (other.run.run state').2

namespace Alike

lemma pure (value : α) : Alike (ε := ε) view (pure value) (pure value) :=
  fun _ _ hview => ⟨rfl, hview⟩

lemma throw_bind (error : ε) (next next' : α → ExceptT ε (StateM τ) β) :
    Alike view ((throw error : ExceptT ε (StateM τ) α) >>= next)
      ((throw error : ExceptT ε (StateM τ) α) >>= next') :=
  fun _ _ hview => ⟨rfl, hview⟩

lemma bind {step other : ExceptT ε (StateM τ) α} {next next' : α → ExceptT ε (StateM τ) β}
    (hstep : Alike view step other)
    (hnext : ∀ value, Alike view (next value) (next' value)) : Alike view (step >>= next)
      (other >>= next') := by
  intro state state' hview
  obtain ⟨hresult, hleft⟩ := hstep state state' hview
  rw [run_bind, run_bind]
  rcases hrun : step.run.run state with ⟨result, left⟩
  rcases hrun' : other.run.run state' with ⟨result', left'⟩
  rw [hrun, hrun'] at hresult hleft
  obtain rfl : result = result' := hresult
  cases result with
  | error error => exact ⟨rfl, hleft⟩
  | ok value => exact hnext value left left' hleft

/-- A step that is like doing nothing can be left out. -/
lemma drop {step : ExceptT ε (StateM τ) PUnit} {next other : ExceptT ε (StateM τ) β}
    (hstep : Alike view step (Pure.pure ⟨⟩)) (hnext : Alike view next other) :
    Alike view (step >>= fun _ => next) other := by
  have hbind := hstep.bind fun _ => hnext
  rwa [pure_bind] at hbind

lemma discard {step other : ExceptT ε (StateM τ) α} (h : Alike view step other) :
    Alike view (Functor.discard step) (Functor.discard other) := by
  rw [discard_eq_bind, discard_eq_bind]
  exact h.bind fun _ => .pure _

lemma get_bind {next next' : τ → ExceptT ε (StateM τ) β}
    (h : ∀ state state', view state = view state' → Alike view (next state) (next' state')) :
    Alike view (get >>= next) (get >>= next') :=
  fun state state' hview => h state state' hview state state' hview

lemma ite {condition : Prop} [Decidable condition]
    {step other step' other' : ExceptT ε (StateM τ) α}
    (hstep : Alike view step step') (hother : Alike view other other') :
    Alike view (if condition then step else other) (if condition then step' else other') := by
  split
  · exact hstep
  · exact hother

/-- A loop that passes over some of the items of another, and takes other items for the rest. -/
lemma forM_filterMap {step : ι → ExceptT ε (StateM τ) PUnit}
    {step' : κ → ExceptT ε (StateM τ) PUnit} {change? : ι → Option κ} (items : List ι)
    (htaken : ∀ item item', change? item = some item' → Alike view (step item) (step' item'))
    (hpassed : ∀ item, change? item = none → Alike view (step item) (Pure.pure ⟨⟩)) :
    Alike view (items.forM step) ((items.filterMap change?).forM step') := by
  induction items with
  | nil => exact .pure _
  | cons item items ih =>
      cases hchange : change? item with
      | none =>
          rw [List.filterMap_cons_none hchange]
          exact (hpassed item hchange).drop ih
      | some item' =>
          rw [List.filterMap_cons_some hchange]
          exact (htaken item item' hchange).bind fun _ => ih

lemma forM_map_filter {step : ι → ExceptT ε (StateM τ) PUnit}
    {step' : κ → ExceptT ε (StateM τ) PUnit} {keep : ι → Bool} {change : ι → κ} (items : List ι)
    (htaken : ∀ item, keep item = true → Alike view (step item) (step' (change item)))
    (hpassed : ∀ item, keep item = false → Alike view (step item) (Pure.pure ⟨⟩)) :
    Alike view (items.forM step) (((items.filter keep).map change).forM step') := by
  rw [← List.filterMap_eq_map, List.filterMap_filter]
  refine forM_filterMap items (fun item item' hitem => ?_) fun item hitem => ?_
  · obtain ⟨hkeep, hchange⟩ := Option.ite_none_right_eq_some.mp hitem
    obtain rfl : change item = item' := Option.some.inj hchange
    exact htaken item hkeep
  · refine hpassed item (eq_false_of_ne_true fun hkeep => ?_)
    rw [if_pos hkeep] at hitem
    cases hitem

lemma forM_filter {step step' : ι → ExceptT ε (StateM τ) PUnit} {keep : ι → Bool} (items : List ι)
    (htaken : ∀ item, keep item = true → Alike view (step item) (step' item))
    (hpassed : ∀ item, keep item = false → Alike view (step item) (Pure.pure ⟨⟩)) :
    Alike view (items.forM step) ((items.filter keep).forM step') := by
  have hmap : Alike view (items.forM step) (((items.filter keep).map id).forM step') :=
    forM_map_filter items htaken hpassed
  rwa [List.map_id] at hmap

lemma forM_map {step : ι → ExceptT ε (StateM τ) PUnit} {step' : κ → ExceptT ε (StateM τ) PUnit}
    {change : ι → κ} (items : List ι) (h : ∀ item, Alike view (step item) (step' (change item))) :
    Alike view (items.forM step) ((items.map change).forM step') := by
  have hfilter : Alike view (items.forM step)
      (((items.filter fun _ => true).map change).forM step') :=
    forM_map_filter items (fun item _ => h item) fun _ hfalse => Bool.noConfusion hfalse
  rwa [List.filter_eq_self.mpr fun _ _ => rfl] at hfilter

lemma forM {step step' : ι → ExceptT ε (StateM τ) PUnit} (items : List ι)
    (h : ∀ item, Alike view (step item) (step' item)) :
    Alike view (items.forM step) (items.forM step') := by
  have hmap : Alike view (items.forM step) ((items.map id).forM step') := forM_map items h
  rwa [List.map_id] at hmap

/-- A loop over steps that are like doing nothing is like doing nothing. -/
lemma forM_idle {step : ι → ExceptT ε (StateM τ) PUnit} (items : List ι)
    (h : ∀ item, Alike view (step item) (Pure.pure ⟨⟩)) :
    Alike view (items.forM step) (Pure.pure ⟨⟩) := by
  induction items with
  | nil => exact .pure _
  | cons item items ih => exact (h item).drop ih

end Alike

end JarFacts
