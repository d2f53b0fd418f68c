import Mathlib.Tactic.Common
import JarFacts.Proofs.Storage.Directories

/-!
# Stores that fail

What is written must be right also when the store refuses an action now and then.  A `Trial` is a
volume with a list of faults to come: an action fails with the next fault, without an effect, or
does what it does to the volume.  It keeps every volume there has been, so that what holds in the
end can be told from what holds all the time.

What a sink does to a store is stated for every `Watched` store, of which a volume is one and a
trial another: a relation between the volumes before and after is carried from single actions to
whole runs (`Leads`), and holds of every volume on the way as well.
-/

namespace JarFacts

/-- A store that shows a volume.  An action does what it does to the volume, or fails without an
effect. -/
class Watched (δ : Type) [Storage δ] where
  /-- The volume that is shown. -/
  shown : δ → Volume
  /-- Volumes that have been shown, as far as they are kept. -/
  past : δ → List Volume
  present_eq : ∀ path storage, Storage.present path storage = (shown storage).contains path
  read_eq : ∀ path storage, Storage.read path storage = (shown storage).read path
  perform_cases : ∀ action storage,
    ((Storage.perform action storage).1, shown (Storage.perform action storage).2) =
        Storage.perform action (shown storage) ∨
      ∃ fault, (Storage.perform action storage).1 = .error fault ∧
        shown (Storage.perform action storage).2 = shown storage
  past_perform : ∀ action storage, ∀ volume ∈ past (Storage.perform action storage).2,
    volume ∈ past storage ∨ volume = shown (Storage.perform action storage).2

instance : Watched Volume where
  shown volume := volume
  past _ := []
  present_eq _ _ := rfl
  read_eq _ _ := rfl
  perform_cases _ _ := .inl rfl
  past_perform _ _ _ h := .inl h

/-- A volume that refuses actions as it is told, and keeps what it has been. -/
structure Trial where
  volume : Volume
  /-- For each action to come, the fault it fails with, if any. -/
  faults : List (Option StorageFault)
  past : List Volume

namespace Trial

/-- Performs an action, unless a fault is due. -/
def perform (action : StorageAction) (trial : Trial) : Except StorageFault Unit × Trial :=
  match trial.faults with
  | some fault :: faults => (.error fault, { trial with faults })
  | _ =>
    let (result, volume) := Storage.perform action trial.volume
    (result, ⟨volume, trial.faults.tail, trial.past ++ [volume]⟩)

end Trial

instance : Storage Trial where
  present path trial := trial.volume.contains path
  read path trial := trial.volume.read path
  perform := Trial.perform

instance : Watched Trial where
  shown := Trial.volume
  past := Trial.past
  present_eq _ _ := rfl
  read_eq _ _ := rfl
  perform_cases action trial := by
    obtain ⟨volume, faults, past⟩ := trial
    match faults with
    | some fault :: faults => exact .inr ⟨fault, rfl, rfl⟩
    | none :: faults => exact .inl rfl
    | [] => exact .inl rfl
  past_perform action trial volume h := by
    obtain ⟨now, faults, past⟩ := trial
    match faults with
    | some fault :: faults => exact .inl h
    | none :: faults => exact (List.mem_append.mp h).imp_right List.mem_singleton.mp
    | [] => exact (List.mem_append.mp h).imp_right List.mem_singleton.mp

namespace Watched

variable {δ : Type} [Storage δ] [Watched δ] {move : Volume → Volume → Prop}
  {storage other third : δ}

/-! ## Runs -/

/-- From one store to another, the volume shown has moved in a certain way, at the end and all the
way. -/
def Leads (move : Volume → Volume → Prop) (storage other : δ) : Prop :=
  move (shown storage) (shown other) ∧ ∀ volume ∈ past other, volume ∈ past storage ∨
    move (shown storage) volume

lemma Leads.refl (h : ∀ volume, move volume volume) (storage : δ) : Leads move storage storage :=
  ⟨h _, fun _ hvolume => .inl hvolume⟩

lemma Leads.trans (htrans : ∀ {a b c}, move a b → move b c → move a c)
    (h : Leads move storage other) (h' : Leads move other third) : Leads move storage third := by
  refine ⟨htrans h.1 h'.1, fun volume hvolume => ?_⟩
  rcases h'.2 volume hvolume with hold | hnew
  · exact h.2 volume hold
  · exact .inr (htrans h.1 hnew)

lemma Leads.mono {move' : Volume → Volume → Prop} (hmove : ∀ {a b}, move a b → move' a b)
    (h : Leads move storage other) : Leads move' storage other :=
  ⟨hmove h.1, fun volume hvolume => (h.2 volume hvolume).imp_right hmove⟩

lemma leads_perform {action : StorageAction}
    (h : move (shown storage) (shown (Storage.perform action storage).2)) :
    Leads move storage (Storage.perform action storage).2 := by
  refine ⟨h, fun volume hvolume => ?_⟩
  rcases past_perform action storage volume hvolume with hold | rfl
  · exact .inl hold
  · exact .inr h

/-! ## Single actions -/

/-- A file action that succeeded has written where its path leads, and one that failed has changed
nothing. -/
lemma perform_of_attempt {action : StorageAction} {change : Volume → Except StorageFault Volume}
    (haction : ∀ volume : Volume, Storage.perform action volume = volume.attempt (change volume))
    (storage : δ) :
    (Storage.perform action storage).1 = .ok () ∧
        change (shown storage) = .ok (shown (Storage.perform action storage).2) ∨
      ∃ fault, (Storage.perform action storage).1 = .error fault ∧
        shown (Storage.perform action storage).2 = shown storage := by
  rcases perform_cases action storage with hsame | hfault
  · rw [haction] at hsame
    cases hchange : change (shown storage) with
    | ok changed =>
        rw [hchange] at hsame
        obtain ⟨hresult, hshown⟩ := Prod.mk.inj hsame
        exact .inl ⟨hresult, congrArg Except.ok hshown.symm⟩
    | error fault =>
        rw [hchange] at hsame
        obtain ⟨hresult, hshown⟩ := Prod.mk.inj hsame
        exact .inr ⟨fault, hresult, hshown⟩
  · exact .inr hfault

lemma perform_replace (path : String) (bytes : Bytes) (storage : δ) :
    (Storage.perform (.replace path bytes) storage).1 = .ok () ∧
        (shown storage).Writes path (some (.file bytes))
          (shown (Storage.perform (.replace path bytes) storage).2) ∨
      ∃ fault, (Storage.perform (.replace path bytes) storage).1 = .error fault ∧
        shown (Storage.perform (.replace path bytes) storage).2 = shown storage :=
  (perform_of_attempt (fun _ => rfl) storage).imp_left fun h => ⟨h.1, Volume.writes_of_replace h.2⟩

lemma perform_create (path : String) (storage : δ) :
    (Storage.perform (.create path) storage).1 = .ok () ∧
        (shown storage).Writes path (some (.file []))
          (shown (Storage.perform (.create path) storage).2) ∨
      ∃ fault, (Storage.perform (.create path) storage).1 = .error fault ∧
        shown (Storage.perform (.create path) storage).2 = shown storage :=
  (perform_of_attempt (fun _ => rfl) storage).imp_left fun h => ⟨h.1, Volume.writes_of_replace h.2⟩

lemma perform_remove (path : String) (storage : δ) :
    (Storage.perform (.remove path) storage).1 = .ok () ∧
        (shown storage).Writes path none (shown (Storage.perform (.remove path) storage).2) ∨
      ∃ fault, (Storage.perform (.remove path) storage).1 = .error fault ∧
        shown (Storage.perform (.remove path) storage).2 = shown storage :=
  (perform_of_attempt (fun _ => rfl) storage).imp_left fun h => ⟨h.1, Volume.writes_of_remove h.2⟩

lemma perform_writeAt (path : String) (offset : Nat) (bytes : Bytes) (storage : δ) :
    (Storage.perform (.writeAt path offset bytes) storage).1 = .ok () ∧
        (∃ content, (shown storage).fileAt? ((shown storage).landing path) = some content ∧
          (shown storage).Writes path (some (.file (Volume.overlay content offset bytes)))
            (shown (Storage.perform (.writeAt path offset bytes) storage).2)) ∨
      ∃ fault, (Storage.perform (.writeAt path offset bytes) storage).1 = .error fault ∧
        shown (Storage.perform (.writeAt path offset bytes) storage).2 = shown storage :=
  (perform_of_attempt (fun _ => rfl) storage).imp_left fun h => ⟨h.1, Volume.writes_of_writeAt h.2⟩

lemma perform_makeDirectories (path : String) (storage : δ) :
    (shown storage).AddsDirectories
      (shown (Storage.perform (.makeDirectories path) storage).2) := by
  rcases perform_cases (.makeDirectories path) storage with hsame | ⟨-, -, hshown⟩
  · have hshown := (Prod.mk.inj hsame).2
    rw [hshown]
    exact Volume.addsDirectories_makeDirectories path (shown storage)
  · rw [hshown]
    exact .refl _

end Watched

end JarFacts
