import Mathlib.Tactic.Common
import JarFacts.Proofs.Storage.Trial

/-!
# Volumes that look alike from somewhere

What a path leads to depends on the places of its way, and on nothing else.  So two volumes that
agree on some places answer alike to all who keep to these places, and an action that succeeds on
one succeeds on the other (`AgreeOn.perform`).
-/

namespace JarFacts

/-- The action is about the file at a path. -/
def StorageAction.IsOn (path : String) : StorageAction → Prop
  | .makeDirectories _ => False
  | .remove target | .create target | .writeAt target _ _ | .replace target _ => target = path

namespace Volume

variable {volume other : Volume} {region : List String → Prop} {path : String} {place : List String}

/-- Two volumes have the same at certain places, and paths start alike. -/
structure AgreeOn (region : List String → Prop) (volume other : Volume) : Prop where
  workingDirectory : volume.workingDirectory = other.workingDirectory
  node : ∀ place, region place → volume.node? place = other.node? place

lemma AgreeOn.put (h : AgreeOn region volume other) (hplace : place ≠ []) (node : Node) :
    AgreeOn region (volume.put place node) (other.put place node) := by
  have hchanges : Changes volume place (some node) (volume.put place node) :=
    changes_put hplace node
  have hchanges' : Changes other place (some node) (other.put place node) := changes_put hplace node
  refine ⟨by rw [hchanges.1, hchanges'.1, h.workingDirectory], fun query hquery => ?_⟩
  rw [hchanges.2, hchanges'.2, h.node query hquery]

lemma AgreeOn.erase (h : AgreeOn region volume other) (hplace : place ≠ []) :
    AgreeOn region (volume.erase place) (other.erase place) := by
  refine ⟨h.workingDirectory, fun query hquery => ?_⟩
  rw [node?_erase hplace, node?_erase hplace, h.node query hquery]

/-- The region has everything that a path needs. -/
def Covers (region : List String → Prop) (volume : Volume) (path : String) : Prop :=
  ∀ place ∈ volume.way path, region place

lemma AgreeOn.place_eq (h : AgreeOn region volume other) (hcovers : Covers region other path) :
    volume.place path = other.place path := by
  rw [Volume.place, Volume.place]
  split
  · rfl
  · split
    · rfl
    · rw [h.workingDirectory]
      exact follow_congr fun left hleft => h.node left (hcovers left (mem_way.mpr (.inl hleft)))

lemma AgreeOn.find (h : AgreeOn region volume other) (hcovers : Covers region other path) :
    volume.find path = other.find path := by
  rw [Volume.find, Volume.find, h.place_eq hcovers]
  cases hplace : other.place path with
  | error fault => rfl
  | ok place =>
      obtain ⟨rfl, -⟩ := place_eq_ok hplace
      have hnode := h.node _ (hcovers _ (landing_mem_way other path))
      simp only [bind, Except.bind, hnode]

lemma AgreeOn.contains (h : AgreeOn region volume other) (hcovers : Covers region other path) :
    volume.contains path = other.contains path := by
  rw [Volume.contains, Volume.contains, h.find hcovers]

lemma AgreeOn.read (h : AgreeOn region volume other) (hcovers : Covers region other path) :
    volume.read path = other.read path := by
  rw [Volume.read, Volume.read, h.find hcovers]

/-- A change that two volumes agree about: both refuse it, for one reason, or both are changed and
go on agreeing. -/
def SameChange (region : List String → Prop) :
    Except StorageFault Volume → Except StorageFault Volume → Prop
  | .ok changed, .ok changed' => AgreeOn region changed changed'
  | .error fault, .error fault' => fault = fault'
  | _, _ => False

lemma AgreeOn.remove (h : AgreeOn region volume other) (hcovers : Covers region other path) :
    SameChange region (volume.remove path) (other.remove path) := by
  rw [Volume.remove, Volume.remove, h.place_eq hcovers]
  cases hplace : other.place path with
  | error fault => exact rfl
  | ok place =>
      obtain ⟨rfl, -⟩ := place_eq_ok hplace
      simp only [bind, Except.bind, h.node _ (hcovers _ (landing_mem_way other path))]
      cases hnode : other.node? (other.landing path) with
      | none => exact rfl
      | some node =>
          cases node with
          | directory => exact rfl
          | file bytes => exact h.erase (ne_nil_of_node?_eq_file hnode)

lemma AgreeOn.writeAt (h : AgreeOn region volume other) (hcovers : Covers region other path)
    (offset : Nat) (bytes : Bytes) :
    SameChange region (volume.writeAt path offset bytes) (other.writeAt path offset bytes) := by
  rw [Volume.writeAt, Volume.writeAt, h.place_eq hcovers]
  cases hplace : other.place path with
  | error fault => exact rfl
  | ok place =>
      obtain ⟨rfl, -⟩ := place_eq_ok hplace
      simp only [bind, Except.bind, h.node _ (hcovers _ (landing_mem_way other path))]
      cases hnode : other.node? (other.landing path) with
      | none => exact rfl
      | some node =>
          cases node with
          | directory => exact rfl
          | file content => exact h.put (ne_nil_of_node?_eq_file hnode) _

lemma AgreeOn.replace (h : AgreeOn region volume other) (hcovers : Covers region other path)
    (habove : region (other.landing path).dropLast) (bytes : Bytes) :
    SameChange region (volume.replace path bytes) (other.replace path bytes) := by
  rw [Volume.replace, Volume.replace, h.place_eq hcovers]
  cases hplace : other.place path with
  | error fault => exact rfl
  | ok place =>
      obtain ⟨rfl, -⟩ := place_eq_ok hplace
      simp only [bind, Except.bind, h.node _ (hcovers _ (landing_mem_way other path)),
        h.node _ habove]
      cases hnode : other.node? (other.landing path) with
      | none =>
          have hne := ne_nil_of_node?_eq_none hnode
          cases habove' : other.node? (other.landing path).dropLast with
          | none => exact rfl
          | some node =>
              cases node with
              | directory => exact h.put hne _
              | file content => exact rfl
      | some node =>
          cases node with
          | directory => exact rfl
          | file content => exact h.put (ne_nil_of_node?_eq_file hnode) _

lemma attempt_of_sameChange {change change' : Except StorageFault Volume}
    (h : AgreeOn region volume other) (hchange : SameChange region change change') :
    (volume.attempt change).1 = (other.attempt change').1 ∧
      AgreeOn region (volume.attempt change).2 (other.attempt change').2 := by
  match change, change', hchange with
  | .ok changed, .ok changed', hagree => exact ⟨rfl, hagree⟩
  | .error fault, .error _, rfl => exact ⟨rfl, h⟩

/-- An action on a file has one answer on volumes that agree on its way, and they agree
afterwards. -/
lemma AgreeOn.perform (h : AgreeOn region volume other) (hcovers : Covers region other path)
    (habove : region (other.landing path).dropLast) {action : StorageAction}
    (haction : action.IsOn path) :
    (Storage.perform action volume).1 = (Storage.perform action other).1 ∧
      AgreeOn region (Storage.perform action volume).2 (Storage.perform action other).2 := by
  cases action with
  | makeDirectories target => exact haction.elim
  | remove target =>
      obtain rfl : target = path := haction
      exact attempt_of_sameChange h (h.remove hcovers)
  | create target =>
      obtain rfl : target = path := haction
      exact attempt_of_sameChange h (h.replace hcovers habove [])
  | writeAt target offset bytes =>
      obtain rfl : target = path := haction
      exact attempt_of_sameChange h (h.writeAt hcovers offset bytes)
  | replace target bytes =>
      obtain rfl : target = path := haction
      exact attempt_of_sameChange h (h.replace hcovers habove bytes)

/-- The same of stores on which the same actions fail. -/
lemma AgreeOn.perform_trial {trial trial' : Trial} (h : AgreeOn region trial.volume trial'.volume)
    (hfaults : trial.faults = trial'.faults) (hcovers : Covers region trial'.volume path)
    (habove : region (trial'.volume.landing path).dropLast) {action : StorageAction}
    (haction : action.IsOn path) :
    (Storage.perform action trial).1 = (Storage.perform action trial').1 ∧
      (Storage.perform action trial).2.faults = (Storage.perform action trial').2.faults ∧
      AgreeOn region (Storage.perform action trial).2.volume
        (Storage.perform action trial').2.volume := by
  obtain ⟨volume, faults, past⟩ := trial
  obtain ⟨volume', _, past'⟩ := trial'
  obtain rfl := hfaults
  obtain ⟨hanswer, hagree⟩ := h.perform hcovers habove haction
  match faults with
  | some fault :: faults => exact ⟨rfl, rfl, h⟩
  | none :: faults => exact ⟨hanswer, rfl, hagree⟩
  | [] => exact ⟨hanswer, rfl, hagree⟩

end Volume

/-- An action on a file changes nothing, or what is at the end of the path. -/
lemma Watched.writes_of_isOn {δ : Type} [Storage δ] [Watched δ] {path : String}
    {action : StorageAction} (haction : action.IsOn path) (storage : δ) :
    shown (Storage.perform action storage).2 = shown storage ∨
      ∃ node, node ≠ some .directory ∧
        (shown storage).Writes path node (shown (Storage.perform action storage).2) := by
  cases action with
  | makeDirectories target => exact haction.elim
  | remove target =>
      obtain rfl : target = path := haction
      rcases perform_remove target storage with ⟨-, hwrites⟩ | ⟨-, -, hsame⟩
      · exact .inr ⟨_, by simp, hwrites⟩
      · exact .inl hsame
  | create target =>
      obtain rfl : target = path := haction
      rcases perform_create target storage with ⟨-, hwrites⟩ | ⟨-, -, hsame⟩
      · exact .inr ⟨_, by simp, hwrites⟩
      · exact .inl hsame
  | writeAt target offset bytes =>
      obtain rfl : target = path := haction
      rcases perform_writeAt target offset bytes storage with
        ⟨-, content, -, hwrites⟩ | ⟨-, -, hsame⟩
      · exact .inr ⟨_, by simp, hwrites⟩
      · exact .inl hsame
  | replace target bytes =>
      obtain rfl : target = path := haction
      rcases perform_replace target bytes storage with ⟨-, hwrites⟩ | ⟨-, -, hsame⟩
      · exact .inr ⟨_, by simp, hwrites⟩
      · exact .inl hsame

end JarFacts
