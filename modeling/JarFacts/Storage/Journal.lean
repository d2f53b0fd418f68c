import JarFacts.Storage.Volume

/-!
# Journals

A volume together with what has been done to it, so that the same can be done elsewhere.
-/

namespace JarFacts

/-- A volume, and the actions on it that succeeded, in order. -/
structure Journal where
  volume : Volume
  actions : Array StorageAction
  deriving DecidableEq

namespace Journal

/-- A volume that nothing has been done to. -/
def start (volume : Volume) : Journal := ⟨volume, #[]⟩

/-- Performs an action and notes it down if it succeeds. -/
def perform (action : StorageAction) (journal : Journal) : Except StorageFault Unit × Journal :=
  match Storage.perform action journal.volume with
  | (.ok (), volume) => (.ok (), ⟨volume, journal.actions.push action⟩)
  | (.error fault, volume) => (.error fault, { journal with volume })

end Journal

instance : Storage Journal where
  present path journal := journal.volume.contains path
  read path journal := journal.volume.read path
  perform := Journal.perform

end JarFacts
