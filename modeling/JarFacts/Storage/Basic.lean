import JarFacts.Bytes.Basic
import JarFacts.Storage.Fault

/-!
# Storage

What the extraction needs of a file store.  The store changes by single actions; each is done as a
whole, or it fails.  Everything that writes files is stated for an arbitrary store, so that it can
be followed action by action, and with a store that fails.
-/

namespace JarFacts

/-- A change to a file store. -/
inductive StorageAction where
  /-- Makes a directory with everything above it; one that is there already will do. -/
  | makeDirectories (path : String)
  /-- Removes a file. -/
  | remove (path : String)
  /-- Makes a file empty, and makes it first if need be. -/
  | create (path : String)
  /-- Writes into a file from an offset on. -/
  | writeAt (path : String) (offset : Nat) (bytes : Bytes)
  /-- Makes the bytes the whole content of a file. -/
  | replace (path : String) (bytes : Bytes)
  deriving DecidableEq

/-- A file store. -/
class Storage (δ : Type) where
  /-- Is there a file or directory at the path? -/
  present : String → δ → Bool
  /-- The content of a file. -/
  read : String → δ → Except StorageFault Bytes
  /-- Performs an action. -/
  perform : StorageAction → δ → Except StorageFault Unit × δ

end JarFacts
