import JarFacts.Config.Basic
import JarFacts.Storage.Volume

/-!
# Finding archives

A file that is named is taken whatever it is called.  In a directory, all files below it count that
are called like archives, except those below directories with an excluded name.  The directory
itself is never excluded.  A dash that is no file means the standard input, where there are no
files.
-/

namespace JarFacts.Discover

/-- The paths of the archives below a directory, which is `path` at `place`.  The number of entries
of the volume bounds how deep directories are nested. -/
def below (config : ExtractionConfig) (volume : Volume) : Nat → String → List String → List String
  | 0, _, _ => []
  | levels + 1, path, place =>
    (volume.children place).flatMap fun name =>
      let inner := Path.join path name
      match volume.node? (place ++ [name]) with
      | some .directory =>
        if config.excludeDirs.contains name || !Volume.isPath inner then []
        else below config volume levels inner (place ++ [name])
      | some (.file _) => if config.isJarPath inner then [inner] else []
      | none => []

/-- Does the path mean the standard input? -/
def isStandardInput (path : String) : Bool :=
  Path.same path "-"

/-- The paths of the archives that a path leads to, in order. -/
def jars (config : ExtractionConfig) (volume : Volume) (root : String) : List String :=
  match volume.find root, volume.place root with
  | .ok (.file _), _ => [root]
  | .ok .directory, .ok place =>
    if isStandardInput root then []
    else (below config volume (volume.entries.length + 1) root place).mergeSort
      fun a b => Path.le a b
  | _, _ => []

end JarFacts.Discover
