import JarFacts.Bytes.Utf8
import JarFacts.Storage.Basic
import JarFacts.Storage.Path

/-!
# Volumes

A tree of directories and files, and a working directory that relative paths start from.  A path is
followed segment by segment: whatever stands in front of a slash has to be a directory that exists,
also in front of a dot or two dots.
-/

namespace JarFacts

/-- What stands at a place. -/
inductive Node where
  | directory
  | file (bytes : Bytes)
  deriving DecidableEq

/-- A tree of files.  Places are lists of names from the root, which itself is not listed. -/
structure Volume where
  workingDirectory : List String
  entries : List (List String × Node)
  deriving DecidableEq

namespace Volume

/-- What stands at a place. -/
def node? (volume : Volume) : List String → Option Node
  | [] => some .directory
  | place => volume.entries.lookup place

/-- The volume with something else at a place. -/
def put (volume : Volume) (place : List String) (node : Node) : Volume :=
  if (volume.entries.lookup place).isSome then
    { volume with entries := volume.entries.map fun entry =>
      if entry.1 = place then (place, node) else entry }
  else { volume with entries := volume.entries ++ [(place, node)] }

/-- The volume without what stands at a place. -/
def erase (volume : Volume) (place : List String) : Volume :=
  { volume with entries := volume.entries.filter fun entry => entry.1 ≠ place }

/-- The volume with something at a place, and directories above it where there is nothing yet. -/
def plant (volume : Volume) (place : List String) (node : Node) : Volume :=
  let above := (List.range place.length).map fun length => place.take length
  let volume := above.foldl (fun volume directory =>
    if (volume.node? directory).isSome then volume else volume.put directory .directory) volume
  volume.put place node

/-- The names in a directory. -/
def children (volume : Volume) (place : List String) : List String :=
  volume.entries.filterMap fun entry =>
    if entry.1 ≠ [] ∧ entry.1.dropLast = place then entry.1.getLast? else none

/-! ## Following paths -/

/-- The longest name in bytes. -/
def maxNameLength : Nat := 255

/-- Can something have this name? -/
def isName (segment : String) : Bool :=
  Utf8.byteLength segment.toList ≤ maxNameLength

/-- The longest path in bytes. -/
def maxPathLength : Nat := 4095

/-- Can a path lead anywhere at all? -/
def isPath (path : String) : Bool :=
  !path.toList.contains (Char.ofNat 0) && Utf8.byteLength path.toList ≤ maxPathLength

/-- Follows segments from a place.  Every place that is left has to be a directory. -/
def follow (volume : Volume) : List String → List String → Except StorageFault (List String)
  | place, [] => .ok place
  | place, segment :: rest =>
    match volume.node? place with
    | none => .error .notFound
    | some (.file _) => .error .notADirectory
    | some .directory =>
      if segment = "" ∨ segment = "." then follow volume place rest
      else if segment = ".." then follow volume place.dropLast rest
      else if isName segment then follow volume (place ++ [segment]) rest
      else .error .refused

/-- The place a path leads to; there need not be anything. -/
def place (volume : Volume) (path : String) : Except StorageFault (List String) :=
  if path = "" then .error .notFound
  else if !isPath path then .error .refused
  else volume.follow (if Path.isAbsolute path then [] else volume.workingDirectory)
    (Path.segments path)

/-- What a path leads to. -/
def find (volume : Volume) (path : String) : Except StorageFault Node := do
  let place ← volume.place path
  match volume.node? place with
  | some node => .ok node
  | none => .error .notFound

/-- Does the path lead to something? -/
def contains (volume : Volume) (path : String) : Bool :=
  (volume.find path).isOk

/-- Does the path lead to a directory? -/
def isDirectory (volume : Volume) (path : String) : Bool :=
  match volume.find path with
  | .ok .directory => true
  | _ => false

/-- Does the path lead to a file? -/
def isFile (volume : Volume) (path : String) : Bool :=
  match volume.find path with
  | .ok (.file _) => true
  | _ => false

/-- The content of a file. -/
def read (volume : Volume) (path : String) : Except StorageFault Bytes := do
  match ← volume.find path with
  | .file bytes => .ok bytes
  | .directory => .error .isADirectory

/-! ## Changes -/

/-- Makes a directory.  Slashes at the end of its path do not matter. -/
def makeDirectory (volume : Volume) (path : String) : Except StorageFault Volume := do
  if !isPath path then throw .refused
  let trimmed := String.ofList (path.toList.reverse.dropWhile (· = '/')).reverse
  let place ← volume.place (if trimmed = "" then path else trimmed)
  match volume.node? place with
  | some _ => .error .alreadyExists
  | none => .ok (volume.put place .directory)

/-- Makes a directory with everything above it.  The recursion goes from a path to its parent, which
is shorter, so the number of characters bounds it. -/
def makeDirectoriesWithin : Nat → String → Volume → Except StorageFault Unit × Volume
  | 0, _, volume => (.error .notFound, volume)
  | fuel + 1, path, volume =>
    if path = "" then (.ok (), volume)
    else
      match volume.makeDirectory path with
      | .ok made => (.ok (), made)
      | .error .notFound =>
        match Path.parent? path with
        | none => (.error .notFound, volume)
        | some parent =>
          match makeDirectoriesWithin fuel parent volume with
          | (.error fault, volume) => (.error fault, volume)
          | (.ok (), volume) =>
            match volume.makeDirectory path with
            | .ok made => (.ok (), made)
            | .error fault => (if volume.isDirectory path then .ok () else .error fault, volume)
      | .error fault => (if volume.isDirectory path then .ok () else .error fault, volume)

/-- Makes a directory with everything above it; one that is there already will do. -/
def makeDirectories (path : String) (volume : Volume) : Except StorageFault Unit × Volume :=
  makeDirectoriesWithin (path.length + 1) path volume

/-- Removes a file. -/
def remove (volume : Volume) (path : String) : Except StorageFault Volume := do
  let place ← volume.place path
  match volume.node? place with
  | some (.file _) => .ok (volume.erase place)
  | some .directory => .error .isADirectory
  | none => .error .notFound

/-- Gives a file a content; it need not exist yet, but its directory must. -/
def replace (volume : Volume) (path : String) (bytes : Bytes) : Except StorageFault Volume := do
  let place ← volume.place path
  match volume.node? place, volume.node? place.dropLast with
  | some .directory, _ => .error .isADirectory
  | some (.file _), _ => .ok (volume.put place (.file bytes))
  | none, some .directory => .ok (volume.put place (.file bytes))
  | none, _ => .error .notFound

/-- `bytes` over the content of a file from an offset on; a gap is filled with zeros. -/
def overlay (content : Bytes) (offset : Nat) (bytes : Bytes) : Bytes :=
  content.take offset ++ List.replicate (offset - content.length) 0 ++ bytes ++
    content.drop (offset + bytes.length)

/-- Writes into a file that exists. -/
def writeAt (volume : Volume) (path : String) (offset : Nat) (bytes : Bytes) :
    Except StorageFault Volume := do
  let place ← volume.place path
  match volume.node? place with
  | some (.file content) => .ok (volume.put place (.file (overlay content offset bytes)))
  | some .directory => .error .isADirectory
  | none => .error .notFound

/-- A change that is done as a whole or not at all. -/
def attempt (volume : Volume) : Except StorageFault Volume → Except StorageFault Unit × Volume
  | .ok changed => (.ok (), changed)
  | .error fault => (.error fault, volume)

end Volume

instance : Storage Volume where
  present path volume := volume.contains path
  read path volume := volume.read path
  perform action volume :=
    match action with
    | .makeDirectories path => volume.makeDirectories path
    | .remove path => volume.attempt (volume.remove path)
    | .create path => volume.attempt (volume.replace path [])
    | .writeAt path offset bytes => volume.attempt (volume.writeAt path offset bytes)
    | .replace path bytes => volume.attempt (volume.replace path bytes)

end JarFacts
