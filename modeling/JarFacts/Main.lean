import JarFacts.Command.Run
import Std.Time.DateTime.Timestamp

/-!
# The command line

What stands between commands and the machine: an image of the part of the disk that a command can
see, the environment and the clock go in, and what the command did to the image is done to the disk.
-/

namespace JarFacts.CommandLine

/-- The point in time that it is. -/
def now : IO Instant := do
  let nanos := (← Std.Time.Timestamp.now).toNanosecondsSinceUnixEpoch.val
  let seconds := nanos / 1000000000
  return ⟨seconds / 86400, (seconds % 86400).toNat, (nanos % 1000000000).toNat⟩

/-- The environment, as far as it matters. -/
def environment : IO Environment := do
  let names :=
    ["CLASSMINE_OUTPUT_DIR", "CLASSMINE_LOG_LEVEL", "CLASSMINE_THREADS", "CLASSMINE_SKIP_META_INF",
    "XDG_CONFIG_HOME", "HOME"]
  let values ← names.mapM fun name => return (name, ← IO.getEnv name)
  return fun name => (values.lookup name).join

/-- The place a path leads to from a directory, if no link is on the way. -/
def placeFrom (directory : List String) (path : String) : List String :=
  (Path.segments path).foldl (fun place segment =>
    if segment = "" ∨ segment = "." then place
    else if segment = ".." then place.dropLast
    else place ++ [segment]) (if Path.isAbsolute path then [] else directory)

/-! ## The image of the disk -/

/-- Adds what stands at a path to the image, with everything below it if that is wanted.  Files have
their content in the image where that is needed.  Links below the path are left out. -/
partial def add (needed : String → Bool) (deep : Bool) (image : Volume) (path : String) :
    IO Volume := do
  let disk := (← IO.currentDir) / path
  let place := placeFrom image.workingDirectory path
  if ← disk.isDir then
    let mut image := if place = [] then image else image.plant place .directory
    if deep then
      for entry in ← disk.readDir do
        if (← entry.path.symlinkMetadata).type != .symlink then
          image ← add needed deep image (Path.join path entry.fileName)
    return image
  else if ← disk.pathExists then
    let bytes ← if needed path then pure (← IO.FS.readBinFile disk).toList else pure []
    return image.plant place (.file bytes)
  else return image

/-- A path and all above it. -/
def ancestors : Nat → String → List String
  | 0, _ => []
  | levels + 1, path =>
    match Path.parent? path with
    | some parent => path :: ancestors levels parent
    | none => [path]

/-- The image that an extraction works on: configuration files, the archives, and what is in their
output directories. -/
def extractionImage (settings : Environment) (configFile : Option String)
    (options : Command.ExtractOptions) :
    IO Volume := do
  let directory := placeFrom [] (toString (← IO.currentDir))
  let empty : Volume := Volume.plant ⟨directory, []⟩ directory .directory
  let configFiles := Config.projectFile ::
    (configFile.toList ++ ((Config.userDirectory? settings).map Config.userFile).toList)
  let image ← configFiles.foldlM (add (fun _ => true) false) empty
  match Command.configure settings image configFile options with
  | .error _ => return image
  | .ok config =>
    let needed := fun path => options.paths.contains path || config.extraction.isJarPath path
    let image ← options.paths.foldlM (add needed true) image
    match Command.findJars config.extraction image options.paths with
    | .error _ => return image
    | .ok jars =>
      let directories := OutputDirectory.ofJars (Command.outputRoot config options) jars
      let above := directories.flatMap fun path => (ancestors path.length path).drop 1
      let image ← above.foldlM (add (fun _ => false) false) image
      let known := fun path => (image.find path).isOk
      (directories.filter fun path => !known path).foldlM (add (fun _ => false) true) image

/-! ## Doing it -/

/-- Does to the disk what has been done to its image.  Files get the content they have in the
end. -/
def replay (journal : Journal) : IO Unit := do
  let directory ← IO.currentDir
  let mut written : List String := []
  for action in journal.actions do
    match action with
    | .makeDirectories path => IO.FS.createDirAll (directory / path)
    | .remove path => IO.FS.removeFile (directory / path)
    | .create path | .writeAt path _ _ | .replace path _ =>
      if !written.contains path then
        written := path :: written
        match journal.volume.read path with
        | .ok bytes => IO.FS.writeBinFile (directory / path) ⟨bytes.toArray⟩
        | .error fault => throw (IO.userError (path ++ ": " ++ fault.message))

/-- Runs a command on the machine. -/
def run (arguments : List String) : IO UInt32 := do
  let settings ← environment
  let moment ← now
  let image ← match Command.parse? arguments with
    | some (.extract configFile options) => extractionImage settings configFile options
    | _ => pure ⟨[], []⟩
  let (report, journal) := Command.run settings ⟨moment, moment⟩ arguments (.start image)
  replay journal
  for event in report.log do
    if event.isShown report.level then IO.eprint event.line
  IO.print report.output
  for failure in report.failures do
    IO.eprint (Command.Report.failureLine failure)
  match report.error with
  | some error => IO.eprintln ("Error: " ++ error.message)
  | none => pure ()
  return UInt32.ofNat report.exitCode

end JarFacts.CommandLine

/-- Runs the command that the arguments ask for. -/
def main (arguments : List String) : IO UInt32 :=
  JarFacts.CommandLine.run arguments
