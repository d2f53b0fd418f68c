import JarFacts.Config.Basic
import JarFacts.Fact.Json
import JarFacts.Json.Pieces
import JarFacts.Log
import JarFacts.Sink.Basic
import JarFacts.Storage.Basic

/-!
# Facts as lines of JSON

A sink that writes to a directory: one file for each family of facts, a fact on each line, and at
the end a *marker*, the summary in a file of its own.  The marker says that the other files are
complete.  So an old one is removed before anything else in the directory changes, and a new one is
written when nothing is left to be written to the other files.

A line comes in small pieces, which are collected and written together.  What is collected is
written when the next piece would not fit, when the sink is closed by a summary, and when it is
given up.  Two families may go to one file; then each writes behind what it has written itself.
-/

namespace JarFacts

/-! ## Channels -/

/-- A file that lines go to. -/
structure LineChannel where
  path : String
  /-- How many bytes have been written to the file. -/
  written : Nat
  /-- What has been collected and not yet written. -/
  pending : Array UInt8
  deriving DecidableEq

namespace LineChannel

variable {δ : Type} [Storage δ]

/-- How many bytes are collected. -/
def capacity : Nat := 8192

/-- Reports a failure together with the path. -/
def located {α : Type} (path : String) : Except StorageFault α → Except SinkError α
  | .ok value => .ok value
  | .error fault => .error (.io path fault)

/-- Opens a channel to a file, which is empty then. -/
def create (path : String) (storage : δ) : Except SinkError LineChannel × δ :=
  let (result, storage) := Storage.perform (.create path) storage
  ((located path result).map fun _ => ⟨path, 0, #[]⟩, storage)

/-- Writes bytes behind those that have been written. -/
def writeOut (bytes : Bytes) (channel : LineChannel) (storage : δ) :
    Except SinkError Unit × LineChannel × δ :=
  let (result, storage) := Storage.perform (.writeAt channel.path channel.written bytes) storage
  match result with
  | .ok () => (.ok (), { channel with written := channel.written + bytes.length }, storage)
  | .error fault => (.error (.io channel.path fault), channel, storage)

/-- Writes what has been collected. -/
def flush (channel : LineChannel) (storage : δ) : Except SinkError Unit × LineChannel × δ :=
  if channel.pending.isEmpty then (.ok (), channel, storage)
  else
    match channel.writeOut channel.pending.toList storage with
    | (.ok (), channel, storage) => (.ok (), { channel with pending := #[] }, storage)
    | failed => failed

/-- Makes room for so many bytes: if they do not fit, what was collected before is written. -/
def makeRoom (count : Nat) (channel : LineChannel) (storage : δ) :
    Except SinkError Unit × LineChannel × δ :=
  if channel.pending.size + count ≤ capacity then (.ok (), channel, storage)
  else channel.flush storage

/-- Collects a piece.  One that would fill everything is written instead. -/
def append (bytes : Bytes) (channel : LineChannel) (storage : δ) :
    Except SinkError Unit × LineChannel × δ :=
  match channel.makeRoom bytes.length storage with
  | (.ok (), channel, storage) =>
    if bytes.length < capacity
      then (.ok (), { channel with pending := channel.pending ++ bytes }, storage)
    else channel.writeOut bytes storage
  | failed => failed

/-- Collects pieces, up to the first failure. -/
def appendAll (pieces : List Bytes) (channel : LineChannel) (storage : δ) :
    Except SinkError Unit × LineChannel × δ :=
  match pieces with
  | [] => (.ok (), channel, storage)
  | piece :: pieces =>
    match channel.append piece storage with
    | (.ok (), channel, storage) => channel.appendAll pieces storage
    | failed => failed

end LineChannel

/-! ## The sink -/

/-- A sink that writes lines of JSON. -/
structure LinesSink where
  directory : String
  /-- The path of the marker. -/
  marker : String
  entities : LineChannel
  relations : LineChannel
  files : LineChannel
  params : LineChannel
  /-- Has the sink been closed by a summary? -/
  finished : Bool
  deriving DecidableEq

/-- The line of a fact in pieces: the fact in JSON, and a line break. -/
def Fact.linePieces (fact : Fact) : List Bytes :=
  (fact.toJson.pieces ++ [['\n']]).map Utf8.encode

/-- The content of a marker. -/
def WalkSummary.marker (summary : WalkSummary) : Bytes :=
  Utf8.encodeString summary.toJson.pretty

namespace LinesSink

variable {δ : Type} [Storage δ]

/-- A step that works on a store and may fail. -/
abbrev Step (δ : Type) := ExceptT SinkError (StateM δ)

/-- Performs an action; a failure is reported with the path. -/
def perform (path : String) (action : StorageAction) : Step δ Unit := fun storage =>
  let (result, storage) := Storage.perform action storage
  (LineChannel.located path result, storage)

/-- Removes the marker of an earlier run, which would make this one look complete. -/
def removeMarker (marker : String) : Step δ Unit := do
  if Storage.present marker (← get) then perform marker (.remove marker)

/-- Opens a sink: the directory is made if need be, an old marker removed, and the files of all
families are empty then. -/
def create (directory : String) (config : OutputConfig) : Step δ LinesSink := do
  perform directory (.makeDirectories directory)
  let marker := Path.join directory config.markerFile
  removeMarker marker
  let channel (name : String) : Step δ LineChannel := LineChannel.create (Path.join directory name)
  let entities ← channel config.entitiesFile
  let relations ← channel config.relationsFile
  let files ← channel config.filesFile
  let params ← channel config.variablesFile
  return ⟨directory, marker, entities, relations, files, params, false⟩

/-- The channel of a fact's family. -/
def channel (sink : LinesSink) : Fact → LineChannel
  | .entity _ => sink.entities
  | .relation _ => sink.relations
  | .file _ => sink.files
  | .param _ => sink.params

/-- The sink with another channel for a fact's family. -/
def setChannel (sink : LinesSink) (channel : LineChannel) : Fact → LinesSink
  | .entity _ => { sink with entities := channel }
  | .relation _ => { sink with relations := channel }
  | .file _ => { sink with files := channel }
  | .param _ => { sink with params := channel }

/-- Writes what all channels have collected, up to the first failure. -/
def flush (sink : LinesSink) (storage : δ) : Except SinkError Unit × LinesSink × δ :=
  match sink.entities.flush storage with
  | (.error error, entities, storage) => (.error error, { sink with entities }, storage)
  | (.ok (), entities, storage) =>
  let sink := { sink with entities }
  match sink.relations.flush storage with
  | (.error error, relations, storage) => (.error error, { sink with relations }, storage)
  | (.ok (), relations, storage) =>
  let sink := { sink with relations }
  match sink.files.flush storage with
  | (.error error, files, storage) => (.error error, { sink with files }, storage)
  | (.ok (), files, storage) =>
  let sink := { sink with files }
  match sink.params.flush storage with
  | (.error error, params, storage) => (.error error, { sink with params }, storage)
  | (.ok (), params, storage) => (.ok (), { sink with params }, storage)

/-- Gives the sink up.  What the channels have collected is written; failures remain unnoticed. -/
def close (sink : LinesSink) (storage : δ) : δ :=
  [sink.entities, sink.relations, sink.files, sink.params].foldl
    (fun storage channel => (channel.flush storage).2.2) storage

end LinesSink

/-- An open sink together with the store it writes to, and what is worth telling. -/
structure LinesOutput (δ : Type) where
  sink : LinesSink
  storage : δ
  log : Array LogEvent

namespace LinesOutput

variable {δ : Type} [Storage δ]

/-- Takes a fact, unless the sink is closed. -/
def write (fact : Fact) (output : LinesOutput δ) : Except SinkError Unit × LinesOutput δ :=
  if output.sink.finished then (.error .finished, output)
  else
    let (result, channel, storage) :=
      (output.sink.channel fact).appendAll fact.linePieces output.storage
    (result, { output with sink := output.sink.setChannel channel fact, storage })

/-- Closes the sink: everything collected is written, and then the marker. -/
def finish (summary : WalkSummary) (output : LinesOutput δ) :
    Except SinkError Unit × LinesOutput δ :=
  if output.sink.finished then (.error .finished, output)
  else
    match output.sink.flush output.storage with
    | (.error error, sink, storage) => (.error error, { output with sink, storage })
    | (.ok (), sink, storage) =>
      let (result, storage) := Storage.perform (.replace sink.marker summary.marker) storage
      match result with
      | .error fault => (.error (.io sink.marker fault), { output with sink, storage })
      | .ok () =>
        (.ok (), ⟨{ sink with finished := true }, storage,
          output.log.push (.outputFinished sink.directory)⟩)

end LinesOutput

instance {δ : Type} [Storage δ] : FactSink (LinesOutput δ) where
  write := LinesOutput.write
  finish := LinesOutput.finish

end JarFacts
