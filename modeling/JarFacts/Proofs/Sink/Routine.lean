import Mathlib.Tactic.Common
import JarFacts.Proofs.Sink.Output
import JarFacts.Proofs.Sink.Trace
import JarFacts.Proofs.Storage.Agreement
import JarFacts.Proofs.Storage.Routine

/-!
# Sinks of lines, step by step

What a sink of lines does to a store, as routines: the same work, cut at every point where the store
is asked for something. Each routine is tied to what it stands for by an equation that holds on
every store.  A sink asks for nothing but its own files (`LinesSink.permit`).
-/

namespace JarFacts

namespace Routine

variable {α β : Type}

/-- Asks for an action. -/
def act (action : StorageAction) : Routine (Except StorageFault Unit) :=
  .perform action .done

/-! ## Channels -/

namespace Channel

def create (path : String) : Routine (Except SinkError LineChannel) := do
  let result ← act (.create path)
  return (LineChannel.located path result).map fun _ => ⟨path, 0, #[]⟩

def writeOut (bytes : Bytes) (channel : LineChannel) :
    Routine (Except SinkError Unit × LineChannel) := do
  match ← act (.writeAt channel.path channel.written bytes) with
  | .ok () => return (.ok (), { channel with written := channel.written + bytes.length })
  | .error fault => return (.error (.io channel.path fault), channel)

def flush (channel : LineChannel) : Routine (Except SinkError Unit × LineChannel) :=
  if channel.pending.isEmpty then return (.ok (), channel)
  else do
    match ← writeOut channel.pending.toList channel with
    | (.ok (), channel) => return (.ok (), { channel with pending := #[] })
    | failed => return failed

def makeRoom (count : Nat) (channel : LineChannel) :
    Routine (Except SinkError Unit × LineChannel) :=
  if channel.pending.size + count ≤ LineChannel.capacity then return (.ok (), channel)
  else flush channel

def append (bytes : Bytes) (channel : LineChannel) :
    Routine (Except SinkError Unit × LineChannel) := do
  match ← makeRoom bytes.length channel with
  | (.ok (), channel) =>
    if bytes.length < LineChannel.capacity
      then return (.ok (), { channel with pending := channel.pending ++ bytes })
    else writeOut bytes channel
  | failed => return failed

def appendAll (pieces : List Bytes) (channel : LineChannel) :
    Routine (Except SinkError Unit × LineChannel) :=
  match pieces with
  | [] => return (.ok (), channel)
  | piece :: pieces => do
    match ← append piece channel with
    | (.ok (), channel) => appendAll pieces channel
    | failed => return failed

end Channel

/-! ## Sinks -/

namespace Sink

/-- Work that may fail. -/
abbrev Step := ExceptT SinkError Routine

def perform (path : String) (action : StorageAction) : Step Unit :=
  ExceptT.mk do return LineChannel.located path (← act action)

def removeMarker (marker : String) : Step Unit := do
  if ← ExceptT.lift (.present marker .done) then perform marker (.remove marker)

/-- What is left to do for a sink when its directory is there. -/
def openFiles (directory : String) (config : OutputConfig) : Step LinesSink := do
  let marker := Path.join directory config.markerFile
  removeMarker marker
  let channel (name : String) : Step LineChannel :=
    ExceptT.mk (Channel.create (Path.join directory name))
  let entities ← channel config.entitiesFile
  let relations ← channel config.relationsFile
  let files ← channel config.filesFile
  let params ← channel config.variablesFile
  return ⟨directory, marker, entities, relations, files, params, false⟩

def create (directory : String) (config : OutputConfig) : Step LinesSink := do
  perform directory (.makeDirectories directory)
  openFiles directory config

def flushAll : List Family → LinesSink → Routine (Except SinkError Unit × LinesSink)
  | [], sink => return (.ok (), sink)
  | family :: families, sink => do
    match ← Channel.flush (sink.of family) with
    | (.error error, channel) => return (.error error, sink.put family channel)
    | (.ok (), channel) => flushAll families (sink.put family channel)

def flush : LinesSink → Routine (Except SinkError Unit × LinesSink) :=
  flushAll [.entities, .relations, .files, .params]

def closeAll (sink : LinesSink) : List Family → Routine Unit
  | [] => return ()
  | family :: families => do
    let _ ← Channel.flush (sink.of family)
    closeAll sink families

def close (sink : LinesSink) : Routine Unit :=
  closeAll sink [.entities, .relations, .files, .params]

def write (fact : Fact) (sink : LinesSink) : Routine (Except SinkError Unit × LinesSink) :=
  if sink.finished then return (.error .finished, sink)
  else do
    let (result, channel) ← Channel.appendAll fact.linePieces (sink.channel fact)
    return (result, sink.setChannel channel fact)

def finish (summary : WalkSummary) (sink : LinesSink) :
    Routine (Except SinkError Unit × LinesSink) :=
  if sink.finished then return (.error .finished, sink)
  else do
    match ← flush sink with
    | (.error error, sink) => return (.error error, sink)
    | (.ok (), sink) =>
      match ← act (.replace sink.marker summary.marker) with
      | .error fault => return (.error (.io sink.marker fault), sink)
      | .ok () => return (.ok (), { sink with finished := true })

def take : SinkWrite → LinesSink → Routine (Except SinkError Unit × LinesSink)
  | .fact fact => write fact
  | .finish summary => finish summary

/-- Gives a sink writes one after the other, up to the first that it does not take. -/
def offer : List SinkWrite → LinesSink → Routine (Except SinkError Unit × LinesSink)
  | [], sink => return (.ok (), sink)
  | write :: writes, sink => do
    match ← take write sink with
    | (.ok (), sink) => offer writes sink
    | (.error error, sink) => return (.error error, sink)

end Sink

/-! ## On a store -/

section
variable {δ : Type} [Storage δ]

/-- Runs a routine that comes back with two things. -/
def runPair (routine : Routine (α × β)) (storage : δ) : α × β × δ :=
  ((routine.run storage).1.1, (routine.run storage).1.2, (routine.run storage).2)

/-- The second routine decides by what the first one came back with. -/
lemma runPair_bind {γ : Type} (routine : Routine γ) (next : γ → Routine (α × β)) (storage : δ) :
    (routine >>= next).runPair storage = (next (routine.run storage).1).runPair
      (routine.run storage).2 := by
  rw [runPair, run_bind]
  rfl

namespace Channel

lemma runPair_writeOut (bytes : Bytes) (channel : LineChannel) (storage : δ) :
    (writeOut bytes channel).runPair storage = channel.writeOut bytes storage := by
  rw [writeOut, runPair_bind, act, LineChannel.writeOut]
  dsimp only [run]
  rcases Storage.perform (.writeAt channel.path channel.written bytes) storage with
    ⟨_ | _, storage'⟩ <;> rfl

lemma runPair_flush (channel : LineChannel) (storage : δ) :
    (flush channel).runPair storage = channel.flush storage := by
  rw [flush, LineChannel.flush, ← runPair_writeOut]
  split
  · rfl
  · rw [runPair_bind]
    unfold runPair
    rcases (writeOut channel.pending.toList channel).run storage with
      ⟨⟨_ | _, channel'⟩, storage'⟩ <;> rfl

lemma runPair_makeRoom (count : Nat) (channel : LineChannel) (storage : δ) :
    (makeRoom count channel).runPair storage = channel.makeRoom count storage := by
  rw [makeRoom, LineChannel.makeRoom, ← runPair_flush]
  split <;> rfl

lemma runPair_append (bytes : Bytes) (channel : LineChannel) (storage : δ) :
    (append bytes channel).runPair storage = channel.append bytes storage := by
  rw [append, LineChannel.append, runPair_bind, ← runPair_makeRoom]
  unfold runPair
  rcases (makeRoom bytes.length channel).run storage with ⟨⟨_ | _, channel'⟩, storage'⟩
  · rfl
  · dsimp only
    rw [← runPair_writeOut]
    split <;> rfl

lemma runPair_appendAll (pieces : List Bytes) (channel : LineChannel) (storage : δ) :
    (appendAll pieces channel).runPair storage = channel.appendAll pieces storage := by
  induction pieces generalizing channel storage with
  | nil => rfl
  | cons piece pieces ih =>
      rw [appendAll, LineChannel.appendAll, runPair_bind, ← runPair_append]
      unfold runPair
      rcases (append piece channel).run storage with ⟨⟨_ | _, channel'⟩, storage'⟩
      · rfl
      · exact ih channel' storage'

end Channel

lemma run_exceptBind {ε : Type} (first : ExceptT ε Routine α) (next : α → ExceptT ε Routine β)
    (storage : δ) :
    (first >>= next).run.run storage =
      match first.run.run storage with
      | (.ok value, storage) => (next value).run.run storage
      | (.error error, storage) => (.error error, storage) := by
  rw [ExceptT.run_bind, run_bind]
  rcases first.run.run storage with ⟨_ | _, storage'⟩ <;> rfl

namespace Sink

/-- The step as a routine does the same on every store. -/
def Tells (routine : Step α) (step : (δ : Type) → [Storage δ] → LinesSink.Step δ α) : Prop :=
  ∀ (δ : Type) [Storage δ] (storage : δ), routine.run.run storage = (step δ).run.run storage

lemma Tells.bind {routine : Step α} {step : (δ : Type) → [Storage δ] → LinesSink.Step δ α}
    {next : α → Step β}
    {more : α → (δ : Type) → [Storage δ] → LinesSink.Step δ β} (h : Tells routine step)
    (hnext : ∀ value, Tells (next value) (more value)) :
    Tells (routine >>= next) fun δ _ => step δ >>= fun value => more value δ := by
  intro δ _ storage
  rw [run_exceptBind, JarFacts.run_bind, h δ storage]
  rcases (step δ).run.run storage with ⟨_ | value, storage'⟩
  · rfl
  · exact hnext value δ storage'

lemma tells_pure (value : α) : Tells (pure value) fun _ => pure value :=
  fun _ _ _ => rfl

lemma tells_perform (path : String) (action : StorageAction) :
    Tells (perform path action) fun _ => LinesSink.perform path action :=
  fun _ _ _ => rfl

lemma tells_removeMarker (marker : String) :
    Tells (removeMarker marker) fun _ => LinesSink.removeMarker marker := by
  intro δ _ storage
  have hlook : (ExceptT.lift (.present marker .done) : Step Bool).run.run storage =
      (.ok (Storage.present marker storage), storage) := rfl
  dsimp only [LinesSink.removeMarker]
  rw [removeMarker, run_exceptBind, run_get_bind, hlook]
  dsimp only
  split
  · exact tells_perform marker (.remove marker) δ storage
  · rfl

lemma tells_channel (path : String) :
    Tells (ExceptT.mk (Channel.create path)) fun _ => LineChannel.create path :=
  fun _ _ _ => rfl

lemma tells_create (directory : String) (config : OutputConfig) :
    Tells (create directory config) fun _ => LinesSink.create directory config := by
  refine (tells_perform directory (.makeDirectories directory)).bind fun _ => ?_
  refine (tells_removeMarker _).bind fun _ => ?_
  refine (tells_channel _).bind fun entities => ?_
  refine (tells_channel _).bind fun relations => ?_
  refine (tells_channel _).bind fun files => ?_
  exact (tells_channel _).bind fun params => tells_pure _

lemma runPair_flushAll (families : List Family) (sink : LinesSink) (storage : δ) :
    (flushAll families sink).runPair storage = LinesSink.flushAll families sink storage := by
  induction families generalizing sink storage with
  | nil => rfl
  | cons family families ih =>
      rw [flushAll, LinesSink.flushAll, runPair_bind, ← Channel.runPair_flush]
      unfold runPair
      rcases (Channel.flush (sink.of family)).run storage with ⟨⟨_ | _, channel⟩, storage'⟩
      · rfl
      · exact ih (sink.put family channel) storage'

lemma runPair_flush (sink : LinesSink) (storage : δ) :
    (flush sink).runPair storage = sink.flush storage := by
  rw [flush, LinesSink.flush_eq_flushAll, runPair_flushAll]

lemma run_closeAll (sink : LinesSink) (families : List Family) (storage : δ) :
    ((closeAll sink families).run storage).2 =
      (families.map sink.of).foldl
        (fun storage channel => (channel.flush storage).2.2) storage := by
  induction families generalizing storage with
  | nil => rfl
  | cons family families ih =>
      rw [closeAll, run_bind, List.map_cons, List.foldl_cons, ← Channel.runPair_flush]
      exact ih _

lemma run_close (sink : LinesSink) (storage : δ) :
    ((close sink).run storage).2 = sink.close storage :=
  run_closeAll sink _ storage

/-- A sink that is given something, on a store. -/
lemma runPair_take (write : SinkWrite) (output : LinesOutput δ) :
    (take write output.sink).runPair output.storage =
      ((FactSink.take write output).1, (FactSink.take write output).2.sink,
        (FactSink.take write output).2.storage) := by
  cases write with
  | fact fact =>
      have htake : FactSink.take (.fact fact) output = output.write fact := rfl
      rw [htake, take, Sink.write, LinesOutput.write]
      split
      · rfl
      · rw [runPair_bind, ← Channel.runPair_appendAll]
        rfl
  | finish summary =>
      have htake : FactSink.take (.finish summary) output = output.finish summary := rfl
      rw [htake, take, Sink.finish, LinesOutput.finish]
      split
      · rfl
      · rw [runPair_bind, ← runPair_flush]
        unfold runPair
        rcases (flush output.sink).run output.storage with ⟨⟨_ | _, sink⟩, storage⟩
        · rfl
        · dsimp only
          rw [run_bind, act]
          dsimp only [run]
          rcases Storage.perform (.replace sink.marker summary.marker) storage with
            ⟨_ | _, storage'⟩ <;> rfl

lemma runPair_offer (writes : List SinkWrite) (output : LinesOutput δ) (counts : FactCounts) :
    (offer writes output.sink).runPair output.storage =
      ((FactSink.offer writes output counts).1, (FactSink.offer writes output counts).2.1.sink,
        (FactSink.offer writes output counts).2.1.storage) := by
  induction writes generalizing output counts with
  | nil => rfl
  | cons write writes ih =>
      have htake := runPair_take write output
      rw [offer, FactSink.offer, runPair_bind]
      unfold runPair at htake
      rcases hrun : (take write output.sink).run output.storage with ⟨⟨answer, sink⟩, storage⟩
      rcases hout : FactSink.take write output with ⟨answer', output'⟩
      simp only [hrun, hout, Prod.mk.injEq] at htake
      obtain ⟨rfl, rfl, rfl⟩ := htake
      cases answer with
      | error error => rfl
      | ok taken => exact ih output' (counts.countWrite write)

end Sink

end

/-! ## What a sink asks for -/

/-- What may be asked for an archive when its directory is there: the archive itself, and the files
of the directory. -/
def jarPermit (jar directory : String) (config : OutputConfig) : Permit where
  present path := path = Path.join directory config.markerFile
  read path := path = jar
  perform action := ∃ name ∈ config.names, action.IsOn (Path.join directory name)

variable {permit : Permit} {jar directory : String} {config : OutputConfig}

lemma keeps_act {action : StorageAction} (h : permit.perform action) :
    (act action).Keeps permit fun _ => True :=
  ⟨h, fun _ => trivial⟩

namespace Channel

variable {channel : LineChannel}

/-- A channel writes to its own file and stays with it. -/
lemma keeps_writeOut (h : ∀ offset bytes, permit.perform (.writeAt channel.path offset bytes))
    (bytes : Bytes) :
    (writeOut bytes channel).Keeps permit fun result => result.2.path = channel.path := by
  refine (keeps_act (h _ _)).bind fun result _ => ?_
  cases result <;> exact rfl

lemma keeps_flush (h : ∀ offset bytes, permit.perform (.writeAt channel.path offset bytes)) :
    (flush channel).Keeps permit fun result => result.2.path = channel.path := by
  unfold flush
  split
  · exact rfl
  · refine (keeps_writeOut h _).bind fun result hresult => ?_
    rcases result with ⟨_ | _, channel'⟩ <;> exact hresult

lemma keeps_append (h : ∀ offset bytes, permit.perform (.writeAt channel.path offset bytes))
    (bytes : Bytes) :
    (append bytes channel).Keeps permit fun result => result.2.path = channel.path := by
  have hroom : (makeRoom bytes.length channel).Keeps permit fun result => result.2.path =
      channel.path := by
    unfold makeRoom
    split
    · exact rfl
    · exact keeps_flush h
  refine hroom.bind fun result hresult => ?_
  rcases result with ⟨_ | _, channel'⟩
  · exact hresult
  · dsimp only at hresult ⊢
    split
    · exact hresult
    · rw [← hresult] at h ⊢
      exact keeps_writeOut h bytes

lemma keeps_appendAll (pieces : List Bytes)
    (h : ∀ offset bytes, permit.perform (.writeAt channel.path offset bytes)) :
    (appendAll pieces channel).Keeps permit fun result => result.2.path = channel.path := by
  induction pieces generalizing channel with
  | nil => exact rfl
  | cons piece pieces ih =>
      refine (keeps_append h piece).bind fun result hresult => ?_
      rcases result with ⟨_ | _, channel'⟩
      · exact hresult
      · dsimp only at hresult ⊢
        rw [← hresult] at h ⊢
        exact ih h

end Channel

namespace Sink

variable {sink : LinesSink}

/-- What may come of a step that may fail. -/
def Yields (ends : α → Prop) (result : Except SinkError α) : Prop :=
  ∀ value, result = .ok value → ends value

lemma keeps_bind {ends : α → Prop} {ends' : β → Prop} {first : Step α} {next : α → Step β}
    (h : first.run.Keeps permit (Yields ends))
    (hnext : ∀ value, ends value → (next value).run.Keeps permit (Yields ends')) :
    (first >>= next).run.Keeps permit (Yields ends') := by
  rw [ExceptT.run_bind]
  refine h.bind fun result hresult => ?_
  cases result with
  | error error => exact fun value hvalue => by cases hvalue
  | ok value => exact hnext value (hresult value rfl)

lemma isOn_permitted {name : String} (hname : name ∈ config.names) {action : StorageAction}
    (h : action.IsOn (Path.join directory name)) :
      (jarPermit jar directory config).perform action :=
  ⟨name, hname, h⟩

lemma keeps_perform (path : String) {action : StorageAction} (h : permit.perform action) :
    (perform path action).run.Keeps permit (Yields fun _ => True) :=
  ⟨h, fun _ _ _ => trivial⟩

lemma keeps_channel {name : String} (hname : name ∈ config.names) :
    (ExceptT.mk (Channel.create (Path.join directory name)) : Step LineChannel).run.Keeps
      (jarPermit jar directory config)
      (Yields fun channel => channel.path = Path.join directory name) := by
  refine ⟨isOn_permitted hname rfl, fun answer channel hchannel => ?_⟩
  cases answer with
  | error fault => cases hchannel
  | ok done =>
      cases hchannel
      rfl

lemma keeps_removeMarker :
    (removeMarker (Path.join directory config.markerFile)).run.Keeps
      (jarPermit jar directory config) (Yields fun _ => True) := by
  have hmarker : config.markerFile ∈ config.names := by simp [OutputConfig.names]
  refine ⟨rfl, fun answer => ?_⟩
  cases answer with
  | false => exact fun _ _ => trivial
  | true => exact keeps_perform _ (isOn_permitted hmarker rfl)

lemma keeps_openFiles :
    (openFiles directory config).run.Keeps (jarPermit jar directory config)
      (Yields fun sink => sink.Serves directory config) := by
  refine keeps_bind keeps_removeMarker fun _ _ => ?_
  refine keeps_bind (keeps_channel (OutputConfig.fileName_mem .entities))
    fun entities hentities => ?_
  refine keeps_bind (keeps_channel (OutputConfig.fileName_mem .relations))
    fun relations hrelations => ?_
  refine keeps_bind (keeps_channel (OutputConfig.fileName_mem .files)) fun files hfiles => ?_
  refine keeps_bind (keeps_channel (OutputConfig.fileName_mem .params)) fun params hparams => ?_
  rintro sink hsink
  cases hsink
  refine ⟨rfl, fun family => ?_⟩
  cases family
  · exact hentities
  · exact hrelations
  · exact hfiles
  · exact hparams

/-- The channels of a sink may write to their files. -/
lemma writeAt_permitted (h : sink.Serves directory config) (family : Family) (offset : Nat)
    (bytes : Bytes) :
    (jarPermit jar directory config).perform (.writeAt (sink.of family).path offset bytes) :=
  isOn_permitted (OutputConfig.fileName_mem family) (h.path family)

lemma keeps_flushAll (families : List Family) (h : sink.Serves directory config) :
    (flushAll families sink).Keeps (jarPermit jar directory config) fun result =>
      result.2.Serves directory config := by
  induction families generalizing sink with
  | nil => exact h
  | cons family families ih =>
      refine (Channel.keeps_flush (writeAt_permitted h family)).bind fun result hpath => ?_
      rcases result with ⟨_ | _, channel⟩
      · exact h.put hpath
      · exact ih (h.put hpath)

lemma keeps_closeAll (h : sink.Serves directory config) (families : List Family) :
    (closeAll sink families).Keeps (jarPermit jar directory config) fun _ => True := by
  induction families with
  | nil => exact trivial
  | cons family families ih =>
      exact (Channel.keeps_flush (writeAt_permitted h family)).bind fun _ _ => ih

lemma keeps_write (fact : Fact) (h : sink.Serves directory config) :
    (write fact sink).Keeps (jarPermit jar directory config) fun result =>
      result.2.Serves directory config := by
  unfold write
  split
  · exact h
  · rw [LinesSink.channel_eq]
    refine (Channel.keeps_appendAll _ (writeAt_permitted h fact.family)).bind fun result hpath => ?_
    have hput := h.put hpath
    rw [← LinesSink.setChannel_eq] at hput
    exact hput

lemma keeps_finish (summary : WalkSummary) (h : sink.Serves directory config) :
    (finish summary sink).Keeps (jarPermit jar directory config) fun result =>
      result.2.Serves directory config := by
  have hmarker : config.markerFile ∈ config.names := by simp [OutputConfig.names]
  unfold finish
  split
  · exact h
  · refine (keeps_flushAll _ h).bind fun result hserves => ?_
    rcases result with ⟨_ | _, sink'⟩
    · exact hserves
    · have hreplace : (jarPermit jar directory config).perform
          (.replace sink'.marker summary.marker) :=
        isOn_permitted hmarker hserves.marker
      refine (keeps_act hreplace).bind fun answer _ => ?_
      cases answer with
      | error fault => exact hserves
      | ok done => exact ⟨hserves.marker, hserves.path⟩

/-- Whatever a sink is given, it asks for its own files only. -/
lemma keeps_offer (writes : List SinkWrite) (h : sink.Serves directory config) :
    (offer writes sink).Keeps (jarPermit jar directory config) fun result =>
      result.2.Serves directory config := by
  induction writes generalizing sink with
  | nil => exact h
  | cons write writes ih =>
      have htake : (take write sink).Keeps (jarPermit jar directory config)
          fun result => result.2.Serves directory config := by
        cases write with
        | fact fact => exact keeps_write fact h
        | finish summary => exact keeps_finish summary h
      refine htake.bind fun result hserves => ?_
      rcases result with ⟨_ | _, sink'⟩
      · exact hserves
      · exact ih hserves

end Sink

end Routine

end JarFacts
