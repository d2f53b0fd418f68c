import Mathlib.Tactic.Common
import JarFacts.Proofs.Sink.Channel

/-!
# What a sink of lines does to its directory

A sink has a file for each family of facts and a marker, all in one directory.  Their names are
plain and differ (`OutputConfig.NamesApart`), so the files stand at different places, and what is
written to one leaves the others alone.

An open sink has taken some bytes of each family (`LinesSink.HoldsAll`).  A fact adds its line to
those of its family, or a beginning of its line if it is refused; a summary puts everything into the
files and writes the marker behind.  Opening a sink removes the marker before any other file
changes: on the way no marker stands that did not stand before, and as long as it does, the files
are as they were (`KeepsTruth`).
-/

namespace JarFacts

/-! ## Families -/

/-- The families of facts. -/
inductive Family where
  | entities
  | relations
  | files
  | params
  deriving DecidableEq

/-- The family of a fact. -/
def Fact.family : Fact → Family
  | .entity _ => .entities
  | .relation _ => .relations
  | .file _ => .files
  | .param _ => .params

/-- The line of a fact, as it stands in a file. -/
def Fact.line (fact : Fact) : Bytes :=
  fact.linePieces.flatten

namespace OutputConfig

/-- The name of the file of a family. -/
def fileName (config : OutputConfig) : Family → String
  | .entities => config.entitiesFile
  | .relations => config.relationsFile
  | .files => config.filesFile
  | .params => config.variablesFile

/-- The names of all files of an output. -/
def names (config : OutputConfig) : List String :=
  [config.entitiesFile, config.relationsFile, config.filesFile, config.variablesFile,
    config.markerFile]

/-- All files of an output have names of their own, and none is a path. -/
def NamesApart (config : OutputConfig) : Prop :=
  (∀ name ∈ config.names, Path.IsPlain name) ∧ config.names.Nodup

instance (config : OutputConfig) : Decidable config.NamesApart :=
  inferInstanceAs (Decidable (_ ∧ _))

variable {config : OutputConfig}

lemma fileName_mem (family : Family) : config.fileName family ∈ config.names := by
  cases family <;> simp [fileName, names]

lemma NamesApart.plain (h : config.NamesApart) (family : Family) :
    Path.IsPlain (config.fileName family) :=
  h.1 _ (fileName_mem family)

lemma NamesApart.plain_marker (h : config.NamesApart) : Path.IsPlain config.markerFile :=
  h.1 _ (by simp [names])

lemma NamesApart.injective (h : config.NamesApart) {family other : Family}
    (heq : config.fileName family = config.fileName other) : family = other := by
  have hnodup := h.2
  simp only [names, List.nodup_cons, List.mem_cons, not_or] at hnodup
  cases family <;> cases other <;> simp_all [fileName]

lemma NamesApart.ne_marker (h : config.NamesApart) (family : Family) :
    config.fileName family ≠ config.markerFile := by
  have hnodup := h.2
  simp only [names, List.nodup_cons, List.mem_cons, not_or] at hnodup
  cases family <;> simp_all [fileName]

end OutputConfig

namespace LinesSink

/-- The channel of a family. -/
def of (sink : LinesSink) : Family → LineChannel
  | .entities => sink.entities
  | .relations => sink.relations
  | .files => sink.files
  | .params => sink.params

lemma channel_eq (sink : LinesSink) (fact : Fact) : sink.channel fact = sink.of fact.family := by
  cases fact <;> rfl

/-- The sink writes to a directory, with the names of a configuration. -/
structure Serves (sink : LinesSink) (directory : String) (config : OutputConfig) : Prop where
  marker : sink.marker = Path.join directory config.markerFile
  path : ∀ family, (sink.of family).path = Path.join directory (config.fileName family)

/-- What the sink has taken of each family. -/
def HoldsAll (sink : LinesSink) (taken : Family → Bytes) (volume : Volume) : Prop :=
  ∀ family, (sink.of family).Holds (taken family) volume

end LinesSink

/-! ## The files of a directory -/

section Directory

variable (directory : String) (config : OutputConfig)

/-- The places of the fact files in a directory. -/
def FactPlace (volume : Volume) (place : List String) : Prop :=
  ∃ family, place = volume.landing directory ++ [config.fileName family]

/-- What stands in the file of a family. -/
def factFile (volume : Volume) (family : Family) : Option Bytes :=
  volume.fileAt? (volume.landing directory ++ [config.fileName family])

/-- A marker stands in the directory, and its path is one that can lead somewhere.  Whether there is
a way to the directory at the moment does not matter. -/
structure MarkerStands (volume : Volume) : Prop where
  isPath : Volume.isPath (Path.join directory config.markerFile) = true
  isName : ∀ segment ∈ Path.segments (Path.join directory config.markerFile),
      Volume.isName segment = true
  file : (volume.fileAt? (volume.landing directory ++ [config.markerFile])).isSome = true

/-- No marker stands that did not stand before, and if one does, the fact files are as they were. -/
def KeepsTruth (volume other : Volume) : Prop :=
  MarkerStands directory config other → MarkerStands directory config volume ∧
    ∀ family, factFile directory config other family = factFile directory config volume family

/-- If a marker stands, there is no way to it. -/
def Unmarked (volume : Volume) : Prop :=
  MarkerStands directory config volume →
  volume.contains (Path.join directory config.markerFile) = false

variable {directory config} {volume other third : Volume}

lemma KeepsTruth.refl (volume : Volume) : KeepsTruth directory config volume volume :=
  fun h => ⟨h, fun _ => rfl⟩

lemma KeepsTruth.trans (h : KeepsTruth directory config volume other)
    (h' : KeepsTruth directory config other third) :
    KeepsTruth directory config volume third := by
  intro hstands
  obtain ⟨hstands', hfiles'⟩ := h' hstands
  obtain ⟨hstands, hfiles⟩ := h hstands'
  exact ⟨hstands, fun family => (hfiles' family).trans (hfiles family)⟩

lemma KeepsTruth.of_not_stands (h : ¬MarkerStands directory config other) :
    KeepsTruth directory config volume other :=
  fun hstands => absurd hstands h

lemma ne_of_ne {place : List String} {name name' : String} (h : name ≠ name') :
    place ++ [name] ≠ place ++ [name'] := by
  simpa using h

/-- A marker that stands where the way is open is found. -/
lemma MarkerStands.contains (h : MarkerStands directory config volume) (hnames : config.NamesApart)
    {name : String} (hname : Path.IsPlain name) {place : List String}
    (hplace : volume.place (Path.join directory name) = .ok place) :
    volume.contains (Path.join directory config.markerFile) = true := by
  obtain ⟨-, -, hleft, -⟩ := Volume.place_eq_ok hplace
  have hmarker := hnames.plain_marker
  obtain ⟨bytes, hfile⟩ := Option.isSome_iff_exists.mp h.file
  rw [Volume.walk_join hname hmarker] at hleft
  have hempty : Path.join directory config.markerFile ≠ "" := by
    intro hempty
    obtain ⟨segments, -, -, hjoin⟩ := Volume.exists_segments_join volume directory
    have hsegments := (hjoin _ hmarker).2
    rw [hempty] at hsegments
    have hlast : config.markerFile ∈ Path.segments "" := by simp [hsegments]
    have hblank : config.markerFile = "" := by simpa [Path.segments, Text.separated] using hlast
    exact hmarker.1 hblank
  have hfound : volume.place (Path.join directory config.markerFile) =
      .ok (volume.landing directory ++ [config.markerFile]) := by
    rw [Volume.place, if_neg hempty, if_neg (by simp [h.isPath]), ← Volume.landing_join hmarker]
    exact Volume.follow_eq_ok_iff.mpr ⟨rfl, hleft, h.isName⟩
  rw [Volume.contains, Volume.find, hfound]
  simp only [Except.bind, bind, Volume.fileAt?_eq_some.mp hfile]
  rfl

lemma MarkerStands.of_eq (hlanding : other.landing directory = volume.landing directory)
    (hfile : other.fileAt? (volume.landing directory ++ [config.markerFile]) =
      volume.fileAt? (volume.landing directory ++ [config.markerFile]))
    (h : MarkerStands directory config other) : MarkerStands directory config volume := by
  refine ⟨h.isPath, h.isName, ?_⟩
  rw [← hfile, ← hlanding]
  exact h.file

/-- Where only fact files change, a marker stands as long as it did. -/
lemma MarkerStands.of_rewrites (hnames : config.NamesApart)
    (h : Volume.Rewrites (FactPlace directory config volume) volume other)
    (hstands : MarkerStands directory config other) : MarkerStands directory config volume := by
  refine hstands.of_eq (h.landing directory) (h.fileAt?_eq ?_)
  rintro ⟨family, hplace⟩
  exact ne_of_ne (hnames.ne_marker family).symm hplace

lemma keepsTruth_of_addsDirectories (h : Volume.AddsDirectories volume other) :
    KeepsTruth directory config volume other := by
  have hlanding := h.sparesDirectories.landing directory
  intro hstands
  refine ⟨hstands.of_eq hlanding (h.fileAt?_eq _), fun family => ?_⟩
  rw [factFile, factFile, hlanding, h.fileAt?_eq]

end Directory

/-! ## Opening a sink -/

namespace LinesSink

open Watched

variable {δ : Type} [Storage δ] [Watched δ] {directory : String} {config : OutputConfig}
  {α β : Type}

/-- Where a step starts from a store of one kind, it ends with one of another if it succeeds; and on
the way, whatever comes of it, no marker has told anything wrong. -/
def Ensures (directory : String) (config : OutputConfig) (pre : δ → Prop) (step : Step δ α)
    (post : α → δ → Prop) : Prop :=
  ∀ storage, pre storage → Leads (KeepsTruth directory config) storage (step.run.run storage).2 ∧
    ∀ value, (step.run.run storage).1 = .ok value → post value (step.run.run storage).2

lemma Ensures.bind {pre : δ → Prop} {step : Step δ α} {mid : α → δ → Prop} {next : α → Step δ β}
    {post : β → δ → Prop} (hstep : Ensures directory config pre step mid)
    (hnext : ∀ value, Ensures directory config (mid value) (next value) post) :
    Ensures directory config pre (step >>= next) post := by
  intro storage hpre
  obtain ⟨hleads, hmid⟩ := hstep storage hpre
  rw [run_bind]
  rcases hrun : step.run.run storage with ⟨error | value, storage'⟩
  · rw [hrun] at hleads
    exact ⟨hleads, fun value h => by cases h⟩
  · rw [hrun] at hleads hmid
    obtain ⟨hleads', hpost⟩ := hnext value storage' (hmid value rfl)
    exact ⟨hleads.trans KeepsTruth.trans hleads', hpost⟩

lemma Ensures.of_and {pre : δ → Prop} {known : Prop} {step : Step δ α} {post : α → δ → Prop}
    (h : known → Ensures directory config pre step post) :
    Ensures directory config (fun storage => known ∧ pre storage) step post :=
  fun storage hpre => h hpre.1 storage hpre.2

lemma Ensures.pure {pre : δ → Prop} {post : α → δ → Prop} {value : α}
    (h : ∀ storage, pre storage → post value storage) :
    Ensures directory config pre (pure value) post := by
  intro storage hpre
  refine ⟨.refl KeepsTruth.refl storage, fun found hfound => ?_⟩
  cases hfound
  exact h storage hpre

lemma ensures_makeDirectories :
    Ensures directory config (fun _ : δ => True) (perform directory (.makeDirectories directory))
      fun _ _ => True := by
  intro storage _
  refine ⟨?_, fun _ _ => trivial⟩
  exact leads_perform (keepsTruth_of_addsDirectories (perform_makeDirectories directory storage))

/-- A marker that is written away is found no more. -/
lemma not_contains_of_writes {path : String} {volume other : Volume}
    (h : volume.Writes path none other) :
    other.contains path = false := by
  have hplace := h.sparesDirectories.place_eq_ok h.place
  rw [Volume.contains, Volume.find, hplace]
  simp only [bind, Except.bind, h.changes.node?_self]
  rfl

/-- Some fact files have been made empty, with no marker found before. -/
structure Cleared (directory : String) (config : OutputConfig) (families : List Family)
    (volume : Volume) : Prop where
  unmarked : Unmarked directory config volume
  not_stands : families ≠ [] → ¬MarkerStands directory config volume
  empty : ∀ family ∈ families, factFile directory config volume family = some []
  reach : ∀ family ∈ families, volume.place (Path.join directory (config.fileName family)) =
    .ok (volume.landing directory ++ [config.fileName family])

/-- Where no marker is found, no fact file has been made empty yet. -/
lemma Cleared.of_not_contains {volume : Volume}
    (h : volume.contains (Path.join directory config.markerFile) = false) :
    Cleared directory config [] volume :=
  ⟨fun _ => h, by simp, by simp, by simp⟩

/-- A marker that is written away does not stand. -/
lemma not_stands_of_writes_marker (hnames : config.NamesApart) {volume other : Volume}
    (hwrites : volume.Writes (Path.join directory config.markerFile) none other) :
    ¬MarkerStands directory config other := by
  intro hstands
  have hnode := hwrites.changes.node?_self
  have hfile := hstands.file
  rw [Volume.landing_join hnames.plain_marker] at hnode
  rw [hwrites.sparesDirectories.landing, Volume.fileAt?, hnode] at hfile
  cases hfile

/-- When an old marker has been removed, none is found; if it cannot be removed, it stays, and
everything as it is. -/
lemma ensures_removeMarker (hnames : config.NamesApart) :
    Ensures directory config (fun _ : δ => True)
      (removeMarker (Path.join directory config.markerFile))
      fun _ storage => Cleared directory config [] (shown storage) := by
  intro storage _
  set marker := Path.join directory config.markerFile
  have hrun : (removeMarker marker).run.run storage =
      if Storage.present marker storage = true
        then (perform marker (.remove marker)).run.run storage
      else (.ok (), storage) := by
    rw [removeMarker, run_get_bind]
    split <;> rfl
  rw [hrun, present_eq]
  split
  · rcases perform_remove marker storage with ⟨-, hwrites⟩ | ⟨fault, hfault, hshown⟩
    · refine ⟨leads_perform (.of_not_stands (not_stands_of_writes_marker hnames hwrites)),
        fun _ _ => ?_⟩
      exact .of_not_contains (not_contains_of_writes hwrites)
    · refine ⟨leads_perform ?_, fun _ hok => ?_⟩
      · rw [hshown]
        exact .refl _
      · have herror : LineChannel.located marker (Storage.perform (.remove marker) storage).1 =
            .ok () := hok
        rw [hfault] at herror
        cases herror
  · rename_i habsent
    exact ⟨.refl KeepsTruth.refl storage, fun _ _ => .of_not_contains (by simpa using habsent)⟩

/-- Where a file is written there is a way to the directory, so no marker can have been
overlooked. -/
lemma Cleared.not_stands_of_writes (hnames : config.NamesApart) {families : List Family}
    {volume other : Volume}
    (h : Cleared directory config families volume) {family : Family} {node? : Option Node}
    (hwrites : volume.Writes (Path.join directory (config.fileName family)) node? other) :
    ¬MarkerStands directory config other := by
  have hplain := hnames.plain family
  have hchanges := hwrites.changes
  rw [Volume.landing_join hplain] at hchanges
  intro hstands
  have hbefore : MarkerStands directory config volume := by
    refine hstands.of_eq (hwrites.sparesDirectories.landing directory)
      (Volume.fileAt?_congr (hchanges.node?_of_ne ?_))
    exact ne_of_ne (hnames.ne_marker family).symm
  have hfound := hbefore.contains hnames hplain hwrites.place
  rw [h.unmarked hbefore] at hfound
  cases hfound

/-- One more fact file has been made empty. -/
lemma Cleared.of_writes (hnames : config.NamesApart) {families : List Family}
    {volume other : Volume} (h : Cleared directory config families volume) {family : Family}
    (hwrites :
      volume.Writes (Path.join directory (config.fileName family)) (some (.file [])) other) :
    Cleared directory config (family :: families) other := by
  have hplain := hnames.plain family
  have hspares := hwrites.sparesDirectories
  have hlanding := hspares.landing directory
  have hgone := h.not_stands_of_writes hnames hwrites
  refine ⟨fun hstands => absurd hstands hgone, fun _ => hgone, fun next hnext => ?_,
    fun next hnext => ?_⟩
  · have hchanges := hwrites.changes
    rw [Volume.landing_join hplain] at hchanges
    rw [factFile, hlanding]
    by_cases heq : next = family
    · rw [heq]
      exact Volume.fileAt?_eq_some.mpr hchanges.node?_self
    · have hne : config.fileName next ≠ config.fileName family := fun h => heq (hnames.injective h)
      rw [Volume.fileAt?_congr (hchanges.node?_of_ne (ne_of_ne hne))]
      exact h.empty next ((List.mem_cons.mp hnext).resolve_left heq)
  · rw [hlanding]
    rcases List.mem_cons.mp hnext with rfl | hmem
    · have hplace := hwrites.place
      rw [Volume.landing_join hplain] at hplace
      exact hspares.place_eq_ok hplace
    · exact hspares.place_eq_ok (h.reach next hmem)

/-- A fact file is made empty. -/
lemma ensures_channel (hnames : config.NamesApart) (family : Family) (families : List Family) :
    Ensures directory config (fun storage : δ => Cleared directory config families (shown storage))
      (LineChannel.create (Path.join directory (config.fileName family)))
      fun channel storage => channel = ⟨Path.join directory (config.fileName family), 0, #[]⟩ ∧
        Cleared directory config (family :: families) (shown storage) := by
  intro storage hcleared
  set path := Path.join directory (config.fileName family)
  change Leads _ storage (Storage.perform (.create path) storage).2 ∧ _
  have hvalue : ∀ channel, (LineChannel.create path storage).1 = .ok channel →
      (LineChannel.located path (Storage.perform (.create path) storage).1).map
        (fun _ => (⟨path, 0, #[]⟩ : LineChannel)) = .ok channel :=
    fun _ hchannel => hchannel
  rcases perform_create path storage with ⟨hok, hwrites⟩ | ⟨fault, hfault, hshown⟩
  · refine ⟨leads_perform (.of_not_stands (hcleared.not_stands_of_writes hnames hwrites)),
      fun channel hchannel => ?_⟩
    refine ⟨?_, hcleared.of_writes hnames hwrites⟩
    have hmade := hvalue channel hchannel
    rw [hok] at hmade
    cases hmade
    rfl
  · refine ⟨leads_perform ?_, fun channel hchannel => ?_⟩
    · rw [hshown]
      exact .refl _
    · have hmade := hvalue channel hchannel
      rw [hfault] at hmade
      cases hmade

/-- A sink that has just been opened: it has taken nothing, and no marker stands. -/
structure Fresh (sink : LinesSink) (directory : String) (config : OutputConfig) (volume : Volume) :
    Prop where
  serves : sink.Serves directory config
  holds : sink.HoldsAll (fun _ => []) volume
  open' : sink.finished = false
  unmarked : ¬MarkerStands directory config volume
  reach : ∀ family, volume.place (Path.join directory (config.fileName family)) =
    .ok (volume.landing directory ++ [config.fileName family])

/-- **Opening a sink** leaves an empty file for every family and no marker, or fails; until the
marker is gone, nothing else has changed. -/
lemma ensures_create (hnames : config.NamesApart) :
    Ensures directory config (fun _ : δ => True) (create directory config)
      fun sink storage => sink.Fresh directory config (shown storage) := by
  refine ensures_makeDirectories.bind fun _ => (ensures_removeMarker hnames).bind fun _ => ?_
  refine Ensures.bind (ensures_channel hnames .entities []) fun entities =>
    Ensures.of_and fun hentities => ?_
  refine Ensures.bind (ensures_channel hnames .relations _) fun relations =>
    Ensures.of_and fun hrelations => ?_
  refine Ensures.bind (ensures_channel hnames .files _) fun files => Ensures.of_and fun hfiles => ?_
  refine Ensures.bind (ensures_channel hnames .params _) fun params =>
    Ensures.of_and fun hparams => ?_
  refine Ensures.pure fun storage hcleared => ?_
  have hpath : ∀ family,
      (of ⟨directory, Path.join directory config.markerFile, entities, relations,
      files, params, false⟩
      family) = ⟨Path.join directory (config.fileName family), 0, #[]⟩ := by
    intro family
    cases family
    · exact hentities
    · exact hrelations
    · exact hfiles
    · exact hparams
  have hall : ∀ family, family ∈ [Family.params, .files, .relations, .entities] := by
    intro family
    cases family <;> simp
  refine ⟨⟨rfl, fun family => by rw [hpath]⟩, fun family => ?_, rfl,
    hcleared.not_stands (by simp), fun family =>
    hcleared.reach family (hall family)⟩
  have hempty := hcleared.empty family (hall family)
  rw [hpath]
  refine ⟨[], ⟨?_, rfl⟩, rfl⟩
  rw [Volume.landing_join (hnames.plain family)]
  exact hempty

lemma fresh_of_create (hnames : config.NamesApart) {sink : LinesSink} {storage storage' : δ}
    (h : (create directory config).run.run storage = (.ok sink, storage')) :
      sink.Fresh directory config (shown storage') := by
  have hensures : Ensures directory config (fun _ : δ => True) _ _ := ensures_create hnames
  have hfresh := (hensures storage trivial).2 sink
  rw [h] at hfresh
  exact hfresh rfl

/-! ## One channel among the others -/

/-- The sink with another channel for a family. -/
def put (sink : LinesSink) (family : Family) (channel : LineChannel) : LinesSink :=
  match family with
  | .entities => { sink with entities := channel }
  | .relations => { sink with relations := channel }
  | .files => { sink with files := channel }
  | .params => { sink with params := channel }

lemma setChannel_eq (sink : LinesSink) (channel : LineChannel) (fact : Fact) :
    sink.setChannel channel fact = sink.put fact.family channel := by
  cases fact <;> rfl

lemma of_put (sink : LinesSink) (family other : Family) (channel : LineChannel) :
    (sink.put family channel).of other = if other = family then channel else sink.of other := by
  cases family <;> cases other <;> rfl

@[simp]
lemma marker_put (sink : LinesSink) (family : Family) (channel : LineChannel) :
    (sink.put family channel).marker = sink.marker := by
  cases family <;> rfl

@[simp]
lemma finished_put (sink : LinesSink) (family : Family) (channel : LineChannel) :
    (sink.put family channel).finished = sink.finished := by
  cases family <;> rfl

variable {sink : LinesSink} {storage storage' : δ} {taken : Family → Bytes}

lemma Serves.put (h : sink.Serves directory config) {family : Family} {channel : LineChannel}
    (hpath : channel.path = (sink.of family).path) :
      (sink.put family channel).Serves directory config := by
  refine ⟨by rw [marker_put, h.marker], fun other => ?_⟩
  rw [of_put]
  split
  · rename_i heq
    rw [hpath, heq, h.path]
  · exact h.path other

/-- From one store to another, at most fact files have been rewritten. -/
abbrev Spares (directory : String) (config : OutputConfig) (storage other : δ) : Prop :=
  Leads (Volume.Rewrites (FactPlace directory config (shown storage))) storage other

lemma Spares.trans {storage'' : δ} (h : Spares directory config storage storage')
    (h' : Spares directory config storage' storage'') :
      Spares directory config storage storage'' := by
  refine Leads.trans Volume.Rewrites.trans h ?_
  refine h'.mono (Volume.Rewrites.mono ?_)
  rintro place ⟨family, rfl⟩
  exact ⟨family, by rw [h.1.landing]⟩

lemma Serves.landing (h : sink.Serves directory config) (hnames : config.NamesApart)
    (family : Family) (volume : Volume) :
    volume.landing (sink.of family).path =
      volume.landing directory ++ [config.fileName family] := by
  rw [h.path, Volume.landing_join (hnames.plain family)]

lemma Serves.spares (h : sink.Serves directory config) (hnames : config.NamesApart)
    {family : Family} (hspares : (sink.of family).Spares storage storage') :
      Spares directory config storage storage' := by
  refine hspares.mono (Volume.Rewrites.mono ?_)
  rintro place rfl
  exact ⟨family, h.landing hnames family _⟩

/-- What one channel does leaves the others with what they have. -/
lemma HoldsAll.put (hnames : config.NamesApart) (hserves : sink.Serves directory config)
    (hholds : sink.HoldsAll taken (shown storage)) {family : Family} {channel : LineChannel}
    {bytes : Bytes} (htakes : (sink.of family).Takes storage bytes channel storage') :
    (sink.put family channel).HoldsAll (fun other => if other = family then bytes else taken other)
      (shown storage') := by
  intro other
  by_cases hsame : other = family
  · simp only [of_put, if_pos hsame]
    exact htakes.holds
  · simp only [of_put, if_neg hsame]
    refine (hholds other).of_rewrites htakes.spares.1 ?_
    rw [hserves.landing hnames, hserves.landing hnames]
    exact ne_of_ne fun heq => hsame (hnames.injective heq)

/-! ## Closing a sink -/

/-- Writes what the channels of some families have collected, up to the first failure. -/
def flushAll : List Family → LinesSink → δ → Except SinkError Unit × LinesSink × δ
  | [], sink, storage => (.ok (), sink, storage)
  | family :: families, sink, storage =>
    match (sink.of family).flush storage with
    | (.error error, channel, storage) => (.error error, sink.put family channel, storage)
    | (.ok (), channel, storage) => flushAll families (sink.put family channel) storage

omit [Watched δ] in
lemma flush_eq_flushAll (sink : LinesSink) (storage : δ) :
    sink.flush storage = flushAll [.entities, .relations, .files, .params] sink storage := by
  rcases hentities : sink.entities.flush storage with ⟨_ | _, entities, storage₁⟩
  · simp [flush, flushAll, of, put, hentities]
  · rcases hrelations : sink.relations.flush storage₁ with ⟨_ | _, relations, storage₂⟩
    · simp [flush, flushAll, of, put, hentities, hrelations]
    · rcases hfiles : sink.files.flush storage₂ with ⟨_ | _, files, storage₃⟩
      · simp [flush, flushAll, of, put, hentities, hrelations, hfiles]
      · rcases hparams : sink.params.flush storage₃ with ⟨_ | _, params, storage₄⟩ <;>
          simp [flush, flushAll, of, put, hentities, hrelations, hfiles, hparams]

lemma flushAll_cases (hnames : config.NamesApart) (families : List Family)
    (hserves : sink.Serves directory config) (hholds : sink.HoldsAll taken (shown storage)) :
    ∃ result sink' storage', flushAll families sink storage = (result, sink', storage') ∧
      sink'.Serves directory config ∧ sink'.finished = sink.finished ∧
      sink'.HoldsAll taken (shown storage') ∧
      Spares directory config storage storage' ∧
      (result = .ok () → ∀ family, family ∈ families ∨ (sink.of family).pending = #[] →
        (sink'.of family).pending = #[]) := by
  induction families generalizing sink storage with
  | nil =>
      exact ⟨.ok (), sink, storage, rfl, hserves, rfl, hholds, .refl Volume.Rewrites.refl storage,
        fun _ family h =>
        h.resolve_left List.not_mem_nil⟩
  | cons family families ih =>
      obtain ⟨result, channel, storage', hflush, htakes, hok⟩ :=
        LineChannel.flush_cases (hholds family)
      have hserves' := hserves.put htakes.path
      have hholds' : (sink.put family channel).HoldsAll taken (shown storage') := by
        have hput := HoldsAll.put hnames hserves hholds htakes
        have hsame : (fun other => if other = family then taken family else taken other) =
            taken := by
          funext other
          split
          · rename_i heq
            rw [heq]
          · rfl
        rwa [hsame] at hput
      have hspares := hserves.spares hnames htakes.spares
      cases result with
      | error error =>
          refine ⟨.error error, sink.put family channel, storage', by rw [flushAll, hflush],
            hserves', finished_put _ _ _, hholds', hspares, by simp⟩
      | ok _ =>
          obtain ⟨result, sink', storage'', hrest, hserves'', hfinished, hholds'', hspares',
              hpending⟩ := ih hserves' hholds'
          refine ⟨result, sink', storage'', by rw [flushAll, hflush]; exact hrest,
            hserves'', ?_, hholds'', hspares.trans hspares',
            fun hresult other hother => hpending hresult other ?_⟩
          · rw [hfinished, finished_put]
          · rw [of_put]
            split
            · exact .inr (hok rfl).1
            · rename_i hne
              exact hother.imp_left fun hmem => (List.mem_cons.mp hmem).resolve_left hne

lemma flush_cases (hnames : config.NamesApart) (hserves : sink.Serves directory config)
    (hholds : sink.HoldsAll taken (shown storage)) :
    ∃ result sink' storage', sink.flush storage = (result, sink', storage') ∧
      sink'.Serves directory config ∧ sink'.finished = sink.finished ∧
      sink'.HoldsAll taken (shown storage') ∧
      Spares directory config storage storage' ∧
      (result = .ok () → ∀ family, (sink'.of family).pending = #[]) := by
  obtain ⟨result, sink', storage', hflush, hserves', hfinished, hholds', hspares, hpending⟩ :=
    flushAll_cases hnames [.entities, .relations, .files, .params] hserves hholds
  rw [flush_eq_flushAll]
  refine ⟨result, sink', storage', hflush, hserves', hfinished, hholds', hspares,
    fun hok family => ?_⟩
  exact hpending hok family (.inl (by cases family <;> simp))

/-- Giving a sink up writes to its files only. -/
lemma close_spares (hnames : config.NamesApart) (hserves : sink.Serves directory config)
    (storage : δ) :
    Spares directory config storage (sink.close storage) := by
  have hlist : [sink.entities, sink.relations, sink.files, sink.params] =
      [Family.entities, .relations, .files, .params].map sink.of := rfl
  rw [close, hlist]
  induction [Family.entities, .relations, .files, .params] generalizing storage with
  | nil => exact .refl Volume.Rewrites.refl storage
  | cons family families ih =>
      exact (hserves.spares hnames ((sink.of family).flush_spares storage)).trans (ih _)

end LinesSink

namespace LinesOutput

open Watched LinesSink

variable {δ : Type} [Storage δ] [Watched δ] {directory : String} {config : OutputConfig}
  {output : LinesOutput δ} {taken : Family → Bytes}

/-! ## Writing and closing -/

/-- **A fact** adds its line to what has been taken of its family; of one that is refused, a
beginning of its line may have been taken. -/
lemma write_cases (hnames : config.NamesApart) (hopen : output.sink.finished = false)
    (hserves : output.sink.Serves directory config)
    (hholds : output.sink.HoldsAll taken (shown output.storage)) (fact : Fact) :
    ∃ result sink' storage', output.write fact =
      (result, { output with sink := sink', storage := storage' }) ∧
      sink'.Serves directory config ∧ sink'.finished = false ∧
      Spares directory config output.storage storage' ∧
      ∃ kept, kept <+: fact.line ∧ (result = .ok () → kept = fact.line) ∧
        sink'.HoldsAll
          (fun family => if family = fact.family then taken fact.family ++ kept else taken family)
          (shown storage') := by
  obtain ⟨result, channel, storage', happend, kept, hprefix, hkept, htakes⟩ :=
    LineChannel.appendAll_cases (hholds fact.family) fact.linePieces
  refine ⟨result, output.sink.put fact.family channel, storage', ?_, hserves.put htakes.path, ?_,
    hserves.spares hnames htakes.spares, kept, hprefix, hkept,
    HoldsAll.put hnames hserves hholds htakes⟩
  · rw [write, hopen, channel_eq, happend, ← setChannel_eq]
    rfl
  · rw [finished_put, hopen]

omit [Watched δ] in
/-- A sink that is closed takes nothing. -/
lemma write_of_finished (h : output.sink.finished = true) (fact : Fact) :
    output.write fact = (.error .finished, output) := by
  rw [write, if_pos h]

omit [Watched δ] in
lemma finish_of_finished (h : output.sink.finished = true) (summary : WalkSummary) :
    output.finish summary = (.error .finished, output) := by
  rw [finish, if_pos h]

omit [Watched δ] in
/-- A sink that has taken a summary is closed. -/
lemma finished_of_finish {summary : WalkSummary} (h : (output.finish summary).1 = .ok ()) :
    (output.finish summary).2.sink.finished = true := by
  unfold finish at h ⊢
  split
  · rename_i hfinished
    exact hfinished
  · rename_i hopen
    rw [if_neg hopen] at h
    generalize output.sink.flush output.storage = flushed at h ⊢
    obtain ⟨error | _, sink, storage⟩ := flushed
    · cases h
    · dsimp only at h ⊢
      generalize Storage.perform (.replace sink.marker summary.marker) storage = marked at h ⊢
      obtain ⟨fault | _, storage⟩ := marked
      · cases h
      · rfl

/-- The sink has been closed: everything it has taken stands in its files, and the marker behind
it. -/
structure Closed (output : LinesOutput δ) (directory : String) (config : OutputConfig)
    (taken : Family → Bytes) (summary : WalkSummary) : Prop where
  serves : output.sink.Serves directory config
  finished : output.sink.finished = true
  pending : ∀ family, (output.sink.of family).pending = #[]
  files : ∀ family, factFile directory config (shown output.storage) family = some (taken family)
  marker : (shown output.storage).fileAt?
      ((shown output.storage).landing directory ++ [config.markerFile]) =
    some summary.marker
  reach : (shown output.storage).place (Path.join directory config.markerFile) =
    .ok ((shown output.storage).landing directory ++ [config.markerFile])

/-- When nothing is collected any more and the marker has been written, the sink is closed. -/
lemma closed_of_writes (hnames : config.NamesApart) {sink : LinesSink} {storage storage' : δ}
    {summary : WalkSummary} {log : Array LogEvent} (hserves : sink.Serves directory config)
    (hholds : sink.HoldsAll taken (shown storage))
    (hpending : ∀ family, (sink.of family).pending = #[])
    (hwrites : (shown storage).Writes sink.marker (some (.file summary.marker)) (shown storage')) :
    Closed ⟨{ sink with finished := true }, storage', log⟩ directory config taken summary := by
  have hof : ∀ family, LinesSink.of { sink with finished := true } family = sink.of family := by
    intro family
    cases family <;> rfl
  have hlanding := hwrites.sparesDirectories.landing directory
  have hchanges := hwrites.changes
  rw [hserves.marker, Volume.landing_join hnames.plain_marker] at hchanges
  refine ⟨⟨hserves.marker, fun family => by rw [hof, hserves.path]⟩, rfl,
    fun family => by rw [hof, hpending], fun family => ?_, ?_, ?_⟩
  · obtain ⟨content, hstands, htaken⟩ := hholds family
    rw [hpending, Array.toList_empty, List.append_nil] at htaken
    have hfile := hstands.file
    rw [hserves.landing hnames] at hfile
    rw [factFile, hlanding,
      Volume.fileAt?_congr (hchanges.node?_of_ne (ne_of_ne (hnames.ne_marker family))), hfile,
      htaken]
  · rw [hlanding]
    exact Volume.fileAt?_eq_some.mpr hchanges.node?_self
  · have hplace := hwrites.sparesDirectories.place_eq_ok hwrites.place
    rw [hserves.marker, Volume.landing_join hnames.plain_marker, ← hlanding] at hplace
    exact hplace

/-- **A summary** closes the sink, or the sink goes on as it was. -/
lemma finish_cases (hnames : config.NamesApart) (hopen : output.sink.finished = false)
    (hserves : output.sink.Serves directory config)
    (hholds : output.sink.HoldsAll taken (shown output.storage)) (summary : WalkSummary) :
    ∃ result output', output.finish summary = (result, output') ∧
      (result = .ok () ∧ output'.Closed directory config taken summary ∧
          (shown output.storage).SparesDirectories (shown output'.storage) ∧
          (∀ volume ∈ past output'.storage, volume ∈ past output.storage ∨
            (shown output.storage).Rewrites
              (FactPlace directory config (shown output.storage)) volume ∨
            volume = shown output'.storage) ∨
        result ≠ .ok () ∧ output'.sink.Serves directory config ∧ output'.sink.finished = false ∧
          output'.sink.HoldsAll taken (shown output'.storage) ∧
          Spares directory config output.storage output'.storage) := by
  obtain ⟨result, sink, storage, hflush, hserves', hfinished, hholds', hspares, hpending⟩ :=
    LinesSink.flush_cases hnames hserves hholds
  rw [finish, hopen, hflush]
  cases result with
  | error error =>
      exact ⟨.error error, _, rfl,
        .inr ⟨by simp, hserves', hfinished.trans hopen, hholds', hspares⟩⟩
  | ok _ =>
      have hcases := perform_replace sink.marker summary.marker storage
      have hpast := past_perform (.replace sink.marker summary.marker) storage
      have hleads : (shown storage).Rewrites (FactPlace directory config (shown storage))
          (shown (Storage.perform (.replace sink.marker summary.marker) storage).2) →
            Spares directory config storage
              (Storage.perform (.replace sink.marker summary.marker) storage).2 :=
        leads_perform
      simp only [Bool.false_eq_true, if_false]
      generalize Storage.perform (.replace sink.marker summary.marker) storage =
        outcome at hcases hpast hleads ⊢
      obtain ⟨result, storage'⟩ := outcome
      dsimp only at hcases hpast hleads ⊢
      rcases hcases with ⟨rfl, hwrites⟩ | ⟨fault, rfl, hshown⟩
      · refine ⟨.ok (), _, rfl,
          .inl ⟨rfl, closed_of_writes hnames hserves' hholds' (hpending rfl) hwrites,
          hspares.1.sparesDirectories.trans hwrites.sparesDirectories, fun volume hvolume => ?_⟩⟩
        rcases hpast volume hvolume with hold | hnew
        · exact (hspares.2 volume hold).imp_right .inl
        · exact .inr (.inr hnew)
      · refine ⟨.error (.io sink.marker fault), _, rfl,
          .inr ⟨by simp, hserves', hfinished.trans hopen, ?_, ?_⟩⟩
        · rw [hshown]
          exact hholds'
        · refine hspares.trans (hleads ?_)
          rw [hshown]
          exact .refl _

end LinesOutput

end JarFacts
