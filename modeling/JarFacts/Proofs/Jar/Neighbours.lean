import Mathlib.Tactic.Common
import JarFacts.Proofs.Jar.Directories
import JarFacts.Proofs.Jar.Routine

/-!
# One archive among others

The directories of two archives are neighbours: all the places on the way to one are on the way to
the other, but for the last. So a step for one archive can meet another only on the common way,
where directories are made that both need, and where the path of the other archive leads.  If that
leads to nothing that is made for the first, its files and the answers it gets are the same as if it
were alone.

This file says what one step does, to the archive it is for and to any other.  The archive has to
make its directory first (`Waiting`): up to then the volume is as it was, but for directories on the
common way.  If the directory can be made, the volume agrees from there on with one where the
archive is alone (`Working`).  If not, no step is left (`Failed`).
-/

namespace JarFacts

namespace Volume

variable {volume changed : Volume} {directory other name : String}

/-! ## Neighbours -/

/-- The places that a path leaves. -/
def leaves (volume : Volume) (path : String) : List (List String) :=
  walk (volume.origin path) (Path.segments path)

lemma leaves_subset_way {place : List String} (h : place ∈ volume.leaves directory) :
    place ∈ volume.way directory :=
  mem_way.mpr (.inl h)

lemma endsInStep_join (h : Path.IsPlain name) (root : String) :
    Path.EndsInStep (Path.join root name) := by
  obtain ⟨front, -, -, hjoin⟩ := exists_segments_join ⟨[], []⟩ root
  exact ⟨front, name, (hjoin name h).2, h.1, fun hdot => absurd hdot h.2.1⟩

/-- The way to a file in a directory is the whole way to the directory. -/
lemma leaves_join (hends : Path.EndsInStep directory) (h : Path.IsPlain name) (volume : Volume) :
    volume.leaves (Path.join directory name) = volume.way directory := by
  have hempty : directory ≠ "" := ne_empty_of_isTidy (.inr hends)
  have hjoin : Path.join directory name = directory ++ ("/" ++ name) := by
    rw [Path.join_of_isPlain h, if_neg (by simp [hempty, getLast?_of_endsInStep hends]),
      String.append_assoc]
  have hsegments : Path.segments (Path.join directory name) =
      Path.segments directory ++ [name] := by
    have hsep : (directory ++ ("/" ++ name)).toList = directory.toList ++ '/' :: name.toList := by
      simp
    rw [hjoin, Path.segments, hsep, Text.separated_append, Text.separated_of_not_mem h.2.2.2,
      List.map_append]
    simp [Path.segments]
  rw [leaves, hsegments, walk_append_singleton, hjoin, ← Path.origin_append hempty, way]

/-- The directories are below one root, under different names. -/
def Neighbours (directory other : String) : Prop :=
  ∃ root name name', Path.IsPlain name ∧ Path.IsPlain name' ∧ name ≠ name' ∧
    directory = Path.join root name ∧ other = Path.join root name'

namespace Neighbours

lemma endsInStep (h : Neighbours directory other) : Path.EndsInStep directory := by
  obtain ⟨root, name, name', hname, -, -, rfl, rfl⟩ := h
  exact endsInStep_join hname root

lemma symm (h : Neighbours directory other) : Neighbours other directory := by
  obtain ⟨root, name, name', hname, hname', hne, hdirectory, hother⟩ := h
  exact ⟨root, name', name, hname', hname, hne.symm, hother, hdirectory⟩

lemma leaves_eq (h : Neighbours directory other) (volume : Volume) :
    volume.leaves other = volume.leaves directory := by
  obtain ⟨root, name, name', hname, hname', -, rfl, rfl⟩ := h
  exact walk_join hname' hname volume root

lemma origin_eq (h : Neighbours directory other) (volume : Volume) :
    volume.origin other = volume.origin directory := by
  obtain ⟨root, name, name', hname, hname', -, rfl, rfl⟩ := h
  obtain ⟨front, -, -, hjoin⟩ := exists_segments_join volume root
  rw [(hjoin name hname).1, (hjoin name' hname').1]

/-- Nothing of the one is in the other. -/
lemma not_below (h : Neighbours directory other) (volume : Volume) (rest : List String) :
    ¬volume.landing directory <+: volume.landing other ++ rest := by
  obtain ⟨root, name, name', hname, hname', hne, rfl, rfl⟩ := h
  rw [landing_join hname, landing_join hname', List.append_assoc, List.prefix_append_right_inj]
  simpa using hne

lemma landing_ne (h : Neighbours directory other) (volume : Volume) :
    volume.landing other ≠ volume.landing directory := by
  intro heq
  have hbelow := h.not_below volume []
  rw [List.append_nil, heq] at hbelow
  exact hbelow List.prefix_rfl

/-- A directory is no file of its neighbour. -/
lemma landing_ne_file (h : Neighbours directory other) (volume : Volume) (name : String) :
    volume.landing directory ≠ volume.landing other ++ [name] := by
  intro heq
  have hbelow := h.not_below volume [name]
  rw [← heq] at hbelow
  exact hbelow List.prefix_rfl

end Neighbours

end Volume

namespace Batch

open Volume

variable {config : OutputConfig} {jar directory other : String}
variable {start volume changed alone : Volume}

/-! ## What a step does to the volume -/

/-- What a step for an archive does to the volume: nothing; or it makes directories on the way of
the archive's directory; or it changes one of the files there. -/
inductive Works (config : OutputConfig) (directory : String) (volume : Volume) : Volume → Prop where
  | rests : Works config directory volume volume
  | makes {changed : Volume} (h : volume.MakesWay directory changed) :
      Works config directory volume changed
  | writes {changed : Volume} {name : String} {node : Option Node} (hname : name ∈ config.names)
      (hnode : node ≠ some .directory) (h : volume.Writes (Path.join directory name) node changed) :
      Works config directory volume changed

lemma works_step {α : Type} {ends : α → Prop} {routine : Routine α}
    (h : routine.Keeps (Routine.jarPermit jar directory config) ends) (trial : Trial) :
    Works config directory trial.volume (routine.step trial).2.volume := by
  cases routine with
  | done value => exact .rests
  | present path next => exact .rests
  | read path next => exact .rests
  | perform action next =>
      obtain ⟨⟨name, hname, haction⟩, -⟩ := h
      rcases Watched.writes_of_isOn haction trial with hsame | ⟨node, hnode, hwrites⟩
      · have hvolume : (Storage.perform action trial).2.volume = trial.volume := hsame
        rw [Routine.step, hvolume]
        exact .rests
      · exact .writes hname hnode hwrites

namespace Works

lemma workingDirectory (h : Works config directory volume changed) :
    changed.workingDirectory = volume.workingDirectory := by
  cases h with
  | rests => rfl
  | makes h => exact h.adds.1
  | writes hname hnode h => exact h.changes.1

/-- Where a file is written, all the way to it is open. -/
lemma open_of_writes (hplain : ∀ name ∈ config.names, Path.IsPlain name)
    (hends : Path.EndsInStep directory) {name : String}
    (hname : name ∈ config.names) {node : Option Node}
    (h : volume.Writes (Path.join directory name) node changed) :
    ∀ place ∈ volume.way directory, volume.node? place = some .directory := by
  obtain ⟨-, -, hleft, -⟩ := place_eq_ok h.place
  have hleaves := leaves_join hends (hplain name hname) volume
  intro place hmem
  rw [← hleaves] at hmem
  exact hleft place hmem

/-- A place that a step changes is on the way of the directory, and then it is a new directory, or a
file in it. -/
lemma node?_cases (hplain : ∀ name ∈ config.names, Path.IsPlain name)
    (hends : Path.EndsInStep directory)
    (h : Works config directory volume changed) {place : List String}
    (hne : changed.node? place ≠ volume.node? place) :
    (volume.node? place = none ∧ changed.node? place = some .directory ∧
      place ∈ volume.way directory) ∨
      ∃ name ∈ config.names, place = volume.landing directory ++ [name] ∧
        volume.node? place ≠ some .directory ∧
        ∀ place ∈ volume.way directory, volume.node? place = some .directory := by
  cases h with
  | rests => exact absurd rfl hne
  | makes h =>
      rcases h.adds.2 place with hsame | ⟨hnone, hmade⟩
      · exact absurd hsame hne
      · exact .inl ⟨hnone, hmade, (h.onWay place hne).1⟩
  | @writes _ name node hname hnode h =>
      have hopen := open_of_writes hplain hends hname h
      have hplace : place = volume.landing (Path.join directory name) := by
        by_contra hother
        exact hne (h.changes.node?_of_ne hother)
      have hlanding := landing_join (hplain name hname) volume directory
      refine .inr ⟨name, hname, hplace.trans hlanding, ?_, hopen⟩
      rw [hplace]
      exact h.notDirectory

/-- The place where the way starts stays as it is. -/
lemma node?_origin (hnames : config.NamesApart) (hends : Path.EndsInStep directory)
    (h : Works config directory volume changed) :
    changed.node? (volume.origin directory) = volume.node? (volume.origin directory) := by
  by_contra hne
  rcases h.node?_cases hnames.1 hends hne with ⟨hnone, -, -⟩ | ⟨name, -, -, hnot, hopen⟩
  · cases h with
    | rests => exact hne rfl
    | makes h => exact hne h.node?_origin
    | writes hname hnode h =>
        rw [open_of_writes hnames.1 hends hname h _ (origin_mem_way volume directory)] at hnone
        cases hnone
  · exact hnot (hopen _ (origin_mem_way volume directory))

end Works

/-! ## The places of an archive -/

/-- The path of an archive leads to or through nothing that is made for another one: not a file, and
not the directory, unless there was something before. -/
def ClearOf (config : OutputConfig) (volume : Volume) (jar directory : String) : Prop :=
  ∀ place ∈ volume.way jar, (place = volume.landing directory → volume.node? place ≠ none) ∧
    ∀ name ∈ config.names, place ≠ volume.landing directory ++ [name]

instance (config : OutputConfig) (volume : Volume) (jar directory : String) :
    Decidable (ClearOf config volume jar directory) :=
  inferInstanceAs (Decidable (∀ place ∈ volume.way jar,
    (place = volume.landing directory → volume.node? place ≠ none) ∧
      ∀ name ∈ config.names, place ≠ volume.landing directory ++ [name]))

/-- The places that matter to an archive: the way to its directory, everything in there, and the way
to the archive. -/
def Own (start : Volume) (jar directory : String) (place : List String) : Prop :=
  place ∈ start.way directory ∨ start.landing directory <+: place ∨ place ∈ start.way jar

/-- On the way of another archive's directory only the common way matters to an archive, and that
directory where its own path comes along. -/
lemma Own.of_mem_way (hneighbours : Neighbours directory other) {place : List String}
    (hown : Own start jar directory place) (hmem : place ∈ start.way other) :
    place ∈ start.leaves directory ∨ place = start.landing other ∧ place ∈ start.way jar := by
  rcases mem_way.mp hmem with hleft | hend
  · have hleft' : place ∈ start.leaves other := hleft
    rw [hneighbours.leaves_eq] at hleft'
    exact .inl hleft'
  · rcases hown with hmine | hbelow | hpath
    · rcases mem_way.mp hmine with hleft | hmine
      · exact .inl hleft
      · exact absurd (hend.symm.trans hmine) (hneighbours.landing_ne start)
    · rw [hend, ← List.append_nil (start.landing other)] at hbelow
      exact absurd hbelow (hneighbours.not_below start [])
    · exact .inr ⟨hend, hpath⟩

/-- A file of another archive matters to an archive only if it stands on the common way. -/
lemma Own.mem_way_of_file (hneighbours : Neighbours directory other)
    (hclear : ClearOf config start jar other) {name : String}
    (hname : name ∈ config.names) (hown : Own start jar directory (start.landing other ++ [name])) :
    start.landing other ++ [name] ∈ start.way other := by
  rcases hown with hmine | hbelow | hpath
  · rcases mem_way.mp hmine with hleft | hend
    · refine leaves_subset_way ?_
      rw [hneighbours.leaves_eq]
      exact hleft
    · exact absurd hend.symm (hneighbours.landing_ne_file start name)
  · exact absurd hbelow (hneighbours.not_below start [name])
  · exact absurd rfl ((hclear _ hpath).2 name hname)

/-- Of the places that matter to an archive, a step for another one changes nothing, but it may make
directories on the common way, and its own directory where the path of the first archive comes
along. -/
lemma Works.own_cases (hnames : config.NamesApart) (hneighbours : Neighbours directory other)
    (hclear : ClearOf config start jar other)
    (hwd : volume.workingDirectory = start.workingDirectory)
    (h : Works config other volume changed) {place : List String}
    (hown : Own start jar directory place) :
    changed.node? place = volume.node? place ∨
      volume.node? place = none ∧ changed.node? place = some .directory ∧
        (place ∈ start.leaves directory ∨ place = start.landing other ∧ place ∈ start.way jar) := by
  by_cases hne : changed.node? place = volume.node? place
  · exact .inl hne
  right
  have hway : volume.way other = start.way other := way_congr hwd other
  have hlanding : volume.landing other = start.landing other := landing_congr hwd other
  rcases h.node?_cases hnames.1 hneighbours.symm.endsInStep hne with ⟨hnone, hmade, hmem⟩
    | ⟨name, hname, hfile, hnot, hopen⟩
  · rw [hway] at hmem
    exact ⟨hnone, hmade, hown.of_mem_way hneighbours hmem⟩
  · rw [hlanding] at hfile
    rw [hfile] at hown hnot
    rw [hway] at hopen
    exact absurd (hopen _ (hown.mem_way_of_file hneighbours hclear hname)) hnot

/-! ## Before the directory is made -/

/-- Nothing has been done for an archive yet.  Since the start, its places have changed only by
directories on the way that all archives have in common. -/
structure Waiting (start : Volume) (jar directory : String) (volume : Volume) : Prop where
  workingDirectory : volume.workingDirectory = start.workingDirectory
  origin : volume.node? (start.origin directory) = start.node? (start.origin directory)
  node : ∀ place, Own start jar directory place → volume.node? place = start.node? place ∨
    place ∈ start.leaves directory ∧ start.node? place = none ∧ volume.node? place = some .directory

lemma Waiting.refl (start : Volume) (jar directory : String) : Waiting start jar directory start :=
  ⟨rfl, rfl, fun _ _ => .inl rfl⟩

lemma Waiting.fileAt?_eq (h : Waiting start jar directory volume) {place : List String}
    (hown : Own start jar directory place) : volume.fileAt? place = start.fileAt? place := by
  rcases h.node place hown with hsame | ⟨-, hnone, hmade⟩
  · exact fileAt?_congr hsame
  · rw [fileAt?_of_directory hmade, fileAt?, hnone]

lemma Waiting.works (hnames : config.NamesApart) (hneighbours : Neighbours directory other)
    (hclear : ClearOf config start jar other) (h : Waiting start jar directory volume)
    (hworks : Works config other volume changed) : Waiting start jar directory changed := by
  refine ⟨hworks.workingDirectory.trans h.workingDirectory, ?_, fun place hown => ?_⟩
  · have horigin := hworks.node?_origin hnames hneighbours.symm.endsInStep
    rwa [origin_congr h.workingDirectory, hneighbours.origin_eq, h.origin] at horigin
  · rcases hworks.own_cases hnames hneighbours hclear h.workingDirectory hown with hsame
      | ⟨hnone, hmade, hwhere⟩
    · rw [hsame]
      exact h.node place hown
    · -- Where there is nothing now there was nothing at the start.
      have hstart : start.node? place = none := by
        rcases h.node place hown with hsame | ⟨-, hnone, -⟩
        · rw [← hsame, hnone]
        · exact hnone
      rcases hwhere with hleft | ⟨hend, hpath⟩
      · exact .inr ⟨hleft, hstart, hmade⟩
      · exact absurd hstart ((hclear place hpath).1 hend)

/-- The directory can be made as well as at the start. -/
lemma Waiting.clear_iff (h : Waiting start jar directory volume) :
    Clear volume directory ↔ Clear start directory := by
  have hway : volume.way directory = start.way directory := way_congr h.workingDirectory directory
  have horigin : volume.origin directory = start.origin directory :=
    origin_congr h.workingDirectory directory
  constructor
  · rintro ⟨hpath, hsegments, hdirectory, hfiles⟩
    refine ⟨hpath, hsegments, ?_, fun place hmem => ?_⟩
    · rw [← h.origin, ← horigin, hdirectory]
    · rw [← h.fileAt?_eq (.inl hmem)]
      exact hfiles place (hway ▸ hmem)
  · rintro ⟨hpath, hsegments, hdirectory, hfiles⟩
    refine ⟨hpath, hsegments, ?_, fun place hmem => ?_⟩
    · rw [horigin, h.origin, hdirectory]
    · rw [hway] at hmem
      rw [h.fileAt?_eq (.inl hmem), hfiles place hmem]

/-! ## When the directory is there -/

/-- The volume agrees with one where the archive is alone, on all that matters to it: its directory
is open in both.  Nothing is missing where its path leads to the directory of another one. -/
structure Working (start : Volume) (jar directory : String) (others : List String)
    (volume alone : Volume) : Prop where
  workingDirectory : volume.workingDirectory = start.workingDirectory
  agree : AgreeOn (Own start jar directory) volume alone
  opened : ∀ place ∈ start.way directory, volume.node? place = some .directory
  standing : ∀ other ∈ others, start.landing other ∈ start.way jar →
      volume.node? (start.landing other) ≠ none

variable {others : List String}

lemma Working.works (hnames : config.NamesApart) (hneighbours : Neighbours directory other)
    (hclear : ClearOf config start jar other) (hother : other ∈ others)
    (h : Working start jar directory others volume alone)
    (hworks : Works config other volume changed) :
    Working start jar directory others changed alone := by
  have hkept : ∀ place, Own start jar directory place →
      changed.node? place = volume.node? place := by
    intro place hown
    rcases hworks.own_cases hnames hneighbours hclear h.workingDirectory hown with hsame
      | ⟨hnone, -, hwhere⟩
    · exact hsame
    · rcases hwhere with hleft | ⟨rfl, hpath⟩
      · rw [h.opened place (leaves_subset_way hleft)] at hnone
        cases hnone
      · exact absurd hnone (h.standing other hother hpath)
  refine ⟨hworks.workingDirectory.trans h.workingDirectory, ⟨?_, fun place hown => ?_⟩,
    fun place hmem => ?_, fun another hanother hpath => ?_⟩
  · rw [hworks.workingDirectory, h.agree.workingDirectory]
  · rw [hkept place hown, h.agree.node place hown]
  · rw [hkept place (.inl hmem), h.opened place hmem]
  · rw [hkept _ (.inr (.inr hpath))]
    exact h.standing another hanother hpath

/-- The files of its directory matter to an archive, with the way to them. -/
lemma covers_file (hnames : config.NamesApart) (hends : Path.EndsInStep directory) {name : String}
    (hname : name ∈ config.names) (hwd : alone.workingDirectory = start.workingDirectory) :
    Covers (Own start jar directory) alone (Path.join directory name) ∧
      Own start jar directory (alone.landing (Path.join directory name)).dropLast := by
  have hplain := hnames.1 name hname
  have hlanding : alone.landing (Path.join directory name) = start.landing directory ++ [name] := by
    rw [landing_congr hwd, landing_join hplain]
  refine ⟨fun place hmem => ?_, ?_⟩
  · rcases mem_way.mp hmem with hleft | hend
    · have hleft' : place ∈ alone.leaves (Path.join directory name) := hleft
      rw [leaves_join hends hplain, way_congr hwd] at hleft'
      exact .inl hleft'
    · rw [hend, hlanding]
      exact .inr (.inl (List.prefix_append _ _))
  · rw [hlanding, List.dropLast_concat]
    exact .inl (landing_mem_way start directory)

/-- A file that is written for the archive, here and where it is alone, leaves everything else as it
is. -/
lemma Working.writes (hnames : config.NamesApart)
    (hneighbours : ∀ other ∈ others, Neighbours directory other)
    {name : String} (hname : name ∈ config.names) {alone' : Volume}
    (h : Working start jar directory others volume alone)
    (hagree : AgreeOn (Own start jar directory) changed alone')
    (hwrites : changed = volume ∨ ∃ node, node ≠ some .directory ∧
      volume.Writes (Path.join directory name) node changed) :
    Working start jar directory others changed alone' := by
  rcases hwrites with rfl | ⟨node, -, hwrites⟩
  · exact ⟨h.workingDirectory, hagree, h.opened, h.standing⟩
  · have hspares := hwrites.sparesDirectories
    refine ⟨hspares.1.trans h.workingDirectory, hagree, fun place hmem =>
      hspares.2 place (h.opened place hmem), fun other hother hpath => ?_⟩
    have hne : start.landing other ≠ volume.landing (Path.join directory name) := by
      rw [landing_congr h.workingDirectory, landing_join (hnames.1 name hname)]
      exact (hneighbours other hother).symm.landing_ne_file start name
    rw [hwrites.changes.node?_of_ne hne]
    exact h.standing other hother hpath

/-- A step for the archive goes as it would go alone. -/
lemma Working.step (hnames : config.NamesApart)
    (hneighbours : ∀ other ∈ others, Neighbours directory other)
    (hends : Path.EndsInStep directory) {α : Type} {ends : α → Prop} {routine : Routine α}
    (hkeeps : routine.Keeps (Routine.jarPermit jar directory config) ends) {trial trial' : Trial}
    (hfaults : trial.faults = trial'.faults)
    (h : Working start jar directory others trial.volume trial'.volume) :
    (routine.step trial).1 = (routine.step trial').1 ∧
      (routine.step trial).1.Keeps (Routine.jarPermit jar directory config) ends ∧
      (routine.step trial).2.faults = (routine.step trial').2.faults ∧
      Working start jar directory others (routine.step trial).2.volume
        (routine.step trial').2.volume := by
  have hwd : trial'.volume.workingDirectory = start.workingDirectory := by
    rw [← h.agree.workingDirectory, h.workingDirectory]
  cases routine with
  | done value => exact ⟨rfl, hkeeps, hfaults, h⟩
  | present path next =>
      obtain ⟨rfl, hnext⟩ := hkeeps
      have hmarker : config.markerFile ∈ config.names := by simp [OutputConfig.names]
      have hanswer := h.agree.contains (covers_file hnames hends hmarker hwd).1
      exact ⟨congrArg next hanswer, hnext _, hfaults, h⟩
  | read path next =>
      obtain ⟨rfl, hnext⟩ := hkeeps
      have hcovers : Covers (Own start path directory) trial'.volume path := by
        intro place hmem
        rw [way_congr hwd] at hmem
        exact .inr (.inr hmem)
      exact ⟨congrArg next (h.agree.read hcovers), hnext _, hfaults, h⟩
  | perform action next =>
      obtain ⟨⟨name, hname, haction⟩, hnext⟩ := hkeeps
      have hfile : Covers (Own start jar directory) trial'.volume (Path.join directory name) ∧ _ :=
        covers_file hnames hends hname hwd
      obtain ⟨hanswer, hfaults', hagree⟩ := h.agree.perform_trial hfaults hfile.1 hfile.2 haction
      exact ⟨congrArg next hanswer, hnext _, hfaults',
        h.writes hnames hneighbours hname hagree (Watched.writes_of_isOn haction trial)⟩

/-! ## Making the directory -/

/-- The directory could not be made, and no step is left.  There are the same files in its place as
where the archive is alone. -/
structure Failed (start : Volume) (directory : String) (volume alone : Volume) : Prop where
  workingDirectory : volume.workingDirectory = start.workingDirectory
  file : ∀ place, start.landing directory <+: place → volume.fileAt? place = alone.fileAt? place

lemma Failed.works (hnames : config.NamesApart) (hneighbours : Neighbours directory other)
    (h : Failed start directory volume alone) (hworks : Works config other volume changed) :
    Failed start directory changed alone := by
  refine ⟨hworks.workingDirectory.trans h.workingDirectory, fun place hbelow => ?_⟩
  rw [← h.file place hbelow]
  by_cases hne : changed.node? place = volume.node? place
  · exact fileAt?_congr hne
  rcases hworks.node?_cases hnames.1 hneighbours.symm.endsInStep hne with ⟨hnone, hmade, -⟩
    | ⟨name, -, hfile, -⟩
  · rw [fileAt?_of_directory hmade, fileAt?, hnone]
  · rw [hfile, landing_congr h.workingDirectory] at hbelow
    exact absurd hbelow (hneighbours.not_below start [name])

/-- Where the directory could be made, both here and from the start, the two volumes agree. -/
lemma Waiting.working (hclear : ∀ other ∈ others, ClearOf config start jar other)
    (h : Waiting start jar directory volume)
    (hmakes : volume.MakesWay directory changed) (hopen : Open changed directory)
    (hmakes' : start.MakesWay directory alone) (hopen' : Open alone directory) :
    Working start jar directory others changed alone := by
  have hwd : changed.workingDirectory = start.workingDirectory :=
    hmakes.adds.1.trans h.workingDirectory
  have hopened : ∀ place ∈ start.way directory, changed.node? place = some .directory :=
    fun place hmem => hopen.node?_of_mem hwd hmem
  -- Off the way nothing was made, now or before.
  have hkept : ∀ place, Own start jar directory place → place ∉ start.way directory →
      changed.node? place = start.node? place := by
    intro place hown hoff
    have hsame : changed.node? place = volume.node? place :=
      hmakes.node?_of_not_mem (by rwa [way_congr h.workingDirectory])
    rcases h.node place hown with hsame' | ⟨hleft, -⟩
    · exact hsame.trans hsame'
    · exact absurd (leaves_subset_way hleft) hoff
  refine ⟨hwd, ⟨hwd.trans hmakes'.adds.1.symm, fun place hown => ?_⟩, hopened,
    fun other hother hpath => ?_⟩
  · by_cases hon : place ∈ start.way directory
    · rw [hopened place hon, hopen'.node?_of_mem hmakes'.adds.1 hon]
    · rw [hkept place hown hon, hmakes'.node?_of_not_mem hon]
  · by_cases hon : start.landing other ∈ start.way directory
    · rw [hopened _ hon]
      simp
    · rw [hkept _ (.inr (.inr hpath)) hon]
      exact (hclear other hother _ hpath).1 rfl

/-- Whether the directory can be made is decided as it would be alone.  If it can, the archive works
from then on as it would alone. -/
lemma Waiting.makeDirectories (hends : Path.EndsInStep directory)
    (hclear : ∀ other ∈ others, ClearOf config start jar other)
    (h : Waiting start jar directory volume) :
    ((Volume.makeDirectories directory volume).1 = .ok () ∧
      (Volume.makeDirectories directory start).1 = .ok () ∧
        Working start jar directory others (Volume.makeDirectories directory volume).2
          (Volume.makeDirectories directory start).2) ∨
      ∃ fault fault', (Volume.makeDirectories directory volume).1 = .error fault ∧
        (Volume.makeDirectories directory start).1 = .error fault' ∧
        Failed start directory (Volume.makeDirectories directory volume).2
          (Volume.makeDirectories directory start).2 := by
  have htidy : IsTidy directory := .inr hends
  have hne := ne_empty_of_isTidy htidy
  have hhere := prepares_makeDirectories htidy volume
  have halone := prepares_makeDirectories htidy start
  have hwd : (Volume.makeDirectories directory volume).2.workingDirectory =
      start.workingDirectory :=
    hhere.makesWay.adds.1.trans h.workingDirectory
  cases hok : (Volume.makeDirectories directory volume).1 with
  | ok done =>
      have hok' : (Volume.makeDirectories directory start).1 = .ok () :=
        halone.succeeds (h.clear_iff.mp ((makeDirectories_eq_ok_iff htidy).mp hok))
      exact .inl ⟨rfl, hok', h.working hclear hhere.makesWay (hhere.opens hne hok)
        halone.makesWay (halone.opens hne hok')⟩
  | error fault =>
      cases hok' : (Volume.makeDirectories directory start).1 with
      | ok done =>
          have hbad := hhere.succeeds (h.clear_iff.mpr ((makeDirectories_eq_ok_iff htidy).mp hok'))
          rw [hok] at hbad
          cases hbad
      | error fault' =>
          refine .inr ⟨fault, fault', rfl, rfl, hwd, fun place hbelow => ?_⟩
          rw [hhere.makesWay.adds.fileAt?_eq, halone.makesWay.adds.fileAt?_eq,
            h.fileAt?_eq (.inr (.inl hbelow))]

end Batch

end JarFacts
