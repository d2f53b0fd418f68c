import JarFacts.Proofs.Jar.Parallel

/-!
# What an extraction leaves alone

The directory of an archive is one step below the root, so that all that is written for archives is
below the root as well.  One kind of name breaks this: an archive that is called by dots and an
extension, like `...jar`, has dots for a stem, and the first of that name is given the root itself
or the directory above it (`dotted_archives_leave_root`).  There is no other exception
(`archives_stay_below_root`).

Where no archive is called so, an extraction changes nothing but files two steps below the root,
whatever turns it takes and whichever of its actions fail; and all that it makes besides are
directories, on the way to the root and one step below it (`StaysBelow`).
-/

namespace JarFacts

namespace OutputDirectory

variable {root directory jar : String} {jars : List String}

/-- The steps to the directory are those to the root, and one with a plain name. -/
def IsOneBelow (root directory : String) : Prop :=
  ∃ name, Path.IsPlain name ∧ Path.components directory = Path.components root ++ [.normal name]

lemma IsBelow.isOneBelow (h : IsBelow root directory) : IsOneBelow root directory := by
  obtain ⟨name, hname, rfl⟩ := h
  exact ⟨name, hname, Path.components_join_of_isPlain hname root⟩

/-- Dots are no step below the root: a single one is none at all, or the place where a path starts,
and two go up. -/
lemma not_isOneBelow_of_isDotted (h : Path.IsDotted jar) (root : String) :
    ¬IsOneBelow root (jarDirectory root jar) := by
  obtain ⟨dots, hdots, hstem⟩ := h.exists_stem?
  have hsegment := Path.isSegment_of_stem? hstem
  rw [jarDirectory, hstem, Option.getD_some]
  rintro ⟨name, -, hsame⟩
  by_cases hstart : root = "" ∧ dots = "."
  · obtain ⟨rfl, rfl⟩ := hstart
    have hcurrent : Path.components (Path.join "" ".") = Path.components "" ++ [.current] := by
      decide
    rw [hcurrent] at hsame
    simp at hsame
  · rw [Path.components_join hsegment (fun hroot hdot => hstart ⟨hroot, hdot⟩),
      List.append_cancel_left_eq] at hsame
    rcases hdots with rfl | rfl
    · exact absurd hsame (by simp [Path.component?])
    · exact absurd hsame (by simp [Path.component?])

/-- An archive is given a directory one step below the root, unless it is the first of a name of
dots. -/
lemma isOneBelow_iff (root : String) {index : Nat} {own : String} (hjar : jars[index]? = some jar)
    (hown : (ofJars root jars)[index]? = some own) :
    IsOneBelow root own ↔
      ¬(Path.IsDotted jar ∧
        isAmong (jarDirectory root jar) ((jars.take index).map (jarDirectory root)) = false) := by
  obtain ⟨given, hgiven, hsuits⟩ := exists_suits_ofJars root hjar
  obtain rfl : given = own := Option.some.inj (hgiven.symm.trans hown)
  cases hrepeats : isAmong (jarDirectory root jar) ((jars.take index).map (jarDirectory root)) with
  | true =>
      obtain ⟨number, -, rfl⟩ := hsuits.numbered hrepeats
      have hbelow := isBelow_numbered (isStepFrom_jarDirectory root jar) number
      exact ⟨fun _ hdotted => absurd hdotted.2 (by decide), fun _ => hbelow.isOneBelow⟩
  | false =>
      rw [hsuits.plain hrepeats]
      refine ⟨fun hbelow hdotted => not_isOneBelow_of_isDotted hdotted.1 root hbelow,
        fun hdotted => ?_⟩
      have hplain : ¬Path.IsDotted jar := fun h => hdotted ⟨h, rfl⟩
      exact (isBelow_jarDirectory hplain root).isOneBelow

end OutputDirectory

namespace Volume

variable {config : OutputConfig} {root directory name : String} {volume changed third : Volume}
  {place : List String}

/-- The way to something in a directory is on the way to the directory, but for the last step. -/
lemma mem_way_join (h : Path.IsPlain name) (hmem : place ∈ volume.way (Path.join root name)) :
    place ∈ volume.way root ∨ place = volume.landing root ++ [name] := by
  rcases mem_way.mp hmem with hleft | hend
  · obtain ⟨front, hlanding, hfront, hjoin⟩ := exists_segments_join volume root
    obtain ⟨horigin, hsegments⟩ := hjoin name h
    rw [horigin, hsegments, walk_append, List.mem_append] at hleft
    rcases hleft with hbefore | hlast
    · exact .inl (mem_way.mpr (.inl (hfront place hbefore)))
    · rw [hlanding] at hlast
      obtain rfl : place = volume.landing root := List.mem_singleton.mp hlast
      exact .inl (landing_mem_way volume root)
  · rw [landing_join h] at hend
    exact .inr hend

/-- From one volume to the other, directories are made on the way to the root and one step below it,
and output files change two steps below it.  Everything else is as it was. -/
structure StaysBelow (config : OutputConfig) (root : String) (volume changed : Volume) : Prop where
  workingDirectory : changed.workingDirectory = volume.workingDirectory
  node : ∀ place, changed.node? place ≠ volume.node? place →
    (volume.node? place = none ∧ changed.node? place = some .directory ∧
      (place ∈ volume.way root ∨
        ∃ name, Path.IsPlain name ∧ place = volume.landing root ++ [name])) ∨
    ∃ name file, Path.IsPlain name ∧ file ∈ config.names ∧
      place = volume.landing root ++ [name, file]

lemma StaysBelow.refl (config : OutputConfig) (root : String) (volume : Volume) :
    StaysBelow config root volume volume :=
  ⟨rfl, fun _ hne => absurd rfl hne⟩

lemma StaysBelow.trans (h : StaysBelow config root volume changed)
    (h' : StaysBelow config root changed third) :
    StaysBelow config root volume third := by
  refine ⟨h'.workingDirectory.trans h.workingDirectory, fun place hne => ?_⟩
  have hlater := h'.node place
  rw [way_congr h.workingDirectory, landing_congr h.workingDirectory] at hlater
  by_cases hsame : changed.node? place = volume.node? place
  · rw [← hsame] at hne ⊢
    exact hlater hne
  · rcases h.node place hsame with ⟨hnone, hmade, hwhere⟩ | hfile
    · by_cases hkept : third.node? place = changed.node? place
      · exact .inl ⟨hnone, hkept.trans hmade, hwhere⟩
      · -- What has been made is not made again, so that it has become a file.
        rcases hlater hkept with ⟨hmissing, -, -⟩ | hfile
        · rw [hmade] at hmissing
          cases hmissing
        · exact .inr hfile
    · exact .inr hfile

end Volume

namespace Batch

open Volume OutputDirectory

variable {config : Config} {period : Period} {root jar directory : String}
  {begin volume changed : Volume} {pool : Pool}

/-- What a step for an archive does to the volume stays below the root. -/
lemma Works.staysBelow {config : OutputConfig} (hplain : ∀ name ∈ config.names, Path.IsPlain name)
    (hbelow : IsBelow root directory) (h : Works config directory volume changed) :
      StaysBelow config root volume changed := by
  obtain ⟨name, hname, rfl⟩ := hbelow
  refine ⟨h.workingDirectory, fun place hne => ?_⟩
  rcases h.node?_cases hplain (endsInStep_join hname root) hne with ⟨hnone, hmade, hmem⟩
    | ⟨file, hfile, hplace, -, -⟩
  · exact .inl ⟨hnone, hmade, (mem_way_join hname hmem).imp_right fun hend => ⟨name, hname, hend⟩⟩
  · rw [landing_join hname, List.append_assoc] at hplace
    exact .inr ⟨name, file, hname, hfile, hplace⟩

/-- The routine is what is left of the extraction of an archive: all of it, or work on the files of
the directory. -/
def AtWork (config : Config) (period : Period) (jar directory : String)
    (routine : Routine JarOutcome) : Prop :=
  routine = Routine.extractJar config period jar directory ∨
    routine.Keeps (Routine.jarPermit jar directory config.output) fun _ => True

/-- A step of the extraction is work on its directory, and leaves some of it or nothing to do. -/
lemma AtWork.step (hends : Path.EndsInStep directory) {routine : Routine JarOutcome}
    (h : AtWork config period jar directory routine) (volume : Volume)
    (faults : List (Option StorageFault)) :
    Works config.output directory volume (routine.step (⟨volume, faults, []⟩ : Trial)).2.volume ∧
      AtWork config period jar directory (routine.step (⟨volume, faults, []⟩ : Trial)).1 := by
  rcases h with rfl | hkeeps
  · refine ⟨works_step_extractJar config period jar hends volume faults, .inr ?_⟩
    rw [Routine.extractJar, Routine.step]
    cases (Storage.perform (.makeDirectories directory) (⟨volume, faults, []⟩ : Trial)).1 with
    | error fault => exact trivial
    | ok done => exact Routine.keeps_extractFiles config period jar directory
  · exact ⟨works_step hkeeps (⟨volume, faults, []⟩ : Trial), .inr (hkeeps.step _)⟩

/-- Extractions into directories below the root, and what they have done so far. -/
structure Pool.Within (config : Config) (period : Period) (root : String) (begin : Volume)
    (pool : Pool) : Prop where
  stays : StaysBelow config.output root begin pool.volume
  atWork : ∀ worker ∈ pool.workers, ∃ jar directory, IsBelow root directory ∧
      AtWork config period jar directory worker.routine

namespace Pool

lemma within_start (period : Period) {jobs : List (String × String)}
    (hjobs : ∀ job ∈ jobs, IsBelow root job.2)
    (faults : Nat → List (Option StorageFault)) (begin : Volume) :
    Within config period root begin (start config period jobs faults begin) := by
  refine ⟨.refl _ root begin, fun worker hworker => ?_⟩
  obtain ⟨index, hindex, rfl⟩ := List.mem_mapIdx.mp hworker
  exact ⟨jobs[index].1, jobs[index].2, hjobs _ (List.getElem_mem hindex), .inl rfl⟩

lemma Within.step (hplain : ∀ name ∈ config.output.names, Path.IsPlain name)
    (h : Within config period root begin pool)
    (index : Nat) : Within config period root begin (pool.step index) := by
  cases hworker : pool.workers[index]? with
  | none =>
      rw [Pool.step, hworker]
      exact h
  | some worker =>
      obtain ⟨jar, directory, hbelow, hatWork⟩ := h.atWork worker (List.mem_of_getElem? hworker)
      have hends : Path.EndsInStep directory := by
        obtain ⟨name, hname, rfl⟩ := hbelow
        exact endsInStep_join hname root
      obtain ⟨hworks, hleft⟩ := hatWork.step hends pool.volume worker.faults
      rw [step_of_some hworker]
      refine ⟨h.stays.trans (hworks.staysBelow hplain hbelow), fun other hother => ?_⟩
      rcases List.mem_or_eq_of_mem_set hother with hmem | rfl
      · exact h.atWork other hmem
      · exact ⟨jar, directory, hbelow, hleft⟩

lemma Within.run (hplain : ∀ name ∈ config.output.names, Path.IsPlain name)
    (h : Within config period root begin pool)
    (schedule : List Nat) : Within config period root begin (pool.run schedule) := by
  induction schedule generalizing pool with
  | nil => exact h
  | cons index schedule ih => exact ih (h.step hplain index)

end Pool

/-- **Where archives are extracted to.**  The directory that an archive is given is one step below
the root, with a plain name, if and only if it is not the first archive that is called by dots and
an extension.  Where none is called so, all that extractions change is below the root, whatever
turns they take and whichever of their actions fail: output files two steps below it, and besides
those, directories are made on the way to it and one step below it.  The same is true of archives
that are extracted one after the other. -/
theorem archives_stay_below_root (root : String) (jars : List String) :
    (∀ index jar own, jars[index]? = some jar → (ofJars root jars)[index]? = some own →
      (IsOneBelow root own ↔
        ¬(Path.IsDotted jar ∧
          isAmong (jarDirectory root jar) ((jars.take index).map (jarDirectory root)) = false))) ∧
    ((∀ jar ∈ jars, ¬Path.IsDotted jar) →
      ∀ (config : Config) (period : Period) (volume : Volume),
        (∀ name ∈ config.output.names, Path.IsPlain name) →
        (∀ faults schedule, StaysBelow config.output root volume
          ((Pool.start config period (jobsOf root jars) faults volume).run schedule).volume) ∧
        StaysBelow config.output root volume
          (extractJars config period root jars (volume, #[])).2.1) := by
  refine ⟨fun index jar own hjar hown => isOneBelow_iff root hjar hown,
    fun hdotted config period volume hplain => ?_⟩
  have hjobs : ∀ job ∈ jobsOf root jars, IsBelow root job.2 :=
    fun job hjob => isBelow_of_mem_ofJars hdotted (List.of_mem_zip hjob).2
  have hstays : ∀ faults schedule, StaysBelow config.output root volume
      ((Pool.start config period (jobsOf root jars) faults volume).run schedule).volume :=
    fun faults schedule =>
      ((Pool.within_start period hjobs faults volume).run hplain schedule).stays
  obtain ⟨schedule, -, hvolume⟩ := exists_run_extractJars config period root jars volume
  refine ⟨hstays, ?_⟩
  rw [← hvolume]
  exact hstays _ schedule

/-- With a number even dots lead below the root; and two archives of one name stay there, in turns
and with a fault. -/
theorem namesakes_stay_below_root :
    IsOneBelow "out" "out/.-2" ∧
    StaysBelow Config.default.output "out" namesakesVolume namesakesEnd.volume := by
  have hgiven : (ofJars "out" ["a/..jar", "b/..jar"])[1]? = some "out/.-2" := by decide +kernel
  have hamong : isAmong (jarDirectory "out" "b/..jar")
      ((["a/..jar", "b/..jar"].take 1).map (jarDirectory "out")) = true := by
    decide +kernel
  have hstems : ∀ jar ∈ namesakes, Path.HasStem jar := by decide +kernel
  have hplain : ∀ name ∈ Config.default.output.names, Path.IsPlain name := by decide +kernel
  refine ⟨?_, ?_⟩
  · refine ((archives_stay_below_root "out" ["a/..jar", "b/..jar"]).1 1 _ _ rfl hgiven).mpr
      fun hfirst => ?_
    rw [hamong] at hfirst
    cases hfirst.2
  · unfold namesakesEnd
    exact ((archives_stay_below_root "out" namesakes).2
      (fun jar hjar => (hstems jar hjar).not_isDotted) .default instantly
      namesakesVolume hplain).1 namesakesFaults namesakesTurns

/-- The volume that the extraction of archives leaves is that of their routines one after the
other. -/
lemma extractJars_eq_runAll (config : Config) (period : Period) (root : String) (jars : List String)
    (volume : Volume) :
    (extractJars config period root jars (volume, #[])).2.1 =
      (Routine.runAll ((jobsOf root jars).map fun job =>
        Routine.extractJar config period job.1 job.2) volume).2 := by
  rw [mapM_extractJar config period (jobsOf root jars) volume #[]]
  rfl

/-- Archives that are called by dots. -/
def dotted : List String := ["..jar", "...jar"]

/-- A volume with both of them, and with the root. -/
def dottedVolume : Volume :=
  ⟨["work"], [(["work"], .directory), (["work", "out"], .directory), (["work", "..jar"], .file []),
    (["work", "...jar"], .file [])]⟩

/-- The one is extracted into the root itself, and the other into the directory above it. -/
theorem dotted_archives_leave_root :
    ofJars "out" dotted = ["out/.", "out/.."] ∧
      ¬IsOneBelow "out" "out/." ∧ ¬IsOneBelow "out" "out/.." ∧
      dottedVolume.landing "out" = ["work", "out"] ∧
      ∀ place ∈ [["work", "out", "entities.jsonl"], ["work", "entities.jsonl"]],
        dottedVolume.node? place = none ∧
        (extractJars .default instantly "out" dotted (dottedVolume, #[])).2.1.node? place =
          some (.file []) := by
  have hdot : jarDirectory "out" "..jar" = "out/." := by decide +kernel
  have hdots : jarDirectory "out" "...jar" = "out/.." := by decide +kernel
  have hname : Path.fileName? "..jar" = some "..jar" := by decide +kernel
  have hname' : Path.fileName? "...jar" = some "...jar" := by decide +kernel
  refine ⟨by decide +kernel, ?_, ?_, by decide +kernel, ?_⟩
  · rw [← hdot]
    exact not_isOneBelow_of_isDotted ⟨".", "jar", .inl rfl, by decide, hname⟩ "out"
  · rw [← hdots]
    exact not_isOneBelow_of_isDotted ⟨"..", "jar", .inr rfl, by decide, hname'⟩ "out"
  · rw [extractJars_eq_runAll]
    decide +kernel

end Batch

end JarFacts
