import Mathlib.Tactic.Common
import JarFacts.Proofs.Jar.Neighbours

/-!
# Archives that are extracted side by side

Extractions that are under way at one time take their steps in any order, on one volume.  A `Pool`
is such a state, and a schedule says whose turn it is; actions may fail, for every archive at other
points.

Each extraction goes on as if it were alone: what is left of it comes to the same where it is alone,
and the two volumes agree on what matters to it (`Progress`).  A step for the archive itself keeps
that, and so does a step for any other (`Progress.step`, `Progress.works`).  Hence every schedule
leads to what comes of each archive alone (`archives_do_not_interfere`), the one that takes them one
after the other included.
-/

namespace JarFacts

/-- What the routine came back with, if it is done. -/
def Routine.value? {α : Type} : Routine α → Option α
  | .done value => some value
  | _ => none

lemma Routine.eq_done_of_value? {α : Type} {routine : Routine α} {value : α}
    (h : routine.value? = some value) :
    routine = .done value := by
  cases routine <;> cases h
  rfl

/-- Routines one after the other. -/
def Routine.runAll {α δ : Type} [Storage δ] : List (Routine α) → δ → List α × δ
  | [], storage => ([], storage)
  | routine :: routines, storage =>
    ((routine.run storage).1 :: (runAll routines (routine.run storage).2).1,
      (runAll routines (routine.run storage).2).2)

namespace Batch

open Volume

/-! ## Pools -/

/-- An extraction that is under way: what is left to do, and for each action to come the fault it
fails with, if any. -/
structure Worker where
  routine : Routine JarOutcome
  faults : List (Option StorageFault)

/-- Extractions that are under way on one volume. -/
structure Pool where
  volume : Volume
  workers : List Worker

namespace Pool

/-- The extraction of archives into directories, before the first step. -/
def start (config : Config) (period : Period) (jobs : List (String × String))
    (faults : Nat → List (Option StorageFault)) (volume : Volume) : Pool :=
  ⟨volume, jobs.mapIdx fun index job =>
    ⟨Routine.extractJar config period job.1 job.2, faults index⟩⟩

/-- One of the extractions takes a step. -/
def step (pool : Pool) (index : Nat) : Pool :=
  match pool.workers[index]? with
  | none => pool
  | some worker =>
    let (routine, trial) := worker.routine.step (⟨pool.volume, worker.faults, []⟩ : Trial)
    ⟨trial.volume, pool.workers.set index ⟨routine, trial.faults⟩⟩

/-- The extractions take steps in the order of a schedule. -/
def run (pool : Pool) (schedule : List Nat) : Pool :=
  schedule.foldl step pool

/-- What has become of the archives, in order, when all extractions are done. -/
def outcomes? (pool : Pool) : Option (List JarOutcome) :=
  pool.workers.mapM fun worker => worker.routine.value?

lemma step_of_some {pool : Pool} {index : Nat} {worker : Worker}
    (h : pool.workers[index]? = some worker) :
    pool.step index =
      ⟨(worker.routine.step (⟨pool.volume, worker.faults, []⟩ : Trial)).2.volume,
        pool.workers.set index ⟨(worker.routine.step (⟨pool.volume, worker.faults, []⟩ : Trial)).1,
          (worker.routine.step (⟨pool.volume, worker.faults, []⟩ : Trial)).2.faults⟩⟩ := by
  rw [step, h]

lemma run_append (pool : Pool) (first second : List Nat) :
    pool.run (first ++ second) = (pool.run first).run second :=
  List.foldl_append

lemma outcomes?_eq_some_iff {pool : Pool} {outcomes : List JarOutcome} :
    pool.outcomes? = some outcomes ↔ pool.workers.map (·.routine.value?) = outcomes.map some := by
  obtain ⟨volume, workers⟩ := pool
  unfold outcomes?
  dsimp only
  induction workers generalizing outcomes with
  | nil => cases outcomes <;> simp
  | cons worker workers ih =>
      cases outcomes with
      | nil => simp [List.mapM_cons, Option.bind_eq_some_iff]
      | cons outcome outcomes => simp [List.mapM_cons, Option.bind_eq_some_iff, ← ih]

/-- An outcome is what a routine came back with. -/
lemma exists_done_of_outcomes? {pool : Pool} {outcomes : List JarOutcome}
    (h : pool.outcomes? = some outcomes) {index : Nat}
    {outcome : JarOutcome} (houtcome : outcomes[index]? = some outcome) :
    ∃ faults, pool.workers[index]? = some ⟨.done outcome, faults⟩ := by
  have hmap := congrArg (·[index]?) (outcomes?_eq_some_iff.mp h)
  simp only [List.getElem?_map, houtcome, Option.map_some, Option.map_eq_some_iff] at hmap
  obtain ⟨⟨routine, faults⟩, hworker, hvalue⟩ := hmap
  obtain rfl : routine = .done outcome := Routine.eq_done_of_value? hvalue
  exact ⟨faults, hworker⟩

end Pool

/-! ## One archive -/

section

variable {config : Config} {period : Period} {begin volume changed : Volume}
  {jar directory other : String}
  {faults : List (Option StorageFault)} {others : List String} {worker : Worker}

/-- The first step for an archive makes its directory, unless it fails. -/
lemma works_step_extractJar (config : Config) (period : Period) (jar : String)
    (hends : Path.EndsInStep directory) (volume : Volume) (faults : List (Option StorageFault)) :
    Works config.output directory volume
      ((Routine.extractJar config period jar directory).step
        (⟨volume, faults, []⟩ : Trial)).2.volume := by
  rcases faults with _ | ⟨_ | fault, faults⟩
  · exact .makes (prepares_makeDirectories (.inr hends) volume).makesWay
  · exact .makes (prepares_makeDirectories (.inr hends) volume).makesWay
  · exact .rests

/-- How far an extraction is, compared with one that is alone from the beginning. -/
inductive Progress (config : Config) (period : Period) (begin : Volume) (jar directory : String)
    (faults : List (Option StorageFault)) (others : List String) (volume : Volume) : Worker →
    Prop where
  /-- The directory is still to be made. -/
  | waiting (h : Waiting begin jar directory volume) :
      Progress config period begin jar directory faults others volume
        ⟨Routine.extractJar config period jar directory, faults⟩
  /-- The directory is there, and what is left comes to the same where the archive is alone. -/
  | working {routine : Routine JarOutcome} {trial : Trial}
      (hkeeps : routine.Keeps (Routine.jarPermit jar directory config.output) fun _ => True)
      (hrun : routine.run trial = (Routine.extractJar config period jar directory).run
        (⟨begin, faults, []⟩ : Trial))
      (h : Working begin jar directory others volume trial.volume) :
      Progress config period begin jar directory faults others volume ⟨routine, trial.faults⟩
  /-- The directory could not be made, here and where the archive is alone. -/
  | failed {fault fault' : StorageFault} {rest : List (Option StorageFault)} {trial : Trial}
      (hrun : (Routine.extractJar config period jar directory).run (⟨begin, faults, []⟩ : Trial) =
        (Routine.unmade jar directory fault', trial))
      (h : Failed begin directory volume trial.volume) :
      Progress config period begin jar directory faults others volume
        ⟨.done (Routine.unmade jar directory fault), rest⟩

namespace Progress

/-- A step for another archive makes no difference. -/
lemma works (hnames : config.output.NamesApart) (hneighbours : Neighbours directory other)
    (hclear : ClearOf config.output begin jar other) (hother : other ∈ others)
    (h : Progress config period begin jar directory faults others volume worker)
    (hworks : Works config.output other volume changed) :
    Progress config period begin jar directory faults others changed worker := by
  cases h with
  | waiting h => exact .waiting (h.works hnames hneighbours hclear hworks)
  | working hkeeps hrun h =>
      exact .working hkeeps hrun (h.works hnames hneighbours hclear hother hworks)
  | failed hrun h => exact .failed hrun (h.works hnames hneighbours hworks)

/-- What the next step for the archive does to the volume. -/
lemma works_step (hends : Path.EndsInStep directory)
    (h : Progress config period begin jar directory faults others volume worker) :
    Works config.output directory volume
      (worker.routine.step (⟨volume, worker.faults, []⟩ : Trial)).2.volume := by
  cases h with
  | waiting h => exact works_step_extractJar config period jar hends volume faults
  | @working routine trial hkeeps hrun h =>
      exact Batch.works_step hkeeps (⟨volume, trial.faults, []⟩ : Trial)
  | failed hrun h => exact .rests

/-- The first step, where no fault is due: the directory is made, or it cannot be made where the
archive is alone either. -/
lemma step_of_perform (hends : Path.EndsInStep directory)
    (hclear : ∀ other ∈ others, ClearOf config.output begin jar other)
    (h : Waiting begin jar directory volume) {rest : List (Option StorageFault)}
    (hperform : ∀ volume, Storage.perform (.makeDirectories directory)
      (⟨volume, faults, []⟩ : Trial) =
      ((makeDirectories directory volume).1,
        ⟨(makeDirectories directory volume).2, rest, [(makeDirectories directory volume).2]⟩)) :
    Progress config period begin jar directory faults others
      ((Routine.extractJar config period jar directory).step
        (⟨volume, faults, []⟩ : Trial)).2.volume
      ⟨((Routine.extractJar config period jar directory).step (⟨volume, faults, []⟩ : Trial)).1,
        ((Routine.extractJar config period jar directory).step
        (⟨volume, faults, []⟩ : Trial)).2.faults⟩ := by
  rw [Routine.extractJar, Routine.step, hperform volume]
  let alone : Trial :=
    ⟨(makeDirectories directory begin).2, rest, [(makeDirectories directory begin).2]⟩
  rcases h.makeDirectories hends hclear with ⟨hok, hok', hworking⟩
    | ⟨fault, fault', herror, herror', hfailed⟩
  · have hrun : (Routine.extractJar config period jar directory).run (⟨begin, faults, []⟩ : Trial) =
        (Routine.extractFiles config period jar directory).run alone := by
      rw [Routine.extractJar, Routine.run, hperform begin, hok']
    rw [hok]
    have hprogress : Progress config period begin jar directory faults others
        (makeDirectories directory volume).2
        ⟨Routine.extractFiles config period jar directory, alone.faults⟩ :=
      .working (Routine.keeps_extractFiles config period jar directory) hrun.symm hworking
    exact hprogress
  · have hrun : (Routine.extractJar config period jar directory).run (⟨begin, faults, []⟩ : Trial) =
        (Routine.unmade jar directory fault', alone) := by
      rw [Routine.extractJar, Routine.run, hperform begin, herror']
      rfl
    rw [herror]
    exact .failed hrun hfailed

lemma step_of_waiting (hends : Path.EndsInStep directory)
    (hclear : ∀ other ∈ others, ClearOf config.output begin jar other)
    (h : Waiting begin jar directory volume) :
    Progress config period begin jar directory faults others
      ((Routine.extractJar config period jar directory).step
        (⟨volume, faults, []⟩ : Trial)).2.volume
      ⟨((Routine.extractJar config period jar directory).step (⟨volume, faults, []⟩ : Trial)).1,
        ((Routine.extractJar config period jar directory).step
        (⟨volume, faults, []⟩ : Trial)).2.faults⟩ := by
  rcases faults with _ | ⟨_ | fault, rest⟩
  · exact step_of_perform hends hclear h fun _ => rfl
  · exact step_of_perform hends hclear h fun _ => rfl
  · have hfailed : Failed begin directory volume begin :=
      ⟨h.workingDirectory, fun place hbelow => h.fileAt?_eq (.inr (.inl hbelow))⟩
    exact .failed rfl hfailed

/-- A step for the archive itself goes as it would go alone. -/
lemma step (hnames : config.output.NamesApart) (hends : Path.EndsInStep directory)
    (hneighbours : ∀ other ∈ others, Neighbours directory other)
    (hclear : ∀ other ∈ others, ClearOf config.output begin jar other)
    (h : Progress config period begin jar directory faults others volume worker) :
    Progress config period begin jar directory faults others
      (worker.routine.step (⟨volume, worker.faults, []⟩ : Trial)).2.volume
      ⟨(worker.routine.step (⟨volume, worker.faults, []⟩ : Trial)).1,
        (worker.routine.step (⟨volume, worker.faults, []⟩ : Trial)).2.faults⟩ := by
  cases h with
  | waiting h => exact step_of_waiting hends hclear h
  | @working routine trial hkeeps hrun h =>
      have hhere : Working begin jar directory others
          (⟨volume, trial.faults, []⟩ : Trial).volume trial.volume := h
      have hsame : (⟨volume, trial.faults, []⟩ : Trial).faults = trial.faults := rfl
      obtain ⟨hroutine, hkeeps', hfaults, hworking⟩ :=
        hhere.step hnames hneighbours hends hkeeps hsame
      dsimp only at hroutine hkeeps' hfaults hworking ⊢
      rw [hfaults]
      refine .working hkeeps' ?_ hworking
      rw [hroutine, Routine.run_step, hrun]
  | failed hrun h => exact .failed hrun h

end Progress

end

/-! ## All archives -/

/-- The archives and directories of a run do not get into each other's way. -/
structure Apart (config : OutputConfig) (begin : Volume) (jobs : List (String × String)) :
    Prop where
  ends : ∀ job ∈ jobs, Path.EndsInStep job.2
  neighbours : ∀ {index index' : Nat} {job job' : String × String}, jobs[index]? = some job →
      jobs[index']? = some job' →
    index' ≠ index → Neighbours job.2 job'.2
  clear : ∀ {index index' : Nat} {job job' : String × String}, jobs[index]? = some job →
    jobs[index']? = some job' →
    index' ≠ index → ClearOf config begin job.1 job'.2

/-- The directories of all archives but one. -/
def others (jobs : List (String × String)) (index : Nat) : List String :=
  (jobs.eraseIdx index).map Prod.snd

lemma mem_others {jobs : List (String × String)} {index index' : Nat} {job : String × String}
    (hjob : jobs[index']? = some job) (hne : index' ≠ index) : job.2 ∈ others jobs index :=
  List.mem_map.mpr ⟨job, List.mem_eraseIdx_iff_getElem?.mpr ⟨index', hne, hjob⟩, rfl⟩

section

variable {config : Config} {period : Period} {begin : Volume} {jobs : List (String × String)}
  {faults : Nat → List (Option StorageFault)} {pool : Pool}

lemma Apart.of_mem_others (h : Apart config.output begin jobs) {index : Nat} {job : String × String}
    (hjob : jobs[index]? = some job) {other : String} (hother : other ∈ others jobs index) :
    Neighbours job.2 other ∧ ClearOf config.output begin job.1 other := by
  obtain ⟨job', hmem, rfl⟩ := List.mem_map.mp hother
  obtain ⟨index', hne, hjob'⟩ := List.mem_eraseIdx_iff_getElem?.mp hmem
  exact ⟨h.neighbours hjob hjob' hne, h.clear hjob hjob' hne⟩

/-- Every extraction goes on as if it were alone. -/
structure Pool.Sound (config : Config) (period : Period) (begin : Volume)
    (jobs : List (String × String))
    (faults : Nat → List (Option StorageFault)) (pool : Pool) : Prop where
  length : pool.workers.length = jobs.length
  progress : ∀ index job, jobs[index]? = some job → ∃ worker, pool.workers[index]? = some worker ∧
    Progress config period begin job.1 job.2 (faults index) (others jobs index) pool.volume worker

namespace Pool

lemma sound_start (config : Config) (period : Period) (begin : Volume)
    (jobs : List (String × String)) (faults : Nat → List (Option StorageFault)) :
    Sound config period begin jobs faults (start config period jobs faults begin) := by
  refine ⟨by simp [start], fun index job hjob => ?_⟩
  refine ⟨⟨Routine.extractJar config period job.1 job.2, faults index⟩, ?_,
    .waiting (.refl begin job.1 job.2)⟩
  rw [start, List.getElem?_mapIdx, hjob]
  rfl

/-- A step of one extraction keeps them all going as if they were alone. -/
lemma Sound.step (hnames : config.output.NamesApart) (hapart : Apart config.output begin jobs)
    (h : Sound config period begin jobs faults pool) (index : Nat) :
    Sound config period begin jobs faults (pool.step index) := by
  cases hworker : pool.workers[index]? with
  | none =>
      rw [Pool.step, hworker]
      exact h
  | some worker =>
      obtain ⟨hlt, -⟩ := List.getElem?_eq_some_iff.mp hworker
      have hjob : jobs[index]? = some (jobs.get ⟨index, h.length ▸ hlt⟩) := by
        rw [List.getElem?_eq_some_iff]
        exact ⟨h.length ▸ hlt, rfl⟩
      generalize jobs.get ⟨index, h.length ▸ hlt⟩ = job at hjob
      obtain ⟨worker', hworker', hprogress⟩ := h.progress index job hjob
      obtain rfl : worker = worker' := Option.some.inj (hworker.symm.trans hworker')
      have hends := hapart.ends job (List.mem_of_getElem? hjob)
      rw [step_of_some hworker]
      refine ⟨by rw [List.length_set, h.length], fun index' job' hjob' => ?_⟩
      by_cases hsame : index' = index
      · subst hsame
        obtain rfl : job = job' := Option.some.inj (hjob.symm.trans hjob')
        refine ⟨_, List.getElem?_set_self hlt, ?_⟩
        exact hprogress.step hnames hends (fun other hother => (hapart.of_mem_others hjob hother).1)
          fun other hother => (hapart.of_mem_others hjob hother).2
      · obtain ⟨other, hother, hprogress'⟩ := h.progress index' job' hjob'
        refine ⟨other, by rw [List.getElem?_set_ne (Ne.symm hsame), hother], ?_⟩
        exact hprogress'.works hnames (hapart.neighbours hjob' hjob (Ne.symm hsame))
          (hapart.clear hjob' hjob (Ne.symm hsame))
          (mem_others hjob (Ne.symm hsame)) (hprogress.works_step hends)

lemma Sound.run (hnames : config.output.NamesApart) (hapart : Apart config.output begin jobs)
    (h : Sound config period begin jobs faults pool) (schedule : List Nat) :
    Sound config period begin jobs faults (pool.run schedule) := by
  induction schedule generalizing pool with
  | nil => exact h
  | cons index schedule ih => exact ih (h.step hnames hapart index)

/-! ## Coming to an end -/

/-- The extraction comes to its end if it takes all the turns.  Where no action is to fail it is as
if it were run at once. -/
def ComesToEnd (workers : List Worker) (index : Nat) (volume : Volume) (worker : Worker) : Prop :=
  ∃ count volume' outcome rest, Pool.run ⟨volume, workers.set index worker⟩
    (List.replicate count index) =
      ⟨volume', workers.set index ⟨.done outcome, rest⟩⟩ ∧
    (worker.faults = [] → rest = [] ∧ worker.routine.run volume = (outcome, volume'))

lemma comesToEnd_of_step {workers : List Worker} {index : Nat} (hindex : index < workers.length)
    {volume : Volume} {worker : Worker} (h : ComesToEnd workers index
      (worker.routine.step (⟨volume, worker.faults, []⟩ : Trial)).2.volume
      ⟨(worker.routine.step (⟨volume, worker.faults, []⟩ : Trial)).1,
        (worker.routine.step (⟨volume, worker.faults, []⟩ : Trial)).2.faults⟩) :
    ComesToEnd workers index volume worker := by
  obtain ⟨count, volume', outcome, rest, hrun, hend⟩ := h
  refine ⟨count + 1, volume', outcome, rest, ?_, fun hfaults => ?_⟩
  · rw [List.replicate_succ, Pool.run, List.foldl_cons,
      step_of_some (List.getElem?_set_self hindex), List.set_set]
    exact hrun
  · obtain ⟨routine, faults⟩ := worker
    obtain rfl : faults = [] := hfaults
    cases routine <;> exact hend rfl

lemma comesToEnd {workers : List Worker} {index : Nat} (hindex : index < workers.length)
    (volume : Volume) (worker : Worker) :
    ComesToEnd workers index volume worker := by
  obtain ⟨routine, faults⟩ := worker
  induction routine generalizing volume faults with
  | done outcome => exact ⟨0, volume, outcome, faults, rfl, fun hfaults => ⟨hfaults, rfl⟩⟩
  | present path next ih => exact comesToEnd_of_step hindex (ih _ _ _)
  | read path next ih => exact comesToEnd_of_step hindex (ih _ _ _)
  | perform action next ih => exact comesToEnd_of_step hindex (ih _ _ _)

/-- All extractions come to their end, one after the other. -/
lemma exists_run_workers (workers front : List Worker) (volume : Volume) :
    ∃ schedule volume' outcomes ended, Pool.run ⟨volume, front ++ workers⟩ schedule =
      ⟨volume', front ++ ended⟩ ∧
      ended.map (·.routine.value?) = outcomes.map some ∧
      ((∀ worker ∈ workers, worker.faults = []) →
        Routine.runAll (workers.map Worker.routine) volume = (outcomes, volume')) := by
  induction workers generalizing front volume with
  | nil => exact ⟨[], volume, [], [], rfl, rfl, fun _ => rfl⟩
  | cons worker workers ih =>
      have hindex : front.length < (front ++ worker :: workers).length := by simp
      obtain ⟨count, volume', outcome, rest, hrun, hend⟩ := comesToEnd hindex volume worker
      have hset : ∀ worker', (front ++ worker :: workers).set front.length worker' =
          (front ++ [worker']) ++ workers := by
        intro worker'
        simp
      rw [hset, hset] at hrun
      obtain ⟨schedule, volume'', outcomes, ended, hruns, hvalues, hends⟩ :=
        ih (front ++ [⟨.done outcome, rest⟩]) volume'
      refine ⟨List.replicate count front.length ++ schedule, volume'', outcome :: outcomes,
        ⟨.done outcome, rest⟩ :: ended, ?_, ?_, fun hfaults => ?_⟩
      · rw [List.append_assoc, List.singleton_append] at hrun
        rw [run_append, hrun, hruns, List.append_assoc]
        rfl
      · rw [List.map_cons, List.map_cons, hvalues]
        rfl
      · rw [List.forall_mem_cons] at hfaults
        rw [List.map_cons, Routine.runAll, (hend hfaults.1).2, hends hfaults.2]

end Pool

end

/-- To extract archives one after the other is to run their routines one after the other. -/
lemma mapM_extractJar {δ : Type} [Storage δ] (config : Config) (period : Period)
    (jobs : List (String × String)) (storage : δ) (log : Array LogEvent) :
    Routine.runAll (jobs.map fun job => Routine.extractJar config period job.1 job.2) storage =
      (((jobs.mapM fun job => extractJar config period job.1 job.2 : Run δ (List JarOutcome))
        (storage, log)).1,
        ((jobs.mapM fun job => extractJar config period job.1 job.2 : Run δ (List JarOutcome))
        (storage, log)).2.1) := by
  induction jobs generalizing storage log with
  | nil => rfl
  | cons job jobs ih =>
      have hrun := Routine.run_extractJar config period job.1 job.2 storage log
      rw [List.map_cons, Routine.runAll, hrun, List.mapM_cons]
      have hrest := ih (extractJar config period job.1 job.2 (storage, log)).2.1
        (extractJar config period job.1 job.2 (storage, log)).2.2
      rw [hrest]
      rfl

/-- The archives and the directories they go to. -/
def jobsOf (root : String) (jars : List String) : List (String × String) :=
  jars.zip (OutputDirectory.ofJars root jars)

/-- Archives whose paths keep clear of what is made for the others do not get into each other's
way. -/
lemma apart_of_pairwise {config : OutputConfig} {begin : Volume} {root : String}
    {jars : List String} (hstems : ∀ jar ∈ jars, Path.HasStem jar)
    (hclear : (jobsOf root jars).Pairwise fun job job' =>
      ClearOf config begin job.1 job'.2 ∧ ClearOf config begin job'.1 job.2) :
    Apart config begin (jobsOf root jars) := by
  replace hstems := fun jar hjar => (hstems jar hjar).not_isDotted
  refine ⟨fun job hjob => ?_, fun {index index' job job'} hjob hjob' hne => ?_,
    fun {index index' job job'} hjob hjob' hne => ?_⟩
  · obtain ⟨name, hname, hdirectory⟩ :=
      OutputDirectory.isBelow_of_mem_ofJars hstems (List.of_mem_zip hjob).2
    rw [hdirectory]
    exact endsInStep_join hname root
  · have hdirectory := (List.getElem?_zip_eq_some.mp hjob).2
    have hdirectory' := (List.getElem?_zip_eq_some.mp hjob').2
    obtain ⟨name, hname, hjoin⟩ :=
      OutputDirectory.isBelow_of_mem_ofJars hstems (List.mem_of_getElem? hdirectory)
    obtain ⟨name', hname', hjoin'⟩ :=
      OutputDirectory.isBelow_of_mem_ofJars hstems (List.mem_of_getElem? hdirectory')
    refine ⟨root, name, name', hname, hname', ?_, hjoin, hjoin'⟩
    rintro rfl
    have hlt := (List.getElem?_eq_some_iff.mp hdirectory).1
    exact hne ((List.getElem?_inj hlt (OutputDirectory.nodup_ofJars root jars)).mp
      (by rw [hdirectory, hdirectory', hjoin, hjoin'])).symm
  · obtain ⟨hlt, rfl⟩ := List.getElem?_eq_some_iff.mp hjob
    obtain ⟨hlt', rfl⟩ := List.getElem?_eq_some_iff.mp hjob'
    rw [List.pairwise_iff_getElem] at hclear
    rcases Nat.lt_or_gt_of_ne hne with hbefore | hbehind
    · exact (hclear index' index hlt' hlt hbefore).2
    · exact (hclear index index' hlt hlt' hbehind).1

/-! ## What comes of each archive -/

/-- What comes of an archive alone, and the volume it leaves. -/
def extractAlone (config : Config) (period : Period) (volume : Volume)
    (faults : List (Option StorageFault)) (jar directory : String) : JarOutcome × Volume :=
  let (outcome, trial, _) :=
    extractJar config period jar directory ((⟨volume, faults, []⟩ : Trial), #[])
  (outcome, trial.volume)

/-- What came of an archive is what comes of it alone: the outcome is the same, and so is everything
in its directory.  Or the directory cannot be made in either case, perhaps for different reasons,
and there are the same files in its place. -/
def Undisturbed (outcome : JarOutcome) (volume : Volume) (alone : JarOutcome × Volume) : Prop :=
  (outcome = alone.1 ∧
      ∀ place, volume.landing outcome.directory <+: place →
        volume.node? place = alone.2.node? place) ∨
    ∃ fault fault', outcome = Routine.unmade outcome.jar outcome.directory fault ∧
      alone.1 = Routine.unmade outcome.jar outcome.directory fault' ∧
      ∀ place, volume.landing outcome.directory <+: place →
        volume.fileAt? place = alone.2.fileAt? place

section

variable {config : Config} {period : Period} {begin volume : Volume} {jar directory : String}
  {faults rest : List (Option StorageFault)} {others : List String} {outcome : JarOutcome}

lemma extractAlone_eq_run : extractAlone config period begin faults jar directory =
    (((Routine.extractJar config period jar directory).run (⟨begin, faults, []⟩ : Trial)).1,
      ((Routine.extractJar config period jar directory).run
      (⟨begin, faults, []⟩ : Trial)).2.volume) := by
  rw [Routine.run_extractJar config period jar directory _ #[]]
  rfl

lemma extractJar_fst {δ : Type} [Storage δ] (config : Config) (period : Period)
    (jar directory : String) (state : δ × Array LogEvent) :
    (extractJar config period jar directory state).1.jar = jar ∧
      (extractJar config period jar directory state).1.directory = directory := by
  obtain ⟨storage, log⟩ := state
  unfold extractJar
  dsimp only
  split <;> exact ⟨rfl, rfl⟩

/-- An extraction that is done is undisturbed. -/
lemma Progress.undisturbed
    (h : Progress config period begin jar directory faults others volume ⟨.done outcome, rest⟩) :
    outcome.jar = jar ∧ outcome.directory = directory ∧
      Undisturbed outcome volume (extractAlone config period begin faults jar directory) := by
  cases h with
  | @working _ trial hkeeps hrun h =>
      have halone : extractAlone config period begin faults jar directory =
          (outcome, trial.volume) := by
        rw [extractAlone_eq_run, ← hrun, Routine.run]
      have hassigned : (extractAlone config period begin faults jar directory).1.jar = jar ∧
          (extractAlone config period begin faults jar directory).1.directory = directory :=
        extractJar_fst config period jar directory ((⟨begin, faults, []⟩ : Trial), #[])
      rw [halone] at hassigned ⊢
      obtain ⟨hjar, hdirectory⟩ := hassigned
      refine ⟨hjar, hdirectory, .inl ⟨rfl, fun place hbelow => ?_⟩⟩
      rw [hdirectory, landing_congr h.workingDirectory] at hbelow
      exact h.agree.node place (.inr (.inl hbelow))
  | @failed fault fault' _ trial hrun h =>
      have halone : extractAlone config period begin faults jar directory =
          (Routine.unmade jar directory fault', trial.volume) := by
        rw [extractAlone_eq_run, hrun]
      rw [halone]
      refine ⟨rfl, rfl, .inr ⟨fault, fault', rfl, rfl, fun place hbelow => ?_⟩⟩
      rw [landing_congr h.workingDirectory] at hbelow
      exact h.file place hbelow

end

namespace Pool

section

variable {config : Config} {period : Period} {begin : Volume} {jobs : List (String × String)}
  {faults : Nat → List (Option StorageFault)} {pool : Pool} {outcomes : List JarOutcome}

lemma Sound.length_outcomes (h : Sound config period begin jobs faults pool)
    (houtcomes : pool.outcomes? = some outcomes) :
    outcomes.length = jobs.length := by
  have hmap := congrArg List.length (outcomes?_eq_some_iff.mp houtcomes)
  rw [List.length_map, List.length_map, h.length] at hmap
  exact hmap.symm

/-- When all extractions are done, the outcome in each position is that of the archive there, and
undisturbed. -/
lemma Sound.undisturbed (h : Sound config period begin jobs faults pool)
    (houtcomes : pool.outcomes? = some outcomes)
    {index : Nat} {outcome : JarOutcome} (houtcome : outcomes[index]? = some outcome) :
    jobs[index]? = some (outcome.jar, outcome.directory) ∧
      Undisturbed outcome pool.volume
        (extractAlone config period begin (faults index) outcome.jar outcome.directory) := by
  have hlt := (List.getElem?_eq_some_iff.mp houtcome).1
  rw [h.length_outcomes houtcomes] at hlt
  have hjob := List.getElem?_eq_getElem hlt
  obtain ⟨worker, hworker, hprogress⟩ := h.progress index _ hjob
  obtain ⟨rest, hdone⟩ := exists_done_of_outcomes? houtcomes houtcome
  obtain rfl := Option.some.inj (hworker.symm.trans hdone)
  obtain ⟨hjar, hdirectory, hundisturbed⟩ := hprogress.undisturbed
  rw [hjob, hjar, hdirectory]
  exact ⟨rfl, hundisturbed⟩

/-- There is one outcome for each archive, in order. -/
lemma Sound.map_outcomes (h : Sound config period begin jobs faults pool)
    (houtcomes : pool.outcomes? = some outcomes) :
    outcomes.map (fun outcome => (outcome.jar, outcome.directory)) = jobs := by
  refine List.ext_getElem? fun index => ?_
  rw [List.getElem?_map]
  cases houtcome : outcomes[index]? with
  | none =>
      rw [List.getElem?_eq_none_iff, h.length_outcomes houtcomes] at houtcome
      rw [List.getElem?_eq_none houtcome]
      rfl
  | some outcome => exact (h.undisturbed houtcomes houtcome).1.symm

end

/-- Some order of the steps takes every extraction to its end. -/
lemma exists_outcomes (pool : Pool) :
    ∃ schedule outcomes, (pool.run schedule).outcomes? = some outcomes := by
  obtain ⟨schedule, volume, outcomes, ended, hrun, hvalues, -⟩ :=
    exists_run_workers pool.workers [] pool.volume
  rw [List.nil_append, List.nil_append] at hrun
  refine ⟨schedule, outcomes, ?_⟩
  rw [outcomes?_eq_some_iff, hrun]
  exact hvalues

end Pool

/-- To extract the archives of a list is one way to run them side by side. -/
lemma exists_run_extractJars (config : Config) (period : Period) (root : String)
    (jars : List String) (volume : Volume) :
    ∃ schedule,
      ((Pool.start config period (jobsOf root jars) (fun _ => []) volume).run schedule).outcomes? =
        some (extractJars config period root jars (volume, #[])).1 ∧
      ((Pool.start config period (jobsOf root jars) (fun _ => []) volume).run schedule).volume =
        (extractJars config period root jars (volume, #[])).2.1 := by
  generalize hpool : Pool.start config period (jobsOf root jars) (fun _ => []) volume = pool
  obtain ⟨schedule, volume', outcomes, ended, hrun, hvalues, hall⟩ :=
    Pool.exists_run_workers pool.workers [] pool.volume
  replace hrun : pool.run schedule = ⟨volume', ended⟩ := hrun
  have hroutines : pool.workers.map Worker.routine =
      (jobsOf root jars).map fun job => Routine.extractJar config period job.1 job.2 := by
    subst hpool
    refine List.ext_getElem? fun index => ?_
    rw [List.getElem?_map, Pool.start, List.getElem?_mapIdx, Option.map_map, List.getElem?_map]
    rfl
  have hfaults : ∀ worker ∈ pool.workers, worker.faults = [] := by
    subst hpool
    intro worker hworker
    obtain ⟨index, hindex, rfl⟩ := List.mem_mapIdx.mp hworker
    rfl
  have hvolume : pool.volume = volume := by rw [← hpool, Pool.start]
  have hextract := hall hfaults
  rw [hroutines, hvolume, mapM_extractJar config period _ volume #[]] at hextract
  obtain ⟨houtcomes, hleft⟩ := Prod.mk.inj hextract
  refine ⟨schedule, ?_, ?_⟩
  · rw [Pool.outcomes?_eq_some_iff, hrun, hvalues, ← houtcomes]
    rfl
  · rw [hrun]
    exact hleft.symm

/-- Archives that are extracted side by side do not interfere.  Whatever turns the extractions take
and whichever of their actions fail, they can come to their end, and when they have, there is one
outcome for each archive, in order, and the outcome and the contents of its directory are what comes
of the archive alone, with the same of its own actions failing.  To extract the archives of a list
is to take them in one of these orders.

The paths of the archives have to keep clear of what is made for the others: one that leads through
a directory of another archive may find a file that alone it does not find. -/
theorem archives_do_not_interfere {config : Config} (hnames : config.output.NamesApart)
    (period : Period) (root : String)
    {jars : List String} (hstems : ∀ jar ∈ jars, Path.HasStem jar) {volume : Volume}
    (hclear : (jobsOf root jars).Pairwise fun job job' =>
      ClearOf config.output volume job.1 job'.2 ∧ ClearOf config.output volume job'.1 job.2)
    (faults : Nat → List (Option StorageFault)) (schedule : List Nat) :
    let pool := (Pool.start config period (jobsOf root jars) faults volume).run schedule
    (∃ rest outcomes, (pool.run rest).outcomes? = some outcomes) ∧
      (∀ outcomes, pool.outcomes? = some outcomes →
        outcomes.map JarOutcome.jar = jars ∧
        outcomes.map JarOutcome.directory = OutputDirectory.ofJars root jars ∧
          ∀ index outcome, outcomes[index]? = some outcome → Undisturbed outcome pool.volume
            (extractAlone config period volume (faults index) outcome.jar outcome.directory)) ∧
      ∃ turns,
        ((Pool.start config period (jobsOf root jars) (fun _ => []) volume).run turns).outcomes? =
          some (extractJars config period root jars (volume, #[])).1 ∧
        ((Pool.start config period (jobsOf root jars) (fun _ => []) volume).run turns).volume =
          (extractJars config period root jars (volume, #[])).2.1 := by
  intro pool
  have hapart := apart_of_pairwise hstems hclear
  have hsound : pool.Sound config period volume (jobsOf root jars) faults :=
    (Pool.sound_start config period volume (jobsOf root jars) faults).run hnames hapart schedule
  refine ⟨pool.exists_outcomes, fun outcomes houtcomes => ?_,
    exists_run_extractJars config period root jars volume⟩
  have hjobs := hsound.map_outcomes houtcomes
  have hlength : (OutputDirectory.ofJars root jars).length = jars.length :=
    OutputDirectory.length_ofJars root jars
  refine ⟨?_, ?_, fun index outcome houtcome => (hsound.undisturbed houtcomes houtcome).2⟩
  · have hfirst := congrArg (List.map Prod.fst) hjobs
    rw [jobsOf, List.map_map, List.map_fst_zip hlength.ge] at hfirst
    exact hfirst
  · have hsecond := congrArg (List.map Prod.snd) hjobs
    rw [jobsOf, List.map_map, List.map_snd_zip hlength.le] at hsecond
    exact hsecond

/-- A period without length. -/
def instantly : Period := ⟨⟨0, 0, 0⟩, ⟨0, 0, 0⟩⟩

/-- An archive with no entries. -/
def emptyArchive : Bytes := [80, 75, 5, 6] ++ List.replicate 18 0

/-- Two archives of one name. -/
def namesakes : List String := ["lib.jar", "old/lib.jar"]

/-- A volume with both of them. -/
def namesakesVolume : Volume :=
  ⟨["work"],
    [(["work"], .directory), (["work", "old"], .directory),
    (["work", "lib.jar"], .file emptyArchive), (["work", "old", "lib.jar"], .file emptyArchive)]⟩

/-- The third action for the first archive fails. -/
def namesakesFaults : Nat → List (Option StorageFault)
  | 0 => [none, none, some .refused]
  | _ => []

/-- The two take turns, the second one first. -/
def namesakesTurns : List Nat := (List.replicate 20 [1, 0]).flatten

def namesakesEnd : Pool :=
  (Pool.start .default instantly (jobsOf "out" namesakes) namesakesFaults namesakesVolume).run
    namesakesTurns

lemma namesakesEnd_results :
    namesakesEnd.outcomes?.map (·.map (·.result.isOk)) = some [false, true] := by
  decide +kernel

/-- The first archive fails, and the second is extracted in between as if it were alone. -/
theorem namesakes_do_not_interfere :
    ∃ outcomes, namesakesEnd.outcomes? = some outcomes ∧
      outcomes.map (·.result.isOk) = [false, true] ∧
      outcomes.map JarOutcome.jar = namesakes ∧
      outcomes.map JarOutcome.directory = ["out/lib", "out/lib-2"] ∧
      ∀ index outcome, outcomes[index]? = some outcome → Undisturbed outcome namesakesEnd.volume
        (extractAlone .default instantly namesakesVolume (namesakesFaults index) outcome.jar
          outcome.directory) := by
  have hnames : Config.default.output.NamesApart := by decide +kernel
  have hstems : ∀ jar ∈ namesakes, Path.HasStem jar := by decide +kernel
  have hclear : (jobsOf "out" namesakes).Pairwise fun job job' =>
      ClearOf Config.default.output namesakesVolume job.1 job'.2 ∧
        ClearOf Config.default.output namesakesVolume job'.1 job.2 := by
    decide +kernel
  have hdirectories : OutputDirectory.ofJars "out" namesakes = ["out/lib", "out/lib-2"] := by
    decide +kernel
  have hresults := namesakesEnd_results
  unfold namesakesEnd at hresults ⊢
  obtain ⟨-, hdone, -⟩ :=
    archives_do_not_interfere hnames instantly "out" hstems hclear namesakesFaults namesakesTurns
  generalize (Pool.start .default instantly (jobsOf "out" namesakes) namesakesFaults
    namesakesVolume).run namesakesTurns = pool at hresults hdone ⊢
  obtain ⟨outcomes, houtcomes, hresults⟩ := Option.map_eq_some_iff.mp hresults
  obtain ⟨hjars, hwhere, hundisturbed⟩ := hdone outcomes houtcomes
  exact ⟨outcomes, houtcomes, hresults, hjars, hwhere.trans hdirectories, hundisturbed⟩

/-- The second path leads through the directory of the first archive and out again. -/
def detour : List String := ["lib.jar", "out/lib/../../a.jar"]

/-- The files that the paths of `detour` lead to, as soon as there are directories on the way. -/
def detourVolume : Volume :=
  ⟨["work"],
    [(["work"], .directory), (["work", "lib.jar"], .file []), (["work", "a.jar"], .file [])]⟩

/-- There is a file on the way to a root that has still to be made. -/
def blockedRoot : String := "a/../f/b"

def blockedVolume : Volume :=
  ⟨["work"], [(["work"], .directory), (["work", "f"], .file [])]⟩

/-- It is not enough that no archive is a file that is written.  A path that leads through a
directory of another archive finds a file that alone it does not find; and where a directory cannot
be made, the reason depends on what has been made before. -/
theorem archives_interfere_on_the_way :
    (OutputConfig.default.NamesApart ∧ (∀ jar ∈ detour, Path.HasStem jar) ∧
      (∀ jar ∈ detour, ∀ directory ∈ OutputDirectory.ofJars "out" detour,
        ∀ name ∈ OutputConfig.default.names,
        detourVolume.landing jar ≠ detourVolume.landing directory ++ [name]) ∧
      ((extractJars .default instantly "out" detour (detourVolume, #[])).1.map (·.result))[1]? =
        some (.error (.notAnArchive "out/lib/../../a.jar")) ∧
      (extractJar .default instantly "out/lib/../../a.jar" "out/a" (detourVolume, #[])).1.result =
        .error (.unreadable "out/lib/../../a.jar" .notFound)) ∧
    (((jobsOf blockedRoot ["x.jar", "y.jar"]).Pairwise fun job job' =>
        ClearOf .default blockedVolume job.1 job'.2 ∧ ClearOf .default blockedVolume job'.1 job.2) ∧
      ((extractJars .default instantly blockedRoot ["x.jar", "y.jar"] (blockedVolume, #[])).1.map
        (·.result))[1]? =
        some (.error (.sink (.io "a/../f/b/y" .notADirectory))) ∧
      (extractJar .default instantly "y.jar" "a/../f/b/y" (blockedVolume, #[])).1.result =
        .error (.sink (.io "a/../f/b/y" .alreadyExists))) := by
  refine ⟨⟨?_, ?_, ?_, ?_, ?_⟩, ?_, ?_, ?_⟩ <;> decide +kernel

end Batch

end JarFacts
