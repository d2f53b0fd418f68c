import Mathlib.Tactic.Common
import JarFacts.Jar.Batch
import JarFacts.Proofs.Jar.Truncation
import JarFacts.Proofs.Sink.Routine

/-!
# An extraction, step by step

What a walk through an archive writes does not depend on the sink, so that it can be had in advance
(`Walk.plan`): all that is left to do on the store is to read the archive and to offer what is
planned.  With that the extraction of an archive is a routine, which does on every store what the
extraction does (`run_extractJar`).  First it makes the directory of the archive, and from there on
it asks for nothing but the archive and the files of the directory (`keeps_extractFiles`).
-/

namespace JarFacts

lemma Recorder.offer_unlimited (writes : List SinkWrite) (accepted : Array SinkWrite)
    (counts : FactCounts) :
    (FactSink.offer writes (⟨accepted, none, false⟩ : Recorder) counts).1 = .ok () ∧
      (FactSink.offer writes (⟨accepted, none, false⟩ : Recorder) counts).2.1 =
        ⟨accepted ++ writes.toArray, none, false⟩ := by
  induction writes generalizing accepted counts with
  | nil => exact ⟨rfl, by simp [FactSink.offer]⟩
  | cons write writes ih =>
      rw [FactSink.offer, Recorder.take_unlimited]
      obtain ⟨hok, hsink⟩ := ih (accepted.push write) (counts.countWrite write)
      refine ⟨hok, hsink.trans ?_⟩
      simp

namespace Walk

lemma scripted_file (config : ExtractionConfig) (period : Period) (path : String)
    (content : Except StorageFault Bytes) :
    Scripted fun σ _ => file (σ := σ) config period path content := by
  cases content with
  | ok bytes => exact scripted_archive config period path _ bytes
  | error fault => exact .throw _

/-- What a walk through an archive has to write, and how it ends when all that is taken. -/
def plan (config : ExtractionConfig) (period : Period) (path : String)
    (content : Except StorageFault Bytes) :
    Script WalkSummary :=
  let run := start (file config period path content) (Recorder.new none false)
  ⟨run.2.sink.accepted.toList, run.1⟩

/-- On every sink a walk follows its plan. -/
lemma start_file (config : ExtractionConfig) (period : Period) (path : String)
    (content : Except StorageFault Bytes) {σ : Type} [FactSink σ] (sink : σ) :
    (start (file config period path content) sink).1 =
      ((plan config period path content).perform sink .zero).1 ∧
      (start (file config period path content) sink).2.sink =
        (FactSink.offer (plan config period path content).writes sink .zero).2.1 := by
  obtain ⟨script, hscript⟩ := (scripted_file config period path content).exists_script
  have hplan : plan config period path content = script := by
    obtain ⟨hresult, hsink, -⟩ := hscript Recorder (.new none false)
    obtain ⟨hok, haccepted⟩ := Recorder.offer_unlimited script.writes #[] .zero
    rw [plan, hresult, hsink, Recorder.new, Script.perform_of_ok hok, haccepted]
    simp
  obtain ⟨hresult, hsink, -⟩ := hscript σ sink
  rw [hplan]
  exact ⟨hresult, hsink⟩

end Walk

namespace Routine

variable (config : Config) (period : Period) (jar directory : String)

/-- The outcome of an archive whose directory could not be made. -/
def unmade (fault : StorageFault) : JarOutcome :=
  ⟨jar, directory, .error (.sink (.io directory fault))⟩

/-- What is left to do for an archive when its sink is open. -/
def walkInto (sink : LinesSink) : Routine JarOutcome :=
  .read jar fun content => do
    let plan := Walk.plan config.extraction period jar content
    let (result, sink) ← Sink.offer plan.writes sink
    Sink.close sink
    match result with
    | .ok () => return ⟨jar, directory, plan.outcome⟩
    | .error error => return ⟨jar, directory, .error (.sink error)⟩

/-- What is left to do for an archive when its directory is there. -/
def extractFiles : Routine JarOutcome := do
  match ← (Sink.openFiles directory config.output).run with
  | .error error => return ⟨jar, directory, .error (.sink error)⟩
  | .ok sink => walkInto config period jar directory sink

/-- Extracts an archive into a directory. -/
def extractJar : Routine JarOutcome :=
  .perform (.makeDirectories directory) fun
    | .error fault => .done (unmade jar directory fault)
    | .ok () => extractFiles config period jar directory

section
variable {δ : Type} [Storage δ]

lemma run_walkInto (sink : LinesSink) (storage : δ) (log : Array LogEvent) :
    (walkInto config period jar directory sink).run storage =
      (⟨jar, directory, (Batch.walkInto config.extraction period jar sink (storage, log)).1⟩,
        (Batch.walkInto config.extraction period jar sink (storage, log)).2.1) := by
  let output : LinesOutput δ := ⟨sink, storage, #[]⟩
  let content := Storage.read jar storage
  obtain ⟨hresult, hsink⟩ := Walk.start_file config.extraction period jar content output
  have hoffer :=
    Sink.runPair_offer (Walk.plan config.extraction period jar content).writes output .zero
  simp only [runPair, Prod.mk.injEq] at hoffer
  obtain ⟨hanswer, hsink', hstorage⟩ := hoffer
  have hwalk : (Batch.walkInto config.extraction period jar sink (storage, log)).2.1 =
      (Walk.start (Walk.file config.extraction period jar content) output).2.sink.sink.close
        (Walk.start (Walk.file config.extraction period jar content) output).2.sink.storage := rfl
  have hwalk' : (Batch.walkInto config.extraction period jar sink (storage, log)).1 =
      (Walk.start (Walk.file config.extraction period jar content) output).1 := rfl
  rw [hwalk, hwalk', hresult, hsink, ← hsink', ← hstorage, walkInto, run, run_bind,
    run_bind, ← Sink.run_close]
  cases hcase :
    ((Sink.offer (Walk.plan config.extraction period jar content).writes sink).run storage).1.1 with
  | error error =>
      rw [hcase] at hanswer
      rw [Script.perform_of_error hanswer.symm]
      rfl
  | ok done =>
      rw [hcase] at hanswer
      rw [Script.perform_of_ok hanswer.symm]
      rfl

/-- Step by step or at once, an extraction comes to the same. -/
lemma run_extractJar (storage : δ) (log : Array LogEvent) :
    (extractJar config period jar directory).run storage =
      ((Batch.extractJar config period jar directory (storage, log)).1,
        (Batch.extractJar config period jar directory (storage, log)).2.1) := by
  have hcreate := Sink.tells_create directory config.output δ storage
  have hmake : (Sink.perform directory (.makeDirectories directory)).run.run storage =
      (LineChannel.located directory (Storage.perform (.makeDirectories directory) storage).1,
        (Storage.perform (.makeDirectories directory) storage).2) := rfl
  rw [Sink.create, run_exceptBind, hmake] at hcreate
  rw [Batch.extractJar, ← hcreate, extractJar, run]
  rcases Storage.perform (.makeDirectories directory) storage with ⟨_ | _, storage'⟩
  · rfl
  · dsimp only [LineChannel.located]
    rw [extractFiles, run_bind]
    rcases (Sink.openFiles directory config.output).run.run storage' with ⟨_ | sink, storage''⟩
    · rfl
    · exact run_walkInto config period jar directory sink storage'' _

end

/-- When its directory is there, an archive needs nothing but itself and the files of the
directory. -/
lemma keeps_extractFiles :
    (extractFiles config period jar directory).Keeps (jarPermit jar directory config.output)
      fun _ => True := by
  refine Sink.keeps_openFiles.bind fun result hresult => ?_
  cases result with
  | error error => exact trivial
  | ok sink =>
      refine ⟨rfl, fun content => ?_⟩
      refine (Sink.keeps_offer _ (hresult sink rfl)).bind fun written hserves => ?_
      refine (Sink.keeps_closeAll hserves _).bind fun _ _ => ?_
      cases written.1 <;> exact trivial

end Routine

end JarFacts
