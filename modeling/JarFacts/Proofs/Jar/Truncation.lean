import JarFacts.Jar.Walk
import JarFacts.Proofs.Extract.Entry
import JarFacts.Proofs.Jar.Isolation
import JarFacts.Proofs.Sink.Trace

/-!
# A failing sink cuts a walk short

A write may fail in the middle of a walk, deep inside a class.  Nothing is written on the way out
then, and nothing was written before that would not have been written anyway.

What a walk comes to is a `Script`: what it has to write, and how it ends when all that is written.
The script is computed without the sink (`Walk.Scripted`); the sink only says how far it is
followed.  So two walks through one archive follow one script, and on a sink that gives up they
differ in nothing but in how far they get.
-/

namespace JarFacts

namespace Fact

def isEntity : Fact → Bool
  | .entity _ => true
  | _ => false

def isRelation : Fact → Bool
  | .relation _ => true
  | _ => false

def isFile : Fact → Bool
  | .file _ => true
  | _ => false

def isParam : Fact → Bool
  | .param _ => true
  | _ => false

end Fact

namespace FactCounts

lemma foldl_countWrite (writes : List SinkWrite) (counts : FactCounts) :
    writes.foldl countWrite counts = (writes.filterMap SinkWrite.fact?).foldl count counts := by
  induction writes generalizing counts with
  | nil => rfl
  | cons write rest ih => cases write <;> exact ih _

/-- Facts that are counted one by one are added to the counts of their families. -/
lemma foldl_count (facts : List Fact) (counts : FactCounts) :
    facts.foldl count counts = counts.add
      ⟨facts.countP Fact.isEntity, facts.countP Fact.isRelation, facts.countP Fact.isFile,
        facts.countP Fact.isParam⟩ := by
  induction facts generalizing counts with
  | nil => rfl
  | cons fact rest ih =>
      rw [List.foldl_cons, ih]
      cases fact <;>
        simp [count, add, List.countP_cons, Fact.isEntity, Fact.isRelation, Fact.isFile,
          Fact.isParam] <;> omega

lemma ofList_eq (facts : List Fact) :
    ofList facts =
      ⟨facts.countP Fact.isEntity, facts.countP Fact.isRelation, facts.countP Fact.isFile,
      facts.countP Fact.isParam⟩ := by
  simp [ofList, foldl_count, add, zero]

end FactCounts

/-- Writes, and how to end when they are all taken. -/
structure Script (α : Type) where
  writes : List SinkWrite
  outcome : Except WalkError α

namespace Script

variable {α β : Type}

/-- One script after the other; the second is not begun where the first ends in an error. -/
def append (script : Script α) (next : α → Script β) : Script β :=
  match script.outcome with
  | .ok value => ⟨script.writes ++ (next value).writes, (next value).outcome⟩
  | .error error => ⟨script.writes, .error error⟩

/-- Follows a script as far as a sink takes it. -/
def perform {σ : Type} [FactSink σ] (script : Script α) (sink : σ) (counts : FactCounts) :
    Except WalkError α × σ × FactCounts :=
  match FactSink.offer script.writes sink counts with
  | (.ok (), sink, counts) => (script.outcome, sink, counts)
  | (.error error, sink, counts) => (.error (.sink error), sink, counts)

section
variable {σ : Type} [FactSink σ] (script : Script α) (sink : σ) (counts : FactCounts)

lemma perform_snd :
    (script.perform sink counts).2 = (FactSink.offer script.writes sink counts).2 := by
  unfold perform
  rcases FactSink.offer script.writes sink counts with ⟨_ | _, sink', counts'⟩ <;> rfl

variable {script sink counts}

lemma perform_of_ok (h : (FactSink.offer script.writes sink counts).1 = .ok ()) :
    (script.perform sink counts).1 = script.outcome := by
  unfold perform
  rcases hoffer : FactSink.offer script.writes sink counts with ⟨_ | _, sink', counts'⟩
  · rw [hoffer] at h
    cases h
  · rfl

lemma perform_of_error {error : SinkError}
    (h : (FactSink.offer script.writes sink counts).1 = .error error) :
    (script.perform sink counts).1 = .error (.sink error) := by
  unfold perform
  rcases hoffer : FactSink.offer script.writes sink counts with ⟨_ | _, sink', counts'⟩ <;>
    rw [hoffer] at h
  · cases h
    rfl
  · cases h

end

lemma perform_append {σ : Type} [FactSink σ] (script : Script α) (next : α → Script β) (sink : σ)
    (counts : FactCounts) :
    (script.append next).perform sink counts =
      match script.perform sink counts with
      | (.ok value, sink, counts) => (next value).perform sink counts
      | (.error error, sink, counts) => (.error error, sink, counts) := by
  rcases script with ⟨writes, error | value⟩
  · simp only [append, perform]
    rcases FactSink.offer writes sink counts with ⟨_ | _, sink', counts'⟩ <;> rfl
  · simp only [append, perform, FactSink.offer_append]
    rcases FactSink.offer writes sink counts with ⟨_ | _, sink', counts'⟩ <;> rfl

end Script

/-- The tally behind a class entry whose account is told to its end or is refused. -/
def Tally.settled (tally : Tally) : Except Refusal Unit → Tally
  | .ok _ => { tally with seen := tally.seen + 1, extracted := tally.extracted + 1 }
  | .error _ => { tally with seen := tally.seen + 1, failed := tally.failed + 1 }

namespace Walk

variable {α β : Type}

/-! ## Steps that follow a script -/

/-- Whatever the sink is, the step follows a script that is made from the counts alone. -/
def Scripted (step : (σ : Type) → [FactSink σ] → Walk σ α) : Prop :=
  ∃ script : FactCounts → Script α, ∀ (σ : Type) [FactSink σ] (context : ExtractContext σ),
    (((step σ).run.run context).1, ((step σ).run.run context).2.sink,
      ((step σ).run.run context).2.counts) =
      (script context.counts).perform context.sink context.counts

namespace Scripted

lemma pure (value : α) : Scripted fun _ => pure value :=
  ⟨fun _ => ⟨[], .ok value⟩, fun _ _ _ => rfl⟩

lemma throw (error : WalkError) : Scripted (α := α) fun _ => throw error :=
  ⟨fun _ => ⟨[], .error error⟩, fun _ _ _ => rfl⟩

lemma bind {step : (σ : Type) → [FactSink σ] → Walk σ α}
    {next : α → (σ : Type) → [FactSink σ] → Walk σ β}
    (hstep : Scripted step) (hnext : ∀ value, Scripted (next value)) :
    Scripted fun σ _ => step σ >>= fun value => next value σ := by
  obtain ⟨script, hscript⟩ := hstep
  choose more hmore using hnext
  -- The second script starts from the counts that the first one leaves when it is followed to its
  -- end.
  refine ⟨fun counts => (script counts).append fun value =>
    more value ((script counts).writes.foldl FactCounts.countWrite counts), fun σ _ context => ?_⟩
  have hhere := hscript σ context
  rw [Script.perform_append, ← hhere, run_bind]
  rcases hrun : (step σ).run.run context with ⟨error | value, context'⟩
  · rfl
  · rw [hrun] at hhere
    have hcounts : context'.counts =
        (script context.counts).writes.foldl FactCounts.countWrite context.counts := by
      unfold Script.perform at hhere
      rcases hoffer : FactSink.offer (script context.counts).writes context.sink context.counts
        with ⟨_ | _, sink', counts'⟩ <;> rw [hoffer] at hhere
      · cases hhere
      · rw [← FactSink.counts_of_offer hoffer]
        exact congrArg (·.2.2) hhere
    rw [← hcounts]
    exact hmore value σ context'

end Scripted

lemma scripted_write (fact : Fact) : Scripted fun σ _ => write (σ := σ) fact := by
  refine ⟨fun _ => ⟨[.fact fact], .ok ()⟩, fun σ _ context => ?_⟩
  simp only [write, run_lift_bind, Extract.run_emit, Script.perform, FactSink.offer, FactSink.take]
  rcases FactSink.write fact context.sink with ⟨_ | _, sink'⟩ <;> rfl

/-- What stands behind the last entry: the summary is made from the counts, written and returned. -/
def closing {σ : Type} [FactSink σ] (period : Period) (jar : String) (sha256 : Option String)
    (tally : Tally) :
    Walk σ WalkSummary := do
  let summary := summarize jar sha256 period tally (← get).counts
  finish summary
  modify fun context =>
    let event := .jarExtracted jar tally.extracted tally.failed summary.facts.total
    { context with log := context.log.push event }
  return summary

lemma scripted_closing (period : Period) (jar : String) (sha256 : Option String) (tally : Tally) :
    Scripted fun σ _ => closing (σ := σ) period jar sha256 tally := by
  refine ⟨fun counts => ⟨[.finish (summarize jar sha256 period tally counts)],
    .ok (summarize jar sha256 period tally counts)⟩, fun σ _ context => ?_⟩
  simp only [closing, finish, run_get_bind, bind_assoc, Script.perform,
    FactSink.offer, FactSink.take]
  rcases FactSink.finish (summarize jar sha256 period tally context.counts) context.sink with
    ⟨_ | _, sink'⟩ <;> rfl

/-- Behind a class entry whose facts were all taken the walk goes on, also where its account was
refused. -/
lemma run_classFile_of_verdict {σ : Type} [FactSink σ] {path : String} {bytes : Bytes}
    {context context' : ExtractContext σ} {verdict : Except Refusal Unit}
    (hrun : (Extract.entry path bytes).run.run context = (verdict.mapError Refusal.error, context'))
    (tally : Tally) :
    (classFile path bytes tally).run.run context = (.ok (tally.settled verdict), context') := by
  rw [classFile, run_lift_bind, hrun]
  rcases verdict with refusal | _
  · cases refusal <;> rfl
  · rfl

/-- A walk ends with a sink that has failed. -/
lemma run_classFile_of_sinkError {σ : Type} [FactSink σ] {path : String} {bytes : Bytes}
    {context context' : ExtractContext σ} {error : SinkError}
    (hrun : (Extract.entry path bytes).run.run context = (.error (.sink error), context'))
    (tally : Tally) :
    (classFile path bytes tally).run.run context = (.error (.sink error), context') := by
  rw [classFile, run_lift_bind, hrun]
  rfl

/-- A class file follows the account of its entry.  An account that is refused ends the entry
only. -/
lemma scripted_classFile (path : String) (bytes : Bytes) (tally : Tally) :
    Scripted fun σ _ => classFile (σ := σ) path bytes tally := by
  set account := entryAccount path bytes with haccount
  refine ⟨fun _ => ⟨account.facts.map .fact, .ok (tally.settled account.verdict)⟩,
    fun σ _ context => ?_⟩
  obtain ⟨scope, location, log, -, hrun⟩ := Extract.entry_run path bytes context
  rw [← haccount, Account.deliver_eq_offer] at hrun
  simp only [Script.perform]
  rcases hoffer : FactSink.offer (account.facts.map .fact) context.sink context.counts with
    ⟨_ | _, sink', counts'⟩ <;>
    rw [hoffer] at hrun
  · rw [run_classFile_of_sinkError hrun]
  · rw [run_classFile_of_verdict hrun]

lemma scripted_visit (config : ExtractionConfig) (jar : String) (tally : Tally)
    (entry : ArchiveEntry) :
    Scripted fun σ _ => visit (σ := σ) config jar tally entry := by
  unfold visit
  split
  · exact .throw _
  · split
    · exact .pure tally
    · split
      · exact .throw _
      · exact scripted_classFile _ _ tally

lemma scripted_foldlM_visit (config : ExtractionConfig) (jar : String) (list : List ArchiveEntry)
    (tally : Tally) :
    Scripted fun σ _ => list.foldlM (visit (σ := σ) config jar) tally := by
  induction list generalizing tally with
  | nil => exact .pure tally
  | cons entry rest ih =>
      simp only [List.foldlM_cons]
      exact (scripted_visit config jar tally entry).bind ih

/-- The walk up to its summary. -/
def through {σ : Type} [FactSink σ] (config : ExtractionConfig) (jar : String)
    (list : List ArchiveEntry) :
    Walk σ Tally := do
  write (jarFact jar)
  list.foldlM (visit config jar) Tally.zero

lemma scripted_through (config : ExtractionConfig) (jar : String) (list : List ArchiveEntry) :
    Scripted fun σ _ => through (σ := σ) config jar list :=
  (scripted_write (jarFact jar)).bind fun _ => scripted_foldlM_visit config jar list .zero

lemma entries_eq {σ : Type} [FactSink σ] (config : ExtractionConfig) (period : Period)
    (jar : String) (sha256 : Option String) (list : List ArchiveEntry) :
    entries (σ := σ) config period jar sha256 list = through config jar list >>=
      closing period jar sha256 := by
  rw [through, bind_assoc]
  rfl

lemma scripted_entries (config : ExtractionConfig) (period : Period) (jar : String)
    (sha256 : Option String) (list : List ArchiveEntry) : Scripted fun σ _ =>
      entries (σ := σ) config period jar sha256 list := by
  simp only [entries_eq]
  exact (scripted_through config jar list).bind fun tally =>
    scripted_closing period jar sha256 tally

lemma scripted_archive (config : ExtractionConfig) (period : Period) (jar : String)
    (sha256 : Option String)
    (bytes : Bytes) : Scripted fun σ _ => archive (σ := σ) config period jar sha256 bytes := by
  unfold archive
  split
  · exact scripted_entries config period jar sha256 _
  · exact .throw _

/-! ## One script on two sinks -/

variable {σ τ : Type}

/-- A run on a sink with a limit, against the same run on a sink that takes everything. -/
structure Truncated (limit : Nat) (free : Except WalkError α × ExtractContext (Traced σ))
    (cut : Except WalkError α × ExtractContext (Traced τ)) : Prop where
  /-- What is taken is the front part of what there is to write. -/
  accepted : cut.2.sink.accepted = free.2.sink.attempts.take limit
  /-- Where that is all of it, the end is the same. -/
  whole : free.2.sink.attempts.length ≤ limit → cut.1 = free.1
  /-- Where it is not, the write behind it is the last that is tried, and its error is the
  result. -/
  broken : limit < free.2.sink.attempts.length → ∃ error write,
    cut.1 = .error (.sink error) ∧
    free.2.sink.attempts[limit]? = some write ∧
    cut.2.sink.attempts = free.2.sink.attempts.take (limit + 1) ∧
    cut.2.sink.calls.getLast? = some (write, .error error)

/-- The facts that were taken. -/
def taken (context : ExtractContext (Traced σ)) : List Fact :=
  context.sink.accepted.filterMap SinkWrite.fact?

/-- Each count of the extraction is how many facts of its family were taken. -/
structure Counted (context : ExtractContext (Traced σ)) : Prop where
  entities : context.counts.entities = (taken context).countP Fact.isEntity
  relations : context.counts.relations = (taken context).countP Fact.isRelation
  files : context.counts.files = (taken context).countP Fact.isFile
  params : context.counts.params = (taken context).countP Fact.isParam

lemma Counted.of_eq {context : ExtractContext (Traced σ)}
    (h : context.counts = .ofList (taken context)) :
    Counted context := by
  rw [FactCounts.ofList_eq] at h
  exact ⟨congrArg _ h, congrArg _ h, congrArg _ h, congrArg _ h⟩

variable [FactSink σ] [FactSink τ] {step : (σ : Type) → [FactSink σ] → Walk σ α}

/-- A run from the start is one script for all sinks. -/
lemma Scripted.exists_script (h : Scripted step) : ∃ script :
    Script α, ∀ (σ : Type) [FactSink σ] (sink : σ),
    (start (step σ) sink).1 = (script.perform sink .zero).1 ∧
    (start (step σ) sink).2.sink = (FactSink.offer script.writes sink .zero).2.1 ∧
    (start (step σ) sink).2.counts = (FactSink.offer script.writes sink .zero).2.2 := by
  obtain ⟨script, hscript⟩ := h
  refine ⟨script .zero, fun σ _ sink => ?_⟩
  have hrun := hscript σ (.start sink)
  rw [← Script.perform_snd]
  exact ⟨congrArg Prod.fst hrun, congrArg (·.2.1) hrun, congrArg (·.2.2) hrun⟩

lemma Scripted.truncated (h : Scripted step) {full : σ} (hfull : FactSink.AcceptsAll full)
    {limited : τ} {limit : Nat} (hlimited : FactSink.FailsAfter limit limited) :
    Truncated limit (start (step (Traced σ)) (.new full))
      (start (step (Traced τ)) (.new limited)) := by
  obtain ⟨script, hscript⟩ := h.exists_script
  obtain ⟨hfree, hfreeSink, -⟩ := hscript (Traced σ) (.new full)
  obtain ⟨hcut, hcutSink, -⟩ := hscript (Traced τ) (.new limited)
  obtain ⟨hdone, hwrites⟩ := FactSink.offer_of_acceptsAll script.writes (.new full) hfull .zero
  obtain ⟨haccepted, htried, hwhole, hbroken⟩ :=
    FactSink.offer_of_failsAfter script.writes (.new limited) hlimited .zero
  have hattempts : (start (step (Traced σ)) (.new full)).2.sink.attempts = script.writes := by
    rw [hfreeSink, hwrites]
    rfl
  refine ⟨?_, fun hle => ?_, fun hlt => ?_⟩
  · rw [hattempts, hcutSink, haccepted]
    rfl
  · rw [hattempts] at hle
    rw [hcut, hfree, Script.perform_of_ok (hwhole hle), Script.perform_of_ok hdone]
  · rw [hattempts] at hlt ⊢
    obtain ⟨error, write, hwrite, herror, hlast⟩ := hbroken hlt
    refine ⟨error, write, ?_, hwrite, ?_, ?_⟩
    · rw [hcut, Script.perform_of_error herror]
    · rw [hcutSink, htried]
      rfl
    · rw [hcutSink, hlast]

lemma Scripted.counted (h : Scripted step) (sink : σ) :
    Counted (start (step (Traced σ)) (.new sink)).2 := by
  obtain ⟨script, hscript⟩ := h.exists_script
  obtain ⟨-, hsink, hcounts⟩ := hscript (Traced σ) (.new sink)
  obtain ⟨writes, -, haccepted, hcounted, -⟩ :=
    FactSink.offer_traced script.writes (.new sink) .zero
  have hwrites : (start (step (Traced σ)) (.new sink)).2.sink.accepted = writes := by
    rw [hsink, haccepted]
    rfl
  refine .of_eq ?_
  rw [taken, hwrites, hcounts, hcounted]
  exact FactCounts.foldl_countWrite writes .zero

/-- **A failing sink only cuts a walk short.**  A walk through an archive on a sink that takes
`limit` writes and then no more is the walk on a sink that takes everything, followed up to there;
and so is a walk over any list of entries, wherever it comes from.  And on every sink, wherever it
fails, the counts are those of the facts it has taken: when the walk is over, and behind any of the
entries before that. -/
theorem archive_truncated_by_failing_sink (config : ExtractionConfig) (period : Period)
    (jar : String)
    (sha256 : Option String) (bytes : Bytes) {full : σ} (hfull : FactSink.AcceptsAll full)
    {limited : τ} {limit : Nat} (hlimited : FactSink.FailsAfter limit limited) :
    Truncated limit (start (archive config period jar sha256 bytes) (.new full))
      (start (archive config period jar sha256 bytes) (.new limited)) ∧
    (∀ list : List ArchiveEntry,
      Truncated limit (start (entries config period jar sha256 list) (.new full))
        (start (entries config period jar sha256 list) (.new limited))) ∧
    ∀ (ρ : Type) [FactSink ρ] (sink : ρ),
      Counted (start (archive config period jar sha256 bytes) (.new sink)).2 ∧
      ∀ list : List ArchiveEntry, Counted (start (through config jar list) (.new sink)).2 ∧
        Counted (start (entries config period jar sha256 list) (.new sink)).2 := by
  have harchive := scripted_archive config period jar sha256 bytes
  have hentries := scripted_entries config period jar sha256
  have hthrough := scripted_through config jar
  refine ⟨harchive.truncated hfull hlimited, fun list =>
    (hentries list).truncated hfull hlimited, ?_⟩
  exact fun ρ _ sink => ⟨harchive.counted sink, fun list =>
    ⟨(hthrough list).counted sink, (hentries list).counted sink⟩⟩

/-- An archive with `memberlessClass` in it, stored as it is. -/
def singleClassArchive : Bytes :=
  [80, 75, 3, 4, 10, 0, 0, 0, 0, 0, 0, 0, 33, 0, 97, 2, 206, 82, 31, 0, 0, 0, 31, 0, 0,
    0, 7, 0, 0, 0] ++
  [65, 46, 99, 108, 97, 115, 115] ++ memberlessClass ++
  [80, 75, 1, 2, 10, 0, 10, 0, 0, 0, 0, 0, 0, 0, 33, 0, 97, 2, 206, 82, 31, 0, 0, 0, 31, 0, 0, 0, 7,
    0, 0, 0, 0, 0, 0, 0, 0, 0, 0, 0, 0, 0, 0, 0, 0, 0] ++
  [65, 46, 99, 108, 97, 115, 115] ++
  [80, 75, 5, 6, 0, 0, 0, 0, 1, 0, 1, 0, 53, 0, 0, 0, 68, 0, 0, 0, 0, 0]

/-- Six writes there are, the summary included, and a sink for three takes the archive, the package
and the class. -/
theorem singleClassArchive_truncated :
    FactSink.AcceptsAll (Recorder.new none false) ∧
    FactSink.FailsAfter 3 (Recorder.new (some 3) false) ∧
    (start (archive .default firstSecond "a.jar" none singleClassArchive)
      (Traced.new (Recorder.new none false))).2.sink.attempts.length = 6 ∧
    Truncated 3 (start (archive .default firstSecond "a.jar" none singleClassArchive)
        (Traced.new (Recorder.new none false)))
      (start (archive .default firstSecond "a.jar" none singleClassArchive)
        (Traced.new (Recorder.new (some 3) false))) := by
  have hfull : FactSink.AcceptsAll (Recorder.new none false) := Recorder.acceptsAll #[]
  have hlimited : FactSink.FailsAfter 3 (Recorder.new (some 3) false) := Recorder.failsAfter #[] 3
  exact ⟨hfull, hlimited, by decide +kernel,
    (archive_truncated_by_failing_sink .default firstSecond "a.jar" none singleClassArchive
    hfull hlimited).1⟩

end Walk

end JarFacts
