import JarFacts.Jar.Walk
import JarFacts.Proofs.Extract.Entry

/-!
# The entries of an archive do not influence each other

One extraction goes through all the entries of an archive, with one stack of scopes, one location
and one set of counts.  Still an entry writes what it would write alone: by `Extract.entry_run` the
procedure for an entry tells an account that is computed from its path and its bytes, whatever an
earlier entry has left behind.  So the writes of a walk are the writes of the single entries, one
after the other (`Walk.writes_entries`), and a change to some entries (`Walk.Edit`) leaves the
writes of all the others as they are.
-/

namespace JarFacts

open Account

/-- Is the entry read as a class file? -/
def ExtractionConfig.takes (config : ExtractionConfig) (entry : ArchiveEntry) : Bool :=
  entry.isFile && config.isClassEntry entry.name

/-- The archive can be read on past the entry: it opens, and where its content is asked for it is
not damaged. -/
def ArchiveEntry.Readable (config : ExtractionConfig) (entry : ArchiveEntry) : Prop :=
  entry.opens = true ∧ (config.takes entry = true → (entry.content ()).isSome = true)

instance (config : ExtractionConfig) (entry : ArchiveEntry) : Decidable (entry.Readable config) :=
  inferInstanceAs (Decidable (_ ∧ _))

/-- What a new extraction writes for an entry, up to the point where it fails if it does. -/
def Extract.freshWrites (path : String) (bytes : Bytes) : List SinkWrite :=
  ((Extract.entry path bytes).run.run (.start (Recorder.new none false))).2.sink.accepted.toList

namespace Walk

/-- What an entry adds to the writes of a walk. -/
def entryWrites (config : ExtractionConfig) (entry : ArchiveEntry) : List SinkWrite :=
  if config.takes entry then ((entry.content ()).map (Extract.freshWrites entry.name)).getD []
  else []

/-- A new extraction writes the facts of the account of its entry. -/
lemma freshWrites_eq (path : String) (bytes : Bytes) :
    Extract.freshWrites path bytes = (entryAccount path bytes).facts.map .fact := by
  have hsink : FactSink.AcceptsAll (ExtractContext.start (Recorder.new none false)).sink :=
    Recorder.acceptsAll #[]
  obtain ⟨scope, location, log, -, hrun⟩ :=
    Extract.entry_run path bytes (.start (Recorder.new none false))
  rw [Account.deliver_of_acceptsAll _ hsink] at hrun
  rw [Extract.freshWrites, hrun, ExtractContext.start, Recorder.new, Recorder.after_unlimited]
  simp only [Array.empty_append, List.toList_toArray]

variable {σ α β : Type} [FactSink σ]

/-! ## Steps of a walk on a sink that takes everything -/

/-- On a sink that takes everything the step ends well, and what it has given to the sink depends on
nothing but the value it ends with. -/
def Writes (step : Walk σ α) (writes : α → List SinkWrite) : Prop :=
  ∀ context : ExtractContext σ, FactSink.AcceptsAll context.sink →
    ∃ value context', step.run.run context = (.ok value, context') ∧
      context'.sink = FactSink.after context.sink (writes value)

lemma Writes.pure (value : α) : Writes (σ := σ) (pure value) fun _ => [] :=
  fun context _ => ⟨value, context, rfl, rfl⟩

lemma Writes.bind {step : Walk σ α} {next : α → Walk σ β} {first : List SinkWrite}
    {second : β → List SinkWrite}
    (hstep : Writes step fun _ => first) (hnext : ∀ value, Writes (next value) second) :
    Writes (step >>= next) fun value => first ++ second value := by
  intro context hsink
  obtain ⟨value, context', hrun, hsink'⟩ := hstep context hsink
  have haccepts : FactSink.AcceptsAll context'.sink := hsink' ▸ hsink.after first
  obtain ⟨value', context'', hrun', hsink''⟩ := hnext value context' haccepts
  refine ⟨value', context'', ?_, ?_⟩
  · rw [run_bind, hrun]
    exact hrun'
  · rw [hsink'', hsink', FactSink.after_append]

lemma writes_write (fact : Fact) : Writes (σ := σ) (write fact) fun _ => [.fact fact] := by
  intro context hsink
  have htake : FactSink.write fact context.sink =
      (.ok (), FactSink.after context.sink [.fact fact]) :=
    hsink.take (.fact fact)
  rw [write, run_lift_bind, Extract.run_emit, htake]
  exact ⟨(), _, rfl, rfl⟩

/-- What stands behind the last entry: the summary is written and returned. -/
lemma writes_closing (summary : ExtractContext σ → WalkSummary)
    (event : ExtractContext σ → LogEvent) :
    Writes (do
      let context ← get
      finish (summary context)
      modify fun later => { later with log := later.log.push (event context) }
      return summary context : Walk σ WalkSummary) fun summary => [.finish summary] := by
  intro context hsink
  have htake : FactSink.finish (summary context) context.sink =
      (.ok (), FactSink.after context.sink [.finish (summary context)]) :=
    hsink.take (.finish (summary context))
  have hfinish : (finish (summary context)).run.run context =
      (.ok (), { context with
        sink := FactSink.after context.sink [.finish (summary context)] }) := by
    rw [finish, run_get_bind, htake]
    rfl
  rw [run_get_bind, run_bind, hfinish]
  exact ⟨summary context, _, rfl, rfl⟩

/-- An entry that has been read writes what a new extraction writes, and never ends the walk. -/
lemma writes_classFile (path : String) (bytes : Bytes) (tally : Tally) :
    Writes (σ := σ) (classFile path bytes tally) fun _ => Extract.freshWrites path bytes := by
  intro context hsink
  obtain ⟨scope, location, log, -, hrun⟩ := Extract.entry_run path bytes context
  rw [Account.deliver_of_acceptsAll _ hsink] at hrun
  rw [freshWrites_eq, classFile, run_lift_bind, hrun]
  dsimp only
  generalize FactSink.after context.sink _ = sink'
  generalize (entryAccount path bytes).facts.foldl _ _ = counts'
  -- A sink that takes everything leaves only the refusals of the account as errors.
  cases (entryAccount path bytes).verdict with
  | ok _ => exact ⟨_, ⟨sink', scope, location, counts', log⟩, rfl, rfl⟩
  | error refusal => cases refusal <;> exact ⟨_, ⟨sink', scope, location, counts', log⟩, rfl, rfl⟩

lemma writes_visit {config : ExtractionConfig} (jar : String) (tally : Tally) {entry : ArchiveEntry}
    (hentry : entry.Readable config) :
    Writes (σ := σ) (visit config jar tally entry) fun _ => entryWrites config entry := by
  obtain ⟨hopens, hcontent⟩ := hentry
  have hskip : (!entry.isFile || !config.isClassEntry entry.name) = !config.takes entry := by
    rw [ExtractionConfig.takes, Bool.not_and]
  rw [visit, hopens, hskip]
  unfold entryWrites
  by_cases htakes : config.takes entry = true
  · obtain ⟨bytes, hbytes⟩ := Option.isSome_iff_exists.mp (hcontent htakes)
    simp only [htakes, hbytes]
    exact writes_classFile entry.name bytes tally
  · simp only [htakes]
    exact .pure tally

/-! ## The whole walk -/

/-- The way along a list of entries writes what the entries write one by one. -/
lemma writes_foldlM_visit {config : ExtractionConfig} (jar : String) (list : List ArchiveEntry)
    (hlist : ∀ entry ∈ list, entry.Readable config) (tally : Tally) :
    Writes (σ := σ) (list.foldlM (visit config jar) tally) fun _ =>
      list.flatMap (entryWrites config) := by
  induction list generalizing tally with
  | nil => exact .pure tally
  | cons entry rest ih =>
      have hrest : ∀ entry ∈ rest, entry.Readable config := fun entry hentry =>
        hlist entry (List.mem_cons_of_mem _ hentry)
      rw [List.foldlM_cons]
      simp only [List.flatMap_cons]
      exact (writes_visit jar tally (hlist entry List.mem_cons_self)).bind
        fun tally' => ih hrest tally'

/-- A walk through readable entries ends well.  It writes the archive, then what each entry writes
alone, then the summary that it returns. -/
lemma writes_entries {config : ExtractionConfig} (period : Period) (jar : String)
    (sha256 : Option String)
    {list : List ArchiveEntry} (hlist : ∀ entry ∈ list, entry.Readable config) :
    Writes (σ := σ) (entries config period jar sha256 list) fun summary =>
      [.fact (jarFact jar)] ++ list.flatMap (entryWrites config) ++ [.finish summary] := by
  simp only [List.append_assoc]
  refine (writes_write (jarFact jar)).bind fun _ => ?_
  refine (writes_foldlM_visit jar list hlist .zero).bind fun tally => ?_
  exact writes_closing (fun context => summarize jar sha256 period tally context.counts) _

/-- A change to an archive at one place: an entry stays, or some entries are replaced with others,
of which there may be none on either side. -/
inductive Edit where
  | keep (entry : ArchiveEntry)
  | replace (old new : List ArchiveEntry)

namespace Edit

def old : Edit → List ArchiveEntry
  | keep entry => [entry]
  | replace old _ => old

def new : Edit → List ArchiveEntry
  | keep entry => [entry]
  | replace _ new => new

/-- What the place of a change has to write, before it and after it.  An entry that stays writes the
same. -/
def writes (config : ExtractionConfig) : Edit → List SinkWrite × List SinkWrite
  | keep entry => (entryWrites config entry, entryWrites config entry)
  | replace old new => (old.flatMap (entryWrites config), new.flatMap (entryWrites config))

lemma flatMap_old (config : ExtractionConfig) (edit : Edit) :
    edit.old.flatMap (entryWrites config) = (edit.writes config).1 := by
  cases edit with
  | keep entry => exact List.flatMap_singleton _ entry
  | replace old new => rfl

lemma flatMap_new (config : ExtractionConfig) (edit : Edit) :
    edit.new.flatMap (entryWrites config) = (edit.writes config).2 := by
  cases edit with
  | keep entry => exact List.flatMap_singleton _ entry
  | replace old new => rfl

end Edit

/-- The walk gives the sink the archive itself, then the given writes, then the summary that it
returns. -/
def Delivers (walk : Walk σ WalkSummary) (jar : String) (sink : σ) (writes : List SinkWrite) :
    Prop :=
  ∃ summary context, start walk sink = (.ok summary, context) ∧
    context.sink = FactSink.after sink ([.fact (jarFact jar)] ++ writes ++ [.finish summary])

/-- **The entries of an archive do not influence each other.**  On a sink that takes everything, a
walk through entries that can be read writes for each class entry, in order, what a new extraction
writes for it alone.  Hence two walks through archives that differ by any edits write the same for
every entry that stays, in the same order. -/
theorem entries_write_independently (config : ExtractionConfig) (period : Period) (jar : String)
    (sha256 : Option String) {sink : σ} (hsink : FactSink.AcceptsAll sink) :
    (∀ list : List ArchiveEntry, (∀ entry ∈ list, entry.Readable config) →
      Delivers (entries config period jar sha256 list) jar sink
        (list.flatMap (entryWrites config))) ∧
    ∀ edits : List Edit, (∀ edit ∈ edits, ∀ entry ∈ edit.old ++ edit.new, entry.Readable config) →
      Delivers (entries config period jar sha256 (edits.flatMap Edit.old)) jar sink
        (edits.flatMap fun edit => (edit.writes config).1) ∧
      Delivers (entries config period jar sha256 (edits.flatMap Edit.new)) jar sink
        (edits.flatMap fun edit => (edit.writes config).2) := by
  have hwalk : ∀ list : List ArchiveEntry, (∀ entry ∈ list, entry.Readable config) →
      Delivers (entries config period jar sha256 list) jar sink
        (list.flatMap (entryWrites config)) :=
    fun list hlist => writes_entries period jar sha256 hlist (.start sink) hsink
  refine ⟨hwalk, fun edits hedits => ⟨?_, ?_⟩⟩
  · simp only [← Edit.flatMap_old, ← List.flatMap_assoc]
    refine hwalk _ fun entry hentry => ?_
    obtain ⟨edit, hedit, hmem⟩ := List.mem_flatMap.mp hentry
    exact hedits edit hedit entry (List.mem_append_left _ hmem)
  · simp only [← Edit.flatMap_new, ← List.flatMap_assoc]
    refine hwalk _ fun entry hentry => ?_
    obtain ⟨edit, hedit, hmem⟩ := List.mem_flatMap.mp hentry
    exact hedits edit hedit entry (List.mem_append_right _ hmem)

/-- The class `A` without members. -/
def memberlessClass : Bytes :=
  [0xCA, 0xFE, 0xBA, 0xBE, 0, 0, 0, 52, 0, 3, 1, 0, 1, 65, 7, 0, 1, 0, 33, 0, 2, 0, 0, 0, 0,
    0, 0, 0, 0, 0, 0]

/-- The first second of all. -/
def firstSecond : Period := ⟨⟨0, 0, 0⟩, ⟨0, 1, 0⟩⟩

/-- `memberlessClass` cut off after twenty bytes is taken out of an archive and put behind the whole
class instead. -/
def damageMoved : List Edit :=
  [.replace [⟨"B.class", true, true, fun _ => some (memberlessClass.take 20)⟩] [],
    .keep ⟨"A.class", true, true, fun _ => some memberlessClass⟩,
    .replace [⟨"doc/", false, true, fun _ => none⟩]
      [⟨"B.class", true, true, fun _ => some (memberlessClass.take 20)⟩]]

/-- The damaged class has nothing to write, the whole one writes its four facts wherever it
stands. -/
theorem damageMoved_writes_independently :
    FactSink.AcceptsAll (Recorder.new none false) ∧
    (∀ edit ∈ damageMoved, ∀ entry ∈ edit.old ++ edit.new, entry.Readable .default) ∧
    (damageMoved.map fun edit =>
      ((edit.writes .default).1.length, (edit.writes .default).2.length)) =
      [(0, 0), (4, 4), (0, 0)] ∧
    Delivers (entries .default firstSecond "a.jar" none (damageMoved.flatMap Edit.old)) "a.jar"
      (Recorder.new none false) (damageMoved.flatMap fun edit => (edit.writes .default).1) ∧
    Delivers (entries .default firstSecond "a.jar" none (damageMoved.flatMap Edit.new)) "a.jar"
      (Recorder.new none false) (damageMoved.flatMap fun edit => (edit.writes .default).2) := by
  have hsink : FactSink.AcceptsAll (Recorder.new none false) := Recorder.acceptsAll #[]
  have hedits : ∀ edit ∈ damageMoved, ∀ entry ∈ edit.old ++ edit.new, entry.Readable .default := by
    decide +kernel
  exact ⟨hsink, hedits, by decide +kernel,
    (entries_write_independently .default firstSecond "a.jar" none hsink).2 damageMoved hedits⟩

end Walk

end JarFacts
