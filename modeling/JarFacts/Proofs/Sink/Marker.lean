import Mathlib.Tactic.Common
import JarFacts.Proofs.Sink.Output

/-!
# The marker never lies

A directory sees one sink after the other: sinks are opened, take facts, are closed by summaries or
given up, and any action on the store may fail.  A `Session` is such a history, with an account of
what was asked of the sinks and what they answered.

The marker stands only while the fact files hold the output of a run that was closed (`Truthful`).
That is kept by every operation and holds of every volume on the way (`marker_never_lies`): a sink
removes the marker before it touches another file, and writes a new one when nothing is left to be
written.  What is kept beside that is that no marker stands while a sink is open, and that the sink
has taken what it said it took (`Sound`).
-/

namespace JarFacts

/-! ## Histories -/

/-- A fact that was given to a sink, and what came of it. -/
structure Call where
  fact : Fact
  answer : Except SinkError Unit
  /-- Were sink and volume the same before and after? -/
  unchanged : Bool

/-- Something that is done with the sinks of a directory. -/
inductive Operation where
  | create
  | write (fact : Fact)
  | finish (summary : WalkSummary)
  | drop

/-- A directory with at most one open sink, and an account of what has been done. -/
structure Session where
  store : Trial
  sink : Option LinesSink
  /-- What was given to the sink that is open. -/
  calls : List Call
  /-- What was given to the last sink that a summary closed, up to then. -/
  completed : Option (List Call)

namespace Session

variable (directory : String) (config : OutputConfig)

/-- The store at the beginning of an operation, which has nothing of it behind it yet. -/
def fresh (session : Session) : Trial :=
  { session.store with past := [] }

/-- Opens a sink. -/
def create (session : Session) : Session :=
  match (LinesSink.create directory config).run.run session.fresh with
  | (.ok sink, store) => { session with store, sink := some sink, calls := [] }
  | (.error _, store) => { session with store }

/-- Gives a fact to the sink. -/
def write (fact : Fact) (sink : LinesSink) (session : Session) : Session :=
  let (answer, output) := LinesOutput.write fact ⟨sink, session.fresh, #[]⟩
  let unchanged := output.sink = sink ∧ output.storage.volume = session.store.volume
  { session with
    store := output.storage, sink := some output.sink,
    calls := session.calls ++ [⟨fact, answer, unchanged⟩] }

/-- Gives a summary to the sink. -/
def finish (summary : WalkSummary) (sink : LinesSink) (session : Session) : Session :=
  match LinesOutput.finish summary ⟨sink, session.fresh, #[]⟩ with
  | (.ok (), output) =>
    { session with
      store := output.storage, sink := some output.sink, completed := some session.calls }
  | (.error _, output) => { session with store := output.storage, sink := some output.sink }

/-- Gives the sink up. -/
def drop (sink : LinesSink) (session : Session) : Session :=
  { session with store := sink.close session.fresh, sink := none, calls := [] }

/-- Performs an operation.  There is one sink at a time, so that one is opened only when there is
none, and the other operations are for a sink that is there. -/
def step (operation : Operation) (session : Session) : Session :=
  match operation, session.sink with
  | .create, none => session.create directory config
  | .write fact, some sink => session.write fact sink
  | .finish summary, some sink => session.finish summary sink
  | .drop, some sink => session.drop sink
  | _, _ => { session with store := session.fresh }

/-- Performs operations one after the other. -/
def run (operations : List Operation) (session : Session) : Session :=
  operations.foldl (fun session operation => session.step directory config operation) session

end Session

/-! ## What a file holds -/

/-- The bytes that calls leave in a file: a line for each fact that was taken, and of a refused one
at most a beginning, which is empty if nothing changed. -/
inductive Leaves : List Call → Bytes → Prop
  | nil : Leaves [] []
  | taken {calls : List Call} {bytes : Bytes} {call : Call} (h : Leaves calls bytes)
      (hanswer : call.answer = .ok ()) :
      Leaves (calls ++ [call]) (bytes ++ call.fact.line)
  | refused {calls : List Call} {bytes kept : Bytes} {call : Call} (h : Leaves calls bytes)
      (hanswer : call.answer ≠ .ok ()) (hkept : kept <+: call.fact.line)
      (hunchanged : call.unchanged = true → kept = []) :
      Leaves (calls ++ [call]) (bytes ++ kept)

/-- The calls with facts of a family. -/
def callsOf (family : Family) (calls : List Call) : List Call :=
  calls.filter fun call => call.fact.family = family

/-- The facts that were taken. -/
def accepted (calls : List Call) : List Fact :=
  (calls.filter fun call => call.answer = .ok ()).map Call.fact

/-- If refused facts have changed nothing, the lines of those that were taken are all there is. -/
lemma Leaves.eq_of_unchanged {calls : List Call} {bytes : Bytes} (h : Leaves calls bytes)
    (hunchanged : ∀ call ∈ calls, call.answer ≠ .ok () → call.unchanged = true) :
    bytes = (accepted calls).flatMap Fact.line := by
  induction h with
  | nil => rfl
  | @taken calls bytes call _ hanswer ih =>
      have hrest := ih fun other hother => hunchanged other (List.mem_append_left _ hother)
      simp [accepted, hanswer, hrest]
  | @refused calls bytes kept call _ hanswer _ hempty ih =>
      have hrest := ih fun other hother => hunchanged other (List.mem_append_left _ hother)
      have hkept := hempty (hunchanged call (by simp) hanswer)
      simp [accepted, hanswer, hkept, hrest]

/-- The line of a fact that was taken stands in the bytes as a whole. -/
lemma Leaves.isInfix {calls : List Call} {bytes : Bytes} (h : Leaves calls bytes) :
    ∀ fact ∈ accepted calls, fact.line <:+: bytes := by
  have hconcat : ∀ (calls : List Call) (call : Call), accepted (calls ++ [call]) =
      accepted calls ++ if call.answer = .ok () then [call.fact] else [] := by
    intro calls call
    by_cases hanswer : call.answer = .ok () <;> simp [accepted, hanswer]
  induction h with
  | nil => simp [accepted]
  | @taken calls bytes call _ hanswer ih =>
      intro fact hfact
      rw [hconcat, if_pos hanswer, List.mem_append, List.mem_singleton] at hfact
      rcases hfact with hold | rfl
      · exact (ih fact hold).trans (List.prefix_append _ _).isInfix
      · exact (List.suffix_append _ _).isInfix
  | @refused calls bytes kept call _ hanswer _ _ ih =>
      intro fact hfact
      rw [hconcat, if_neg hanswer, List.append_nil] at hfact
      exact (ih fact hfact).trans (List.prefix_append _ _).isInfix

section Directory

variable (directory : String) (config : OutputConfig)

/-- The fact files hold what calls leave, each what those of its family do. -/
def Complete (calls : List Call) (volume : Volume) : Prop :=
  ∀ family, ∃ bytes, factFile directory config volume family = some bytes ∧
    Leaves (callsOf family calls) bytes

/-- If the marker stands, the fact files hold the output of the run that was completed. -/
def Truthful (completed : Option (List Call)) (volume : Volume) : Prop :=
  MarkerStands directory config volume → ∃ calls, completed = some calls ∧
    Complete directory config calls volume

variable {directory config} {completed : Option (List Call)} {calls : List Call}
  {volume other : Volume}

lemma Truthful.of_not_stands (h : ¬MarkerStands directory config volume) :
    Truthful directory config completed volume :=
  fun hstands => absurd hstands h

lemma Truthful.of_keepsTruth (h : Truthful directory config completed volume)
    (hkeeps : KeepsTruth directory config volume other) :
    Truthful directory config completed other := by
  intro hstands
  obtain ⟨hbefore, hfiles⟩ := hkeeps hstands
  obtain ⟨calls, hcalls, hcomplete⟩ := h hbefore
  refine ⟨calls, hcalls, fun family => ?_⟩
  obtain ⟨bytes, hbytes, hleaves⟩ := hcomplete family
  exact ⟨bytes, (hfiles family).trans hbytes, hleaves⟩

/-- No marker stands where only fact files have changed and none stood before. -/
lemma not_stands_of_rewrites (hnames : config.NamesApart)
    (h : ¬MarkerStands directory config volume)
    (hrewrites : volume.Rewrites (FactPlace directory config volume) other) :
      ¬MarkerStands directory config other :=
  fun hstands => h (hstands.of_rewrites hnames hrewrites)

lemma callsOf_concat (family : Family) (calls : List Call) (call : Call) :
    callsOf family (calls ++ [call]) = callsOf family calls ++ if call.fact.family = family
      then [call] else [] := by
  rw [callsOf, callsOf, List.filter_append]
  congr 1
  by_cases hfamily : call.fact.family = family <;> simp [hfamily]

/-- One more call leaves something in the file of its family only: the line of its fact, or a
beginning of it. -/
lemma leaves_concat {taken : Family → Bytes}
    (hleaves : ∀ family, Leaves (callsOf family calls) (taken family)) {call : Call}
    {kept : Bytes} (hfront : kept <+: call.fact.line)
    (htaken : call.answer = .ok () → kept = call.fact.line)
    (hunchanged : call.unchanged = true → kept = []) (family : Family) :
    Leaves (callsOf family (calls ++ [call]))
      (if family = call.fact.family then taken call.fact.family ++ kept else taken family) := by
  rw [callsOf_concat]
  by_cases hfamily : call.fact.family = family
  · subst hfamily
    rw [if_pos rfl, if_pos rfl]
    by_cases hanswer : call.answer = .ok ()
    · rw [htaken hanswer]
      exact (hleaves _).taken hanswer
    · exact (hleaves _).refused hanswer hfront hunchanged
  · rw [if_neg (Ne.symm hfamily), if_neg hfamily, List.append_nil]
    exact hleaves family

end Directory

/-! ## What is kept -/

/-- An open sink has taken what it said it took, and no marker stands. -/
structure Taking (directory : String) (config : OutputConfig) (sink : LinesSink) (calls : List Call)
    (volume : Volume) :
    Prop where
  serves : sink.Serves directory config
  unfinished : sink.finished = false
  unmarked : ¬MarkerStands directory config volume
  holds : ∃ taken, sink.HoldsAll taken volume ∧
      ∀ family, Leaves (callsOf family calls) (taken family)

/-- A closed sink has nothing left to write. -/
structure Done (sink : LinesSink) : Prop where
  finished : sink.finished = true
  pending : ∀ family, (sink.of family).pending = #[]

lemma Done.close_eq {sink : LinesSink} (h : Done sink) (store : Trial) :
    sink.close store = store := by
  have hflush : ∀ family, (sink.of family).flush store = (.ok (), sink.of family, store) := by
    intro family
    rw [LineChannel.flush, h.pending]
    rfl
  have hentities := hflush .entities
  have hrelations := hflush .relations
  have hfiles := hflush .files
  have hparams := hflush .params
  simp only [LinesSink.of] at hentities hrelations hfiles hparams
  simp [LinesSink.close, hentities, hrelations, hfiles, hparams]

namespace Session

open Watched

/-- The marker of the directory tells the truth, and a sink that is there takes facts, or is
done. -/
structure Sound (directory : String) (config : OutputConfig) (session : Session) : Prop where
  truthful : Truthful directory config session.completed session.store.volume
  sink : ∀ sink ∈ session.sink,
    Taking directory config sink session.calls session.store.volume ∨ Done sink

/-- An operation has left the session sound, and on the way the marker has told the truth about the
run that was completed before or the one that is now. -/
structure Kept (directory : String) (config : OutputConfig) (session next : Session) : Prop where
  sound : next.Sound directory config
  past : ∀ volume ∈ next.store.past,
    Truthful directory config session.completed volume ∨
    Truthful directory config next.completed volume

variable {directory : String} {config : OutputConfig} {session : Session} {sink : LinesSink}

lemma kept_create (hnames : config.NamesApart) (h : session.Sound directory config)
    (hnone : session.sink = none) :
    Kept directory config session (session.create directory config) := by
  have hensures : LinesSink.Ensures directory config (fun _ : Trial => True) _ _ :=
    LinesSink.ensures_create hnames
  obtain ⟨hleads, hfresh⟩ := hensures session.fresh trivial
  have hpast : ∀ volume ∈ ((LinesSink.create directory config).run.run session.fresh).2.past,
      Truthful directory config session.completed volume := by
    intro volume hvolume
    rcases hleads.2 volume hvolume with hold | hkeeps
    · exact absurd hold List.not_mem_nil
    · exact h.truthful.of_keepsTruth hkeeps
  unfold create
  rcases hrun : (LinesSink.create directory config).run.run session.fresh with ⟨error | sink, store⟩
  · rw [hrun] at hleads hpast
    refine ⟨⟨h.truthful.of_keepsTruth hleads.1, fun sink hsink => ?_⟩, fun volume hvolume =>
      .inl (hpast volume hvolume)⟩
    change sink ∈ session.sink at hsink
    rw [hnone] at hsink
    cases hsink
  · rw [hrun] at hleads hfresh hpast
    obtain ⟨hserves, hholds, hopen, hunmarked, -⟩ := hfresh sink rfl
    refine ⟨⟨h.truthful.of_keepsTruth hleads.1, fun other hother => ?_⟩, fun volume hvolume =>
      .inl (hpast volume hvolume)⟩
    cases hother
    exact .inl ⟨hserves, hopen, hunmarked, _, hholds, fun _ => .nil⟩

/-- An operation that leaves the store alone. -/
lemma Kept.of_untouched (h : session.Sound directory config) {next : Session}
    (hstore : next.store = session.fresh) (hcompleted : next.completed = session.completed)
    (hsink : ∀ other ∈ next.sink, Taking directory config other next.calls next.store.volume ∨
      Done other) :
    Kept directory config session next := by
  refine ⟨⟨?_, hsink⟩, fun volume hvolume => ?_⟩
  · rw [hstore, hcompleted]
    exact h.truthful
  · rw [hstore] at hvolume
    exact absurd hvolume List.not_mem_nil

/-- An operation that changes fact files only, while no marker stands. -/
lemma Kept.of_spares (hnames : config.NamesApart)
    (hunmarked : ¬MarkerStands directory config session.store.volume)
    {next : Session} (hspares : LinesSink.Spares directory config session.fresh next.store)
    (hsink : ¬MarkerStands directory config next.store.volume →
      ∀ other ∈ next.sink, Taking directory config other next.calls next.store.volume ∨
        Done other) :
    Kept directory config session next := by
  have hunmarked' := not_stands_of_rewrites hnames hunmarked hspares.1
  refine ⟨⟨.of_not_stands hunmarked', hsink hunmarked'⟩, fun volume hvolume => ?_⟩
  rcases hspares.2 volume hvolume with hold | hrewrites
  · exact absurd hold List.not_mem_nil
  · exact .inl (.of_not_stands (not_stands_of_rewrites hnames hunmarked hrewrites))

lemma kept_write (hnames : config.NamesApart) (h : session.Sound directory config)
    (hsink : sink ∈ session.sink)
    (fact : Fact) : Kept directory config session (session.write fact sink) := by
  rcases h.sink sink hsink with htaking | hdone
  · obtain ⟨taken, hholds, hleaves⟩ := htaking.holds
    let output : LinesOutput Trial := ⟨sink, session.fresh, #[]⟩
    have hholds' : output.sink.HoldsAll taken (shown output.storage) := hholds
    obtain ⟨result, sink', store, hwrite, hserves, hopen, hspares, kept, hprefix,
        hkept, hholds''⟩ :=
      LinesOutput.write_cases hnames htaking.unfinished htaking.serves hholds' fact
    rw [write, hwrite]
    refine .of_spares hnames htaking.unmarked hspares fun hunmarked other hother => ?_
    cases hother
    refine .inl
      ⟨hserves, hopen, hunmarked, _, hholds'', leaves_concat hleaves hprefix hkept
      fun hunchanged => ?_⟩
    -- The same channel over the same volume holds the same bytes.
    obtain ⟨hsink', hvolume⟩ : sink' = sink ∧ store.volume = session.store.volume :=
      of_decide_eq_true hunchanged
    have hsame := hholds'' fact.family
    simp only [if_true] at hsame
    change (sink'.of fact.family).Holds _ store.volume at hsame
    rw [hsink', hvolume] at hsame
    have heq := (hholds fact.family).unique hsame
    simpa using heq
  · have hwrite : LinesOutput.write fact ⟨sink, session.fresh, #[]⟩ =
        (.error .finished, ⟨sink, session.fresh, #[]⟩) :=
      LinesOutput.write_of_finished hdone.finished fact
    rw [write, hwrite]
    refine .of_untouched h rfl rfl fun other hother => ?_
    cases hother
    exact .inr hdone

lemma kept_finish (hnames : config.NamesApart) (h : session.Sound directory config)
    (hsink : sink ∈ session.sink)
    (summary : WalkSummary) : Kept directory config session (session.finish summary sink) := by
  rcases h.sink sink hsink with htaking | hdone
  · obtain ⟨taken, hholds, hleaves⟩ := htaking.holds
    let output : LinesOutput Trial := ⟨sink, session.fresh, #[]⟩
    have hholds' : output.sink.HoldsAll taken (shown output.storage) := hholds
    obtain ⟨result, closed, hfinish, hcases⟩ :=
      LinesOutput.finish_cases hnames htaking.unfinished htaking.serves hholds' summary
    rw [finish, hfinish]
    rcases hcases with ⟨rfl, hclosed, -, hpast⟩ | ⟨hne, hserves, hopen, hholds'', hspares⟩
    · have htruthful : Truthful directory config (some session.calls) closed.storage.volume :=
        fun _ => ⟨session.calls, rfl, fun family =>
          ⟨taken family, hclosed.files family, hleaves family⟩⟩
      refine ⟨⟨htruthful, fun other hother => ?_⟩, fun volume hvolume => ?_⟩
      · cases hother
        exact .inr ⟨hclosed.finished, hclosed.pending⟩
      · rcases hpast volume hvolume with hold | hrewrites | rfl
        · exact absurd hold List.not_mem_nil
        · exact .inl (.of_not_stands (not_stands_of_rewrites hnames htaking.unmarked hrewrites))
        · exact .inr htruthful
    · cases result with
      | ok _ => exact absurd rfl hne
      | error error =>
          refine .of_spares hnames htaking.unmarked hspares fun hunmarked other hother => ?_
          cases hother
          exact .inl ⟨hserves, hopen, hunmarked, taken, hholds'', hleaves⟩
  · have hfinish : LinesOutput.finish summary ⟨sink, session.fresh, #[]⟩ =
        (.error .finished, ⟨sink, session.fresh, #[]⟩) :=
          LinesOutput.finish_of_finished hdone.finished summary
    rw [finish, hfinish]
    refine .of_untouched h rfl rfl fun other hother => ?_
    cases hother
    exact .inr hdone

lemma kept_drop (hnames : config.NamesApart) (h : session.Sound directory config)
    (hsink : sink ∈ session.sink) :
    Kept directory config session (session.drop sink) := by
  rcases h.sink sink hsink with htaking | hdone
  · refine .of_spares hnames htaking.unmarked
      (LinesSink.close_spares hnames htaking.serves session.fresh) ?_
    intro _ other hother
    cases hother
  · refine .of_untouched h (hdone.close_eq session.fresh) rfl fun other hother => ?_
    cases hother

/-- Every operation keeps the session sound. -/
lemma kept_step (hnames : config.NamesApart) (h : session.Sound directory config)
    (operation : Operation) :
    Kept directory config session (session.step directory config operation) := by
  unfold step
  split
  · rename_i hnone
    exact kept_create hnames h hnone
  · rename_i hsink
    exact kept_write hnames h hsink _
  · rename_i hsink
    exact kept_finish hnames h hsink _
  · rename_i hsink
    exact kept_drop hnames h hsink
  · exact .of_untouched h rfl rfl h.sink

/-- A whole history keeps the session sound. -/
lemma sound_run (hnames : config.NamesApart) (h : session.Sound directory config)
    (operations : List Operation) :
    (session.run directory config operations).Sound directory config := by
  induction operations generalizing session with
  | nil => exact h
  | cons operation operations ih => exact ih (kept_step hnames h operation).sound

end Session

/-- **The marker never lies.**  Sinks are opened in a directory one after the other, take facts, are
closed and given up, and any action on the store may fail.  If the marker stands for a completed run
at the beginning, it does so after every operation: the file of each family holds the facts of the
family that the run took, and beside them at most beginnings of facts it refused, not even that
where a refusal changed nothing; and a sink that is there has nothing left to write.  On every
volume in between, the marker stands for the run that was completed before the operation or by it.
Once a sink has taken a summary it refuses everything else, and nothing changes. -/
theorem marker_never_lies {config : OutputConfig} (hnames : config.NamesApart) {directory : String}
    {session : Session} (hsink : session.sink = none)
    (hstart : Truthful directory config session.completed session.store.volume)
    (operations : List Operation) (operation : Operation) :
    let before := session.run directory config operations
    let after := before.step directory config operation
    (MarkerStands directory config after.store.volume →
      ∃ calls, after.completed = some calls ∧
        (∀ family, ∃ bytes, factFile directory config after.store.volume family = some bytes ∧
          Leaves (callsOf family calls) bytes ∧
          (∀ fact ∈ accepted (callsOf family calls), fact.line <:+: bytes) ∧
          ((∀ call ∈ callsOf family calls, call.answer ≠ .ok () → call.unchanged = true) →
            bytes = (accepted (callsOf family calls)).flatMap Fact.line)) ∧
        ∀ sink ∈ after.sink, ∀ family, (sink.of family).pending = #[]) ∧
    (∀ volume ∈ after.store.past,
      Truthful directory config before.completed volume ∨
      Truthful directory config after.completed volume) ∧
    ∀ (output : LinesOutput Trial) summary, (output.finish summary).1 = .ok () →
      (∀ fact, (output.finish summary).2.write fact =
        (.error .finished, (output.finish summary).2)) ∧
      ∀ again, (output.finish summary).2.finish again =
        (.error .finished, (output.finish summary).2) := by
  intro before after
  have hsound : session.Sound directory config := by
    refine ⟨hstart, fun sink hmem => ?_⟩
    rw [hsink] at hmem
    cases hmem
  have hkept := Session.kept_step hnames (Session.sound_run hnames hsound operations) operation
  refine ⟨fun hstands => ?_, hkept.past, fun output summary hok => ?_⟩
  · obtain ⟨calls, hcalls, hcomplete⟩ := hkept.sound.truthful hstands
    refine ⟨calls, hcalls, fun family => ?_, fun sink hmem => ?_⟩
    · obtain ⟨bytes, hbytes, hleaves⟩ := hcomplete family
      exact ⟨bytes, hbytes, hleaves, hleaves.isInfix, hleaves.eq_of_unchanged⟩
    · rcases hkept.sound.sink sink hmem with htaking | hdone
      · exact absurd hstands htaking.unmarked
      · exact hdone.pending
  · have hfinished := LinesOutput.finished_of_finish hok
    exact ⟨LinesOutput.write_of_finished hfinished, LinesOutput.finish_of_finished hfinished⟩

/-- A session in an empty directory, where the fourth action on the store fails. -/
def interrupted : Session where
  store := ⟨⟨["work"], [(["work"], .directory)]⟩, [none, none, none, some .refused], []⟩
  sink := none
  calls := []
  completed := none

/-- A summary of nothing. -/
def emptySummary : WalkSummary :=
  ⟨"", none, 0, 0, 0, .zero, ⟨0, 0, 0⟩, ⟨0, 0, 0⟩⟩

/-- A sink that cannot be opened, and another that takes two facts. -/
def interruptedOperations : List Operation :=
  [.create, .create, .write (.file ⟨.jar, "a", none, .nowhere⟩),
    .write (.file ⟨.jar, "b", none, .nowhere⟩)]

/-- What becomes of the interrupted session when the second sink is closed. -/
def interruptedEnd : Session :=
  (interrupted.run "out" .default interruptedOperations).step "out" .default (.finish emptySummary)

lemma interruptedEnd_marked : MarkerStands "out" .default interruptedEnd.store.volume :=
  ⟨by decide +kernel, by decide +kernel, by decide +kernel⟩

/-- The marker that the second sink leaves stands for what it took. -/
theorem interrupted_marker_true :
    MarkerStands "out" .default interruptedEnd.store.volume ∧
      ∃ calls, interruptedEnd.completed = some calls ∧ ∀ family, ∃ bytes,
        factFile "out" .default interruptedEnd.store.volume family = some bytes ∧
        ∀ fact ∈ accepted (callsOf family calls), fact.line <:+: bytes := by
  have hstart : Truthful "out" .default interrupted.completed interrupted.store.volume := by
    intro hstands
    exact absurd hstands.file (by decide +kernel)
  have hnames : OutputConfig.default.NamesApart := by decide +kernel
  have hsink : interrupted.sink = none := rfl
  have hmarked := interruptedEnd_marked
  unfold interruptedEnd at hmarked ⊢
  obtain ⟨htrue, -⟩ :=
    marker_never_lies hnames hsink hstart interruptedOperations (.finish emptySummary)
  generalize (interrupted.run "out" .default interruptedOperations).step "out" .default
    (.finish emptySummary) = after
    at htrue hmarked ⊢
  obtain ⟨calls, hcalls, hfiles, -⟩ := htrue hmarked
  refine ⟨hmarked, calls, hcalls, fun family => ?_⟩
  obtain ⟨bytes, hbytes, -, hlines, -⟩ := hfiles family
  exact ⟨bytes, hbytes, hlines⟩

end JarFacts
