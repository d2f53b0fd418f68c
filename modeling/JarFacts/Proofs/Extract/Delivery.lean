import Mathlib.Data.List.Basic
import JarFacts.Proofs.Extract.Account
import JarFacts.Proofs.Steps
import JarFacts.Sink.Recorder

/-!
# Telling an account to a sink

`Account.deliver` writes an account to a sink fact by fact, up to its first refusal or to the first
write that the sink does not take.  `Tells` relates a step of an extraction to an account: whatever
the sink does, the step leaves the sink and the counts as delivering the account leaves them, and
ends the same way.  The scopes are part of the relation, as the stack before the step and the stack
after a success; after a failure the frames of `floor` are still at the bottom.  Nothing is said
about the log but that no error is added to it.

`Tells` composes along `bind` and `forM`, and each primitive step has one rule, so that the account
of a procedure is found by going through its text.
-/

namespace JarFacts

variable {σ : Type}

/-! ## Running steps -/

namespace Extract

variable {α β : Type}

lemma decoded_ok_bind (value : α) (next : α → Extract σ β) :
    decoded (.ok value) >>= next = next value := rfl

lemma decoded_error_bind (error : SignatureError) (next : α → Extract σ β) :
    decoded (.error error) >>= next = throw (.signature error) := rfl

lemma visit_classSignature (take : ClassPart → Extract σ Unit) (text : String) :
    ClassSignature.visit .signature take text =
      decoded (ClassSignature.decode text) >>= fun signature => signature.parts.forM take := by
  rw [ClassSignature.visit]
  cases ClassSignature.decode text <;> rfl

lemma visit_methodSignature_bind (take : MethodPart → Extract σ Unit) (text : String)
    (next : MethodSignature → Extract σ β) :
    MethodSignature.visit .signature take text >>= next = (do
      let signature ← decoded (MethodSignature.decode text)
      signature.parts.forM take
      next signature) := by
  rw [MethodSignature.visit]
  cases MethodSignature.decode text with
  | error error => rfl
  | ok signature => exact bind_assoc _ _ _

lemma run_inScope (ask : ScopeStack → Except ScopeError α) (context : ExtractContext σ) :
    (inScope ask).run.run context = ((ask context.scope).mapError .scope, context) := by
  rw [inScope, run_get_bind]
  rcases ask context.scope with _ | _ <;> rfl

lemma run_emit [FactSink σ] (fact : Fact) (context : ExtractContext σ) :
    (emit fact).run.run context =
      match FactSink.write fact context.sink with
      | (.ok (), sink) =>
          (.ok (), { context with sink := sink, counts := context.counts.count fact })
      | (.error error, sink) => (.error (.sink error), { context with sink := sink }) := by
  rw [emit, run_get_bind]
  rcases FactSink.write fact context.sink with ⟨_ | _, sink⟩ <;> rfl

end Extract

variable [FactSink σ]

/-! ## Delivery -/

/-- Writes an account to a sink, with the counts kept along the way. -/
def Account.deliver : Account → σ → FactCounts → Except ExtractError Unit × σ × FactCounts
  | [], sink, counts => (.ok (), sink, counts)
  | .error refusal :: _, sink, counts => (.error refusal.error, sink, counts)
  | .ok fact :: rest, sink, counts =>
    match FactSink.write fact sink with
    | (.ok (), sink) => deliver rest sink (counts.count fact)
    | (.error error, sink) => (.error (.sink error), sink, counts)

lemma Account.deliver_append (first second : Account) (sink : σ) (counts : FactCounts) :
    (first ++ second : Account).deliver sink counts =
      match first.deliver sink counts with
      | (.ok (), sink, counts) => second.deliver sink counts
      | (.error error, sink, counts) => (.error error, sink, counts) := by
  induction first generalizing sink counts with
  | nil => rfl
  | cons item rest ih =>
      rcases item with refusal | fact
      · rfl
      · simp only [List.cons_append, Account.deliver]
        rcases FactSink.write fact sink with ⟨_ | _, sink'⟩
        · rfl
        · exact ih sink' _

/-! ## Sinks that take everything -/

/-- Gives a sink a fact or a summary. -/
def FactSink.take : SinkWrite → σ → Except SinkError Unit × σ
  | .fact fact, sink => FactSink.write fact sink
  | .finish summary, sink => FactSink.finish summary sink

/-- The sink after it has been given some writes. -/
def FactSink.after (sink : σ) (writes : List SinkWrite) : σ :=
  writes.foldl (fun sink write => (FactSink.take write sink).2) sink

/-- The sink takes every write, whatever it is given before. -/
def FactSink.AcceptsAll (sink : σ) : Prop :=
  ∀ (writes : List SinkWrite) (write : SinkWrite),
    (FactSink.take write (FactSink.after sink writes)).1 = .ok ()

lemma FactSink.after_append (sink : σ) (first second : List SinkWrite) :
    FactSink.after sink (first ++ second) = FactSink.after (FactSink.after sink first) second :=
  List.foldl_append

lemma FactSink.AcceptsAll.after {sink : σ} (h : FactSink.AcceptsAll sink)
    (writes : List SinkWrite) :
    FactSink.AcceptsAll (FactSink.after sink writes) := by
  intro more write
  rw [← FactSink.after_append]
  exact h (writes ++ more) write

lemma FactSink.AcceptsAll.take {sink : σ} (h : FactSink.AcceptsAll sink) (write : SinkWrite) :
    FactSink.take write sink = (.ok (), FactSink.after sink [write]) :=
  Prod.ext (h [] write) rfl

/-- A sink that takes everything is given the facts of an account, and nothing else. -/
lemma Account.deliver_of_acceptsAll (account : Account) {sink : σ} (h : FactSink.AcceptsAll sink)
    (counts : FactCounts) :
    account.deliver sink counts =
      (account.verdict.mapError Refusal.error, FactSink.after sink (account.facts.map .fact),
        account.facts.foldl FactCounts.count counts) := by
  induction account generalizing sink counts with
  | nil => rfl
  | cons item rest ih =>
      rcases item with refusal | fact
      · rfl
      · have hwrite : FactSink.write fact sink = (.ok (), FactSink.after sink [.fact fact]) :=
          h.take (.fact fact)
        simp only [Account.deliver, hwrite]
        exact ih (h.after [.fact fact]) (counts.count fact)

lemma Recorder.take_unlimited (accepted : Array SinkWrite) (write : SinkWrite) :
    FactSink.take write (⟨accepted, none, false⟩ : Recorder) =
      (.ok (), ⟨accepted.push write, none, false⟩) := by
  cases write <;> rfl

/-- A recorder without a limit keeps every write, in order. -/
lemma Recorder.after_unlimited (accepted : Array SinkWrite) (writes : List SinkWrite) :
    FactSink.after (⟨accepted, none, false⟩ : Recorder) writes =
      ⟨accepted ++ writes.toArray, none, false⟩ := by
  induction writes generalizing accepted with
  | nil => simp [FactSink.after]
  | cons write writes ih =>
      rw [FactSink.after, List.foldl_cons, Recorder.take_unlimited, ← FactSink.after, ih]
      simp

lemma Recorder.acceptsAll (accepted : Array SinkWrite) :
    FactSink.AcceptsAll (⟨accepted, none, false⟩ : Recorder) := by
  intro writes write
  rw [Recorder.after_unlimited, Recorder.take_unlimited]

/-! ## Steps that tell an account -/

/-- The stack after a number of scopes have been opened and closed again. -/
def ScopeStack.passed (stack : ScopeStack) (rounds : Nat) : ScopeStack :=
  ⟨stack.frames, stack.pushes + rounds, stack.pops + rounds⟩

/-- The log has grown, and none of what was added is an error. -/
def LogEvent.AddsNoError (before after : Array LogEvent) : Prop :=
  ∃ events : List LogEvent, after.toList = before.toList ++ events ∧
    ∀ event ∈ events, event.level ≠ .error

lemma LogEvent.AddsNoError.refl (log : Array LogEvent) : LogEvent.AddsNoError log log :=
  ⟨[], by simp, by simp⟩

lemma LogEvent.AddsNoError.trans {first second third : Array LogEvent}
    (h : LogEvent.AddsNoError first second) (h' : LogEvent.AddsNoError second third) :
    LogEvent.AddsNoError first third := by
  obtain ⟨events, heq, hevents⟩ := h
  obtain ⟨events', heq', hevents'⟩ := h'
  refine ⟨events ++ events', by rw [heq', heq, List.append_assoc], ?_⟩
  intro event hevent
  rcases List.mem_append.mp hevent with hmem | hmem
  · exact hevents event hmem
  · exact hevents' event hmem

namespace Extract

variable {α β ι : Type} {location : Location} {floor : List ScopeFrame}
  {scope scope' scope'' : ScopeStack}

/-- Started with the stack `scope`, the step tells `account`; when all of it is told the step has
the given value and leaves the stack `scope'`. -/
def Tells (location : Location) (floor : List ScopeFrame) (scope : ScopeStack) (step : Extract σ α)
    (account : Account) (value : α) (scope' : ScopeStack) : Prop :=
  ∀ (sink : σ) (counts : FactCounts) (log : Array LogEvent),
    match account.deliver sink counts with
    | (.ok (), sink', counts') => ∃ log', LogEvent.AddsNoError log log' ∧
        step.run.run ⟨sink, scope, location, counts, log⟩ =
          (.ok value, ⟨sink', scope', location, counts', log'⟩)
    | (.error error, sink', counts') => ∃ log' left, LogEvent.AddsNoError log log' ∧
        floor <:+ left.frames ∧
        step.run.run ⟨sink, scope, location, counts, log⟩ =
          (.error error, ⟨sink', left, location, counts', log'⟩)

namespace Tells

/-- A sink that takes everything is given the facts of the account, and the step ends as the account
does. -/
lemma of_acceptsAll {step : Extract σ Unit} {account : Account} {context : ExtractContext σ}
    (h : Tells context.location floor context.scope step account ⟨⟩ scope')
    (hsink : FactSink.AcceptsAll context.sink) :
    (step.run.run context).1 = account.verdict.mapError Refusal.error ∧
      (step.run.run context).2.sink = FactSink.after context.sink (account.facts.map .fact) := by
  have hrun := h context.sink context.counts context.log
  rw [Account.deliver_of_acceptsAll _ hsink] at hrun
  rcases hverdict : account.verdict with refusal | _ <;> rw [hverdict] at hrun
  · obtain ⟨log', left, -, -, heq⟩ := hrun
    exact ⟨congrArg Prod.fst heq, congrArg (·.2.sink) heq⟩
  · obtain ⟨log', -, heq⟩ := hrun
    exact ⟨congrArg Prod.fst heq, congrArg (·.2.sink) heq⟩

lemma mono_floor {floor' : List ScopeFrame} {step : Extract σ α} {account : Account} {value : α}
    (h : Tells location floor scope step account value scope') (hfloor : floor' <:+ floor) :
    Tells location floor' scope step account value scope' := by
  intro sink counts log
  have hrun := h sink counts log
  rcases hdeliver : account.deliver sink counts with ⟨error | _, sink', counts'⟩ <;>
    rw [hdeliver] at hrun
  · obtain ⟨log', left, hlog, hleft, heq⟩ := hrun
    exact ⟨log', left, hlog, hfloor.trans hleft, heq⟩
  · exact hrun

/-! ### Composition -/

lemma pure (value : α) : Tells (σ := σ) location floor scope (pure value) [] value scope :=
  fun _ _ log => ⟨log, .refl log, rfl⟩

lemma bind {step : Extract σ α} {next : α → Extract σ β} {account account' : Account} {value : α}
    {value' : β} (hstep : Tells location floor scope step account value scope')
    (hnext : Tells location floor scope' (next value) account' value' scope'') :
    Tells location floor scope (step >>= next) (account ++ account') value' scope'' := by
  intro sink counts log
  have hrun := hstep sink counts log
  rw [Account.deliver_append]
  rcases hdeliver : account.deliver sink counts with ⟨error | _, sink', counts'⟩ <;>
    rw [hdeliver] at hrun
  · obtain ⟨log', left, hlog, hfloor, heq⟩ := hrun
    refine ⟨log', left, hlog, hfloor, ?_⟩
    rw [run_bind, heq]
  · obtain ⟨log', hlog, heq⟩ := hrun
    have hrun' := hnext sink' counts' log'
    simp only [run_bind, heq]
    rcases hdeliver' : account'.deliver sink' counts' with ⟨error | _, sink'', counts''⟩ <;>
      rw [hdeliver'] at hrun'
    · obtain ⟨log'', left, hlog', hfloor, heq'⟩ := hrun'
      exact ⟨log'', left, hlog.trans hlog', hfloor, heq'⟩
    · obtain ⟨log'', hlog', heq'⟩ := hrun'
      exact ⟨log'', hlog.trans hlog', heq'⟩

/-- A step with nothing to tell comes first. -/
lemma bind_silent {step : Extract σ α} {next : α → Extract σ β} {account : Account} {value : α}
    {value' : β} (hstep : Tells location floor scope step [] value scope')
    (hnext : Tells location floor scope' (next value) account value' scope'') :
    Tells location floor scope (step >>= next) account value' scope'' :=
  hstep.bind hnext

/-- A step with nothing to tell comes last. -/
lemma bind_last {step : Extract σ α} {next : α → Extract σ β} {account : Account} {value : α}
    {value' : β} (hstep : Tells location floor scope step account value scope')
    (hnext : Tells location floor scope' (next value) [] value' scope'') :
    Tells location floor scope (step >>= next) account value' scope'' := by
  have := hstep.bind hnext
  rwa [List.append_nil] at this

/-- What stands behind a step that is refused is never reached. -/
lemma bind_of_refused {step : Extract σ α} {next : α → Extract σ β} {refusal : Refusal} {value : α}
    {value' : β} (hstep : Tells location floor scope step [.error refusal] value scope') :
    Tells location floor scope (step >>= next) [.error refusal] value' scope'' := by
  intro sink counts log
  obtain ⟨log', left, hlog, hfloor, heq⟩ := hstep sink counts log
  exact ⟨log', left, hlog, hfloor, by rw [run_bind, heq]⟩

/-- A step that is only taken on a condition comes first. -/
lemma ite_bind {condition : Prop} [Decidable condition] {step : Extract σ α}
    {next : α → Extract σ β}
    {rest : Extract σ β} {account account' : Account} {value : α} {value' : β}
    (hstep : condition → Tells location floor scope step account value scope)
    (hnext : Tells location floor scope (next value) account' value' scope')
    (hrest : Tells location floor scope rest account' value' scope') :
    Tells location floor scope (if condition then step >>= next else rest)
      ((if condition then account else []) ++ account') value' scope' := by
  by_cases hcondition : condition
  · rw [if_pos hcondition, if_pos hcondition]
    exact (hstep hcondition).bind hnext
  · rw [if_neg hcondition, if_neg hcondition]
    exact hrest

/-- A loop tells the accounts of its items one after the other.  `keeps` holds of the stack between
two rounds. -/
lemma forM_of_keeps {step : ι → Extract σ PUnit} {account : ι → Account} (keeps : ScopeStack → Prop)
    (round : ι → ScopeStack → ScopeStack) (items : List ι)
    (hstep : ∀ item ∈ items, ∀ stack, keeps stack →
      Tells location floor stack (step item) (account item) ⟨⟩ (round item stack))
    (hkeeps : ∀ item ∈ items, ∀ stack, keeps stack → keeps (round item stack))
    (hscope : keeps scope) :
    Tells location floor scope (items.forM step) (items.flatMap account) ⟨⟩
      (items.foldl (fun stack item => round item stack) scope) := by
  induction items generalizing scope with
  | nil => exact .pure _
  | cons item rest ih =>
      have hhere := hstep item (by simp) scope hscope
      have hrest := ih (fun item hitem => hstep item (by simp [hitem]))
        (fun item hitem => hkeeps item (by simp [hitem])) (hkeeps item (by simp) scope hscope)
      exact hhere.bind hrest

/-- A loop whose rounds leave the scopes alone. -/
lemma forM {step : ι → Extract σ PUnit} {account : ι → Account} (items : List ι)
    (hstep : ∀ item ∈ items, Tells location floor scope (step item) (account item) ⟨⟩ scope) :
    Tells location floor scope (items.forM step) (items.flatMap account) ⟨⟩ scope := by
  have h : Tells location floor scope (items.forM step) (items.flatMap account) ⟨⟩
      (items.foldl (fun stack _ => stack) scope) :=
    forM_of_keeps (· = scope) (fun _ stack => stack) items
      (fun item hitem stack hstack => hstack ▸ hstep item hitem) (fun _ _ _ hstack => hstack) rfl
  rwa [List.foldl_fixed] at h

lemma forM_map {κ : Type} {step : κ → Extract σ PUnit} {account : ι → Account} (f : ι → κ)
    (items : List ι)
    (hstep : ∀ item ∈ items, Tells location floor scope (step (f item)) (account item) ⟨⟩ scope) :
    Tells location floor scope ((items.map f).forM step) (items.flatMap account) ⟨⟩ scope := by
  rw [List.forM_eq_forM, List.forM_map]
  exact .forM items hstep

/-! ### Reading names -/

lemma decoded_bind {read : Except SignatureError α} {next : α → Extract σ β} {account : α → Account}
    {value : β} (hfloor : floor <:+ scope.frames) (hnext : ∀ name, read = .ok name →
      Tells location floor scope (next name) (account name) value scope') :
    Tells location floor scope (decoded read >>= next)
      (Account.reading read account) value scope' := by
  rcases read with error | name
  · exact fun _ _ log => ⟨log, scope, .refl log, hfloor, rfl⟩
  · exact hnext name rfl

/-- What is read is used up by a first account, behind which a second one stands. -/
lemma decoded_bind_append {read : Except SignatureError α} {next : α → Extract σ β}
    {account : α → Account} {rest : Account} {value : β} (hfloor : floor <:+ scope.frames)
    (hnext : ∀ name, read = .ok name →
      Tells location floor scope (next name) (account name ++ rest) value scope') :
    Tells location floor scope (decoded read >>= next)
      (Account.reading read account ++ rest) value scope' := by
  rcases read with error | name
  · exact fun _ _ log => ⟨log, scope, .refl log, hfloor, rfl⟩
  · exact hnext name rfl

end Tells

/-! ### The primitive steps -/

lemma tells_get_bind {next : ExtractContext σ → Extract σ β} {account : Account} {value : β}
    (hnext : ∀ sink counts log,
      Tells location floor scope (next ⟨sink, scope, location, counts, log⟩) account value scope') :
    Tells location floor scope (get >>= next) account value scope' :=
  fun sink counts log => hnext sink counts log sink counts log

lemma tells_note {event : LogEvent} (hlevel : event.level ≠ .error) :
    Tells (σ := σ) location floor scope (note event) [] ⟨⟩ scope :=
  fun _ _ log => ⟨log.push event, ⟨[event], by simp, by simpa using hlevel⟩, rfl⟩

lemma tells_notes (items : List ι) (event : ι → LogEvent)
    (hlevel : ∀ item, (event item).level ≠ .error) :
    Tells (σ := σ) location floor scope (items.forM fun item => note (event item)) [] ⟨⟩ scope := by
  have h : Tells (σ := σ) location floor scope (items.forM fun item => note (event item))
      (items.flatMap fun _ => []) ⟨⟩ scope := .forM items fun item _ => tells_note (hlevel item)
  rwa [List.flatMap_eq_nil_iff.mpr fun _ _ => rfl] at h

lemma tells_push (fqn : String) (kind : ScopeKind) :
    Tells (σ := σ) location floor scope (push fqn kind) [] ⟨⟩ (scope.push fqn kind) :=
  fun _ _ log => ⟨log, .refl log, rfl⟩

lemma tells_inScope {ask : ScopeStack → Except ScopeError α} {value : α}
    (hask : ask scope = .ok value) :
    Tells (σ := σ) location floor scope (inScope ask) [] value scope := by
  intro sink counts log
  refine ⟨log, .refl log, ?_⟩
  rw [run_inScope, hask]
  rfl

lemma tells_emit (hfloor : floor <:+ scope.frames) (fact : Fact) :
    Tells (σ := σ) location floor scope (emit fact) [.ok fact] ⟨⟩ scope := by
  intro sink counts log
  rw [run_emit, Account.deliver]
  rcases FactSink.write fact sink with ⟨_ | _, sink'⟩
  · exact ⟨log, scope, .refl log, hfloor, rfl⟩
  · exact ⟨log, .refl log, rfl⟩

lemma tells_relation (hfloor : floor <:+ scope.frames) (kind : RelationKind)
    (source target : String) :
    Tells (σ := σ) location floor scope (relation kind source target)
      (Account.states location kind source target) ⟨⟩ scope :=
  tells_get_bind fun _ _ _ => tells_emit hfloor _

/-! ### The innermost scope -/

variable {frame : ScopeFrame} {frames : List ScopeFrame}

lemma tells_currentFqn (hscope : scope.frames = frame :: frames) :
    Tells (σ := σ) location floor scope currentFqn [] frame.fqn scope :=
  tells_inScope (by simp [ScopeStack.currentFqn, ScopeStack.top, hscope, Except.map])

lemma tells_currentKind (hscope : scope.frames = frame :: frames) :
    Tells (σ := σ) location floor scope (inScope ScopeStack.currentKind) [] frame.kind scope :=
  tells_inScope (by simp [ScopeStack.currentKind, ScopeStack.top, hscope, Except.map])

lemma tells_relationFromScope (hfloor : floor <:+ scope.frames)
    (hscope : scope.frames = frame :: frames) (kind : RelationKind) (target : String) :
    Tells (σ := σ) location floor scope (relationFromScope kind target)
      (Account.states location kind frame.fqn target) ⟨⟩ scope :=
  (tells_currentFqn hscope).bind_silent (tells_relation hfloor kind frame.fqn target)

lemma tells_pop (hscope : scope.frames = frame :: frames) :
    Tells (σ := σ) location floor scope pop [] frame ⟨frames, scope.pushes, scope.pops + 1⟩ := by
  have hpop : scope.pop = .ok (frame, ⟨frames, scope.pushes, scope.pops + 1⟩) := by
    simp [ScopeStack.pop, hscope]
  exact (tells_inScope hpop).bind_silent fun _ _ log => ⟨log, .refl log, rfl⟩

lemma tells_markContainment (hscope : scope.frames = frame :: frames) :
    Tells (σ := σ) location floor scope markContainment [] ⟨⟩
      { scope with frames := { frame with containmentEmitted := true } :: frames } := by
  have hmark : scope.markContainment =
      .ok { scope with frames := { frame with containmentEmitted := true } :: frames } := by
    simp [ScopeStack.markContainment, hscope]
  exact (tells_inScope hmark).bind_silent fun _ _ log => ⟨log, .refl log, rfl⟩

end Extract

end JarFacts
