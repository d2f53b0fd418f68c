import JarFacts.Proofs.Extract.Entry
import JarFacts.Proofs.Extract.Moves

/-!
# The scopes of an extraction are kept

A pass over a class opens a scope for the class and one for each method, and has dozens of places to
break off with some of them open.  Whatever the sink does, the scopes that were open before are
untouched below what the pass leaves (`classPass_below`), and a pass that succeeds has closed all it
opened (`classPass_passed`).  Only a pass that is started without any scope can miss one
(`classPass_ne_scope`).

One extraction serves the entries of an archive call by call.  A `Service` is such an extraction
with the results so far and the number of scopes that were cut off after failures; `Service.Settled`
is what it keeps from call to call.
-/

namespace JarFacts

variable {σ : Type} [FactSink σ]

/-- An account is never refused for want of a scope. -/
lemma Account.deliver_ne_scope (account : Account) (sink : σ) (counts : FactCounts)
    (error : ScopeError) :
    (account.deliver sink counts).1 ≠ .error (.scope error) := by
  induction account generalizing sink counts with
  | nil => simp [Account.deliver]
  | cons item rest ih =>
      rcases item with refusal | fact
      · cases refusal <;> simp [Account.deliver, Refusal.error]
      · unfold Account.deliver
        rcases FactSink.write fact sink with ⟨_ | _, sink'⟩
        · simp
        · exact ih sink' _

namespace Extract

open Account ClassFile

variable {α : Type} {location : Location} {floor : List ScopeFrame} {scope scope' : ScopeStack}

/-! ## The pass over a class -/

namespace Tells

variable {step : Extract σ α} {account : Account} {value : α} {context : ExtractContext σ}

/-- Where a step succeeds its account was told to the end. -/
lemma of_ok (h : Tells context.location floor context.scope step account value scope') {found : α}
    {context' : ExtractContext σ} (hok : step.run.run context = (.ok found, context')) :
    account.deliver context.sink context.counts = (.ok (), context'.sink, context'.counts) ∧
      context'.location = context.location ∧ context'.scope = scope' := by
  have hrun := h context.sink context.counts context.log
  rcases hdeliver : account.deliver context.sink context.counts with ⟨error | _, sink', counts'⟩ <;>
    rw [hdeliver] at hrun
  · obtain ⟨log', left, -, -, heq⟩ := hrun
    cases hok.symm.trans heq
  · obtain ⟨log', -, heq⟩ := hrun
    cases hok.symm.trans heq
    exact ⟨rfl, rfl, rfl⟩

/-- Where a step fails the frames of the floor are still at the bottom, and no scope was missing. -/
lemma of_error (h : Tells context.location floor context.scope step account value scope')
    {error : ExtractError} (herror : (step.run.run context).1 = .error error) :
    floor <:+ (step.run.run context).2.scope.frames ∧ ∀ missing, error ≠ .scope missing := by
  have hrun := h context.sink context.counts context.log
  have hscope := Account.deliver_ne_scope account context.sink context.counts
  rcases hdeliver : account.deliver context.sink context.counts with ⟨found | _, sink', counts'⟩ <;>
    rw [hdeliver] at hrun hscope
  · obtain ⟨log', left, -, hleft, heq⟩ := hrun
    rw [heq] at herror ⊢
    cases herror
    exact ⟨hleft, fun missing hmissing => hscope missing (congrArg Except.error hmissing)⟩
  · obtain ⟨log', -, heq⟩ := hrun
    simp [heq] at herror

end Tells

/-- The end of a class without any scope around it, where it succeeds: the class does not have to be
placed. -/
lemma classEnd_of_single {frame : ScopeFrame} {context : ExtractContext σ}
    (hscope : context.scope.frames = [frame]) (hok : (classEnd.run.run context).1 = .ok ()) :
    (frame.kind = .placeholder ∨ frame.containmentEmitted = true) ∧
      classEnd.run.run context =
        (.ok (), { context with scope := ⟨[], context.scope.pushes, context.scope.pops + 1⟩ }) := by
  have hpop : pop.run.run context =
      (.ok frame,
        { context with scope := ⟨[], context.scope.pushes, context.scope.pops + 1⟩ }) := by
    rw [pop, run_bind, run_inScope, ScopeStack.pop, hscope]
    rfl
  rw [classEnd, run_bind, hpop] at hok ⊢
  dsimp only at hok ⊢
  split at hok
  · rw [if_pos ‹_›]
    exact ⟨‹_›, rfl⟩
  · cases hok

/-- A pass that succeeds has come to its end with the scope of the class on top of those that were
open before. -/
lemma classPass_closing {cls : ClassFile} {context : ExtractContext σ}
    (hok : ((classPass cls).run.run context).1 = .ok ()) :
    ∃ fqn closing, Signature.decodeClassName cls.name = .ok fqn ∧
      (typeAccount context.location fqn cls ++ membersAccount context.location fqn cls).deliver
        context.sink
        context.counts = (.ok (), closing.sink, closing.counts) ∧
      closing.location = context.location ∧
      closing.scope =
        ⟨⟨scopeKind cls.kind?, fqn, cls.enclosingMethod.isSome⟩ :: context.scope.frames,
        context.scope.pushes + 1 + cls.methods.countP fun info => !info.isBridge,
        context.scope.pops + cls.methods.countP fun info => !info.isBridge⟩ ∧
      (classPass cls).run.run context = classEnd.run.run closing := by
  rw [classPass_eq] at hok ⊢
  obtain ⟨⟨⟩, opened, hheader, hrest⟩ := run_bind_of_ok hok
  rw [hrest] at hok ⊢
  obtain ⟨⟨⟩, closing, hmembers, hend⟩ := run_bind_of_ok hok
  cases hname : Signature.decodeClassName cls.name with
  | error error =>
      rw [header, hname] at hheader
      cases hheader
  | ok fqn =>
      obtain ⟨hdeliver, hlocation, hopened⟩ :=
        (tells_header List.nil_suffix cls hname).of_ok hheader
      have hframes : opened.scope.frames =
          ⟨scopeKind cls.kind?, fqn, false⟩ :: context.scope.frames :=
        congrArg ScopeStack.frames hopened
      obtain ⟨hdeliver', hlocation', hclosing⟩ :=
        (tells_classMembers List.nil_suffix cls hframes).of_ok hmembers
      refine ⟨fqn, closing, rfl, ?_, hlocation'.trans hlocation, ?_, hend⟩
      · rw [Account.deliver_append, hdeliver, ← hlocation]
        exact hdeliver'
      · rw [hclosing, hopened]
        rfl

/-- A pass that succeeds has closed every scope it opened: its own and one for each method that is
no bridge. -/
lemma classPass_passed (cls : ClassFile) (context : ExtractContext σ)
    (hok : ((classPass cls).run.run context).1 = .ok ()) :
    ((classPass cls).run.run context).2.scope =
      context.scope.passed (1 + cls.methods.countP fun info => !info.isBridge) := by
  by_cases hframes : context.scope.frames = []
  · obtain ⟨fqn, closing, -, -, -, hscope, hend⟩ := classPass_closing hok
    have hsingle : closing.scope.frames =
        [⟨scopeKind cls.kind?, fqn, cls.enclosingMethod.isSome⟩] := by
      rw [hscope, hframes]
    rw [hend] at hok ⊢
    rw [(classEnd_of_single hsingle hok).2, hscope]
    simp only [ScopeStack.passed, hframes, ScopeStack.mk.injEq, true_and]
    omega
  · exact ((tells_classPass cls hframes).of_ok (Prod.ext hok rfl)).2.2

/-- Whatever the result, the scopes that were open before are still at the bottom. -/
lemma classPass_below (cls : ClassFile) (context : ExtractContext σ) :
    context.scope.frames <:+ ((classPass cls).run.run context).2.scope.frames := by
  by_cases hframes : context.scope.frames = []
  · rw [hframes]
    exact List.nil_suffix
  · cases hresult : ((classPass cls).run.run context).1 with
    | ok _ =>
        rw [classPass_passed cls context hresult]
        exact List.suffix_rfl
    | error error => exact ((tells_classPass cls hframes).of_error hresult).1

lemma classPass_ne_scope (cls : ClassFile) (context : ExtractContext σ)
    (hframes : context.scope.frames ≠ [])
    (error : ScopeError) : ((classPass cls).run.run context).1 ≠ .error (.scope error) :=
  fun hresult => ((tells_classPass cls hframes).of_error hresult).2 error rfl

/-! ## The procedure for an entry -/

/-- How many scopes are cut off when the work on an entry has come to an end: none if it was done,
and otherwise those that are open beyond the ones it has found. -/
def cutOff (found : ScopeStack) : Except ExtractError Unit × ExtractContext σ → Nat
  | (.ok (), _) => 0
  | (.error _, left) => left.scope.depth - (left.scope.truncate found.depth).depth

/-- How many scopes the procedure for an entry cuts off.  An entry whose path cannot be read opens
none. -/
def discarded (path : String) (bytes : Bytes) (context : ExtractContext σ) : Nat :=
  (EntryName.parse path).toOption.elim 0 fun name =>
    cutOff context.scope ((entryFacts name path bytes).run.run
      { context with location := .ofClassFile name.package name.classFqn })

lemma moves_classFileFacts (name : EntryName) (path : String) (cls : ClassFile) :
    Moves (Move (σ := σ) True) (classFileFacts name path cls) := by
  refine .get_bind fun _ => (moves_emit _).bind fun _ => (moves_push _ _).bind fun _ => ?_
  refine (moves_classPass cls).bind fun _ => ?_
  exact .get_bind fun _ => (moves_emit _).bind fun _ => moves_pop.discard

lemma entryFacts_run_of_class {name : EntryName} {path : String} {bytes : Bytes} {cls : ClassFile}
    (hclass : ClassFile.parse bytes = .ok cls) (context : ExtractContext σ) :
    (entryFacts name path bytes).run.run context =
      (classFileFacts name path cls).run.run
        { context with
          location := { context.location with file := cls.sourceFile }
          log := context.log ++ (ClassFile.parseWithLog bytes).2 } := by
  rw [entryFacts, run_bind, run_parseClass, hclass]
  rfl

/-- The work on an entry loses no scope: what it leaves open on failure is still there to be cut
off. -/
lemma entryFacts_lost (name : EntryName) (path : String) (bytes : Bytes)
    (context : ExtractContext σ) :
    ((entryFacts name path bytes).run.run context).2.scope.lost = context.scope.lost := by
  cases hclass : ClassFile.parse bytes with
  | error error =>
      rw [entryFacts, run_bind, run_parseClass, hclass]
      rfl
  | ok cls =>
      have hlost (started : ExtractContext σ) :
          ((classFileFacts name path cls).run.run started).2.scope.lost = started.scope.lost :=
        lost_of_moves (moves_classFileFacts name path cls started)
      rw [entryFacts_run_of_class hclass]
      exact hlost _

omit [FactSink σ] in
lemma lost_truncate (stack : ScopeStack) (depth : Nat) :
    (stack.truncate depth).lost =
      stack.lost + (stack.depth - (stack.truncate depth).depth : Nat) := by
  have hle : (stack.truncate depth).depth ≤ stack.depth := by
    simp only [ScopeStack.depth, ScopeStack.truncate, List.length_drop]
    omega
  simp only [ScopeStack.lost, ScopeStack.truncate] at hle ⊢
  omega

/-- What a call is after, told of the scopes: the scopes that go missing are those that are cut
off. -/
lemma entry_lost (path : String) (bytes : Bytes) (context : ExtractContext σ) :
    ((entry path bytes).run.run context).2.scope.lost =
      context.scope.lost + discarded path bytes context ∧
      (((entry path bytes).run.run context).1 = .ok () → discarded path bytes context = 0) := by
  cases hname : EntryName.parse path with
  | error error =>
      rw [entry, discarded, hname]
      exact ⟨(Int.add_zero _).symm, fun _ => rfl⟩
  | ok name =>
      have hlost := entryFacts_lost name path bytes
        { context with location := .ofClassFile name.package name.classFqn }
      rw [entry_run_of_name hname, discarded, hname, Except.toOption, Option.elim_some]
      rcases hfacts : (entryFacts name path bytes).run.run
        { context with location := .ofClassFile name.package name.classFqn } with
          ⟨error | _, left⟩ <;>
        rw [hfacts] at hlost
      · exact ⟨hlost ▸ lost_truncate left.scope _, fun hok => by cases hok⟩
      · exact ⟨hlost.trans (Int.add_zero _).symm, fun _ => rfl⟩

lemma entry_location (path : String) (bytes : Bytes) {context : ExtractContext σ}
    (hlocation : context.location = .nowhere) :
      ((entry path bytes).run.run context).2.location = .nowhere := by
  cases hname : EntryName.parse path with
  | error error =>
      rw [entry, hname]
      exact hlocation
  | ok name =>
      rw [entry_run_of_name hname]
      rcases (entryFacts name path bytes).run.run _ with ⟨error | _, left⟩ <;> rfl

/-! ## One extraction for many entries -/

/-- An extraction after some calls: their results in order, the scopes that were cut off, and the
context. -/
structure Service (σ : Type) where
  results : List (Except ExtractError Unit)
  discarded : Nat
  context : ExtractContext σ

namespace Service

/-- An extraction that was not called yet. -/
def new (sink : σ) : Service σ :=
  ⟨[], 0, .start sink⟩

/-- One more call. -/
def call (service : Service σ) (path : String) (bytes : Bytes) : Service σ :=
  ⟨service.results ++ [((entry path bytes).run.run service.context).1],
    service.discarded + Extract.discarded path bytes service.context,
    ((entry path bytes).run.run service.context).2⟩

/-- A new extraction after the given calls, each by its path and its bytes. -/
def ofCalls (sink : σ) (calls : List (String × Bytes)) : Service σ :=
  calls.foldl (fun service (path, bytes) => service.call path bytes) (new sink)

/-- What holds between two calls. -/
structure Settled (service : Service σ) : Prop where
  closed : service.context.scope.frames = []
  nowhere : service.context.location = .nowhere
  noneMissing : ∀ result ∈ service.results, ∀ error, result ≠ .error (.scope error)
  lost : service.context.scope.lost = service.discarded
  clean : (∀ result ∈ service.results, result = .ok ()) → service.discarded = 0

omit [FactSink σ] in
lemma settled_new (sink : σ) : (new sink).Settled where
  closed := rfl
  nowhere := rfl
  noneMissing := by simp [new]
  lost := rfl
  clean := fun _ => rfl

lemma Settled.call {service : Service σ} (h : service.Settled) (path : String) (bytes : Bytes) :
    (service.call path bytes).Settled := by
  obtain ⟨hlost, hok⟩ := entry_lost path bytes service.context
  obtain ⟨scope, location, log, hframes, hrun⟩ := entry_run path bytes service.context
  refine ⟨?_, ?_, ?_, ?_, ?_⟩
  · rw [Service.call, hrun]
    exact hframes.trans h.closed
  · dsimp only [Service.call]
    exact entry_location path bytes h.nowhere
  · intro result hresult
    rcases List.mem_append.mp hresult with hold | hnew
    · exact h.noneMissing result hold
    · rw [List.mem_singleton.mp hnew, hrun]
      exact Account.deliver_ne_scope _ _ _
  · rw [Service.call, hlost, h.lost]
    rfl
  · intro hall
    have hold := h.clean fun result hresult => hall result (List.mem_append_left _ hresult)
    have hnew := hok (hall _ (List.mem_append_right _ List.mem_cons_self))
    rw [Service.call, hold, hnew]

lemma Settled.calls {service : Service σ} (h : service.Settled) (calls : List (String × Bytes)) :
    (calls.foldl (fun service (path, bytes) => service.call path bytes) service).Settled := by
  induction calls generalizing service with
  | nil => exact h
  | cons next calls ih => exact ih (h.call next.1 next.2)

omit [FactSink σ] in
/-- Between two calls the scopes that were opened and not closed are exactly those that were cut
off. -/
lemma Settled.pushes_eq {service : Service σ} (h : service.Settled) :
    service.context.scope.pushes = service.context.scope.pops + service.discarded := by
  have hlost := h.lost
  rw [ScopeStack.lost, ScopeStack.depth, h.closed, List.length_nil] at hlost
  omega

end Service

/-- **The scopes are kept on every way out.**  Whatever scopes are open and whatever the sink does,
a pass leaves them untouched at the bottom; one that succeeds leaves nothing above them and has
counted a push and a pop for the class and for each method that is no bridge; and it misses no scope
unless none was open.  Hence, after any calls to a new extraction, no scope is open and no location
is set, no call was refused for want of a scope, and the pushes exceed the pops by the scopes that
were cut off, of which there are none if all calls succeeded. -/
theorem scopes_kept_on_every_way_out :
    (∀ (cls : ClassFile) (context : ExtractContext σ),
      context.scope.frames <:+ ((classPass cls).run.run context).2.scope.frames ∧
      (((classPass cls).run.run context).1 = .ok () →
        ((classPass cls).run.run context).2.scope =
          context.scope.passed (1 + cls.methods.countP fun info => !info.isBridge)) ∧
      (context.scope.frames ≠ [] →
        ∀ error, ((classPass cls).run.run context).1 ≠ .error (.scope error))) ∧
    ∀ (sink : σ) (calls : List (String × Bytes)),
      (Service.ofCalls sink calls).context.scope.depth = 0 ∧
      (Service.ofCalls sink calls).context.location = .nowhere ∧
      (∀ result ∈ (Service.ofCalls sink calls).results, ∀ error, result ≠ .error (.scope error)) ∧
      (Service.ofCalls sink calls).context.scope.pushes =
        (Service.ofCalls sink calls).context.scope.pops + (Service.ofCalls sink calls).discarded ∧
      ((∀ result ∈ (Service.ofCalls sink calls).results, result = .ok ()) →
        (Service.ofCalls sink calls).discarded = 0) := by
  refine ⟨fun cls context => ?_, fun sink calls => ?_⟩
  · exact ⟨classPass_below cls context, classPass_passed cls context,
      classPass_ne_scope cls context⟩
  · have hsettled : (Service.ofCalls sink calls).Settled := (Service.settled_new sink).calls calls
    refine ⟨?_, hsettled.nowhere, hsettled.noneMissing, hsettled.pushes_eq, hsettled.clean⟩
    rw [ScopeStack.depth, hsettled.closed, List.length_nil]

/-- The class `A`, which extends `B`. -/
def derivedClass : Bytes :=
  [0xCA, 0xFE, 0xBA, 0xBE, 0, 0, 0, 52, 0, 5, 1, 0, 1, 65, 7, 0, 1, 1, 0, 1, 66, 7, 0, 3, 0, 33, 0,
    2, 0, 4, 0, 0, 0, 0, 0, 0, 0, 0]

/-- A class that can be read, the same cut off after twenty bytes, and the class again. -/
def mixedCalls : List (String × Bytes) :=
  [("A.class", derivedClass), ("A.class", derivedClass.take 20), ("A.class", derivedClass)]

/-- With a sink that gives up in the middle of the third call, the scopes of its package and its
class are cut off. -/
theorem scopes_kept_in_mixedCalls :
    packageContext.scope.frames ≠ [] ∧
    (∀ error, ((classPass truncatedMethodClass).run.run packageContext).1 ≠ .error (.scope error)) ∧
    (Service.ofCalls (Recorder.new (some 7) false) mixedCalls).results =
      [.ok (), .error (.classFile .unexpectedEof), .error (.sink .finished)] ∧
    (Service.ofCalls (Recorder.new (some 7) false) mixedCalls).discarded = 2 ∧
    (Service.ofCalls (Recorder.new (some 7) false) mixedCalls).context.scope.depth = 0 ∧
    (Service.ofCalls (Recorder.new (some 7) false) mixedCalls).context.scope.pushes =
      (Service.ofCalls (Recorder.new (some 7) false) mixedCalls).context.scope.pops + 2 := by
  have hscope : packageContext.scope.frames ≠ [] := by decide
  have hdiscarded : (Service.ofCalls (Recorder.new (some 7) false) mixedCalls).discarded = 2 := by
    decide +kernel
  obtain ⟨hpass, hcalls⟩ := scopes_kept_on_every_way_out (σ := Recorder)
  obtain ⟨hdepth, -, -, hpushes, -⟩ := hcalls (Recorder.new (some 7) false) mixedCalls
  exact ⟨hscope, (hpass truncatedMethodClass packageContext).2.2 hscope, by decide +kernel,
    hdiscarded, hdepth, hdiscarded ▸ hpushes⟩

end Extract

end JarFacts
