import JarFacts.Proofs.Extract.Delivery

/-!
# What a sink is given

A sink is a state, and what it was given cannot be read off it.  `Traced` stands between a sink and
its user: it hands every write on, and keeps it together with the answer.  What was given and what
was taken are then lists.

All that is ever written goes to a sink one by one and up to the first refusal (`FactSink.offer`).
So what a sink takes of some writes is the front part of them, and the counts kept along the way are
the counts of that part (`offer_traced`).  On a sink that takes so many writes and then no more
(`FactSink.FailsAfter`), that part is known (`offer_of_failsAfter`).
-/

namespace JarFacts

/-- The fact that is written, if it is one. -/
def SinkWrite.fact? : SinkWrite → Option Fact
  | .fact written => some written
  | .finish _ => none

/-- The counts with one more write; a summary is not counted. -/
def FactCounts.countWrite (counts : FactCounts) : SinkWrite → FactCounts
  | .fact fact => counts.count fact
  | .finish _ => counts

variable {σ : Type}

/-- A sink together with everything it was given, each write with the answer to it. -/
structure Traced (σ : Type) where
  sink : σ
  calls : List (SinkWrite × Except SinkError Unit)

namespace Traced

/-- A sink that was given nothing yet. -/
def new (sink : σ) : Traced σ :=
  ⟨sink, []⟩

/-- All that the sink was given, in order. -/
def attempts (traced : Traced σ) : List SinkWrite :=
  traced.calls.map Prod.fst

/-- All that the sink took, in order. -/
def accepted (traced : Traced σ) : List SinkWrite :=
  traced.calls.filterMap fun (write, answer) => if answer = .ok () then some write else none

variable [FactSink σ]

/-- Hands a write on and keeps it with the answer. -/
def record (write : SinkWrite) (traced : Traced σ) : Except SinkError Unit × Traced σ :=
  let (answer, sink) := FactSink.take write traced.sink
  (answer, ⟨sink, traced.calls ++ [(write, answer)]⟩)

instance : FactSink (Traced σ) where
  write fact := record (.fact fact)
  finish summary := record (.finish summary)

lemma take_eq_record (write : SinkWrite) (traced : Traced σ) :
    FactSink.take write traced = traced.record write := by
  cases write <;> rfl

end Traced

variable [FactSink σ]

/-! ## Offering writes -/

/-- Gives a sink writes one after the other, up to the first that it does not take. -/
def FactSink.offer : List SinkWrite → σ → FactCounts → Except SinkError Unit × σ × FactCounts
  | [], sink, counts => (.ok (), sink, counts)
  | write :: writes, sink, counts =>
    match FactSink.take write sink with
    | (.ok (), sink) => offer writes sink (counts.countWrite write)
    | (.error error, sink) => (.error error, sink, counts)

lemma FactSink.offer_append (first second : List SinkWrite) (sink : σ) (counts : FactCounts) :
    FactSink.offer (first ++ second) sink counts =
      match FactSink.offer first sink counts with
      | (.ok (), sink, counts) => FactSink.offer second sink counts
      | (.error error, sink, counts) => (.error error, sink, counts) := by
  induction first generalizing sink counts with
  | nil => rfl
  | cons write rest ih =>
      simp only [List.cons_append, FactSink.offer]
      rcases FactSink.take write sink with ⟨_ | _, sink'⟩
      · rfl
      · exact ih sink' _

/-- Once all is taken all is counted. -/
lemma FactSink.counts_of_offer {writes : List SinkWrite} {sink sink' : σ}
    {counts counts' : FactCounts}
    (h : FactSink.offer writes sink counts = (.ok (), sink', counts')) :
    counts' = writes.foldl FactCounts.countWrite counts := by
  induction writes generalizing sink counts with
  | nil =>
      cases h
      rfl
  | cons write rest ih =>
      unfold FactSink.offer at h
      rcases htake : FactSink.take write sink with ⟨_ | _, sink''⟩ <;> rw [htake] at h
      · cases h
      · exact ih h

/-- To deliver an account is to offer its facts, and to end as it does once they are all taken. -/
lemma Account.deliver_eq_offer (account : Account) (sink : σ) (counts : FactCounts) :
    account.deliver sink counts =
      match FactSink.offer (account.facts.map .fact) sink counts with
      | (.ok (), sink, counts) => (account.verdict.mapError Refusal.error, sink, counts)
      | (.error error, sink, counts) => (.error (.sink error), sink, counts) := by
  induction account generalizing sink counts with
  | nil => rfl
  | cons item rest ih =>
      rcases item with refusal | fact
      · rfl
      · simp only [Account.deliver, Account.facts, Account.verdict, List.map_cons,
          FactSink.offer, FactSink.take]
        rcases FactSink.write fact sink with ⟨_ | _, sink'⟩
        · rfl
        · exact ih sink' _

namespace FactSink

lemma offer_cons_of_taken {write : SinkWrite} {traced : Traced σ} {sink' : σ}
    (h : take write traced.sink = (.ok (), sink')) (rest : List SinkWrite) (counts : FactCounts) :
    offer (write :: rest) traced counts =
      offer rest ⟨sink', traced.calls ++ [(write, .ok ())]⟩ (counts.countWrite write) := by
  rw [offer, Traced.take_eq_record, Traced.record, h]

lemma offer_cons_of_refused {write : SinkWrite} {traced : Traced σ} {sink' : σ} {error : SinkError}
    (h : take write traced.sink = (.error error, sink')) (rest : List SinkWrite)
    (counts : FactCounts) :
    offer (write :: rest) traced counts =
      (.error error, ⟨sink', traced.calls ++ [(write, .error error)]⟩, counts) := by
  rw [offer, Traced.take_eq_record, Traced.record, h]

/-- A sink takes the front part of what it is offered, all of it unless it refuses one; and the
counts have gone on by the facts of that part. -/
lemma offer_traced (writes : List SinkWrite) (traced : Traced σ) (counts : FactCounts) :
    ∃ taken, taken <+: writes ∧
      (offer writes traced counts).2.1.accepted = traced.accepted ++ taken ∧
      (offer writes traced counts).2.2 = taken.foldl FactCounts.countWrite counts ∧
      ((offer writes traced counts).1 = .ok () → taken = writes) := by
  induction writes generalizing traced counts with
  | nil => exact ⟨[], List.prefix_rfl, (List.append_nil _).symm, rfl, fun _ => rfl⟩
  | cons write rest ih =>
      rcases htake : take write traced.sink with ⟨error | _, sink'⟩
      · rw [offer_cons_of_refused htake]
        refine ⟨[], List.nil_prefix, ?_, rfl, fun hok => by cases hok⟩
        simp [Traced.accepted]
      · rw [offer_cons_of_taken htake]
        obtain ⟨taken, hprefix, haccepted, hcounts, hok⟩ :=
          ih ⟨sink', traced.calls ++ [(write, .ok ())]⟩ (counts.countWrite write)
        refine ⟨write :: taken, List.cons_prefix_cons.mpr ⟨rfl, hprefix⟩, ?_, hcounts, fun h => ?_⟩
        · rw [haccepted]
          simp [Traced.accepted]
        · rw [hok h]

/-! ## Sinks that never fail, and sinks that do -/

/-- A sink that never fails is given everything. -/
lemma offer_of_acceptsAll (writes : List SinkWrite) (traced : Traced σ) (h : AcceptsAll traced.sink)
    (counts : FactCounts) :
    (offer writes traced counts).1 = .ok () ∧
      (offer writes traced counts).2.1.attempts = traced.attempts ++ writes := by
  induction writes generalizing traced counts with
  | nil => exact ⟨rfl, (List.append_nil _).symm⟩
  | cons write rest ih =>
      rw [offer_cons_of_taken (h.take write)]
      obtain ⟨hok, hattempts⟩ :=
        ih ⟨after traced.sink [write], traced.calls ++ [(write, .ok ())]⟩ (h.after [write])
          (counts.countWrite write)
      refine ⟨hok, ?_⟩
      rw [hattempts]
      simp [Traced.attempts]

/-- The sink takes so many writes, whatever they are, and then no other. -/
def FailsAfter (limit : Nat) (sink : σ) : Prop :=
  ∀ (writes : List SinkWrite) (write : SinkWrite), (take write (after sink writes)).1 = .ok () ↔
    writes.length < limit

lemma FailsAfter.take_succ {limit : Nat} {sink : σ} (h : FailsAfter (limit + 1) sink)
    (write : SinkWrite) :
    take write sink = (.ok (), after sink [write]) :=
  Prod.ext ((h [] write).mpr (Nat.succ_pos limit)) rfl

lemma FailsAfter.after_one {limit : Nat} {sink : σ} (h : FailsAfter (limit + 1) sink)
    (write : SinkWrite) :
    FailsAfter limit (after sink [write]) := by
  intro writes next
  have hnext := h (write :: writes) next
  rw [List.length_cons, Nat.add_lt_add_iff_right] at hnext
  exact hnext

/-- A sink that takes no more refuses the next write with some error. -/
lemma FailsAfter.take_zero {sink : σ} (h : FailsAfter 0 sink) (write : SinkWrite) :
    ∃ error, take write sink = (.error error, after sink [write]) := by
  have hrefused := (h [] write).not.mpr (Nat.not_lt_zero _)
  rcases htake : take write sink with ⟨error | _, sink'⟩
  · exact ⟨error, by rw [after, List.foldl_cons, List.foldl_nil, htake]⟩
  · exact absurd (by rw [after, List.foldl_nil, htake]) hrefused

/-- On a sink that takes so many writes, the first so many are taken and the one behind them, if
there is one, is the last that is tried. -/
lemma offer_of_failsAfter (writes : List SinkWrite) {limit : Nat} (traced : Traced σ)
    (h : FailsAfter limit traced.sink) (counts : FactCounts) :
    (offer writes traced counts).2.1.accepted = traced.accepted ++ writes.take limit ∧
    (offer writes traced counts).2.1.attempts = traced.attempts ++ writes.take (limit + 1) ∧
    (writes.length ≤ limit → (offer writes traced counts).1 = .ok ()) ∧
    (limit < writes.length → ∃ error write, writes[limit]? = some write ∧
      (offer writes traced counts).1 = .error error ∧
      (offer writes traced counts).2.1.calls.getLast? = some (write, .error error)) := by
  induction writes generalizing traced counts limit with
  | nil => exact ⟨by simp [offer], by simp [offer], fun _ => rfl, fun hlt => by cases hlt⟩
  | cons write rest ih =>
      cases limit with
      | zero =>
          obtain ⟨error, htake⟩ := h.take_zero write
          rw [offer_cons_of_refused htake]
          refine ⟨by simp [Traced.accepted], by simp [Traced.attempts], fun hle => ?_, fun _ => ?_⟩
          · exact absurd hle (Nat.not_succ_le_zero _)
          · exact ⟨error, write, rfl, rfl, by simp⟩
      | succ limit =>
          rw [offer_cons_of_taken (h.take_succ write)]
          obtain ⟨haccepted, hattempts, hok, herror⟩ :=
            ih ⟨after traced.sink [write], traced.calls ++ [(write, .ok ())]⟩ (h.after_one write)
              (counts.countWrite write)
          refine ⟨?_, ?_, fun hle => hok (Nat.le_of_succ_le_succ hle), fun hlt => ?_⟩
          · rw [haccepted]
            simp [Traced.accepted]
          · rw [hattempts]
            simp [Traced.attempts]
          · exact herror (Nat.lt_of_succ_lt_succ hlt)

end FactSink

lemma Recorder.take_limited (accepted : Array SinkWrite) (limit : Nat) (write : SinkWrite) :
    FactSink.take write (⟨accepted, some limit, false⟩ : Recorder) =
      if accepted.size < limit then (.ok (), ⟨accepted.push write, some limit, false⟩)
      else (.error .finished, ⟨accepted, some limit, false⟩) := by
  have haccept : FactSink.take write (⟨accepted, some limit, false⟩ : Recorder) =
      (⟨accepted, some limit, false⟩ : Recorder).accept write := by
    cases write <;> rfl
  simp only [haccept, Recorder.accept, Recorder.hasRoom, decide_eq_true_eq]

/-- A recorder with a limit takes as many writes as it has room for, and then no more. -/
lemma Recorder.failsAfter (accepted : Array SinkWrite) (limit : Nat) :
    FactSink.FailsAfter (limit - accepted.size) (⟨accepted, some limit, false⟩ : Recorder) := by
  intro writes write
  induction writes generalizing accepted with
  | nil =>
      rw [FactSink.after, List.foldl_nil, Recorder.take_limited]
      by_cases hroom : accepted.size < limit
      · rw [if_pos hroom]
        exact iff_of_true rfl (Nat.sub_pos_of_lt hroom)
      · rw [if_neg hroom]
        exact iff_of_false (by simp) (by simp only [List.length_nil]; omega)
  | cons first rest ih =>
      rw [FactSink.after, List.foldl_cons, Recorder.take_limited, ← FactSink.after]
      by_cases hroom : accepted.size < limit
      · have hrest := ih (accepted.push first)
        rw [Array.size_push] at hrest
        rw [if_pos hroom, hrest, List.length_cons]
        omega
      · rw [if_neg hroom, ih accepted, List.length_cons]
        omega

end JarFacts
