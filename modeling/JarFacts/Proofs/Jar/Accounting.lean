import JarFacts.Proofs.Extract.Stamped
import JarFacts.Proofs.Jar.Truncation

/-!
# The summary of a walk accounts for all of it

What a summary says is counted in two places: the walk tallies what has become of the class entries,
and the extraction counts the facts its sink has taken.  Both are compared here with what can be
seen from outside, the results of the extractions (`Walk.extractions`) and the calls that the sink
was given (`Traced.calls`).

The two counts meet in the facts about files.  The archive is one; each class that was worked
through to its end adds one, and a class that was given up adds none, however far it got
(`countP_isFile_entryAccount`).
-/

namespace JarFacts

open Account

/-! ## The files of an entry -/

lemma Fact.Stamped.isFile {location : Location} {fact : Fact} (h : fact.Stamped location) :
    fact.isFile = false := by
  cases fact with
  | file _ => exact h.elim
  | _ => rfl

lemma countP_isFile_of_stamped {location : Location} {account : Account}
    (h : account.Every (Fact.Stamped location)) : account.facts.countP Fact.isFile = 0 := by
  refine List.countP_eq_zero.mpr fun fact hfact => ?_
  have hstamped : fact.Stamped location := h.of_mem_facts hfact
  simp [hstamped.isFile]

/-- An entry tells of one file when it is told to its end, and of none when it breaks off. -/
lemma countP_isFile_entryAccount (path : String) (bytes : Bytes) :
    (entryAccount path bytes).facts.countP Fact.isFile =
      if (entryAccount path bytes).verdict = .ok () then 1 else 0 := by
  rw [entryAccount]
  cases EntryName.parse path with
  | error error => rfl
  | ok name =>
      rw [reading_ok]
      cases ClassFile.parse bytes with
      | error error => rfl
      | ok cls =>
          have hclass := countP_isFile_of_stamped (stamped_classAccount (name.location cls) cls)
          simp only [classFileAccount, List.cons_append, facts, verdict, facts_append,
            verdict_append, List.countP_cons, Fact.isFile]
          -- The fact of the file stands behind everything the class may refuse.
          cases (classAccount (name.location cls) cls).verdict with
          | error refusal => simp [hclass]
          | ok _ => simp [hclass, Fact.isFile]

/-! ## The calls of a sink -/

variable {σ : Type} [FactSink σ]

/-- A fact that was written and taken. -/
def Traced.taken (fact : Fact) : SinkWrite × Except SinkError Unit :=
  (.fact fact, .ok ())

/-- Since `before` the sink was given facts only. -/
def Traced.OnlyFacts (before after : Traced σ) : Prop :=
  ∃ more, after.calls = before.calls ++ more ∧
    ∀ call ∈ more, ∃ fact answer, call = (.fact fact, answer)

omit [FactSink σ] in
lemma Traced.OnlyFacts.refl (traced : Traced σ) : traced.OnlyFacts traced :=
  ⟨[], (List.append_nil _).symm, fun call hcall => by cases hcall⟩

omit [FactSink σ] in
lemma Traced.OnlyFacts.trans {first second third : Traced σ} (h : first.OnlyFacts second)
    (h' : second.OnlyFacts third) : first.OnlyFacts third := by
  obtain ⟨more, hcalls, hmore⟩ := h
  obtain ⟨more', hcalls', hmore'⟩ := h'
  refine ⟨more ++ more', by rw [hcalls', hcalls, List.append_assoc], fun call hcall => ?_⟩
  exact (List.mem_append.mp hcall).elim (hmore call) (hmore' call)

/-- A sink that is offered facts is given facts only; where none was refused, it was given exactly
those. -/
lemma FactSink.offer_facts (facts : List Fact) (traced : Traced σ) (counts : FactCounts) :
    traced.OnlyFacts (FactSink.offer (facts.map .fact) traced counts).2.1 ∧
      ((FactSink.offer (facts.map .fact) traced counts).1 = .ok () →
        (FactSink.offer (facts.map .fact) traced counts).2.1.calls =
          traced.calls ++ facts.map Traced.taken ∧
        (FactSink.offer (facts.map .fact) traced counts).2.2 =
          facts.foldl FactCounts.count counts) := by
  induction facts generalizing traced counts with
  | nil => exact ⟨.refl traced, fun _ => ⟨(List.append_nil _).symm, rfl⟩⟩
  | cons fact rest ih =>
      rw [List.map_cons]
      rcases htake : FactSink.take (.fact fact) traced.sink with ⟨error | _, sink'⟩
      · rw [FactSink.offer_cons_of_refused htake]
        refine ⟨⟨[(.fact fact, .error error)], rfl, fun call hcall => ?_⟩, fun hok => by cases hok⟩
        exact ⟨fact, .error error, List.mem_singleton.mp hcall⟩
      · rw [FactSink.offer_cons_of_taken htake]
        set next : Traced σ := ⟨sink', traced.calls ++ [(.fact fact, .ok ())]⟩ with hnext
        have hfirst : traced.OnlyFacts next := by
          refine ⟨[(.fact fact, .ok ())], rfl, fun call hcall => ?_⟩
          exact ⟨fact, .ok (), List.mem_singleton.mp hcall⟩
        obtain ⟨honly, hall⟩ := ih next (counts.countWrite (.fact fact))
        refine ⟨hfirst.trans honly, fun hok => ?_⟩
        obtain ⟨hcalls, hcounts⟩ := hall hok
        refine ⟨?_, hcounts⟩
        rw [hcalls, hnext, List.append_assoc]
        rfl

namespace Walk

variable {config : ExtractionConfig}

/-! ## The class entries of an archive -/

/-- The content of an entry that is read as a class file. -/
def classBytes? (config : ExtractionConfig) (entry : ArchiveEntry) : Option Bytes :=
  if config.takes entry then entry.content () else none

/-- What comes of extracting the class entries of an archive one after the other, from a state of
the extraction. -/
def extractions (config : ExtractionConfig) :
    List ArchiveEntry → ExtractContext σ → List (Except ExtractError Unit)
  | [], _ => []
  | entry :: rest, context =>
    match classBytes? config entry with
    | none => extractions config rest context
    | some bytes =>
      let (result, context) := (Extract.entry entry.name bytes).run.run context
      result :: extractions config rest context

/-- Was the class given up for a reason of its own, and not because the sink failed? -/
def isFailure : Except ExtractError Unit → Bool
  | .ok _ | .error (.sink _) => false
  | .error _ => true

/-- Was the class worked through to its end? -/
def isSuccess : Except ExtractError Unit → Bool
  | .ok _ => true
  | .error _ => false

/-- How a tally goes on along entries whose extractions had the given results and wrote the given
facts. -/
structure Progress (config : ExtractionConfig) (list : List ArchiveEntry)
    (results : List (Except ExtractError Unit))
    (facts : List Fact) (before after : Tally) : Prop where
  seen : after.seen = before.seen + list.countP config.takes
  extracted : after.extracted = before.extracted + results.countP isSuccess
  failed : after.failed = before.failed + results.countP isFailure
  whole : list.countP config.takes = results.countP isSuccess + results.countP isFailure
  files : facts.countP Fact.isFile = results.countP isSuccess

lemma Progress.refl (tally : Tally) : Progress config [] [] [] tally tally :=
  ⟨rfl, rfl, rfl, rfl, rfl⟩

lemma Progress.trans {list list' : List ArchiveEntry}
    {results results' : List (Except ExtractError Unit)}
    {facts facts' : List Fact} {first second third : Tally}
    (h : Progress config list results facts first second)
    (h' : Progress config list' results' facts' second third) :
    Progress config (list ++ list') (results ++ results') (facts ++ facts') first third := by
  obtain ⟨hseen, hextracted, hfailed, hwhole, hfiles⟩ := h
  obtain ⟨hseen', hextracted', hfailed', hwhole', hfiles'⟩ := h'
  constructor <;> simp only [List.countP_append] <;> omega

/-- What a run from one state to another has done: it has given the sink facts only, and where it
succeeded the facts were all taken and counted. -/
structure Advances (config : ExtractionConfig) (list : List ArchiveEntry)
    (context : ExtractContext (Traced σ)) (tally : Tally)
    (run : Except WalkError Tally × ExtractContext (Traced σ)) : Prop where
  onlyFacts : context.sink.OnlyFacts run.2.sink
  progress : ∀ tally', run.1 = .ok tally' → ∃ results facts,
    (∀ rest, extractions config (list ++ rest) context = results ++ extractions config rest run.2) ∧
    run.2.sink.calls = context.sink.calls ++ facts.map Traced.taken ∧
    run.2.counts = facts.foldl FactCounts.count context.counts ∧
    Progress config list results facts tally tally'

/-- A class entry that was read counts as extracted or as failed, and its file is told of in the
first case only. -/
lemma progress_of_verdict {entry : ArchiveEntry} (htakes : config.takes entry = true)
    (bytes : Bytes) (tally : Tally) :
    Progress config [entry] [(entryAccount entry.name bytes).verdict.mapError Refusal.error]
      (entryAccount entry.name bytes).facts tally
        (tally.settled (entryAccount entry.name bytes).verdict) := by
  have hfiles := countP_isFile_entryAccount entry.name bytes
  cases hverdict : (entryAccount entry.name bytes).verdict with
  | ok _ =>
      rw [hverdict] at hfiles
      constructor <;> simp [htakes, hfiles, Tally.settled, Except.mapError, isSuccess, isFailure]
  | error refusal =>
      have hfailure : isFailure (.error refusal.error) = true := by cases refusal <;> rfl
      rw [hverdict] at hfiles
      constructor <;> simp [htakes, hfiles, Tally.settled, Except.mapError, isSuccess, hfailure]

/-- The way behind a class entry that was read. -/
lemma advances_classFile {entry : ArchiveEntry} {bytes : Bytes} (htakes : config.takes entry = true)
    (hbytes : entry.content () = some bytes) (tally : Tally) (context : ExtractContext (Traced σ)) :
    Advances config [entry] context tally ((classFile entry.name bytes tally).run.run context) := by
  set account := entryAccount entry.name bytes with haccount
  have hclass : classBytes? config entry = some bytes := by
    rw [classBytes?, htakes, if_pos rfl, hbytes]
  obtain ⟨honly, hall⟩ := FactSink.offer_facts account.facts context.sink context.counts
  obtain ⟨scope, location, log, -, hrun⟩ := Extract.entry_run entry.name bytes context
  rw [← haccount, Account.deliver_eq_offer] at hrun
  rcases hoffer : FactSink.offer (account.facts.map .fact) context.sink context.counts
    with ⟨error | _, sink', counts'⟩ <;> rw [hoffer] at honly hall hrun <;>
      dsimp only at honly hall hrun
  · rw [run_classFile_of_sinkError hrun]
    exact ⟨honly, fun tally' hok => by cases hok⟩
  · rw [run_classFile_of_verdict hrun]
    refine ⟨honly, fun tally' hok => ?_⟩
    obtain rfl := Except.ok.inj hok
    obtain ⟨hcalls, hcounts⟩ := hall rfl
    refine ⟨_, account.facts, fun rest => ?_, hcalls, hcounts,
      progress_of_verdict htakes bytes tally⟩
    simp only [List.singleton_append, extractions, hclass, hrun]
    rfl

/-- An entry that ends the walk, or that is passed over. -/
lemma advances_visit (config : ExtractionConfig) (jar : String) (tally : Tally)
    (entry : ArchiveEntry) (context : ExtractContext (Traced σ)) :
    Advances config [entry] context tally ((visit config jar tally entry).run.run context) := by
  have hstop : ∀ error : WalkError, Advances config [entry] context tally
      ((throw error : Walk (Traced σ) Tally).run.run context) :=
    fun error => ⟨.refl _, fun tally' hok => by cases hok⟩
  have hskip : (!entry.isFile || !config.isClassEntry entry.name) = !config.takes entry := by
    rw [ExtractionConfig.takes, Bool.not_and]
  rw [visit, hskip]
  by_cases hopens : entry.opens = true
  · rw [if_neg (by simp [hopens])]
    by_cases htakes : config.takes entry = true
    · rw [if_neg (by simp [htakes])]
      cases hbytes : entry.content () with
      | none => exact hstop _
      | some bytes => exact advances_classFile htakes hbytes tally context
    · rw [if_pos (by simp [htakes])]
      refine ⟨.refl _, fun tally' hok =>
        ⟨[], [], fun rest => ?_, (List.append_nil _).symm, rfl, ?_⟩⟩
      · simp [extractions, classBytes?, htakes]
        rfl
      · cases hok
        constructor <;> simp [htakes]
  · rw [if_pos (by simp [hopens])]
    exact hstop _

/-- The way along a list of entries. -/
lemma advances_foldlM_visit (config : ExtractionConfig) (jar : String) (list : List ArchiveEntry)
    (tally : Tally) (context : ExtractContext (Traced σ)) :
    Advances config list context tally
      ((list.foldlM (visit config jar) tally).run.run context) := by
  induction list generalizing tally context with
  | nil =>
      refine ⟨.refl _, fun tally' hok =>
        ⟨[], [], fun rest => rfl, (List.append_nil _).symm, rfl, ?_⟩⟩
      cases hok
      exact .refl tally
  | cons entry rest ih =>
      have hentry := advances_visit config jar tally entry context
      rw [List.foldlM_cons, run_bind]
      rcases hrun : (visit config jar tally entry).run.run context with
        ⟨error | tally₁, context₁⟩ <;>
        rw [hrun] at hentry
      · exact ⟨hentry.onlyFacts, fun tally' hok => by cases hok⟩
      · obtain ⟨results, facts, hresults, hcalls, hcounts, hprogress⟩ := hentry.progress tally₁ rfl
        have hrest := ih tally₁ context₁
        refine ⟨hentry.onlyFacts.trans hrest.onlyFacts, fun tally' hok => ?_⟩
        obtain ⟨results', facts', hresults', hcalls', hcounts', hprogress'⟩ :=
          hrest.progress tally' hok
        refine ⟨results ++ results', facts ++ facts', fun more => ?_, ?_, ?_,
          hprogress.trans hprogress'⟩
        · have hfirst := hresults (rest ++ more)
          rw [List.cons_append, ← List.singleton_append, hfirst, hresults', List.append_assoc]
        · rw [hcalls', hcalls, List.map_append, List.append_assoc]
        · rw [hcounts', hcounts, List.foldl_append]

/-! ## The summary -/

/-- The summary is about a walk through the entries whose extractions had the given results, and
whose sink took the given facts. -/
structure Accounted (config : ExtractionConfig) (list : List ArchiveEntry)
    (results : List (Except ExtractError Unit)) (facts : List Fact) (summary : WalkSummary) :
    Prop where
  seen : summary.classesSeen = list.countP config.takes
  split : summary.classesSeen = summary.classesExtracted + summary.classesFailed
  extracted : summary.classesExtracted = results.countP isSuccess
  failed : summary.classesFailed = results.countP isFailure
  entities : summary.facts.entities = facts.countP Fact.isEntity
  relations : summary.facts.relations = facts.countP Fact.isRelation
  files : summary.facts.files = facts.countP Fact.isFile
  params : summary.facts.params = facts.countP Fact.isParam
  /-- The archive itself and each class that was worked through are the files. -/
  fileOfEach : summary.facts.files = summary.classesExtracted + 1

lemma run_write (fact : Fact) (context : ExtractContext σ) :
    (write fact).run.run context =
      match FactSink.write fact context.sink with
      | (.ok (), sink) =>
          (.ok (), { context with sink := sink, counts := context.counts.count fact })
      | (.error error, sink) => (.error (.sink error), { context with sink := sink }) := by
  rw [write, run_lift_bind, Extract.run_emit]
  rcases FactSink.write fact context.sink with ⟨_ | _, sink'⟩ <;> rfl

/-- A walk succeeds with the summary that its sink has taken last, and fails with the error of that
last call. -/
lemma run_closing (period : Period) (jar : String) (sha256 : Option String) (tally : Tally)
    (context : ExtractContext (Traced σ)) :
    ∃ answer, ((closing period jar sha256 tally).run.run context).2.sink.calls =
        context.sink.calls ++
          [(.finish (summarize jar sha256 period tally context.counts), answer)] ∧
      ((closing period jar sha256 tally).run.run context).1 =
        (answer.mapError WalkError.sink).map fun _ =>
          summarize jar sha256 period tally context.counts := by
  set summary := summarize jar sha256 period tally context.counts with hsummary
  have hfinish : FactSink.finish summary context.sink = context.sink.record (.finish summary) := rfl
  simp only [closing, finish, run_get_bind, bind_assoc, ← hsummary, hfinish, Traced.record]
  rcases FactSink.take (.finish summary) context.sink.sink with ⟨error | _, sink'⟩
  · exact ⟨.error error, rfl, rfl⟩
  · exact ⟨.ok (), rfl, rfl⟩

/-- The state in which the first entry is come to. -/
def begun (jar : String) (sink : σ) : ExtractContext σ :=
  (start (write (jarFact jar)) sink).2

/-- The archive itself is taken and counted, or the walk ends. -/
lemma start_write_jarFact (jar : String) (sink : σ) :
    (∃ error, (start (write (jarFact jar)) (Traced.new sink)).1 = .error (.sink error) ∧
      (begun jar (Traced.new sink)).sink.calls = [(.fact (jarFact jar), .error error)]) ∨
    (start (write (jarFact jar)) (Traced.new sink)).1 = .ok () ∧
      (begun jar (Traced.new sink)).sink.calls = [Traced.taken (jarFact jar)] ∧
      (begun jar (Traced.new sink)).counts = FactCounts.zero.count (jarFact jar) := by
  have hrecord : FactSink.write (jarFact jar) (ExtractContext.start (Traced.new sink)).sink =
      (Traced.new sink).record (.fact (jarFact jar)) := rfl
  rw [begun, start, run_write, hrecord, Traced.record]
  rcases FactSink.take (.fact (jarFact jar)) (Traced.new sink).sink with ⟨error | _, sink'⟩
  · exact .inl ⟨error, rfl, rfl⟩
  · exact .inr ⟨rfl, rfl, rfl⟩

/-- The walk up to its summary gives its sink facts only; where it gets to its end, they are the
archive and those of the entries. -/
lemma run_through (config : ExtractionConfig) (jar : String) (list : List ArchiveEntry) (sink : σ) :
    (∀ call ∈ (start (through config jar list) (Traced.new sink)).2.sink.calls,
      ∃ fact answer, call = (.fact fact, answer)) ∧
    ∀ tally, (start (through config jar list) (Traced.new sink)).1 = .ok tally → ∃ facts,
      (start (through config jar list) (Traced.new sink)).2.sink.calls =
        (jarFact jar :: facts).map Traced.taken ∧
      (start (through config jar list) (Traced.new sink)).2.counts =
        .ofList (jarFact jar :: facts) ∧
      Progress config list (extractions config list (begun jar (Traced.new sink))) facts
        .zero tally := by
  have hbegun : (write (jarFact jar)).run.run (.start (Traced.new sink)) =
      ((start (write (jarFact jar)) (Traced.new sink)).1, begun jar (Traced.new sink)) := rfl
  rw [start, through, run_bind, hbegun]
  rcases start_write_jarFact jar sink with ⟨error, hresult, hcalls⟩
    | ⟨hresult, hcalls, hcounts⟩ <;> rw [hresult]
  · refine ⟨fun call hcall => ⟨jarFact jar, .error error, ?_⟩, fun tally hok => by cases hok⟩
    rw [hcalls] at hcall
    exact List.mem_singleton.mp hcall
  · obtain ⟨⟨more, hmore, honly⟩, hprogress⟩ :=
      advances_foldlM_visit config jar list .zero (begun jar (Traced.new sink))
    refine ⟨fun call hcall => ?_, fun tally hok => ?_⟩
    · rw [hmore, hcalls] at hcall
      rcases List.mem_append.mp hcall with hfirst | hrest
      · exact ⟨jarFact jar, .ok (), List.mem_singleton.mp hfirst⟩
      · exact honly call hrest
    · obtain ⟨results, facts, hresults, hcalls', hcounts', hdone⟩ := hprogress tally hok
      have hall := hresults []
      rw [List.append_nil, extractions, List.append_nil] at hall
      rw [← hall] at hdone
      rw [hcalls] at hcalls'
      rw [hcounts] at hcounts'
      exact ⟨facts, hcalls', hcounts', hdone⟩

/-- **The summary of a walk accounts for all of it.**  When a walk succeeds, all calls of its sink
were facts that it took, and behind them one summary, which is the one that is returned; and that
agrees with the entries, with what came of each, and with the facts.  When a walk fails, no summary
was taken. -/
theorem summary_accounts_for_walk (config : ExtractionConfig) (period : Period) (jar : String)
    (sha256 : Option String) (list : List ArchiveEntry) (sink : σ) :
    match start (entries config period jar sha256 list) (Traced.new sink) with
    | (.ok summary, context) => ∃ facts : List Fact,
        context.sink.calls = facts.map Traced.taken ++ [(.finish summary, .ok ())] ∧
        Accounted config list (extractions config list (begun jar (Traced.new sink))) facts summary
    | (.error _, context) => ∀ summary, (.finish summary, .ok ()) ∉ context.sink.calls := by
  obtain ⟨honly, hthrough⟩ := run_through config jar list sink
  have hentries : start (entries config period jar sha256 list) (Traced.new sink) =
      match start (through config jar list) (Traced.new sink) with
      | (.ok tally, context) => (closing period jar sha256 tally).run.run context
      | (.error error, context) => (.error error, context) := by
    rw [entries_eq, start, run_bind, start]
    rcases (through config jar list).run.run (.start (Traced.new sink)) with
      ⟨_ | _, context⟩ <;> rfl
  rw [hentries]
  have hnone : ∀ summary, (.finish summary, .ok ()) ∉
      (start (through config jar list) (Traced.new sink)).2.sink.calls := by
    intro summary hmem
    obtain ⟨fact, answer, heq⟩ := honly _ hmem
    cases heq
  rcases hrun : start (through config jar list) (Traced.new sink) with ⟨error | tally, context⟩ <;>
    rw [hrun] at hthrough hnone
  · exact hnone
  · obtain ⟨facts, hcalls, hcounts, hprogress⟩ := hthrough tally rfl
    obtain ⟨answer, hclosed, hresult⟩ := run_closing period jar sha256 tally context
    dsimp only at hcounts ⊢
    rcases hclosing : (closing period jar sha256 tally).run.run context with
      ⟨error | summary, context'⟩ <;>
      rw [hclosing] at hclosed hresult
    · intro summary hmem
      rw [hclosed] at hmem
      rcases List.mem_append.mp hmem with hbefore | hlast
      · exact hnone summary hbefore
      · cases List.mem_singleton.mp hlast
        cases hresult
    · cases answer with
      | error error => cases hresult
      | ok _ =>
          cases hresult
          refine ⟨jarFact jar :: facts, by rw [hclosed, hcalls], ?_⟩
          obtain ⟨hseen, hextracted, hfailed, hwhole, hfiles⟩ := hprogress
          have hjar : (jarFact jar :: facts).countP Fact.isFile = facts.countP Fact.isFile + 1 := by
            rw [List.countP_cons_of_pos rfl]
          rw [FactCounts.ofList_eq] at hcounts
          simp only [Tally.zero, Nat.zero_add] at hseen hextracted hfailed
          constructor <;> simp only [summarize, hcounts, hjar] <;> omega

end Walk

end JarFacts
