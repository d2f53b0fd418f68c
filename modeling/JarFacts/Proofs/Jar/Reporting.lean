import JarFacts.Proofs.ClassFile.Notes
import JarFacts.Proofs.Jar.Accounting

/-!
# Failed classes in the log

A class that was given up is counted by the walk and reported by the extraction, in two places.  The
report stands behind the reading of the path: an entry whose path names no class
(`EntryName.namesClass`) is given up before that, and nothing in the log tells of it.  This is the
only gap.  For every other class entry there is one report when it failed, with its path and the
reason, and none when it did not (`Extract.errors_entry`); and nothing else in a walk is an error.
-/

namespace JarFacts

/-- The errors of a log, in the order in which they were noted. -/
def LogEvent.errors (log : Array LogEvent) : List LogEvent :=
  log.toList.filter fun event => event.level = .error

lemma LogEvent.AddsNoError.errors_eq {before after : Array LogEvent}
    (h : LogEvent.AddsNoError before after) :
    LogEvent.errors after = LogEvent.errors before := by
  obtain ⟨events, hafter, hevents⟩ := h
  have hnone : events.filter (fun event => event.level = .error) = [] := by
    refine List.filter_eq_nil_iff.mpr fun event hevent => ?_
    simpa using hevents event hevent
  rw [LogEvent.errors, hafter, List.filter_append, hnone, List.append_nil, LogEvent.errors]

lemma LogEvent.errors_push (log : Array LogEvent) (event : LogEvent) :
    LogEvent.errors (log.push event) = LogEvent.errors log ++ if event.level = .error then [event]
      else [] := by
  rw [LogEvent.errors, Array.toList_push, List.filter_append, LogEvent.errors]
  by_cases hlevel : event.level = .error <;> simp [hlevel]

/-- Does the path of an entry name a class? -/
def EntryName.namesClass (path : String) : Bool :=
  (EntryName.parse path).isOk

/-- Of the paths of class files, `.class` may fail to name a class, and those that look like the
name of an array. -/
lemma EntryName.namesClass_of_isSuffixOf {path : String}
    (hending : ".class".toList.isSuffixOf path.toList = true)
    (hstem : path ≠ ".class") (harray : path.toList.head? ≠ some '[') :
      EntryName.namesClass path = true := by
  obtain ⟨stem, hpath⟩ := List.isSuffixOf_iff_suffix.mp hending
  have hdrop : Text.dropEnding? ".class".toList path.toList = some stem := by
    rw [Text.dropEnding?, if_pos hending, ← hpath]
    simp
  have hdecode : ∃ fqn, Signature.decodeClassName (String.ofList stem) = .ok fqn := by
    unfold Signature.decodeClassName
    split
    next hempty =>
      rw [String.toList_ofList] at hempty
      subst hempty
      exact absurd (String.toList_injective hpath.symm) hstem
    next rest hbracket =>
      rw [String.toList_ofList] at hbracket
      subst hbracket
      exact absurd (by rw [← hpath]; rfl) harray
    next => exact ⟨_, rfl⟩
  obtain ⟨fqn, hfqn⟩ := hdecode
  rw [EntryName.namesClass, EntryName.parse_eq_map, hdrop, Option.getD_some, hfqn]
  rfl

/-! ## One entry -/

namespace Extract

variable {σ : Type} [FactSink σ]

/-- What the log is told about an entry with the given path and result. -/
def report? (path : String) : Except ExtractError Unit → Option LogEvent
  | .ok _ => none
  | .error error => if EntryName.namesClass path then some (.extractionAborted path error.message)
    else none

/-- While the class file of an entry is read and passed over no error is noted, however that
ends. -/
lemma addsNoError_entryFacts (name : EntryName) (path : String) (bytes : Bytes)
    (context : ExtractContext σ) :
    LogEvent.AddsNoError context.log ((entryFacts name path bytes).run.run
      { context with location := .ofClassFile name.package name.classFqn }).2.log := by
  have hread : LogEvent.AddsNoError context.log
      (context.log ++ (ClassFile.parseWithLog bytes).2) := by
    refine ⟨(ClassFile.parseWithLog bytes).2.toList, Array.toList_append, fun event hevent => ?_⟩
    obtain ⟨offset, rfl⟩ :=
      ClassFile.parseWithLog_events bytes event (Array.mem_toList_iff.mp hevent)
    simp [LogEvent.level]
  rw [entryFacts, run_bind, run_parseClass]
  cases ClassFile.parse bytes with
  | error error => exact hread
  | ok cls =>
      have hrun := tells_classFileFacts context.scope name path cls context.sink context.counts
        (context.log ++ (ClassFile.parseWithLog bytes).2)
      refine hread.trans ?_
      rcases hdeliver : (classFileAccount name path cls).deliver context.sink context.counts
        with ⟨error | _, sink', counts'⟩ <;> rw [hdeliver] at hrun
      · obtain ⟨log', left, hlog, -, heq⟩ := hrun
        exact (congrArg (fun run => LogEvent.AddsNoError _ run.2.log) heq).mpr hlog
      · obtain ⟨log', hlog, heq⟩ := hrun
        exact (congrArg (fun run => LogEvent.AddsNoError _ run.2.log) heq).mpr hlog

/-- The procedure for an entry adds its report to the errors of the log, and no other. -/
lemma errors_entry (path : String) (bytes : Bytes) (context : ExtractContext σ) :
    LogEvent.errors ((entry path bytes).run.run context).2.log =
      LogEvent.errors context.log ++
        (report? path ((entry path bytes).run.run context).1).toList := by
  cases hname : EntryName.parse path with
  | error error =>
      have hrun : (entry path bytes).run.run context = (.error (.signature error), context) := by
        rw [entry, hname]
        rfl
      simp [hrun, report?, EntryName.namesClass, hname, Except.isOk, Except.toBool]
  | ok name =>
      have hnamed : EntryName.namesClass path = true := by
        rw [EntryName.namesClass, hname]
        rfl
      have hfacts := (addsNoError_entryFacts name path bytes context).errors_eq
      rw [entry_run_of_name hname]
      rcases hrun : (entryFacts name path bytes).run.run _ with ⟨error | _, context'⟩ <;>
        rw [hrun] at hfacts
      · dsimp only at hfacts ⊢
        rw [LogEvent.errors_push, hfacts, report?, if_pos hnamed]
        rfl
      · dsimp only at hfacts ⊢
        rw [hfacts, report?]
        exact (List.append_nil _).symm

/-- An entry whose path names no class fails, and not because of the sink. -/
lemma isFailure_entry_of_not_namesClass {path : String} (h : EntryName.namesClass path = false)
    (bytes : Bytes) (context : ExtractContext σ) :
      Walk.isFailure ((entry path bytes).run.run context).1 = true := by
  rw [EntryName.namesClass] at h
  cases hname : EntryName.parse path with
  | error error =>
      rw [entry, hname]
      rfl
  | ok name =>
      rw [hname] at h
      cases h

end Extract

/-! ## The entries of an archive -/

namespace Walk

open Extract

variable {σ : Type} [FactSink σ] {config : ExtractionConfig}

/-- The paths of the class entries. -/
def classPaths (config : ExtractionConfig) (list : List ArchiveEntry) : List String :=
  (list.filter config.takes).map ArchiveEntry.name

/-- What the log is told about entries with the given paths and results. -/
def reports (paths : List String) (results : List (Except ExtractError Unit)) : List LogEvent :=
  (paths.zip results).filterMap fun (path, result) => report? path result

lemma reports_cons (path : String) (paths : List String) (result : Except ExtractError Unit)
    (results : List (Except ExtractError Unit)) :
    reports (path :: paths) (result :: results) =
      (report? path result).toList ++ reports paths results := by
  simp only [reports, List.zip_cons_cons, List.filterMap_cons]
  cases report? path result <;> rfl

/-- A class file that the walk goes on behind was extracted or given up, and a failure of the sink
is neither. -/
lemma classFile_cases {path : String} {bytes : Bytes} {tally tally' : Tally}
    {context context' : ExtractContext σ}
    (h : (classFile path bytes tally).run.run context = (.ok tally', context')) :
    ∃ result, (Extract.entry path bytes).run.run context = (result, context') ∧
      isFailure result = !isSuccess result ∧
      tally'.failed = tally.failed + if isFailure result then 1 else 0 := by
  rw [classFile, run_lift_bind] at h
  rcases hrun : (Extract.entry path bytes).run.run context with
    ⟨error | _, context₁⟩ <;> rw [hrun] at h
  · refine ⟨.error error, ?_⟩
    cases error <;> cases h <;> exact ⟨rfl, rfl, rfl⟩
  · cases h
    exact ⟨.ok (), rfl, rfl, rfl⟩

/-- An entry that the walk goes on behind is no class entry and changes nothing, or it is such a
class file. -/
lemma visit_cases {jar : String} {tally tally' : Tally} {entry : ArchiveEntry}
    {context context' : ExtractContext σ}
    (h : (visit config jar tally entry).run.run context = (.ok tally', context')) :
    (config.takes entry = false ∧ tally' = tally ∧ context' = context) ∨
    ∃ bytes result, config.takes entry = true ∧ entry.content () = some bytes ∧
      (Extract.entry entry.name bytes).run.run context = (result, context') ∧
      isFailure result = !isSuccess result ∧
      tally'.failed = tally.failed + if isFailure result then 1 else 0 := by
  have hskip : (!entry.isFile || !config.isClassEntry entry.name) = !config.takes entry := by
    rw [ExtractionConfig.takes, Bool.not_and]
  rw [visit, hskip] at h
  by_cases hopens : entry.opens = true
  · rw [if_neg (by simp [hopens])] at h
    by_cases htakes : config.takes entry = true
    · rw [if_neg (by simp [htakes])] at h
      cases hbytes : entry.content () with
      | none =>
          rw [hbytes] at h
          cases h
      | some bytes =>
          rw [hbytes] at h
          obtain ⟨result, hresult⟩ := classFile_cases h
          exact .inr ⟨bytes, result, htakes, rfl, hresult⟩
    · rw [if_pos (by simp [htakes])] at h
      cases h
      exact .inl ⟨by simpa using htakes, rfl, rfl⟩
  · rw [if_pos (by simp [hopens])] at h
    cases h

/-- What a walk has to show for class entries that it has gone past, given by their paths and
results: a count of failures before and after them, and a log. -/
structure Reported (paths : List String) (results : List (Except ExtractError Unit))
    (before after : Nat × Array LogEvent) : Prop where
  /-- There is a result for each entry. -/
  length : results.length = paths.length
  /-- What failed is counted. -/
  counted : after.1 = before.1 + results.countP isFailure
  /-- The errors are the reports, in order. -/
  errors : LogEvent.errors after.2 = LogEvent.errors before.2 ++ reports paths results
  /-- What failed is reported, or its path names no class. -/
  balance : results.countP isFailure =
    (reports paths results).length + paths.countP fun path => !EntryName.namesClass path

/-- A class entry that is gone past has a report, or succeeds, or names no class. -/
lemma failure_balance {path : String} {bytes : Bytes} {context context' : ExtractContext σ}
    {result : Except ExtractError Unit}
    (hrun : (Extract.entry path bytes).run.run context = (result, context'))
    (hresult : isFailure result = !isSuccess result) :
    (if isFailure result then 1 else 0) =
      (report? path result).toList.length + if EntryName.namesClass path then 0 else 1 := by
  by_cases hnamed : EntryName.namesClass path = true
  · cases result with
    | ok _ => simp [isFailure, report?, hnamed]
    | error error => simp [hresult, isSuccess, report?, hnamed]
  · have hfailure := isFailure_entry_of_not_namesClass (by simpa using hnamed) bytes context
    rw [hrun] at hfailure
    cases result with
    | ok _ => cases hfailure
    | error error => simp [hfailure, report?, hnamed]

lemma reported_foldlM_visit {jar : String} {list : List ArchiveEntry} {tally tally' : Tally}
    {context context' : ExtractContext σ}
    (h : (list.foldlM (visit config jar) tally).run.run context = (.ok tally', context')) :
    Reported (classPaths config list) (extractions config list context) (tally.failed, context.log)
      (tally'.failed, context'.log) := by
  induction list generalizing tally context with
  | nil =>
      cases h
      exact ⟨rfl, rfl, (List.append_nil _).symm, rfl⟩
  | cons entry rest ih =>
      rw [List.foldlM_cons] at h
      obtain ⟨tally₁, context₁, hentry, hrest⟩ := run_bind_of_ok (congrArg Prod.fst h)
      have hreported := ih (hrest.symm.trans h)
      rcases visit_cases hentry with ⟨htakes, rfl, rfl⟩
        | ⟨bytes, result, htakes, hbytes, hrun, hresult, hfailed⟩
      · have hpaths : classPaths config (entry :: rest) = classPaths config rest := by
          simp [classPaths, htakes]
        have hresults : extractions config (entry :: rest) context₁ =
            extractions config rest context₁ := by
          simp [extractions, classBytes?, htakes]
        rw [hpaths, hresults]
        exact hreported
      · have hpaths : classPaths config (entry :: rest) = entry.name :: classPaths config rest := by
          simp [classPaths, htakes]
        have hresults : extractions config (entry :: rest) context =
            result :: extractions config rest context₁ := by
          simp [extractions, classBytes?, htakes, hbytes, hrun]
        obtain ⟨hlength, hcounted, herrors, hbalance⟩ := hreported
        have hadded := errors_entry entry.name bytes context
        rw [hrun] at hadded
        have hhere := failure_balance hrun hresult
        rw [hpaths, hresults]
        refine ⟨?_, ?_, ?_, ?_⟩
        · rw [List.length_cons, List.length_cons, hlength]
        · rw [hcounted, hfailed, List.countP_cons]
          omega
        · rw [herrors, hadded, reports_cons, List.append_assoc]
        · rw [reports_cons, List.countP_cons, List.countP_cons, hbalance, List.length_append, hhere]
          cases EntryName.namesClass entry.name <;> simp <;> omega

/-- Behind the last entry no error is noted any more. -/
lemma run_closing_of_ok {period : Period} {jar : String} {sha256 : Option String} {tally : Tally}
    {context context' : ExtractContext σ} {summary : WalkSummary}
    (h : (closing period jar sha256 tally).run.run context = (.ok summary, context')) :
    summary.classesFailed = tally.failed ∧
    LogEvent.errors context'.log = LogEvent.errors context.log := by
  simp only [closing, finish, run_get_bind, bind_assoc] at h
  rcases hfinish : FactSink.finish (summarize jar sha256 period tally context.counts) context.sink
    with ⟨error | _, sink'⟩ <;> rw [hfinish] at h <;> cases h
  refine ⟨rfl, ?_⟩
  rw [LogEvent.errors_push]
  exact List.append_nil _

/-- Before the first entry nothing is noted. -/
lemma errors_begun (jar : String) (sink : σ) : LogEvent.errors (begun jar sink).log = [] := by
  rw [begun, start, run_write]
  rcases FactSink.write (jarFact jar) _ with ⟨_ | _, sink'⟩ <;> rfl

/-- **Failed classes are counted, and reported where their path names a class.**  When a walk
succeeds, the errors in its log are the reports of its class entries in their order: one for each
that failed, with its path and the reason, unless the path names no class.  So as many are reported
as are counted as failed exactly if the path of every class entry names a class, and only `.class`
and paths that begin with a bracket may fail to. -/
theorem failed_classes_reported (config : ExtractionConfig) (period : Period) (jar : String)
    (sha256 : Option String)
    (list : List ArchiveEntry) (sink : σ) {summary : WalkSummary} {context : ExtractContext σ}
    (hwalk : start (entries config period jar sha256 list) sink = (.ok summary, context)) :
    (extractions config list (begun jar sink)).length = (classPaths config list).length ∧
    LogEvent.errors context.log =
      reports (classPaths config list) (extractions config list (begun jar sink)) ∧
    summary.classesFailed = (extractions config list (begun jar sink)).countP isFailure ∧
    summary.classesFailed = (LogEvent.errors context.log).length +
      (classPaths config list).countP (fun path => !EntryName.namesClass path) ∧
    ((LogEvent.errors context.log).length = summary.classesFailed ↔
      ∀ path ∈ classPaths config list, EntryName.namesClass path = true) ∧
    ∀ path ∈ classPaths config list, path ≠ ".class" → path.toList.head? ≠ some '[' →
      EntryName.namesClass path = true := by
  rw [start, entries_eq] at hwalk
  obtain ⟨tally, context₁, hthrough, hclosing⟩ := run_bind_of_ok (congrArg Prod.fst hwalk)
  rw [through] at hthrough
  obtain ⟨⟨⟩, context₀, hjar, hlist⟩ := run_bind_of_ok (congrArg Prod.fst hthrough)
  have hbegun : context₀ = begun jar sink := (congrArg Prod.snd hjar).symm
  subst hbegun
  obtain ⟨hfailed, hlog⟩ := run_closing_of_ok (hclosing.symm.trans hwalk)
  obtain ⟨hlength, hcounted, herrors, hbalance⟩ := reported_foldlM_visit (hlist.symm.trans hthrough)
  dsimp only at hcounted herrors
  rw [errors_begun, List.nil_append] at herrors
  rw [Tally.zero, Nat.zero_add] at hcounted
  have htotal : summary.classesFailed = (LogEvent.errors context.log).length +
      (classPaths config list).countP fun path => !EntryName.namesClass path := by
    rw [hfailed, hcounted, hbalance, hlog, herrors]
  refine ⟨hlength, hlog.trans herrors, hfailed.trans hcounted, htotal, ?_, fun path hpath => ?_⟩
  · have hall : (classPaths config list).countP (fun path => !EntryName.namesClass path) = 0 ↔
        ∀ path ∈ classPaths config list, EntryName.namesClass path = true := by
      rw [List.countP_eq_zero]
      simp
    rw [← hall]
    omega
  · obtain ⟨entry, hentry, rfl⟩ := List.mem_map.mp hpath
    have htakes := (List.mem_filter.mp hentry).2
    simp only [ExtractionConfig.takes, ExtractionConfig.isClassEntry, Bool.and_eq_true] at htakes
    exact EntryName.namesClass_of_isSuffixOf htakes.2.1

/-- The class `A`, a part of it under another name, and an empty file whose path looks like the name
of an array and is none. -/
def damagedEntries : List ArchiveEntry :=
  [⟨"A.class", true, true, fun _ => some memberlessClass⟩,
    ⟨"B.class", true, true, fun _ => some (memberlessClass.take 20)⟩,
    ⟨"[A.class", true, true, fun _ => some []⟩]

/-- Two of the three classes fail, and one is reported. -/
theorem damagedEntries_reported : ∃ summary context,
    start (entries .default firstSecond "a.jar" none damagedEntries) (Recorder.new none false) =
      (.ok summary, context) ∧
    summary.classesFailed = 2 ∧
    LogEvent.errors context.log =
      [.extractionAborted "B.class" "malformed class file: unexpected end of class file"] ∧
    summary.classesFailed = (LogEvent.errors context.log).length +
      (classPaths .default damagedEntries).countP (fun path => !EntryName.namesClass path) := by
  obtain ⟨summary, context, hwalk, -⟩ :
      Delivers (entries .default firstSecond "a.jar" none damagedEntries) "a.jar"
      (Recorder.new none false) (damagedEntries.flatMap (entryWrites .default)) :=
    writes_entries firstSecond "a.jar" none (by decide +kernel) (.start (Recorder.new none false))
      (Recorder.acceptsAll #[])
  obtain ⟨-, herrors, hfailed, htotal, -⟩ :=
    failed_classes_reported .default firstSecond "a.jar" none damagedEntries
      (Recorder.new none false) hwalk
  refine ⟨summary, context, hwalk, ?_, ?_, htotal⟩
  · rw [hfailed]
    decide +kernel
  · rw [herrors]
    decide +kernel

/-- An archive with an empty file `.class` in it. -/
def namelessArchive : Bytes :=
  [80, 75, 3, 4, 20, 0, 0, 0, 0, 0, 0, 0, 33, 0, 0, 0, 0, 0, 0, 0, 0, 0, 0, 0, 0, 0, 6, 0, 0, 0] ++
  [46, 99, 108, 97, 115, 115] ++
  [80, 75, 1, 2, 20, 3, 20, 0, 0, 0, 0, 0, 0, 0, 33, 0, 0, 0, 0, 0, 0, 0, 0, 0, 0, 0, 0, 0, 6, 0,
    0, 0, 0, 0, 0, 0, 0, 0, 0, 0, 164, 129, 0, 0, 0, 0] ++
  [46, 99, 108, 97, 115, 115] ++
  [80, 75, 5, 6, 0, 0, 0, 0, 1, 0, 1, 0, 52, 0, 0, 0, 36, 0, 0, 0, 0, 0]

/-- Its one class fails without a report. -/
theorem namelessArchive_failure_unreported :
    ((start (archive .default firstSecond "a.jar" none namelessArchive)
      (Recorder.new none false)).1.map WalkSummary.classesFailed) = .ok 1 ∧
    LogEvent.errors
      (start (archive .default firstSecond "a.jar" none namelessArchive)
        (Recorder.new none false)).2.log = [] := by
  decide +kernel

end Walk

end JarFacts
