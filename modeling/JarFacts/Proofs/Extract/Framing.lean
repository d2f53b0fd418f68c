import JarFacts.Proofs.Extract.Stamped
import JarFacts.Proofs.Extract.Written
import JarFacts.Proofs.Text.Split

/-!
# The frame of an entry's facts

What an entry of an archive writes has a package in front and, if all goes well, its file behind; in
between is what the class tells, however far it gets.  Both are written once: a class declares no
package and tells of no file.  The location is set in two steps, the names of the path first and the
source file once the class has been read, but no fact is written in between, and all carry the same
(`entry_framed`).
-/

namespace JarFacts

namespace Fact

/-- The fact is the entity of a package. -/
def DeclaresPackage : Fact → Prop
  | .entity fact => fact.kind = .package
  | _ => False

/-- The fact tells of a class file. -/
def TellsClassFile : Fact → Prop
  | .file fact => fact.kind = .classFile
  | _ => False

/-- The fact is located there, a parameter both where it is declared and where it is used. -/
def LocatedAt (location : Location) : Fact → Prop
  | .entity fact => fact.location = location
  | .relation fact => fact.location = location
  | .file fact => fact.location = location
  | .param fact => fact.declaredAt = location ∧ fact.usedAt = location

variable {location : Location} {fact : Fact}

lemma Stamped.locatedAt (h : fact.Stamped location) : fact.LocatedAt location := by
  cases fact with
  | entity fact => exact h.2
  | relation fact => exact h
  | file fact => exact h.elim
  | param fact => exact h

lemma Stamped.not_declaresPackage (h : fact.Stamped location) : ¬fact.DeclaresPackage := by
  cases fact with
  | entity fact => exact h.1
  | _ => exact id

lemma Stamped.not_tellsClassFile (h : fact.Stamped location) : ¬fact.TellsClassFile := by
  cases fact with
  | file fact => exact h.elim
  | _ => exact id

end Fact

open Account

/-- The path of an entry names the class: it is the internal name of the class, with the ending that
class files have or, if it does not end so, without it. -/
def NamesClass (path name : String) : Prop :=
  path = name ++ ".class" ∨ path = name ∧ ∀ front, path ≠ front ++ ".class"

/-- The text that is decoded when a path is read is the internal name of the class. -/
lemma namesClass_stem (path : String) :
    NamesClass path
      (String.ofList ((Text.dropEnding? ".class".toList path.toList).getD path.toList)) := by
  rw [Text.dropEnding?]
  split_ifs with hending
  · obtain ⟨front, hfront⟩ := List.isSuffixOf_iff_suffix.mp hending
    refine .inl (String.toList_inj.mp ?_)
    rw [← hfront, List.length_append, Nat.add_sub_cancel, List.take_left, Option.getD_some,
      String.toList_append]
    exact congrArg (· ++ _) String.toList_ofList.symm
  · refine .inr ⟨by rw [Option.getD_none, String.ofList_toList], fun front hfront => hending ?_⟩
    rw [hfront, String.toList_append]
    exact List.isSuffixOf_iff_suffix.mpr (List.suffix_append _ _)

lemma NamesClass.eq_of_append {name found : String} (h : NamesClass (name ++ ".class") found) :
    found = name := by
  obtain hending | ⟨-, hnone⟩ := h
  · have hlists := congrArg String.toList hending
    rw [String.toList_append, String.toList_append] at hlists
    exact (String.toList_inj.mp (List.append_cancel_right hlists)).symm
  · exact absurd rfl (hnone name)

/-- What is written for a class file that could be read, by how it ends: the package of the entry
stands in front and no other is written, the file of the entry stands at the end if and only if all
went well, and everything is located in the entry. -/
structure Framed (package fqn path : String) (cls : ClassFile) (result : Except ExtractError Unit)
    (facts : List Fact) : Prop where
  front : ∃ declared rest, facts = .entity declared :: rest ∧ declared.kind = .package ∧
    declared.fqn = package ∧ ∀ fact ∈ rest, ¬fact.DeclaresPackage
  file : result = .ok () → ∃ front file, facts = front ++ [.file file] ∧ file.kind = .classFile ∧
    file.path = some path ∧ ∀ fact ∈ front, ¬fact.TellsClassFile
  noFile : result ≠ .ok () → ∀ fact ∈ facts, ¬fact.TellsClassFile
  located : ∀ fact ∈ facts, fact.LocatedAt ⟨package, cls.sourceFile, none, some fqn⟩
  read : ∀ error, result ≠ .error (.classFile error)

/-- The account of a class file is framed, whether it is told to the end or breaks off in the
class. -/
lemma framed_classFileAccount (name : EntryName) (path : String) (cls : ClassFile) :
    Framed name.package name.classFqn path cls
      ((classFileAccount name path cls).verdict.mapError Refusal.error)
      (classFileAccount name path cls).facts := by
  have hevery := stamped_classAccount (name.location cls) cls
  have hstamped : ∀ fact ∈ (classAccount (name.location cls) cls).facts,
      fact.Stamped (name.location cls) :=
    fun _ hfact => hevery.of_mem_facts hfact
  rw [classFileAccount, List.append_assoc, List.singleton_append, facts, verdict,
    facts_append, verdict_append]
  cases hverdict : (classAccount (name.location cls) cls).verdict with
  | error refusal =>
      refine ⟨⟨_, _, rfl, rfl, rfl, fun fact hfact => (hstamped fact hfact).not_declaresPackage⟩,
        fun hok => ?_, fun _ => ?_, ?_, fun error hresult => ?_⟩
      · cases hok
      · exact List.forall_mem_cons.mpr
          ⟨id, fun fact hfact => (hstamped fact hfact).not_tellsClassFile⟩
      · exact List.forall_mem_cons.mpr ⟨rfl, fun fact hfact => (hstamped fact hfact).locatedAt⟩
      · cases refusal with
        | classFile unread => exact hevery.verdict_ne_classFile unread hverdict
        | signature unread => cases hresult
  | ok _ =>
      refine ⟨⟨_, _, rfl, rfl, rfl, ?_⟩, fun _ => ?_, fun hne => absurd rfl hne, ?_,
        fun error herror => ?_⟩
      · exact List.forall_mem_append.mpr
          ⟨fun fact hfact => (hstamped fact hfact).not_declaresPackage,
          List.forall_mem_singleton.mpr id⟩
      · refine ⟨_ :: (classAccount (name.location cls) cls).facts, _, rfl, rfl, rfl, ?_⟩
        exact List.forall_mem_cons.mpr
          ⟨id, fun fact hfact => (hstamped fact hfact).not_tellsClassFile⟩
      · refine List.forall_mem_cons.mpr
          ⟨rfl, List.forall_mem_append.mpr ⟨?_, List.forall_mem_singleton.mpr rfl⟩⟩
        exact fun fact hfact => (hstamped fact hfact).locatedAt
      · cases herror

variable {σ : Type} [FactSink σ]

/-- A sink that takes everything is given the facts of an account and nothing else. -/
lemma Account.deliver_traced_of_acceptsAll (account : Account) {sink : σ}
    (hsink : FactSink.AcceptsAll sink) (counts : FactCounts) :
    (account.deliver (Traced.new sink) counts).1 = account.verdict.mapError Refusal.error ∧
      (account.deliver (Traced.new sink) counts).2.1.attempts = account.facts.map .fact ∧
      (account.deliver (Traced.new sink) counts).2.2 =
        (account.facts.map SinkWrite.fact).foldl FactCounts.countWrite counts := by
  obtain ⟨hok, hattempts⟩ :=
    FactSink.offer_of_acceptsAll (account.facts.map .fact) (Traced.new sink) hsink counts
  rw [Account.deliver_eq_offer]
  rcases hoffer : FactSink.offer (account.facts.map .fact) (Traced.new sink) counts with
    ⟨_ | _, sink', counts'⟩ <;>
    rw [hoffer] at hok hattempts
  · cases hok
  · exact ⟨rfl, hattempts, FactSink.counts_of_offer hoffer⟩

namespace Extract

/-- An entry gives a sink that takes everything the facts of its account, which are all counted, and
ends as the account does. -/
lemma entry_run_of_acceptsAll (path : String) (bytes : Bytes) {context : ExtractContext σ}
    (hsink : FactSink.AcceptsAll context.sink) :
    ((entry path bytes).run.run context.traced).1 =
      (entryAccount path bytes).verdict.mapError Refusal.error ∧
      ((entry path bytes).run.run context.traced).2.sink.attempts =
        (entryAccount path bytes).facts.map .fact ∧
      ((entry path bytes).run.run context.traced).2.counts =
        ((entryAccount path bytes).facts.map .fact).foldl FactCounts.countWrite context.counts := by
  obtain ⟨scope, location, log, -, hrun⟩ := entry_run path bytes context.traced
  rw [hrun]
  generalize entryAccount path bytes = account
  exact account.deliver_traced_of_acceptsAll hsink context.counts

/-- **The facts of an entry are framed.**  An entry whose path names no class, or whose bytes are no
class file, writes nothing and counts nothing.  Any other writes its package first, which is what
stands before the last dot of the name that its path decodes to, and no package after that; it
writes the file of its class if and only if it succeeds, and then once, at the end and under its own
path; and everything that it writes, however far it gets, is located in the package of its path, in
the source file of its class, at no line, and in the class its path names.  So a class file that
could not be read is the reason for a failure only where nothing was written. -/
theorem entry_framed (path : String) (bytes : Bytes) (context : ExtractContext σ)
    (hsink : FactSink.AcceptsAll context.sink) :
    ∃ name facts, NamesClass path name ∧
      ((entry path bytes).run.run context.traced).2.sink.attempts = facts.map .fact ∧
      ((∃ error, Signature.decodeClassName name = .error error) ∨
          (∃ error, ClassFile.parse bytes = .error error) →
        facts = [] ∧ ((entry path bytes).run.run context.traced).2.counts = context.counts) ∧
      (∀ fqn package cls, Signature.decodeClassName name = .ok fqn →
        Text.CutAtLast '.' fqn package → ClassFile.parse bytes = .ok cls →
          Framed package fqn path cls ((entry path bytes).run.run context.traced).1 facts) ∧
      ∀ error, ((entry path bytes).run.run context.traced).1 = .error (.classFile error) →
        facts = [] := by
  obtain ⟨hresult, hwrites, hcounts⟩ := entry_run_of_acceptsAll path bytes hsink
  refine ⟨_, _, namesClass_stem path, hwrites, ?_⟩
  rw [hresult, hcounts]
  rw [entryAccount, EntryName.parse_eq_map]
  generalize Signature.decodeClassName
    (String.ofList ((Text.dropEnding? ".class".toList path.toList).getD path.toList)) = decoded
  cases decoded with
  | error unread =>
      refine ⟨fun _ => ⟨rfl, rfl⟩, fun _ _ _ hfqn => ?_, fun _ _ => rfl⟩
      cases hfqn
  | ok fqn =>
      cases ClassFile.parse bytes with
      | error unread =>
          refine ⟨fun _ => ⟨rfl, rfl⟩, fun _ _ _ _ _ hclass => ?_, fun _ _ => rfl⟩
          cases hclass
      | ok cls =>
          have hframed := framed_classFileAccount
            ⟨Text.beforeLast '.' fqn, Text.afterLast '.' fqn, fqn⟩ path cls
          refine ⟨fun hunread => ?_, fun fqn' package cls' hfqn hpackage hclass => ?_,
            fun error herror => absurd herror (hframed.read error)⟩
          · obtain ⟨_, hunread⟩ | ⟨_, hunread⟩ := hunread <;> cases hunread
          · cases hfqn
            cases hclass
            rw [hpackage.eq_beforeLast]
            exact hframed

/-- The class `A` with the name of its source file and a superclass that cannot be named: its name
is a lone bracket. -/
def unnamedSuperclass : Bytes :=
  [0xCA, 0xFE, 0xBA, 0xBE, 0, 0, 0, 52, 0, 6, 1, 0, 1, 65, 7, 0, 1, 1, 0, 1, 91, 7, 0, 3, 1, 0, 10,
    83, 111, 117, 114, 99, 101, 70, 105, 108, 101, 0, 33, 0, 2, 0, 4, 0, 0, 0, 0, 0, 0, 0, 1, 0, 5,
    0, 0, 0, 2, 0, 1]

/-- A new extraction to a recorder without a limit. -/
def freshContext : ExtractContext Recorder :=
  .start (.new none false)

lemma exists_parse_of_sourceFile {bytes : Bytes} {file : Option String}
    (h : (ClassFile.parse bytes).toOption.map ClassFile.sourceFile = some file) :
    ∃ cls, ClassFile.parse bytes = .ok cls ∧ cls.sourceFile = file := by
  cases hclass : ClassFile.parse bytes with
  | error error => simp [hclass, Except.toOption] at h
  | ok cls => exact ⟨cls, rfl, by simpa [hclass, Except.toOption] using h⟩

/-- A class that is worked through has its file at the end; one that breaks off at its superclass
has none, and what it has written is located all the same; and one that is cut off after twenty
bytes has written nothing. -/
theorem derivedClass_framed :
    FactSink.AcceptsAll freshContext.sink ∧
    (∃ cls facts,
      ((entry "q/A.class" derivedClass).run.run freshContext.traced).2.sink.attempts =
        facts.map .fact ∧
      Framed "q" "q.A" "q/A.class" cls (.ok ()) facts) ∧
    (∃ cls facts,
      ((entry "q/A.class" unnamedSuperclass).run.run freshContext.traced).2.sink.attempts =
        facts.map .fact ∧
      Framed "q" "q.A" "q/A.class" cls (.error (.signature (.truncated "["))) facts ∧
      cls.sourceFile = some "A") ∧
    ((entry "q/A.class"
      (derivedClass.take 20)).run.run freshContext.traced).2.sink.attempts = [] := by
  have hsink : FactSink.AcceptsAll freshContext.sink := Recorder.acceptsAll #[]
  have hpath : "q/A.class" = "q/A" ++ ".class" := by decide
  have hfqn : Signature.decodeClassName "q/A" = .ok "q.A" := by decide +kernel
  have hpackage : Text.CutAtLast '.' "q.A" "q" := .inl ⟨['A'], by decide, by decide⟩
  refine ⟨hsink, ?_, ?_, ?_⟩
  · obtain ⟨name, facts, hname, hwrites, -, hframed, -⟩ :=
      entry_framed "q/A.class" derivedClass freshContext hsink
    obtain rfl : name = "q/A" := NamesClass.eq_of_append (hpath ▸ hname)
    have hresult : ((entry "q/A.class" derivedClass).run.run freshContext.traced).1 = .ok () := by
      decide +kernel
    have hfile : (ClassFile.parse derivedClass).toOption.map ClassFile.sourceFile = some none := by
      decide +kernel
    obtain ⟨cls, hclass, -⟩ := exists_parse_of_sourceFile hfile
    have hhere := hframed "q.A" "q" cls hfqn hpackage hclass
    rw [hresult] at hhere
    exact ⟨cls, facts, hwrites, hhere⟩
  · obtain ⟨name, facts, hname, hwrites, -, hframed, -⟩ :=
      entry_framed "q/A.class" unnamedSuperclass freshContext hsink
    obtain rfl : name = "q/A" := NamesClass.eq_of_append (hpath ▸ hname)
    have hresult : ((entry "q/A.class" unnamedSuperclass).run.run freshContext.traced).1 =
        .error (.signature (.truncated "[")) := by decide +kernel
    have hsource : (ClassFile.parse unnamedSuperclass).toOption.map ClassFile.sourceFile =
        some (some "A") := by decide +kernel
    obtain ⟨cls, hclass, hfile⟩ := exists_parse_of_sourceFile hsource
    have hhere := hframed "q.A" "q" cls hfqn hpackage hclass
    rw [hresult] at hhere
    exact ⟨cls, facts, hwrites, hhere, hfile⟩
  · obtain ⟨name, facts, -, hwrites, hnothing, -⟩ :=
      entry_framed "q/A.class" (derivedClass.take 20) freshContext hsink
    have hcut : ∃ error, ClassFile.parse (derivedClass.take 20) = .error error := by
      have hnone : (ClassFile.parse (derivedClass.take 20)).toOption.isNone = true := by
        decide +kernel
      cases hclass : ClassFile.parse (derivedClass.take 20) with
      | error error => exact ⟨error, rfl⟩
      | ok cls => simp [hclass, Except.toOption] at hnone
    rw [hwrites, (hnothing (.inr hcut)).1, List.map_nil]

end Extract

end JarFacts
