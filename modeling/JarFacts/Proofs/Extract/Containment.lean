import JarFacts.Proofs.ClassFile.Notes
import JarFacts.Proofs.Extract.Written
import JarFacts.Proofs.Text.Split

/-!
# Every entity is placed once

A field is placed by its own declaration, a method by its parameters before its entity is written,
and a class at one of two points of its pass.  Still the places that a successful pass has written
match its entities one to one: each entity is the source of one of them, also where several have the
same name.  Members are placed in their class.

The class itself is placed in what its name says, or in what it is declared in.  The package of an
entry is read off its path instead.  Where the path and the class file agree on the name, both ways
lead to the same package, and no mismatch is noted (`classPass_moves_in_package`).
-/

namespace JarFacts

open Account ClassFile

namespace Extract

variable {σ : Type} [FactSink σ]

/-! ## Where a class is placed -/

/-- What a local class is declared in: a method, named by its owner, its own name and the list of
its parameters, or the owner where no method is named. -/
def EnclosedIn (enclosing : EnclosingMethod) (parent : String) : Prop :=
  ∃ owner, Signature.decodeClassName enclosing.owner = .ok owner ∧
    match enclosing.name, enclosing.descriptor with
    | some name, some descriptor => ∃ signature,
        MethodSignature.decode descriptor = .ok signature ∧
          parent = owner ++ "." ++ name ++ signature.parameterList
    | _, _ => parent = owner

lemma enclosedIn_of_enclosingFqn {enclosing : EnclosingMethod} {parent : String}
    (h : enclosingFqn enclosing = .ok parent) : EnclosedIn enclosing parent := by
  obtain ⟨owner, howner, h⟩ := exists_ok_of_bind h
  refine ⟨owner, howner, ?_⟩
  cases hname : enclosing.name with
  | none =>
      rw [hname] at h
      cases h
      rfl
  | some name =>
      cases hdescriptor : enclosing.descriptor with
      | none =>
          rw [hname, hdescriptor] at h
          cases h
          rfl
      | some descriptor =>
          rw [hname, hdescriptor] at h
          obtain ⟨signature, hsignature, h⟩ := exists_ok_of_bind h
          cases h
          exact ⟨signature, hsignature, rfl⟩

/-- The facts that a class has written place each of its entities once: the members in the type, and
the type in the method or class that encloses it, or else in what stands before the last dot of its
name. -/
def Contains (cls : ClassFile) (facts : List Fact) : Prop :=
  ∃ (type : EntityFact) (members : List EntityFact) (parent : String),
    facts.filterMap Fact.entity? = type :: members ∧
    Signature.decodeClassName cls.name = .ok type.fqn ∧
    ((facts.filterMap Fact.place?).map Prod.fst).Perm
      ((facts.filterMap Fact.entity?).map EntityFact.fqn) ∧
    (facts.filterMap Fact.place?).Perm
      ((type.fqn, parent) :: members.map fun member => (member.fqn, type.fqn)) ∧
    match cls.enclosingMethod with
    | some enclosing => EnclosedIn enclosing parent
    | none => Text.CutAtLast '.' type.fqn parent

lemma exists_kind {cls : ClassFile} (h : cls.isDescriptorOnly = false) :
    ∃ kind, cls.kind? = some kind := by
  simp only [ClassFile.kind?, h, Bool.false_eq_true, if_false]
  split
  · exact ⟨_, rfl⟩
  · split <;> exact ⟨_, rfl⟩

lemma contains_of_verdict {location : Location} {cls : ClassFile}
    (htype : cls.isDescriptorOnly = false) (h : (classAccount location cls).verdict = .ok ()) :
      Contains cls (classAccount location cls).facts := by
  obtain ⟨kind, hkind⟩ := exists_kind htype
  obtain ⟨fqn, hname, -⟩ := verdict_reading_eq_ok.mp h
  obtain ⟨parent, hparent⟩ := exists_declaringFqn hname h
  obtain ⟨hentities, hplaces⟩ := collect_classAccount location hname hkind hparent
  rw [collect_eq _ h] at hentities hplaces
  refine ⟨_, _, parent, hentities, hname, ?_, hplaces, ?_⟩
  · rw [hentities]
    refine (hplaces.map Prod.fst).trans (.of_eq ?_)
    simp only [List.map_cons, List.map_map, Function.comp_def]
  · rw [declaringFqn] at hparent
    split <;> rename_i henclosing <;> rw [henclosing] at hparent
    · exact enclosedIn_of_enclosingFqn hparent
    · cases hparent
      exact Text.cutAtLast_beforeLast '.' fqn

/-! ## Where the path of an entry puts a class -/

/-- A class that is no local class is placed in what stands before the last dot of its name, and
nowhere else: the names of its members are longer than its own. -/
lemma eq_beforeLast_of_mem_places {location : Location} {cls : ClassFile} {fqn target : String}
    (hname : Signature.decodeClassName cls.name = .ok fqn) (henclosing : cls.enclosingMethod = none)
    (h : (fqn, target) ∈ (classAccount location cls).collect Fact.place?) : target =
      Text.beforeLast '.' fqn := by
  have hannotations :
      Aside (if cls.kind?.isSome then cls.annotations.flatMap (annotationAccount location fqn fqn)
      else []) :=
    .ite (.flatMap _ fun _ => aside_annotationAccount _ _ _ _) .nil
  simp only [classAccount, hname, reading_ok, membersAccount, henclosing, Option.toList_none,
    List.flatMap_nil, List.nil_append, collect_append, places_typeAccount, hannotations.places,
    (collect_memberAccounts location fqn cls).2] at h
  rcases List.mem_append.mp h with hmember | hplace
  · obtain ⟨member, hmem, heq⟩ := List.mem_map.mp hmember
    obtain ⟨rest, hfqn⟩ := exists_fqn_of_mem_memberEntities hmem
    have hlength := congrArg String.length (hfqn.symm.trans (congrArg Prod.fst heq))
    simp only [String.length_append] at hlength
    have hdot : ".".length = 1 := rfl
    omega
  · rw [placeAccount] at hplace
    split at hplace
    · exact congrArg Prod.snd (List.mem_singleton.mp hplace)
    · cases hplace

/-- The end of a class in the scope of what its name puts it in: no mismatch is noted. -/
lemma classEnd_moves_in_package {frame outer : ScopeFrame} {frames : List ScopeFrame}
    {context : ExtractContext σ} (hscope : context.scope.frames = frame :: outer :: frames)
    (hplace : Text.beforeLast '.' frame.fqn = outer.fqn) :
    Relation.ReflTransGen (Move False) context (classEnd.run.run context).2 := by
  have hpop : pop.run.run context =
      (.ok frame,
        { context with
          scope := ⟨outer :: frames, context.scope.pushes, context.scope.pops + 1⟩ }) := by
    rw [pop, run_bind, run_inScope, ScopeStack.pop, hscope]
    rfl
  refine Moves.bind_at (moves_pop context) fun found closed hrun => ?_
  cases hpop.symm.trans hrun
  split
  · exact .refl
  · refine Moves.bind_at (moves_inScope ScopeStack.currentFqn _) fun enclosing same hcurrent => ?_
    rw [currentFqn, run_inScope] at hcurrent
    cases hcurrent
    rw [if_neg (not_not.mpr hplace)]
    exact moves_relation _ _ _ _

/-- The same of a whole pass over a class. -/
lemma classPass_moves_in_package {cls : ClassFile} {outer : ScopeFrame} {frames : List ScopeFrame}
    {context : ExtractContext σ} (hscope : context.scope.frames = outer :: frames)
    (hplace : ∀ fqn, Signature.decodeClassName cls.name = .ok fqn →
      Text.beforeLast '.' fqn = outer.fqn) :
    Relation.ReflTransGen (Move False) context ((classPass cls).run.run context).2 := by
  rw [classPass_eq]
  refine Moves.bind_at (moves_header cls context) fun _ opened hheader => ?_
  refine Moves.bind_at (moves_classMembers cls opened) fun _ closing hmembers => ?_
  cases hname : Signature.decodeClassName cls.name with
  | error error =>
      rw [header, hname] at hheader
      cases hheader
  | ok fqn =>
      obtain ⟨-, -, hopened⟩ := (tells_header List.nil_suffix cls hname).of_ok hheader
      have hframes : opened.scope.frames =
          ⟨scopeKind cls.kind?, fqn, false⟩ :: context.scope.frames :=
        congrArg ScopeStack.frames hopened
      obtain ⟨-, -, hclosing⟩ := (tells_classMembers List.nil_suffix cls hframes).of_ok hmembers
      have hframes' : closing.scope.frames =
          ⟨scopeKind cls.kind?, fqn, cls.enclosingMethod.isSome⟩ :: outer :: frames := by
        rw [hclosing, ← hscope]
        rfl
      exact classEnd_moves_in_package hframes' (hplace fqn hname)

lemma classFileFacts_moves_in_package {name : EntryName} {cls : ClassFile} (path : String)
    (hname : ∀ fqn, Signature.decodeClassName cls.name = .ok fqn →
      Text.beforeLast '.' fqn = name.package)
    (context : ExtractContext σ) :
    Relation.ReflTransGen (Move False) context
      ((classFileFacts name path cls).run.run context).2 := by
  rw [classFileFacts, run_get_bind]
  refine Moves.bind_at (moves_emit _ context) fun _ written hemit => ?_
  refine Moves.bind_at (moves_push _ _ written) fun _ opened hpush => ?_
  have hopened : opened.scope = written.scope.push name.package (.entity .package) := by
    cases hpush
    rfl
  refine Moves.bind_at (classPass_moves_in_package (congrArg ScopeStack.frames hopened) hname)
    fun _ passed _ => ?_
  exact Moves.get_bind (fun _ => (moves_emit _).bind fun _ => moves_pop.discard) passed

/-- The name that is read off a path that agrees with the name of the class. -/
lemma entryName_of_path {path name : String} {found : EntryName}
    (hpath : (Text.dropEnding? ".class".toList path.toList).getD path.toList = name.toList)
    (hfound : EntryName.parse path = .ok found) :
    Signature.decodeClassName name = .ok found.classFqn ∧
    found.package = Text.beforeLast '.' found.classFqn := by
  rw [EntryName.parse_eq_map, hpath, String.ofList_toList] at hfound
  cases hname : Signature.decodeClassName name with
  | error error =>
      rw [hname] at hfound
      cases hfound
  | ok fqn =>
      rw [hname] at hfound
      cases hfound
      exact ⟨rfl, rfl⟩

/-- The events that are noted for an entry whose class is where its path says: no mismatch is among
them. -/
lemma entry_log_in_package {path : String} {bytes : Bytes} {cls : ClassFile}
    (hclass : ClassFile.parse bytes = .ok cls)
    (hpath : (Text.dropEnding? ".class".toList path.toList).getD path.toList = cls.name.toList)
    (context : ExtractContext σ) :
    ∃ events, ((entry path bytes).run.run context).2.log.toList = context.log.toList ++ events ∧
      ∀ fqn parent enclosing, .parentMismatch fqn parent enclosing ∉ events := by
  cases hname : EntryName.parse path with
  | error error =>
      refine ⟨[], ?_, fun _ _ _ => List.not_mem_nil⟩
      rw [entry, hname, List.append_nil]
      rfl
  | ok name =>
      obtain ⟨hfqn, hpackage⟩ := entryName_of_path hpath hname
      have hplace : ∀ fqn, Signature.decodeClassName cls.name = .ok fqn →
          Text.beforeLast '.' fqn = name.package := by
        intro fqn hdecoded
        cases hfqn.symm.trans hdecoded
        exact hpackage.symm
      obtain ⟨remarks, hlog, hremarks⟩ := log_of_moves (classFileFacts_moves_in_package path hplace
        ⟨context.sink, context.scope, name.location cls, context.counts,
          context.log ++ (ClassFile.parseWithLog bytes).2⟩)
      rw [Array.toList_append, List.append_assoc] at hlog
      have hnoted : ∀ fqn parent enclosing,
          .parentMismatch fqn parent enclosing ∉
            (ClassFile.parseWithLog bytes).2.toList ++ remarks := by
        intro fqn parent enclosing hevent
        rcases List.mem_append.mp hevent with hread | htold
        · obtain ⟨offset, heq⟩ := parseWithLog_events bytes _ (Array.mem_toList_iff.mp hread)
          cases heq
        · exact (hremarks _ htold).elim id id
      rw [entry_run_of_class hname hclass]
      rcases hrun : (classFileFacts name path cls).run.run _ with ⟨error | _, left⟩ <;>
        rw [hrun] at hlog
      · -- the failure is noted behind everything else
        refine ⟨(ClassFile.parseWithLog bytes).2.toList ++ remarks ++
          [.extractionAborted path error.message], ?_, ?_⟩
        · rw [Array.toList_push, hlog, List.append_assoc]
        · intro fqn parent enclosing hevent
          rcases List.mem_append.mp hevent with hold | hlast
          · exact hnoted fqn parent enclosing hold
          · cases List.mem_singleton.mp hlast
      · exact ⟨_, hlog, hnoted⟩

/-- The package comes first in the facts that an entry has written, and the class `fqn` is placed
nowhere but in it. -/
def PlacedInPackage (fqn : String) (facts : List Fact) : Prop :=
  ∀ first rest, facts = first :: rest → ∃ package : EntityFact, first = .entity package ∧
    package.kind = .package ∧
    ∀ target, (fqn, target) ∈ rest.filterMap Fact.place? → target = package.fqn

/-- What is written behind the package places the class nowhere but where its name says. -/
lemma placedInPackage_of_prefix {name : EntryName} {path : String} {cls : ClassFile}
    (hname : Signature.decodeClassName cls.name = .ok name.classFqn)
    (hpackage : name.package = Text.beforeLast '.' name.classFqn)
    (henclosing : cls.enclosingMethod = none)
    {facts : List Fact} (hfacts : facts <+: (classFileAccount name path cls).facts) :
    PlacedInPackage name.classFqn facts := by
  rintro first rest rfl
  rw [classFileAccount, List.append_assoc, List.singleton_append, Account.facts] at hfacts
  obtain ⟨rfl, hrest⟩ := List.cons_prefix_cons.mp hfacts
  refine ⟨.bare .package name.package (name.location cls), rfl, rfl, fun target htarget => ?_⟩
  obtain ⟨fact, hfact, hplace⟩ := List.mem_filterMap.mp htarget
  have htold := mem_of_mem_facts (hrest.subset hfact)
  have hclass :
      (name.classFqn, target) ∈ (classAccount (name.location cls) cls).collect Fact.place? := by
    rcases List.mem_append.mp htold with hmem | hlast
    · exact List.mem_filterMap.mpr ⟨.ok fact, hmem, hplace⟩
    · cases List.mem_singleton.mp hlast
      cases hplace
  rw [eq_beforeLast_of_mem_places hname henclosing hclass]
  exact hpackage.symm

/-- An entry that is told to the end has placed its class in its package. -/
lemma placed_of_verdict {name : EntryName} {path : String} {cls : ClassFile}
    (hname : Signature.decodeClassName cls.name = .ok name.classFqn)
    (hpackage : name.package = Text.beforeLast '.' name.classFqn)
    (henclosing : cls.enclosingMethod = none)
    (htype : cls.isDescriptorOnly = false) (h : (classFileAccount name path cls).verdict = .ok ()) :
    ∃ rest, (classFileAccount name path cls).facts =
        .entity (.bare .package name.package (name.location cls)) :: rest ∧
      (name.classFqn, name.package) ∈ rest.filterMap Fact.place? := by
  obtain ⟨kind, hkind⟩ := exists_kind htype
  have hparent : declaringFqn name.classFqn cls = .ok name.package := by
    rw [declaringFqn, henclosing, hpackage]
  obtain ⟨-, hplaces⟩ := collect_classAccount (name.location cls) hname hkind hparent
  rw [classFileAccount, List.append_assoc, List.singleton_append] at h ⊢
  rw [verdict] at h
  refine ⟨_, rfl, ?_⟩
  rw [← collect_eq _ h, collect_append]
  exact List.mem_append_left _ (hplaces.mem_iff.mpr List.mem_cons_self)

/-- What an entry has written when its class is where its path says and is no local class. -/
lemma entry_facts_in_package {path : String} {bytes : Bytes} {cls : ClassFile}
    (hclass : ClassFile.parse bytes = .ok cls)
    (hpath : (Text.dropEnding? ".class".toList path.toList).getD path.toList = cls.name.toList)
    (henclosing : cls.enclosingMethod = none) (context : ExtractContext (Traced σ)) :
    ∃ facts, ((entry path bytes).run.run context).2.sink.accepted =
      context.sink.accepted ++ facts.map .fact ∧
      (∀ fqn, Signature.decodeClassName cls.name = .ok fqn → PlacedInPackage fqn facts) ∧
      (((entry path bytes).run.run context).1 = .ok () → cls.isDescriptorOnly = false →
        ∃ fqn package rest, Signature.decodeClassName cls.name = .ok fqn ∧
          facts = .entity package :: rest ∧
          (fqn, package.fqn) ∈ rest.filterMap Fact.place?) := by
  obtain ⟨scope, location, log, -, hrun⟩ := entry_run path bytes context
  obtain ⟨facts, hprefix, haccepted, hall⟩ :=
    deliver_traced (entryAccount path bytes) context.sink context.counts
  rw [hrun]
  dsimp only
  refine ⟨facts, haccepted, ?_⟩
  cases hname : EntryName.parse path with
  | error error =>
      rw [entryAccount, hname] at hprefix hall
      refine ⟨fun fqn _ first rest hfacts => ?_, fun hok => ?_⟩
      · cases hfacts ▸ List.eq_nil_of_prefix_nil hprefix
      · rw [entryAccount, hname] at hok
        cases hok
  | ok name =>
      have haccount : entryAccount path bytes = classFileAccount name path cls := by
        rw [entryAccount, hname, hclass]
        rfl
      obtain ⟨hfqn, hpackage⟩ := entryName_of_path hpath hname
      rw [haccount] at hprefix hall
      refine ⟨fun fqn hdecoded => ?_, fun hok htype => ?_⟩
      · cases hfqn.symm.trans hdecoded
        exact placedInPackage_of_prefix hfqn hpackage henclosing hprefix
      · rw [haccount] at hok
        obtain ⟨rfl, hverdict⟩ := hall hok
        obtain ⟨rest, hfacts, hplaced⟩ := placed_of_verdict hfqn hpackage henclosing htype hverdict
        exact ⟨name.classFqn, _, rest, hfqn, hfacts, hplaced⟩

/-- **Every entity is placed once.**  A pass over a class that declares a type, if it succeeds, has
written places that match its entities one to one; members are placed in their class, and the class
where it is declared.  And where the path of an entry agrees with the name of its class, which is no
local one, the class is placed in the package that is written first: whatever comes of the entry, it
is placed nowhere else and no mismatch is noted, and it is placed there if all goes well. -/
theorem containment_complete :
    (∀ (cls : ClassFile) (context : ExtractContext (Traced σ)), cls.isDescriptorOnly = false →
      ((classPass cls).run.run context).1 = .ok () →
      ∃ facts, ((classPass cls).run.run context).2.sink.accepted =
        context.sink.accepted ++ facts.map .fact ∧ Contains cls facts) ∧
    ∀ (path : String) (bytes : Bytes) (cls : ClassFile) (context : ExtractContext (Traced σ)),
      ClassFile.parse bytes = .ok cls →
      (Text.dropEnding? ".class".toList path.toList).getD path.toList = cls.name.toList →
      cls.enclosingMethod = none →
      ∃ facts events,
        ((entry path bytes).run.run context).2.sink.accepted =
          context.sink.accepted ++ facts.map .fact ∧
        ((entry path bytes).run.run context).2.log.toList = context.log.toList ++ events ∧
        (∀ fqn, Signature.decodeClassName cls.name = .ok fqn → PlacedInPackage fqn facts) ∧
        (∀ fqn parent enclosing, .parentMismatch fqn parent enclosing ∉ events) ∧
        (((entry path bytes).run.run context).1 = .ok () → cls.isDescriptorOnly = false →
          ∃ fqn package rest, Signature.decodeClassName cls.name = .ok fqn ∧
            facts = .entity package :: rest ∧
            (fqn, package.fqn) ∈ rest.filterMap Fact.place?) := by
  refine ⟨fun cls context htype hok => ?_, fun path bytes cls context hclass hpath henclosing => ?_⟩
  · obtain ⟨hverdict, hwritten⟩ := classPass_written hok
    exact ⟨_, hwritten, contains_of_verdict htype hverdict⟩
  · obtain ⟨facts, hwritten, hplaced, hdone⟩ :=
      entry_facts_in_package hclass hpath henclosing context
    obtain ⟨events, hlog, hevents⟩ := entry_log_in_package hclass hpath context
    exact ⟨facts, events, hwritten, hlog, hplaced, hevents, hdone⟩

/-- A class with two fields of one name and a method. -/
def twinFieldsClass : ClassFile where
  minorVersion := 0
  majorVersion := 52
  access := 0x0001
  name := "p/A"
  superName := some "java/lang/Object"
  interfaces := []
  signature := none
  sourceFile := none
  enclosingMethod := none
  annotations := []
  unknownAttributes := []
  fields := [⟨0x0012, "n", "I", none, none, [], []⟩, ⟨0x0012, "n", "J", none, none, [], []⟩]
  methods := [⟨0x0001, "f", "(I)V", none, [], [], [], false, none, []⟩]

/-- The fields of one name have a place each, and `derivedClass` is placed in the package of its
path. -/
theorem containment_complete_of_twinFields :
    ((classPass twinFieldsClass).run.run packageContext.traced).1 = .ok () ∧
    (∃ facts, ((classPass twinFieldsClass).run.run packageContext.traced).2.sink.accepted =
      facts.map .fact ∧
      Contains twinFieldsClass facts) ∧
    ((entry "A.class" derivedClass).run.run packageContext.traced).1 = .ok () ∧
    ∃ fqn package rest,
      ((entry "A.class" derivedClass).run.run packageContext.traced).2.sink.accepted =
        (Fact.entity package :: rest).map .fact ∧
      (fqn, package.fqn) ∈ rest.filterMap Fact.place? := by
  obtain ⟨hpass, hentry⟩ := containment_complete (σ := Recorder)
  have hok : ((classPass twinFieldsClass).run.run packageContext.traced).1 = .ok () := by
    decide +kernel
  have hok' : ((entry "A.class" derivedClass).run.run packageContext.traced).1 = .ok () := by
    decide +kernel
  obtain ⟨cls, hclass, hname, henclosing, htype⟩ : ∃ cls, ClassFile.parse derivedClass = .ok cls ∧
      cls.name = "A" ∧ cls.enclosingMethod = none ∧ cls.isDescriptorOnly = false := by
    have hread : ((ClassFile.parse derivedClass).toOption.any fun cls => cls.name = "A" ∧
        cls.enclosingMethod.isNone ∧ cls.isDescriptorOnly = false) = true := by decide +kernel
    cases hclass : ClassFile.parse derivedClass with
    | error error => simp [hclass, Except.toOption] at hread
    | ok cls => exact ⟨cls, rfl, by simpa [hclass, Except.toOption] using hread⟩
  have hpath : (Text.dropEnding? ".class".toList "A.class".toList).getD "A.class".toList =
      cls.name.toList := by
    rw [hname]
    decide
  obtain ⟨facts, -, hwritten, -, -, -, hplaced⟩ :=
    hentry "A.class" derivedClass cls packageContext.traced hclass hpath henclosing
  obtain ⟨fqn, package, rest, -, rfl, hmem⟩ := hplaced hok' htype
  exact ⟨hok, hpass twinFieldsClass packageContext.traced (by decide) hok, hok', fqn, package,
    rest, hwritten, hmem⟩

end Extract

end JarFacts
