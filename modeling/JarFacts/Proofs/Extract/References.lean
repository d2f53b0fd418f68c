import JarFacts.Proofs.Extract.Overloads
import JarFacts.Proofs.Signature.Canonical

/-!
# References to methods

A method is named in three places: where it is declared, where it is called and where a local class
is declared in it. The declaration reads two signatures and takes its name from the generic one; the
references know the descriptor alone. What joins them is the raw parameter list, which the
declaration keeps beside its name (`declared_and_referenced_names_join`).

That a reference is to one method and no other is a matter of the text of a parameter list.  It
determines the types of a descriptor, and those of a generic signature up to the structure of inner
classes (`parameterList_eq_iff_flatten_eq`).
-/

namespace JarFacts

open Account ClassFile Signature

namespace Extract

variable {σ α : Type}

/-- The facts that the sink takes while the step runs. -/
def taken (step : Extract (Traced σ) α) (context : ExtractContext (Traced σ)) : List Fact :=
  ((step.run.run context).2.sink.accepted.drop context.sink.accepted.length).filterMap
    SinkWrite.fact?

lemma taken_eq {step : Extract (Traced σ) α} {context : ExtractContext (Traced σ)}
    {facts : List Fact}
    (h : (step.run.run context).2.sink.accepted = context.sink.accepted ++ facts.map .fact) :
    taken step context = facts := by
  have hfact : SinkWrite.fact? ∘ SinkWrite.fact = some := rfl
  rw [taken, h, List.drop_left, List.filterMap_map, hfact, List.filterMap_some]

variable [FactSink σ]

/-- A step has its sink take the front part of the facts it tells, and all of them if it
succeeds. -/
lemma Tells.taken_front {step : Extract (Traced σ) α} {account : Account} {value : α}
    {floor : List ScopeFrame} {scope' : ScopeStack} {context : ExtractContext (Traced σ)}
    (h : Tells context.location floor context.scope step account value scope') :
    taken step context <+: account.facts ∧
      (∀ found, (step.run.run context).1 = .ok found →
        taken step context = account.facts ∧ account.verdict = .ok ()) := by
  obtain ⟨facts, hfront, haccepted, hall⟩ := deliver_traced account context.sink context.counts
  have hrun := h context.sink context.counts context.log
  rcases hdeliver : account.deliver context.sink context.counts with ⟨error | _, sink', counts'⟩ <;>
    rw [hdeliver] at hrun haccepted hall
  · obtain ⟨log', left, -, -, heq⟩ := hrun
    have htaken : taken step context = facts := taken_eq (by rw [heq]; exact haccepted)
    refine ⟨htaken ▸ hfront, fun found hok => ?_⟩
    rw [heq] at hok
    cases hok
  · obtain ⟨log', -, heq⟩ := hrun
    have htaken : taken step context = facts := taken_eq (by rw [heq]; exact haccepted)
    obtain ⟨rfl, hverdict⟩ := hall rfl
    exact ⟨htaken ▸ hfront, fun _ _ => ⟨htaken, hverdict⟩⟩

/-! ## Calls -/

lemma taken_instruction_of_invoke {context : ExtractContext (Traced σ)} {frame : ScopeFrame}
    {frames : List ScopeFrame}
    (hscope : context.scope.frames = frame :: frames) {code : Instruction} {ref : MemberRef}
    (hclass : code.opcodeClass = .invoke) (hoperand : code.operand = .member ref) :
    taken (instruction code) context <+: (callAccount context.location frame.fqn ref).facts ∧
      (((instruction code).run.run context).1 = .ok () →
        taken (instruction code) context = (callAccount context.location frame.fqn ref).facts) := by
  have haccount : instructionAccount context.location frame.fqn code =
      callAccount context.location frame.fqn ref := by
    rw [instructionAccount, hclass, hoperand]
  have htells : Tells (σ := Traced σ) context.location [] context.scope (instruction code) _
      ⟨⟩ context.scope :=
    tells_instruction List.nil_suffix hscope code
  rw [haccount] at htells
  obtain ⟨hfront, hall⟩ := htells.taken_front
  exact ⟨hfront, fun hok => (hall ⟨⟩ hok).1⟩

/-- A call is one relation, to the method by its owner, its name and its parameters, once these can
be read. -/
lemma facts_callAccount (location : Location) (fqn : String) {ref : MemberRef} {owner : String}
    {signature : MethodSignature} (howner : decodeClassName ref.owner = .ok owner)
    (hsignature : MethodSignature.decode ref.descriptor = .ok signature) :
    (callAccount location fqn ref).facts =
      [.relation ⟨.calls, fqn, signature.referenceFqn owner ref.name, location⟩] := by
  unfold callAccount
  rw [howner, reading_ok, hsignature, reading_ok]
  rfl

/-- Every call that is written goes to a method of the owner by its name and its parameters. -/
lemma exists_of_mem_taken_invoke {context : ExtractContext (Traced σ)}
    (hframes : context.scope.frames ≠ [])
    {code : Instruction} {ref : MemberRef} (hclass : code.opcodeClass = .invoke)
    (hoperand : code.operand = .member ref) {signature : MethodSignature}
    (hsignature : MethodSignature.decode ref.descriptor = .ok signature) {fact : Fact}
    (hfact : fact ∈ taken (instruction code) context) :
    ∃ owner call, decodeClassName ref.owner = .ok owner ∧ fact = .relation call ∧
      call.kind = .calls ∧
      call.target = signature.referenceFqn owner ref.name := by
  obtain ⟨frame, frames, hscope⟩ := List.exists_cons_of_ne_nil hframes
  have hmem := (taken_instruction_of_invoke hscope hclass hoperand).1.mem hfact
  cases howner : decodeClassName ref.owner with
  | error error =>
      rw [callAccount, howner] at hmem
      cases hmem
  | ok owner =>
      rw [facts_callAccount _ _ howner hsignature] at hmem
      exact ⟨owner, _, rfl, List.mem_singleton.mp hmem, rfl, rfl⟩

/-! ## Declarations -/

/-- The entity names the method of the class `owner`: by the generic parameter list if there is one,
else by the raw one.  There is a generic one where the method has a signature of its own whose
parameters are another text. -/
structure NamesMethod (owner : String) (method : MethodInfo) (raw : String) (entity : EntityFact) :
    Prop where
  raw_eq : (MethodSignature.decode method.descriptor).map MethodSignature.parameterList = .ok raw
  rawSignature_eq : entity.rawSignature = some raw
  genericSignature_eq_some_iff : ∀ generic, entity.genericSignature = some generic ↔
    ∃ text, method.signature = some text ∧
      (MethodSignature.decode text).map MethodSignature.parameterList = .ok generic ∧ generic ≠ raw
  fqn_eq : entity.fqn = owner ++ "." ++ method.name ++ entity.genericSignature.getD raw

/-- A method without a signature of its own is named by its descriptor. -/
lemma namesMethod_of_none (location : Location) (holder : Option EntityKind) (owner : String)
    {method : MethodInfo} {raw : MethodSignature} (hnone : method.signature = none)
    (hraw : MethodSignature.decode method.descriptor = .ok raw) :
    NamesMethod owner method raw.parameterList
      (methodEntity location holder owner method raw raw) where
  raw_eq := by rw [hraw]; rfl
  rawSignature_eq := rfl
  genericSignature_eq_some_iff generic := by simp [methodEntity, hnone]
  fqn_eq := by simp [methodEntity, hnone]

/-- A method with a signature of its own is named by that, which is told where it is another
text. -/
lemma namesMethod_of_some (location : Location) (holder : Option EntityKind) (owner : String)
    {method : MethodInfo}
    {text : String} {raw signature : MethodSignature} (htext : method.signature = some text)
    (hraw : MethodSignature.decode method.descriptor = .ok raw)
    (hsignature : MethodSignature.decode text = .ok signature) :
    NamesMethod owner method raw.parameterList
      (methodEntity location holder owner method raw signature) := by
  have hgeneric : (methodEntity location holder owner method raw signature).genericSignature =
      if signature.parameterList ≠ raw.parameterList then some signature.parameterList
      else none := by
    simp [methodEntity, htext]
  refine ⟨by rw [hraw]; rfl, rfl, fun generic => ?_, ?_⟩
  · rw [hgeneric, Option.ite_none_right_eq_some]
    constructor
    · rintro ⟨hdiffers, heq⟩
      cases heq
      exact ⟨text, htext, by rw [hsignature]; rfl, hdiffers⟩
    · rintro ⟨text', htext', hdecode, hdiffers⟩
      cases htext.symm.trans htext'
      rw [hsignature] at hdecode
      cases hdecode
      exact ⟨hdiffers, rfl⟩
  · rw [hgeneric]
    by_cases hsame : signature.parameterList = raw.parameterList
    · simp [methodEntity, hsame]
    · simp [methodEntity, hsame]

lemma namesMethod_of_methodEntity? {location : Location} {holder : Option EntityKind}
    {owner : String} {method : MethodInfo} {entity : EntityFact}
    (h : methodEntity? location holder owner method = some entity) :
    ∃ signature, MethodSignature.decode method.descriptor = .ok signature ∧
      NamesMethod owner method signature.parameterList entity := by
  unfold methodEntity? at h
  split at h
  · cases h
  · split at h
    next raw signature hraw hsignature =>
      cases h
      refine ⟨raw, hraw, ?_⟩
      cases htext : method.signature with
      | none =>
          rw [htext, Option.getD_none] at hsignature
          cases hraw.symm.trans hsignature
          exact namesMethod_of_none location holder owner htext hraw
      | some text =>
          rw [htext, Option.getD_some] at hsignature
          exact namesMethod_of_some location holder owner htext hraw hsignature
    next => cases h

/-- A method whose extraction succeeds has one entity written. -/
lemma entities_taken_method {context : ExtractContext (Traced σ)} {holder : Option EntityKind}
    {owner : String} {marked : Bool} {frames : List ScopeFrame}
    (hscope : context.scope.frames = ⟨scopeKind holder, owner, marked⟩ :: frames)
    {info : MethodInfo}
    (hbridge : info.isBridge = false) (hok : ((method info).run.run context).1 = .ok ()) :
    ∃ entity, methodEntity? context.location holder owner info = some entity ∧
      (taken (method info) context).filterMap Fact.entity? = [entity] := by
  have htells : Tells (σ := Traced σ) context.location [] context.scope (method info) _ ⟨⟩ _ :=
    tells_method List.nil_suffix hscope info
  obtain ⟨htaken, hverdict⟩ := htells.taken_front.2 ⟨⟩ hok
  obtain ⟨entity, hentity⟩ := exists_methodEntity hbridge hverdict
  refine ⟨entity, hentity, ?_⟩
  rw [htaken, ← collect_eq _ hverdict, (collect_methodAccount _ _ _ _).1, hentity]
  rfl

/-- A pass that succeeds has an entity written for each of its methods that is no bridge. -/
lemma exists_entity_taken_classPass {cls : ClassFile} {context : ExtractContext (Traced σ)}
    (hok : ((classPass cls).run.run context).1 = .ok ()) {fqn : String}
    (hname : decodeClassName cls.name = .ok fqn)
    {info : MethodInfo} (hinfo : info ∈ cls.methods) (hbridge : info.isBridge = false) :
    ∃ entity ∈ (taken (classPass cls) context).filterMap Fact.entity?,
      methodEntity? context.location cls.kind? fqn info = some entity := by
  obtain ⟨hverdict, hwritten⟩ := classPass_written hok
  have hmethods : info ∈ (methodsTold context.location fqn cls).map Prod.fst := by
    rw [map_fst_methodsTold hname hverdict]
    exact List.mem_filter.mpr ⟨hinfo, by rw [hbridge]; rfl⟩
  obtain ⟨⟨found, entity⟩, htold, rfl⟩ := List.mem_map.mp hmethods
  refine ⟨entity, ?_, ?_⟩
  · rw [taken_eq hwritten, ← collect_eq _ hverdict]
    exact (suffix_entities_classAccount hname).mem (List.mem_map.mpr ⟨_, htold, rfl⟩)
  · obtain ⟨other, -, heq⟩ := List.mem_filterMap.mp htold
    obtain ⟨_, hentity, hpair⟩ := Option.map_eq_some_iff.mp heq
    cases hpair
    exact hentity

/-! ## Local classes -/

/-- What the entity of this name is placed in. -/
def placesOf (source : String) (places : List (String × String)) : List String :=
  places.filterMap fun place => if place.1 = source then some place.2 else none

lemma placesOf_cons_self (source target : String) (places : List (String × String)) :
    placesOf source ((source, target) :: places) = target :: placesOf source places := by
  simp [placesOf]

/-- Among the places of a class there is one for the class itself: the names of its members are
longer than its own. -/
lemma placesOf_classAccount (location : Location) {cls : ClassFile} {fqn parent : String}
    {kind : EntityKind} (hname : decodeClassName cls.name = .ok fqn) (hkind : cls.kind? = some kind)
    (hparent : declaringFqn fqn cls = .ok parent) :
    placesOf fqn ((classAccount location cls).collect Fact.place?) = [parent] := by
  have hplaces := (collect_classAccount location hname hkind hparent).2
  have hmembers :
      placesOf fqn
        ((memberEntities location fqn cls).map fun entity => (entity.fqn, fqn)) = [] := by
    refine List.filterMap_eq_nil_iff.mpr fun place hplace => ?_
    obtain ⟨member, hmember, rfl⟩ := List.mem_map.mp hplace
    obtain ⟨rest, hfqn⟩ := exists_fqn_of_mem_memberEntities hmember
    refine if_neg fun heq => ?_
    have hlength := congrArg String.length (hfqn.symm.trans heq)
    have hdot : ".".length = 1 := rfl
    simp only [String.length_append] at hlength
    omega
  have hperm : (placesOf fqn ((classAccount location cls).collect Fact.place?)).Perm
      (placesOf fqn ((fqn, parent) :: (memberEntities location fqn cls).map fun entity =>
        (entity.fqn, fqn))) :=
    hplaces.filterMap _
  rw [placesOf_cons_self, hmembers] at hperm
  exact List.perm_singleton.mp hperm

/-- A pass places the class itself where it is declared, and once if it succeeds. -/
lemma placesOf_taken_classPass {cls : ClassFile} {context : ExtractContext (Traced σ)}
    (hframes : context.scope.frames ≠ []) {fqn parent : String} {kind : EntityKind}
    (hname : decodeClassName cls.name = .ok fqn) (hkind : cls.kind? = some kind)
    (hparent : declaringFqn fqn cls = .ok parent) :
    (∀ target ∈ placesOf fqn ((taken (classPass cls) context).filterMap Fact.place?),
      target = parent) ∧
      (((classPass cls).run.run context).1 = .ok () →
        placesOf fqn ((taken (classPass cls) context).filterMap Fact.place?) = [parent]) := by
  have hplaces := placesOf_classAccount context.location hname hkind hparent
  have htells : Tells (σ := Traced σ) context.location context.scope.frames context.scope
      (classPass cls) _ ⟨⟩ _ :=
    tells_classPass cls hframes
  obtain ⟨hfront, hall⟩ := htells.taken_front
  refine ⟨fun target htarget => ?_, fun hok => ?_⟩
  · obtain ⟨place, hplace, hpick⟩ := List.mem_filterMap.mp htarget
    obtain ⟨fact, hfact, hpicked⟩ := List.mem_filterMap.mp hplace
    have htold : place ∈ (classAccount context.location cls).collect Fact.place? :=
      List.mem_filterMap.mpr ⟨.ok fact, mem_of_mem_facts (hfront.mem hfact), hpicked⟩
    have hmem : target ∈ placesOf fqn ((classAccount context.location cls).collect Fact.place?) :=
      List.mem_filterMap.mpr ⟨place, htold, hpick⟩
    rw [hplaces] at hmem
    exact List.mem_singleton.mp hmem
  · obtain ⟨htaken, hverdict⟩ := hall ⟨⟩ hok
    rw [htaken, ← collect_eq _ hverdict, hplaces]

/-! ## Names join up -/

/-- **A method is referred to by the name it is declared with, up to its generic parameters.**  The
entity of a method carries the raw parameter list, and owner, name and raw parameter list are what
every call of the method is made to and what every class that is declared in it is placed in. -/
theorem declared_and_referenced_names_join (cls : ClassFile) (fqn : String)
    (hname : decodeClassName cls.name = .ok fqn)
    (info : MethodInfo) (hbridge : info.isBridge = false) (context : ExtractContext (Traced σ))
    (marked : Bool) (frames : List ScopeFrame)
    (hscope : context.scope.frames = ⟨scopeKind cls.kind?, fqn, marked⟩ :: frames)
    (hok : ((method info).run.run context).1 = .ok ()) :
    ∃ raw entity,
      (taken (method info) context).filterMap Fact.entity? = [entity] ∧
      NamesMethod fqn info raw entity ∧
      (∀ pass : ExtractContext (Traced σ), ((classPass cls).run.run pass).1 = .ok () →
        info ∈ cls.methods →
        ∃ entity ∈ (taken (classPass cls) pass).filterMap Fact.entity?,
          NamesMethod fqn info raw entity) ∧
      (∀ (τ : Type) [FactSink τ] (caller : ExtractContext (Traced τ)) (frame : ScopeFrame)
          (outer : List ScopeFrame) (code : Instruction),
        caller.scope.frames = frame :: outer → code.opcodeClass = .invoke →
        code.operand = .member ⟨cls.name, info.name, info.descriptor⟩ →
        (∀ fact ∈ taken (instruction code) caller,
          fact = .relation ⟨.calls, frame.fqn, fqn ++ "." ++ info.name ++ raw, caller.location⟩) ∧
        (((instruction code).run.run caller).1 = .ok () → taken (instruction code) caller =
          [.relation ⟨.calls, frame.fqn, fqn ++ "." ++ info.name ++ raw, caller.location⟩])) ∧
      ∀ (τ : Type) [FactSink τ] (pass : ExtractContext (Traced τ)) (declared : ClassFile)
          (declaredFqn : String),
        pass.scope.frames ≠ [] → decodeClassName declared.name = .ok declaredFqn →
        declared.kind?.isSome →
        declared.enclosingMethod = some ⟨cls.name, some info.name, some info.descriptor⟩ →
        (∀ target ∈ placesOf declaredFqn ((taken (classPass declared) pass).filterMap Fact.place?),
          target = fqn ++ "." ++ info.name ++ raw) ∧
        (((classPass declared).run.run pass).1 = .ok () →
          placesOf declaredFqn ((taken (classPass declared) pass).filterMap Fact.place?) =
            [fqn ++ "." ++ info.name ++ raw]) := by
  obtain ⟨entity, hentity, htaken⟩ := entities_taken_method hscope hbridge hok
  obtain ⟨signature, hsignature, hnames⟩ := namesMethod_of_methodEntity? hentity
  refine ⟨signature.parameterList, entity, htaken, hnames, ?_, ?_, ?_⟩
  · intro pass hpass hinfo
    obtain ⟨found, hmem, hfound⟩ := exists_entity_taken_classPass hpass hname hinfo hbridge
    obtain ⟨signature', hsignature', hnames'⟩ := namesMethod_of_methodEntity? hfound
    cases hsignature.symm.trans hsignature'
    exact ⟨found, hmem, hnames'⟩
  · intro τ _ caller frame outer code hcaller hclass hoperand
    obtain ⟨hfront, hall⟩ := taken_instruction_of_invoke hcaller hclass hoperand
    have hfacts :
        (callAccount caller.location frame.fqn ⟨cls.name, info.name, info.descriptor⟩).facts =
        [.relation ⟨.calls, frame.fqn, signature.referenceFqn fqn info.name, caller.location⟩] :=
      facts_callAccount _ _ hname hsignature
    rw [MethodSignature.referenceFqn] at hfacts
    rw [hfacts] at hfront hall
    exact ⟨fun fact hfact => List.mem_singleton.mp (hfront.mem hfact), hall⟩
  · intro τ _ pass declared declaredFqn hpass hdeclared hsome henclosing
    obtain ⟨kind, hkind⟩ := Option.isSome_iff_exists.mp hsome
    have hparent : declaringFqn declaredFqn declared =
        .ok (fqn ++ "." ++ info.name ++ signature.parameterList) := by
      rw [declaringFqn, henclosing]
      show (decodeClassName cls.name >>= fun owner =>
          MethodSignature.decode info.descriptor >>= fun found =>
        pure (found.referenceFqn owner info.name)) = _
      rw [hname, hsignature]
      rfl
    exact placesOf_taken_classPass hpass hdeclared hkind hparent

/-- The pass over `interfaceOf` once its scope is open. -/
def interfaceContext : ExtractContext (Traced Recorder) :=
  { packageContext.traced with scope := packageContext.scope.push "p.A" (.entity .interface) }

/-- A call of the method `f` of `interfaceOf` with the given descriptor. -/
def callsF (descriptor : String) : Instruction :=
  ⟨0, 0xb9, .invoke, .member ⟨"p/A", "f", descriptor⟩⟩

/-- A class declared in the method `f` of `interfaceOf` with the given descriptor. -/
def declaredInF (descriptor : String) : ClassFile :=
  { interfaceOf [] with
    access := 0, name := "p/A$1", enclosingMethod := some ⟨"p/A", some "f", some descriptor⟩ }

/-- A method that is declared with a list of something is called with a list. -/
theorem names_join_of_takesList :
    decodeClassName (interfaceOf [takesList]).name = .ok "p.A" ∧ takesList.isBridge = false ∧
    ((method takesList).run.run interfaceContext).1 = .ok () ∧
    ((instruction (callsF "(Ljava/util/List;)V")).run.run interfaceContext).1 = .ok () ∧
    ((classPass (declaredInF "(Ljava/util/List;)V")).run.run packageContext.traced).1 = .ok () ∧
    ∃ entity, (taken (method takesList) interfaceContext).filterMap Fact.entity? = [entity] ∧
      entity.fqn = "p.A.f(java.util.List<<T>>)" ∧ entity.rawSignature = some "(java.util.List)" ∧
      taken (instruction (callsF "(Ljava/util/List;)V")) interfaceContext =
        [.relation ⟨.calls, "p.A", "p.A.f(java.util.List)", interfaceContext.location⟩] ∧
      placesOf "p.A$1"
        ((taken (classPass (declaredInF "(Ljava/util/List;)V")) packageContext.traced).filterMap
        Fact.place?) = ["p.A.f(java.util.List)"] := by
  have hname : decodeClassName (interfaceOf [takesList]).name = .ok "p.A" := by decide +kernel
  have hbridge : takesList.isBridge = false := by decide +kernel
  have hok : ((method takesList).run.run interfaceContext).1 = .ok () := by decide +kernel
  have hcall : ((instruction (callsF "(Ljava/util/List;)V")).run.run interfaceContext).1 =
      .ok () := by decide +kernel
  have hpass : ((classPass (declaredInF "(Ljava/util/List;)V")).run.run packageContext.traced).1 =
      .ok () := by
    decide +kernel
  obtain ⟨raw, entity, htaken, hnames, -, hcalls, hplaces⟩ :=
    declared_and_referenced_names_join (interfaceOf [takesList]) "p.A" hname takesList hbridge
      interfaceContext false
      packageContext.scope.frames rfl hok
  have hraw : raw = "(java.util.List)" := by
    have hlist : (MethodSignature.decode takesList.descriptor).map MethodSignature.parameterList =
        .ok "(java.util.List)" := by decide +kernel
    exact Except.ok.inj (hnames.raw_eq.symm.trans hlist)
  subst hraw
  have hgeneric : entity.genericSignature = some "(java.util.List<<T>>)" :=
    (hnames.genericSignature_eq_some_iff _).mpr ⟨_, rfl, by decide +kernel, by decide⟩
  refine ⟨hname, hbridge, hok, hcall, hpass, entity, htaken, ?_, hnames.rawSignature_eq, ?_, ?_⟩
  · rw [hnames.fqn_eq, hgeneric]
    rfl
  · exact (hcalls Recorder interfaceContext _ _ (callsF "(Ljava/util/List;)V") rfl rfl rfl).2 hcall
  · exact (hplaces Recorder packageContext.traced (declaredInF "(Ljava/util/List;)V")
      "p.A$1" (by decide)
      (by decide +kernel) (by decide +kernel) rfl).2 hpass

/-! ## What a parameter list tells -/

/-- The names of the types, each read from the text of its own. -/
def NamesOf (types : List TypeTree) (names : List String) : Prop :=
  List.Forall₂ (fun type name => decodeType (String.ofList type.print) = .ok name) types names

lemma namesOf_iff {types : List TypeTree} (htypes : ∀ type ∈ types, type.Legal false)
    (names : List String) :
    NamesOf types names ↔ (∀ type ∈ types, type.nesting ≤ 256) ∧ types.map canonical = names := by
  induction types generalizing names with
  | nil =>
      cases names with
      | nil => exact iff_of_true .nil ⟨fun _ htype => (by cases htype), rfl⟩
      | cons name names => exact iff_of_false (fun h => by cases h) fun h => by cases h.2
  | cons type types ih =>
      have htype := decodeType_print_eq_ok_iff (htypes type List.mem_cons_self)
      have hrest := ih fun other hother => htypes other (List.mem_cons_of_mem _ hother)
      cases names with
      | nil => exact iff_of_false (fun h => by cases h) fun h => by cases h.2
      | cons name names =>
          rw [NamesOf, List.forall₂_cons, htype, ← NamesOf, hrest, List.forall_mem_cons,
            List.map_cons, List.cons.injEq]
          tauto

/-- A reference ends with its parameter list, which begins at the first parenthesis. -/
lemma parameterList_eq_of_referenceFqn_eq {signature signature' : MethodSignature}
    {owner owner' name name' : String}
    (h : '(' ∉ (owner ++ "." ++ name).toList) (h' : '(' ∉ (owner' ++ "." ++ name').toList)
    (heq : signature.referenceFqn owner name = signature'.referenceFqn owner' name') :
    signature.parameterList = signature'.parameterList := by
  have htext := congrArg String.toList heq
  have hopen : ∀ types : List String, Ends ['('] (parameterList types).toList := by
    intro types c hc
    rw [toList_parameterList] at hc
    cases hc
    exact List.mem_singleton_self '('
  have hname : ∀ {text : String}, '(' ∉ text.toList → ∀ c ∈ text.toList, c ∉ ['('] := by
    intro text htext c hc hparenthesis
    exact htext (List.mem_singleton.mp hparenthesis ▸ hc)
  rw [MethodSignature.referenceFqn, MethodSignature.referenceFqn, String.toList_append,
    String.toList_append (s := owner' ++ "." ++ name')] at htext
  have hlists := (append_cancel_of_ends (hname h) (hname h') (hopen _) (hopen _) htext).2
  exact String.toList_inj.mp hlists

/-- **The text of a parameter list loses the structure of inner classes and nothing else.**  Lists
of types are given the same text exactly when they are the same list of flat types.  A descriptor
has no structure to lose: the parameter list of a reference determines its parameter types, and
calls of one name with different parameter types go to different targets. -/
theorem parameterList_eq_iff_flatten_eq :
    (∀ types types' : List TypeTree, (∀ type ∈ types, type.Proper) →
      (∀ type ∈ types', type.Proper) →
      ∀ names names', NamesOf types names → NamesOf types' names' →
        (parameterList names = parameterList names' ↔
          types.map TypeTree.flatten = types'.map TypeTree.flatten)) ∧
    (∀ types : List TypeTree, (∀ type ∈ types, type.Proper) →
      ((∃ names, NamesOf types names) ↔ ∀ type ∈ types, type.nesting ≤ 256)) ∧
    ∀ tree tree' : MethodTree, tree.IsDescriptor → tree'.IsDescriptor →
      ∃ signature signature' : MethodSignature,
        MethodSignature.decode (String.ofList tree.print) = .ok signature ∧
        MethodSignature.decode (String.ofList tree'.print) = .ok signature' ∧
        (signature.parameterList = signature'.parameterList ↔ tree.parameters = tree'.parameters) ∧
        (∀ owner owner' name name' : String, '(' ∉ (owner ++ "." ++ name).toList →
          '(' ∉ (owner' ++ "." ++ name').toList →
          signature.referenceFqn owner name = signature'.referenceFqn owner' name' →
          tree.parameters = tree'.parameters) ∧
        (tree.parameters ≠ tree'.parameters → ∀ (owner name : String) (code code' : Instruction),
          code.opcodeClass = .invoke →
          code.operand = .member ⟨owner, name, String.ofList tree.print⟩ →
          code'.opcodeClass = .invoke →
          code'.operand = .member ⟨owner, name, String.ofList tree'.print⟩ →
          ∀ context context' : ExtractContext (Traced σ), context.scope.frames ≠ [] →
            context'.scope.frames ≠ [] →
          ∀ fact ∈ taken (instruction code) context, ∀ fact' ∈ taken (instruction code') context',
            ∃ call call' : RelationFact, fact = .relation call ∧ fact' = .relation call' ∧
              call.kind = .calls ∧ call'.kind = .calls ∧ call.target ≠ call'.target) := by
  refine ⟨fun types types' htypes htypes' names names' hnames hnames' => ?_,
    fun types htypes => ?_, ?_⟩
  · obtain ⟨-, rfl⟩ := (namesOf_iff (fun type htype => (htypes type htype).legal) names).mp hnames
    obtain ⟨-, rfl⟩ :=
      (namesOf_iff (fun type htype => (htypes' type htype).legal) names').mp hnames'
    exact parameterList_canonical_eq_iff htypes htypes'
  · simp only [namesOf_iff (fun type htype => (htypes type htype).legal)]
    exact ⟨fun ⟨_, h, _⟩ => h, fun h => ⟨_, h, rfl⟩⟩
  · intro tree tree' htree htree'
    have hiff := htree.parameterList_eq_iff htree'
    refine ⟨_, _, htree.legal.decode, htree'.legal.decode, hiff, ?_, ?_⟩
    · intro owner owner' name name' hopen hopen' heq
      exact hiff.mp (parameterList_eq_of_referenceFqn_eq hopen hopen' heq)
    · intro hdiffers owner name code code' hclass hoperand hclass' hoperand' context context'
        hframes hframes' fact
        hfact fact' hfact'
      obtain ⟨found, call, howner, rfl, hkind, htarget⟩ :=
        exists_of_mem_taken_invoke hframes hclass hoperand htree.legal.decode hfact
      obtain ⟨found', call', howner', rfl, hkind', htarget'⟩ :=
        exists_of_mem_taken_invoke hframes' hclass' hoperand' htree'.legal.decode hfact'
      cases howner.symm.trans howner'
      refine ⟨call, call', rfl, rfl, hkind, hkind', fun heq => hdiffers (hiff.mp ?_)⟩
      rw [htarget, htarget'] at heq
      exact (String.append_right_inj _).mp heq

/-- An inner class with arguments on both levels. -/
def innerEntry : TypeTree :=
  .named "u/Map".toList
    [.arguments [.only (.var ['K']), .upper (.array (.base .int))], .inner "Entry".toList,
    .arguments [.any]]

/-- The class of the same full name and arguments, all in one list. -/
def joinedEntry : TypeTree :=
  .named "u/Map$Entry".toList [.arguments [.only (.var ['K']), .upper (.array (.base .int)), .any]]

/-- The descriptor of a method with one parameter. -/
def takesOne (type : TypeTree) : MethodTree :=
  ⟨[], [type], .void, []⟩

lemma takesOne_isDescriptor {type : TypeTree} (h : type.IsDescriptor) :
    (takesOne type).IsDescriptor :=
  ⟨rfl, fun found hfound => by rwa [List.mem_singleton.mp hfound], .inl rfl, rfl⟩

/-- Arguments of an outer and an inner class are not told apart; a number and an array of numbers
are, and so are the calls of the methods that take them. -/
theorem parameterList_innerEntry :
    innerEntry.Proper ∧ joinedEntry.Proper ∧
    NamesOf [innerEntry] ["u.Map$Entry<<K>,<?+int[]>,<?>>"] ∧
    NamesOf [joinedEntry] ["u.Map$Entry<<K>,<?+int[]>,<?>>"] ∧
    [innerEntry].map TypeTree.flatten = [joinedEntry].map TypeTree.flatten ∧
    (takesOne (.base .int)).IsDescriptor ∧ (takesOne (.array (.base .int))).IsDescriptor ∧
    ∃ call call' : RelationFact,
      taken (instruction (callsF "(I)V")) packageContext.traced = [.relation call] ∧
      taken (instruction (callsF "([I)V")) packageContext.traced = [.relation call'] ∧
      call.target ≠ call'.target := by
  have hinner : innerEntry.Proper := by
    rw [innerEntry, TypeTree.Proper]
    refine ⟨by decide, fun b => by cases b <;> decide, ?_⟩
    simp only [ProperSuffixes, ProperArguments, TypeTree.Proper]
    decide
  have hjoined : joinedEntry.Proper := by
    rw [joinedEntry, TypeTree.Proper]
    refine ⟨by decide, fun b => by cases b <;> decide, ?_⟩
    simp only [ProperSuffixes, ProperArguments, TypeTree.Proper]
    decide
  have hnames : NamesOf [innerEntry] ["u.Map$Entry<<K>,<?+int[]>,<?>>"] :=
    .cons (by decide +kernel) .nil
  have hnames' : NamesOf [joinedEntry] ["u.Map$Entry<<K>,<?+int[]>,<?>>"] :=
    .cons (by decide +kernel) .nil
  have hint : (takesOne (.base .int)).IsDescriptor := takesOne_isDescriptor ⟨trivial, trivial⟩
  have hints : (takesOne (.array (.base .int))).IsDescriptor :=
    takesOne_isDescriptor ⟨trivial, trivial⟩
  have htheorem := parameterList_eq_iff_flatten_eq (σ := Recorder)
  have hflat :=
    (htheorem.1 [innerEntry] [joinedEntry] (fun type htype => by rwa [List.mem_singleton.mp htype])
    (fun type htype => by rwa [List.mem_singleton.mp htype]) _ _ hnames hnames').mp rfl
  obtain ⟨signature, signature', -, -, -, -, hcalls⟩ := htheorem.2.2 _ _ hint hints
  have htaken : taken (instruction (callsF "(I)V")) packageContext.traced =
      [.relation ⟨.calls, "p", "p.A.f(int)", packageContext.location⟩] := by decide +kernel
  have htaken' : taken (instruction (callsF "([I)V")) packageContext.traced =
      [.relation ⟨.calls, "p", "p.A.f(int[])", packageContext.location⟩] := by decide +kernel
  obtain ⟨call, call', heq, heq', -, -, hdiffers⟩ :=
    hcalls (by simp [takesOne]) "p/A" "f" (callsF "(I)V")
    (callsF "([I)V") rfl (by decide +kernel) rfl
      (by decide +kernel) packageContext.traced packageContext.traced
    (by decide) (by decide) _ (by rw [htaken]; exact List.mem_cons_self) _
      (by rw [htaken']; exact List.mem_cons_self)
  cases heq
  cases heq'
  exact ⟨hinner, hjoined, hnames, hnames', hflat, hint, hints, _, _, htaken, htaken', hdiffers⟩

end Extract

end JarFacts
