import JarFacts.Proofs.Extract.Scopes
import JarFacts.Proofs.Sink.Trace

/-!
# What a pass has written

A pass that succeeds has written all the facts of its account, whatever the sink was
(`classPass_written`).  Among them are the entities: the type itself, then one for each field that
is not synthetic and one for each method that is no bridge.  And there are the places, by which
every entity is inside another (`collect_classAccount`).  Everything else a class tells stands aside
from both (`Account.Aside`): annotations, supertypes, the parts of a signature and the instructions
of a body neither declare an entity nor place one.
-/

namespace JarFacts

/-- The entity that a fact declares, if it does. -/
def Fact.entity? : Fact → Option EntityFact
  | .entity declared => some declared
  | _ => none

/-- What a fact places inside what, both by name, if it does. -/
def Fact.place? : Fact → Option (String × String)
  | .relation ⟨.inside, source, target, _⟩ => some (source, target)
  | _ => none

namespace Account

variable {α ι : Type} {first second account : Account}

/-! ## Accounts without a refusal -/

lemma verdict_eq_ok_iff : account.verdict = .ok () ↔ ∀ refusal, .error refusal ∉ account := by
  induction account with
  | nil => simp [verdict]
  | cons item rest ih =>
      cases item with
      | error refusal =>
          exact iff_of_false (by simp [verdict]) fun h => h refusal List.mem_cons_self
      | ok fact => simp [verdict, ih]

lemma verdict_append_eq_ok : (first ++ second : Account).verdict = .ok () ↔
    first.verdict = .ok () ∧ second.verdict = .ok () := by
  simp only [verdict_eq_ok_iff, List.mem_append, not_or, forall_and]

lemma verdict_flatMap_eq_ok {items : List ι} {account : ι → Account} :
    verdict (items.flatMap account) = .ok () ↔ ∀ item ∈ items, (account item).verdict = .ok () := by
  simp only [verdict_eq_ok_iff, List.mem_flatMap, not_exists, not_and]
  exact forall_comm.trans (forall_congr' fun item => forall_comm)

lemma verdict_reading_eq_ok {read : Except SignatureError α} {account : α → Account} :
    (reading read account).verdict = .ok () ↔ ∃ value, read = .ok value ∧
      (account value).verdict = .ok () := by
  cases read <;> simp [reading, verdict]

/-- What a sink has taken of an account is the front part of its facts; all of them if the account
was told to the end, and then it has no refusal. -/
lemma deliver_traced {σ : Type} [FactSink σ] (account : Account) (traced : Traced σ)
    (counts : FactCounts) :
    ∃ facts, facts <+: account.facts ∧
      (account.deliver traced counts).2.1.accepted = traced.accepted ++ facts.map .fact ∧
      ((account.deliver traced counts).1 = .ok () → facts = account.facts ∧
        account.verdict = .ok ()) := by
  obtain ⟨taken, hprefix, haccepted, -, hall⟩ :=
    FactSink.offer_traced (account.facts.map .fact) traced counts
  obtain ⟨facts, hfacts, rfl⟩ := List.prefix_map_iff.mp hprefix
  refine ⟨facts, hfacts, ?_⟩
  rw [deliver_eq_offer]
  rcases hoffer : FactSink.offer (account.facts.map .fact) traced counts with
    ⟨_ | _, sink', counts'⟩ <;>
    rw [hoffer] at haccepted hall
  · exact ⟨haccepted, fun hok => by cases hok⟩
  · refine ⟨haccepted, fun hok => ⟨?_, ?_⟩⟩
    · exact List.map_injective_iff.mpr (fun _ _ => SinkWrite.fact.inj) (hall rfl)
    · cases hverdict : account.verdict with
      | ok _ => rfl
      | error refusal =>
          rw [hverdict] at hok
          cases hok

/-! ## Collecting from an account -/

lemma mem_of_mem_facts {fact : Fact} (h : fact ∈ account.facts) : .ok fact ∈ account := by
  induction account with
  | nil => cases h
  | cons item rest ih =>
      cases item with
      | error refusal => cases h
      | ok first =>
          rcases List.mem_cons.mp h with rfl | hrest
          · exact List.mem_cons_self
          · exact List.mem_cons_of_mem _ (ih hrest)

/-- What can be picked from the facts of an account, told or not. -/
def collect (pick : Fact → Option α) (account : Account) : List α :=
  account.filterMap fun item => item.toOption.bind pick

variable (pick : Fact → Option α)

lemma collect_eq (h : account.verdict = .ok ()) :
    account.collect pick = account.facts.filterMap pick := by
  induction account with
  | nil => rfl
  | cons item rest ih =>
      cases item with
      | error refusal => cases h
      | ok fact =>
          simp only [collect, facts, List.filterMap_cons, Except.toOption, Option.bind_some]
          rw [← ih h]
          rfl

@[simp] lemma collect_append :
    collect pick (first ++ second) = first.collect pick ++ second.collect pick :=
  List.filterMap_append

@[simp] lemma collect_flatMap (items : List ι) (account : ι → Account) :
    collect pick (items.flatMap account) = items.flatMap fun item => (account item).collect pick :=
  List.filterMap_flatMap

/-- The account declares no entity and places none. -/
def Aside (account : Account) : Prop :=
  ∀ fact, .ok fact ∈ account → fact.entity? = none ∧ fact.place? = none

lemma Aside.entities (h : account.Aside) : account.collect Fact.entity? = [] := by
  refine List.filterMap_eq_nil_iff.mpr fun item hitem => ?_
  rcases item with refusal | fact
  · rfl
  · exact (h fact hitem).1

lemma Aside.places (h : account.Aside) : account.collect Fact.place? = [] := by
  refine List.filterMap_eq_nil_iff.mpr fun item hitem => ?_
  rcases item with refusal | fact
  · rfl
  · exact (h fact hitem).2

lemma Aside.nil : Aside [] := by
  intro fact hfact
  cases hfact

lemma Aside.append (hfirst : first.Aside) (hsecond : second.Aside) : Aside (first ++ second) := by
  intro fact hfact
  exact (List.mem_append.mp hfact).elim (hfirst fact) (hsecond fact)

lemma Aside.flatMap (items : List ι) {account : ι → Account} (h : ∀ item, (account item).Aside) :
    Aside (items.flatMap account) := by
  intro fact hfact
  obtain ⟨item, -, hmem⟩ := List.mem_flatMap.mp hfact
  exact h item fact hmem

lemma Aside.reading (read : Except SignatureError α) {account : α → Account}
    (h : ∀ value, (account value).Aside) :
    Aside (reading read account) := by
  cases read with
  | error error =>
      intro fact hfact
      cases List.mem_singleton.mp hfact
  | ok value => exact h value

lemma Aside.ite {condition : Prop} [Decidable condition] (hfirst : first.Aside)
    (hsecond : second.Aside) :
    Aside (if condition then first else second) := by
  split
  · exact hfirst
  · exact hsecond

lemma Aside.states {kind : RelationKind} (hkind : kind ≠ .inside) (location : Location)
    (source target : String) :
    Aside (states location kind source target) := by
  intro fact hfact
  cases List.mem_singleton.mp hfact
  refine ⟨rfl, ?_⟩
  unfold Fact.place?
  split
  · cases ‹Fact.relation _ = _›
    exact absurd rfl hkind
  · rfl

end Account

open Account ClassFile

/-! ## What stands aside -/

lemma aside_readsAccount (location : Location) (reader : String)
    (constants : List (String × String)) :
    Aside (readsAccount location reader constants) :=
  .flatMap _ fun _ => .reading _ fun _ => .states (by decide) _ _ _

lemma aside_annotationAccount (location : Location) (target reader : String)
    (info : AnnotationInfo) :
    Aside (annotationAccount location target reader info) :=
  .reading _ fun _ => (Aside.states (by decide) _ _ _).append
    (.flatMap _ fun _ => aside_readsAccount _ _ _)

lemma aside_statesClass {kind : RelationKind} (hkind : kind ≠ .inside) (location : Location)
    (source name : String) :
    Aside (statesClass location kind source name) :=
  .reading _ fun _ => .states hkind _ _ _

lemma aside_accessAccount {kind : RelationKind} (hkind : kind ≠ .inside) (location : Location)
    (fqn : String) (ref : MemberRef) : Aside (accessAccount location kind fqn ref) :=
  .ite .nil (.reading _ fun _ => .states hkind _ _ _)

lemma aside_instructionAccount (location : Location) (fqn : String) (code : Instruction) :
    Aside (instructionAccount location fqn code) := by
  obtain ⟨offset, opcode, opcodeClass, operand⟩ := code
  cases operand with
  | type name =>
      cases opcodeClass with
      | other => exact .nil
      | _ =>
        simp only [instructionAccount, OpcodeClass.relation?, Option.toList_some,
          List.flatMap_singleton]
        exact aside_statesClass (by decide) _ _ _
  | member ref =>
      cases opcodeClass with
      | fieldRead => exact aside_accessAccount (by decide) _ _ _
      | fieldWrite => exact aside_accessAccount (by decide) _ _ _
      | invoke => exact .reading _ fun _ => .reading _ fun _ => .states (by decide) _ _ _
      | _ => exact .nil

lemma aside_bodyAccount (location : Location) (fqn : String) (info : MethodInfo) :
    Aside (bodyAccount location fqn info) := by
  refine Aside.append (Aside.append ?_ ?_) ?_
  · exact .flatMap _ fun _ => aside_annotationAccount _ _ _ _
  · exact .flatMap _ fun _ => .flatMap _ fun _ => aside_annotationAccount _ _ _ _
  · exact .flatMap _ fun _ => aside_instructionAccount _ _ _

lemma aside_throwsAccount (location : Location) (fqn : String) (signature : MethodSignature)
    (declared : List String) :
    Aside (throwsAccount location fqn signature declared) :=
  .ite (.flatMap _ fun _ => aside_statesClass (by decide) _ _ _)
    (.flatMap _ fun _ => .states (by decide) _ _ _)

lemma aside_supertypesAccount (location : Location) (fqn : String) (cls : ClassFile) :
    Aside (supertypesAccount location fqn cls) := by
  unfold supertypesAccount
  split
  · exact .append (.flatMap _ fun _ => aside_statesClass (by decide) _ _ _)
      (.flatMap _ fun _ => aside_statesClass (by decide) _ _ _)
  · refine .reading _ fun _ => .append (.append ?_ (.states (by decide) _ _ _)) ?_
    · exact .flatMap _ fun _ => .states (by decide) _ _ _
    · exact .flatMap _ fun _ => .states (by decide) _ _ _

/-! ## The entities of a class -/

/-- The entity of a field, if it has one. -/
def fieldEntity? (location : Location) (owner : String) (field : FieldInfo) : Option EntityFact :=
  if field.isSynthetic then none
  else
    let kind : EntityKind := if field.isEnumConstant then .enumConstant else .field
    some ⟨kind, owner ++ "." ++ field.name, some field.name, field.access, none, none, location⟩

/-- The entity of a method with the parameters of its descriptor, and those it takes its name
from. -/
def methodEntity (location : Location) (holder : Option EntityKind) (owner : String)
    (method : MethodInfo) (raw signature : MethodSignature) : EntityFact where
  kind := kindOfMethod holder method.name
  fqn := owner ++ "." ++ method.name ++ signature.parameterList
  name := some method.name
  modifiers := method.access
  rawSignature := some raw.parameterList
  genericSignature := if method.signature.isSome ∧ signature.parameterList ≠ raw.parameterList
    then some signature.parameterList else none
  location := location

/-- The entity of a method, if it has one: it is no bridge, and its types can be read. -/
def methodEntity? (location : Location) (holder : Option EntityKind) (owner : String)
    (method : MethodInfo) :
    Option EntityFact :=
  if method.isBridge then none
  else
    match MethodSignature.decode method.descriptor,
      MethodSignature.decode (method.signature.getD method.descriptor) with
    | .ok raw, .ok signature => some (methodEntity location holder owner method raw signature)
    | _, _ => none

/-- The entities of the members of the class `fqn`: its fields, then its methods. -/
def memberEntities (location : Location) (fqn : String) (cls : ClassFile) : List EntityFact :=
  cls.fields.filterMap (fieldEntity? location fqn) ++ cls.methods.filterMap
    (methodEntity? location cls.kind? fqn)

lemma collect_fieldAccount (location : Location) (owner : String) (field : FieldInfo) :
    (fieldAccount location owner field).collect Fact.entity? =
      (fieldEntity? location owner field).toList ∧
      (fieldAccount location owner field).collect Fact.place? =
        (fieldEntity? location owner field).toList.map fun entity => (entity.fqn, owner) := by
  unfold fieldAccount fieldEntity?
  split
  · exact ⟨rfl, rfl⟩
  · have hheld : Aside (reading (Signature.decodeType (field.signature.getD field.descriptor))
        (states location .holds (owner ++ "." ++ field.name))) :=
      .reading _ fun _ => .states (by decide) _ _ _
    have hconstant : Aside (if field.constantValue.isSome
        then states location .writes (owner ++ "." ++ field.name) (owner ++ "." ++ field.name)
          else []) :=
      .ite (.states (by decide) _ _ _) .nil
    have hannotations : Aside (field.annotations.flatMap
        (annotationAccount location (owner ++ "." ++ field.name) (owner ++ "." ++ field.name))) :=
      .flatMap _ fun _ => aside_annotationAccount _ _ _ _
    simp only [collect_append, hheld.entities, hheld.places, hconstant.entities, hconstant.places,
      hannotations.entities, hannotations.places, List.append_nil]
    exact ⟨rfl, rfl⟩

lemma collect_parametersAccount (location : Location) (owner fqn : String) (types : List String) :
    (parametersAccount location owner fqn types).collect Fact.entity? = [] ∧
      (parametersAccount location owner fqn types).collect Fact.place? = [(fqn, owner)] := by
  have hsplit : parametersAccount location owner fqn types = states location .inside fqn owner ++
      types.zipIdx.map fun typed => .ok (.param (.parameter fqn typed.2 typed.1 location)) := rfl
  have hparameters : Aside (types.zipIdx.map fun typed =>
      .ok (.param (.parameter fqn typed.2 typed.1 location))) := by
    intro fact hfact
    obtain ⟨typed, -, heq⟩ := List.mem_map.mp hfact
    cases heq
    exact ⟨rfl, rfl⟩
  rw [hsplit, collect_append, collect_append, hparameters.entities, hparameters.places]
  exact ⟨rfl, rfl⟩

lemma collect_methodAccount (location : Location) (holder : Option EntityKind) (owner : String)
    (method : MethodInfo) :
    (methodAccount location holder owner method).collect Fact.entity? =
        (methodEntity? location holder owner method).toList ∧
      (methodAccount location holder owner method).collect Fact.place? =
        (methodEntity? location holder owner method).toList.map fun entity =>
          (entity.fqn, owner) := by
  unfold methodAccount methodEntity?
  split
  · exact ⟨rfl, rfl⟩
  · cases MethodSignature.decode method.descriptor with
    | error error => exact ⟨rfl, rfl⟩
    | ok raw =>
        cases MethodSignature.decode (method.signature.getD method.descriptor) with
        | error error => exact ⟨rfl, rfl⟩
        | ok signature =>
            set fqn := owner ++ "." ++ method.name ++ signature.parameterList with hfqn
            obtain ⟨hentities, hplaces⟩ :=
              collect_parametersAccount location owner fqn signature.parameters
            have hformals : Aside (signature.typeParameters.flatMap fun formal =>
                states location .parametrizedBy fqn formal.render) :=
              .flatMap _ fun _ => .states (by decide) _ _ _
            have hreturns : Aside (if kindOfMethod holder method.name = .constructor ∨
                kindOfMethod holder method.name = .initializer then []
                else states location .returns fqn signature.returnType) :=
              .ite .nil (.states (by decide) _ _ _)
            have hthrows := aside_throwsAccount location fqn signature method.exceptions
            have hbody := aside_bodyAccount location fqn method
            simp only [reading_ok, signatureAccount, collect_append, ← hfqn, hentities, hplaces,
              hformals.entities, hformals.places, hreturns.entities, hreturns.places,
              hthrows.entities, hthrows.places, hbody.entities, hbody.places, List.append_nil,
              List.nil_append]
            exact ⟨rfl, rfl⟩

lemma entities_typeAccount (location : Location) (fqn : String) {cls : ClassFile}
    {kind : EntityKind} (hkind : cls.kind? = some kind) :
    (typeAccount location fqn cls).collect Fact.entity? =
      [⟨kind, fqn, some cls.simpleName, cls.access, none, none, location⟩] := by
  simp only [typeAccount, hkind, collect_append,
    (aside_supertypesAccount location fqn cls).entities, List.append_nil]
  rfl

lemma places_typeAccount (location : Location) (fqn : String) (cls : ClassFile) :
    (typeAccount location fqn cls).collect Fact.place? = [] := by
  rw [typeAccount]
  split
  · rfl
  · rw [collect_append, (aside_supertypesAccount location fqn cls).places]
    rfl

/-- Where a class is declared: in a method or class if it is local, and else in what stands before
the last dot. -/
def declaringFqn (fqn : String) (cls : ClassFile) : Except SignatureError String :=
  match cls.enclosingMethod with
  | some enclosing => Extract.enclosingFqn enclosing
  | none => .ok (Text.beforeLast '.' fqn)

lemma collect_memberAccounts (location : Location) (fqn : String) (cls : ClassFile) :
    collect Fact.entity? (cls.fields.flatMap (fieldAccount location fqn)) ++
        collect Fact.entity? (cls.methods.flatMap (methodAccount location cls.kind? fqn)) =
        memberEntities location fqn cls ∧
      collect Fact.place? (cls.fields.flatMap (fieldAccount location fqn)) ++
        collect Fact.place? (cls.methods.flatMap (methodAccount location cls.kind? fqn)) =
        (memberEntities location fqn cls).map fun entity => (entity.fqn, fqn) := by
  simp only [collect_flatMap, (collect_fieldAccount _ _ _).1, (collect_fieldAccount _ _ _).2,
    (collect_methodAccount _ _ _ _).1, (collect_methodAccount _ _ _ _).2, memberEntities,
    List.filterMap_eq_flatMap_toList, List.map_append, List.map_flatMap, and_self]

/-- A member has the name of its class in front of its own. -/
lemma exists_fqn_of_mem_memberEntities {location : Location} {owner : String} {cls : ClassFile}
    {member : EntityFact} (h : member ∈ memberEntities location owner cls) : ∃ rest, member.fqn =
      owner ++ "." ++ rest := by
  rcases List.mem_append.mp h with hfield | hmethod
  · obtain ⟨field, -, hentity⟩ := List.mem_filterMap.mp hfield
    unfold fieldEntity? at hentity
    split at hentity <;> cases hentity
    exact ⟨field.name, rfl⟩
  · obtain ⟨method, -, hentity⟩ := List.mem_filterMap.mp hmethod
    unfold methodEntity? at hentity
    split at hentity
    · cases hentity
    · split at hentity <;> cases hentity
      exact ⟨_, String.append_assoc⟩

/-- The entities of a class that declares a type are the type and its members.  Each is placed once:
the members in the type, and the type where it is declared. -/
lemma collect_classAccount (location : Location) {cls : ClassFile} {fqn parent : String}
    {kind : EntityKind}
    (hname : Signature.decodeClassName cls.name = .ok fqn) (hkind : cls.kind? = some kind)
    (hparent : declaringFqn fqn cls = .ok parent) :
    (classAccount location cls).collect Fact.entity? =
        ⟨kind, fqn, some cls.simpleName, cls.access, none, none, location⟩ :: memberEntities
          location fqn cls ∧
      ((classAccount location cls).collect Fact.place?).Perm
        ((fqn, parent) :: (memberEntities location fqn cls).map fun entity =>
          (entity.fqn, fqn)) := by
  have hsome : cls.kind?.isSome = true := by rw [hkind]; rfl
  have hannotations : Aside (cls.annotations.flatMap (annotationAccount location fqn fqn)) :=
    .flatMap _ fun _ => aside_annotationAccount _ _ _ _
  have hinside (target : String) : collect Fact.entity? (states location .inside fqn target) = [] ∧
      collect Fact.place? (states location .inside fqn target) = [(fqn, target)] := ⟨rfl, rfl⟩
  have htype := entities_typeAccount location fqn hkind
  have htypePlaces := places_typeAccount location fqn cls
  obtain ⟨hmembers, hmemberPlaces⟩ := collect_memberAccounts location fqn cls
  rw [classAccount, hname, reading_ok, membersAccount, placeAccount]
  rw [declaringFqn] at hparent
  -- a local class is placed in front of its members, every other one behind them
  cases henclosing : cls.enclosingMethod with
  | none =>
      rw [henclosing] at hparent
      cases hparent
      simp only [hsome, Option.isNone_none, if_true, and_self, Option.toList_none, List.flatMap_nil,
        List.nil_append, collect_append, htype, htypePlaces, hannotations.entities,
        hannotations.places, hmembers, hmemberPlaces, hinside]
      exact ⟨List.append_nil _, List.perm_append_singleton _ _⟩
  | some enclosing =>
      rw [henclosing] at hparent
      dsimp only at hparent
      simp only [hsome, hparent, if_true, Option.isNone_some, Bool.false_eq_true,
        and_false, if_false, Option.toList_some, List.flatMap_singleton, reading_ok, collect_append,
        htype, htypePlaces, hannotations.entities, hannotations.places, hinside, List.append_nil,
        List.nil_append, List.append_assoc, hmembers, hmemberPlaces]
      exact ⟨rfl, .refl _⟩

/-- Where a class that is told to the end is declared can be read. -/
lemma exists_declaringFqn {location : Location} {cls : ClassFile} {fqn : String}
    (hname : Signature.decodeClassName cls.name = .ok fqn)
    (h : (classAccount location cls).verdict = .ok ()) :
    ∃ parent, declaringFqn fqn cls = .ok parent := by
  rw [classAccount, hname, reading_ok, verdict_append_eq_ok, verdict_append_eq_ok,
    membersAccount] at h
  simp only [verdict_append_eq_ok, verdict_flatMap_eq_ok, verdict_reading_eq_ok] at h
  rw [declaringFqn]
  cases henclosing : cls.enclosingMethod with
  | none => exact ⟨_, rfl⟩
  | some enclosing =>
      obtain ⟨parent, hparent, -⟩ :=
        h.1.2.1.1.1 enclosing (by rw [henclosing]; exact List.mem_cons_self)
      exact ⟨parent, hparent⟩

/-! ## What was written -/

/-- The same extraction, with a trace of what its sink is given from now on. -/
def ExtractContext.traced {σ : Type} (context : ExtractContext σ) : ExtractContext (Traced σ) :=
  ⟨.new context.sink, context.scope, context.location, context.counts, context.log⟩

namespace Extract

variable {σ : Type} [FactSink σ]

/-- A pass that succeeds, also one without any scope around it, has told the account of its class to
the end. -/
lemma classPass_delivers {cls : ClassFile} {context : ExtractContext σ}
    (hok : ((classPass cls).run.run context).1 = .ok ()) :
    (classAccount context.location cls).deliver context.sink context.counts =
      (.ok (), ((classPass cls).run.run context).2.sink,
        ((classPass cls).run.run context).2.counts) := by
  by_cases hframes : context.scope.frames = []
  · obtain ⟨fqn, closing, hname, hdeliver, -, hscope, hend⟩ := classPass_closing hok
    have hsingle : closing.scope.frames =
        [⟨scopeKind cls.kind?, fqn, cls.enclosingMethod.isSome⟩] := by
      rw [hscope, hframes]
    rw [hend] at hok ⊢
    obtain ⟨hplaced, hrun⟩ := classEnd_of_single hsingle hok
    have hplace : placeAccount context.location fqn cls = [] := by
      refine if_neg fun hplace => ?_
      revert hplace hplaced
      cases cls.kind? <;> cases cls.enclosingMethod <;> simp [scopeKind]
    rw [classAccount, hname, reading_ok, hplace, List.append_nil, hdeliver, hrun]
  · exact ((tells_classPass cls hframes).of_ok (Prod.ext hok rfl)).1

/-- A pass that succeeds has written the facts of its account, all of them and nothing else. -/
lemma classPass_written {cls : ClassFile} {context : ExtractContext (Traced σ)}
    (hok : ((classPass cls).run.run context).1 = .ok ()) :
    (classAccount context.location cls).verdict = .ok () ∧
      ((classPass cls).run.run context).2.sink.accepted =
        context.sink.accepted ++ (classAccount context.location cls).facts.map .fact := by
  obtain ⟨facts, -, haccepted, hall⟩ :=
    deliver_traced (classAccount context.location cls) context.sink context.counts
  rw [classPass_delivers hok] at haccepted hall
  obtain ⟨rfl, hverdict⟩ := hall rfl
  exact ⟨hverdict, haccepted⟩

end Extract

end JarFacts
