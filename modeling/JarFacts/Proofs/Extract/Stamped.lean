import JarFacts.Proofs.Extract.Entry

/-!
# What kind of facts a class tells

A class has entities, relations and parameters to tell, and all of them carry the location they are
told at (`stamped_classAccount`).  It declares no package, and it says nothing about files: the
entity of the package in front of it and the fact of the file behind it are added by the entry it
stands in.
-/

namespace JarFacts

/-- The fact may stand in the account of a class that is told at the location. -/
def Fact.Stamped (location : Location) : Fact → Prop
  | .entity fact => fact.kind ≠ .package ∧ fact.location = location
  | .relation fact => fact.location = location
  | .file _ => False
  | .param fact => fact.declaredAt = location ∧ fact.usedAt = location

namespace Account

variable {α ι : Type} {first second account : Account} {holds : Fact → Prop}

/-- Every fact of the account, told or not, has the property; and what the account could not read is
a name or a signature. -/
def Every (holds : Fact → Prop) (account : Account) : Prop :=
  ∀ item ∈ account, match item with
    | .ok fact => holds fact
    | .error refusal => ∃ error, refusal = .signature error

lemma Every.nil : Every holds [] := by
  intro item hitem
  cases hitem

lemma Every.single {fact : Fact} (h : holds fact) : Every holds [.ok fact] := by
  intro item hitem
  cases List.mem_singleton.mp hitem
  exact h

lemma Every.append (hfirst : first.Every holds) (hsecond : second.Every holds) :
    Every holds (first ++ second) := by
  intro item hitem
  exact (List.mem_append.mp hitem).elim (hfirst item) (hsecond item)

lemma Every.flatMap (items : List ι) {account : ι → Account}
    (h : ∀ item, (account item).Every holds) :
    Every holds (items.flatMap account) := by
  intro item hitem
  obtain ⟨part, -, hmem⟩ := List.mem_flatMap.mp hitem
  exact h part item hmem

lemma Every.reading (read : Except SignatureError α) {account : α → Account}
    (h : ∀ value, (account value).Every holds) : Every holds (reading read account) := by
  cases read with
  | error error =>
      intro item hitem
      cases List.mem_singleton.mp hitem
      exact ⟨error, rfl⟩
  | ok value => exact h value

lemma Every.ite {condition : Prop} [Decidable condition] (hfirst : first.Every holds)
    (hsecond : second.Every holds) : Every holds (if condition then first else second) := by
  split
  · exact hfirst
  · exact hsecond

lemma Every.of_cons {item : Except Refusal Fact} (h : Every holds (item :: account)) :
    Every holds account :=
  fun other hother => h other (List.mem_cons_of_mem _ hother)

lemma Every.of_mem_facts (h : account.Every holds) {fact : Fact} (hfact : fact ∈ account.facts) :
    holds fact := by
  induction account with
  | nil => cases hfact
  | cons item rest ih =>
      cases item with
      | error refusal => cases hfact
      | ok first =>
          rcases List.mem_cons.mp hfact with rfl | hmem
          · exact h _ List.mem_cons_self
          · exact ih h.of_cons hmem

/-- Such an account does not break off at a class file that could not be read. -/
lemma Every.verdict_ne_classFile (h : account.Every holds) (error : ClassFileError) :
    account.verdict ≠ .error (.classFile error) := by
  induction account with
  | nil => exact nofun
  | cons item rest ih =>
      cases item with
      | ok fact => exact ih h.of_cons
      | error refusal =>
          obtain ⟨unread, rfl⟩ := h _ List.mem_cons_self
          exact nofun

/-- The facts of two accounts in sequence: the second has its say only where the first has no
refusal. -/
lemma facts_append : (first ++ second : Account).facts =
    match first.verdict with
    | .ok () => first.facts ++ second.facts
    | .error _ => first.facts := by
  induction first with
  | nil => rfl
  | cons item rest ih =>
      cases item with
      | error refusal => rfl
      | ok fact =>
          simp only [List.cons_append, facts, verdict, ih]
          cases verdict rest <;> rfl

lemma verdict_append : (first ++ second : Account).verdict =
    match first.verdict with
    | .ok () => second.verdict
    | .error refusal => .error refusal := by
  induction first with
  | nil => rfl
  | cons item rest ih =>
      cases item with
      | error refusal => rfl
      | ok fact => exact ih

end Account

open Account ClassFile

/-! ## The parts of a class -/

section

variable (location : Location)

lemma stamped_states (kind : RelationKind) (source target : String) :
    Every (Fact.Stamped location) (states location kind source target) :=
  .single rfl

lemma stamped_statesClass (kind : RelationKind) (source name : String) :
    Every (Fact.Stamped location) (statesClass location kind source name) :=
  .reading _ fun _ => stamped_states location _ _ _

lemma stamped_annotationAccount (target reader : String) (info : AnnotationInfo) :
    Every (Fact.Stamped location) (annotationAccount location target reader info) := by
  refine .reading _ fun type => .append (stamped_states location _ _ _) ?_
  exact .flatMap _ fun _ => .flatMap _ fun _ => .reading _ fun _ => stamped_states location _ _ _

lemma stamped_instructionAccount (fqn : String) (code : Instruction) :
    Every (Fact.Stamped location) (instructionAccount location fqn code) := by
  have haccess : ∀ (kind : RelationKind) (ref : MemberRef),
      Every (Fact.Stamped location) (accessAccount location kind fqn ref) := fun kind ref =>
    .ite .nil (.reading _ fun _ => stamped_states location _ _ _)
  unfold instructionAccount
  split
  · exact haccess _ _
  · exact haccess _ _
  · exact .reading _ fun _ => .reading _ fun _ => stamped_states location _ _ _
  · exact .nil
  · exact .flatMap _ fun _ => stamped_statesClass location _ _ _

lemma stamped_bodyAccount (fqn : String) (method : MethodInfo) :
    Every (Fact.Stamped location) (bodyAccount location fqn method) := by
  refine .append (.append ?_ ?_) ?_
  · exact .flatMap _ fun _ => stamped_annotationAccount location _ _ _
  · exact .flatMap _ fun _ => .flatMap _ fun _ => stamped_annotationAccount location _ _ _
  · exact .flatMap _ fun _ => stamped_instructionAccount location _ _

lemma stamped_fieldAccount (owner : String) (field : FieldInfo) :
    Every (Fact.Stamped location) (fieldAccount location owner field) := by
  have hkind : (if field.isEnumConstant then EntityKind.enumConstant else .field) ≠ .package := by
    split <;> decide
  refine .ite .nil (.append (.append (.append (.append ?_ ?_) ?_) ?_) ?_)
  · exact .single ⟨hkind, rfl⟩
  · exact stamped_states location _ _ _
  · exact .reading _ fun _ => stamped_states location _ _ _
  · exact .ite (stamped_states location _ _ _) .nil
  · exact .flatMap _ fun _ => stamped_annotationAccount location _ _ _

lemma stamped_parametersAccount (owner fqn : String) (types : List String) :
    Every (Fact.Stamped location) (parametersAccount location owner fqn types) := by
  refine .append (stamped_states location _ _ _) ?_
  intro item hitem
  obtain ⟨typed, -, rfl⟩ := List.mem_map.mp hitem
  exact ⟨rfl, rfl⟩

lemma kindOfMethod_ne_package (holder : Option EntityKind) (name : String) :
    kindOfMethod holder name ≠ .package := by
  unfold kindOfMethod
  split
  · decide
  · split
    · decide
    · split <;> decide

lemma stamped_methodAccount (holder : Option EntityKind) (owner : String) (method : MethodInfo) :
    Every (Fact.Stamped location) (methodAccount location holder owner method) := by
  refine .ite .nil (.reading _ fun raw => .reading _ fun signature => ?_)
  refine .append (.append (.append (.append (.append ?_ ?_) ?_) ?_) ?_) ?_
  · exact stamped_parametersAccount location _ _ _
  · exact .flatMap _ fun _ => stamped_states location _ _ _
  · exact .ite .nil (stamped_states location _ _ _)
  · exact .ite (.flatMap _ fun _ => stamped_statesClass location _ _ _)
      (.flatMap _ fun _ => stamped_states location _ _ _)
  · exact .single ⟨kindOfMethod_ne_package holder method.name, rfl⟩
  · exact stamped_bodyAccount location _ _

lemma stamped_supertypesAccount (fqn : String) (cls : ClassFile) :
    Every (Fact.Stamped location) (supertypesAccount location fqn cls) := by
  unfold supertypesAccount
  split
  · exact .append (.flatMap _ fun _ => stamped_statesClass location _ _ _)
      (.flatMap _ fun _ => stamped_statesClass location _ _ _)
  · refine .reading _ fun _ => .append (.append ?_ (stamped_states location _ _ _)) ?_
    · exact .flatMap _ fun _ => stamped_states location _ _ _
    · exact .flatMap _ fun _ => stamped_states location _ _ _

lemma kind_ne_package {cls : ClassFile} {kind : EntityKind} (h : cls.kind? = some kind) :
    kind ≠ .package := by
  unfold ClassFile.kind? at h
  split at h
  · cases h
  · split at h
    · cases h
      split <;> decide
    · split at h <;> cases h <;> decide

lemma stamped_typeAccount (fqn : String) (cls : ClassFile) :
    Every (Fact.Stamped location) (typeAccount location fqn cls) := by
  unfold typeAccount
  split
  · exact .nil
  · exact .append (.single ⟨kind_ne_package ‹_›, rfl⟩) (stamped_supertypesAccount location fqn cls)

/-- A class tells nothing but entities that are no packages, relations and parameters, all at its
own location. -/
lemma stamped_classAccount (cls : ClassFile) :
    Every (Fact.Stamped location) (classAccount location cls) := by
  refine .reading _ fun fqn => .append (.append (stamped_typeAccount location fqn cls) ?_) ?_
  · refine .append (.append (.append ?_ ?_) ?_) ?_
    · exact .flatMap _ fun _ => .reading _ fun _ => stamped_states location _ _ _
    · exact .ite (.flatMap _ fun _ => stamped_annotationAccount location _ _ _) .nil
    · exact .flatMap _ fun _ => stamped_fieldAccount location _ _
    · exact .flatMap _ fun _ => stamped_methodAccount location _ _ _
  · exact .ite (stamped_states location _ _ _) .nil

end

end JarFacts
