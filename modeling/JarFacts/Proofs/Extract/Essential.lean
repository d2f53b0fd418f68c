import JarFacts.Proofs.Alike
import JarFacts.Proofs.ClassFile.Essential
import JarFacts.Proofs.Extract.ClassPass
import JarFacts.Proofs.Extract.Written

/-!
# What says nothing is not read

The pass over the essential part of a class writes the same facts, ends in the same way and leaves
the same scopes as the pass over the class itself (`classPass_essential`).  Only the log can tell
the two apart.  So nothing that is left out is read, not even far enough to be refused: it may be
malformed in any way.

This is a statement about two runs, and it is proved procedure by procedure.  Both are looked at
without their logs (`ExtractContext.muted`); what is left out is like doing nothing, and everything
else is alike.
-/

namespace JarFacts

open ClassFile

/-! ## Without a log -/

/-- The state of an extraction without its log. -/
def ExtractContext.muted {σ : Type} (context : ExtractContext σ) : ExtractContext σ :=
  { context with log := #[] }

namespace Extract

variable {σ : Type} {α β : Type} {context context' : ExtractContext σ}

lemma eq_of_muted_eq (h : context.muted = context'.muted) :
    context.sink = context'.sink ∧ context.scope = context'.scope ∧
    context.location = context'.location ∧
      context.counts = context'.counts := by
  obtain ⟨sink, scope, location, counts, log⟩ := context
  obtain ⟨sink', scope', location', counts', log'⟩ := context'
  simpa [ExtractContext.muted] using h

/-- A step that does not look at the log. -/
lemma alike_of_muted {step : Extract σ α}
    (h : ∀ context, (step.run.run context).1 = (step.run.run context.muted).1 ∧
      (step.run.run context).2.muted = (step.run.run context.muted).2.muted) :
    Alike ExtractContext.muted step step := by
  intro context context' hview
  rw [(h context).1, (h context).2, hview, ← (h context').1, ← (h context').2]
  exact ⟨rfl, rfl⟩

lemma alike_note (event : LogEvent) :
    Alike (ExtractContext.muted (σ := σ)) (note event) (pure ⟨⟩) :=
  fun _ _ hview => ⟨rfl, hview⟩

lemma alike_noted (event event' : LogEvent) :
    Alike (ExtractContext.muted (σ := σ)) (note event) (note event') :=
  fun _ _ hview => ⟨rfl, hview⟩

lemma alike_notes {ι : Type} (items : List ι) (event : ι → LogEvent) :
    Alike (ExtractContext.muted (σ := σ)) (items.forM fun item => note (event item)) (pure ⟨⟩) :=
  .forM_idle items fun item => alike_note (event item)

lemma alike_inScope (ask : ScopeStack → Except ScopeError α) :
    Alike (ExtractContext.muted (σ := σ)) (inScope ask) (inScope ask) :=
  alike_of_muted fun context => by
    rw [run_inScope, run_inScope]
    exact ⟨rfl, rfl⟩

lemma alike_push (fqn : String) (kind : ScopeKind) :
    Alike (ExtractContext.muted (σ := σ)) (push fqn kind) (push fqn kind) :=
  alike_of_muted fun _ => ⟨rfl, rfl⟩

lemma alike_setScope (scope : ScopeStack) :
    Alike (ε := ExtractError) (ExtractContext.muted (σ := σ))
      (modify fun context => { context with scope := scope })
      (modify fun context => { context with scope := scope }) :=
  alike_of_muted fun _ => ⟨rfl, rfl⟩

lemma alike_pop : Alike (ExtractContext.muted (σ := σ)) pop pop :=
  (alike_inScope _).bind fun (_, scope) => (alike_setScope scope).bind fun _ => .pure _

lemma alike_markContainment :
    Alike (ExtractContext.muted (σ := σ)) markContainment markContainment :=
  (alike_inScope _).bind fun scope => alike_setScope scope

lemma alike_decoded_bind {read : Except SignatureError α} {next next' : α → Extract σ β}
    (hnext : ∀ value, Alike ExtractContext.muted (next value) (next' value)) :
    Alike ExtractContext.muted (decoded read >>= next) (decoded read >>= next') := by
  cases read with
  | error error => exact .throw_bind _ _ _
  | ok value => exact hnext value

/-- Where the context is asked for, it is asked for the location. -/
lemma alike_get_bind {next next' : ExtractContext σ → Extract σ β}
    (hnext : ∀ context context', context.location = context'.location →
      Alike ExtractContext.muted (next context) (next' context')) :
    Alike ExtractContext.muted (get >>= next) (get >>= next') :=
  .get_bind fun context context' hview => hnext context context' (eq_of_muted_eq hview).2.2.1

lemma alike_methodKind (info : MethodInfo) :
    Alike (ExtractContext.muted (σ := σ)) (methodKind info) (methodKind info) :=
  .ite (.pure _) <| .ite (.pure _) <| (alike_inScope _).bind fun _ => .ite (.pure _) (.pure _)

variable [FactSink σ]

lemma alike_emit (fact : Fact) : Alike (ExtractContext.muted (σ := σ)) (emit fact) (emit fact) :=
  alike_of_muted fun context => by
    rw [run_emit, run_emit]
    have hsink : context.muted.sink = context.sink := rfl
    rw [hsink]
    rcases FactSink.write fact context.sink with ⟨_ | _, sink⟩
    · exact ⟨rfl, rfl⟩
    · exact ⟨rfl, rfl⟩

lemma alike_relation (kind : RelationKind) (source target : String) :
    Alike (ExtractContext.muted (σ := σ)) (relation kind source target)
      (relation kind source target) :=
  alike_get_bind fun context context' hlocation => by
    rw [hlocation]
    exact alike_emit _

lemma alike_relationFromScope (kind : RelationKind) (target : String) :
    Alike (ExtractContext.muted (σ := σ)) (relationFromScope kind target)
      (relationFromScope kind target) :=
  (alike_inScope _).bind fun source => alike_relation kind source target

/-! ## Annotations -/

mutual

/-- A value is like what is essential of it. -/
lemma alike_elementValue (reader : String) (value : ElementValue) :
    Alike (ExtractContext.muted (σ := σ)) (elementValue reader value)
      (elementValues reader value.essential?.toList) := by
  cases value with
  | enumConstant type name =>
      simp only [ElementValue.essential?, Option.toList_some, elementValues,
        elementValue, bind_assoc]
      refine alike_decoded_bind fun enum => ?_
      rw [bind_pure_unit]
      exact alike_relation _ _ _
  | array values =>
      simp only [ElementValue.essential?, Option.toList_some, elementValues,
        elementValue, bind_pure_unit]
      exact alike_elementValues reader values
  | nested type elements =>
      simp only [ElementValue.essential?, Option.toList_none, elementValues, elementValue]
      exact alike_note _
  | const tag =>
      simp only [ElementValue.essential?, Option.toList_none, elementValues, elementValue]
      exact .pure _
  | classLiteral descriptor =>
      simp only [ElementValue.essential?, Option.toList_none, elementValues, elementValue]
      exact .pure _

lemma alike_elementValues (reader : String) (values : List ElementValue) :
    Alike (ExtractContext.muted (σ := σ)) (elementValues reader values)
      (elementValues reader (essentialValues values)) := by
  cases values with
  | nil =>
      simp only [essentialValues, elementValues]
      exact .pure _
  | cons value values =>
      have hvalue := alike_elementValue reader value
      have hvalues := alike_elementValues reader values
      rw [essentialValues, elementValues]
      cases hessential : value.essential? with
      | none =>
          rw [hessential, Option.toList_none, elementValues] at hvalue
          exact hvalue.drop hvalues
      | some value' =>
          rw [hessential, Option.toList_some, elementValues, elementValues,
            bind_pure_unit] at hvalue
          exact hvalue.bind fun _ => hvalues

end

lemma alike_annotated (target reader : String) (info : AnnotationInfo) :
    Alike (ExtractContext.muted (σ := σ)) (annotated target reader info)
      (annotated target reader info.essential) := by
  refine alike_decoded_bind fun type => (alike_relation _ _ _).bind fun _ => ?_
  refine .forM_filterMap _ (fun (name, value) element htaken => ?_) fun (name, value) hpassed => ?_
  · obtain ⟨value', hvalue, rfl⟩ := Option.map_eq_some_iff.mp htaken
    have halike := alike_elementValue (σ := σ) reader value
    rwa [hvalue, Option.toList_some, elementValues, elementValues, bind_pure_unit] at halike
  · have hvalue : value.essential? = none := Option.map_eq_none_iff.mp hpassed
    have halike := alike_elementValue (σ := σ) reader value
    rwa [hvalue, Option.toList_none, elementValues] at halike

lemma alike_annotations (target reader : String) (infos : List AnnotationInfo) :
    Alike (ExtractContext.muted (σ := σ)) (infos.forM (annotated target reader))
      ((infos.map AnnotationInfo.essential).forM (annotated target reader)) :=
  .forM_map infos fun info => alike_annotated target reader info

lemma alike_parameterAnnotations (fqn : String) (position : Nat)
    (slots : List (List AnnotationInfo)) :
    Alike (ExtractContext.muted (σ := σ)) (parameterAnnotations fqn position slots)
      (parameterAnnotations fqn position
        (slots.map fun slot => slot.map AnnotationInfo.essential)) := by
  induction slots generalizing position with
  | nil => exact .pure _
  | cons slot slots ih => exact (alike_annotations _ fqn slot).bind fun _ => ih (position + 1)

/-! ## Method bodies -/

lemma alike_instruction (code : Instruction) :
    Alike (ExtractContext.muted (σ := σ)) (instruction code) (instruction code) := by
  have haccess (kind : RelationKind) (ref : MemberRef) :
      let access : Extract σ Unit := if ref.name.toList.contains '$' then pure ()
        else decoded (Signature.decodeClassName ref.owner) >>= fun owner =>
          relationFromScope kind (owner ++ "." ++ ref.name)
      Alike ExtractContext.muted access access :=
    .ite (.pure _) (alike_decoded_bind fun _ => alike_relationFromScope _ _)
  obtain ⟨offset, opcode, opcodeClass, operand⟩ := code
  cases operand with
  | type name =>
      cases opcodeClass with
      | other => exact .pure _
      | _ => exact alike_decoded_bind fun _ => alike_relationFromScope _ _
  | member ref =>
      cases opcodeClass with
      | fieldRead => exact haccess .reads ref
      | fieldWrite => exact haccess .writes ref
      | invoke =>
          exact alike_decoded_bind fun _ => alike_decoded_bind fun _ => alike_relationFromScope _ _
      | other => exact .pure _
      | _ => exact alike_noted _ _

/-- An access to a field with a dollar sign does nothing, whatever the name of its class is. -/
lemma instruction_of_isDollarAccess {code : Instruction} (h : code.isDollarAccess = true) :
    instruction (σ := σ) code = pure ⟨⟩ := by
  obtain ⟨offset, opcode, opcodeClass, operand⟩ := code
  cases operand with
  | type name => cases opcodeClass <;> cases h
  | member ref =>
      cases opcodeClass with
      | fieldRead => exact if_pos h
      | fieldWrite => exact if_pos h
      | _ => cases h

lemma alike_code (code : List Instruction) :
    Alike (ExtractContext.muted (σ := σ)) (code.forM instruction)
      ((code.filter (!·.isDollarAccess)).forM instruction) := by
  refine .forM_filter code (fun code _ => alike_instruction code) fun code hpassed => ?_
  rw [instruction_of_isDollarAccess (by simpa using hpassed)]
  exact .pure _

/-! ## Members -/

lemma alike_field (info : FieldInfo) :
    Alike (ExtractContext.muted (σ := σ)) (field info) (field info.essential) := by
  unfold field
  refine .ite (alike_noted _ _) ?_
  refine (alike_inScope _).bind fun owner => alike_get_bind fun context context' hlocation => ?_
  rw [hlocation]
  refine (alike_emit _).bind fun _ => (alike_relation _ _ _).bind fun _ => ?_
  refine alike_decoded_bind fun held => (alike_relation _ _ _).bind fun _ => ?_
  have hrest :=
    (alike_annotations (σ := σ) (owner ++ "." ++ info.name)
    (owner ++ "." ++ info.name) info.annotations).bind
    fun _ => alike_notes info.unknownAttributes fun name =>
      .attributeUnrecognized .field (owner ++ "." ++ info.name) name
  exact .ite ((alike_relation _ _ _).bind fun _ => hrest) hrest

lemma alike_parameters (fqn : String) (position : Nat) (types : List String) :
    Alike (ExtractContext.muted (σ := σ)) (parameters fqn position types)
      (parameters fqn position types) := by
  induction types generalizing position with
  | nil => exact .pure _
  | cons type types ih =>
      refine alike_get_bind fun context context' hlocation => ?_
      rw [hlocation]
      exact (alike_emit _).bind fun _ => ih (position + 1)

lemma alike_methodPart (kind : EntityKind) (owner name : String) (part : MethodPart) :
    Alike (ExtractContext.muted (σ := σ)) (methodPart kind owner name part)
      (methodPart kind owner name part) := by
  cases part with
  | parameters types =>
      refine (alike_relation _ _ _).bind fun _ => (alike_push _ _).bind fun _ => ?_
      exact alike_parameters _ 0 types
  | typeParameters formals => exact .forM _ fun formal => alike_relationFromScope _ _
  | returnType type => exact .ite (.pure _) (alike_relationFromScope _ _)
  | exception type => exact alike_relationFromScope _ _

lemma alike_body (fqn : String) (info : MethodInfo) :
    Alike (ExtractContext.muted (σ := σ)) (body fqn info) (body fqn info.essential) := by
  refine (alike_annotations fqn fqn info.annotations).bind fun _ => ?_
  refine (alike_parameterAnnotations fqn 0 info.parameterAnnotations).bind fun _ => ?_
  unfold MethodInfo.essential
  cases info.code with
  | none => exact .pure _
  | some code => exact alike_code code

/-- What is told of a method once its scope is open. -/
lemma alike_methodItself (fact : Location → EntityFact) (fqn : String) (info : MethodInfo) :
    Alike (ExtractContext.muted (σ := σ))
      (do
        emit (.entity (fact (← get).location))
        if info.hasAnnotationDefault then note (.annotationDefaultIgnored fqn)
        info.unknownAttributes.forM fun name => note (.attributeUnrecognized .method fqn name)
        body fqn info
        discard pop)
      (do
        emit (.entity (fact (← get).location))
        body fqn info.essential
        discard pop) := by
  refine alike_get_bind fun context context' hlocation => ?_
  rw [hlocation]
  refine (alike_emit _).bind fun _ => ?_
  have hrest :=
    (alike_notes info.unknownAttributes fun name => .attributeUnrecognized .method fqn name).drop
    ((alike_body (σ := σ) fqn info).bind fun _ => alike_pop.discard)
  split
  · exact (alike_note _).drop hrest
  · exact hrest

lemma alike_method (info : MethodInfo) :
    Alike (ExtractContext.muted (σ := σ)) (method info) (method info.essential) := by
  unfold method
  refine .ite (alike_noted _ _) ?_
  refine (alike_methodKind info).bind fun kind => (alike_inScope _).bind fun owner => ?_
  refine alike_decoded_bind fun raw => ?_
  rw [visit_methodSignature_bind, visit_methodSignature_bind]
  refine alike_decoded_bind fun signature => ?_
  refine (Alike.forM _ fun part => alike_methodPart kind owner info.name part).bind fun _ => ?_
  have hitself := alike_methodItself (σ := σ) (fun location =>
    ((EntityFact.bare kind (signature.referenceFqn owner info.name) location).declared info.name
      info.access).withSignatures
      raw.parameterList (if info.signature.isSome then some signature.parameterList else none))
    (signature.referenceFqn owner info.name) info
  refine .ite ?_ hitself
  exact Alike.bind (.forM _ fun name => alike_decoded_bind fun _ => alike_relationFromScope _ _)
    fun _ => hitself

/-! ## The pass over a class -/

lemma alike_rawSupertypes (cls : ClassFile) (fqn : String) :
    Alike (ExtractContext.muted (σ := σ)) (rawSupertypes cls fqn) (rawSupertypes cls fqn) := by
  have hinterfaces : Alike (ExtractContext.muted (σ := σ))
      (cls.interfaces.forM fun name => decoded (Signature.decodeClassName name) >>=
        relation .implements fqn)
      (cls.interfaces.forM fun name => decoded (Signature.decodeClassName name) >>=
        relation .implements fqn) :=
    .forM _ fun name => alike_decoded_bind fun _ => alike_relation _ _ _
  unfold rawSupertypes
  cases cls.superName with
  | none => exact .ite ((alike_noted _ _).bind fun _ => hinterfaces) hinterfaces
  | some name => exact alike_decoded_bind fun _ => (alike_relation _ _ _).bind fun _ => hinterfaces

lemma alike_classPart (fqn : String) (part : ClassPart) :
    Alike (ExtractContext.muted (σ := σ)) (classPart fqn part) (classPart fqn part) := by
  cases part with
  | typeParameters formals => exact .forM _ fun formal => alike_relation _ _ _
  | superclass type => exact alike_relation _ _ _
  | interface type => exact alike_relation _ _ _

lemma alike_header (cls : ClassFile) :
    Alike (ExtractContext.muted (σ := σ)) (header cls) (header cls.essential) := by
  have hsame : header (σ := σ) cls.essential = header cls := rfl
  rw [hsame]
  refine alike_decoded_bind fun fqn => ?_
  cases cls.kind? with
  | none => exact (alike_noted _ _).bind fun _ => alike_push _ _
  | some kind =>
      refine alike_get_bind fun context context' hlocation => ?_
      rw [hlocation]
      refine (alike_emit _).bind fun _ => (alike_push _ _).bind fun _ => ?_
      unfold supertypes
      cases cls.signature with
      | none => exact alike_rawSupertypes cls fqn
      | some text =>
          dsimp only
          rw [visit_classSignature]
          exact alike_decoded_bind fun _ => .forM _ fun part => alike_classPart fqn part

lemma alike_outerClass (enclosing : EnclosingMethod) :
    Alike (ExtractContext.muted (σ := σ)) (outerClass enclosing) (outerClass enclosing) :=
  alike_decoded_bind fun _ => (alike_relationFromScope _ _).bind fun _ => alike_markContainment

lemma alike_classMembers (cls : ClassFile) :
    Alike (ExtractContext.muted (σ := σ)) (classMembers cls) (classMembers cls.essential) := by
  have hfields : Alike (ExtractContext.muted (σ := σ)) (cls.fields.forM field)
      (cls.essential.fields.forM field) := by
    refine .forM_map_filter _ (fun info _ => alike_field info) fun info hpassed => ?_
    rw [field, if_pos (by simpa using hpassed)]
    exact alike_note _
  have hmethods : Alike (ExtractContext.muted (σ := σ)) (cls.methods.forM method)
      (cls.essential.methods.forM method) := by
    refine .forM_map_filter _ (fun info _ => alike_method info) fun info hpassed => ?_
    rw [method, if_pos (by simpa using hpassed)]
    exact alike_note _
  have henclosing : Alike (ExtractContext.muted (σ := σ)) (cls.enclosingMethod.forM outerClass)
      (cls.enclosingMethod.forM outerClass) := by
    cases cls.enclosingMethod with
    | none => exact .pure _
    | some enclosing => exact alike_outerClass enclosing
  have hrest :=
    (alike_notes cls.unknownAttributes fun name =>
    .attributeUnrecognized .classFile cls.name name).bind fun _ =>
    hfields.bind fun _ => hmethods
  refine henclosing.bind fun _ => .ite ?_ hrest
  exact (alike_inScope _).bind fun fqn =>
    (alike_annotations fqn fqn cls.annotations).bind fun _ => hrest

lemma alike_classEnd : Alike (ExtractContext.muted (σ := σ)) classEnd classEnd := by
  refine alike_pop.bind fun frame => .ite (.pure _) ?_
  refine (alike_inScope _).bind fun enclosing => ?_
  exact .ite ((alike_noted _ _).bind fun _ => alike_relation _ _ _) (alike_relation _ _ _)

lemma alike_classPass (cls : ClassFile) :
    Alike (ExtractContext.muted (σ := σ)) (classPass cls) (classPass cls.essential) := by
  rw [classPass_eq, classPass_eq]
  exact (alike_header cls).bind fun _ => (alike_classMembers cls).bind fun _ => alike_classEnd

/-- **What says nothing is not read.**  The essential part of a class has no synthetic field, no
bridge, no attribute that nobody knows, no default of an annotation element, no access to a field
with a dollar sign, and no value of an annotation but enum constants; and a class that has none of
these is its own essential part.  From every context, whatever scopes are open and however its sink
answers, the pass over a class and the pass over its essential part come to the same result.  They
make the same writes in the same order and get the same answers, and the sink, the scopes with their
counters, the location and the counts are the same in the end, also where the pass breaks off. -/
theorem classPass_essential (cls : ClassFile) :
    cls.essential.IsEssential ∧ (cls.IsEssential → cls.essential = cls) ∧
    ∀ (σ : Type) [FactSink σ] (context : ExtractContext σ),
      let run := (classPass cls).run.run context
      let run' := (classPass cls.essential).run.run context
      run.1 = run'.1 ∧ run.2.sink = run'.2.sink ∧ run.2.scope = run'.2.scope ∧
      run.2.location = run'.2.location ∧ run.2.counts = run'.2.counts ∧
      ((classPass cls).run.run context.traced).2.sink.calls =
        ((classPass cls.essential).run.run context.traced).2.sink.calls := by
  refine ⟨cls.isEssential_essential, fun h => h.essential_eq, fun σ _ context => ?_⟩
  obtain ⟨hresult, hmuted⟩ := alike_classPass cls context context rfl
  obtain ⟨hsink, hscope, hlocation, hcounts⟩ := eq_of_muted_eq hmuted
  obtain ⟨-, htraced⟩ := alike_classPass cls context.traced context.traced rfl
  exact ⟨hresult, hsink, hscope, hlocation, hcounts,
    congrArg Traced.calls (eq_of_muted_eq htraced).1⟩

/-- A class full of what says nothing, most of which could not be read: a lone bracket is no
descriptor and no name. -/
def clutteredClass : ClassFile where
  minorVersion := 0
  majorVersion := 52
  access := 0x0001
  name := "p/A"
  superName := some "java/lang/Object"
  interfaces := []
  signature := none
  sourceFile := none
  enclosingMethod := none
  annotations := [⟨"Lp/Mark;", [("a", .const 'I'),
    ("b", .array [.nested "(" [], .classLiteral "(",
      .array [.enumConstant "Lp/E;" "ONE", .const 's']])]⟩]
  unknownAttributes := ["Odd"]
  fields := [⟨0x1000, "n", "(", some "(", none, [⟨"(", []⟩], []⟩,
    ⟨0x0002, "m", "I", none, none, [], ["Odd"]⟩]
  methods := [
    ⟨0x1041, "f", "(", some "(", ["["], [⟨"(", []⟩], [], false,
      some [⟨0, 0xb8, .invoke, .member ⟨"[", "g", "("⟩⟩], []⟩,
    ⟨0x0001, "g", "(I)V", none, [], [], [[⟨"Lp/Mark;", [("a", .nested "(" [])]⟩]], true,
      some [⟨0, 0xb2, .fieldRead, .member ⟨"[", "x$1", "("⟩⟩,
        ⟨3, 0xb3, .fieldWrite, .member ⟨"p/A", "m", "I"⟩⟩], ["Odd"]⟩]

/-- The pass over it succeeds, and leaves what it leaves where all of that has been taken away. -/
theorem clutteredClass_classPass_essential :
    clutteredClass.essential.fields.map FieldInfo.name = ["m"] ∧
    clutteredClass.essential.methods.map MethodInfo.name = ["g"] ∧
    clutteredClass.essential.essential = clutteredClass.essential ∧
    ((classPass clutteredClass).run.run packageContext).1 = .ok () ∧
    ((classPass clutteredClass.essential).run.run packageContext).1 = .ok () ∧
    ((classPass clutteredClass).run.run packageContext).2.scope =
      ⟨packageContext.scope.frames, 3, 2⟩ ∧
    ((classPass clutteredClass.essential).run.run packageContext).2.scope =
      ⟨packageContext.scope.frames, 3, 2⟩ := by
  obtain ⟨hessential, -, hsame⟩ := classPass_essential clutteredClass
  obtain ⟨hresult, -, hscope, -⟩ := hsame Recorder packageContext
  have hok : ((classPass clutteredClass).run.run packageContext).1 = .ok () := by decide +kernel
  have hpassed : ((classPass clutteredClass).run.run packageContext).2.scope =
      ⟨packageContext.scope.frames, 3, 2⟩ := by
    decide +kernel
  have hkept := (classPass_essential clutteredClass.essential).2.1 hessential
  refine ⟨by decide +kernel, by decide +kernel, hkept, hok, ?_, hpassed, ?_⟩
  · rw [← hresult, hok]
  · rw [← hscope, hpassed]

end Extract

end JarFacts
