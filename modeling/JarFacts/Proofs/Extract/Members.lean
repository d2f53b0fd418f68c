import JarFacts.Proofs.Extract.Delivery

/-!
# The members of a class tell their accounts

Annotations, method bodies, fields and methods, each related by `Tells` to the account it has in
`JarFacts.Proofs.Extract.Account`.  The lemmas go through the procedures from the inside out and
never look at a sink: what a step does to it is the business of `Tells` alone.

A procedure that takes the source of a relation from the scopes is stated for a stack whose top
frame is known, and its account then names that frame.  Only a method changes the stack.  Its scope
opens with the parameters, which complete its name (`tells_parts`), and closes behind its body
(`tells_methodItself`), so that from outside it is one more scope opened and closed
(`tells_method`).
-/

namespace JarFacts.Extract

open Account ClassFile

variable {σ : Type} [FactSink σ] {location : Location} {floor frames : List ScopeFrame}
  {frame : ScopeFrame} {scope : ScopeStack}

/-! ## Annotations -/

mutual

lemma tells_elementValue (hfloor : floor <:+ scope.frames) (reader : String)
    (value : ElementValue) :
    Tells (σ := σ) location floor scope (elementValue reader value)
      (readsAccount location reader value.enumConstants) ⟨⟩ scope := by
  cases value with
  | enumConstant type name =>
      simp only [elementValue, ElementValue.enumConstants, readsAccount, List.flatMap_singleton]
      exact .decoded_bind hfloor fun enum _ => tells_relation hfloor _ _ _
  | array values =>
      simp only [elementValue, ElementValue.enumConstants]
      exact tells_elementValues hfloor reader values
  | nested type elements =>
      simp only [elementValue, ElementValue.enumConstants]
      exact tells_note (by simp [LogEvent.level])
  | const tag =>
      simp only [elementValue, ElementValue.enumConstants]
      exact .pure _
  | classLiteral descriptor =>
      simp only [elementValue, ElementValue.enumConstants]
      exact .pure _

lemma tells_elementValues (hfloor : floor <:+ scope.frames) (reader : String)
    (values : List ElementValue) :
    Tells (σ := σ) location floor scope (elementValues reader values)
      (readsAccount location reader (enumConstantsIn values)) ⟨⟩ scope := by
  cases values with
  | nil =>
      simp only [elementValues, enumConstantsIn]
      exact .pure _
  | cons value values =>
      simp only [elementValues, enumConstantsIn, readsAccount, List.flatMap_append]
      exact (tells_elementValue hfloor reader value).bind (tells_elementValues hfloor reader values)

end

lemma tells_annotated (hfloor : floor <:+ scope.frames) (target reader : String)
    (info : AnnotationInfo) :
    Tells (σ := σ) location floor scope (annotated target reader info)
      (annotationAccount location target reader info) ⟨⟩ scope := by
  refine .decoded_bind hfloor fun type _ => ?_
  refine (tells_relation hfloor _ _ _).bind (.forM _ ?_)
  rintro ⟨_, value⟩ _
  exact tells_elementValue hfloor reader value

/-! ## Method bodies -/

/-- A relation from the scope on top to a class. -/
lemma tells_relationToClass (hfloor : floor <:+ scope.frames)
    (hscope : scope.frames = frame :: frames) (kind : RelationKind) (name : String) :
    Tells (σ := σ) location floor scope
      (decoded (Signature.decodeClassName name) >>= relationFromScope kind)
      (statesClass location kind frame.fqn name) ⟨⟩ scope :=
  .decoded_bind hfloor fun target _ => tells_relationFromScope hfloor hscope kind target

lemma tells_fieldAccess (hfloor : floor <:+ scope.frames) (hscope : scope.frames = frame :: frames)
    (kind : RelationKind) (ref : MemberRef) :
    Tells (σ := σ) location floor scope
      (if ref.name.toList.contains '$' then pure ()
      else decoded (Signature.decodeClassName ref.owner) >>= fun owner =>
        relationFromScope kind (owner ++ "." ++ ref.name))
      (accessAccount location kind frame.fqn ref) ⟨⟩ scope := by
  unfold accessAccount
  by_cases hdollar : '$' ∈ ref.name.toList
  · rw [if_pos (by simpa using hdollar), if_pos hdollar]
    exact .pure _
  · rw [if_neg (by simpa using hdollar), if_neg hdollar]
    exact .decoded_bind hfloor fun owner _ => tells_relationFromScope hfloor hscope kind _

lemma tells_call (hfloor : floor <:+ scope.frames) (hscope : scope.frames = frame :: frames)
    (ref : MemberRef) :
    Tells (σ := σ) location floor scope
      (do
        let owner ← decoded (Signature.decodeClassName ref.owner)
        let signature ← decoded (MethodSignature.decode ref.descriptor)
        relationFromScope .calls (signature.referenceFqn owner ref.name))
      (callAccount location frame.fqn ref) ⟨⟩ scope := by
  refine .decoded_bind hfloor fun owner _ => ?_
  refine .decoded_bind hfloor fun signature _ => ?_
  exact tells_relationFromScope hfloor hscope _ _

lemma tells_instruction (hfloor : floor <:+ scope.frames) (hscope : scope.frames = frame :: frames)
    (code : Instruction) :
    Tells (σ := σ) location floor scope (instruction code)
      (instructionAccount location frame.fqn code) ⟨⟩
      scope := by
  obtain ⟨offset, opcode, opcodeClass, operand⟩ := code
  cases operand with
  | type name =>
      cases opcodeClass with
      | other => exact .pure _
      | _ =>
        simp only [instructionAccount, OpcodeClass.relation?, Option.toList_some,
          List.flatMap_singleton]
        exact tells_relationToClass hfloor hscope _ name
  | member ref =>
      cases opcodeClass with
      | fieldRead => exact tells_fieldAccess hfloor hscope .reads ref
      | fieldWrite => exact tells_fieldAccess hfloor hscope .writes ref
      | invoke => exact tells_call hfloor hscope ref
      | other => exact .pure _
      | _ => exact tells_note (by simp [LogEvent.level])

lemma tells_parameterAnnotations (hfloor : floor <:+ scope.frames) (fqn : String) (position : Nat)
    (slots : List (List AnnotationInfo)) :
    Tells (σ := σ) location floor scope (parameterAnnotations fqn position slots)
      ((slots.zipIdx position).flatMap fun (slot, position) =>
        slot.flatMap (annotationAccount location (fqn ++ "#" ++ toString position) fqn))
          ⟨⟩ scope := by
  induction slots generalizing position with
  | nil => exact .pure _
  | cons slot slots ih =>
      refine Tells.bind (.forM slot fun info _ => ?_) (ih (position + 1))
      exact tells_annotated hfloor _ fqn info

lemma tells_body (hfloor : floor <:+ scope.frames) (hscope : scope.frames = frame :: frames)
    (method : MethodInfo) :
    Tells (σ := σ) location floor scope (body frame.fqn method)
      (bodyAccount location frame.fqn method) ⟨⟩
      scope := by
  rw [bodyAccount, List.append_assoc]
  refine (Tells.forM _ fun info _ => tells_annotated hfloor _ _ info).bind ?_
  refine (tells_parameterAnnotations hfloor _ 0 _).bind ?_
  exact .forM _ fun code _ => tells_instruction hfloor hscope code

/-! ## Fields -/

lemma tells_field (hfloor : floor <:+ scope.frames) (hscope : scope.frames = frame :: frames)
    (info : FieldInfo) :
    Tells (σ := σ) location floor scope (field info)
      (fieldAccount location frame.fqn info) ⟨⟩ scope := by
  unfold field fieldAccount
  by_cases hsynthetic : info.isSynthetic = true
  · rw [if_pos hsynthetic, if_pos hsynthetic]
    exact tells_note (by simp [LogEvent.level])
  · rw [if_neg hsynthetic, if_neg hsynthetic]
    simp only [List.append_assoc]
    refine (tells_currentFqn hscope).bind_silent ?_
    refine tells_get_bind fun _ _ _ => (tells_emit hfloor _).bind ?_
    refine (tells_relation hfloor _ _ _).bind ?_
    refine .decoded_bind_append hfloor fun held _ => ?_
    refine (tells_relation hfloor _ _ _).bind ?_
    -- the write of a constant comes between, so what stands behind it is stated once for both cases
    have hrest : Tells (σ := σ) location floor scope
        (do
          info.annotations.forM
            (annotated (frame.fqn ++ "." ++ info.name) (frame.fqn ++ "." ++ info.name))
          info.unknownAttributes.forM fun name =>
            note (.attributeUnrecognized .field (frame.fqn ++ "." ++ info.name) name))
        (info.annotations.flatMap
          (annotationAccount location (frame.fqn ++ "." ++ info.name)
            (frame.fqn ++ "." ++ info.name))) ⟨⟩ scope :=
      (Tells.forM _ fun annotation _ => tells_annotated hfloor _ _ annotation).bind_last
        (tells_notes _ _ fun _ => by simp [LogEvent.level])
    exact .ite_bind (fun _ => tells_relation hfloor _ _ _) hrest hrest

/-! ## Methods -/

/-- What the scope of a class stands for. -/
def scopeKind (holder : Option EntityKind) : ScopeKind :=
  holder.elim .placeholder .entity

variable {holder : Option EntityKind} {owner : String} {marked : Bool}

lemma tells_methodKind (hscope : scope.frames = ⟨scopeKind holder, owner, marked⟩ :: frames)
    (info : MethodInfo) :
    Tells (σ := σ) location floor scope (methodKind info) []
      (kindOfMethod holder info.name) scope := by
  unfold methodKind kindOfMethod
  by_cases hclinit : info.name = "<clinit>"
  · rw [if_pos hclinit, if_pos hclinit]
    exact .pure _
  by_cases hinit : info.name = "<init>"
  · rw [if_neg hclinit, if_neg hclinit, if_pos hinit, if_pos hinit]
    exact .pure _
  rw [if_neg hclinit, if_neg hclinit, if_neg hinit, if_neg hinit]
  refine (tells_currentKind hscope).bind_silent ?_
  by_cases hholder : holder = some .annotationType
  · rw [if_pos (by rw [hholder]; rfl), if_pos hholder]
    exact .pure _
  · rw [if_neg (by cases holder <;> simp_all [scopeKind]), if_neg hholder]
    exact .pure _

lemma tells_parameters (hfloor : floor <:+ scope.frames) (fqn : String) (position : Nat)
    (types : List String) :
    Tells (σ := σ) location floor scope (parameters fqn position types)
      ((types.zipIdx position).map fun (type, position) =>
        .ok (.param (.parameter fqn position type location))) ⟨⟩ scope := by
  induction types generalizing position with
  | nil => exact .pure _
  | cons type types ih =>
      refine tells_get_bind fun _ _ _ => ?_
      exact (tells_emit hfloor _).bind (ih (position + 1))

lemma tells_returnType (hfloor : floor <:+ scope.frames) (hscope : scope.frames = frame :: frames)
    (kind : EntityKind) (name type : String) :
    Tells (σ := σ) location floor scope (methodPart kind owner name (.returnType type))
      (if kind = .constructor ∨ kind = .initializer then []
        else states location .returns frame.fqn type) ⟨⟩
      scope := by
  simp only [methodPart]
  by_cases hkind : kind = .constructor ∨ kind = .initializer
  · rw [if_pos hkind, if_pos hkind]
    exact .pure _
  · rw [if_neg hkind, if_neg hkind]
    exact tells_relationFromScope hfloor hscope _ _

/-- The parts of a signature.  The first one opens the scope that the others start from. -/
lemma tells_parts (hfloor : floor <:+ scope.frames) (kind : EntityKind) (name : String)
    (signature : MethodSignature) :
    Tells (σ := σ) location floor scope (signature.parts.forM (methodPart kind owner name))
      (signatureAccount location kind owner (signature.referenceFqn owner name) signature ++
        signature.exceptions.flatMap
          (states location .throws (signature.referenceFqn owner name))) ⟨⟩
      (scope.push (signature.referenceFqn owner name) (.entity kind)) := by
  set fqn := signature.referenceFqn owner name
  set opened := scope.push fqn (.entity kind)
  have hopened : opened.frames = ⟨.entity kind, fqn, false⟩ :: scope.frames := rfl
  have hfloor' : floor <:+ opened.frames := hfloor.trans (List.suffix_cons _ _)
  have hparameters : Tells (σ := σ) location floor scope
      (methodPart kind owner name (.parameters signature.parameters))
      (parametersAccount location owner fqn signature.parameters) ⟨⟩ opened :=
    (tells_relation hfloor _ _ _).bind
      ((tells_push _ _).bind_silent (tells_parameters hfloor' fqn 0 _))
  have htypeParameters : Tells (σ := σ) location floor opened
      (methodPart kind owner name (.typeParameters signature.typeParameters))
      (signature.typeParameters.flatMap fun formal =>
        states location .parametrizedBy fqn formal.render) ⟨⟩ opened :=
    .forM _ fun formal _ => tells_relationFromScope hfloor' hopened _ _
  have hexceptions : Tells (σ := σ) location floor opened
      ((signature.exceptions.map MethodPart.exception).forM (methodPart kind owner name))
      (signature.exceptions.flatMap (states location .throws fqn)) ⟨⟩ opened :=
    .forM_map _ _ fun type _ => tells_relationFromScope hfloor' hopened _ _
  simp only [signatureAccount, List.append_assoc]
  exact hparameters.bind (htypeParameters.bind
    ((tells_returnType hfloor' hopened kind name _).bind hexceptions))

lemma throwsAccount_eq (fqn : String) (signature : MethodSignature) (declared : List String) :
    throwsAccount location fqn signature declared =
      signature.exceptions.flatMap (states location .throws fqn) ++
        if signature.exceptions.isEmpty then declared.flatMap (statesClass location .throws fqn)
        else [] := by
  unfold throwsAccount
  by_cases hempty : signature.exceptions.isEmpty = true
  · rw [if_pos hempty, if_pos hempty, List.isEmpty_iff.mp hempty]
    rfl
  · rw [if_neg hempty, if_neg hempty, List.append_nil]

/-- The generic parameter list is kept where it differs from the raw one. -/
lemma filter_generic (isGeneric : Bool) (generic raw : String) :
    (if isGeneric then some generic else none).filter (· ≠ raw) =
      if isGeneric ∧ generic ≠ raw then some generic else none := by
  cases isGeneric with
  | false => rfl
  | true => by_cases heq : generic = raw <;> simp [heq]

/-- What is told of a method once its scope is open: itself, its annotations and its instructions.
The scope is closed behind that. -/
lemma tells_methodItself (hfloor : floor <:+ scope.frames) (hscope : scope.frames = frame :: frames)
    (fact : Location → EntityFact) (info : MethodInfo) :
    Tells (σ := σ) location floor scope
      (do
        emit (.entity (fact (← get).location))
        if info.hasAnnotationDefault then note (.annotationDefaultIgnored frame.fqn)
        info.unknownAttributes.forM fun name => note (.attributeUnrecognized .method frame.fqn name)
        body frame.fqn info
        discard pop)
      ([.ok (.entity (fact location))] ++ bodyAccount location frame.fqn info) ⟨⟩
      ⟨frames, scope.pushes, scope.pops + 1⟩ := by
  have hrest : Tells (σ := σ) location floor scope
      (do
        info.unknownAttributes.forM fun name => note (.attributeUnrecognized .method frame.fqn name)
        body frame.fqn info
        discard pop)
      (bodyAccount location frame.fqn info) ⟨⟩ ⟨frames, scope.pushes, scope.pops + 1⟩ := by
    refine (tells_notes _ _ fun _ => by simp [LogEvent.level]).bind_silent ?_
    refine (tells_body hfloor hscope info).bind_last ?_
    exact (tells_pop hscope).bind_silent (.pure _)
  refine tells_get_bind fun _ _ _ => (tells_emit hfloor _).bind ?_
  have hnote : Tells (σ := σ) location floor scope
      (note (.annotationDefaultIgnored frame.fqn)) [] ⟨⟩ scope :=
    tells_note (by simp [LogEvent.level])
  split
  · exact hnote.bind_silent hrest
  · exact hrest

/-- A method tells its account and closes the scope that it has opened. -/
lemma tells_method (hfloor : floor <:+ scope.frames)
    (hscope : scope.frames = ⟨scopeKind holder, owner, marked⟩ :: frames) (info : MethodInfo) :
    Tells (σ := σ) location floor scope (method info) (methodAccount location holder owner info) ⟨⟩
      (scope.passed (if info.isBridge then 0 else 1)) := by
  unfold method methodAccount
  by_cases hbridge : info.isBridge = true
  · rw [if_pos hbridge, if_pos hbridge, if_pos hbridge]
    exact tells_note (by simp [LogEvent.level])
  rw [if_neg hbridge, if_neg hbridge, if_neg hbridge]
  refine (tells_methodKind hscope info).bind_silent ?_
  refine (tells_currentFqn hscope).bind_silent ?_
  refine .decoded_bind hfloor fun raw _ => ?_
  rw [visit_methodSignature_bind]
  refine .decoded_bind hfloor fun signature _ => ?_
  -- the exceptions of the signature are told along with its other parts, the declared ones behind
  -- them
  simp only [throwsAccount_eq, List.append_assoc, ← filter_generic]
  rw [← List.append_assoc]
  refine (tells_parts hfloor _ _ _).bind ?_
  set fqn := signature.referenceFqn owner info.name
  set opened := scope.push fqn (.entity (kindOfMethod holder info.name))
  have hopened : opened.frames =
      ⟨.entity (kindOfMethod holder info.name), fqn, false⟩ :: scope.frames := rfl
  have hfloor' : floor <:+ opened.frames := hfloor.trans (List.suffix_cons _ _)
  have hthrows : Tells (σ := σ) location floor opened
      (info.exceptions.forM fun name => decoded (Signature.decodeClassName name) >>=
        relationFromScope .throws)
      (info.exceptions.flatMap (statesClass location .throws fqn)) ⟨⟩ opened :=
    .forM _ fun name _ => tells_relationToClass hfloor' hopened _ name
  refine .ite_bind (fun _ => hthrows) ?_ ?_
  all_goals exact tells_methodItself hfloor' hopened _ info

end JarFacts.Extract
