import JarFacts.Proofs.Extract.ClassPass
import JarFacts.Proofs.Moves

/-!
# The moves of an extraction

However far a pass over a class gets, its context changes in few ways: the sink takes a fact or
refuses it, a scope is opened, the innermost one is closed or marked, and an event is noted.  `Move`
lists them, and every procedure of the pass is made of them (`moves_classPass`).

Two things follow for a pass that may break off anywhere.  A scope that was opened is open still or
was closed again (`lost_of_moves`): none gets lost, on whatever way out.  And the log grows by
remarks (`log_of_moves`), up to the one event that tells of a class whose name does not put it where
it was found.
-/

namespace JarFacts

/-- How many scopes were opened that are neither open nor closed: those that were cut off. -/
def ScopeStack.lost (stack : ScopeStack) : Int :=
  stack.pushes - stack.pops - stack.depth

/-- An event that tells neither of a failure nor of a class that is placed elsewhere than in the
scope around it. -/
def LogEvent.Remark : LogEvent → Prop
  | .parentMismatch _ _ _ => False
  | .extractionAborted _ _ => False
  | _ => True

namespace Extract

open ClassFile

variable {σ : Type} [FactSink σ] {α β : Type} {misplaced : Prop}

/-- A single change of the context.  `misplaced` says whether a class may be found in the wrong
place. -/
inductive Move (misplaced : Prop) (context : ExtractContext σ) : ExtractContext σ → Prop
  | taken {fact : Fact} {sink : σ} (h : FactSink.write fact context.sink = (.ok (), sink)) :
      Move misplaced context { context with sink := sink, counts := context.counts.count fact }
  | refused {fact : Fact} {error : SinkError} {sink : σ}
      (h : FactSink.write fact context.sink = (.error error, sink)) :
      Move misplaced context { context with sink := sink }
  | opened (fqn : String) (kind : ScopeKind) :
      Move misplaced context { context with scope := context.scope.push fqn kind }
  | closed {frame : ScopeFrame} {scope : ScopeStack} (h : context.scope.pop = .ok (frame, scope)) :
      Move misplaced context { context with scope := scope }
  | marked {scope : ScopeStack} (h : context.scope.markContainment = .ok scope) :
      Move misplaced context { context with scope := scope }
  | noted {event : LogEvent} (h : event.Remark ∨ misplaced) :
      Move misplaced context { context with log := context.log.push event }

/-! ## What follows from moves -/

lemma Move.lost_eq {context context' : ExtractContext σ} (h : Move misplaced context context') :
    context'.scope.lost = context.scope.lost := by
  cases h with
  | taken _ => rfl
  | refused _ => rfl
  | noted _ => rfl
  | opened fqn kind =>
      simp only [ScopeStack.lost, ScopeStack.depth, ScopeStack.push, List.length_cons]
      omega
  | closed hpop =>
      unfold ScopeStack.pop at hpop
      split at hpop <;> simp only [Except.ok.injEq, Prod.mk.injEq, reduceCtorEq] at hpop
      next frames hframes =>
        obtain ⟨-, rfl⟩ := hpop
        simp only [ScopeStack.lost, ScopeStack.depth, hframes, List.length_cons]
        omega
  | marked hmark =>
      unfold ScopeStack.markContainment at hmark
      split at hmark <;> simp only [Except.ok.injEq, reduceCtorEq] at hmark
      next frames hframes =>
        subst hmark
        simp only [ScopeStack.lost, ScopeStack.depth, hframes, List.length_cons]

lemma lost_of_moves {context context' : ExtractContext σ}
    (h : Relation.ReflTransGen (Move misplaced) context context') : context'.scope.lost =
      context.scope.lost := by
  induction h with
  | refl => rfl
  | tail _ hmove ih => exact hmove.lost_eq.trans ih

lemma log_of_moves {context context' : ExtractContext σ}
    (h : Relation.ReflTransGen (Move misplaced) context context') :
    ∃ events : List LogEvent, context'.log.toList = context.log.toList ++ events ∧
      ∀ event ∈ events, event.Remark ∨ misplaced := by
  induction h with
  | refl => exact ⟨[], by simp, by simp⟩
  | tail _ hmove ih =>
      obtain ⟨events, hlog, hevents⟩ := ih
      cases hmove with
      | @noted event hevent =>
          refine ⟨events ++ [event], by simp [hlog], ?_⟩
          intro other hmem
          rcases List.mem_append.mp hmem with hold | hnew
          · exact hevents other hold
          · rwa [List.mem_singleton.mp hnew]
      | _ => exact ⟨events, hlog, hevents⟩

/-! ## The primitive steps -/

lemma moves_note {event : LogEvent} (h : event.Remark ∨ misplaced) :
    Moves (Move (σ := σ) misplaced) (note event) :=
  .modify fun _ => .noted h

lemma moves_notes {ι : Type} (items : List ι) {event : ι → LogEvent}
    (h : ∀ item, (event item).Remark) :
    Moves (Move (σ := σ) misplaced) (items.forM fun item => note (event item)) :=
  .forM items fun item _ => moves_note (.inl (h item))

lemma moves_inScope (ask : ScopeStack → Except ScopeError α) :
    Moves (Move (σ := σ) misplaced) (inScope ask) := by
  intro context
  rw [run_inScope]

lemma moves_push (fqn : String) (kind : ScopeKind) :
    Moves (Move (σ := σ) misplaced) (push fqn kind) :=
  .modify fun _ => .opened fqn kind

lemma moves_pop : Moves (Move (σ := σ) misplaced) pop := by
  intro context
  rw [pop, run_bind, run_inScope]
  cases hpop : context.scope.pop with
  | error error => exact .refl
  | ok closed => exact .single (.closed hpop)

lemma moves_markContainment : Moves (Move (σ := σ) misplaced) markContainment := by
  intro context
  rw [markContainment, run_bind, run_inScope]
  cases hmark : context.scope.markContainment with
  | error error => exact .refl
  | ok scope => exact .single (.marked hmark)

lemma moves_emit (fact : Fact) : Moves (Move (σ := σ) misplaced) (emit fact) := by
  intro context
  rw [run_emit]
  rcases hwrite : FactSink.write fact context.sink with ⟨error | _, sink⟩
  · exact .single (.refused hwrite)
  · exact .single (.taken hwrite)

lemma moves_relation (kind : RelationKind) (source target : String) :
    Moves (Move (σ := σ) misplaced) (relation kind source target) :=
  .get_bind fun _ => moves_emit _

lemma moves_relationFromScope (kind : RelationKind) (target : String) :
    Moves (Move (σ := σ) misplaced) (relationFromScope kind target) :=
  (moves_inScope _).bind fun source => moves_relation kind source target

lemma moves_decoded_bind {read : Except SignatureError α} {next : α → Extract σ β}
    (hnext : ∀ value, Moves (Move misplaced) (next value)) :
      Moves (Move misplaced) (decoded read >>= next) := by
  cases read with
  | error error => exact .throw _
  | ok value => exact hnext value

/-! ## The members of a class -/

mutual

lemma moves_elementValue (reader : String) (value : ElementValue) :
    Moves (Move (σ := σ) misplaced) (elementValue reader value) := by
  cases value with
  | enumConstant type name =>
      rw [elementValue]
      exact moves_decoded_bind fun _ => moves_relation _ _ _
  | array values =>
      rw [elementValue]
      exact moves_elementValues reader values
  | nested type elements =>
      rw [elementValue]
      exact moves_note (.inl (by exact trivial))
  | const tag =>
      rw [elementValue]
      exact .pure _
  | classLiteral descriptor =>
      rw [elementValue]
      exact .pure _

lemma moves_elementValues (reader : String) (values : List ElementValue) :
    Moves (Move (σ := σ) misplaced) (elementValues reader values) := by
  cases values with
  | nil =>
      rw [elementValues]
      exact .pure _
  | cons value values =>
      rw [elementValues]
      exact (moves_elementValue reader value).bind fun _ => moves_elementValues reader values

end

lemma moves_annotated (target reader : String) (info : AnnotationInfo) :
    Moves (Move (σ := σ) misplaced) (annotated target reader info) := by
  refine moves_decoded_bind fun type => ?_
  refine (moves_relation _ _ _).bind fun _ => ?_
  exact .forM _ fun element _ => moves_elementValue reader element.2

lemma moves_instruction (code : Instruction) :
    Moves (Move (σ := σ) misplaced) (instruction code) := by
  have haccess (kind : RelationKind) (ref : MemberRef) : Moves (Move (σ := σ) misplaced)
      (if ref.name.toList.contains '$' then pure ()
      else decoded (Signature.decodeClassName ref.owner) >>= fun owner =>
        relationFromScope kind (owner ++ "." ++ ref.name)) :=
    .ite (.pure _) (moves_decoded_bind fun _ => moves_relationFromScope _ _)
  obtain ⟨offset, opcode, opcodeClass, operand⟩ := code
  cases operand with
  | type name =>
      cases opcodeClass with
      | other => exact .pure _
      | _ => exact moves_decoded_bind fun _ => moves_relationFromScope _ _
  | member ref =>
      cases opcodeClass with
      | fieldRead => exact haccess .reads ref
      | fieldWrite => exact haccess .writes ref
      | invoke =>
          exact moves_decoded_bind fun _ => moves_decoded_bind fun _ => moves_relationFromScope _ _
      | other => exact .pure _
      | _ => exact moves_note (.inl (by exact trivial))

lemma moves_parameterAnnotations (fqn : String) (position : Nat)
    (slots : List (List AnnotationInfo)) :
    Moves (Move (σ := σ) misplaced) (parameterAnnotations fqn position slots) := by
  induction slots generalizing position with
  | nil => exact .pure _
  | cons slot slots ih =>
      exact (Moves.forM slot fun info _ => moves_annotated _ fqn info).bind fun _ =>
        ih (position + 1)

lemma moves_body (fqn : String) (info : MethodInfo) :
    Moves (Move (σ := σ) misplaced) (body fqn info) := by
  refine (Moves.forM _ fun annotation _ => moves_annotated _ _ annotation).bind fun _ => ?_
  refine (moves_parameterAnnotations _ 0 _).bind fun _ => ?_
  exact .forM _ fun code _ => moves_instruction code

lemma moves_field (info : FieldInfo) : Moves (Move (σ := σ) misplaced) (field info) := by
  unfold field
  refine .ite (moves_note (.inl (by exact trivial))) ?_
  refine (moves_inScope _).bind fun owner => .get_bind fun _ => ?_
  refine (moves_emit _).bind fun _ => (moves_relation _ _ _).bind fun _ => ?_
  refine moves_decoded_bind fun held => (moves_relation _ _ _).bind fun _ => ?_
  have hrest : Moves (Move (σ := σ) misplaced)
      (do
        info.annotations.forM (annotated (owner ++ "." ++ info.name) (owner ++ "." ++ info.name))
        info.unknownAttributes.forM fun name =>
          note (.attributeUnrecognized .field (owner ++ "." ++ info.name) name)) :=
    (Moves.forM _ fun annotation _ => moves_annotated _ _ annotation).bind fun _ =>
      moves_notes _ fun _ => by exact trivial
  exact .ite ((moves_relation _ _ _).bind fun _ => hrest) hrest

lemma moves_parameters (fqn : String) (position : Nat) (types : List String) :
    Moves (Move (σ := σ) misplaced) (parameters fqn position types) := by
  induction types generalizing position with
  | nil => exact .pure _
  | cons type types ih => exact .get_bind fun _ => (moves_emit _).bind fun _ => ih (position + 1)

lemma moves_methodPart (kind : EntityKind) (owner name : String) (part : MethodPart) :
    Moves (Move (σ := σ) misplaced) (methodPart kind owner name part) := by
  cases part with
  | parameters types =>
      refine (moves_relation _ _ _).bind fun _ => (moves_push _ _).bind fun _ => ?_
      exact moves_parameters _ 0 types
  | typeParameters formals => exact .forM _ fun formal _ => moves_relationFromScope _ _
  | returnType type => exact .ite (.pure _) (moves_relationFromScope _ _)
  | exception type => exact moves_relationFromScope _ _

lemma moves_methodKind (info : MethodInfo) : Moves (Move (σ := σ) misplaced) (methodKind info) :=
  .ite (.pure _) <| .ite (.pure _) <| (moves_inScope _).bind fun _ => .ite (.pure _) (.pure _)

lemma moves_method (info : MethodInfo) : Moves (Move (σ := σ) misplaced) (method info) := by
  unfold method
  refine .ite (moves_note (.inl (by exact trivial))) ?_
  refine (moves_methodKind info).bind fun kind => (moves_inScope _).bind fun owner => ?_
  refine moves_decoded_bind fun raw => ?_
  rw [visit_methodSignature_bind]
  refine moves_decoded_bind fun signature => ?_
  refine (Moves.forM _ fun part _ => moves_methodPart kind owner info.name part).bind fun _ => ?_
  have hbody : Moves (Move (σ := σ) misplaced)
      (do
        info.unknownAttributes.forM fun name =>
          note (.attributeUnrecognized .method (signature.referenceFqn owner info.name) name)
        body (signature.referenceFqn owner info.name) info
        discard pop) :=
    (moves_notes _ fun _ => by exact trivial).bind fun _ => (moves_body _ info).bind fun _ =>
      moves_pop.discard
  -- the declared exceptions are told on a condition, and so is the note on a default
  refine .ite ?_ ?_
  · refine Moves.bind
      (.forM _ fun name _ => moves_decoded_bind fun _ => moves_relationFromScope _ _) fun _ => ?_
    refine .get_bind fun _ => (moves_emit _).bind fun _ => ?_
    exact .ite ((moves_note (.inl (by exact trivial))).bind fun _ => hbody) hbody
  · refine .get_bind fun _ => (moves_emit _).bind fun _ => ?_
    exact .ite ((moves_note (.inl (by exact trivial))).bind fun _ => hbody) hbody

/-! ## The pass over a class -/

lemma moves_rawSupertypes (cls : ClassFile) (fqn : String) :
    Moves (Move (σ := σ) misplaced) (rawSupertypes cls fqn) := by
  have hinterfaces : Moves (Move (σ := σ) misplaced)
      (cls.interfaces.forM fun name => decoded (Signature.decodeClassName name) >>=
        relation .implements fqn) :=
    .forM _ fun name _ => moves_decoded_bind fun _ => moves_relation _ _ _
  unfold rawSupertypes
  cases cls.superName with
  | none =>
      exact .ite ((moves_note (.inl (by exact trivial))).bind fun _ => hinterfaces) hinterfaces
  | some name => exact moves_decoded_bind fun _ => (moves_relation _ _ _).bind fun _ => hinterfaces

lemma moves_classPart (fqn : String) (part : ClassPart) :
    Moves (Move (σ := σ) misplaced) (classPart fqn part) := by
  cases part with
  | typeParameters formals => exact .forM _ fun formal _ => moves_relation _ _ _
  | superclass type => exact moves_relation _ _ _
  | interface type => exact moves_relation _ _ _

lemma moves_header (cls : ClassFile) : Moves (Move (σ := σ) misplaced) (header cls) := by
  refine moves_decoded_bind fun fqn => ?_
  cases cls.kind? with
  | none => exact (moves_note (.inl (by exact trivial))).bind fun _ => moves_push _ _
  | some kind =>
      refine .get_bind fun _ => (moves_emit _).bind fun _ => (moves_push _ _).bind fun _ => ?_
      unfold supertypes
      cases cls.signature with
      | none => exact moves_rawSupertypes cls fqn
      | some text =>
          dsimp only
          rw [visit_classSignature]
          exact moves_decoded_bind fun _ => .forM _ fun part _ => moves_classPart fqn part

lemma moves_outerClass (enclosing : EnclosingMethod) :
    Moves (Move (σ := σ) misplaced) (outerClass enclosing) :=
  moves_decoded_bind fun _ => (moves_relationFromScope _ _).bind fun _ => moves_markContainment

lemma moves_classMembers (cls : ClassFile) :
    Moves (Move (σ := σ) misplaced) (classMembers cls) := by
  have hrest : Moves (Move (σ := σ) misplaced)
      (do
        cls.unknownAttributes.forM fun name =>
          note (.attributeUnrecognized .classFile cls.name name)
        cls.fields.forM field
        cls.methods.forM method) :=
    (moves_notes _ fun _ => by exact trivial).bind fun _ =>
      Moves.bind (.forM _ fun info _ => moves_field info) fun _ =>
      .forM _ fun info _ => moves_method info
  have henclosing : Moves (Move (σ := σ) misplaced) (cls.enclosingMethod.forM outerClass) := by
    cases cls.enclosingMethod with
    | none => exact .pure _
    | some enclosing => exact moves_outerClass enclosing
  refine henclosing.bind fun _ => .ite ?_ hrest
  refine (moves_inScope _).bind fun fqn => ?_
  exact (Moves.forM _ fun info _ => moves_annotated _ _ info).bind fun _ => hrest

lemma moves_classEnd : Moves (Move (σ := σ) True) classEnd := by
  refine moves_pop.bind fun frame => .ite (.pure _) ?_
  refine (moves_inScope _).bind fun enclosing => ?_
  exact .ite ((moves_note (.inr trivial)).bind fun _ => moves_relation _ _ _) (moves_relation _ _ _)

lemma moves_classPass (cls : ClassFile) : Moves (Move (σ := σ) True) (classPass cls) := by
  rw [classPass_eq]
  exact (moves_header cls).bind fun _ => (moves_classMembers cls).bind fun _ => moves_classEnd

end Extract

end JarFacts
