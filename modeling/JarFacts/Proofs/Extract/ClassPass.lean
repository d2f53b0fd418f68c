import JarFacts.Proofs.Extract.Members
import JarFacts.Sink.Recorder

/-!
# The pass over a class tells its account

The pass is the header, the members and the end (`classPass_eq`).  The header opens the scope of the
class, the members leave it open, and the end closes it; in between the only change to its frame is
the mark that a local class leaves once its place is told.  Put together they give
`tells_classPass`, for every sink whatever it does.

For a sink that takes every fact this is `classPass_writes_classAccount`: the facts written are
those of `classAccount`, which knows no scopes, up to its first refusal, and the pass ends as the
account does.
-/

namespace JarFacts.Extract

open Account ClassFile

variable {σ : Type} [FactSink σ] {location : Location} {floor frames : List ScopeFrame}
  {frame : ScopeFrame} {scope : ScopeStack} {owner : String}

/-! ## Classes -/

lemma tells_rawSupertypes (hfloor : floor <:+ scope.frames) (cls : ClassFile) (fqn : String) :
    Tells (σ := σ) location floor scope (rawSupertypes cls fqn)
      (cls.superName.toList.flatMap (statesClass location .extends fqn) ++
        cls.interfaces.flatMap (statesClass location .implements fqn)) ⟨⟩ scope := by
  have hinterfaces : Tells (σ := σ) location floor scope
      (cls.interfaces.forM fun name => decoded (Signature.decodeClassName name) >>=
        relation .implements fqn)
      (cls.interfaces.flatMap (statesClass location .implements fqn)) ⟨⟩ scope :=
    .forM _ fun name _ => .decoded_bind hfloor fun target _ => tells_relation hfloor _ fqn target
  unfold rawSupertypes
  cases cls.superName with
  | none =>
      dsimp only
      split
      · exact (tells_note (by simp [LogEvent.level])).bind_silent hinterfaces
      · exact hinterfaces
  | some name =>
      rw [Option.toList_some, List.flatMap_singleton]
      refine .decoded_bind_append hfloor fun target _ => ?_
      exact (tells_relation hfloor _ _ _).bind hinterfaces

lemma tells_supertypes (hfloor : floor <:+ scope.frames) (cls : ClassFile) (fqn : String) :
    Tells (σ := σ) location floor scope (supertypes cls fqn)
      (supertypesAccount location fqn cls) ⟨⟩ scope := by
  unfold supertypes supertypesAccount
  cases cls.signature with
  | none => exact tells_rawSupertypes hfloor cls fqn
  | some text =>
      dsimp only
      rw [visit_classSignature]
      refine .decoded_bind hfloor fun signature _ => ?_
      rw [List.append_assoc]
      refine Tells.bind (.forM _ fun formal _ => tells_relation hfloor _ _ _) ?_
      refine (tells_relation hfloor _ _ _).bind ?_
      exact .forM_map _ _ fun type _ => tells_relation hfloor _ _ _

/-- The header tells the type, and leaves the scope of the class open. -/
lemma tells_header (hfloor : floor <:+ scope.frames) (cls : ClassFile) {fqn : String}
    (hname : Signature.decodeClassName cls.name = .ok fqn) :
    Tells (σ := σ) location floor scope (header cls) (typeAccount location fqn cls) ⟨⟩
      (scope.push fqn (scopeKind cls.kind?)) := by
  unfold header typeAccount
  rw [hname, decoded_ok_bind]
  cases cls.kind? with
  | none =>
      refine Tells.bind_silent (tells_note ?_) (tells_push _ _)
      simp [LogEvent.level]
  | some kind =>
      have hfloor' : floor <:+ (scope.push fqn (.entity kind)).frames :=
        hfloor.trans (List.suffix_cons _ _)
      refine tells_get_bind fun _ _ _ => (tells_emit hfloor _).bind ?_
      exact (tells_push _ _).bind_silent (tells_supertypes hfloor' cls fqn)

/-- The place of a local class is told from its scope, which is marked then. -/
lemma tells_enclosing (hfloor : floor <:+ scope.frames) (hscope : scope.frames = frame :: frames)
    (hmarked : frame.containmentEmitted = false) (enclosing : Option EnclosingMethod) :
    Tells (σ := σ) location floor scope (enclosing.forM outerClass)
      (enclosing.toList.flatMap fun enclosing =>
        reading (enclosingFqn enclosing) (states location .inside frame.fqn)) ⟨⟩
      { scope with frames := { frame with containmentEmitted := enclosing.isSome } :: frames } := by
  cases enclosing with
  | none =>
      have hsame :
          ({ scope with frames := { frame with containmentEmitted := false } :: frames } :
          ScopeStack) =
          scope := by
        rw [← hmarked, ← hscope]
      rw [Option.isSome_none, hsame]
      exact .pure _
  | some enclosing =>
      rw [Option.toList_some, List.flatMap_singleton]
      refine .decoded_bind hfloor fun parent _ => ?_
      exact (tells_relationFromScope hfloor hscope _ _).bind_last (tells_markContainment hscope)

/-- Everything between the header of a class and its end: its scope is open, and still is
afterwards. -/
def classMembers (cls : ClassFile) : Extract σ Unit := do
  cls.enclosingMethod.forM outerClass
  if cls.kind?.isSome then
    let fqn ← currentFqn
    cls.annotations.forM (annotated fqn fqn)
  cls.unknownAttributes.forM fun name => note (.attributeUnrecognized .classFile cls.name name)
  cls.fields.forM field
  cls.methods.forM method

lemma classPass_eq (cls : ClassFile) :
    (classPass cls : Extract σ Unit) = (do header cls; classMembers cls; classEnd) := by
  unfold classPass classMembers
  by_cases hkind : cls.kind?.isSome = true
  · simp [hkind, bind_assoc]
  · simp [hkind, bind_assoc]

lemma foldl_passed (methods : List MethodInfo) (stack : ScopeStack) :
    methods.foldl (fun stack info => stack.passed (if info.isBridge then 0 else 1)) stack =
      stack.passed (methods.countP fun info => !info.isBridge) := by
  induction methods generalizing stack with
  | nil => rfl
  | cons info methods ih =>
      rw [List.foldl_cons, ih, List.countP_cons]
      cases info.isBridge <;> simp [ScopeStack.passed, Nat.add_assoc, Nat.add_comm]

/-- The methods of a class tell their accounts one after the other. -/
lemma tells_methods {holder : Option EntityKind} {marked : Bool} (hfloor : floor <:+ frames)
    (hscope : scope.frames = ⟨scopeKind holder, owner, marked⟩ :: frames)
    (methods : List MethodInfo) :
    Tells (σ := σ) location floor scope (methods.forM method)
      (methods.flatMap (methodAccount location holder owner)) ⟨⟩
      (scope.passed (methods.countP fun info => !info.isBridge)) := by
  rw [← foldl_passed]
  -- a method counts a push and a pop, but the frames between two methods are always those of the
  -- class
  refine .forM_of_keeps (fun stack => stack.frames = ⟨scopeKind holder, owner, marked⟩ :: frames)
    _ _ ?_ ?_ hscope
  · intro info _ stack hstack
    exact tells_method (hstack ▸ hfloor.trans (List.suffix_cons _ _)) hstack info
  · intro info _ stack hstack
    exact hstack

lemma tells_classMembers (hfloor : floor <:+ frames) (cls : ClassFile)
    (hscope : scope.frames = ⟨scopeKind cls.kind?, owner, false⟩ :: frames) :
    Tells (σ := σ) location floor scope (classMembers cls) (membersAccount location owner cls) ⟨⟩
      (ScopeStack.passed
        { scope with frames := ⟨scopeKind cls.kind?, owner, cls.enclosingMethod.isSome⟩ :: frames }
        (cls.methods.countP fun info => !info.isBridge)) := by
  set placed : ScopeStack :=
    { scope with frames := ⟨scopeKind cls.kind?, owner, cls.enclosingMethod.isSome⟩ :: frames }
  have hplaced : placed.frames =
      ⟨scopeKind cls.kind?, owner, cls.enclosingMethod.isSome⟩ :: frames := rfl
  have hfloor' : floor <:+ placed.frames := hfloor.trans (List.suffix_cons _ _)
  have hrest : Tells (σ := σ) location floor placed
      (do
        cls.unknownAttributes.forM fun name =>
          note (.attributeUnrecognized .classFile cls.name name)
        cls.fields.forM field
        cls.methods.forM method)
      (cls.fields.flatMap (fieldAccount location owner) ++
        cls.methods.flatMap (methodAccount location cls.kind? owner)) ⟨⟩
      (placed.passed (cls.methods.countP fun info => !info.isBridge)) := by
    refine (tells_notes _ _ fun _ => by simp [LogEvent.level]).bind_silent ?_
    exact Tells.bind (.forM _ fun info _ => tells_field hfloor' hplaced info)
      (tells_methods hfloor hplaced _)
  have hannotations : Tells (σ := σ) location floor placed
      (cls.annotations.forM (annotated owner owner))
      (cls.annotations.flatMap (annotationAccount location owner owner)) ⟨⟩ placed :=
    .forM _ fun info _ => tells_annotated hfloor' _ _ info
  simp only [membersAccount, List.append_assoc]
  refine (tells_enclosing (hscope ▸ hfloor.trans (List.suffix_cons _ _)) hscope rfl _).bind ?_
  by_cases hkind : cls.kind?.isSome = true
  · rw [if_pos hkind, if_pos hkind]
    exact (tells_currentFqn hplaced).bind_silent (hannotations.bind hrest)
  · rw [if_neg hkind, if_neg hkind]
    exact hrest

/-- At its end a class is placed, unless it is none or has been placed already. -/
lemma tells_classEnd (hfloor : floor <:+ frames) (hframes : frames ≠ []) (cls : ClassFile)
    (hscope : scope.frames = ⟨scopeKind cls.kind?, owner, cls.enclosingMethod.isSome⟩ :: frames) :
    Tells (σ := σ) location floor scope classEnd (placeAccount location owner cls) ⟨⟩
      ⟨frames, scope.pushes, scope.pops + 1⟩ := by
  obtain ⟨outer, others, rfl⟩ := List.exists_cons_of_ne_nil hframes
  unfold placeAccount
  refine (tells_pop hscope).bind_silent ?_
  have hplace : (scopeKind cls.kind? = .placeholder ∨ cls.enclosingMethod.isSome = true) ↔
      ¬(cls.kind?.isSome ∧ cls.enclosingMethod.isNone) := by
    cases cls.kind? <;> cases cls.enclosingMethod <;> simp [scopeKind]
  by_cases hplaced : scopeKind cls.kind? = .placeholder ∨ cls.enclosingMethod.isSome = true
  · rw [if_pos hplaced, if_neg (hplace.mp hplaced)]
    exact .pure _
  · rw [if_neg hplaced, if_pos (not_not.mp (mt hplace.mpr hplaced))]
    refine (tells_currentFqn rfl).bind_silent ?_
    dsimp only
    split
    · refine Tells.bind_silent (tells_note ?_) (tells_relation hfloor _ _ _)
      simp [LogEvent.level]
    · exact tells_relation hfloor _ _ _

/-- The pass over a class tells its account, and leaves the scopes as they were. -/
lemma tells_classPass (cls : ClassFile) (hscope : scope.frames ≠ []) :
    Tells (σ := σ) location scope.frames scope (classPass cls) (classAccount location cls) ⟨⟩
      (scope.passed (1 + cls.methods.countP fun info => !info.isBridge)) := by
  rw [classPass_eq]
  unfold classAccount
  cases hname : Signature.decodeClassName cls.name with
  | error error =>
      have hrefused :
          Tells (σ := σ) location scope.frames scope (header cls)
            [.error (.signature error)] ⟨⟩ scope := by
        unfold header
        rw [hname]
        exact fun _ _ log => ⟨log, scope, .refl log, List.suffix_rfl, rfl⟩
      exact hrefused.bind_of_refused
  | ok fqn =>
      set methods := cls.methods.countP fun info => !info.isBridge
      set closing : ScopeStack :=
        ⟨⟨scopeKind cls.kind?, fqn, cls.enclosingMethod.isSome⟩ :: scope.frames,
        scope.pushes + 1 + methods, scope.pops + methods⟩
      have hopened : (scope.push fqn (scopeKind cls.kind?)).frames =
          ⟨scopeKind cls.kind?, fqn, false⟩ :: scope.frames := rfl
      have hend : Tells (σ := σ) location scope.frames closing classEnd
          (placeAccount location fqn cls) ⟨⟩
          (scope.passed (1 + methods)) := by
        have hpassed : scope.passed (1 + methods) =
            ⟨scope.frames, closing.pushes, closing.pops + 1⟩ := by
          simp only [ScopeStack.passed, closing, ScopeStack.mk.injEq, true_and]
          omega
        rw [hpassed]
        exact tells_classEnd List.suffix_rfl hscope cls rfl
      rw [reading_ok, List.append_assoc]
      refine (tells_header List.suffix_rfl cls hname).bind ?_
      exact (tells_classMembers List.suffix_rfl cls hopened).bind hend

/-- **The stackless description of a pass.**  Whatever scopes are open, as long as one is, and
wherever the facts are located, a sink that takes everything is given the facts of the class's
account up to its first refusal, one by one and nothing else; the pass succeeds exactly when the
account has no refusal, and otherwise fails with the first. -/
theorem classPass_writes_classAccount (cls : ClassFile) (context : ExtractContext σ)
    (hscope : context.scope.frames ≠ []) (hsink : FactSink.AcceptsAll context.sink) :
    ((classPass cls).run.run context).1 =
      (classAccount context.location cls).verdict.mapError Refusal.error ∧
      ((classPass cls).run.run context).2.sink =
        FactSink.after context.sink ((classAccount context.location cls).facts.map .fact) :=
  (tells_classPass cls hscope).of_acceptsAll hsink

/-- A class of a constant field and two methods: one that calls another class, and one whose
descriptor ends unexpectedly. -/
def truncatedMethodClass : ClassFile where
  minorVersion := 0
  majorVersion := 52
  access := 0x0001
  name := "p/A"
  superName := some "java/lang/Object"
  interfaces := []
  signature := none
  sourceFile := none
  enclosingMethod := none
  annotations := []
  unknownAttributes := []
  fields := [⟨0x0012, "n", "I", none, some (.int 7), [], []⟩]
  methods := [
    ⟨0x0001, "f", "(I)V", none, [], [], [], false,
      some [⟨0, 0xb8, .invoke, .member ⟨"q/B", "g", "()V"⟩⟩], []⟩,
    ⟨0x0001, "h", "(", none, [], [], [], false, none, []⟩]

/-- An extraction to a recorder, with the scope of the package `p` open. -/
def packageContext : ExtractContext Recorder where
  sink := .new none false
  scope := ScopeStack.empty.push "p" (.entity .package)
  location := .ofClassFile "p" "p.A"
  counts := .zero
  log := #[]

/-- The account of `truncatedMethodClass` ends at its second method: eleven facts are written, the
call last. -/
theorem classPass_writes_truncatedMethodClass :
    packageContext.scope.frames ≠ [] ∧ FactSink.AcceptsAll packageContext.sink ∧
      ((classPass truncatedMethodClass).run.run packageContext).1 =
        .error (.signature (.truncated "(")) ∧
      ((classPass truncatedMethodClass).run.run packageContext).2.sink.accepted.size = 11 ∧
      ((classPass truncatedMethodClass).run.run packageContext).2.sink.accepted.back? =
        some (.fact (.relation ⟨.calls, "p.A.f(int)", "q.B.g()", .ofClassFile "p" "p.A"⟩)) := by
  have hscope : packageContext.scope.frames ≠ [] := by decide
  have hsink : FactSink.AcceptsAll packageContext.sink := Recorder.acceptsAll #[]
  obtain ⟨hresult, hwritten⟩ :=
    classPass_writes_classAccount truncatedMethodClass packageContext hscope hsink
  rw [hresult, hwritten]
  exact ⟨hscope, hsink, by decide, by decide, by decide⟩

end JarFacts.Extract
