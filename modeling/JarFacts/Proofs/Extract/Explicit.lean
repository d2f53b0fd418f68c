import JarFacts.Proofs.Extract.ClassPass
import JarFacts.Proofs.Signature.Declaration

/-!
# Declarations that are not generic

What a class file says without generic signatures can be said with them: a field or a method has its
descriptor, and a class has the types of its superclass and its interfaces (`ClassFile.explicit`).
An extraction takes another way for each of the two.  The supertypes in a header are read and stated
one by one, those in a signature are all read before the first is stated; and the entity of a method
carries a parameter list for each of the texts it was read from.  Both ways are one program, also
where a descriptor cannot be read and where the sink gives up (`Extract.supertypes_explicit`,
`Extract.method_explicit`).
-/

namespace JarFacts

open Signature

namespace Signature

/-- The name of a class that is no array, without the characters that end a name in a type. -/
def IsPlainName (name : String) : Prop :=
  name ≠ "" ∧ name.toList.head? ≠ some '[' ∧ IsSegment name.toList

instance (name : List Char) : Decidable (IsSegment name) :=
  List.decidableBAll (fun c => c ∉ ['<', '.', ';']) name

instance (name : String) : Decidable (IsPlainName name) :=
  inferInstanceAs (Decidable (_ ∧ _ ∧ IsSegment name.toList))

/-- The type of the class with the given name. -/
def typeOfClass (name : String) : String :=
  "L" ++ name ++ ";"

lemma toList_typeOfClass (name : String) :
    (typeOfClass name).toList = (TypeTree.named name.toList []).print := by
  simp [typeOfClass, TypeTree.print, printSuffixes]

lemma IsSegment.fits_named {name : List Char} (h : IsSegment name) :
    (TypeTree.named name []).Fits :=
  ⟨by simp [TypeTree.Legal, LegalSuffixes, h], by simp [TypeTree.nesting, nestingSuffixes]⟩

/-- A plain name is the canonical one up to its slashes. -/
lemma IsPlainName.decodeClassName {name : String} (h : IsPlainName name) :
    decodeClassName name = .ok (canonical (.named name.toList [])) := by
  obtain ⟨hempty, harray, -⟩ := h
  unfold Signature.decodeClassName
  split
  next hnil => exact absurd (String.toList_eq_nil_iff.mp hnil) hempty
  next rest hbracket => exact absurd (congrArg List.head? hbracket) harray
  next => simp [canonical, TypeTree.render, fullName, renderSuffixes, bracketed]

lemma IsPlainName.decodeType_typeOfClass {name : String} (h : IsPlainName name) :
    decodeType (typeOfClass name) = .ok (canonical (.named name.toList [])) := by
  rw [← h.2.2.fits_named.decodeType, ← toList_typeOfClass, String.ofList_toList]

/-- The name of an array is read as a type. -/
lemma decodeClassName_of_array {name : String} (h : name.toList.head? = some '[') :
    decodeClassName name = decodeType name := by
  obtain ⟨rest, hname⟩ : ∃ rest, name.toList = '[' :: rest := ⟨_, List.eq_cons_of_mem_head? h⟩
  unfold decodeClassName
  rw [hname]
  rfl

/-- A class signature that lists the types of plain names is read as these. -/
lemma decode_join_typeOfClass {name : String} {interfaces : List String} (hname : IsPlainName name)
    (hinterfaces : ∀ interface ∈ interfaces, IsPlainName interface) :
    ClassSignature.decode (typeOfClass name ++ String.join (interfaces.map typeOfClass)) =
      .ok ⟨[], canonical (.named name.toList []),
        interfaces.map fun interface => canonical (.named interface.toList [])⟩ := by
  set tree : ClassTree :=
    ⟨[], .named name.toList [],
      interfaces.map fun interface => .named interface.toList []⟩ with htree
  have hlegal : tree.Legal := by
    refine ⟨by simp [htree], hname.2.2.fits_named, fun type htype => ?_⟩
    obtain ⟨interface, hinterface, rfl⟩ := List.mem_map.mp htype
    exact (hinterfaces interface hinterface).2.2.fits_named
  have htext : String.ofList tree.print =
      typeOfClass name ++ String.join (interfaces.map typeOfClass) := by
    rw [← String.ofList_toList (s := typeOfClass name ++ _), String.toList_append,
      String.toList_join, toList_typeOfClass]
    simp only [ClassTree.print, printParameters, htree, List.flatMap_map, toList_typeOfClass]
    rfl
  rw [← htext, hlegal.decode]
  simp [htree, formalNames]

end Signature

/-- A generic signature that is the raw one is left out. -/
lemma EntityFact.withSignatures_self (fact : EntityFact) (raw : String) :
    fact.withSignatures raw (some raw) = fact.withSignatures raw none := by
  simp [EntityFact.withSignatures]

/-! ## Signatures in place of headers -/

/-- The field with a signature, which is its descriptor if it has none. -/
def FieldInfo.explicit (field : FieldInfo) : FieldInfo :=
  { field with signature := some (field.signature.getD field.descriptor) }

/-- The method with a signature, which is its descriptor if it has none. -/
@[simps]
def MethodInfo.explicit (method : MethodInfo) : MethodInfo :=
  { method with signature := some (method.signature.getD method.descriptor) }

lemma MethodInfo.isBridge_explicit (info : MethodInfo) :
    info.explicit.isBridge = info.isBridge := rfl

namespace ClassFile

/-- The signature with the supertypes of the header, if there is a superclass and the names are
plain. -/
def headerSignature? (cls : ClassFile) : Option String :=
  match cls.superName with
  | some name =>
    if IsPlainName name ∧ ∀ interface ∈ cls.interfaces, IsPlainName interface then
      some (typeOfClass name ++ String.join (cls.interfaces.map typeOfClass))
    else none
  | none => none

/-- The class with a signature wherever it can be given one. -/
def explicit (cls : ClassFile) : ClassFile :=
  { cls with
    signature := cls.signature.or cls.headerSignature?
    fields := cls.fields.map FieldInfo.explicit
    methods := cls.methods.map MethodInfo.explicit }

lemma headerSignature?_eq_some {cls : ClassFile} {text : String}
    (h : cls.headerSignature? = some text) :
    ∃ name, cls.superName = some name ∧ IsPlainName name ∧
      (∀ interface ∈ cls.interfaces, IsPlainName interface) ∧
      text = typeOfClass name ++ String.join (cls.interfaces.map typeOfClass) := by
  unfold headerSignature? at h
  split at h
  next name hname =>
    split at h
    next hplain => exact ⟨name, hname, hplain.1, hplain.2, (Option.some.inj h).symm⟩
    next => cases h
  next => cases h

end ClassFile

namespace Extract

open ClassFile

variable {σ : Type} [FactSink σ]

/-- Plain names of interfaces are stated as they come. -/
lemma forM_implements {interfaces : List String}
    (h : ∀ interface ∈ interfaces, IsPlainName interface) (fqn : String) :
    (interfaces.forM fun name => decoded (decodeClassName name) >>=
      relation (σ := σ) .implements fqn) =
      interfaces.forM fun name => relation .implements fqn (canonical (.named name.toList [])) := by
  induction interfaces with
  | nil => rfl
  | cons name rest ih =>
      have hrest := ih fun interface hinterface => h interface (List.mem_cons_of_mem _ hinterface)
      simp only [List.forM_eq_forM, List.forM_cons] at hrest ⊢
      rw [(h name List.mem_cons_self).decodeClassName, decoded_ok_bind, hrest]

/-- Supertypes with plain names are stated in the same way from the header and from a signature. -/
lemma supertypes_explicit (cls : ClassFile) (fqn : String) :
    supertypes (σ := σ) cls.explicit fqn = supertypes cls fqn := by
  cases hsignature : cls.signature with
  | some text => simp only [supertypes, explicit, hsignature, Option.some_or]
  | none =>
      cases hheader : cls.headerSignature? with
      | none =>
          simp only [supertypes, explicit, hsignature, hheader, Option.or_none]
          rfl
      | some text =>
          obtain ⟨name, hsuper, hname, hinterfaces, rfl⟩ := headerSignature?_eq_some hheader
          simp only [supertypes, explicit, hsignature, hheader, Option.none_or]
          rw [visit_classSignature, decode_join_typeOfClass hname hinterfaces, decoded_ok_bind,
            rawSupertypes, hsuper, forM_implements hinterfaces]
          simp only [hname.decodeClassName, decoded_ok_bind, ClassSignature.parts,
            List.forM_eq_forM, List.forM_cons, List.forM_map, classPart]
          rfl

lemma header_explicit (cls : ClassFile) : header (σ := σ) cls.explicit = header cls := by
  unfold header
  simp only [supertypes_explicit]
  rfl

/-- The type of a field is read from its signature or else from its descriptor anyway. -/
lemma field_explicit (info : FieldInfo) : field (σ := σ) info.explicit = field info := rfl

omit [FactSink σ] in
lemma methodKind_explicit (info : MethodInfo) :
    methodKind (σ := σ) info.explicit = methodKind info := rfl

lemma body_explicit (fqn : String) (info : MethodInfo) :
    body (σ := σ) fqn info.explicit = body fqn info := rfl

/-- A method whose signature is its descriptor has one parameter list for both, and one is told. -/
lemma method_explicit (info : MethodInfo) : method (σ := σ) info.explicit = method info := by
  cases hsignature : info.signature with
  | some text =>
      have hinfo : info.explicit = info := by
        rw [MethodInfo.explicit, hsignature, Option.getD_some, ← hsignature]
      rw [hinfo]
  | none =>
      simp only [method, MethodInfo.isBridge_explicit, methodKind_explicit, body_explicit,
        MethodInfo.explicit_name, MethodInfo.explicit_descriptor, MethodInfo.explicit_signature,
        MethodInfo.explicit_exceptions, MethodInfo.explicit_access,
        MethodInfo.explicit_hasAnnotationDefault, MethodInfo.explicit_unknownAttributes,
        hsignature, Option.getD_none, Option.getD_some, visit_methodSignature_bind]
      -- The descriptor is read twice, as itself and as the signature.  Where it is refused both end
      -- there.
      cases MethodSignature.decode info.descriptor with
      | error error => simp only [decoded_error_bind]
      | ok raw => simp [decoded_ok_bind, EntityFact.withSignatures_self]

/-- What a method of the class `owner` tells by the types of its descriptor and by the exceptions
that it declares.  Its entity has no generic signature. -/
def rawMethodAccount (location : Location) (holder : Option EntityKind) (owner : String)
    (info : MethodInfo) (raw : MethodSignature) : Account :=
  let kind := kindOfMethod holder info.name
  let fqn := raw.referenceFqn owner info.name
  signatureAccount location kind owner fqn raw ++
  info.exceptions.flatMap (Account.statesClass location .throws fqn) ++
  [.ok (.entity
    ⟨kind, fqn, some info.name, info.access, some raw.parameterList, none, location⟩)] ++
  bodyAccount location fqn info

/-- A method without a signature tells that and no more when its descriptor is one. -/
lemma methodAccount_explicit {info : MethodInfo} {raw : MethodSignature}
    (hsignature : info.signature = none)
    (hbridge : info.isBridge = false) (hraw : MethodSignature.decode info.descriptor = .ok raw)
    (hexceptions : raw.exceptions = []) (location : Location) (holder : Option EntityKind)
    (owner : String) :
    methodAccount location holder owner info.explicit =
      rawMethodAccount location holder owner info raw := by
  have hthrows : throwsAccount location (raw.referenceFqn owner info.name) raw info.exceptions =
      info.exceptions.flatMap
        (Account.statesClass location .throws (raw.referenceFqn owner info.name)) := by
    rw [throwsAccount, hexceptions]
    rfl
  rw [methodAccount, if_neg (by simp [MethodInfo.isBridge_explicit, hbridge]),
    rawMethodAccount, ← hthrows]
  simp only [MethodInfo.explicit, hsignature, Option.getD_none, Option.getD_some, hraw,
    Account.reading_ok, ne_eq, not_true_eq_false, and_false, if_false]
  rfl

/-- **What is not generic may be said either way.**  The pass over a class does the same, on every
sink and from every state, when each of its fields and methods without a signature is given its
descriptor as one, and the class itself, if it has none, the types of its superclass and interfaces
where these have plain names.  Such a method still throws the exceptions that it declares, and tells
no generic signature.  Behind it stands that the name of a class is read as its type is, and the
name of an array as the type that it is. -/
theorem classPass_explicit (cls : ClassFile) :
    (∀ context : ExtractContext σ, (classPass cls.explicit).run.run context =
      (classPass cls).run.run context) ∧
    (∀ info ∈ cls.methods, info.signature = none → info.isBridge = false → ∀ raw : MethodSignature,
      MethodSignature.decode info.descriptor = .ok raw → raw.exceptions = [] →
      ∀ location holder owner marked frames, ∀ scope : ScopeStack,
        scope.frames = ⟨scopeKind holder, owner, marked⟩ :: frames →
        Tells (σ := σ) location frames scope (method info.explicit)
          (rawMethodAccount location holder owner info raw) ⟨⟩
          (scope.passed 1)) ∧
    (∀ name, IsPlainName name → decodeClassName name = decodeType (typeOfClass name)) ∧
    ∀ name : String, name.toList.head? = some '[' → decodeClassName name = decodeType name := by
  have hpass : classPass (σ := σ) cls.explicit = classPass cls := by
    unfold classPass
    rw [header_explicit]
    simp only [explicit, List.forM_eq_forM, List.forM_map, field_explicit, method_explicit]
    rfl
  refine ⟨fun context => by rw [hpass], ?_, fun name hname => ?_, fun name =>
    decodeClassName_of_array⟩
  · intro info _ hsignature hbridge raw hraw hexceptions location holder owner marked
      frames scope hscope
    have hfloor : frames <:+ scope.frames := hscope ▸ List.suffix_cons _ _
    have htells : Tells (σ := σ) location frames scope (method info.explicit)
        (methodAccount location holder owner info.explicit) ⟨⟩
        (scope.passed (if info.explicit.isBridge then 0 else 1)) :=
      tells_method hfloor hscope info.explicit
    rw [methodAccount_explicit hsignature hbridge hraw hexceptions, MethodInfo.isBridge_explicit,
      hbridge] at htells
    exact htells
  · rw [hname.decodeClassName, hname.decodeType_typeOfClass]

/-- A method that throws. -/
def throwingMethodInfo : MethodInfo :=
  ⟨0x0401, "f", "(I)V", none, ["q/E"], [], [], false, none, []⟩

/-- A class with a superclass, an interface, a field, a method that throws and one whose descriptor
is cut off. -/
def throwingClass : ClassFile where
  minorVersion := 0
  majorVersion := 52
  access := 0x0001
  name := "p/A"
  superName := some "p/B"
  interfaces := ["q/I$J"]
  signature := none
  sourceFile := none
  enclosingMethod := none
  annotations := []
  unknownAttributes := []
  fields := [⟨0x0002, "n", "[I", none, none, [], []⟩]
  methods := [throwingMethodInfo, ⟨0x0401, "g", "(", none, [], [], [], false, none, []⟩]

/-- `packageContext` in the scope of the class. -/
def classContext : ExtractContext Recorder :=
  { packageContext with scope := packageContext.scope.push "p.A" (.entity .classType) }

/-- Everything there gets a signature, the pass still ends at the descriptor that is cut off, and
the method still throws what it declares. -/
theorem throwingClass_classPass_explicit :
    throwingClass.explicit.signature = some "Lp/B;Lq/I$J;" ∧
    throwingClass.explicit.fields.map FieldInfo.signature = [some "[I"] ∧
    throwingClass.explicit.methods.map MethodInfo.signature = [some "(I)V", some "("] ∧
    (classPass throwingClass.explicit).run.run packageContext =
      (classPass throwingClass).run.run packageContext ∧
    ((classPass throwingClass.explicit).run.run packageContext).1 =
      .error (.signature (.truncated "(")) ∧
    ((method throwingMethodInfo.explicit).run.run classContext).2.sink =
      FactSink.after classContext.sink
      ([.relation ⟨.inside, "p.A.f(int)", "p.A", classContext.location⟩,
        .param (.parameter "p.A.f(int)" 0 "int" classContext.location),
        .relation ⟨.returns, "p.A.f(int)", "void", classContext.location⟩,
        .relation ⟨.throws, "p.A.f(int)", "q.E", classContext.location⟩,
        .entity ⟨.method, "p.A.f(int)", some "f", 0x0401, some "(int)", none,
          classContext.location⟩].map .fact) ∧
    decodeClassName "q/I$J" = decodeType "Lq/I$J;" ∧
    decodeClassName "[Lp/B;" = decodeType "[Lp/B;" := by
  obtain ⟨hpass, hmethods, hplain, harray⟩ := classPass_explicit (σ := Recorder) throwingClass
  have hmethod :
      Tells (σ := Recorder) classContext.location packageContext.scope.frames classContext.scope
      (method throwingMethodInfo.explicit)
      (rawMethodAccount classContext.location (some .classType) "p.A" throwingMethodInfo
        ⟨[], ["int"], "void", []⟩) ⟨⟩
      (classContext.scope.passed 1) :=
    hmethods throwingMethodInfo List.mem_cons_self rfl (by decide) _
      (by rfl) rfl _ _ _ false _ _ rfl
  refine ⟨by decide +kernel, rfl, rfl, hpass packageContext, ?_, ?_, hplain "q/I$J" (by decide),
    harray "[Lp/B;" (by decide)⟩
  · rw [hpass]
    decide +kernel
  · rw [(hmethod.of_acceptsAll (Recorder.acceptsAll #[])).2]
    rfl

end Extract

end JarFacts
