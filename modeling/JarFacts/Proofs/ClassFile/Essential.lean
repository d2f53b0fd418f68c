import Mathlib.Data.List.Basic
import JarFacts.ClassFile.Basic

/-!
# What a class can leave out

Much of a class says nothing: methods and fields that the compiler made, accesses to fields that it
named, attributes that nobody knows, the default of an annotation element, and all values of
annotations but enum constants.  `ClassFile.essential` is the class without them.

`ClassFile.IsEssential` lists what is not there any more.  Everything that is left meets it
(`ClassFile.isEssential_essential`), and a class that meets it loses nothing
(`ClassFile.IsEssential.essential_eq`), so that nothing else is left out.
-/

namespace JarFacts

namespace ClassFile

/-! ## Leaving out -/

mutual

/-- The value without what is no enum constant, if it is one itself or an array. -/
def ElementValue.essential? : ElementValue → Option ElementValue
  | .enumConstant type name => some (.enumConstant type name)
  | .array values => some (.array (essentialValues values))
  | .nested _ _ => none
  | .const _ => none
  | .classLiteral _ => none

/-- The enum constants and arrays among the values, at any depth. -/
def essentialValues : List ElementValue → List ElementValue
  | [] => []
  | value :: values => value.essential?.toList ++ essentialValues values

end

/-- The annotation without values that are no enum constants. -/
def AnnotationInfo.essential (info : AnnotationInfo) : AnnotationInfo :=
  { info with elements := info.elements.filterMap fun (name, value) =>
    value.essential?.map (name, ·) }

/-- Is it an access to a field with a dollar sign in its name? -/
def Instruction.isDollarAccess (code : Instruction) : Bool :=
  match code.opcodeClass, code.operand with
  | .fieldRead, .member field => field.name.toList.contains '$'
  | .fieldWrite, .member field => field.name.toList.contains '$'
  | _, _ => false

end ClassFile

open ClassFile

/-- The field without attributes that nobody knows, and with the essential annotations. -/
def FieldInfo.essential (field : FieldInfo) : FieldInfo :=
  { field with
    annotations := field.annotations.map AnnotationInfo.essential
    unknownAttributes := [] }

/-- The method without what says nothing. -/
def MethodInfo.essential (method : MethodInfo) : MethodInfo :=
  { method with
    annotations := method.annotations.map AnnotationInfo.essential
    parameterAnnotations := method.parameterAnnotations.map fun slot =>
      slot.map AnnotationInfo.essential
    hasAnnotationDefault := false
    code := method.code.map fun code => code.filter (!·.isDollarAccess)
    unknownAttributes := [] }

/-- The class without what says nothing, synthetic fields and bridges included. -/
def ClassFile.essential (cls : ClassFile) : ClassFile :=
  { cls with
    annotations := cls.annotations.map AnnotationInfo.essential
    unknownAttributes := []
    fields := (cls.fields.filter (!·.isSynthetic)).map FieldInfo.essential
    methods := (cls.methods.filter (!·.isBridge)).map MethodInfo.essential }

/-! ## Nothing left to leave out -/

/-- The value is an enum constant, or an array of such, at any depth. -/
inductive ClassFile.ElementValue.IsEssential : ElementValue → Prop
  | enumConstant (type name : String) : IsEssential (.enumConstant type name)
  | array {values : List ElementValue} (h : ∀ value ∈ values, value.IsEssential) :
      IsEssential (.array values)

/-- All values of the annotation are enum constants. -/
def ClassFile.AnnotationInfo.IsEssential (info : AnnotationInfo) : Prop :=
  ∀ element ∈ info.elements, element.2.IsEssential

/-- Everything about the field says something. -/
structure FieldInfo.IsEssential (field : FieldInfo) : Prop where
  isSynthetic : field.isSynthetic = false
  annotations : ∀ info ∈ field.annotations, info.IsEssential
  unknownAttributes : field.unknownAttributes = []

/-- Everything about the method says something. -/
structure MethodInfo.IsEssential (method : MethodInfo) : Prop where
  isBridge : method.isBridge = false
  annotations : ∀ info ∈ method.annotations, info.IsEssential
  parameterAnnotations : ∀ slot ∈ method.parameterAnnotations, ∀ info ∈ slot, info.IsEssential
  hasAnnotationDefault : method.hasAnnotationDefault = false
  code : ∀ body ∈ method.code, ∀ code ∈ body, code.isDollarAccess = false
  unknownAttributes : method.unknownAttributes = []

/-- Everything about the class says something. -/
structure ClassFile.IsEssential (cls : ClassFile) : Prop where
  annotations : ∀ info ∈ cls.annotations, info.IsEssential
  unknownAttributes : cls.unknownAttributes = []
  fields : ∀ field ∈ cls.fields, field.IsEssential
  methods : ∀ method ∈ cls.methods, method.IsEssential

mutual

lemma isEssential_of_essential? {value value' : ElementValue} (h : value.essential? = some value') :
    value'.IsEssential := by
  cases value with
  | enumConstant type name =>
      rw [ElementValue.essential?] at h
      obtain rfl := Option.some.inj h
      exact .enumConstant type name
  | array values =>
      rw [ElementValue.essential?] at h
      obtain rfl := Option.some.inj h
      exact .array (isEssential_essentialValues values)
  | nested type elements =>
      rw [ElementValue.essential?] at h
      cases h
  | const tag =>
      rw [ElementValue.essential?] at h
      cases h
  | classLiteral descriptor =>
      rw [ElementValue.essential?] at h
      cases h

lemma isEssential_essentialValues (values : List ElementValue) :
    ∀ value ∈ essentialValues values, value.IsEssential := by
  cases values with
  | nil =>
      rw [essentialValues]
      exact List.forall_mem_nil _
  | cons value values =>
      rw [essentialValues]
      intro value' hmem
      rcases List.mem_append.mp hmem with hhead | hrest
      · exact isEssential_of_essential? (Option.mem_toList.mp hhead)
      · exact isEssential_essentialValues values value' hrest

end

lemma essentialValues_eq_self {values : List ElementValue}
    (h : ∀ value ∈ values, value.essential? = some value) :
    essentialValues values = values := by
  induction values with
  | nil => rw [essentialValues]
  | cons value values ih =>
      rw [List.forall_mem_cons] at h
      rw [essentialValues, h.1, ih h.2]
      rfl

lemma ClassFile.ElementValue.IsEssential.essential?_eq {value : ElementValue}
    (h : value.IsEssential) :
    value.essential? = some value := by
  induction h with
  | enumConstant type name => rw [ElementValue.essential?]
  | array h ih => rw [ElementValue.essential?, essentialValues_eq_self ih]

lemma isEssential_annotation (info : AnnotationInfo) : info.essential.IsEssential := by
  intro element hmem
  obtain ⟨⟨name, value⟩, -, hsome⟩ := List.mem_filterMap.mp hmem
  obtain ⟨value', hvalue, rfl⟩ := Option.map_eq_some_iff.mp hsome
  exact isEssential_of_essential? hvalue

lemma isEssential_annotations (infos : List AnnotationInfo) :
    ∀ info ∈ infos.map AnnotationInfo.essential, info.IsEssential := by
  rw [List.forall_mem_map]
  exact fun info _ => isEssential_annotation info

lemma essential_annotation {info : AnnotationInfo} (h : info.IsEssential) :
    info.essential = info := by
  obtain ⟨type, elements⟩ := info
  rw [AnnotationInfo.essential, AnnotationInfo.mk.injEq]
  refine ⟨rfl, ?_⟩
  have hkept : ∀ element ∈ elements, element.2.essential?.map (element.1, ·) = some element := by
    intro element hmem
    rw [(h element hmem).essential?_eq, Option.map_some]
  rw [List.filterMap_congr hkept, List.filterMap_some]

/-- Where every item is kept as it is, so is the list. -/
lemma map_eq_self {α : Type} {change : α → α} {items : List α}
    (h : ∀ item ∈ items, change item = item) :
    items.map change = items := by
  have hkept : items.map change = items.map id := List.map_congr_left h
  rw [hkept, List.map_id]

lemma essential_annotations {infos : List AnnotationInfo} (h : ∀ info ∈ infos, info.IsEssential) :
    infos.map AnnotationInfo.essential = infos :=
  map_eq_self fun info hmem => essential_annotation (h info hmem)

lemma FieldInfo.isEssential_essential {field : FieldInfo} (h : field.isSynthetic = false) :
    field.essential.IsEssential :=
  ⟨h, isEssential_annotations _, rfl⟩

lemma FieldInfo.IsEssential.essential_eq {field : FieldInfo} (h : field.IsEssential) :
    field.essential = field := by
  rw [essential, essential_annotations h.annotations, ← h.unknownAttributes]

lemma MethodInfo.isEssential_essential {method : MethodInfo} (h : method.isBridge = false) :
    method.essential.IsEssential := by
  refine ⟨h, isEssential_annotations _, ?_, rfl, ?_, rfl⟩
  · exact List.forall_mem_map.mpr fun slot _ => isEssential_annotations slot
  · intro body hbody code hmem
    obtain ⟨whole, -, rfl⟩ := Option.map_eq_some_iff.mp hbody
    simpa using (List.mem_filter.mp hmem).2

lemma MethodInfo.IsEssential.essential_eq {method : MethodInfo} (h : method.IsEssential) :
    method.essential = method := by
  have hslots : (method.parameterAnnotations.map fun slot => slot.map AnnotationInfo.essential) =
      method.parameterAnnotations :=
    map_eq_self fun slot hmem => essential_annotations (h.parameterAnnotations slot hmem)
  have hcode : (method.code.map fun code => code.filter (!·.isDollarAccess)) = method.code := by
    cases hbody : method.code with
    | none => rfl
    | some code =>
        have hkept : code.filter (!·.isDollarAccess) = code :=
          List.filter_eq_self.mpr fun instruction hmem => by
            simp [h.code code hbody instruction hmem]
        rw [Option.map_some, hkept]
  rw [essential, essential_annotations h.annotations, hslots,
    hcode, ← h.unknownAttributes, ← h.hasAnnotationDefault]

/-- What is left of a class says something, all of it. -/
lemma ClassFile.isEssential_essential (cls : ClassFile) : cls.essential.IsEssential := by
  refine ⟨isEssential_annotations _, rfl, ?_, ?_⟩
  · refine List.forall_mem_map.mpr fun field hmem => FieldInfo.isEssential_essential ?_
    simpa using (List.mem_filter.mp hmem).2
  · refine List.forall_mem_map.mpr fun method hmem => MethodInfo.isEssential_essential ?_
    simpa using (List.mem_filter.mp hmem).2

/-- Nothing else is left out. -/
lemma ClassFile.IsEssential.essential_eq {cls : ClassFile} (h : cls.IsEssential) :
    cls.essential = cls := by
  have hfields : (cls.fields.filter (!·.isSynthetic)).map FieldInfo.essential = cls.fields := by
    rw [List.filter_eq_self.mpr fun field hmem => by simp [(h.fields field hmem).isSynthetic]]
    exact map_eq_self fun field hmem => (h.fields field hmem).essential_eq
  have hmethods : (cls.methods.filter (!·.isBridge)).map MethodInfo.essential = cls.methods := by
    rw [List.filter_eq_self.mpr fun method hmem => by simp [(h.methods method hmem).isBridge]]
    exact map_eq_self fun method hmem => (h.methods method hmem).essential_eq
  rw [essential, essential_annotations h.annotations, hfields, hmethods, ← h.unknownAttributes]

end JarFacts
