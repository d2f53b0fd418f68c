import JarFacts.ClassFile.Basic
import JarFacts.Proofs.ClassFile.Attribute

/-!
# Reading a class file undoes writing it

`ClassLayout` describes a class file as it is laid out: the entries of its pool, and for every other
part the slots that are written together with what is meant by them.  `bytes` writes it and `model`
says what it means, neither by way of the reader.  `ClassLayout.WellFormed` asks that references
resolve in the pool, that numbers fit into their fields, that code is a sequence of instructions,
and that annotation values nest at most 256 levels deep.

The main result is `parse_bytes_append`: a well-formed class file is read as what it means, whatever
follows it.
-/

namespace JarFacts

open ClassFile

namespace ClassFile

/-! ## Members -/

/-- A field or a method. -/
structure MemberLayout where
  access : UInt16
  name : Ref String
  descriptor : Ref String
  attributes : AttributeTable

namespace MemberLayout

def bytes (item : MemberLayout) : Bytes :=
  Bytes.ofNumber 2 item.access.toNat ++
    (item.name.bytes ++ (item.descriptor.bytes ++ item.attributes.bytes))

/-- Name and descriptor resolve, and the attributes are legal. -/
structure Legal (pool : PoolLayout) (item : MemberLayout) : Prop where
  name : item.name.Resolves pool.Stands .text
  descriptor : item.descriptor.Resolves pool.Stands .text
  attributes : item.attributes.Legal pool

def field (item : MemberLayout) : FieldInfo where
  access := item.access
  name := item.name.target
  descriptor := item.descriptor.target
  signature := item.attributes.summary.signature
  constantValue := item.attributes.summary.constantValue
  annotations := item.attributes.summary.annotations
  unknownAttributes := item.attributes.summary.unknown

def method (item : MemberLayout) : MethodInfo where
  access := item.access
  name := item.name.target
  descriptor := item.descriptor.target
  signature := item.attributes.summary.signature
  exceptions := item.attributes.summary.exceptions
  annotations := item.attributes.summary.annotations
  parameterAnnotations := item.attributes.summary.parameterAnnotations
  hasAnnotationDefault := item.attributes.summary.hasAnnotationDefault
  code := item.attributes.summary.code
  unknownAttributes := item.attributes.summary.unknown

/-- Fields and methods are read alike, up to what is made of the parts. -/
lemma reads_parts {α : Type} {pool : PoolLayout} {item : MemberLayout} (hlegal : item.Legal pool)
    {make : Nat → String → String → Attributes → Reader α} {value : α}
    (hmake : Reads (make item.access.toNat item.name.target item.descriptor.target
      item.attributes.summary) [] value) :
    Reads (do
      let access ← Reader.u2
      let name ← Reader.slot pool.constants.utf8
      let descriptor ← Reader.slot pool.constants.utf8
      let attributes ← Attributes.read pool.constants
      make access name descriptor attributes) item.bytes value := by
  have hattributes := AttributeTable.reads hlegal.attributes
  refine (Reads.u2 item.access.toNat_lt).bind ((Ref.reads hlegal.name).bind ?_)
  exact (Ref.reads hlegal.descriptor).bind (hattributes.bind_last hmake)

lemma reads_field {pool : PoolLayout} {item : MemberLayout} (hlegal : item.Legal pool) :
    Reads (FieldInfo.read pool.constants) item.bytes item.field := by
  refine reads_parts hlegal ?_
  rw [UInt16.ofNat_toNat]
  exact .pure item.field

lemma reads_method {pool : PoolLayout} {item : MemberLayout} (hlegal : item.Legal pool) :
    Reads (MethodInfo.read pool.constants) item.bytes item.method := by
  refine reads_parts hlegal ?_
  rw [UInt16.ofNat_toNat]
  exact .pure item.method

end MemberLayout

end ClassFile

/-! ## Classes -/

/-- A class file. -/
structure ClassLayout where
  minorVersion : UInt16
  majorVersion : UInt16
  pool : PoolLayout
  access : UInt16
  name : Ref String
  superName : Option (Ref String)
  interfaces : List (Ref String)
  fields : List MemberLayout
  methods : List MemberLayout
  attributes : AttributeTable

namespace ClassLayout

/-- The slot of the superclass; a class without one has slot 0. -/
def superSlot (cls : ClassLayout) : UInt16 :=
  match cls.superName with
  | none => 0
  | some ref => ref.slot

def bytes (cls : ClassLayout) : Bytes :=
  Bytes.ofNumber 4 0xCAFEBABE ++ (Bytes.ofNumber 2 cls.minorVersion.toNat ++
    (Bytes.ofNumber 2 cls.majorVersion.toNat ++
      (cls.pool.bytes ++ (Bytes.ofNumber 2 cls.access.toNat ++
      (cls.name.bytes ++
        (Bytes.ofNumber 2 cls.superSlot.toNat ++ (Bytes.counted Ref.bytes cls.interfaces ++
        (Bytes.counted MemberLayout.bytes cls.fields ++
          (Bytes.counted MemberLayout.bytes cls.methods ++
          cls.attributes.bytes)))))))))

def model (cls : ClassLayout) : ClassFile where
  minorVersion := cls.minorVersion.toNat
  majorVersion := cls.majorVersion.toNat
  access := cls.access
  name := cls.name.target
  superName := cls.superName.map Ref.target
  interfaces := cls.interfaces.map Ref.target
  signature := cls.attributes.summary.signature
  sourceFile := cls.attributes.summary.sourceFile
  enclosingMethod := cls.attributes.summary.enclosingMethod
  annotations := cls.attributes.summary.annotations
  unknownAttributes := cls.attributes.summary.unknown
  fields := cls.fields.map MemberLayout.field
  methods := cls.methods.map MemberLayout.method

/-- What stands behind the pool is legal: references resolve to constants of the right kind, numbers
fit into their fields, and members and attributes are legal. -/
structure Linked (cls : ClassLayout) : Prop where
  name : cls.name.Resolves cls.pool.Stands .className
  superName : ∀ ref ∈ cls.superName, ref.Resolves cls.pool.Stands .className
  interfaceCount : cls.interfaces.length < 65536
  interfaces : ∀ ref ∈ cls.interfaces, ref.Resolves cls.pool.Stands .className
  fieldCount : cls.fields.length < 65536
  fields : ∀ item ∈ cls.fields, item.Legal cls.pool
  methodCount : cls.methods.length < 65536
  methods : ∀ item ∈ cls.methods, item.Legal cls.pool
  attributes : cls.attributes.Legal cls.pool

/-- The pool has bytes, and what stands behind it is legal. -/
structure WellFormed (cls : ClassLayout) : Prop extends Linked cls where
  pool : cls.pool.Fits

/-- The bytes behind the pool. -/
def declarationBytes (cls : ClassLayout) : Bytes :=
  Bytes.ofNumber 2 cls.access.toNat ++ (cls.name.bytes ++ (Bytes.ofNumber 2 cls.superSlot.toNat ++
    (Bytes.counted Ref.bytes cls.interfaces ++ (Bytes.counted MemberLayout.bytes cls.fields ++
      (Bytes.counted MemberLayout.bytes cls.methods ++ cls.attributes.bytes)))))

lemma reads_superName {cls : ClassLayout} (hcls : cls.Linked) :
    Reads (Reader.slot cls.pool.constants.className?) (Bytes.ofNumber 2 cls.superSlot.toNat)
      (cls.superName.map Ref.target) := by
  apply Reads.slot
  rw [superSlot, ConstantPool.className?]
  cases hsuper : cls.superName with
  | none => rfl
  | some ref =>
      have hresolves : ref.Resolves cls.pool.Stands .className := hcls.superName ref hsuper
      have hslot : ref.slot.toNat ≠ 0 := Ref.slot_ne_zero hresolves
      dsimp only
      have hfound : cls.pool.constants.className ref.slot.toNat = .ok ref.target :=
        PoolLayout.lookUp_eq_ok_iff.mpr hresolves
      rw [if_neg hslot, hfound]
      rfl

/-- What stands behind the pool is read from its bytes. -/
lemma reads_declaration {cls : ClassLayout} (hcls : cls.Linked) :
    Reads (ClassFile.readDeclaration cls.minorVersion.toNat cls.majorVersion.toNat
      cls.pool.constants) cls.declarationBytes cls.model := by
  have hinterfaces := Reads.counted hcls.interfaceCount fun ref href =>
      Ref.reads (hcls.interfaces ref href)
  have hfields := Reads.counted hcls.fieldCount fun item hitem =>
    MemberLayout.reads_field (hcls.fields item hitem)
  have hmethods := Reads.counted hcls.methodCount fun item hitem =>
    MemberLayout.reads_method (hcls.methods item hitem)
  have hattributes := AttributeTable.reads hcls.attributes
  -- part by part, in the order in which they are written
  refine (Reads.u2 cls.access.toNat_lt).bind
    ((Ref.reads hcls.name).bind ((reads_superName hcls).bind ?_))
  refine hinterfaces.bind (hfields.bind (hmethods.bind (hattributes.bind_last ?_)))
  rw [UInt16.ofNat_toNat]
  exact .pure cls.model

/-- A class is read from its bytes. -/
lemma reads {cls : ClassLayout} (hcls : cls.WellFormed) :
    Reads ClassFile.read cls.bytes cls.model := by
  refine (Reads.u4 (n := 0xCAFEBABE) (by decide)).bind ?_
  refine (Reads.u2 cls.minorVersion.toNat_lt).bind ((Reads.u2 cls.majorVersion.toNat_lt).bind ?_)
  exact (cls.pool.reads hcls.pool).bind (reads_declaration hcls.toLinked)

/-- **Reading a class file undoes writing it.**  Every well-formed class file, with anything behind
it, is read as what it means. -/
theorem parse_bytes_append {cls : ClassLayout} (hcls : cls.WellFormed) (trailing : Bytes) :
    ClassFile.parse (cls.bytes ++ trailing) = .ok cls.model := by
  obtain ⟨log, hrun⟩ := reads hcls trailing #[]
  rw [ClassFile.parse, ClassFile.parseWithLog, hrun]

/-! ## A class whose attribute tables repeat themselves -/

/-- The pool of the class.  The long takes slots 6 and 7. -/
def repeatingPool : PoolLayout :=
  [.utf8 "p/A", .classRef 1, .utf8 "Signature", .utf8 "TT;", .utf8 "TU;", .long 7,
    .utf8 "c", .utf8 "J", .utf8 "ConstantValue", .utf8 "m", .utf8 "()V", .nameAndType 11 12,
    .member .method 2 13, .utf8 "Code", .utf8 "RuntimeVisibleParameterAnnotations",
    .utf8 "RuntimeInvisibleParameterAnnotations", .utf8 "Lp/N;", .utf8 "AnnotationDefault",
    .utf8 "Custom"]

/-- An annotation with an array of a nested annotation. -/
def nestingMark : AnnotationLayout where
  type := ⟨18, "Lp/N;"⟩
  elements := [(⟨11, "m"⟩, .array [.nested ⟨18, "Lp/N;"⟩ [(⟨8, "c"⟩, .const .long 6)]])]

/-- A method that calls itself. -/
def repeatingCode : CodeLayout where
  maxStack := 0
  maxLocals := 0
  body := [.member .invokestatic ⟨14, ⟨"p/A", "m", "()V"⟩⟩ [], .plain 0xB1 []]
  handlers := []
  attributes := [⟨20, [0xFF]⟩]

/-- A class with two signatures, and with a method that has two lists of parameter annotations. -/
def repeatingClass : ClassLayout where
  minorVersion := 0
  majorVersion := 61
  pool := repeatingPool
  access := 0x21
  name := ⟨2, "p/A"⟩
  superName := none
  interfaces := [⟨2, "p/A"⟩]
  fields := [⟨0x18, ⟨8, "c"⟩, ⟨9, "J"⟩, [⟨10, .constantValue ⟨6, .long 7⟩, []⟩]⟩]
  methods :=
    [⟨0x08, ⟨11, "m"⟩, ⟨12, "()V"⟩,
      [⟨16, .parameterAnnotations true [[nestingMark]], [1, 2]⟩, ⟨15, .code repeatingCode, []⟩,
        ⟨17, .parameterAnnotations false [[nestingMark], [nestingMark]], []⟩,
        ⟨19, .annotationDefault, [0xFF]⟩]⟩]
  attributes :=
    [⟨3, .signature ⟨4, "TT;"⟩, []⟩, ⟨20, .other "Custom", [3]⟩, ⟨3, .signature ⟨5, "TU;"⟩, [4]⟩]

lemma nestingMark_legal : nestingMark.Legal repeatingPool 256 where
  type := by decide
  count := by decide
  names := by decide
  values := by
    intro element helement
    obtain rfl := List.mem_singleton.mp helement
    refine .array (by decide) fun value hvalue => ?_
    obtain rfl := List.mem_singleton.mp hvalue
    refine .nested (by decide) (by decide) (by decide) fun element helement => ?_
    obtain rfl := List.mem_singleton.mp helement
    exact .const .long 6

lemma repeatingCode_legal : repeatingCode.Legal repeatingPool where
  body := ⟨⟨rfl, PoolLayout.lookUp_eq_ok_iff.mp rfl⟩, ⟨rfl, trivial⟩, trivial⟩
  bodyLength := by decide
  handlerCount := by decide
  attributeCount := by decide
  attributeLength := by decide

lemma length_nestingMark : nestingMark.bytes.length = 19 := by
  simp [nestingMark, AnnotationLayout.bytes, Bytes.counted, ElementLayout.bytes, Ref.bytes]

lemma markedParameter_legal : AttributeContent.LegalAnnotations repeatingPool [nestingMark] :=
  ⟨by decide, List.forall_mem_singleton.mpr nestingMark_legal⟩

lemma repeatingClass_wellFormed : repeatingClass.WellFormed where
  pool := by decide
  name := by decide
  superName := by simp [repeatingClass]
  interfaceCount := by decide
  interfaces := by decide
  fieldCount := by decide
  fields := by
    refine List.forall_mem_singleton.mpr ⟨by decide, by decide, by decide, ?_⟩
    have hvalue : Ref.Resolves ⟨6, .long 7⟩ repeatingPool.Stands .value := by decide
    exact List.forall_mem_singleton.mpr ⟨by decide, by decide, hvalue⟩
  methodCount := by decide
  methods := by
    refine List.forall_mem_singleton.mpr ⟨by decide, by decide, by decide, ?_⟩
    simp only [List.forall_mem_cons]
    refine ⟨⟨by decide, ?_, by decide, ?_⟩, ⟨by decide, by decide, repeatingCode_legal⟩,
      ⟨by decide, ?_, by decide, ?_⟩, ⟨by decide, by decide, trivial⟩, by simp⟩
    · simp [AttributeLayout.body, AttributeContent.bytes, Bytes.counted, length_nestingMark]
    · exact List.forall_mem_singleton.mpr markedParameter_legal
    · simp [AttributeLayout.body, AttributeContent.bytes, Bytes.counted, length_nestingMark]
    · exact List.forall_mem_cons.mpr
        ⟨markedParameter_legal, List.forall_mem_singleton.mpr markedParameter_legal⟩
  attributes := by
    refine ⟨by decide, ?_⟩
    simp only [repeatingClass, List.forall_mem_cons]
    have hcustom : "Custom" ∉ readAttributes := by decide
    have hfirst : Ref.Resolves ⟨4, "TT;"⟩ repeatingPool.Stands .text := by decide
    have hlast : Ref.Resolves ⟨5, "TU;"⟩ repeatingPool.Stands .text := by decide
    exact ⟨⟨by decide, by decide, hfirst⟩, ⟨by decide, by decide, hcustom⟩,
      ⟨by decide, by decide, hlast⟩, by simp⟩

/-- The last signature counts, and the annotations of each parameter come from both lists. -/
theorem parse_repeatingClass :
    repeatingClass.WellFormed ∧
    ClassFile.parse (repeatingClass.bytes ++ [0xFF]) = .ok repeatingClass.model ∧
      repeatingClass.model.signature = some "TU;" ∧
      repeatingClass.model.unknownAttributes = ["Custom"] ∧
      (repeatingClass.model.fields.map fun field => field.constantValue) = [some (.long 7)] ∧
      (repeatingClass.model.methods.map fun method => method.parameterAnnotations.map List.length) =
        [[2, 1]] :=
  ⟨repeatingClass_wellFormed,
    parse_bytes_append repeatingClass_wellFormed [0xFF], by decide, by decide, by decide,
    by decide⟩

end ClassLayout

end JarFacts
