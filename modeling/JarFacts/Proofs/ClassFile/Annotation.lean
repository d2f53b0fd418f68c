import JarFacts.ClassFile.Annotations
import JarFacts.Proofs.ClassFile.Pool

/-!
# Annotations in bytes

An element value is a tag and what the tag calls for; arrays and nested annotations hold element
values again. `ElementLayout.Legal pool levels` bounds the nesting along with everything else that
has to hold: a value of the lowest level holds no others, and what stands inside a value is one
level below it.  A value that is legal within some number of levels is read by the reader that
allows as many.
-/

namespace JarFacts.ClassFile

/-- The types of primitive and string constants. -/
inductive ConstantType where
  | byte
  | char
  | double
  | float
  | int
  | long
  | short
  | boolean
  | string
  deriving DecidableEq

def ConstantType.tag : ConstantType → Char
  | byte => 'B'
  | char => 'C'
  | double => 'D'
  | float => 'F'
  | int => 'I'
  | long => 'J'
  | short => 'S'
  | boolean => 'Z'
  | string => 's'

/-- An element value, with the slots it refers to.  The slot of a constant is never looked up. -/
inductive ElementLayout where
  | const (type : ConstantType) (slot : UInt16)
  | enumConstant (type name : Ref String)
  | classLiteral (descriptor : Ref String)
  | nested (type : Ref String) (elements : List (Ref String × ElementLayout))
  | array (values : List ElementLayout)

namespace ElementLayout

lemma sizeOf_lt_nested {type : Ref String} {elements : List (Ref String × ElementLayout)}
    {element : Ref String × ElementLayout} (h : element ∈ elements) :
    sizeOf element.2 < sizeOf (nested type elements) := by
  have hmem : sizeOf element < sizeOf elements := List.sizeOf_lt_of_mem h
  have hpair : sizeOf element = 1 + sizeOf element.1 + sizeOf element.2 := rfl
  rw [nested.sizeOf_spec]
  omega

lemma sizeOf_lt_array {values : List ElementLayout} {value : ElementLayout} (h : value ∈ values) :
    sizeOf value < sizeOf (array values) := by
  have hmem : sizeOf value < sizeOf values := List.sizeOf_lt_of_mem h
  rw [array.sizeOf_spec]
  omega

/-- The bytes of an element value: its tag, then its parts. -/
def bytes : ElementLayout → Bytes
  | const type slot => UInt8.ofNat type.tag.toNat :: Bytes.ofNumber 2 slot.toNat
  | enumConstant type name => 0x65 :: (type.bytes ++ name.bytes)
  | classLiteral descriptor => 0x63 :: descriptor.bytes
  | nested type elements =>
    0x40 :: (type.bytes ++ (Bytes.ofNumber 2 elements.length ++
      elements.flatMap fun element => element.1.bytes ++ element.2.bytes))
  | array values =>
      0x5B :: (Bytes.ofNumber 2 values.length ++ values.flatMap fun value => value.bytes)
decreasing_by
  · exact sizeOf_lt_nested ‹_›
  · exact sizeOf_lt_array ‹_›

/-- What an element value says. -/
def value : ElementLayout → ElementValue
  | const type _ => .const type.tag
  | enumConstant type name => .enumConstant type.target name.target
  | classLiteral descriptor => .classLiteral descriptor.target
  | nested type elements =>
      .nested type.target (elements.map fun element => (element.1.target, element.2.value))
  | array values => .array (values.map fun value => value.value)
decreasing_by
  · exact sizeOf_lt_nested ‹_›
  · exact sizeOf_lt_array ‹_›

/-- The value nests at most so many levels deep, itself included; its references resolve and its
numbers fit. -/
inductive Legal (pool : PoolLayout) : (levels : Nat) → ElementLayout → Prop where
  | const {levels : Nat} (type : ConstantType) (slot : UInt16) :
      Legal pool (levels + 1) (.const type slot)
  | enumConstant {levels : Nat} {type name : Ref String} (htype : type.Resolves pool.Stands .text)
      (hname : name.Resolves pool.Stands .text) : Legal pool (levels + 1) (.enumConstant type name)
  | classLiteral {levels : Nat} {descriptor : Ref String}
      (hdescriptor : descriptor.Resolves pool.Stands .text) :
      Legal pool (levels + 1) (.classLiteral descriptor)
  | nested {levels : Nat} {type : Ref String} {elements : List (Ref String × ElementLayout)}
      (htype : type.Resolves pool.Stands .text) (hcount : elements.length < 65536)
      (hnames : ∀ element ∈ elements, element.1.Resolves pool.Stands .text)
      (hvalues : ∀ element ∈ elements, Legal pool levels element.2) :
        Legal pool (levels + 1) (.nested type elements)
  | array {levels : Nat} {values : List ElementLayout} (hcount : values.length < 65536)
      (hvalues : ∀ value ∈ values, Legal pool levels value) :
        Legal pool (levels + 1) (.array values)

end ElementLayout

/-- An annotation, with the slots it refers to. -/
structure AnnotationLayout where
  type : Ref String
  elements : List (Ref String × ElementLayout)

namespace AnnotationLayout

def bytes (item : AnnotationLayout) : Bytes :=
  item.type.bytes ++ Bytes.counted (fun element => element.1.bytes ++ element.2.bytes) item.elements

def info (item : AnnotationLayout) : AnnotationInfo where
  type := item.type.target
  elements := item.elements.map fun element => (element.1.target, element.2.value)

/-- The references resolve, the numbers fit, and every value nests at most so many levels deep. -/
structure Legal (pool : PoolLayout) (levels : Nat) (item : AnnotationLayout) : Prop where
  type : item.type.Resolves pool.Stands .text
  count : item.elements.length < 65536
  names : ∀ element ∈ item.elements, element.1.Resolves pool.Stands .text
  values : ∀ element ∈ item.elements, element.2.Legal pool levels

lemma reads_annotationWith {pool : PoolLayout} {levels : Nat} {item : AnnotationLayout}
    (hlegal : item.Legal pool levels) {value : Reader ElementValue}
    (hvalue : ∀ element ∈ item.elements, Reads value element.2.bytes element.2.value) :
    Reads (annotationWith pool.constants value) item.bytes item.info := by
  refine (Ref.reads hlegal.type).bind ((Reads.counted hlegal.count ?_).map _)
  intro element helement
  exact (Ref.reads (hlegal.names element helement)).bind ((hvalue element helement).map _)

end AnnotationLayout

/-- An element value is read by the reader that allows the levels it needs. -/
lemma ElementLayout.reads {pool : PoolLayout} {levels : Nat} {element : ElementLayout}
    (hlegal : element.Legal pool levels) :
    Reads (elementValue pool.constants levels) element.bytes element.value := by
  -- the induction is on the legality, so that what stands inside comes with the levels that are
  -- left for it
  induction hlegal with
  | const type slot =>
      rw [elementValue, bytes, value]
      cases type <;> exact (Reads.u1 _).bind ((Reads.skip (Bytes.ofNumber 2 slot.toNat)).map _)
  | enumConstant htype hname =>
      rw [elementValue, bytes, value]
      exact (Reads.u1 0x65).bind ((Ref.reads htype).bind ((Ref.reads hname).map _))
  | classLiteral hdescriptor =>
      rw [elementValue, bytes, value]
      exact (Reads.u1 0x63).bind ((Ref.reads hdescriptor).map _)
  | @nested _ type elements htype hcount hnames hvalues ih =>
      rw [elementValue, bytes, value]
      have hnested : AnnotationLayout.Legal pool _ ⟨type, elements⟩ :=
        ⟨htype, hcount, hnames, hvalues⟩
      exact (Reads.u1 0x40).bind ((AnnotationLayout.reads_annotationWith hnested ih).map _)
  | array hcount hvalues ih =>
      rw [elementValue, bytes, value]
      exact (Reads.u1 0x5B).bind ((Reads.counted hcount ih).map _)

/-- An annotation is read if its values nest at most 256 levels deep. -/
lemma AnnotationLayout.reads {pool : PoolLayout} {item : AnnotationLayout}
    (hlegal : item.Legal pool 256) :
    Reads (annotationInfo pool.constants) item.bytes item.info :=
  reads_annotationWith hlegal fun element helement =>
    ElementLayout.reads (hlegal.values element helement)

end JarFacts.ClassFile
