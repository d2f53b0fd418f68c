import JarFacts.ClassFile.Constant

/-!
# Annotations

An annotation names its type and gives values to some of its elements; a value may be an array of
values or an annotation again.  Of constants only the kind is kept.  Values are read down to
`maxElementNesting` levels: an array and a nested annotation each open one level, whatever stands
beside them.
-/

namespace JarFacts.ClassFile

/-- The value of an annotation element. -/
inductive ElementValue where
  /-- A primitive or string constant, by its tag. -/
  | const (tag : Char)
  /-- A constant of an enum type. -/
  | enumConstant (type name : String)
  /-- A class literal, by its descriptor. -/
  | classLiteral (descriptor : String)
  | nested (type : String) (elements : List (String × ElementValue))
  | array (values : List ElementValue)
  deriving Inhabited

/-- An annotation on a declaration. -/
structure AnnotationInfo where
  /-- The descriptor of the annotation type. -/
  type : String
  elements : List (String × ElementValue)
  deriving Inhabited

/-- The deepest nesting of element values that is read. -/
def maxElementNesting : Nat := 256

/-- The refusal of an annotation. -/
def refusal (fault : AttributeFault) : ClassFileError :=
  .malformedAttribute "RuntimeVisibleAnnotations" fault

/-- An annotation whose element values are read by `value`. -/
def annotationWith (pool : ConstantPool) (value : Reader ElementValue) : Reader AnnotationInfo := do
  let type ← Reader.slot pool.utf8
  let elements ← Reader.counted do
    let name ← Reader.slot pool.utf8
    return (name, ← value)
  return ⟨type, elements⟩

/-- The tags of primitive and string constants. -/
def constantTags : List Char := ['B', 'C', 'D', 'F', 'I', 'J', 'S', 'Z', 's']

/-- An element value that may nest `levels` deep, itself included. -/
def elementValue (pool : ConstantPool) : (levels : Nat) → Reader ElementValue
  | 0 => throw (refusal (.nestedTooDeep maxElementNesting))
  | levels + 1 => do
    let byte ← Reader.u1
    let tag := Char.ofNat byte.toNat
    if constantTags.contains tag then
      Reader.skip 2
      return .const tag
    else if tag = 'e' then
      let type ← Reader.slot pool.utf8
      return .enumConstant type (← Reader.slot pool.utf8)
    else if tag = 'c' then
      return .classLiteral (← Reader.slot pool.utf8)
    else if tag = '@' then
      let nested ← annotationWith pool (elementValue pool levels)
      return .nested nested.type nested.elements
    else if tag = '[' then
      return .array (← Reader.counted (elementValue pool levels))
    else throw (refusal (.unknownTag byte))

/-- An annotation. -/
def annotationInfo (pool : ConstantPool) : Reader AnnotationInfo :=
  annotationWith pool (elementValue pool maxElementNesting)

end JarFacts.ClassFile
