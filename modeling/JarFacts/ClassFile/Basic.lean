import JarFacts.ClassFile.Access
import JarFacts.ClassFile.Attribute
import JarFacts.Signature.Name

/-!
# Class files

The parts of a class file that facts are made from: header, supertypes, members, and what their
attribute tables say.  `ClassFile.parse` reads them from bytes; bytes behind the end of the class
are not looked at.
-/

namespace JarFacts

open ClassFile

/-- A declared field. -/
structure FieldInfo where
  access : UInt16
  name : String
  descriptor : String
  signature : Option String
  constantValue : Option ConstantValue
  annotations : List AnnotationInfo
  unknownAttributes : List String

/-- A declared method. -/
structure MethodInfo where
  access : UInt16
  name : String
  descriptor : String
  signature : Option String
  /-- The internal names of the declared exceptions. -/
  exceptions : List String
  annotations : List AnnotationInfo
  parameterAnnotations : List (List AnnotationInfo)
  hasAnnotationDefault : Bool
  /-- The body; abstract and native methods have none. -/
  code : Option (List Instruction)
  unknownAttributes : List String

/-- A class file. -/
structure ClassFile where
  minorVersion : Nat
  majorVersion : Nat
  access : UInt16
  /-- The internal name, with slashes. -/
  name : String
  superName : Option String
  interfaces : List String
  signature : Option String
  sourceFile : Option String
  enclosingMethod : Option EnclosingMethod
  annotations : List AnnotationInfo
  unknownAttributes : List String
  fields : List FieldInfo
  methods : List MethodInfo

namespace FieldInfo

/-- Was the field made by the compiler? -/
def isSynthetic (field : FieldInfo) : Bool :=
  Access.has field.access Access.synthetic

/-- Is the field a constant of an enum? -/
def isEnumConstant (field : FieldInfo) : Bool :=
  Access.has field.access Access.enum

/-- Reads a field. -/
def read (pool : ConstantPool) : Reader FieldInfo := do
  let access ← Reader.u2
  let name ← Reader.slot pool.utf8
  let descriptor ← Reader.slot pool.utf8
  let attributes ← Attributes.read pool
  return {
    access := UInt16.ofNat access
    name := name
    descriptor := descriptor
    signature := attributes.signature
    constantValue := attributes.constantValue
    annotations := attributes.annotations
    unknownAttributes := attributes.unknown }

end FieldInfo

namespace MethodInfo

/-- Was the method made by the compiler as a bridge?  Both bits have to say so. -/
def isBridge (method : MethodInfo) : Bool :=
  Access.has method.access (Access.synthetic ||| Access.bridge)

/-- Reads a method. -/
def read (pool : ConstantPool) : Reader MethodInfo := do
  let access ← Reader.u2
  let name ← Reader.slot pool.utf8
  let descriptor ← Reader.slot pool.utf8
  let attributes ← Attributes.read pool
  return {
    access := UInt16.ofNat access
    name := name
    descriptor := descriptor
    signature := attributes.signature
    exceptions := attributes.exceptions
    annotations := attributes.annotations
    parameterAnnotations := attributes.parameterAnnotations
    hasAnnotationDefault := attributes.hasAnnotationDefault
    code := attributes.code
    unknownAttributes := attributes.unknown }

end MethodInfo

namespace ClassFile

/-- Package and module descriptors declare no type. -/
def isDescriptorOnly (cls : ClassFile) : Bool :=
  cls.access == Access.packageDescriptor || Access.has cls.access Access.module

/-- The last segment of the class name. -/
def simpleName (cls : ClassFile) : String :=
  Signature.simpleName cls.name

/-- The kind of type the class declares, if it declares one. -/
def kind? (cls : ClassFile) : Option EntityKind :=
  if cls.isDescriptorOnly then none
  else if Access.has cls.access Access.interface then
    some (if Access.has cls.access Access.annotationType then .annotationType else .interface)
  else if Access.has cls.access Access.enum then some .enum
  else some .classType

/-- Reads what stands behind the pool. -/
def readDeclaration (minorVersion majorVersion : Nat) (pool : ConstantPool) : Reader ClassFile := do
  let access ← Reader.u2
  let name ← Reader.slot pool.className
  let superName ← Reader.slot pool.className?
  let interfaces ← Reader.counted (Reader.slot pool.className)
  let fields ← Reader.counted (FieldInfo.read pool)
  let methods ← Reader.counted (MethodInfo.read pool)
  let attributes ← Attributes.read pool
  return {
    minorVersion := minorVersion
    majorVersion := majorVersion
    access := UInt16.ofNat access
    name := name
    superName := superName
    interfaces := interfaces
    signature := attributes.signature
    sourceFile := attributes.sourceFile
    enclosingMethod := attributes.enclosingMethod
    annotations := attributes.annotations
    unknownAttributes := attributes.unknown
    fields := fields
    methods := methods }

/-- Reads a class file. -/
def read : Reader ClassFile := do
  if (← Reader.u4) ≠ 0xCAFEBABE then throw .invalidMagic
  let minorVersion ← Reader.u2
  let majorVersion ← Reader.u2
  readDeclaration minorVersion majorVersion (← ConstantPool.read)

/-- Reads a class file from bytes, together with the events noted on the way; these are kept on
failure too. -/
def parseWithLog (bytes : Bytes) : Except ClassFileError ClassFile × Array LogEvent :=
  let (result, input) := read.run.run ⟨bytes, #[]⟩
  (result, input.log)

/-- Reads a class file from bytes. -/
def parse (bytes : Bytes) : Except ClassFileError ClassFile :=
  (parseWithLog bytes).1

end ClassFile

end JarFacts
