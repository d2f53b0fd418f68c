import JarFacts.ClassFile.Annotations
import JarFacts.ClassFile.Instruction

/-!
# Attribute tables

Classes, fields and methods end in a table of named attributes, each with a body of a stated length.
Reading gives one `Attribute` for each entry; `Attributes` is what a whole table amounts to.  Where
an attribute can only be meant once the last one counts, lists add up in table order, and the
parameter annotations of several attributes are merged parameter by parameter.  A body may be longer
than what is read of it.
-/

namespace JarFacts.ClassFile

/-- The method a local or anonymous class is declared in; outside a method only the class is
known. -/
structure EnclosingMethod where
  owner : String
  name : Option String
  descriptor : Option String
  deriving DecidableEq

/-- An entry of an attribute table. -/
inductive Attribute where
  | signature (text : String)
  | sourceFile (name : String)
  | constantValue (value : ConstantValue)
  | exceptions (names : List String)
  | code (instructions : List Instruction)
  | enclosingMethod (method : EnclosingMethod)
  | annotations (list : List AnnotationInfo)
  | parameterAnnotations (slots : List (List AnnotationInfo))
  | annotationDefault
  /-- An attribute that is known to carry nothing of interest. -/
  | ignored
  | unknown (name : String)

/-- The attributes that are known to carry nothing of interest. -/
def ignoredAttributes : List String :=
  ["InnerClasses", "Synthetic", "Deprecated", "SourceDebugExtension", "LineNumberTable",
    "LocalVariableTable", "LocalVariableTypeTable", "StackMapTable", "BootstrapMethods",
    "MethodParameters", "Module", "ModulePackages", "ModuleMainClass", "NestHost", "NestMembers",
    "Record", "PermittedSubclasses", "RuntimeVisibleTypeAnnotations",
    "RuntimeInvisibleTypeAnnotations"]

namespace Reader

/-- The method a class is declared in; slot 0 stands for no method. -/
def enclosingMethod (pool : ConstantPool) : Reader EnclosingMethod := do
  let owner ← slot pool.className
  let index ← u2
  if index = 0 then return ⟨owner, none, none⟩
  let (name, descriptor) ← ofExcept (pool.nameAndType index)
  return ⟨owner, some name, some descriptor⟩

/-- The body of a method.  Frame sizes, the exception table and the nested attributes are passed
over. -/
def code (pool : ConstantPool) : Reader (List Instruction) := do
  skip 4
  let bytes ← take (← u4)
  let instructions ← decodeCode pool 0 bytes
  skip (8 * (← u2))
  discard <| counted do
    skip 2
    skip (← u4)
  return instructions

/-- Annotations for each of a number of parameters. -/
def parameterAnnotations (pool : ConstantPool) : Reader (List (List AnnotationInfo)) := do
  times (← u1).toNat (counted (annotationInfo pool))

/-- The attribute of the given name, from its body. -/
def attributeBody (pool : ConstantPool) (name : String) : Reader Attribute := do
  match name with
  | "Signature" => return .signature (← slot pool.utf8)
  | "SourceFile" => return .sourceFile (← slot pool.utf8)
  | "ConstantValue" => return .constantValue (← slot pool.constantValue)
  | "Exceptions" => return .exceptions (← counted (slot pool.className))
  | "Code" => return .code (← code pool)
  | "EnclosingMethod" => return .enclosingMethod (← enclosingMethod pool)
  | "RuntimeVisibleAnnotations" | "RuntimeInvisibleAnnotations" =>
    return .annotations (← counted (annotationInfo pool))
  | "RuntimeVisibleParameterAnnotations" | "RuntimeInvisibleParameterAnnotations" =>
    return .parameterAnnotations (← parameterAnnotations pool)
  | "AnnotationDefault" => return .annotationDefault
  | name => return if ignoredAttributes.contains name then .ignored else .unknown name

/-- An entry of an attribute table. -/
def attributeEntry (pool : ConstantPool) : Reader Attribute := do
  let name ← slot pool.utf8
  let body ← take (← u4)
  within body (attributeBody pool name)

end Reader

/-- What an attribute table amounts to. -/
structure Attributes where
  signature : Option String := none
  sourceFile : Option String := none
  constantValue : Option ConstantValue := none
  exceptions : List String := []
  code : Option (List Instruction) := none
  enclosingMethod : Option EnclosingMethod := none
  annotations : List AnnotationInfo := []
  parameterAnnotations : List (List AnnotationInfo) := []
  hasAnnotationDefault : Bool := false
  unknown : List String := []

/-- Two lists of slots, joined slot by slot; the longer one sets the number of slots. -/
def mergeSlots {α : Type} : List (List α) → List (List α) → List (List α)
  | [], more => more
  | slots, [] => slots
  | slot :: slots, more :: mores => (slot ++ more) :: mergeSlots slots mores

namespace Attributes

/-- The table with one more entry. -/
def add (attributes : Attributes) : Attribute → Attributes
  | .signature text => { attributes with signature := some text }
  | .sourceFile name => { attributes with sourceFile := some name }
  | .constantValue value => { attributes with constantValue := some value }
  | .exceptions names => { attributes with exceptions := attributes.exceptions ++ names }
  | .code instructions => { attributes with code := some instructions }
  | .enclosingMethod method => { attributes with enclosingMethod := some method }
  | .annotations list => { attributes with annotations := attributes.annotations ++ list }
  | .parameterAnnotations slots =>
    { attributes with parameterAnnotations := mergeSlots attributes.parameterAnnotations slots }
  | .annotationDefault => { attributes with hasAnnotationDefault := true }
  | .ignored => attributes
  | .unknown name => { attributes with unknown := attributes.unknown ++ [name] }

/-- The table with the given entries. -/
def ofList (entries : List Attribute) : Attributes :=
  entries.foldl add {}

/-- Reads a table. -/
def read (pool : ConstantPool) : Reader Attributes := do
  return ofList (← Reader.counted (Reader.attributeEntry pool))

end Attributes

end JarFacts.ClassFile
