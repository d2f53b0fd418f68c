import JarFacts.Extract.Body

/-!
# Facts from fields and methods

A field is an entity inside its class that holds a type; a constant one is written by its own
declaration.  The name of a method is made from its parameter types, generic ones if there are any.
The scope of the method opens once that name is known, and everything else about the method starts
there.

Synthetic fields and bridge methods are passed over before anything of them is read.
-/

namespace JarFacts.Extract

open ClassFile

variable {σ : Type} [FactSink σ]

/-- The facts of a field. -/
def field (field : FieldInfo) : Extract σ Unit := do
  if field.isSynthetic then
    note (.syntheticFieldSkipped field.name)
  else
    let kind : EntityKind := if field.isEnumConstant then .enumConstant else .field
    let owner ← currentFqn
    let fqn := owner ++ "." ++ field.name
    emit (.entity ((EntityFact.bare kind fqn (← get).location).declared field.name field.access))
    relation .inside fqn owner
    let held ← decoded (Signature.decodeType (field.signature.getD field.descriptor))
    relation .holds fqn held
    if field.constantValue.isSome then relation .writes fqn fqn
    field.annotations.forM (annotated fqn fqn)
    field.unknownAttributes.forM fun name => note (.attributeUnrecognized .field fqn name)

/-- The kind of a method.  Class initialisers and constructors have names of their own, and the
methods of an annotation type are its elements. -/
def methodKind (method : MethodInfo) : Extract σ EntityKind := do
  if method.name = "<clinit>" then return .initializer
  else if method.name = "<init>" then return .constructor
  else if (← inScope ScopeStack.currentKind) = .entity .annotationType
    then return .annotationElement
  else return .method

/-- The parameters of a method of the given name, one fact for each. -/
def parameters (fqn : String) (position : Nat) : List String → Extract σ Unit
  | [] => return ()
  | type :: types => do
    emit (.param (.parameter fqn position type (← get).location))
    parameters fqn (position + 1) types

/-- One part of the signature of a method of the given kind.  The parameters complete its name and
open its scope. -/
def methodPart (kind : EntityKind) (owner name : String) : MethodPart → Extract σ Unit
  | .parameters types => do
    let fqn := owner ++ "." ++ name ++ parameterList types
    relation .inside fqn owner
    push fqn (.entity kind)
    parameters fqn 0 types
  | .typeParameters formals => formals.forM fun formal =>
      relationFromScope .parametrizedBy formal.render
  | .returnType type =>
    if kind = .constructor ∨ kind = .initializer then return () else relationFromScope .returns type
  | .exception type => relationFromScope .throws type

/-- The facts of a method.  Descriptors never state thrown types and generic signatures may leave
them out; the list of exceptions is taken when the signature has none. -/
def method (method : MethodInfo) : Extract σ Unit := do
  if method.isBridge then
    note (.bridgeMethodSkipped method.name)
  else
    let kind ← methodKind method
    let owner ← currentFqn
    let raw ← decoded (MethodSignature.decode method.descriptor)
    let signature ← MethodSignature.visit .signature (methodPart kind owner method.name)
      (method.signature.getD method.descriptor)
    if signature.exceptions.isEmpty then
      method.exceptions.forM fun name => do
        relationFromScope .throws (← decoded (Signature.decodeClassName name))
    let fqn := signature.referenceFqn owner method.name
    let generic := if method.signature.isSome then some signature.parameterList else none
    emit (.entity (((EntityFact.bare kind fqn (← get).location).declared method.name
      method.access).withSignatures raw.parameterList generic))
    if method.hasAnnotationDefault then note (.annotationDefaultIgnored fqn)
    method.unknownAttributes.forM fun name => note (.attributeUnrecognized .method fqn name)
    body fqn method
    discard pop

end JarFacts.Extract
