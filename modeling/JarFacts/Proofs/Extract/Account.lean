import JarFacts.Extract.Class

/-!
# What a class has to tell

The pass over a class writes its facts while scopes open and close, and takes the source of most
relations from the scope on top.  This file says what it writes without any scope: every piece of a
class has an `Account`, the list of its facts in order, computed from the class and the location its
facts are stamped with.  Names and signatures are read on the way, and where one cannot be read the
account holds the refusal in place of the facts that depend on it.  An account is told up to its
first refusal (`Account.facts`, `Account.verdict`); what stands behind it does not count.

`classAccount` is assembled from the accounts of the parts: the header with the supertypes, the
place of a local class, the annotations, `fieldAccount` for each field, `methodAccount` for each
method, and at last the place of every other class.  That the pass tells exactly this is proved in
`JarFacts.Proofs.Extract.ClassPass`.
-/

namespace JarFacts

/-- Why an account breaks off: what it is an account of could not be read. -/
inductive Refusal where
  | classFile (error : ClassFileError)
  | signature (error : SignatureError)
  deriving DecidableEq

/-- The error an extraction ends with. -/
def Refusal.error : Refusal → ExtractError
  | classFile error => .classFile error
  | signature error => .signature error

/-- Facts in order, with a refusal wherever something could not be read. -/
abbrev Account := List (Except Refusal Fact)

namespace Account

/-- The facts before the first refusal. -/
def facts : Account → List Fact
  | [] => []
  | .ok fact :: rest => fact :: facts rest
  | .error _ :: _ => []

/-- The first refusal, if there is one. -/
def verdict : Account → Except Refusal Unit
  | [] => .ok ()
  | .ok _ :: rest => verdict rest
  | .error refusal :: _ => .error refusal

/-- The account of what depends on a name or signature that has to be read first. -/
def reading {α : Type} (read : Except SignatureError α) (account : α → Account) : Account :=
  match read with
  | .ok value => account value
  | .error error => [.error (.signature error)]

@[simp] theorem reading_ok {α : Type} (value : α) (account : α → Account) :
    reading (.ok value) account = account value := rfl

/-- A single relation. -/
def states (location : Location) (kind : RelationKind) (source target : String) : Account :=
  [.ok (.relation ⟨kind, source, target, location⟩)]

/-- A relation to a class that is given by its internal name. -/
def statesClass (location : Location) (kind : RelationKind) (source name : String) : Account :=
  reading (Signature.decodeClassName name) (states location kind source)

end Account

open Account ClassFile

/-! ## Annotations -/

mutual

/-- The enum constants in a value, by type and name.  Nested annotations are not searched. -/
def ClassFile.ElementValue.enumConstants : ElementValue → List (String × String)
  | .enumConstant type name => [(type, name)]
  | .array values => enumConstantsIn values
  | .nested _ _ => []
  | .const _ => []
  | .classLiteral _ => []

/-- The enum constants in a list of values, in order. -/
def ClassFile.enumConstantsIn : List ElementValue → List (String × String)
  | [] => []
  | value :: values => value.enumConstants ++ enumConstantsIn values

end

/-- The enum constants that `reader` reads. -/
def readsAccount (location : Location) (reader : String) (constants : List (String × String)) :
    Account :=
  constants.flatMap fun (type, name) =>
    reading (Signature.decodeType type) fun enum =>
      states location .reads reader (enum ++ "." ++ name)

/-- An annotation of `target` whose values are read by `reader`. -/
def annotationAccount (location : Location) (target reader : String) (info : AnnotationInfo) :
    Account :=
  reading (Signature.decodeType info.type) fun type =>
    states location .annotatedBy target type ++
      info.elements.flatMap fun (_, value) => readsAccount location reader value.enumConstants

/-! ## Method bodies -/

/-- An access of the method `fqn` to a field.  Fields with a dollar sign in their name are passed
over. -/
def accessAccount (location : Location) (kind : RelationKind) (fqn : String) (field : MemberRef) :
    Account :=
  if '$' ∈ field.name.toList then []
  else
    reading (Signature.decodeClassName field.owner) fun owner =>
      states location kind fqn (owner ++ "." ++ field.name)

/-- A call of the method `fqn`. -/
def callAccount (location : Location) (fqn : String) (method : MemberRef) : Account :=
  reading (Signature.decodeClassName method.owner) fun owner =>
  reading (MethodSignature.decode method.descriptor) fun signature =>
    states location .calls fqn (owner ++ "." ++ method.name ++ signature.parameterList)

/-- An instruction of the method `fqn`.  A member where a type belongs says nothing. -/
def instructionAccount (location : Location) (fqn : String) (instruction : Instruction) : Account :=
  match instruction.opcodeClass, instruction.operand with
  | .fieldRead, .member field => accessAccount location .reads fqn field
  | .fieldWrite, .member field => accessAccount location .writes fqn field
  | .invoke, .member method => callAccount location fqn method
  | _, .member _ => []
  | opcodeClass, .type name =>
    opcodeClass.relation?.toList.flatMap fun kind => statesClass location kind fqn name

/-- The annotations of the method `fqn` and of its parameters, and its instructions. -/
def bodyAccount (location : Location) (fqn : String) (method : MethodInfo) : Account :=
  method.annotations.flatMap (annotationAccount location fqn fqn) ++
  (method.parameterAnnotations.zipIdx.flatMap fun (slot, position) =>
    slot.flatMap (annotationAccount location (fqn ++ "#" ++ toString position) fqn)) ++
  (method.code.getD []).flatMap (instructionAccount location fqn)

/-! ## Members -/

/-- A field of the class `owner`. -/
def fieldAccount (location : Location) (owner : String) (field : FieldInfo) : Account :=
  if field.isSynthetic then []
  else
    let fqn := owner ++ "." ++ field.name
    let kind : EntityKind := if field.isEnumConstant then .enumConstant else .field
    [.ok (.entity ⟨kind, fqn, some field.name, field.access, none, none, location⟩)] ++
    states location .inside fqn owner ++
    reading (Signature.decodeType (field.signature.getD field.descriptor))
      (states location .holds fqn) ++
    (if field.constantValue.isSome then states location .writes fqn fqn else []) ++
    field.annotations.flatMap (annotationAccount location fqn fqn)

/-- The kind of a method by its name and by the kind of its class. -/
def kindOfMethod (holder : Option EntityKind) (name : String) : EntityKind :=
  if name = "<clinit>" then .initializer
  else if name = "<init>" then .constructor
  else if holder = some .annotationType then .annotationElement
  else .method

/-- The types the method `fqn` throws: those of its signature, and the declared exceptions when that
has none. -/
def throwsAccount (location : Location) (fqn : String) (signature : MethodSignature)
    (declared : List String) :
    Account :=
  if signature.exceptions.isEmpty then declared.flatMap (statesClass location .throws fqn)
  else signature.exceptions.flatMap (states location .throws fqn)

/-- The place of the method `fqn`, and its parameters. -/
def parametersAccount (location : Location) (owner fqn : String) (types : List String) : Account :=
  states location .inside fqn owner ++
  types.zipIdx.map fun (type, position) => .ok (.param (.parameter fqn position type location))

/-- The facts that the signature of the method `fqn` gives rise to, the thrown types apart. -/
def signatureAccount (location : Location) (kind : EntityKind) (owner fqn : String)
    (signature : MethodSignature) :
    Account :=
  parametersAccount location owner fqn signature.parameters ++
  (signature.typeParameters.flatMap fun formal =>
    states location .parametrizedBy fqn formal.render) ++
  (if kind = .constructor ∨ kind = .initializer then []
    else states location .returns fqn signature.returnType)

/-- A method of the class `owner`, whose kind is `holder`.  Its name is made from the parameters of
the generic signature if there is one; both that and the descriptor have to be read before anything
is told. -/
def methodAccount (location : Location) (holder : Option EntityKind) (owner : String)
    (method : MethodInfo) :
    Account :=
  if method.isBridge then []
  else
    reading (MethodSignature.decode method.descriptor) fun raw =>
    reading (MethodSignature.decode (method.signature.getD method.descriptor)) fun signature =>
      let kind := kindOfMethod holder method.name
      let fqn := owner ++ "." ++ method.name ++ signature.parameterList
      let generic := if method.signature.isSome ∧ signature.parameterList ≠ raw.parameterList
        then some signature.parameterList else none
      signatureAccount location kind owner fqn signature ++
      throwsAccount location fqn signature method.exceptions ++
      [.ok (.entity ⟨kind, fqn, some method.name, method.access, some raw.parameterList,
        generic, location⟩)] ++
      bodyAccount location fqn method

/-! ## Classes -/

/-- The supertypes of the class `fqn`: those of its generic signature if it has one, else those of
its header. -/
def supertypesAccount (location : Location) (fqn : String) (cls : ClassFile) : Account :=
  match cls.signature with
  | none =>
    cls.superName.toList.flatMap (statesClass location .extends fqn) ++
    cls.interfaces.flatMap (statesClass location .implements fqn)
  | some text =>
    reading (ClassSignature.decode text) fun signature =>
      (signature.typeParameters.flatMap fun formal =>
        states location .parametrizedBy fqn formal.render) ++
      states location .extends fqn signature.superclass ++
      signature.interfaces.flatMap (states location .implements fqn)

/-- The type that a class declares. -/
def typeAccount (location : Location) (fqn : String) (cls : ClassFile) : Account :=
  match cls.kind? with
  | none => []
  | some kind =>
    [.ok (.entity ⟨kind, fqn, some cls.simpleName, cls.access, none, none, location⟩)] ++
    supertypesAccount location fqn cls

/-- What the class `fqn` tells behind its header: where it is declared if it is a local class, its
annotations, its fields and its methods.  Descriptors of packages and modules are no types, and
their annotations are passed over. -/
def membersAccount (location : Location) (fqn : String) (cls : ClassFile) : Account :=
  (cls.enclosingMethod.toList.flatMap fun enclosing =>
    reading (Extract.enclosingFqn enclosing) (states location .inside fqn)) ++
  (if cls.kind?.isSome then cls.annotations.flatMap (annotationAccount location fqn fqn) else []) ++
  cls.fields.flatMap (fieldAccount location fqn) ++
  cls.methods.flatMap (methodAccount location cls.kind? fqn)

/-- The place of the class `fqn` if it is no local class: what stands before the last dot of its
name. -/
def placeAccount (location : Location) (fqn : String) (cls : ClassFile) : Account :=
  if cls.kind?.isSome ∧ cls.enclosingMethod.isNone then states location .inside fqn
    (Text.beforeLast '.' fqn) else []

/-- Everything a class has to tell. -/
def classAccount (location : Location) (cls : ClassFile) : Account :=
  reading (Signature.decodeClassName cls.name) fun fqn =>
    typeAccount location fqn cls ++ membersAccount location fqn cls ++ placeAccount location fqn cls

end JarFacts
