import JarFacts.Signature.Name

/-!
# Class and method signatures

A class signature lists formal type parameters, the superclass and the interfaces; a method
signature lists formal type parameters, parameter types, the return type and thrown types.
`ClassSignature` and `MethodSignature` hold the canonical names of these parts, each of them put
together while it is read.

A declaration is worked through part by part: `ClassSignature.parts` and `MethodSignature.parts` are
the order in which the parts are taken.  A method's parameters come first, because the name of the
method is made from them and all its other parts hang on that name.  The whole signature is read
before the first part is taken.
-/

namespace JarFacts

/-- A formal type parameter with the canonical names of its bounds, the class bound first. -/
structure FormalTypeParameter where
  name : String
  bounds : List String
  deriving DecidableEq

/-- The parameter as facts name it: `<T>`, or `<T+a,b>` with bounds `a` and `b`. -/
def FormalTypeParameter.render (parameter : FormalTypeParameter) : String :=
  if parameter.bounds.isEmpty then "<" ++ parameter.name ++ ">"
  else "<" ++ parameter.name ++ "+" ++ ",".intercalate parameter.bounds ++ ">"

/-- A parameter list as method names embed it. -/
def parameterList (parameters : List String) : String :=
  "(" ++ ",".intercalate parameters ++ ")"

/-- A class signature with canonical names. -/
structure ClassSignature where
  typeParameters : List FormalTypeParameter
  superclass : String
  interfaces : List String

/-- A method signature or descriptor with canonical names. -/
structure MethodSignature where
  typeParameters : List FormalTypeParameter
  parameters : List String
  returnType : String
  exceptions : List String

/-- A part of a class signature. -/
inductive ClassPart where
  | typeParameters (parameters : List FormalTypeParameter)
  | superclass (fqn : String)
  | interface (fqn : String)

/-- A part of a method signature. -/
inductive MethodPart where
  | parameters (types : List String)
  | typeParameters (parameters : List FormalTypeParameter)
  | returnType (fqn : String)
  | exception (fqn : String)

/-! ## Reading -/

namespace Signature.Parser

/-- Bounds behind colons, as many as there are. -/
def boundNames : (rounds : Nat) → Parser (List String)
  | 0 => return []
  | rounds + 1 => do
    if (← peek) = some ':' then
      discard next
      let bound ← typeSignature false
      return bound :: (← boundNames rounds)
    else return []

/-- A formal type parameter: a name, a colon, perhaps a class bound, and any interface bounds. -/
def formalTypeParameter : Parser FormalTypeParameter := do
  let name ← name [':']
  expect ':'
  let following ← peek
  let classBound ←
    if following = some ':' ∨ following = some '>' then pure none
    else some <$> typeSignature false
  let interfaceBounds ← boundNames (← rounds)
  return ⟨String.ofList name, classBound.toList ++ interfaceBounds⟩

/-- Formal type parameters up to the bracket that closes their list; there is at least one. -/
def formalTypeParametersTail : (rounds : Nat) → Parser (List FormalTypeParameter)
  | 0 => throw .truncated
  | rounds + 1 => do
    let parameter ← formalTypeParameter
    if (← peek) = some '>' then
      discard next
      return [parameter]
    else return parameter :: (← formalTypeParametersTail rounds)

/-- The formal type parameters, none when no list opens. -/
def formalTypeParameters : Parser (List FormalTypeParameter) := do
  if (← peek) = some '<' then
    discard next
    formalTypeParametersTail (← rounds)
  else return []

/-- Types up to the end of the text. -/
def namesToEnd : (rounds : Nat) → Parser (List String)
  | 0 => return []
  | rounds + 1 => do
    if (← peek).isNone then return []
    let type ← typeSignature false
    return type :: (← namesToEnd rounds)

/-- Types up to the parenthesis that closes a parameter list. -/
def namesToParenthesis : (rounds : Nat) → Parser (List String)
  | 0 => throw .truncated
  | rounds + 1 => do
    if (← peek) = some ')' then
      discard next
      return []
    let type ← typeSignature false
    return type :: (← namesToParenthesis rounds)

/-- Thrown types, each behind a caret, up to the end of the text. -/
def thrownToEnd : (rounds : Nat) → Parser (List String)
  | 0 => return []
  | rounds + 1 => do
    if (← peek).isNone then return []
    expect '^'
    let type ← typeSignature false
    return type :: (← thrownToEnd rounds)

/-- A class signature. -/
def classSignature : Parser ClassSignature := do
  let typeParameters ← formalTypeParameters
  let superclass ← typeSignature false
  return ⟨typeParameters, superclass, ← namesToEnd (← rounds)⟩

/-- A method signature or descriptor. -/
def methodSignature : Parser MethodSignature := do
  let typeParameters ← formalTypeParameters
  expect '('
  let parameters ← namesToParenthesis (← rounds)
  let returnType ← typeSignature true
  return ⟨typeParameters, parameters, returnType, ← thrownToEnd (← rounds)⟩

end Signature.Parser

/-! ## Taking the parts -/

namespace ClassSignature

/-- Reads a class signature. -/
def decode (signature : String) : Except SignatureError ClassSignature :=
  Signature.Parser.classSignature.runOn signature

/-- The parts in the order in which they are taken. -/
def parts (signature : ClassSignature) : List ClassPart :=
  .typeParameters signature.typeParameters :: .superclass signature.superclass ::
    signature.interfaces.map .interface

/-- Reads a class signature and takes its parts.  What takes them has a state of its own and may
fail; `fault` is how it speaks of a text that is refused. -/
def visit {ε τ : Type} (fault : SignatureError → ε) (take : ClassPart → ExceptT ε (StateM τ) Unit)
    (text : String) : ExceptT ε (StateM τ) Unit :=
  match decode text with
  | .ok signature => signature.parts.forM take
  | .error error => throw (fault error)

end ClassSignature

namespace MethodSignature

/-- Reads a method signature or descriptor. -/
def decode (signature : String) : Except SignatureError MethodSignature :=
  Signature.Parser.methodSignature.runOn signature

/-- The parts in the order in which they are taken. -/
def parts (signature : MethodSignature) : List MethodPart :=
  .parameters signature.parameters :: .typeParameters signature.typeParameters ::
    .returnType signature.returnType :: signature.exceptions.map .exception

/-- Reads a method signature or descriptor, takes its parts and has the signature. -/
def visit {ε τ : Type} (fault : SignatureError → ε) (take : MethodPart → ExceptT ε (StateM τ) Unit)
    (text : String) : ExceptT ε (StateM τ) MethodSignature :=
  match decode text with
  | .ok signature => do
    signature.parts.forM take
    return signature
  | .error error => throw (fault error)

/-- The parenthesised parameter list. -/
def parameterList (signature : MethodSignature) : String :=
  JarFacts.parameterList signature.parameters

/-- The name under which the method is referred to on `owner`. -/
def referenceFqn (signature : MethodSignature) (owner name : String) : String :=
  owner ++ "." ++ name ++ signature.parameterList

end MethodSignature

end JarFacts
