import JarFacts.Signature.Parser

/-!
# Canonical names of types and classes

Descriptors and generic type signatures become canonical names through the type grammar; internal
class names only change their slashes to dots, except that the name of an array class is itself a
descriptor.
-/

namespace JarFacts.Signature

/-- The canonical name of a field descriptor or field type signature. -/
def decodeType (signature : String) : Except SignatureError String :=
  (Parser.typeSignature false).runOn signature

/-- The canonical name of an internal class name. -/
def decodeClassName (internalName : String) : Except SignatureError String :=
  match internalName.toList with
  | [] => .error .empty
  | '[' :: _ => decodeType internalName
  | name => .ok (String.ofList (Text.substitute '/' '.' name))

/-- The last segment of an internal class name. -/
def simpleName (internalName : String) : String :=
  Text.afterLast '/' internalName

end JarFacts.Signature
