import JarFacts.ClassFile.Annotations
import JarFacts.Extract.Context
import JarFacts.Signature.Name

/-!
# Facts from annotations

An annotation is a relation from what it stands on, and each enum constant among its values is read
by the declaration it belongs to.  Annotations inside annotations are left out.
-/

namespace JarFacts.Extract

open ClassFile

variable {σ : Type} [FactSink σ]

mutual

/-- The enum constants in a value are read by `reader`. -/
def elementValue (reader : String) : ElementValue → Extract σ Unit
  | .enumConstant type name => do
    let enum ← decoded (Signature.decodeType type)
    relation .reads reader (enum ++ "." ++ name)
  | .array values => elementValues reader values
  | .nested type _ => note (.nestedAnnotationSkipped type)
  | .const _ => return ()
  | .classLiteral _ => return ()

/-- The enum constants in any of the values are read by `reader`. -/
def elementValues (reader : String) : List ElementValue → Extract σ Unit
  | [] => return ()
  | value :: values => do
    elementValue reader value
    elementValues reader values

end

/-- An annotation on `target`, whose values are read by `reader`.  The two differ for the
annotations of parameters only. -/
def annotated (target reader : String) (info : AnnotationInfo) : Extract σ Unit := do
  let type ← decoded (Signature.decodeType info.type)
  relation .annotatedBy target type
  info.elements.forM fun (_, value) => elementValue reader value

end JarFacts.Extract
