import JarFacts.ClassFile.Basic
import JarFacts.Extract.Annotations
import JarFacts.Signature.Declaration

/-!
# Facts from method bodies

What a method does to other classes: the fields it reads and writes, the methods it calls, the types
it casts to, tests for and creates.  All of it starts at the innermost scope, which is the method's
own.  Accesses to fields with a dollar sign in their name are made by the compiler and left out.
-/

namespace JarFacts.Extract

open ClassFile

variable {σ : Type} [FactSink σ]

/-- The relation of one instruction. -/
def instruction (instruction : Instruction) : Extract σ Unit := do
  match instruction.opcodeClass.relation? with
  | none => return ()
  | some kind =>
    match instruction.opcodeClass, instruction.operand with
    | .fieldRead, .member field | .fieldWrite, .member field =>
      if field.name.toList.contains '$' then
        return ()
      else
        let owner ← decoded (Signature.decodeClassName field.owner)
        relationFromScope kind (owner ++ "." ++ field.name)
    | .invoke, .member method =>
      let owner ← decoded (Signature.decodeClassName method.owner)
      let signature ← decoded (MethodSignature.decode method.descriptor)
      relationFromScope kind (signature.referenceFqn owner method.name)
    | _, .type name => relationFromScope kind (← decoded (Signature.decodeClassName name))
    | _, .member member => note (.memberOperandUnexpected member.name instruction.opcode)

/-- The annotations of a parameter stand on the method's name with the parameter's position behind
it. -/
def parameterAnnotations (fqn : String) (position : Nat) :
    List (List AnnotationInfo) → Extract σ Unit
  | [] => return ()
  | slot :: slots => do
    slot.forM (annotated (fqn ++ "#" ++ toString position) fqn)
    parameterAnnotations fqn (position + 1) slots

/-- The annotations and the instructions of a method. -/
def body (fqn : String) (method : MethodInfo) : Extract σ Unit := do
  method.annotations.forM (annotated fqn fqn)
  parameterAnnotations fqn 0 method.parameterAnnotations
  (method.code.getD []).forM instruction

end JarFacts.Extract
