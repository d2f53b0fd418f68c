import JarFacts.Extract.Member

/-!
# Facts from classes

The pass over one class: its header with the supertypes, the place it is declared in, its
annotations, its fields and methods.  The class has a scope of its own while the pass lasts.

Where a class is declared is known from its enclosing method, for local and anonymous classes.  All
others are placed at the end of the pass, in what stands before the last dot of their name.  A
package or module descriptor is no entity: it has a scope but no facts of its own.
-/

namespace JarFacts.Extract

open ClassFile

variable {σ : Type} [FactSink σ]

/-- The one class without a superclass. -/
def rootClass : String := "java/lang/Object"

/-- One part of the generic signature of the class `fqn`. -/
def classPart (fqn : String) : ClassPart → Extract σ Unit
  | .typeParameters formals => formals.forM fun formal => relation .parametrizedBy fqn formal.render
  | .superclass type => relation .extends fqn type
  | .interface type => relation .implements fqn type

/-- The supertypes of a class by its header alone. -/
def rawSupertypes (cls : ClassFile) (fqn : String) : Extract σ Unit := do
  match cls.superName with
  | some name => relation .extends fqn (← decoded (Signature.decodeClassName name))
  | none => if cls.name ≠ rootClass then note (.supertypeMissing fqn)
  cls.interfaces.forM fun name => do
    relation .implements fqn (← decoded (Signature.decodeClassName name))

/-- The supertypes of a class.  A generic signature replaces the header. -/
def supertypes (cls : ClassFile) (fqn : String) : Extract σ Unit := do
  match cls.signature with
  | none => rawSupertypes cls fqn
  | some text => ClassSignature.visit .signature (classPart fqn) text

/-- The class itself.  Its scope opens behind its entity and before its supertypes. -/
def header (cls : ClassFile) : Extract σ Unit := do
  let fqn ← decoded (Signature.decodeClassName cls.name)
  match cls.kind? with
  | none =>
    note (.descriptorOnly cls.name)
    push fqn .placeholder
  | some kind =>
    emit (.entity ((EntityFact.bare kind fqn (← get).location).declared cls.simpleName cls.access))
    push fqn (.entity kind)
    supertypes cls fqn

/-- The name of the method or class that a local class is declared in. -/
def enclosingFqn (enclosing : EnclosingMethod) : Except SignatureError String := do
  let owner ← Signature.decodeClassName enclosing.owner
  match enclosing.name, enclosing.descriptor with
  | some name, some descriptor =>
      return (← MethodSignature.decode descriptor).referenceFqn owner name
  | _, _ => return owner

/-- The place of a local or anonymous class. -/
def outerClass (enclosing : EnclosingMethod) : Extract σ Unit := do
  let parent ← decoded (enclosingFqn enclosing)
  relationFromScope .inside parent
  markContainment

/-- Closes the scope of the class, and places the class unless that has been done. -/
def classEnd : Extract σ Unit := do
  let frame ← pop
  if frame.kind = .placeholder ∨ frame.containmentEmitted then
    return ()
  else
    let parent := Text.beforeLast '.' frame.fqn
    let enclosing ← currentFqn
    if parent ≠ enclosing then note (.parentMismatch frame.fqn parent enclosing)
    relation .inside frame.fqn parent

/-- The pass over one class.  The scope of its package is open. -/
def classPass (cls : ClassFile) : Extract σ Unit := do
  header cls
  cls.enclosingMethod.forM outerClass
  if cls.kind?.isSome then
    let fqn ← currentFqn
    cls.annotations.forM (annotated fqn fqn)
  cls.unknownAttributes.forM fun name => note (.attributeUnrecognized .classFile cls.name name)
  cls.fields.forM field
  cls.methods.forM method
  classEnd

end JarFacts.Extract
