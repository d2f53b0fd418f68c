import JarFacts.ClassFile.Basic
import JarFacts.Proofs.Steps

/-!
# What class-file readers are made of

However deeply they nest, the readers of class files are put together from a few: a value, an error,
the next bytes, and the note on a dynamic call site, one reader behind another, and a reader that is
given a body of its own in place of the input.  `Composed` says so of a reader, and `Composed.read`
says it of the one for whole class files.

What holds of the primitive readers, and is kept where readers are put together, holds of that one
too: a single induction over `Composed` replaces the way through all attributes, annotations and
instructions.
-/

namespace JarFacts.ClassFile

/-- The reader is put together from primitive ones. -/
inductive Composed : {α : Type} → Reader α → Prop
  | pure {α : Type} (value : α) : Composed (pure value)
  | throw {α : Type} (error : ClassFileError) : Composed (throw error : Reader α)
  | take (count : Nat) : Composed (Reader.take count)
  | callSite (offset : Nat) : Composed (Reader.note (.callSiteSkipped offset))
  | bind {α β : Type} {reader : Reader α} {next : α → Reader β} (hreader : Composed reader)
      (hnext : ∀ value, Composed (next value)) : Composed (reader >>= next)
  | within {α : Type} {reader : Reader α} (body : Bytes) (hreader : Composed reader) :
      Composed (Reader.within body reader)

namespace Composed

variable {α β : Type}

/-! ## Readers in general -/

lemma throw_bind (error : ClassFileError) (next : α → Reader β) :
    Composed ((MonadExcept.throw error : Reader α) >>= next) :=
  .throw error

lemma ite {condition : Prop} [Decidable condition] {reader other : Reader α}
    (hreader : Composed reader)
    (hother : Composed other) : Composed (if condition then reader else other) := by
  split
  · exact hreader
  · exact hother

lemma discard {reader : Reader α} (h : Composed reader) : Composed (Functor.discard reader) := by
  rw [discard_eq_bind]
  exact h.bind fun _ => .pure _

lemma u1 : Composed Reader.u1 :=
  (take 1).bind fun _ => .pure _

lemma u2 : Composed Reader.u2 :=
  (take 2).bind fun _ => .pure _

lemma u4 : Composed Reader.u4 :=
  (take 4).bind fun _ => .pure _

lemma skip (count : Nat) : Composed (Reader.skip count) :=
  (take count).discard

lemma ofExcept (result : Except ClassFileError α) : Composed (Reader.ofExcept result) := by
  cases result with
  | error error => exact .throw error
  | ok value => exact .pure value

lemma slot (lookUp : Nat → Except ClassFileError α) : Composed (Reader.slot lookUp) :=
  u2.bind fun index => ofExcept (lookUp index)

lemma times {item : Reader α} (hitem : Composed item) (count : Nat) :
    Composed (Reader.times count item) := by
  induction count with
  | zero => exact .pure []
  | succ count ih => exact hitem.bind fun _ => ih.bind fun _ => .pure _

lemma counted {item : Reader α} (hitem : Composed item) : Composed (Reader.counted item) :=
  u2.bind fun count => times hitem count

/-! ## The parts of a class file -/

lemma constant : Composed Reader.constant := by
  refine u1.bind fun tag => ?_
  split
  · refine u2.bind fun _ => (take _).bind fun bytes => ?_
    split
    · exact .pure _
    · exact .throw _
  · exact u4.bind fun _ => .pure _
  · exact u4.bind fun _ => .pure _
  · exact (take 8).bind fun _ => .pure _
  · exact (take 8).bind fun _ => .pure _
  · exact u2.bind fun _ => .pure _
  · exact u2.bind fun _ => .pure _
  · exact u2.bind fun _ => u2.bind fun _ => .pure _
  · exact u2.bind fun _ => u2.bind fun _ => .pure _
  · exact u2.bind fun _ => u2.bind fun _ => .pure _
  · exact u2.bind fun _ => u2.bind fun _ => .pure _
  · exact (skip 3).bind fun _ => .pure _
  · exact (skip 2).bind fun _ => .pure _
  · exact (skip 2).bind fun _ => .pure _
  · exact (skip 2).bind fun _ => .pure _
  · exact (skip 4).bind fun _ => .pure _
  · exact (skip 4).bind fun _ => .pure _
  · exact .throw _

lemma fill (count rounds : Nat) (slots : Array Constant) :
    Composed (ConstantPool.fill count rounds slots) := by
  induction rounds generalizing slots with
  | zero => exact .pure slots
  | succ rounds ih => exact .ite (constant.bind fun constant => ih _) (.pure slots)

variable (pool : ConstantPool)

lemma annotationWith {value : Reader ElementValue} (hvalue : Composed value) :
    Composed (ClassFile.annotationWith pool value) := by
  refine (slot _).bind fun type => .bind (counted ?_) fun _ => .pure _
  exact (slot _).bind fun name => hvalue.bind fun _ => .pure _

lemma elementValue (levels : Nat) : Composed (ClassFile.elementValue pool levels) := by
  induction levels with
  | zero => exact .throw _
  | succ levels ih =>
      refine u1.bind fun byte => ?_
      refine .ite ((skip 2).bind fun _ => .pure _) ?_
      refine .ite ((slot _).bind fun _ => (slot _).bind fun _ => .pure _) ?_
      refine .ite ((slot _).bind fun _ => .pure _) ?_
      refine .ite ((annotationWith pool ih).bind fun _ => .pure _) ?_
      exact .ite ((counted ih).bind fun _ => .pure _) (.throw _)

lemma annotationInfo : Composed (ClassFile.annotationInfo pool) :=
  annotationWith pool (elementValue pool maxElementNesting)

lemma decodeCode (offset : Nat) (code : Bytes) :
    Composed (ClassFile.decodeCode pool offset code) := by
  fun_induction ClassFile.decodeCode pool offset code with
  | case1 => exact .pure []
  | case2 offset opcode operands ih =>
      refine (ofExcept _).bind fun length => .ite (.throw_bind _ _) ?_
      have hrest (tail : Option Operand → List Instruction → Reader (List Instruction))
          (htail : ∀ operand rest, Composed (tail operand rest)) : Composed
          (do
            let operand ← Reader.ofExcept (operand? pool opcode operands)
            let rest ← ClassFile.decodeCode pool (offset + 1 + length) (operands.drop length)
            tail operand rest) :=
        (ofExcept _).bind fun operand => (ih length).bind fun rest => htail operand rest
      refine .ite ((callSite offset).bind fun _ => hrest _ fun operand rest => ?_)
        (hrest _ fun operand rest => ?_)
      all_goals
        cases operand with
        | none => exact .pure _
        | some operand => exact .pure _

lemma code : Composed (Reader.code pool) := by
  refine (skip 4).bind fun _ => u4.bind fun length => (take length).bind fun bytes => ?_
  refine (decodeCode pool 0 bytes).bind fun instructions => ?_
  refine u2.bind fun handlers => (skip _).bind fun _ => .bind (discard (counted ?_)) fun _ =>
    .pure instructions
  exact (skip 2).bind fun _ => u4.bind fun length => skip length

lemma enclosingMethod : Composed (Reader.enclosingMethod pool) :=
  (slot _).bind fun _ => u2.bind fun _ => .ite (.pure _) <| (ofExcept _).bind fun _ => .pure _

lemma parameterAnnotations : Composed (Reader.parameterAnnotations pool) :=
  u1.bind fun count => times (counted (annotationInfo pool)) count.toNat

lemma attributeBody (name : String) : Composed (Reader.attributeBody pool name) := by
  unfold Reader.attributeBody
  split
  · exact (slot _).bind fun _ => .pure _
  · exact (slot _).bind fun _ => .pure _
  · exact (slot _).bind fun _ => .pure _
  · exact (counted (slot _)).bind fun _ => .pure _
  · exact (code pool).bind fun _ => .pure _
  · exact (enclosingMethod pool).bind fun _ => .pure _
  · exact (counted (annotationInfo pool)).bind fun _ => .pure _
  · exact (counted (annotationInfo pool)).bind fun _ => .pure _
  · exact (parameterAnnotations pool).bind fun _ => .pure _
  · exact (parameterAnnotations pool).bind fun _ => .pure _
  · exact .pure _
  · exact .pure _

lemma attributes : Composed (Attributes.read pool) := by
  refine .bind (counted ?_) fun _ => .pure _
  refine (slot _).bind fun name => u4.bind fun length => (take length).bind fun body => ?_
  exact (attributeBody pool name).within body

lemma field : Composed (FieldInfo.read pool) :=
  u2.bind fun _ => (slot _).bind fun _ => (slot _).bind fun _ =>
    (attributes pool).bind fun _ => .pure _

lemma method : Composed (MethodInfo.read pool) :=
  u2.bind fun _ => (slot _).bind fun _ => (slot _).bind fun _ =>
    (attributes pool).bind fun _ => .pure _

lemma declaration (minorVersion majorVersion : Nat) :
    Composed (ClassFile.readDeclaration minorVersion majorVersion pool) := by
  refine u2.bind fun access => (slot _).bind fun name => (slot _).bind fun superName => ?_
  refine (counted (slot _)).bind fun interfaces => (counted (field pool)).bind fun fields => ?_
  exact (counted (method pool)).bind fun methods => (attributes pool).bind fun _ => .pure _

lemma read : Composed ClassFile.read := by
  refine u4.bind fun magic => .ite (.throw_bind _ _) ?_
  refine u2.bind fun minorVersion => u2.bind fun majorVersion => ?_
  refine .bind (u2.bind fun count => (fill count count _).bind fun _ => .pure _) fun pool => ?_
  exact declaration pool minorVersion majorVersion

end Composed

end JarFacts.ClassFile
