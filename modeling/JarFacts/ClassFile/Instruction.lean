import JarFacts.ClassFile.Constant
import JarFacts.Fact.Kind

/-!
# Instructions

A method body is a sequence of instructions of very different lengths, and only a few of them say
something about other classes.  Decoding walks the whole sequence and keeps those, with their
operands looked up.
-/

namespace JarFacts.ClassFile

/-- What an instruction does to other classes. -/
inductive OpcodeClass where
  | fieldRead
  | fieldWrite
  | invoke
  | checkCast
  | instanceOf
  | new
  | other
  deriving DecidableEq

namespace OpcodeClass

/-- The name of the class. -/
def name : OpcodeClass → String
  | fieldRead => "FieldRead"
  | fieldWrite => "FieldWrite"
  | invoke => "Invoke"
  | checkCast => "CheckCast"
  | instanceOf => "InstanceOf"
  | new => "New"
  | other => "Other"

/-- All classes. -/
def all : List OpcodeClass := [fieldRead, fieldWrite, invoke, checkCast, instanceOf, new, other]

/-- The class with the given name. -/
def ofName? (name : String) : Option OpcodeClass :=
  all.find? fun opcodeClass => opcodeClass.name = name

/-- The class of an opcode.  The dynamic invocation names no method, and counts as other. -/
def ofOpcode (opcode : UInt8) : OpcodeClass :=
  match opcode.toNat with
  | 0xb2 | 0xb4 => fieldRead
  | 0xb3 | 0xb5 => fieldWrite
  | 0xb6 | 0xb7 | 0xb8 | 0xb9 => invoke
  | 0xbb => new
  | 0xc0 => checkCast
  | 0xc1 => instanceOf
  | _ => other

/-- The relation an instruction of the class gives rise to. -/
def relation? : OpcodeClass → Option RelationKind
  | fieldRead => some .reads
  | fieldWrite => some .writes
  | invoke => some .calls
  | checkCast => some .casts
  | instanceOf => some .checks
  | new => some .instantiates
  | other => none

end OpcodeClass

/-- What an instruction refers to. -/
inductive Operand where
  | member (ref : MemberRef)
  /-- An internal class name, or an array descriptor. -/
  | type (name : String)
  deriving DecidableEq

/-- An instruction that gives rise to a relation. -/
structure Instruction where
  offset : Nat
  opcode : UInt8
  opcodeClass : OpcodeClass
  operand : Operand
  deriving DecidableEq

/-- The number of operand bytes of an opcode that always takes the same number. -/
def fixedOperands? (opcode : UInt8) : Option Nat :=
  let op := opcode.toNat
  if op ≤ 0x0f then some 0
  else if op = 0x10 then some 1
  else if op = 0x11 then some 2
  else if op = 0x12 then some 1
  else if op ≤ 0x14 then some 2
  else if op ≤ 0x19 then some 1
  else if op ≤ 0x35 then some 0
  else if op ≤ 0x3a then some 1
  else if op ≤ 0x83 then some 0
  else if op = 0x84 then some 2
  else if op ≤ 0x98 then some 0
  else if op ≤ 0xa8 then some 2
  else if op = 0xa9 then some 1
  else if op ≤ 0xab then none
  else if op ≤ 0xb1 then some 0
  else if op ≤ 0xb8 then some 2
  else if op ≤ 0xba then some 4
  else if op = 0xbb then some 2
  else if op = 0xbc then some 1
  else if op = 0xbd then some 2
  else if op ≤ 0xbf then some 0
  else if op ≤ 0xc1 then some 2
  else if op ≤ 0xc3 then some 0
  else if op = 0xc4 then none
  else if op = 0xc5 then some 3
  else if op ≤ 0xc7 then some 2
  else if op ≤ 0xc9 then some 4
  else if op = 0xca then some 0
  else none

/-- The four bytes behind the first `skipped` ones, as a signed number. -/
def signedWordAt (bytes : Bytes) (skipped : Nat) : Except ClassFileError Int :=
  let word := (bytes.drop skipped).take 4
  if word.length < 4 then .error .unexpectedEof else .ok (Bytes.signed32 (Bytes.bigEndian word))

/-- The number of operand bytes of the instruction at `offset`.  The switches are padded to a
multiple of four from the start of the body and end in a table whose size they state; the wide form
of an instruction doubles its operands. -/
def operandLength (offset : Nat) (opcode : UInt8) (operands : Bytes) : Except ClassFileError Nat :=
  match fixedOperands? opcode with
  | some length => .ok length
  | none =>
    let padding := 3 - offset % 4
    if opcode = 0xaa then do
      let low ← signedWordAt operands (padding + 4)
      let high ← signedWordAt operands (padding + 8)
      let entries := high - low + 1
      if entries < 0 then .error (.invalidOpcode opcode offset)
      else .ok (padding + 12 + 4 * entries.toNat)
    else if opcode = 0xab then do
      let pairs ← signedWordAt operands (padding + 4)
      if pairs < 0 then .error (.invalidOpcode opcode offset)
      else .ok (padding + 8 + 8 * pairs.toNat)
    else if opcode = 0xc4 then
      match operands with
      | [] => .error .unexpectedEof
      | widened :: _ => .ok (if widened = 0x84 then 5 else 3)
    else .error (.invalidOpcode opcode offset)

/-- What an instruction refers to, if it gives rise to a relation. -/
def operand? (pool : ConstantPool) (opcode : UInt8) (operands : Bytes) :
    Except ClassFileError (Option Operand) :=
  let index := Bytes.bigEndian (operands.take 2)
  match OpcodeClass.ofOpcode opcode with
  | .other => .ok none
  | .fieldRead | .fieldWrite | .invoke => (some ∘ .member) <$> pool.member index
  | .checkCast | .instanceOf | .new => (some ∘ .type) <$> pool.className index

/-- The instructions of `code`, which starts at `offset` of the body, that give rise to a
relation. -/
def decodeCode (pool : ConstantPool) (offset : Nat) (code : Bytes) : Reader (List Instruction) :=
  match code with
  | [] => return []
  | opcode :: operands => do
    let length ← Reader.ofExcept (operandLength offset opcode operands)
    if (operands.take length).length < length then throw .unexpectedEof
    if opcode = 0xba then Reader.note (.callSiteSkipped offset)
    let operand ← Reader.ofExcept (operand? pool opcode operands)
    let rest ← decodeCode pool (offset + 1 + length) (operands.drop length)
    match operand with
    | some operand => return ⟨offset, opcode, .ofOpcode opcode, operand⟩ :: rest
    | none => return rest
termination_by code.length
decreasing_by
  simp only [List.length_drop, List.length_cons]
  omega

end JarFacts.ClassFile
