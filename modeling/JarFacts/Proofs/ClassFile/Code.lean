import JarFacts.ClassFile.Attribute
import JarFacts.Proofs.ClassFile.Pool

/-!
# Method bodies in bytes

A body is a sequence of instructions one behind the other.  Most have a fixed number of operand
bytes; the switches are padded to a multiple of four from the start of the body and end in a table,
and the wide form of an instruction doubles its operands.  Where an instruction stands matters for
the padding, and for the offset that is kept with an instruction that refers to a member or a type.
The lengths are stated here instruction by instruction, and decoding finds the same: one lemma for
each shape of instruction, and `InstructionLayout.reads_instructions` for the sequence.
-/

namespace JarFacts.ClassFile

/-- The instructions that refer to a field or a method. -/
inductive MemberOp where
  | getstatic
  | putstatic
  | getfield
  | putfield
  | invokevirtual
  | invokespecial
  | invokestatic
  | invokeinterface
  deriving DecidableEq

namespace MemberOp

def opcode : MemberOp → UInt8
  | getstatic => 178
  | putstatic => 179
  | getfield => 180
  | putfield => 181
  | invokevirtual => 182
  | invokespecial => 183
  | invokestatic => 184
  | invokeinterface => 185

/-- What the instruction does to the member. -/
def opcodeClass : MemberOp → OpcodeClass
  | getstatic | getfield => .fieldRead
  | putstatic | putfield => .fieldWrite
  | invokevirtual | invokespecial | invokestatic | invokeinterface => .invoke

/-- The number of operand bytes behind the reference: the interface call has a count and a zero
there. -/
def tail : MemberOp → Nat
  | invokeinterface => 2
  | _ => 0

end MemberOp

/-- The instructions that refer to a type and make, cast or test an object of it. -/
inductive TypeOp where
  | new
  | checkcast
  | instanceof
  deriving DecidableEq

namespace TypeOp

def opcode : TypeOp → UInt8
  | new => 187
  | checkcast => 192
  | instanceof => 193

/-- What the instruction does with the type. -/
def opcodeClass : TypeOp → OpcodeClass
  | new => .new
  | checkcast => .checkCast
  | instanceof => .instanceOf

end TypeOp

/-- The number of operand bytes of an instruction of a fixed width of which nothing is kept.  There
is none for the opcodes of the other shapes, and none for those that are no instruction. -/
def plainWidth? (opcode : UInt8) : Option Nat :=
  let op := opcode.toNat
  -- Constants from the pool and in place, local variables by number, `ret` and `newarray`.
  if op ∈ [16, 18, 169, 188] ∨ 21 ≤ op ∧ op ≤ 25 ∨ 54 ≤ op ∧ op ≤ 58 then some 1
  -- Wide constants, `iinc`, jumps, and arrays of objects.
  else if op ∈ [17, 19, 20, 132, 189, 198, 199] ∨ 153 ≤ op ∧ op ≤ 168 then some 2
  else if op = 197 then some 3
  -- The dynamic call and the far jumps.
  else if op ∈ [186, 200, 201] then some 4
  else if op ∈ [170, 171, 178, 179, 180, 181, 182, 183, 184, 185, 187, 192, 193, 196] ∨
    202 < op then none
  else some 0

lemma fixedOperands?_of_plainWidth? {opcode : UInt8} {width : Nat}
    (h : plainWidth? opcode = some width) :
    fixedOperands? opcode = some width ∧ OpcodeClass.ofOpcode opcode = .other := by
  have hall : ∀ n < 256, ∀ width ∈ plainWidth? (UInt8.ofNat n),
      fixedOperands? (UInt8.ofNat n) = some width ∧
      OpcodeClass.ofOpcode (UInt8.ofNat n) = .other := by
    decide +kernel
  have hopcode : UInt8.ofNat opcode.toNat = opcode := UInt8.ofNat_toNat
  have hfound := hall opcode.toNat opcode.toNat_lt
  rw [hopcode] at hfound
  exact hfound width h

/-- An instruction with its operands. -/
inductive InstructionLayout where
  | member (op : MemberOp) (ref : Ref MemberRef) (tail : Bytes)
  | type (op : TypeOp) (ref : Ref String)
  | plain (opcode : UInt8) (operands : Bytes)
  | tableswitch (padding : Bytes) (fallback : UInt32) (low high : Int32) (jumps : List UInt32)
  | lookupswitch (padding : Bytes) (fallback : UInt32) (pairs : List (UInt32 × UInt32))
  | wide (opcode : UInt8) (operands : Bytes)

namespace InstructionLayout

/-- The first byte of an instruction. -/
def opcode : InstructionLayout → UInt8
  | member op _ _ => op.opcode
  | type op _ => op.opcode
  | plain opcode _ => opcode
  | tableswitch .. => 170
  | lookupswitch .. => 171
  | wide .. => 196

/-- The bytes behind the opcode. -/
def operands : InstructionLayout → Bytes
  | member _ ref tail => ref.bytes ++ tail
  | type _ ref => ref.bytes
  | plain _ operands => operands
  | tableswitch padding fallback low high jumps =>
    padding ++ (Bytes.ofNumber 4 fallback.toNat ++ (Bytes.ofNumber 4 low.toUInt32.toNat ++
      (Bytes.ofNumber 4 high.toUInt32.toNat ++ jumps.flatMap fun jump =>
        Bytes.ofNumber 4 jump.toNat)))
  | lookupswitch padding fallback pairs =>
    padding ++ (Bytes.ofNumber 4 fallback.toNat ++ (Bytes.ofNumber 4 pairs.length ++
      pairs.flatMap fun pair => Bytes.ofNumber 4 pair.1.toNat ++ Bytes.ofNumber 4 pair.2.toNat))
  | wide opcode operands => opcode :: operands

def bytes (item : InstructionLayout) : Bytes :=
  item.opcode :: item.operands

/-- As many bytes as are missing to a multiple of four behind the opcode. -/
def IsPadding (offset : Nat) (padding : Bytes) : Prop :=
  padding.length < 4 ∧ (offset + 1 + padding.length) % 4 = 0

/-- The instruction has the operands that its opcode asks for at the offset. -/
def Shaped (offset : Nat) : InstructionLayout → Prop
  | member op _ tail => tail.length = op.tail
  | type _ _ => True
  | plain opcode operands => plainWidth? opcode = some operands.length
  | tableswitch padding _ low high jumps =>
    IsPadding offset padding ∧ (jumps.length : Int) = high.toInt - low.toInt + 1
  | lookupswitch padding _ pairs => IsPadding offset padding ∧ pairs.length < 0x80000000
  | wide opcode operands => operands.length = if opcode = 132 then 4 else 2

/-- What the instruction refers to is in the pool. -/
def Refers (stands : Nat → Constant → Prop) : InstructionLayout → Prop
  | member _ ref _ => ref.Resolves stands .member
  | type _ ref => ref.Resolves stands .className
  | plain .. | tableswitch .. | lookupswitch .. | wide .. => True

/-- What is kept of an instruction at an offset. -/
def instruction? (offset : Nat) : InstructionLayout → Option Instruction
  | member op ref _ => some ⟨offset, op.opcode, op.opcodeClass, .member ref.target⟩
  | type op ref => some ⟨offset, op.opcode, op.opcodeClass, .type ref.target⟩
  | plain .. | tableswitch .. | lookupswitch .. | wide .. => none

def operand? : InstructionLayout → Option Operand
  | member _ ref _ => some (.member ref.target)
  | type _ ref => some (.type ref.target)
  | plain .. | tableswitch .. | lookupswitch .. | wide .. => none

lemma instruction?_eq (offset : Nat) (item : InstructionLayout) :
    item.instruction? offset =
      item.operand?.map fun operand => ⟨offset, item.opcode, .ofOpcode item.opcode, operand⟩ := by
  cases item with
  | member op ref tail => cases op <;> rfl
  | type op ref => cases op <;> rfl
  | plain opcode operands => rfl
  | tableswitch padding fallback low high jumps => rfl
  | lookupswitch padding fallback pairs => rfl
  | wide opcode operands => rfl

/-! ## The length of an instruction -/

lemma signedWordAt_append (front : Bytes) {word : Nat} (hword : word < 4294967296) (rest : Bytes) :
    signedWordAt (front ++ (Bytes.ofNumber 4 word ++ rest)) front.length =
      .ok (Bytes.signed32 word) := by
  have hdrop : (front ++ (Bytes.ofNumber 4 word ++ rest)).drop front.length =
      Bytes.ofNumber 4 word ++ rest :=
    List.drop_left
  have htake : (Bytes.ofNumber 4 word ++ rest).take 4 = Bytes.ofNumber 4 word :=
    List.take_left' (Bytes.length_ofNumber 4 word)
  simp only [signedWordAt, hdrop, htake, Bytes.length_ofNumber, Nat.lt_irrefl, if_false,
    Bytes.bigEndian_ofNumber 4 hword]

lemma padding_eq {offset : Nat} {padding : Bytes} (h : IsPadding offset padding) :
    3 - offset % 4 = padding.length := by
  obtain ⟨hshort, haligned⟩ := h
  omega

lemma operandLength_tableswitch {offset : Nat} {padding : Bytes}
    (hpadding : IsPadding offset padding)
    (fallback : UInt32) {low high : Int32} {jumps : List UInt32}
    (hjumps : (jumps.length : Int) = high.toInt - low.toInt + 1) (rest : Bytes) :
    operandLength offset 170 ((tableswitch padding fallback low high jumps).operands ++ rest) =
      .ok (tableswitch padding fallback low high jumps).operands.length := by
  set table := jumps.flatMap fun jump => Bytes.ofNumber 4 jump.toNat with htable
  set code := (tableswitch padding fallback low high jumps).operands ++ rest with hcode
  have hlow : signedWordAt code (padding.length + 4) = .ok low.toInt := by
    have hword :=
      signedWordAt_append (padding ++ Bytes.ofNumber 4 fallback.toNat) low.toUInt32.toNat_lt
      (Bytes.ofNumber 4 high.toUInt32.toNat ++ table ++ rest)
    rw [PoolEntry.signed32_toUInt32] at hword
    simpa [hcode, operands, htable] using hword
  have hhigh : signedWordAt code (padding.length + 8) = .ok high.toInt := by
    have hword := signedWordAt_append
      (padding ++ Bytes.ofNumber 4 fallback.toNat ++ Bytes.ofNumber 4 low.toUInt32.toNat)
        high.toUInt32.toNat_lt
      (table ++ rest)
    rw [PoolEntry.signed32_toUInt32] at hword
    simpa [hcode, operands, htable] using hword
  have hlength : (tableswitch padding fallback low high jumps).operands.length =
      padding.length + 12 + 4 * jumps.length := by
    simp only [operands, List.length_append, Bytes.length_ofNumber,
      Bytes.length_flatMap fun jump : UInt32 => Bytes.length_ofNumber 4 jump.toNat]
    omega
  have hunfold : operandLength offset 170 code = (do
      let low ← signedWordAt code (3 - offset % 4 + 4)
      let high ← signedWordAt code (3 - offset % 4 + 8)
      let entries := high - low + 1
      if entries < 0 then .error (.invalidOpcode 170 offset)
      else .ok (3 - offset % 4 + 12 + 4 * entries.toNat)) := rfl
  rw [hunfold, padding_eq hpadding, hlow, hhigh, hlength]
  change (if high.toInt - low.toInt + 1 < 0 then _ else Except.ok _) = _
  rw [← hjumps, if_neg (by omega), Int.toNat_natCast]

lemma operandLength_lookupswitch {offset : Nat} {padding : Bytes}
    (hpadding : IsPadding offset padding)
    (fallback : UInt32) {pairs : List (UInt32 × UInt32)} (hpairs : pairs.length < 0x80000000)
    (rest : Bytes) :
    operandLength offset 171 ((lookupswitch padding fallback pairs).operands ++ rest) =
      .ok (lookupswitch padding fallback pairs).operands.length := by
  set table := pairs.flatMap fun pair =>
    Bytes.ofNumber 4 pair.1.toNat ++ Bytes.ofNumber 4 pair.2.toNat with htable
  set code := (lookupswitch padding fallback pairs).operands ++ rest with hcode
  have hsigned : Bytes.signed32 pairs.length = pairs.length := if_pos hpairs
  have hcount : signedWordAt code (padding.length + 4) = .ok (pairs.length : Int) := by
    have hword := signedWordAt_append (padding ++ Bytes.ofNumber 4 fallback.toNat)
      (show pairs.length < 4294967296 by omega) (table ++ rest)
    rw [hsigned] at hword
    simpa [hcode, operands, htable] using hword
  have hpair : ∀ pair : UInt32 × UInt32,
      (Bytes.ofNumber 4 pair.1.toNat ++ Bytes.ofNumber 4 pair.2.toNat).length = 8 := fun pair => by
    rw [List.length_append, Bytes.length_ofNumber, Bytes.length_ofNumber]
  have hlength : (lookupswitch padding fallback pairs).operands.length =
      padding.length + 8 + 8 * pairs.length := by
    simp only [operands, List.length_append, Bytes.length_ofNumber, Bytes.length_flatMap hpair]
    omega
  have hunfold : operandLength offset 171 code = (do
      let pairs ← signedWordAt code (3 - offset % 4 + 4)
      if pairs < 0 then .error (.invalidOpcode 171 offset)
      else .ok (3 - offset % 4 + 8 + 8 * pairs.toNat)) := rfl
  rw [hunfold, padding_eq hpadding, hcount, hlength]
  change (if (pairs.length : Int) < 0 then Except.error (.invalidOpcode 171 offset)
    else Except.ok _) = _
  rw [if_neg (by omega), Int.toNat_natCast]

/-- The length of an instruction is found, whatever follows it. -/
lemma operandLength_eq {offset : Nat} {item : InstructionLayout} (hshaped : item.Shaped offset)
    (rest : Bytes) :
    operandLength offset item.opcode (item.operands ++ rest) = .ok item.operands.length := by
  cases item with
  | member op ref tail =>
      have htail : tail.length = op.tail := hshaped
      have hlength : (member op ref tail).operands.length = 2 + op.tail := by
        rw [operands, List.length_append, Ref.bytes, Bytes.length_ofNumber, htail]
      rw [hlength]
      cases op <;> rfl
  | type op ref => cases op <;> rfl
  | plain opcode operands =>
      rw [operandLength.eq_def, InstructionLayout.opcode, (fixedOperands?_of_plainWidth? hshaped).1]
      rfl
  | tableswitch padding fallback low high jumps =>
      exact operandLength_tableswitch hshaped.1 fallback hshaped.2 rest
  | lookupswitch padding fallback pairs =>
      exact operandLength_lookupswitch hshaped.1 fallback hshaped.2 rest
  | wide opcode operands =>
      have hlength : operands.length = if opcode = 132 then 4 else 2 := hshaped
      change Except.ok (if opcode = 132 then 5 else 3) = Except.ok (operands.length + 1)
      rw [hlength]
      split_ifs <;> rfl

/-- The reference of an instruction is found, whatever follows it. -/
lemma operand?_eq {pool : ConstantPool} {offset : Nat} {item : InstructionLayout}
    (hshaped : item.Shaped offset) (hrefers : item.Refers pool.Stands) (rest : Bytes) :
    ClassFile.operand? pool item.opcode (item.operands ++ rest) = .ok item.operand? := by
  have htake (ref : UInt16) (more : Bytes) :
      Bytes.bigEndian ((Bytes.ofNumber 2 ref.toNat ++ more).take 2) = ref.toNat := by
    rw [List.take_left' (Bytes.length_ofNumber 2 _), Bytes.bigEndian_ofNumber 2 ref.toNat_lt]
  cases item with
  | member op ref tail =>
      have hmember : pool.member ref.slot.toNat = .ok ref.target :=
        ConstantPool.lookUp_of_holds hrefers
      rw [operands, Ref.bytes, List.append_assoc]
      cases op <;> simp only [ClassFile.operand?, htake, hmember] <;> rfl
  | type op ref =>
      have hclass : pool.className ref.slot.toNat = .ok ref.target :=
        ConstantPool.lookUp_of_holds hrefers
      rw [operands, Ref.bytes]
      cases op <;> simp only [ClassFile.operand?, htake, hclass] <;> rfl
  | plain opcode operands =>
      rw [ClassFile.operand?, InstructionLayout.opcode, (fixedOperands?_of_plainWidth? hshaped).2]
      rfl
  | tableswitch padding fallback low high jumps => rfl
  | lookupswitch padding fallback pairs => rfl
  | wide opcode operands => rfl

/-! ## The sequence -/

/-- What is kept of a body that starts at an offset. -/
def instructions (offset : Nat) : List InstructionLayout → List Instruction
  | [] => []
  | item :: rest => (item.instruction? offset).toList ++ instructions
      (offset + item.bytes.length) rest

/-- Every instruction of the body has its operands where it stands, and what it refers to is in the
pool. -/
def StandFrom (stands : Nat → Constant → Prop) (offset : Nat) : List InstructionLayout → Prop
  | [] => True
  | item :: rest =>
    (item.Shaped offset ∧ item.Refers stands) ∧ StandFrom stands (offset + item.bytes.length) rest

/-- A body is decoded instruction by instruction. -/
lemma reads_instructions {pool : ConstantPool} {offset : Nat} {items : List InstructionLayout}
    (hitems : StandFrom pool.Stands offset items) :
    Reads (decodeCode pool offset (items.flatMap bytes)) [] (instructions offset items) := by
  induction items generalizing offset with
  | nil =>
      rw [List.flatMap_nil, decodeCode]
      exact .pure []
  | cons item rest ih =>
      obtain ⟨⟨hshaped, hrefers⟩, hrest⟩ := hitems
      have hlength : offset + item.bytes.length = offset + 1 + item.operands.length := by
        rw [bytes, List.length_cons]
        omega
      have htake : (item.operands ++ rest.flatMap bytes).take item.operands.length =
          item.operands := List.take_left
      have hdrop : (item.operands ++ rest.flatMap bytes).drop item.operands.length =
          rest.flatMap bytes :=
        List.drop_left
      rw [List.flatMap_cons, bytes, List.cons_append, decodeCode]
      refine (Reads.ofExcept (operandLength_eq hshaped _)).bind_silent ?_
      simp only [htake, hdrop, Nat.lt_irrefl, if_false]
      split_ifs
      -- a call site is noted first; what follows is the same either way
      on_goal 1 => refine (Reads.note _).bind_silent ?_
      all_goals
        rw [instructions, instruction?_eq, hlength]
        refine (Reads.ofExcept (operand?_eq hshaped hrefers _)).bind_silent
          ((ih (hlength ▸ hrest)).bind_silent ?_)
        cases item.operand? with
        | none => exact .pure _
        | some operand => exact .pure _

end InstructionLayout

/-! ## The attribute that holds a body -/

/-- A row of an exception table. -/
structure Handler where
  first : UInt16
  last : UInt16
  entry : UInt16
  caught : UInt16

def Handler.bytes (handler : Handler) : Bytes :=
  Bytes.ofNumber 2 handler.first.toNat ++ Bytes.ofNumber 2 handler.last.toNat ++
    Bytes.ofNumber 2 handler.entry.toNat ++ Bytes.ofNumber 2 handler.caught.toNat

lemma Handler.length_bytes (handler : Handler) : handler.bytes.length = 8 := by
  simp only [bytes, List.length_append, Bytes.length_ofNumber]

/-- An attribute that is passed over, and whose name is not looked up. -/
structure PassedAttribute where
  name : UInt16
  body : Bytes

def PassedAttribute.bytes (item : PassedAttribute) : Bytes :=
  Bytes.ofNumber 2 item.name.toNat ++ (Bytes.ofNumber 4 item.body.length ++ item.body)

/-- A method body with what belongs to it. -/
structure CodeLayout where
  maxStack : UInt16
  maxLocals : UInt16
  body : List InstructionLayout
  handlers : List Handler
  attributes : List PassedAttribute

namespace CodeLayout

def bytes (code : CodeLayout) : Bytes :=
  let frame := Bytes.ofNumber 2 code.maxStack.toNat ++ Bytes.ofNumber 2 code.maxLocals.toNat
  let body := code.body.flatMap InstructionLayout.bytes
  frame ++ (Bytes.ofNumber 4 body.length ++ (body ++ (Bytes.counted Handler.bytes code.handlers ++
    Bytes.counted PassedAttribute.bytes code.attributes)))

/-- The body is a sequence of instructions, and all numbers fit into their fields. -/
structure Legal (pool : PoolLayout) (code : CodeLayout) : Prop where
  body : InstructionLayout.StandFrom pool.Stands 0 code.body
  bodyLength : (code.body.flatMap InstructionLayout.bytes).length < 4294967296
  handlerCount : code.handlers.length < 65536
  attributeCount : code.attributes.length < 65536
  attributeLength : ∀ item ∈ code.attributes, item.body.length < 4294967296

/-- What is kept of a method body. -/
def instructions (code : CodeLayout) : List Instruction :=
  InstructionLayout.instructions 0 code.body

lemma reads_passedAttribute {item : PassedAttribute} (h : item.body.length < 4294967296) :
    Reads (do
      Reader.skip 2
      Reader.skip (← Reader.u4)) item.bytes () :=
  (Reads.skip (Bytes.ofNumber 2 item.name.toNat)).bind ((Reads.u4 h).bind (Reads.skip item.body))

lemma reads {pool : PoolLayout} {code : CodeLayout} (h : code.Legal pool) :
    Reads (Reader.code pool.constants) code.bytes code.instructions := by
  have hframe :=
    Reads.skip (Bytes.ofNumber 2 code.maxStack.toNat ++ Bytes.ofNumber 2 code.maxLocals.toNat)
  have hbody := h.body
  rw [← PoolLayout.stands_constants] at hbody
  have hinstructions := InstructionLayout.reads_instructions hbody
  have htable := Reads.skip (code.handlers.flatMap Handler.bytes)
  rw [Bytes.length_flatMap Handler.length_bytes] at htable
  have hattributes := Reads.counted h.attributeCount fun item hitem =>
    reads_passedAttribute (h.attributeLength item hitem)
  refine hframe.bind
    ((Reads.u4 h.bodyLength).bind ((Reads.take _).bind (hinstructions.bind_silent ?_)))
  refine (Reads.u2 h.handlerCount).bind (htable.bind ?_)
  exact hattributes.discard.map _

end CodeLayout

end JarFacts.ClassFile
