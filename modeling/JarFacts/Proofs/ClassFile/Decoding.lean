import JarFacts.Proofs.ClassFile.Accepting
import JarFacts.Proofs.ClassFile.Code

/-!
# Every body that is decoded is a sequence of instructions

`InstructionLayout.reads_instructions` decodes bodies that are laid out as instructions.  Here a
body is any bytes, and if decoding has a result, the bytes turn out to be the instructions of some
layout, each of them legal where it stands (`consumes_instructions`).  For one instruction this is
`InstructionLayout.exists_of_operandLength`: the number of operand bytes that decoding finds, and
the reference that it follows, leave room for one shape of instruction only.

So a body is decoded exactly if it is such a sequence, with what the sequence has to keep
(`decodeCode_eq_ok_iff`).
-/

namespace JarFacts

namespace Bytes

lemma exists_u2 {bytes : Bytes} (hlength : bytes.length = 2) : ∃ n :
    UInt16, bytes = ofNumber 2 n.toNat := by
  have hlt : bytes.bigEndian < 65536 := by simpa [hlength] using bytes.bigEndian_lt
  refine ⟨UInt16.ofNat bytes.bigEndian, ?_⟩
  rw [UInt16.toNat_ofNat_of_lt' hlt, ← hlength, ofNumber_bigEndian]

lemma exists_u4 {bytes : Bytes} (hlength : bytes.length = 4) : ∃ n :
    UInt32, bytes = ofNumber 4 n.toNat := by
  have hlt : bytes.bigEndian < 4294967296 := by simpa [hlength] using bytes.bigEndian_lt
  refine ⟨UInt32.ofNat bytes.bigEndian, ?_⟩
  rw [UInt32.toNat_ofNat_of_lt' hlt, ← hlength, ofNumber_bigEndian]

/-- Bytes with enough of them have a front of any length. -/
lemma exists_front (bytes : Bytes) {count : Nat} (hcount : count ≤ bytes.length) :
    ∃ front rest, bytes = front ++ rest ∧ front.length = count :=
  ⟨bytes.take count, bytes.drop count, (List.take_append_drop count bytes).symm,
    List.length_take_of_le hcount⟩

lemma exists_u4_pair {bytes : Bytes} (hlength : bytes.length = 8) :
    ∃ pair : UInt32 × UInt32, bytes = ofNumber 4 pair.1.toNat ++ ofNumber 4 pair.2.toNat := by
  obtain ⟨first, second, rfl, hfirst⟩ := exists_front bytes (show 4 ≤ _ by omega)
  rw [List.length_append] at hlength
  obtain ⟨first, rfl⟩ := exists_u4 hfirst
  obtain ⟨second, rfl⟩ := exists_u4 (show second.length = 4 by omega)
  exact ⟨(first, second), rfl⟩

end Bytes

namespace ClassFile

namespace InstructionLayout

/-- An opcode of a fixed length is a plain one, or that of an instruction that refers to a member or
to a type. -/
lemma opcode_cases {opcode : UInt8} {width : Nat} (h : fixedOperands? opcode = some width) :
    plainWidth? opcode = some width ∨ (∃ op : MemberOp, opcode = op.opcode ∧ width = 2 + op.tail) ∨
      ∃ op : TypeOp, opcode = op.opcode ∧ width = 2 := by
  have hall : ∀ n < 256, ∀ width ∈ fixedOperands? (UInt8.ofNat n),
      plainWidth? (UInt8.ofNat n) = some width ∨
      (∃ op ∈ [MemberOp.getstatic, .putstatic, .getfield, .putfield, .invokevirtual,
        .invokespecial, .invokestatic,
        .invokeinterface], UInt8.ofNat n = op.opcode ∧ width = 2 + op.tail) ∨
      ∃ op ∈ [TypeOp.new, .checkcast, .instanceof], UInt8.ofNat n = op.opcode ∧ width = 2 := by
    decide +kernel
  have hopcode : UInt8.ofNat opcode.toNat = opcode := UInt8.ofNat_toNat
  have hfound := hall opcode.toNat opcode.toNat_lt width (by rw [hopcode]; exact h)
  rw [hopcode] at hfound
  rcases hfound with hplain | ⟨op, -, hmember⟩ | ⟨op, -, htype⟩
  · exact .inl hplain
  · exact .inr (.inl ⟨op, hmember⟩)
  · exact .inr (.inr ⟨op, htype⟩)

/-- A word that is found behind some bytes stands there. -/
lemma exists_of_signedWordAt (front : Bytes) {rest : Bytes} {value : Int}
    (h : signedWordAt (front ++ rest) front.length = .ok value) :
    ∃ (word : Int32) (more : Bytes), rest = Bytes.ofNumber 4 word.toUInt32.toNat ++ more ∧
      value = word.toInt := by
  have hfit : 4 ≤ rest.length := by
    by_contra hshort
    rw [signedWordAt, List.drop_left, if_pos (by rw [List.length_take]; omega)] at h
    cases h
  obtain ⟨word, more, rfl, hword⟩ := Bytes.exists_front rest hfit
  obtain ⟨word, rfl⟩ := Bytes.exists_u4 hword
  refine ⟨word.toInt32, more, rfl, ?_⟩
  rw [signedWordAt_append front word.toNat_lt more] at h
  cases h
  exact PoolEntry.signed32_toUInt32 word.toInt32

/-- A number that is not negative is its word as it stands, which is a small one. -/
lemma toNat_toInt {word : Int32} (h : 0 ≤ word.toInt) :
    word.toInt.toNat = word.toUInt32.toNat ∧ word.toUInt32.toNat < 0x80000000 := by
  have hlt := word.toUInt32.toNat_lt
  rw [← PoolEntry.signed32_toUInt32, Bytes.signed32] at h ⊢
  split_ifs at h ⊢ <;> omega

/-- A switch starts with its padding and the jump for all other values. -/
lemma exists_switch_front {offset : Nat} (operands : Bytes)
    (hfit : 3 - offset % 4 + 4 ≤ operands.length) :
    ∃ (padding : Bytes) (fallback : UInt32) (rest : Bytes),
      operands = padding ++ Bytes.ofNumber 4 fallback.toNat ++ rest ∧ IsPadding offset padding ∧
        (padding ++ Bytes.ofNumber 4 fallback.toNat).length = 3 - offset % 4 + 4 := by
  obtain ⟨padding, rest, rfl, hpadding⟩ :=
    Bytes.exists_front operands (show 3 - offset % 4 ≤ _ by omega)
  rw [List.length_append] at hfit
  obtain ⟨fallback, rest, rfl, hfallback⟩ := Bytes.exists_front rest (show 4 ≤ _ by omega)
  obtain ⟨fallback, rfl⟩ := Bytes.exists_u4 hfallback
  refine ⟨padding, fallback, rest, (List.append_assoc ..).symm, ?_, ?_⟩
  · rw [IsPadding]
    omega
  · rw [List.length_append, hpadding, Bytes.length_ofNumber]

lemma exists_tableswitch {offset : Nat} {operands : Bytes} {length : Nat}
    (hlength : operandLength offset 170 operands = .ok length) (hfit : length ≤ operands.length)
    (pool : ConstantPool) :
    ∃ item : InstructionLayout, (item.Shaped offset ∧ item.Refers pool.Stands) ∧ item.opcode = 170 ∧
      item.operands = operands.take length := by
  have hunfold : operandLength offset 170 operands = (do
      let low ← signedWordAt operands (3 - offset % 4 + 4)
      let high ← signedWordAt operands (3 - offset % 4 + 8)
      let entries := high - low + 1
      if entries < 0 then .error (.invalidOpcode 170 offset)
      else .ok (3 - offset % 4 + 12 + 4 * entries.toNat)) := rfl
  rw [hunfold] at hlength
  obtain ⟨low, hlow, hlength⟩ := exists_ok_of_bind hlength
  obtain ⟨high, hhigh, hlength⟩ := exists_ok_of_bind hlength
  dsimp only at hlength
  split_ifs at hlength with hentries
  cases hlength
  -- cut the operands into the front, the two bounds, the table, and what follows the instruction
  obtain ⟨padding, fallback, rest, rfl, hpadding, hfront⟩ :=
    exists_switch_front operands (show 3 - offset % 4 + 4 ≤ _ by omega)
  rw [← hfront] at hlow
  obtain ⟨low, rest, rfl, rfl⟩ := exists_of_signedWordAt _ hlow
  have hfront' :
      (padding ++ Bytes.ofNumber 4 fallback.toNat ++ Bytes.ofNumber 4 low.toUInt32.toNat).length =
      3 - offset % 4 + 8 := by
    rw [List.length_append, hfront, Bytes.length_ofNumber]
  rw [← hfront', ← List.append_assoc] at hhigh
  obtain ⟨high, rest, rfl, rfl⟩ := exists_of_signedWordAt _ hhigh
  simp only [List.length_append, Bytes.length_ofNumber] at hfit hfront
  obtain ⟨table, rest, rfl, htable⟩ := Bytes.exists_front rest
    (show 4 * (high.toInt - low.toInt + 1).toNat ≤ _ by omega)
  obtain ⟨jumps, hjumps, rfl⟩ := Bytes.exists_flatMap_eq (fun _ => Bytes.exists_u4) _ htable
  refine ⟨.tableswitch padding fallback low high jumps, ⟨⟨hpadding, by omega⟩, trivial⟩, rfl, ?_⟩
  rw [operands]
  simp only [← List.append_assoc]
  refine (List.take_left' ?_).symm
  simp only [List.length_append, Bytes.length_ofNumber, htable]
  omega

lemma exists_lookupswitch {offset : Nat} {operands : Bytes} {length : Nat}
    (hlength : operandLength offset 171 operands = .ok length) (hfit : length ≤ operands.length)
    (pool : ConstantPool) :
    ∃ item : InstructionLayout, (item.Shaped offset ∧ item.Refers pool.Stands) ∧ item.opcode = 171 ∧
      item.operands = operands.take length := by
  have hunfold : operandLength offset 171 operands = (do
      let pairs ← signedWordAt operands (3 - offset % 4 + 4)
      if pairs < 0 then .error (.invalidOpcode 171 offset)
      else .ok (3 - offset % 4 + 8 + 8 * pairs.toNat)) := rfl
  rw [hunfold] at hlength
  obtain ⟨count, hcount, hlength⟩ := exists_ok_of_bind hlength
  split_ifs at hlength with hnegative
  cases hlength
  -- cut the operands into the front, the number of pairs, the table, and what follows the
  -- instruction
  obtain ⟨padding, fallback, rest, rfl, hpadding, hfront⟩ :=
    exists_switch_front operands (show 3 - offset % 4 + 4 ≤ _ by omega)
  rw [← hfront] at hcount
  obtain ⟨count, rest, rfl, rfl⟩ := exists_of_signedWordAt _ hcount
  obtain ⟨hvalue, hsmall⟩ := toNat_toInt (Int.not_lt.mp hnegative)
  rw [hvalue] at hfit ⊢
  simp only [List.length_append, Bytes.length_ofNumber] at hfit hfront
  obtain ⟨table, rest, rfl, htable⟩ :=
    Bytes.exists_front rest (show 8 * count.toUInt32.toNat ≤ _ by omega)
  obtain ⟨pairs, hpairs, rfl⟩ := Bytes.exists_flatMap_eq (fun _ => Bytes.exists_u4_pair) _ htable
  refine ⟨.lookupswitch padding fallback pairs, ⟨⟨hpadding, by omega⟩, trivial⟩, rfl, ?_⟩
  rw [operands, hpairs]
  simp only [← List.append_assoc]
  refine (List.take_left' ?_).symm
  simp only [List.length_append, Bytes.length_ofNumber, htable]
  omega

lemma exists_wide {offset : Nat} {operands : Bytes} {length : Nat}
    (hlength : operandLength offset 196 operands = .ok length) (hfit : length ≤ operands.length)
    (pool : ConstantPool) :
    ∃ item : InstructionLayout, (item.Shaped offset ∧ item.Refers pool.Stands) ∧ item.opcode = 196 ∧
      item.operands = operands.take length := by
  cases operands with
  | nil => cases hlength
  | cons widened operands =>
      have hcases : (Except.ok (if widened = 132 then 5 else 3) : Except ClassFileError Nat) =
          .ok length := hlength
      obtain ⟨rest, rfl⟩ : ∃ rest, length = rest + 1 := by
        cases hcases
        split_ifs
        · exact ⟨4, rfl⟩
        · exact ⟨2, rfl⟩
      refine ⟨.wide widened (operands.take rest), ⟨?_, trivial⟩, rfl, rfl⟩
      have hrest : (operands.take rest).length = rest :=
        List.length_take_of_le (Nat.le_of_succ_le_succ hfit)
      rw [Shaped, hrest]
      have hvalue := Except.ok.inj hcases
      split_ifs at hvalue ⊢ <;> omega

lemma exists_member {offset : Nat} {operands : Bytes} {pool : ConstantPool}
    {operand : Option Operand} (op : MemberOp) (hfit : 2 + op.tail ≤ operands.length)
    (hoperand : ClassFile.operand? pool op.opcode operands = .ok operand) :
    ∃ item : InstructionLayout, (item.Shaped offset ∧ item.Refers pool.Stands) ∧
      item.opcode = op.opcode ∧
      item.operands = operands.take (2 + op.tail) := by
  obtain ⟨index, rest, rfl, hindex⟩ := Bytes.exists_front operands (show 2 ≤ _ by omega)
  rw [List.length_append] at hfit
  obtain ⟨slot, rfl⟩ := Bytes.exists_u2 hindex
  have hmember : ∃ ref, pool.member slot.toNat = .ok ref := by
    rw [ClassFile.operand?, List.take_left' hindex,
      Bytes.bigEndian_ofNumber 2 slot.toNat_lt] at hoperand
    cases hfound : pool.member slot.toNat with
    | error error => rw [hfound] at hoperand; cases op <;> cases hoperand
    | ok ref => exact ⟨ref, rfl⟩
  obtain ⟨ref, href⟩ := hmember
  refine ⟨.member op ⟨slot, ref⟩ (rest.take op.tail),
    ⟨?_, ConstantPool.lookUp_eq_ok_iff.mp href⟩, rfl, ?_⟩
  · exact List.length_take_of_le (by omega)
  · have hslot : (Bytes.ofNumber 2 slot.toNat).take (2 + op.tail) = Bytes.ofNumber 2 slot.toNat :=
      List.take_of_length_le (by omega)
    rw [List.take_append, hslot, hindex, Nat.add_sub_cancel_left]
    rfl

lemma exists_type {offset : Nat} {operands : Bytes} {pool : ConstantPool} {operand : Option Operand}
    (op : TypeOp) (hfit : 2 ≤ operands.length)
    (hoperand : ClassFile.operand? pool op.opcode operands = .ok operand) :
    ∃ item : InstructionLayout, (item.Shaped offset ∧ item.Refers pool.Stands) ∧
      item.opcode = op.opcode ∧
      item.operands = operands.take 2 := by
  obtain ⟨index, rest, rfl, hindex⟩ := Bytes.exists_front operands hfit
  obtain ⟨slot, rfl⟩ := Bytes.exists_u2 hindex
  have hclass : ∃ name, pool.className slot.toNat = .ok name := by
    rw [ClassFile.operand?, List.take_left' hindex,
      Bytes.bigEndian_ofNumber 2 slot.toNat_lt] at hoperand
    cases hfound : pool.className slot.toNat with
    | error error => rw [hfound] at hoperand; cases op <;> cases hoperand
    | ok name => exact ⟨name, rfl⟩
  obtain ⟨name, hname⟩ := hclass
  have hrefers : (type op ⟨slot, name⟩).Refers pool.Stands :=
    ConstantPool.lookUp_eq_ok_iff.mp hname
  exact ⟨.type op ⟨slot, name⟩, ⟨trivial, hrefers⟩, rfl, (List.take_left' hindex).symm⟩

/-- Where decoding finds the length of an instruction and what it refers to, one of the instructions
stands. -/
lemma exists_of_operandLength {offset : Nat} {opcode : UInt8} {operands : Bytes} {length : Nat}
    {pool : ConstantPool}
    {operand : Option Operand} (hlength : operandLength offset opcode operands = .ok length)
    (hfit : length ≤ operands.length)
    (hoperand : ClassFile.operand? pool opcode operands = .ok operand) :
    ∃ item : InstructionLayout, (item.Shaped offset ∧ item.Refers pool.Stands) ∧
      item.opcode = opcode ∧
      item.operands = operands.take length := by
  cases hfixed : fixedOperands? opcode with
  | some width =>
      rw [operandLength.eq_def, hfixed] at hlength
      cases hlength
      rcases opcode_cases hfixed with hplain | ⟨op, rfl, rfl⟩ | ⟨op, rfl, rfl⟩
      · refine ⟨.plain opcode (operands.take length), ⟨?_, trivial⟩, rfl, rfl⟩
        rw [Shaped, List.length_take_of_le hfit, hplain]
      · exact exists_member op hfit hoperand
      · exact exists_type op hfit hoperand
  | none =>
      by_cases htable : opcode = 170
      · cases htable
        exact exists_tableswitch hlength hfit pool
      by_cases hlookup : opcode = 171
      · cases hlookup
        exact exists_lookupswitch hlength hfit pool
      by_cases hwide : opcode = 196
      · cases hwide
        exact exists_wide hlength hfit pool
      -- no other opcode has a length
      rw [operandLength.eq_def, hfixed] at hlength
      simp only [htable, hlookup, hwide, if_false] at hlength
      cases hlength

/-- An instruction that is found in front of a sequence of instructions makes up a sequence with
it. -/
lemma exists_cons {offset : Nat} {opcode : UInt8} {operands : Bytes} {length : Nat}
    {pool : ConstantPool} {operand : Option Operand} {items : List InstructionLayout}
    (hlength : operandLength offset opcode operands = .ok length) (hfit : length ≤ operands.length)
    (hoperand : ClassFile.operand? pool opcode operands = .ok operand)
    (hitems : StandFrom pool.Stands (offset + 1 + length) items)
    (hdrop : operands.drop length = items.flatMap bytes) :
    ∃ items', StandFrom pool.Stands offset items' ∧ opcode :: operands = items'.flatMap bytes ∧
      (operand.map fun operand =>
        (⟨offset, opcode, .ofOpcode opcode, operand⟩ : Instruction)).toList ++
        instructions (offset + 1 + length) items = instructions offset items' := by
  obtain ⟨item, hitem, rfl, htaken⟩ := exists_of_operandLength hlength hfit hoperand
  have hoperands : operands = item.operands ++ items.flatMap bytes := by
    rw [htaken, ← hdrop, List.take_append_drop]
  have hend : offset + 1 + length = offset + item.bytes.length := by
    rw [bytes, List.length_cons, htaken, List.length_take_of_le hfit]
    omega
  have hfound : item.operand? = operand := by
    rw [hoperands, operand?_eq hitem.1 hitem.2] at hoperand
    exact Except.ok.inj hoperand
  refine ⟨item :: items, ⟨hitem, hend ▸ hitems⟩, ?_, ?_⟩
  · rw [List.flatMap_cons, bytes, List.cons_append, ← hoperands]
  · rw [instructions, instruction?_eq, hfound, hend]

end InstructionLayout

/-- **Whatever is decoded is a sequence of instructions**, each of them legal where it stands. -/
lemma consumes_instructions (pool : ConstantPool) (offset : Nat) (code : Bytes) :
    Consumes (decodeCode pool offset code) fun bytes list =>
      bytes = [] ∧
      ∃ items : List InstructionLayout, InstructionLayout.StandFrom pool.Stands offset items ∧
        code = items.flatMap InstructionLayout.bytes ∧
        list = InstructionLayout.instructions offset items := by
  fun_induction decodeCode pool offset code with
  | case1 => exact .pure ⟨rfl, [], trivial, rfl, rfl⟩
  | case2 offset opcode operands ih =>
      refine (Consumes.ofExcept _).bind ?_
      rintro length _ ⟨rfl, hlength⟩
      by_cases hshort : (operands.take length).length < length
      · rw [if_pos hshort]
        exact .throw_bind _ _
      · have hfit : length ≤ operands.length := by
          rw [List.length_take] at hshort
          omega
        rw [if_neg hshort]
        refine .ite_note_bind ((Consumes.ofExcept _).bind ?_)
        rintro operand _ ⟨rfl, hoperand⟩
        refine (ih length).bind ?_
        rintro rest _ ⟨rfl, items, hitems, hdrop, rfl⟩
        have hcons := InstructionLayout.exists_cons hlength hfit hoperand hitems hdrop
        cases operand with
        | none => exact .pure ⟨rfl, hcons⟩
        | some operand => exact .pure ⟨rfl, hcons⟩

/-- The same for a pool that is laid out entry by entry. -/
lemma consumes_decodeCode (pool : PoolLayout) (offset : Nat) (code : Bytes) :
    Consumes (decodeCode pool.constants offset code) fun bytes list =>
      bytes = [] ∧
      ∃ items : List InstructionLayout, InstructionLayout.StandFrom pool.Stands offset items ∧
        code = items.flatMap InstructionLayout.bytes ∧
        list = InstructionLayout.instructions offset items := by
  rw [← PoolLayout.stands_constants]
  exact consumes_instructions pool.constants offset code

/-- What is kept of a body stands where it is said to stand, and is of a kind that says
something. -/
lemma InstructionLayout.getElem?_of_mem_instructions {offset : Nat} {items : List InstructionLayout}
    {kept : Instruction} (h : kept ∈ instructions offset items) :
    offset ≤ kept.offset ∧ (items.flatMap bytes)[kept.offset - offset]? = some kept.opcode ∧
      kept.opcodeClass = .ofOpcode kept.opcode ∧ kept.opcodeClass ≠ .other := by
  induction items generalizing offset with
  | nil => cases h
  | cons item rest ih =>
      rcases List.mem_append.mp h with hfirst | hrest
      · rw [Option.mem_toList] at hfirst
        cases item with
        | member op ref tail =>
            cases hfirst
            refine ⟨Nat.le_refl _,
              ?_, by cases op <;> rfl, by cases op <;> simp [MemberOp.opcodeClass]⟩
            rw [Nat.sub_self]
            rfl
        | type op ref =>
            cases hfirst
            refine ⟨Nat.le_refl _,
              ?_, by cases op <;> rfl, by cases op <;> simp [TypeOp.opcodeClass]⟩
            rw [Nat.sub_self]
            rfl
        | _ => cases hfirst
      · obtain ⟨hle, hfound, hclass⟩ := ih hrest
        refine ⟨by omega, ?_, hclass⟩
        rw [List.flatMap_cons, List.getElem?_append_right (by omega), Nat.sub_sub]
        exact hfound

/-- **A body is decoded exactly if it is a sequence of instructions.**  Each of them has the
operands that its opcode asks for where it stands, and what it refers to is in the pool; and the
result is what is kept of them, in order.  What is kept stands in the body at its offset, and is of
the class of its opcode. -/
theorem decodeCode_eq_ok_iff (pool : ConstantPool) (code : Bytes) (list : List Instruction)
    (input : Input) :
    (((decodeCode pool 0 code).run.run input).1 = .ok list ↔
      ∃ items : List InstructionLayout, InstructionLayout.StandFrom pool.Stands 0 items ∧
        code = items.flatMap InstructionLayout.bytes ∧
        list = InstructionLayout.instructions 0 items) ∧
    (((decodeCode pool 0 code).run.run input).1 = .ok list → ∀ kept ∈ list,
      code[kept.offset]? = some kept.opcode ∧ kept.opcodeClass = .ofOpcode kept.opcode ∧
        kept.opcodeClass ≠ .other) := by
  have hdecoded : ((decodeCode pool 0 code).run.run input).1 = .ok list →
      ∃ items : List InstructionLayout, InstructionLayout.StandFrom pool.Stands 0 items ∧
        code = items.flatMap InstructionLayout.bytes ∧
        list = InstructionLayout.instructions 0 items := by
    intro hok
    obtain ⟨-, -, -, hitems⟩ := consumes_instructions pool 0 code input list _ (Prod.ext hok rfl)
    exact hitems
  refine ⟨⟨hdecoded, ?_⟩, fun hok kept hkept => ?_⟩
  · rintro ⟨items, hitems, rfl, rfl⟩
    obtain ⟨log, hrun⟩ := InstructionLayout.reads_instructions hitems input.bytes input.log
    exact congrArg Prod.fst hrun
  · obtain ⟨items, -, rfl, rfl⟩ := hdecoded hok
    exact (InstructionLayout.getElem?_of_mem_instructions hkept).2

/-- A pool with the field `f` of the class `A`. -/
def fieldPool : ConstantPool :=
  ⟨#[.unusable, .utf8 "A", .classRef 1, .utf8 "f", .utf8 "I", .nameAndType 3 4, .memberRef 2 5]⟩

/-- A switch behind two bytes of padding and a wide increment, then an access to the field and a new
object. -/
def switchingBody : List InstructionLayout :=
  [.plain 0 [], .tableswitch [7, 9] 0 5 5 [0], .wide 132 [0, 1, 0, 1],
    .member .getstatic ⟨6, ⟨"A", "f", "I"⟩⟩ [], .type .new ⟨2, "A"⟩]

/-- Of the five instructions two are kept, with the offsets that the switch and the increment leave
them. -/
theorem switchingBody_decoded :
    InstructionLayout.StandFrom fieldPool.Stands 0 switchingBody ∧
    ((decodeCode fieldPool 0 [0, 170, 7, 9, 0, 0, 0, 0, 0, 0, 0, 5, 0, 0, 0, 5, 0, 0, 0, 0, 196,
      132, 0, 1, 0, 1, 178, 0, 6, 187, 0, 2]).run.run ⟨[], #[]⟩).1 =
      .ok [⟨26, 178, .fieldRead, .member ⟨"A", "f", "I"⟩⟩, ⟨29, 187, .new, .type "A"⟩] := by
  have hclass : Holds fieldPool.Stands .className 2 "A" := ConstantPool.lookUp_eq_ok_iff.mp rfl
  have hmember : Holds fieldPool.Stands .member 6 ⟨"A", "f", "I"⟩ :=
    ConstantPool.lookUp_eq_ok_iff.mp rfl
  have hstand : InstructionLayout.StandFrom fieldPool.Stands 0 switchingBody :=
    ⟨⟨rfl, trivial⟩, ⟨⟨⟨by decide, rfl⟩, by decide⟩, trivial⟩, ⟨rfl, trivial⟩, ⟨rfl, hmember⟩,
      ⟨trivial, hclass⟩, trivial⟩
  exact ⟨hstand, (decodeCode_eq_ok_iff _ _ _ _).1.mpr ⟨switchingBody, hstand, by decide, by decide⟩⟩

end ClassFile

end JarFacts
