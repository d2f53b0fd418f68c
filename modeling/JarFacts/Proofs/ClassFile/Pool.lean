import JarFacts.Proofs.ClassFile.LookUp
import JarFacts.Proofs.ClassFile.Reading

/-!
# The constant pool in bytes

A pool is a list of entries, each a tag and its fields.  Slots are counted from one, and an
eight-byte entry takes two of them: `PoolLayout.StartsAt` says which entry begins in a slot, and
`PoolLayout.slot?` finds it by that count alone.  The pool that is read from the bytes has every
constant where its entry begins (`PoolLayout.stands_constants`), so that a look-up finds what a slot
holds by that count (`PoolLayout.lookUp_eq_ok_iff`).
-/

namespace JarFacts.ClassFile

/-- The kinds of members that a pool refers to. -/
inductive MemberKind where
  | field
  | method
  | interfaceMethod
  deriving DecidableEq

def MemberKind.tag : MemberKind → UInt8
  | field => 9
  | method => 10
  | interfaceMethod => 11

/-- An entry of a constant pool.  References are slot numbers and need not lead anywhere. -/
inductive PoolEntry where
  | utf8 (text : String)
  | integer (value : Int32)
  | float (bits : UInt32)
  | long (value : Int64)
  | double (bits : UInt64)
  | classRef (name : UInt16)
  | string (text : UInt16)
  | member (kind : MemberKind) (owner nameAndType : UInt16)
  | nameAndType (name descriptor : UInt16)
  | methodHandle (kind : UInt8) (reference : UInt16)
  | methodType (descriptor : UInt16)
  | dynamic (bootstrap nameAndType : UInt16)
  | invokeDynamic (bootstrap nameAndType : UInt16)
  | module (name : UInt16)
  | package (name : UInt16)
  deriving DecidableEq

namespace PoolEntry

/-- The bytes of an entry: its tag, then its fields. -/
def bytes : PoolEntry → Bytes
  | utf8 text =>
    let spelled := ModifiedUtf8.encode text.toList
    1 :: (Bytes.ofNumber 2 spelled.length ++ spelled)
  | integer value => 3 :: Bytes.ofNumber 4 value.toUInt32.toNat
  | float bits => 4 :: Bytes.ofNumber 4 bits.toNat
  | long value => 5 :: Bytes.ofNumber 8 value.toUInt64.toNat
  | double bits => 6 :: Bytes.ofNumber 8 bits.toNat
  | classRef name => 7 :: Bytes.ofNumber 2 name.toNat
  | string text => 8 :: Bytes.ofNumber 2 text.toNat
  | member kind owner pair =>
      kind.tag :: (Bytes.ofNumber 2 owner.toNat ++ Bytes.ofNumber 2 pair.toNat)
  | nameAndType name descriptor =>
      12 :: (Bytes.ofNumber 2 name.toNat ++ Bytes.ofNumber 2 descriptor.toNat)
  | methodHandle kind reference => 15 :: kind :: Bytes.ofNumber 2 reference.toNat
  | methodType descriptor => 16 :: Bytes.ofNumber 2 descriptor.toNat
  | dynamic bootstrap pair =>
      17 :: (Bytes.ofNumber 2 bootstrap.toNat ++ Bytes.ofNumber 2 pair.toNat)
  | invokeDynamic bootstrap pair =>
      18 :: (Bytes.ofNumber 2 bootstrap.toNat ++ Bytes.ofNumber 2 pair.toNat)
  | module name => 19 :: Bytes.ofNumber 2 name.toNat
  | package name => 20 :: Bytes.ofNumber 2 name.toNat

/-- The number of slots an entry takes. -/
def width : PoolEntry → Nat
  | long _ => 2
  | double _ => 2
  | _ => 1

/-- The length of a text has to fit into two bytes; every other field fits by its type. -/
def Fits : PoolEntry → Prop
  | utf8 text => (ModifiedUtf8.encode text.toList).length < 65536
  | _ => True

instance : DecidablePred Fits
  | utf8 text => inferInstanceAs (Decidable ((ModifiedUtf8.encode text.toList).length < 65536))
  | integer _ | float _ | long _ | double _ | classRef _ | string _ | member .. | nameAndType ..
  | methodHandle .. | methodType _ | dynamic .. | invokeDynamic .. | module _ | package _ =>
      inferInstanceAs (Decidable True)

/-- What the entry is read as. -/
def constant : PoolEntry → Constant
  | utf8 text => .utf8 text
  | integer value => .integer value.toInt
  | float bits => .float bits.toNat
  | long value => .long value.toInt
  | double bits => .double bits.toNat
  | classRef name => .classRef name.toNat
  | string text => .string text.toNat
  | member _ owner pair => .memberRef owner.toNat pair.toNat
  | nameAndType name descriptor => .nameAndType name.toNat descriptor.toNat
  | methodHandle .. | methodType _ | dynamic .. | invokeDynamic .. | module _ | package _ => .other

lemma length_slots_constant (entry : PoolEntry) : entry.constant.slots.length = entry.width := by
  cases entry <;> rfl

/-- Of the slots of an entry only the first one holds anything. -/
lemma slots_constant (entry : PoolEntry) :
    entry.constant.slots = entry.constant :: List.replicate (entry.width - 1) .unusable := by
  cases entry <;> rfl

lemma constant_ne_unusable (entry : PoolEntry) : entry.constant ≠ .unusable := by
  cases entry <;> exact nofun

lemma one_le_width (entry : PoolEntry) : 1 ≤ entry.width := by
  cases entry <;> exact Nat.le_add_left 1 _

lemma signed32_toUInt32 (value : Int32) : Bytes.signed32 value.toUInt32.toNat = value.toInt := by
  have hword : value.toUInt32.toNat = value.toBitVec.toNat := rfl
  have hvalue : value.toInt = value.toBitVec.toInt := rfl
  rw [hvalue, hword, BitVec.toInt_eq_toNat_cond, Bytes.signed32]
  split_ifs <;> omega

lemma signed64_toUInt64 (value : Int64) : Bytes.signed64 value.toUInt64.toNat = value.toInt := by
  have hword : value.toUInt64.toNat = value.toBitVec.toNat := rfl
  have hvalue : value.toInt = value.toBitVec.toInt := rfl
  rw [hvalue, hword, BitVec.toInt_eq_toNat_cond, Bytes.signed64]
  split_ifs <;> omega

/-- An entry is read from its bytes. -/
lemma reads (entry : PoolEntry) (hfits : entry.Fits) :
    Reads Reader.constant entry.bytes entry.constant := by
  rw [Reader.constant]
  cases entry with
  | utf8 text =>
      refine (Reads.u1 1).bind ((Reads.u2 hfits).bind ((Reads.take _).bind_last ?_))
      rw [ModifiedUtf8.decode?_encode]
      dsimp only
      rw [String.ofList_toList]
      exact .pure (Constant.utf8 text)
  | integer value =>
      rw [constant, ← signed32_toUInt32]
      exact (Reads.u1 3).bind ((Reads.u4 value.toUInt32.toNat_lt).map _)
  | float bits => exact (Reads.u1 4).bind ((Reads.u4 bits.toNat_lt).map _)
  | long value =>
      rw [constant, ← signed64_toUInt64]
      have hword := Reads.number 8 value.toUInt64.toNat_lt fun word =>
          Constant.long (Bytes.signed64 word)
      exact (Reads.u1 5).bind hword
  | double bits =>
      have hword := Reads.number 8 bits.toNat_lt Constant.double
      exact (Reads.u1 6).bind hword
  | classRef name => exact (Reads.u1 7).bind ((Reads.u2 name.toNat_lt).map _)
  | string text => exact (Reads.u1 8).bind ((Reads.u2 text.toNat_lt).map _)
  | member kind owner pair =>
      cases kind with
      | field =>
          exact (Reads.u1 9).bind ((Reads.u2 owner.toNat_lt).bind ((Reads.u2 pair.toNat_lt).map _))
      | method =>
          exact (Reads.u1 10).bind ((Reads.u2 owner.toNat_lt).bind ((Reads.u2 pair.toNat_lt).map _))
      | interfaceMethod =>
          exact (Reads.u1 11).bind ((Reads.u2 owner.toNat_lt).bind ((Reads.u2 pair.toNat_lt).map _))
  | nameAndType name descriptor =>
      exact (Reads.u1 12).bind
        ((Reads.u2 name.toNat_lt).bind ((Reads.u2 descriptor.toNat_lt).map _))
  | methodHandle kind reference =>
      exact (Reads.u1 15).bind ((Reads.skip (kind :: Bytes.ofNumber 2 reference.toNat)).map _)
  | methodType descriptor =>
      exact (Reads.u1 16).bind ((Reads.skip (Bytes.ofNumber 2 descriptor.toNat)).map _)
  | dynamic bootstrap pair =>
      exact (Reads.u1 17).bind
        ((Reads.skip (Bytes.ofNumber 2 bootstrap.toNat ++ Bytes.ofNumber 2 pair.toNat)).map _)
  | invokeDynamic bootstrap pair =>
      exact (Reads.u1 18).bind
        ((Reads.skip (Bytes.ofNumber 2 bootstrap.toNat ++ Bytes.ofNumber 2 pair.toNat)).map _)
  | module name => exact (Reads.u1 19).bind ((Reads.skip (Bytes.ofNumber 2 name.toNat)).map _)
  | package name => exact (Reads.u1 20).bind ((Reads.skip (Bytes.ofNumber 2 name.toNat)).map _)

end PoolEntry

/-! ## Whole pools -/

/-- The entries of a pool, in order. -/
abbrev PoolLayout := List PoolEntry

namespace PoolLayout

def width (pool : PoolLayout) : Nat :=
  (pool.map PoolEntry.width).sum

/-- The bytes of a pool.  The number in front counts slot 0 as well. -/
def bytes (pool : PoolLayout) : Bytes :=
  Bytes.ofNumber 2 (pool.width + 1) ++ pool.flatMap PoolEntry.bytes

/-- Texts and slots fit into the fields that hold their number. -/
def Fits (pool : PoolLayout) : Prop :=
  (∀ entry ∈ pool, entry.Fits) ∧ pool.width < 65535

instance (pool : PoolLayout) : Decidable pool.Fits :=
  inferInstanceAs (Decidable (_ ∧ _))

def constants (pool : PoolLayout) : ConstantPool where
  slots := #[.unusable] ++ (pool.flatMap fun entry => entry.constant.slots).toArray

lemma size_append_slots (slots : Array Constant) (entry : PoolEntry) :
    (slots ++ entry.constant.slots).size = slots.size + entry.width := by
  rw [← entry.length_slots_constant, ← Array.length_toList, Array.toList_appendList,
    List.length_append]
  rfl

lemma append_slots_append (slots : Array Constant) (entry : PoolEntry) (rest : PoolLayout) :
    slots ++ entry.constant.slots ++ (rest.flatMap fun entry => entry.constant.slots).toArray =
      slots ++ ((entry :: rest).flatMap fun entry => entry.constant.slots).toArray := by
  apply Array.ext'
  simp

/-- The entries fill exactly the slots that are left. -/
lemma reads_fill {count : Nat} (pool : PoolLayout) (hfits : ∀ entry ∈ pool, entry.Fits)
    (slots : Array Constant)
    (rounds : Nat) (hcount : slots.size + pool.width = count) (hrounds : pool.width ≤ rounds) :
    Reads (ConstantPool.fill count rounds slots) (pool.flatMap PoolEntry.bytes)
      (slots ++ (pool.flatMap fun entry => entry.constant.slots).toArray) := by
  induction pool generalizing slots rounds with
  | nil =>
      rw [List.flatMap_nil, List.flatMap_nil, Array.append_empty]
      cases rounds with
      | zero => exact .pure slots
      | succ rounds =>
          have hfull : ¬slots.size < count := by rw [← hcount]; exact Nat.not_lt.mpr (Nat.le_refl _)
          rw [ConstantPool.fill, if_neg hfull]
          exact .pure slots
  | cons entry rest ih =>
      have hwidth : width (entry :: rest) = entry.width + width rest := List.sum_cons
      have hentry : 1 ≤ entry.width := entry.one_le_width
      obtain ⟨rounds, rfl⟩ : ∃ fewer, rounds = fewer + 1 := ⟨rounds - 1, by omega⟩
      have hroom : slots.size < count := by omega
      have hsize := size_append_slots slots entry
      rw [ConstantPool.fill, if_pos hroom, List.flatMap_cons]
      refine (entry.reads (hfits entry List.mem_cons_self)).bind ?_
      have hrest := ih (fun entry hentry => hfits entry (List.mem_cons_of_mem _ hentry))
        (slots ++ entry.constant.slots) rounds (by omega) (by omega)
      rwa [append_slots_append] at hrest

lemma reads (pool : PoolLayout) (hfits : pool.Fits) :
    Reads ConstantPool.read pool.bytes pool.constants := by
  refine (Reads.u2 (Nat.succ_lt_succ hfits.2)).bind ?_
  exact (reads_fill pool hfits.1 #[.unusable] _ (Nat.add_comm _ _) (Nat.le_succ _)).map
    ConstantPool.mk

/-! ## Slots

Slots are counted from one, and an eight-byte entry takes two of them, so the number of a slot runs
ahead of the place in the list by one for each such entry in front of it. -/

/-- The slot behind some entries. -/
def next (front : PoolLayout) : Nat :=
  front.width + 1

/-- The entry begins in the slot. -/
def StartsAt (pool : PoolLayout) (entry : PoolEntry) (slot : Nat) : Prop :=
  ∃ front back : PoolLayout, pool = front ++ entry :: back ∧ slot = front.next

/-- The entry that begins in the slot is read as the constant. -/
def Stands (pool : PoolLayout) (slot : Nat) (constant : Constant) : Prop :=
  ∃ entry, pool.StartsAt entry slot ∧ entry.constant = constant

/-- The entry in a slot, counted from the first slot of the pool. -/
def entryAt? : PoolLayout → Nat → Option PoolEntry
  | [], _ => none
  | entry :: _, 0 => some entry
  | entry :: rest, slot + 1 =>
    if slot + 1 < entry.width then none else entryAt? rest (slot + 1 - entry.width)

/-- The entry in a slot, found by counting.  Slot 0 is empty. -/
def slot? (pool : PoolLayout) : Nat → Option PoolEntry
  | 0 => none
  | slot + 1 => entryAt? pool slot

lemma entryAt?_append (front back : PoolLayout) (slot : Nat) :
    entryAt? (front ++ back) slot =
      if slot < front.width then entryAt? front slot else entryAt? back (slot - front.width) := by
  induction front generalizing slot with
  | nil => rfl
  | cons first rest ih =>
      have hwidth : width (first :: rest) = first.width + width rest := List.sum_cons
      have hfirst : 1 ≤ first.width := first.one_le_width
      cases slot with
      | zero => rw [if_pos (by omega)]; rfl
      | succ slot =>
          rw [List.cons_append, entryAt?, entryAt?]
          by_cases hinside : slot + 1 < first.width
          · rw [if_pos hinside, if_pos hinside, if_pos (by omega)]
          · rw [if_neg hinside, if_neg hinside, ih]
            have hless : slot + 1 - first.width < width rest ↔
                slot + 1 < width (first :: rest) := by omega
            have hsub : slot + 1 - first.width - width rest =
                slot + 1 - width (first :: rest) := by omega
            simp only [hless, hsub]

lemma exists_of_entryAt? {pool : PoolLayout} {slot : Nat} {entry : PoolEntry}
    (h : entryAt? pool slot = some entry) :
    ∃ front back : PoolLayout, pool = front ++ entry :: back ∧ slot = front.width := by
  induction pool generalizing slot with
  | nil => cases h
  | cons first rest ih =>
      cases slot with
      | zero =>
          cases h
          exact ⟨[], rest, rfl, rfl⟩
      | succ slot =>
          rw [entryAt?] at h
          split_ifs at h with hinside
          obtain ⟨front, back, rfl, hslot⟩ := ih h
          have hwidth : width (first :: front) = first.width + width front := List.sum_cons
          exact ⟨first :: front, back, rfl, by omega⟩

lemma slot?_next (front back : PoolLayout) (entry : PoolEntry) :
    slot? (front ++ entry :: back) front.next = some entry := by
  rw [next, slot?, entryAt?_append, if_neg (Nat.lt_irrefl _), Nat.sub_self]
  rfl

/-- The entry in a slot, found by counting, is the one that begins there. -/
lemma slot?_eq_some_iff {pool : PoolLayout} {slot : Nat} {entry : PoolEntry} :
    pool.slot? slot = some entry ↔ pool.StartsAt entry slot := by
  constructor
  · intro h
    cases slot with
    | zero => cases h
    | succ slot =>
        obtain ⟨front, back, hpool, rfl⟩ := exists_of_entryAt? h
        exact ⟨front, back, hpool, rfl⟩
  · rintro ⟨front, back, rfl, rfl⟩
    exact slot?_next front back entry

/-! ## Slots of the pool that is read -/

lemma getElem?_slots_eq_some_iff {pool : PoolLayout} {slot : Nat} {constant : Constant}
    (hused : constant ≠ .unusable) :
    (pool.flatMap fun entry => entry.constant.slots)[slot]? = some constant ↔
      ∃ entry, entryAt? pool slot = some entry ∧ entry.constant = constant := by
  induction pool generalizing slot with
  | nil => simp [entryAt?]
  | cons first rest ih =>
      rw [List.flatMap_cons, first.slots_constant]
      cases slot with
      | zero => simp [entryAt?]
      | succ slot =>
          have hwidth : 1 ≤ first.width := first.one_le_width
          rw [List.cons_append, List.getElem?_cons_succ, entryAt?]
          split_ifs with hinside
          · rw [List.getElem?_append_left (by rw [List.length_replicate]; omega),
              List.getElem?_replicate, if_pos (by omega)]
            simp [hused.symm]
          · rw [List.getElem?_append_right (by rw [List.length_replicate]; omega),
              List.length_replicate]
            have hslot : slot - (first.width - 1) = slot + 1 - first.width := by omega
            rw [hslot]
            exact ih

lemma slots_constants (pool : PoolLayout) (slot : Nat) :
    pool.constants.slots[slot + 1]? = (pool.flatMap fun entry => entry.constant.slots)[slot]? := by
  rw [constants, Array.getElem?_append_right (Nat.le_add_left 1 slot), List.getElem?_toArray]
  rfl

/-- In the pool that is read every constant stands where its entry begins. -/
lemma stands_constants (pool : PoolLayout) : pool.constants.Stands = pool.Stands := by
  funext slot constant
  refine propext ?_
  simp only [ConstantPool.Stands, Stands, ← slot?_eq_some_iff]
  cases slot with
  | zero =>
      have hfirst : pool.constants.slots[0]? = some .unusable :=
        Array.getElem?_append_left Nat.one_pos
      rw [hfirst, slot?]
      grind
  | succ slot =>
      rw [slots_constants, slot?]
      constructor
      · rintro ⟨hslot, hused⟩
        exact (getElem?_slots_eq_some_iff hused).mp hslot
      · rintro ⟨entry, hentry, rfl⟩
        have hused : entry.constant ≠ .unusable := entry.constant_ne_unusable
        exact ⟨(getElem?_slots_eq_some_iff hused).mpr ⟨entry, hentry, rfl⟩, hused⟩

/-- What a slot holds is found there in the pool that is read. -/
lemma lookUp_eq_ok_iff {pool : PoolLayout} {α : Type} {demand : Demand α} {slot : Nat} {value : α} :
    pool.constants.lookUp demand slot = .ok value ↔ Holds pool.Stands demand slot value := by
  rw [← stands_constants]
  exact ConstantPool.lookUp_eq_ok_iff

end PoolLayout

/-! ## References -/

/-- A slot number, with what is meant by it. -/
structure Ref (α : Type) where
  slot : UInt16
  target : α
  deriving DecidableEq

namespace Ref

variable {α : Type} {pool : PoolLayout} {demand : Demand α}

/-- A reference is written as its slot. -/
def bytes (ref : Ref α) : Bytes :=
  Bytes.ofNumber 2 ref.slot.toNat

/-- The slot holds what is meant. -/
def Resolves (ref : Ref α) (stands : Nat → Constant → Prop) (demand : Demand α) : Prop :=
  Holds stands demand ref.slot.toNat ref.target

instance [DecidableEq α] (ref : Ref α) (demand : Demand α) :
    Decidable (ref.Resolves pool.Stands demand) :=
  decidable_of_iff (pool.constants.lookUp demand ref.slot.toNat = .ok ref.target)
    PoolLayout.lookUp_eq_ok_iff

/-- Nothing resolves to slot 0, so it is free to stand for the absence of a reference. -/
lemma slot_ne_zero {ref : Ref α} (h : ref.Resolves pool.Stands demand) : ref.slot.toNat ≠ 0 := by
  obtain ⟨constant, ⟨entry, ⟨front, back, -, hnext⟩, -⟩, -⟩ := h.accepted
  rw [hnext]
  exact Nat.succ_ne_zero _

lemma reads {ref : Ref α} (h : ref.Resolves pool.Stands demand) :
    Reads (Reader.slot (pool.constants.lookUp demand)) ref.bytes ref.target :=
  .slot (PoolLayout.lookUp_eq_ok_iff.mpr h)

end Ref

end JarFacts.ClassFile
