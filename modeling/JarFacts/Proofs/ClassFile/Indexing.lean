import JarFacts.Proofs.ClassFile.Pool

/-!
# What is found under an index

In the pool that is read from the bytes each look-up has what the slot holds, and otherwise reports
the link at which it breaks (`ConstantPool.lookUps_of_read`).  Which constant stands in which slot
is told by counting: `PoolLayout.StartsAt` says where an entry begins, and `PoolLayout.IsVacant`
where none does.
-/

namespace JarFacts.ClassFile

/-- Nothing begins in the slot: it is slot 0, the second slot of an eight-byte constant, or behind
the last one. -/
def PoolLayout.IsVacant (pool : PoolLayout) (slot : Nat) : Prop :=
  slot = 0 ∨ (∃ entry first, pool.StartsAt entry first ∧ entry.width = 2 ∧ slot = first + 1) ∨
    pool.width < slot

lemma PoolLayout.IsVacant.not_stands {pool : PoolLayout} {slot : Nat} (h : pool.IsVacant slot)
    (constant : Constant) : ¬pool.Stands slot constant := by
  rintro ⟨entry, ⟨front, back, rfl, hslot⟩, -⟩
  have hwidth : width (front ++ entry :: back) = front.width + (entry.width + width back) := by
    rw [width, List.map_append, List.sum_append]
    rfl
  have hentry : 1 ≤ entry.width := entry.one_le_width
  rw [next] at hslot
  obtain rfl | ⟨wide, first, ⟨front', back', hpool, rfl⟩, hwide, hsecond⟩ | hbehind := h
  · cases hslot
  · -- The two places in the pool would have to be one slot apart, and the constant at the first one
    -- takes two.
    have hstart : slot? (front ++ entry :: back) slot = some entry :=
      slot?_eq_some_iff.mpr ⟨front, back, rfl, hslot⟩
    have hvacant : slot? (front' ++ wide :: back') (front'.next + 1) = none := by
      rw [next, slot?, entryAt?_append, if_neg (by omega), Nat.add_sub_cancel_left, entryAt?,
        if_pos (by omega)]
    rw [hpool, hsecond, hvacant] at hstart
    cases hstart
  · omega

/-- **A pool is read to its end, and every look-up in it goes along the slots.**  Whatever the
constants are and wherever they refer to, as long as they fit: exactly their bytes are read, and
under each index is found what the slot holds, if it holds what is demanded.  Otherwise the first
link of the chain that leads nowhere is reported; and where nothing begins in the slot, as in slot
0, in the second slot of an eight-byte constant and behind the last slot, that is the slot
itself. -/
theorem ConstantPool.lookUps_of_read {pool : PoolLayout} (hfits : pool.Fits) :
    Reads ConstantPool.read pool.bytes pool.constants ∧
      ∀ {α : Type} (demand : Demand α) (slot : Nat),
        (∀ value, pool.constants.lookUp demand slot = .ok value ↔
          Holds pool.Stands demand slot value) ∧
        (∀ error, pool.constants.lookUp demand slot = .error error ↔
          ∃ link, BreaksAt pool.Stands demand slot link ∧ error = .invalidConstantIndex link) ∧
        (pool.IsVacant slot →
          pool.constants.lookUp demand slot = .error (.invalidConstantIndex slot)) := by
  refine ⟨pool.reads hfits, fun demand slot =>
    ⟨fun value => ?_, fun error => ?_, fun hvacant => ?_⟩⟩
  · exact PoolLayout.lookUp_eq_ok_iff
  · rw [← PoolLayout.stands_constants]
    exact ConstantPool.lookUp_eq_error_iff
  · refine ConstantPool.lookUp_of_not_accepts fun constant hconstant => ?_
    rw [PoolLayout.stands_constants] at hconstant
    exact absurd hconstant (hvacant.not_stands constant)

/-- A pool in which references go forwards and backwards over a long number, and two of them lead
nowhere. -/
def crossedPool : PoolLayout :=
  [.classRef 4, .long 42, .utf8 "x", .nameAndType 4 3, .member .field 1 5, .string 9]

/-- The class is found through the text behind the long number.  The member breaks at the second
slot of that number, where its descriptor should be, and the string at a slot that the pool does not
have. -/
theorem ConstantPool.lookUps_of_read_crossedPool :
    crossedPool.Fits ∧ crossedPool.constants.lookUp .className 1 = .ok "x" ∧
      crossedPool.constants.lookUp .value 2 = .ok (.long 42) ∧
      crossedPool.constants.lookUp .text 3 = .error (.invalidConstantIndex 3) ∧
      crossedPool.constants.lookUp .member 6 = .error (.invalidConstantIndex 3) ∧
      crossedPool.constants.lookUp .value 7 = .error (.invalidConstantIndex 9) := by
  have hfits : crossedPool.Fits := by decide
  have hlookUps {α : Type} (demand : Demand α) := (ConstantPool.lookUps_of_read hfits).2 demand
  have hstarts {entry : PoolEntry} {slot : Nat} (h : crossedPool.slot? slot = some entry) :
      crossedPool.StartsAt entry slot := PoolLayout.slot?_eq_some_iff.mp h
  have hstands (slot : Nat) (entry : PoolEntry) (h : crossedPool.slot? slot = some entry) :
      crossedPool.Stands slot entry.constant := ⟨entry, hstarts h, rfl⟩
  have hvacant : crossedPool.IsVacant 3 := .inr (.inl ⟨.long 42, 2, hstarts rfl, rfl, rfl⟩)
  have hbehind : crossedPool.IsVacant 9 := .inr (.inr (by decide))
  have hname : Holds crossedPool.Stands .text 4 "x" := .text (hstands 4 (.utf8 "x") rfl)
  have hclass : Holds crossedPool.Stands .className 1 "x" :=
    .className (hstands 1 (.classRef 4) rfl) hname
  have hlong : Holds crossedPool.Stands .value 2 (.long (42 : Int64).toInt) :=
    .long (hstands 2 (.long 42) rfl)
  have hdescriptor : BreaksAt crossedPool.Stands .text 3 3 :=
    .here fun constant h => absurd h (hvacant.not_stands constant)
  have hpair : BreaksAt crossedPool.Stands .nameAndType 5 3 :=
    .descriptor (hstands 5 (.nameAndType 4 3) rfl) hname hdescriptor
  have hmember : BreaksAt crossedPool.Stands .member 6 3 :=
    .pair (hstands 6 (.member .field 1 5) rfl) hclass hpair
  have htext : BreaksAt crossedPool.Stands .text 9 9 :=
    .here fun constant h => absurd h (hbehind.not_stands constant)
  have hstring : BreaksAt crossedPool.Stands .value 7 9 :=
    .string (hstands 7 (.string 9) rfl) htext
  refine ⟨hfits, ?_, ?_, ?_, ?_, ?_⟩
  · exact ((hlookUps .className 1).1 "x").mpr hclass
  · exact ((hlookUps .value 2).1 (.long 42)).mpr hlong
  · exact (hlookUps .text 3).2.2 hvacant
  · exact ((hlookUps .member 6).2.1 _).mpr ⟨3, hmember, rfl⟩
  · exact ((hlookUps .value 7).2.1 _).mpr ⟨9, hstring, rfl⟩

end JarFacts.ClassFile
