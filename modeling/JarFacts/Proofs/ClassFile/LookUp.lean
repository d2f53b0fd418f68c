import JarFacts.ClassFile.Constant
import JarFacts.Proofs.Steps

/-!
# What the slots of a pool hold

Five things are looked up by a slot (`Demand`), some of them along further slots, forwards or
backwards in the pool.  `Holds` is that all links of such a chain lead to constants of the right
kinds, and `BreaksAt` that the first link that does not is in a given slot.  Which constants stand
in which slots is left open: a pool that was read tells it by its array, and one that is laid out
entry by entry by counting.

In a pool that was read, a look-up has what the slot holds, and otherwise reports the link at which
the chain breaks (`ConstantPool.lookUp_eq_ok_iff`, `ConstantPool.lookUp_eq_error_iff`).
-/

namespace JarFacts.ClassFile

/-- What can be looked up under an index. -/
inductive Demand : Type → Type 1 where
  | text : Demand String
  | className : Demand String
  | nameAndType : Demand (String × String)
  | member : Demand MemberRef
  | value : Demand ConstantValue

/-- The kinds of constants that answer a demand. -/
def Demand.Accepts {α : Type} : Demand α → Constant → Prop
  | text, .utf8 _ => True
  | className, .classRef _ => True
  | nameAndType, .nameAndType .. => True
  | member, .memberRef .. => True
  | value, .integer _ | value, .float _ | value, .long _ | value, .double _
      | value, .string _ => True
  | _, _ => False

/-- The slot holds what is demanded: a constant of the right kind stands there, and its own
references hold what they are for. -/
inductive Holds (stands : Nat → Constant → Prop) : {α : Type} → Demand α → Nat → α → Prop
  | text {slot : Nat} {text : String} (h : stands slot (.utf8 text)) : Holds stands .text slot text
  | className {slot name : Nat} {text : String} (h : stands slot (.classRef name))
      (hname : Holds stands .text name text) : Holds stands .className slot text
  | nameAndType {slot first second : Nat} {name descriptor : String}
      (h : stands slot (.nameAndType first second)) (hname : Holds stands .text first name)
      (hdescriptor : Holds stands .text second descriptor) :
      Holds stands .nameAndType slot (name, descriptor)
  | member {slot owner pair : Nat} {ref : MemberRef} (h : stands slot (.memberRef owner pair))
      (howner : Holds stands .className owner ref.owner)
      (hpair : Holds stands .nameAndType pair (ref.name, ref.descriptor)) :
      Holds stands .member slot ref
  | integer {slot : Nat} {value : Int} (h : stands slot (.integer value)) :
      Holds stands .value slot (.int value)
  | float {slot bits : Nat} (h : stands slot (.float bits)) : Holds stands .value slot (.float bits)
  | long {slot : Nat} {value : Int} (h : stands slot (.long value)) :
      Holds stands .value slot (.long value)
  | double {slot bits : Nat} (h : stands slot (.double bits)) :
      Holds stands .value slot (.double bits)
  | string {slot index : Nat} {text : String} (h : stands slot (.string index))
      (htext : Holds stands .text index text) : Holds stands .value slot (.string text)

/-- The first link that leads nowhere, on the way from the slot to what is demanded. -/
inductive BreaksAt (stands : Nat → Constant → Prop) : {α : Type} → Demand α → Nat → Nat → Prop
  | here {α : Type} {demand : Demand α} {slot : Nat}
      (h : ∀ constant, stands slot constant → ¬demand.Accepts constant) :
      BreaksAt stands demand slot slot
  | className {slot link name : Nat} (h : stands slot (.classRef name))
      (hname : BreaksAt stands .text name link) : BreaksAt stands .className slot link
  | name {slot link first second : Nat} (h : stands slot (.nameAndType first second))
      (hname : BreaksAt stands .text first link) : BreaksAt stands .nameAndType slot link
  | descriptor {slot link first second : Nat} {name : String}
      (h : stands slot (.nameAndType first second)) (hname : Holds stands .text first name)
      (hdescriptor : BreaksAt stands .text second link) : BreaksAt stands .nameAndType slot link
  | owner {slot link owner pair : Nat} (h : stands slot (.memberRef owner pair))
      (howner : BreaksAt stands .className owner link) : BreaksAt stands .member slot link
  | pair {slot link owner pair : Nat} {name : String} (h : stands slot (.memberRef owner pair))
      (howner : Holds stands .className owner name)
      (hpair : BreaksAt stands .nameAndType pair link) : BreaksAt stands .member slot link
  | string {slot link index : Nat} (h : stands slot (.string index))
      (htext : BreaksAt stands .text index link) : BreaksAt stands .value slot link

/-- The first link of a chain that holds leads somewhere. -/
lemma Holds.accepted {stands : Nat → Constant → Prop} {α : Type} {demand : Demand α} {slot : Nat}
    {value : α} (h : Holds stands demand slot value) :
    ∃ constant, stands slot constant ∧ demand.Accepts constant := by
  cases h with
  | text h => exact ⟨_, h, trivial⟩
  | className h _ => exact ⟨_, h, trivial⟩
  | nameAndType h _ _ | member h _ _ => exact ⟨_, h, trivial⟩
  | integer h | float h | long h | double h => exact ⟨_, h, trivial⟩
  | string h _ => exact ⟨_, h, trivial⟩

/-! ## Every chain holds or breaks -/

section

variable (stands : Nat → Constant → Prop)

lemma accepted_or_breaksAt {α : Type} (demand : Demand α) (slot : Nat) :
    (∃ constant, stands slot constant ∧ demand.Accepts constant) ∨
      BreaksAt stands demand slot slot := by
  by_cases haccepted : ∃ constant, stands slot constant ∧ demand.Accepts constant
  · exact .inl haccepted
  · exact .inr (.here fun constant hconstant haccepts => haccepted ⟨constant, hconstant, haccepts⟩)

lemma holds_or_breaksAt_text (slot : Nat) :
    (∃ text, Holds stands .text slot text) ∨ ∃ link, BreaksAt stands .text slot link := by
  obtain ⟨constant, hconstant, haccepts⟩ | hhere := accepted_or_breaksAt stands .text slot
  · cases constant <;> cases haccepts
    exact .inl ⟨_, .text hconstant⟩
  · exact .inr ⟨slot, hhere⟩

lemma holds_or_breaksAt_className (slot : Nat) :
    (∃ name, Holds stands .className slot name) ∨ ∃ link, BreaksAt stands .className slot link := by
  obtain ⟨constant, hconstant, haccepts⟩ | hhere := accepted_or_breaksAt stands .className slot
  · cases constant <;> cases haccepts
    obtain ⟨text, htext⟩ | ⟨link, hlink⟩ := holds_or_breaksAt_text stands _
    · exact .inl ⟨text, .className hconstant htext⟩
    · exact .inr ⟨link, .className hconstant hlink⟩
  · exact .inr ⟨slot, hhere⟩

lemma holds_or_breaksAt_nameAndType (slot : Nat) :
    (∃ pair, Holds stands .nameAndType slot pair) ∨
      ∃ link, BreaksAt stands .nameAndType slot link := by
  obtain ⟨constant, hconstant, haccepts⟩ | hhere := accepted_or_breaksAt stands .nameAndType slot
  · cases constant <;> cases haccepts
    obtain ⟨name, hname⟩ | ⟨link, hlink⟩ := holds_or_breaksAt_text stands _
    · obtain ⟨descriptor, hdescriptor⟩ | ⟨link, hlink⟩ := holds_or_breaksAt_text stands _
      · exact .inl ⟨(name, descriptor), .nameAndType hconstant hname hdescriptor⟩
      · exact .inr ⟨link, .descriptor hconstant hname hlink⟩
    · exact .inr ⟨link, .name hconstant hlink⟩
  · exact .inr ⟨slot, hhere⟩

lemma holds_or_breaksAt_member (slot : Nat) :
    (∃ ref, Holds stands .member slot ref) ∨ ∃ link, BreaksAt stands .member slot link := by
  obtain ⟨constant, hconstant, haccepts⟩ | hhere := accepted_or_breaksAt stands .member slot
  · cases constant <;> cases haccepts
    obtain ⟨owner, howner⟩ | ⟨link, hlink⟩ := holds_or_breaksAt_className stands _
    · obtain ⟨⟨name, descriptor⟩, hpair⟩ | ⟨link, hlink⟩ := holds_or_breaksAt_nameAndType stands _
      · exact .inl ⟨⟨owner, name, descriptor⟩, .member hconstant howner hpair⟩
      · exact .inr ⟨link, .pair hconstant howner hlink⟩
    · exact .inr ⟨link, .owner hconstant hlink⟩
  · exact .inr ⟨slot, hhere⟩

lemma holds_or_breaksAt_value (slot : Nat) :
    (∃ value, Holds stands .value slot value) ∨ ∃ link, BreaksAt stands .value slot link := by
  obtain ⟨constant, hconstant, haccepts⟩ | hhere := accepted_or_breaksAt stands .value slot
  · cases constant with
    | integer value => exact .inl ⟨_, .integer hconstant⟩
    | float bits => exact .inl ⟨_, .float hconstant⟩
    | long value => exact .inl ⟨_, .long hconstant⟩
    | double bits => exact .inl ⟨_, .double hconstant⟩
    | string index =>
        obtain ⟨text, htext⟩ | ⟨link, hlink⟩ := holds_or_breaksAt_text stands _
        · exact .inl ⟨.string text, .string hconstant htext⟩
        · exact .inr ⟨link, .string hconstant hlink⟩
    | _ => cases haccepts
  · exact .inr ⟨slot, hhere⟩

lemma holds_or_breaksAt {α : Type} (demand : Demand α) (slot : Nat) :
    (∃ value, Holds stands demand slot value) ∨ ∃ link, BreaksAt stands demand slot link := by
  cases demand with
  | text => exact holds_or_breaksAt_text stands slot
  | className => exact holds_or_breaksAt_className stands slot
  | nameAndType => exact holds_or_breaksAt_nameAndType stands slot
  | member => exact holds_or_breaksAt_member stands slot
  | value => exact holds_or_breaksAt_value stands slot

end

namespace ConstantPool

/-- The constant is in the slot, which is then not one without a constant. -/
def Stands (pool : ConstantPool) (slot : Nat) (constant : Constant) : Prop :=
  pool.slots[slot]? = some constant ∧ constant ≠ .unusable

/-- The look-up that answers a demand. -/
def lookUp (pool : ConstantPool) {α : Type} : Demand α → Nat → Except ClassFileError α
  | .text => pool.utf8
  | .className => pool.className
  | .nameAndType => pool.nameAndType
  | .member => pool.member
  | .value => pool.constantValue

variable {pool : ConstantPool}

/-! ## Links -/

lemma get_of_stands {slot : Nat} {constant : Constant} (h : pool.Stands slot constant) :
    pool.get slot = .ok constant := by
  rw [get, h.1]

/-- A bare look-up finds the constant that stands in the slot, or else nothing of use. -/
lemma get_cases (pool : ConstantPool) (slot : Nat) :
    (∃ constant, pool.Stands slot constant ∧ pool.get slot = .ok constant) ∨
      pool.get slot = .ok .unusable ∨ pool.get slot = .error (.invalidConstantIndex slot) := by
  cases hslot : pool.slots[slot]? with
  | none => exact .inr (.inr (by rw [get, hslot]))
  | some constant =>
      by_cases hused : constant = .unusable
      · exact .inr (.inl (by rw [get, hslot, hused]))
      · exact .inl ⟨constant, ⟨hslot, hused⟩, get_of_stands ⟨hslot, hused⟩⟩

/-- Where no constant of a right kind stands, every look-up refuses the slot itself. -/
lemma lookUp_of_not_accepts {α : Type} {demand : Demand α} {slot : Nat}
    (h : ∀ constant, pool.Stands slot constant → ¬demand.Accepts constant) :
    pool.lookUp demand slot = .error (.invalidConstantIndex slot) := by
  obtain ⟨constant, hconstant, hget⟩ | hget | hget := pool.get_cases slot
  · have hnot := h constant hconstant
    cases demand <;>
      simp only [lookUp, utf8, className, nameAndType, member, constantValue, hget] <;>
      cases constant <;> first | rfl | exact absurd trivial hnot
  all_goals
    cases demand <;>
      simp only [lookUp, utf8, className, nameAndType, member, constantValue, hget] <;> rfl

lemma className_of_stands {slot name : Nat} (h : pool.Stands slot (.classRef name)) :
    pool.className slot = pool.utf8 name :=
  bind_of_eq_ok (get_of_stands h) _

lemma nameAndType_of_stands {slot first second : Nat}
    (h : pool.Stands slot (.nameAndType first second)) :
    pool.nameAndType slot = do
      let name ← pool.utf8 first
      return (name, ← pool.utf8 second) :=
  bind_of_eq_ok (get_of_stands h) _

lemma member_of_stands {slot owner pair : Nat} (h : pool.Stands slot (.memberRef owner pair)) :
    pool.member slot = do
      let owner ← pool.className owner
      let (name, descriptor) ← pool.nameAndType pair
      return ⟨owner, name, descriptor⟩ :=
  bind_of_eq_ok (get_of_stands h) _

lemma constantValue_of_stands {slot index : Nat} (h : pool.Stands slot (.string index)) :
    pool.constantValue slot = do
      return .string (← pool.utf8 index) :=
  bind_of_eq_ok (get_of_stands h) _

/-! ## Chains -/

/-- What a slot holds is found there. -/
lemma lookUp_of_holds {α : Type} {demand : Demand α} {slot : Nat} {value : α}
    (h : Holds pool.Stands demand slot value) : pool.lookUp demand slot = .ok value := by
  induction h with
  | text h => exact bind_of_eq_ok (get_of_stands h) _
  | className h _ ih => exact (className_of_stands h).trans ih
  | nameAndType h _ _ ihName ihDescriptor =>
      rw [lookUp, nameAndType_of_stands h]
      exact (bind_of_eq_ok ihName _).trans (bind_of_eq_ok ihDescriptor _)
  | member h _ _ ihOwner ihPair =>
      rw [lookUp, member_of_stands h]
      exact (bind_of_eq_ok ihOwner _).trans (bind_of_eq_ok ihPair _)
  | integer h | float h | long h | double h => exact bind_of_eq_ok (get_of_stands h) _
  | string h _ ih => exact (constantValue_of_stands h).trans (bind_of_eq_ok ih _)

/-- A look-up reports the link at which it breaks. -/
lemma lookUp_of_breaksAt {α : Type} {demand : Demand α} {slot link : Nat}
    (h : BreaksAt pool.Stands demand slot link) :
    pool.lookUp demand slot = .error (.invalidConstantIndex link) := by
  induction h with
  | here h => exact lookUp_of_not_accepts h
  | className h _ ih => exact (className_of_stands h).trans ih
  | name h _ ih => exact (nameAndType_of_stands h).trans (bind_of_eq_error ih _)
  | descriptor h hname _ ih =>
      have hfound : pool.utf8 _ = .ok _ := lookUp_of_holds hname
      rw [lookUp, nameAndType_of_stands h]
      exact (bind_of_eq_ok hfound _).trans (bind_of_eq_error ih _)
  | owner h _ ih => exact (member_of_stands h).trans (bind_of_eq_error ih _)
  | pair h howner _ ih =>
      have hfound : pool.className _ = .ok _ := lookUp_of_holds howner
      rw [lookUp, member_of_stands h]
      exact (bind_of_eq_ok hfound _).trans (bind_of_eq_error ih _)
  | string h _ ih => exact (constantValue_of_stands h).trans (bind_of_eq_error ih _)

lemma lookUp_eq_ok_iff {α : Type} {demand : Demand α} {slot : Nat} {value : α} :
    pool.lookUp demand slot = .ok value ↔ Holds pool.Stands demand slot value := by
  refine ⟨fun h => ?_, lookUp_of_holds⟩
  obtain ⟨found, hfound⟩ | ⟨link, hlink⟩ := holds_or_breaksAt pool.Stands demand slot
  · rw [lookUp_of_holds hfound] at h
    cases h
    exact hfound
  · rw [lookUp_of_breaksAt hlink] at h
    cases h

lemma lookUp_eq_error_iff {α : Type} {demand : Demand α} {slot : Nat} {error : ClassFileError} :
    pool.lookUp demand slot = .error error ↔
      ∃ link, BreaksAt pool.Stands demand slot link ∧ error = .invalidConstantIndex link := by
  constructor
  · intro h
    obtain ⟨found, hfound⟩ | ⟨link, hlink⟩ := holds_or_breaksAt pool.Stands demand slot
    · rw [lookUp_of_holds hfound] at h
      cases h
    · rw [lookUp_of_breaksAt hlink] at h
      cases h
      exact ⟨link, hlink, rfl⟩
  · rintro ⟨link, hlink, rfl⟩
    exact lookUp_of_breaksAt hlink

end ConstantPool

end JarFacts.ClassFile
