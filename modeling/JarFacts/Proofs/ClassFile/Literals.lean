import JarFacts.Proofs.ClassFile.RawClass

/-!
# Texts that nothing looks up

The string literals of a class stand in its pool, and reading a class looks up many of its constants
but not those. This file says which texts of a pool can be looked up: those that a class or a name
with its type refers to, those that something behind the pool refers to (`ClassLayout.texts`), and
those of the strings that are the values of fields (`ClassLayout.constants`).  Any other text is a
literal.

If a literal is exchanged for another text, every reference of the class still resolves to what it
resolved to before (`ClassLayout.Linked.spared`), so that the class is read with the same result.
All texts of a pool are decoded all the same, looked up or not: contents that spell no text make a
class file unreadable wherever they stand.
-/

namespace JarFacts

open ClassFile

namespace ClassFile

/-! ## The slots that are referred to -/

/-- The slots of the texts that are looked up when the entry is. -/
def PoolEntry.texts : PoolEntry → List UInt16
  | classRef name => [name]
  | nameAndType name descriptor => [name, descriptor]
  | _ => []

/-- No entry but a string refers to the slot. -/
def PoolLayout.Unnamed (pool : PoolLayout) (slot : Nat) : Prop :=
  ∀ entry ∈ pool, ∀ text ∈ entry.texts, text.toNat ≠ slot

/-- The text slot of the string constant in a slot. -/
def PoolLayout.string? (pool : PoolLayout) (slot : Nat) : Option UInt16 :=
  match pool.slot? slot with
  | some (.string text) => some text
  | _ => none

/-- The slots of the texts in an element value. -/
def ElementLayout.texts : ElementLayout → List UInt16
  | const .. => []
  | enumConstant type name => [type.slot, name.slot]
  | classLiteral descriptor => [descriptor.slot]
  | nested type elements => type.slot :: elements.flatMap fun element =>
      element.1.slot :: element.2.texts
  | array values => values.flatMap fun value => value.texts
decreasing_by
  · exact sizeOf_lt_nested ‹_›
  · exact sizeOf_lt_array ‹_›

def AnnotationLayout.texts (item : AnnotationLayout) : List UInt16 :=
  item.type.slot :: item.elements.flatMap fun element => element.1.slot :: element.2.texts

/-- The slots of the texts that an attribute refers to directly. -/
def AttributeContent.texts : AttributeContent → List UInt16
  | signature text => [text.slot]
  | sourceFile name => [name.slot]
  | annotations _ list => list.flatMap AnnotationLayout.texts
  | parameterAnnotations _ slots => slots.flatMap fun list => list.flatMap AnnotationLayout.texts
  | constantValue _ | exceptions _ | code _ | enclosingMethod .. | annotationDefault | other _ => []

/-- The slot of the constant that is the value of a field. -/
def AttributeContent.constants : AttributeContent → List UInt16
  | constantValue value => [value.slot]
  | _ => []

def AttributeTable.texts (table : AttributeTable) : List UInt16 :=
  table.flatMap fun item => item.nameSlot :: item.content.texts

def AttributeTable.constants (table : AttributeTable) : List UInt16 :=
  table.flatMap fun item => item.content.constants

def MemberLayout.texts (item : MemberLayout) : List UInt16 :=
  item.name.slot :: item.descriptor.slot :: item.attributes.texts

end ClassFile

namespace ClassLayout

/-- The slots of the texts that are looked up directly, behind the pool. -/
def texts (cls : ClassLayout) : List UInt16 :=
  (cls.fields ++ cls.methods).flatMap MemberLayout.texts ++ cls.attributes.texts

/-- The slots of the constants that are looked up for their values. -/
def constants (cls : ClassLayout) : List UInt16 :=
  ((cls.fields ++ cls.methods).flatMap fun item => item.attributes.constants) ++
    cls.attributes.constants

/-- Of all that is looked up nothing refers to the slot but string constants, and none of those is
the value of a field. -/
structure IsLiteral (cls : ClassLayout) (slot : Nat) : Prop where
  unnamed : cls.pool.Unnamed slot
  texts : ∀ text ∈ cls.texts, text.toNat ≠ slot
  constants : ∀ index ∈ cls.constants, ∀ text ∈ cls.pool.string? index.toNat, text.toNat ≠ slot

-- Slots can be enumerated, so the instance for lists is named: it looks at those that are listed
-- only.
instance (pool : PoolLayout) (slot : Nat) : Decidable (pool.Unnamed slot) :=
  have (entry : PoolEntry) :=
    List.decidableBAll (fun text : UInt16 => text.toNat ≠ slot) entry.texts
  inferInstanceAs (Decidable (∀ entry ∈ pool, ∀ text ∈ entry.texts, text.toNat ≠ slot))

instance (cls : ClassLayout) (slot : Nat) : Decidable (cls.IsLiteral slot) :=
  have := List.decidableBAll (fun text : UInt16 => text.toNat ≠ slot) cls.texts
  have (index : UInt16) : Decidable (∀ text ∈ cls.pool.string? index.toNat, text.toNat ≠ slot) :=
    Option.decidableForallMem _
  have := List.decidableBAll
    (fun index : UInt16 => ∀ text ∈ cls.pool.string? index.toNat, text.toNat ≠ slot) cls.constants
  decidable_of_iff
    (cls.pool.Unnamed slot ∧ (∀ text ∈ cls.texts, text.toNat ≠ slot) ∧
      ∀ index ∈ cls.constants, ∀ text ∈ cls.pool.string? index.toNat, text.toNat ≠ slot)
    ⟨fun h => ⟨h.1, h.2.1, h.2.2⟩, fun h => ⟨h.unnamed, h.texts, h.constants⟩⟩

end ClassLayout

namespace ClassFile

/-! ## Another text in the same slot -/

/-- The look-up may not come by the text in a slot: it does not start there, nor at a string
constant that refers to it. -/
def Demand.Avoids (pool : PoolLayout) (slot : Nat) {α : Type} : Demand α → Nat → Prop
  | .text, index => index ≠ slot
  | .value, index => ∀ text ∈ pool.string? index, text.toNat ≠ slot
  | _, _ => True

namespace PoolLayout

lemma mem_of_startsAt {pool : PoolLayout} {slot : Nat} {entry : PoolEntry}
    (h : pool.StartsAt entry slot) : entry ∈ pool := by
  obtain ⟨front, back, rfl, -⟩ := h
  exact List.mem_append_right _ List.mem_cons_self

section

variable {pool : PoolLayout} {slot spared : Nat} (hunnamed : pool.Unnamed spared)

include hunnamed

lemma Unnamed.className {name : Nat} (h : pool.Stands slot (.classRef name)) : name ≠ spared := by
  obtain ⟨entry, hentry, hconstant⟩ := h
  cases entry <;> cases hconstant
  exact hunnamed _ (mem_of_startsAt hentry) _ (by simp [PoolEntry.texts])

lemma Unnamed.nameAndType {first second : Nat} (h : pool.Stands slot (.nameAndType first second)) :
    first ≠ spared ∧ second ≠ spared := by
  obtain ⟨entry, hentry, hconstant⟩ := h
  cases entry <;> cases hconstant
  have hmem := mem_of_startsAt hentry
  exact ⟨hunnamed _ hmem _ (by simp [PoolEntry.texts]),
    hunnamed _ hmem _ (by simp [PoolEntry.texts])⟩

end

lemma ne_of_string? {pool : PoolLayout} {slot spared index : Nat}
    (h : ∀ text ∈ pool.string? slot, text.toNat ≠ spared)
    (hstring : pool.Stands slot (.string index)) :
    index ≠ spared := by
  obtain ⟨entry, hentry, hconstant⟩ := hstring
  cases entry <;> cases hconstant
  exact h _ (by rw [string?, slot?_eq_some_iff.mpr hentry]; rfl)

section

variable {front back : PoolLayout} {old new : String} {slot : Nat}

/-- A text that is exchanged for another one is seen in its own slot only. -/
lemma slot?_exchange (hslot : slot ≠ front.next) :
    slot? (front ++ .utf8 new :: back) slot = slot? (front ++ .utf8 old :: back) slot := by
  cases slot with
  | zero => rfl
  | succ slot =>
      rw [slot?, slot?, entryAt?_append, entryAt?_append]
      split_ifs with hfront
      · rfl
      · rw [next] at hslot
        obtain ⟨more, hmore⟩ : ∃ more, slot - front.width = more + 1 :=
          ⟨slot - front.width - 1, by omega⟩
        rw [hmore]
        rfl

lemma stands_exchange {constant : Constant}
    (h : Stands (front ++ .utf8 old :: back) slot constant) (hslot : slot ≠ front.next) :
    Stands (front ++ .utf8 new :: back) slot constant := by
  obtain ⟨entry, hentry, rfl⟩ := h
  have hfound : slot? (front ++ .utf8 new :: back) slot = some entry := by
    rw [slot?_exchange hslot]
    exact slot?_eq_some_iff.mpr hentry
  exact ⟨entry, slot?_eq_some_iff.mp hfound, rfl⟩

/-- A constant of another kind stands where it stood before. -/
lemma stands_exchange_of_not_text {constant : Constant}
    (h : Stands (front ++ .utf8 old :: back) slot constant)
    (hconstant : ∀ text, constant ≠ .utf8 text) :
    Stands (front ++ .utf8 new :: back) slot constant := by
  refine stands_exchange h ?_
  rintro rfl
  obtain ⟨entry, hentry, rfl⟩ := h
  have hfound := slot?_eq_some_iff.mpr hentry
  rw [slot?_next] at hfound
  cases hfound
  exact hconstant old rfl

/-- What a slot holds is held there still, unless the look-up comes by the text. -/
lemma holds_exchange (hunnamed : Unnamed (front ++ .utf8 old :: back) front.next) {α : Type}
    {demand : Demand α} {value : α}
    (h : Holds (Stands (front ++ .utf8 old :: back)) demand slot value)
    (havoids : demand.Avoids (front ++ .utf8 old :: back) front.next slot) :
    Holds (Stands (front ++ .utf8 new :: back)) demand slot value := by
  have hkept {slot : Nat} {constant : Constant}
      (h : Stands (front ++ .utf8 old :: back) slot constant)
      (hconstant : ∀ text, constant ≠ .utf8 text) :
      Stands (front ++ .utf8 new :: back) slot constant :=
    stands_exchange_of_not_text h hconstant
  induction h with
  | text h => exact .text (stands_exchange h havoids)
  | className h _ ih => exact .className (hkept h nofun) (ih (hunnamed.className h))
  | nameAndType h _ _ ihName ihDescriptor =>
      obtain ⟨hname, hdescriptor⟩ := hunnamed.nameAndType h
      exact .nameAndType (hkept h nofun) (ihName hname) (ihDescriptor hdescriptor)
  | member h _ _ ihOwner ihPair =>
      exact .member (hkept h nofun) (ihOwner trivial) (ihPair trivial)
  | integer h => exact .integer (hkept h nofun)
  | float h => exact .float (hkept h nofun)
  | long h => exact .long (hkept h nofun)
  | double h => exact .double (hkept h nofun)
  | string h _ ih => exact .string (hkept h nofun) (ih (ne_of_string? havoids h))

end

end PoolLayout

/-! ## What stands behind the pool -/

/-- What resolves in the one pool resolves in the other, up to references to the text in one
slot. -/
structure Spares (slot : Nat) (pool pool' : PoolLayout) : Prop where
  resolves {α : Type} {demand : Demand α} {ref : Ref α} (h : ref.Resolves pool.Stands demand)
    (havoids : demand.Avoids pool slot ref.slot.toNat) : ref.Resolves pool'.Stands demand

lemma PoolLayout.spares_exchange {front back : PoolLayout} {old new : String}
    (hunnamed : Unnamed (front ++ .utf8 old :: back) front.next) :
    Spares front.next (front ++ .utf8 old :: back) (front ++ .utf8 new :: back) where
  resolves h havoids := holds_exchange hunnamed h havoids

section

variable {slot : Nat} {pool pool' : PoolLayout}

lemma ElementLayout.Legal.spared (hpools : Spares slot pool pool') {levels : Nat}
    {element : ElementLayout}
    (hlegal : element.Legal pool levels) (htexts : ∀ text ∈ element.texts, text.toNat ≠ slot) :
    element.Legal pool' levels := by
  induction hlegal with
  | const type index => exact .const type index
  | enumConstant htype hname =>
      rw [ElementLayout.texts, List.forall_mem_cons, List.forall_mem_singleton] at htexts
      exact .enumConstant (hpools.resolves htype htexts.1) (hpools.resolves hname htexts.2)
  | classLiteral hdescriptor =>
      rw [ElementLayout.texts, List.forall_mem_singleton] at htexts
      exact .classLiteral (hpools.resolves hdescriptor htexts)
  | nested htype hcount hnames hvalues ih =>
      rw [ElementLayout.texts, List.forall_mem_cons, List.forall_mem_flatMap] at htexts
      obtain ⟨htypeSlot, helements⟩ := htexts
      refine .nested (hpools.resolves htype htypeSlot) hcount (fun element helement => ?_)
        fun element helement => ?_
      · exact hpools.resolves (hnames element helement)
          (List.forall_mem_cons.mp (helements element helement)).1
      · exact ih element helement (List.forall_mem_cons.mp (helements element helement)).2
  | array hcount hvalues ih =>
      rw [ElementLayout.texts, List.forall_mem_flatMap] at htexts
      exact .array hcount fun value hvalue => ih value hvalue (htexts value hvalue)

lemma AnnotationLayout.Legal.spared (hpools : Spares slot pool pool') {levels : Nat}
    {item : AnnotationLayout}
    (hlegal : item.Legal pool levels) (htexts : ∀ text ∈ item.texts, text.toNat ≠ slot) :
      item.Legal pool' levels := by
  rw [AnnotationLayout.texts, List.forall_mem_cons, List.forall_mem_flatMap] at htexts
  obtain ⟨htypeSlot, helements⟩ := htexts
  refine ⟨hpools.resolves hlegal.type htypeSlot, hlegal.count, fun element helement => ?_,
    fun element helement => ?_⟩
  · exact hpools.resolves (hlegal.names element helement)
      (List.forall_mem_cons.mp (helements element helement)).1
  · exact (hlegal.values element helement).spared hpools
      (List.forall_mem_cons.mp (helements element helement)).2

lemma AttributeContent.LegalAnnotations.spared (hpools : Spares slot pool pool')
    {list : List AnnotationLayout} (hlegal : LegalAnnotations pool list)
    (htexts : ∀ text ∈ list.flatMap AnnotationLayout.texts, text.toNat ≠ slot) :
    LegalAnnotations pool' list := by
  rw [List.forall_mem_flatMap] at htexts
  exact ⟨hlegal.1, fun item hitem => (hlegal.2 item hitem).spared hpools (htexts item hitem)⟩

/-- Code refers to members and types only. -/
lemma InstructionLayout.StandFrom.spared (hpools : Spares slot pool pool')
    {items : List InstructionLayout} {offset : Nat} (hitems : StandFrom pool.Stands offset items) :
    StandFrom pool'.Stands offset items := by
  induction items generalizing offset with
  | nil => trivial
  | cons item rest ih =>
      obtain ⟨⟨hshaped, hrefers⟩, hrest⟩ := hitems
      refine ⟨⟨hshaped, ?_⟩, ih hrest⟩
      cases item with
      | member op ref tail => exact hpools.resolves hrefers trivial
      | type op ref => exact hpools.resolves hrefers trivial
      | plain | tableswitch | lookupswitch | wide => trivial

lemma AttributeContent.Legal.spared (hpools : Spares slot pool pool') {content : AttributeContent}
    (hlegal : content.Legal pool) (htexts : ∀ text ∈ content.texts, text.toNat ≠ slot)
    (hconstants : ∀ index ∈ content.constants, ∀ text ∈ pool.string? index.toNat,
      text.toNat ≠ slot) :
    content.Legal pool' := by
  cases content with
  | signature text => exact hpools.resolves hlegal (htexts _ List.mem_cons_self)
  | sourceFile name => exact hpools.resolves hlegal (htexts _ List.mem_cons_self)
  | constantValue value => exact hpools.resolves hlegal (hconstants _ List.mem_cons_self)
  | exceptions names =>
      exact ⟨hlegal.1, fun name hname => hpools.resolves (hlegal.2 name hname) trivial⟩
  | code body =>
      have hbody : body.Legal pool := hlegal
      exact { hbody with body := hbody.body.spared hpools }
  | enclosingMethod owner method =>
      exact ⟨hpools.resolves hlegal.1 trivial, fun ref href =>
        hpools.resolves (hlegal.2 ref href) trivial⟩
  | annotations visible list => exact LegalAnnotations.spared hpools hlegal htexts
  | parameterAnnotations visible slots =>
      have hlists := List.forall_mem_flatMap.mp htexts
      exact ⟨hlegal.1, fun list hlist => (hlegal.2 list hlist).spared hpools (hlists list hlist)⟩
  | annotationDefault => trivial
  | other name => exact hlegal

lemma AttributeTable.Legal.spared (hpools : Spares slot pool pool') {table : AttributeTable}
    (hlegal : table.Legal pool) (htexts : ∀ text ∈ table.texts, text.toNat ≠ slot)
    (hconstants : ∀ index ∈ table.constants, ∀ text ∈ pool.string? index.toNat, text.toNat ≠ slot) :
    table.Legal pool' := by
  rw [AttributeTable.texts, List.forall_mem_flatMap] at htexts
  rw [AttributeTable.constants, List.forall_mem_flatMap] at hconstants
  refine ⟨hlegal.count, fun item hitem => ?_⟩
  have hentry := hlegal.entries item hitem
  obtain ⟨hname, hcontent⟩ := List.forall_mem_cons.mp (htexts item hitem)
  exact ⟨hpools.resolves hentry.name hname, hentry.length,
    hentry.content.spared hpools hcontent (hconstants item hitem)⟩

lemma MemberLayout.Legal.spared (hpools : Spares slot pool pool') {item : MemberLayout}
    (hlegal : item.Legal pool) (htexts : ∀ text ∈ item.texts, text.toNat ≠ slot)
    (hconstants : ∀ index ∈ item.attributes.constants, ∀ text ∈ pool.string? index.toNat,
      text.toNat ≠ slot) :
    item.Legal pool' := by
  rw [MemberLayout.texts, List.forall_mem_cons, List.forall_mem_cons] at htexts
  obtain ⟨hname, hdescriptor, hattributes⟩ := htexts
  exact ⟨hpools.resolves hlegal.name hname, hpools.resolves hlegal.descriptor hdescriptor,
    hlegal.attributes.spared hpools hattributes hconstants⟩

end

end ClassFile

/-- With another pool that spares the slot of a literal, a class is as legal as before. -/
lemma ClassLayout.Linked.spared {cls : ClassLayout} (hcls : cls.Linked) {slot : Nat}
    (hliteral : cls.IsLiteral slot) {pool : PoolLayout} (hpools : Spares slot cls.pool pool) :
      ClassLayout.Linked { cls with pool := pool } := by
  have htexts := hliteral.texts
  have hconstants := hliteral.constants
  rw [ClassLayout.texts, List.forall_mem_append, List.forall_mem_flatMap] at htexts
  rw [ClassLayout.constants, List.forall_mem_append, List.forall_mem_flatMap] at hconstants
  have hmember : ∀ item ∈ cls.fields ++ cls.methods, item.Legal cls.pool → item.Legal pool :=
    fun item hitem hlegal =>
    hlegal.spared hpools (htexts.1 item hitem) (hconstants.1 item hitem)
  exact {
    name := hpools.resolves hcls.name trivial
    superName := fun ref href => hpools.resolves (hcls.superName ref href) trivial
    interfaceCount := hcls.interfaceCount
    interfaces := fun ref href => hpools.resolves (hcls.interfaces ref href) trivial
    fieldCount := hcls.fieldCount
    fields := fun item hitem => hmember item (List.mem_append_left _ hitem) (hcls.fields item hitem)
    methodCount := hcls.methodCount
    methods := fun item hitem =>
      hmember item (List.mem_append_right _ hitem) (hcls.methods item hitem)
    attributes := hcls.attributes.spared hpools htexts.2 hconstants.2 }

/-! ## Class files with other contents in a text -/

namespace RawClass

/-- The class file with other contents in the text entry of a given number. -/
def withText (cls : RawClass) (index : Nat) (contents : Bytes) : RawClass where
  count := cls.count
  entries := cls.entries.set index (.text contents)
  layout := { cls.layout with pool := RawPool.layout (cls.entries.set index (.text contents)) }
  pool_eq := rfl

/-- The slot of the entry of a given number. -/
def slotOf (cls : RawClass) (index : Nat) : Nat :=
  PoolLayout.next (cls.layout.pool.take index)

lemma exists_split {cls : RawClass} {index : Nat} {contents : Bytes}
    (h : cls.entries[index]? = some (.text contents)) :
    ∃ front back : RawPool, cls.entries = front ++ .text contents :: back ∧
      cls.slotOf index = front.layout.next ∧
      ∀ other : RawEntry, cls.entries.set index other = front ++ other :: back := by
  obtain ⟨hindex, hentry⟩ := List.getElem?_eq_some_iff.mp h
  refine ⟨cls.entries.take index, cls.entries.drop (index + 1), ?_, ?_, ?_⟩
  · rw [← hentry, List.getElem_cons_drop, List.take_append_drop]
  · rw [slotOf, cls.pool_eq, RawPool.layout, RawPool.layout, List.map_take]
  · intro other
    rw [List.set_eq_take_append_cons_drop, if_pos hindex]

/-- The class file stays well-formed with any text in the place of a literal. -/
lemma WellFormed.withText {cls : RawClass} (hcls : cls.WellFormed) {index : Nat} {old new : Bytes}
    (hentry : cls.entries[index]? = some (.text old))
    (hliteral : cls.layout.IsLiteral (cls.slotOf index))
    (hnew : RawEntry.Legal (.text new)) : (cls.withText index new).WellFormed := by
  obtain ⟨front, back, hsplit, hslot, hset⟩ := exists_split hentry
  obtain ⟨hlegal, hfills⟩ := hcls.entries
  constructor
  · show RawPool.Legal cls.count (cls.entries.set index (.text new))
    rw [hset]
    rw [hsplit, List.forall_mem_append, List.forall_mem_cons] at hlegal
    rw [hsplit] at hfills
    exact ⟨List.forall_mem_append.mpr ⟨hlegal.1, List.forall_mem_cons.mpr ⟨hnew, hlegal.2.2⟩⟩,
      hfills.exchange new⟩
  · refine hcls.declaration.spared hliteral ?_
    have hunnamed := hliteral.unnamed
    rw [hslot, cls.pool_eq, hsplit, RawPool.layout_append_cons] at hunnamed
    rw [hslot, hset, cls.pool_eq, hsplit, RawPool.layout_append_cons, RawPool.layout_append_cons]
    exact PoolLayout.spares_exchange hunnamed

/-- A class file cannot be read with contents that spell no text in any place. -/
lemma WellFormed.fails_withText {cls : RawClass} (hcls : cls.WellFormed) {index : Nat}
    {old new : Bytes}
    (hentry : cls.entries[index]? = some (.text old)) (hlength : new.length < 65536)
    (hnew : ModifiedUtf8.decode? new = none) (trailing : Bytes) :
    ClassFile.parse ((cls.withText index new).bytes ++ trailing) = .error .invalidUtf8 := by
  obtain ⟨front, back, hsplit, -, hset⟩ := exists_split hentry
  obtain ⟨hlegal, hfills⟩ := hcls.entries
  rw [hsplit] at hlegal hfills
  have hfront : ∀ raw ∈ front, raw.Legal := (List.forall_mem_append.mp hlegal).1
  have hentries : (cls.withText index new).entries = front ++ .text new :: back := hset (.text new)
  refine fails hentries hfront ?_ (RawEntry.fails hlength hnew) trailing
  rw [hentries]
  exact hfills.exchange new

/-- **A string literal shows in what is read of a class only if it spells no text.**  Every class
file that can be read is that of a raw class.  With other code units in a text that only string
constants refer to, none of which is the value of a field, it is read with the same result, unless
there is a surrogate without its partner among them: then the text is refused, and the class file
with it. -/
theorem parse_withText_of_isLiteral {bytes : Bytes} {result : ClassFile}
    (hparse : ClassFile.parse bytes = .ok result) :
    (∃ (cls : RawClass) (trailing : Bytes), cls.WellFormed ∧ bytes = cls.bytes ++ trailing) ∧
      ∀ (cls : RawClass) (trailing : Bytes), cls.WellFormed → bytes = cls.bytes ++ trailing →
        ∀ (index : Nat) (old : Bytes), cls.entries[index]? = some (.text old) →
          cls.layout.IsLiteral (cls.slotOf index) →
            ∀ units : List Nat, (∀ unit ∈ units, unit < 0x10000) →
              (ModifiedUtf8.encodeUnits units).length < 65536 →
              ClassFile.parse
                ((cls.withText index (ModifiedUtf8.encodeUnits units)).bytes ++ trailing) =
                if (Utf16.decode? units).isSome then .ok result else .error .invalidUtf8 := by
  constructor
  · obtain ⟨cls, trailing, hcls, hbytes, -⟩ := parse_eq_ok_iff.mp hparse
    exact ⟨cls, trailing, hcls, hbytes⟩
  · intro cls trailing hcls hbytes index old hentry hliteral units hunits hlength
    have hspelled := ModifiedUtf8.decode?_encodeUnits hunits
    have hresult : result = cls.layout.model := by
      have hmodel := parse_eq_ok_iff.mpr ⟨cls, trailing, hcls, hbytes, rfl⟩
      rw [hparse] at hmodel
      exact Except.ok.inj hmodel
    by_cases hpaired : (Utf16.decode? units).isSome
    · have hnew : RawEntry.Legal (.text (ModifiedUtf8.encodeUnits units)) :=
        ⟨hlength, by rw [hspelled]; exact hpaired⟩
      rw [if_pos hpaired, hresult]
      exact parse_eq_ok_iff.mpr ⟨_, trailing, hcls.withText hentry hliteral hnew, rfl, rfl⟩
    · have hnone : ModifiedUtf8.decode? (ModifiedUtf8.encodeUnits units) = none := by
        rw [hspelled]
        exact Option.not_isSome_iff_eq_none.mp hpaired
      rw [if_neg hpaired]
      exact hcls.fails_withText hentry hlength hnone trailing

/-! ### A method that returns a literal -/

/-- The pool of the class.  The literal stands in slot 8. -/
def greetingPool : RawPool :=
  let name (text : String) : RawEntry := .text (ModifiedUtf8.encode text.toList)
  [name "A", .plain (.classRef 1), name "java/lang/Object", .plain (.classRef 3), name "m",
    name "()Ljava/lang/String;", name "Code", .text [0x68, 0x69], .plain (.string 8)]

/-- A class with a method that returns a literal. -/
def greetingClass : RawClass where
  count := 10
  entries := greetingPool
  layout := {
    minorVersion := 0
    majorVersion := 52
    pool := greetingPool.layout
    access := 0x0021
    name := ⟨2, "A"⟩
    superName := some ⟨4, "java/lang/Object"⟩
    interfaces := []
    fields := []
    methods := [{
      access := 0x0009
      name := ⟨5, "m"⟩
      descriptor := ⟨6, "()Ljava/lang/String;"⟩
      attributes := [⟨7, .code ⟨1, 0, [.plain 0x12 [9], .plain 0xB0 []], [], []⟩, []⟩] }]
    attributes := [] }
  pool_eq := rfl

lemma greetingClass_wellFormed : greetingClass.WellFormed where
  entries := by decide
  declaration := {
    name := by decide
    superName := by decide
    interfaceCount := by decide
    interfaces := by decide
    fieldCount := by decide
    fields := by simp [greetingClass]
    methodCount := by decide
    methods := by
      refine List.forall_mem_singleton.mpr ⟨by decide, by decide, by decide, ?_⟩
      refine List.forall_mem_singleton.mpr ⟨by decide, by decide, ?_⟩
      exact {
        body := ⟨⟨rfl, trivial⟩, ⟨rfl, trivial⟩, trivial⟩
        bodyLength := by decide
        handlerCount := by decide
        attributeCount := by decide
        attributeLength := by simp }
    attributes := ⟨by decide, by simp [greetingClass]⟩ }

lemma parse_greetingClass : ClassFile.parse greetingClass.bytes = .ok greetingClass.layout.model :=
  parse_eq_ok_iff.mpr ⟨greetingClass, [], greetingClass_wellFormed, (List.append_nil _).symm, rfl⟩

/-- The greeting may be any text, also one with a zero character and one beyond the basic plane, but
its surrogates have to come in pairs. -/
theorem parse_greetingClass_withText :
    ClassFile.parse greetingClass.bytes = .ok greetingClass.layout.model ∧
      greetingClass.layout.IsLiteral (greetingClass.slotOf 7) ∧
      ClassFile.parse
        (greetingClass.withText 7 (ModifiedUtf8.encodeUnits [0, 0xD83D, 0xDE00])).bytes =
        .ok greetingClass.layout.model ∧
      ClassFile.parse (greetingClass.withText 7 (ModifiedUtf8.encodeUnits [0xDE00, 0xD83D])).bytes =
        .error .invalidUtf8 := by
  have hbytes : greetingClass.bytes = greetingClass.bytes ++ [] := (List.append_nil _).symm
  have hliteral : greetingClass.layout.IsLiteral (greetingClass.slotOf 7) := by decide
  have hunits :=
    (parse_withText_of_isLiteral parse_greetingClass).2 greetingClass
    [] greetingClass_wellFormed hbytes 7
    [0x68, 0x69] rfl hliteral
  refine ⟨parse_greetingClass, hliteral, ?_, ?_⟩
  · rw [← List.append_nil (RawClass.bytes _), hunits _ (by decide) (by decide), if_pos (by decide)]
  · rw [← List.append_nil (RawClass.bytes _), hunits _ (by decide) (by decide), if_neg (by decide)]

/-- A literal decides whether a class can be read: a surrogate that stands alone is refused,
although nothing but a string constant refers to the text. -/
theorem loneSurrogate_refused :
    ClassFile.parse greetingClass.bytes = .ok greetingClass.layout.model ∧
      greetingClass.entries[7]? = some (.text [0x68, 0x69]) ∧
      greetingClass.layout.IsLiteral (greetingClass.slotOf 7) ∧
      ModifiedUtf8.encodeUnits [0xD800] = [0xED, 0xA0, 0x80] ∧
      ClassFile.parse (greetingClass.withText 7 [0xED, 0xA0, 0x80]).bytes =
        .error .invalidUtf8 := by
  have hentry : greetingClass.entries[7]? = some (.text [0x68, 0x69]) := rfl
  have hrefused : ModifiedUtf8.decode? [0xED, 0xA0, 0x80] = none := by decide
  refine ⟨parse_greetingClass, hentry, by decide, by decide, ?_⟩
  rw [← List.append_nil (RawClass.bytes _)]
  exact greetingClass_wellFormed.fails_withText hentry (by decide) hrefused []

end RawClass

end JarFacts
