import Mathlib.Data.List.GetD
import Mathlib.Data.List.Induction
import JarFacts.Proofs.ClassFile.Annotation
import JarFacts.Proofs.ClassFile.Code

/-!
# Attribute tables in bytes

The first half is about what a table amounts to.  `Attributes.summary` reads it off the whole table,
one part of the result at a time: the last entry of a kind, or all of them in table order, or the
annotations of one parameter out of every entry that has any.  Adding the entries one after the
other comes to the same (`Attributes.ofList_eq_summary`).

The second half spells entries in bytes.  An entry has a name, a stated length, and a body that
starts with what its name calls for; what the body holds behind that is arbitrary.
-/

namespace JarFacts.ClassFile

/-! ## What a table amounts to -/

section Slots

variable {α : Type}

/-- Several lists of slots as one.  There are as many slots as in the longest list, and each holds
what stands in it in any of the lists, in order. -/
def joinSlots (tables : List (List (List α))) : List (List α) :=
  (List.range ((tables.map List.length).foldl max 0)).map fun slot => tables.flatMap fun slots =>
    slots.getD slot []

lemma length_mergeSlots (slots more : List (List α)) :
    (mergeSlots slots more).length = max slots.length more.length := by
  fun_induction mergeSlots slots more with
  | case1 more => simp
  | case2 slots => simp
  | case3 slot slots more mores ih =>
      rw [List.length_cons, ih, List.length_cons, List.length_cons, Nat.add_max_add_right]

lemma getD_mergeSlots (slots more : List (List α)) (slot : Nat) :
    (mergeSlots slots more).getD slot [] = slots.getD slot [] ++ more.getD slot [] := by
  fun_induction mergeSlots slots more generalizing slot with
  | case1 more => simp
  | case2 slots => simp
  | case3 first slots more mores ih =>
      cases slot with
      | zero => rfl
      | succ slot => exact ih slot

lemma length_joinSlots (tables : List (List (List α))) :
    (joinSlots tables).length = (tables.map List.length).foldl max 0 := by
  rw [joinSlots, List.length_map, List.length_range]

lemma length_joinSlots_concat (tables : List (List (List α))) (slots : List (List α)) :
    (joinSlots (tables ++ [slots])).length = max (joinSlots tables).length slots.length := by
  rw [length_joinSlots, length_joinSlots, List.map_append, List.foldl_append]
  rfl

lemma length_le_length_joinSlots {tables : List (List (List α))} {slots : List (List α)}
    (h : slots ∈ tables) :
    slots.length ≤ (joinSlots tables).length := by
  induction tables using List.reverseRecOn with
  | nil => cases h
  | append_singleton tables last ih =>
      rw [length_joinSlots_concat]
      rcases List.mem_append.mp h with hfront | hlast
      · exact Nat.le_trans (ih hfront) (Nat.le_max_left _ _)
      · rw [List.mem_singleton.mp hlast]
        exact Nat.le_max_right _ _

lemma getD_joinSlots (tables : List (List (List α))) (slot : Nat) :
    (joinSlots tables).getD slot [] = tables.flatMap fun slots => slots.getD slot [] := by
  by_cases hslot : slot < (joinSlots tables).length
  · rw [List.getD_eq_getElem _ _ hslot]
    simp only [joinSlots, List.getElem_map, List.getElem_range]
  · -- behind the last slot of the longest list no list has anything
    have hnone : ∀ slots ∈ tables, slots.getD slot [] = [] := fun slots hslots =>
      List.getD_eq_default _ _
        (Nat.le_trans (length_le_length_joinSlots hslots) (Nat.le_of_not_lt hslot))
    rw [List.getD_eq_default _ _ (Nat.le_of_not_lt hslot), eq_comm, List.flatMap_eq_nil_iff]
    exact hnone

/-- One more list of slots is merged into the ones before it. -/
lemma mergeSlots_joinSlots (tables : List (List (List α))) (slots : List (List α)) :
    mergeSlots (joinSlots tables) slots = joinSlots (tables ++ [slots]) := by
  refine List.ext_getElem ?_ fun slot hleft hright => ?_
  · rw [length_mergeSlots, length_joinSlots_concat]
  · rw [← List.getD_eq_getElem _ [] hleft, ← List.getD_eq_getElem _ [] hright,
      getD_mergeSlots, getD_joinSlots, getD_joinSlots, List.flatMap_append, List.flatMap_singleton]

end Slots

namespace Attributes

/-- What a table amounts to, read off the whole table. -/
def summary (entries : List Attribute) : Attributes where
  signature := (entries.filterMap fun | .signature text => some text | _ => none).getLast?
  sourceFile := (entries.filterMap fun | .sourceFile name => some name | _ => none).getLast?
  constantValue := (entries.filterMap fun | .constantValue value => some value | _ => none).getLast?
  exceptions := entries.flatMap fun | .exceptions names => names | _ => []
  code := (entries.filterMap fun | .code instructions => some instructions | _ => none).getLast?
  enclosingMethod :=
    (entries.filterMap fun | .enclosingMethod method => some method | _ => none).getLast?
  annotations := entries.flatMap fun | .annotations list => list | _ => []
  parameterAnnotations :=
    joinSlots (entries.filterMap fun | .parameterAnnotations slots => some slots | _ => none)
  hasAnnotationDefault := entries.any fun | .annotationDefault => true | _ => false
  unknown := entries.filterMap fun | .unknown name => some name | _ => none

lemma summary_concat (entries : List Attribute) (entry : Attribute) :
    summary (entries ++ [entry]) = (summary entries).add entry := by
  cases entry <;>
    simp [summary, add, mergeSlots_joinSlots, List.filterMap_append, List.flatMap_append]

/-- **A table is what its entries say together.** -/
lemma ofList_eq_summary (entries : List Attribute) : ofList entries = summary entries := by
  induction entries using List.reverseRecOn with
  | nil => rfl
  | append_singleton entries entry ih =>
      rw [summary_concat, ← ih, ofList, List.foldl_append]
      rfl

end Attributes

/-! ## Entries -/

/-- The names of the attributes that something is read of. -/
def readAttributes : List String :=
  ["Signature", "SourceFile", "ConstantValue", "Exceptions", "Code", "EnclosingMethod",
    "RuntimeVisibleAnnotations", "RuntimeInvisibleAnnotations",
    "RuntimeVisibleParameterAnnotations", "RuntimeInvisibleParameterAnnotations",
    "AnnotationDefault"]

/-- What an attribute says, with the slots it refers to. -/
inductive AttributeContent where
  | signature (text : Ref String)
  | sourceFile (name : Ref String)
  | constantValue (value : Ref ConstantValue)
  | exceptions (names : List (Ref String))
  | code (body : CodeLayout)
  | enclosingMethod (owner : Ref String) (method : Option (Ref (String × String)))
  | annotations (visible : Bool) (list : List AnnotationLayout)
  | parameterAnnotations (visible : Bool) (slots : List (List AnnotationLayout))
  | annotationDefault
  /-- An attribute that nothing is read of. -/
  | other (name : String)

namespace AttributeContent

def name : AttributeContent → String
  | signature _ => "Signature"
  | sourceFile _ => "SourceFile"
  | constantValue _ => "ConstantValue"
  | exceptions _ => "Exceptions"
  | code _ => "Code"
  | enclosingMethod .. => "EnclosingMethod"
  | annotations true _ => "RuntimeVisibleAnnotations"
  | annotations false _ => "RuntimeInvisibleAnnotations"
  | parameterAnnotations true _ => "RuntimeVisibleParameterAnnotations"
  | parameterAnnotations false _ => "RuntimeInvisibleParameterAnnotations"
  | annotationDefault => "AnnotationDefault"
  | other name => name

/-- The part of the body that is read.  A class outside any method has slot 0 for it. -/
def bytes : AttributeContent → Bytes
  | signature text => text.bytes
  | sourceFile name => name.bytes
  | constantValue value => value.bytes
  | exceptions names => Bytes.counted Ref.bytes names
  | code body => body.bytes
  | enclosingMethod owner none => owner.bytes ++ Bytes.ofNumber 2 0
  | enclosingMethod owner (some method) => owner.bytes ++ method.bytes
  | annotations _ list => Bytes.counted AnnotationLayout.bytes list
  | parameterAnnotations _ slots => UInt8.ofNat slots.length :: slots.flatMap
      (Bytes.counted AnnotationLayout.bytes)
  | annotationDefault => []
  | other _ => []

/-- What the attribute is read as. -/
def meaning : AttributeContent → Attribute
  | signature text => .signature text.target
  | sourceFile name => .sourceFile name.target
  | constantValue value => .constantValue value.target
  | exceptions names => .exceptions (names.map Ref.target)
  | code body => .code body.instructions
  | enclosingMethod owner method =>
    .enclosingMethod
      ⟨owner.target, method.map fun ref => ref.target.1, method.map fun ref => ref.target.2⟩
  | annotations _ list => .annotations (list.map AnnotationLayout.info)
  | parameterAnnotations _ slots =>
      .parameterAnnotations (slots.map fun list => list.map AnnotationLayout.info)
  | annotationDefault => .annotationDefault
  | other name => if name ∈ ignoredAttributes then .ignored else .unknown name

def LegalAnnotations (pool : PoolLayout) (list : List AnnotationLayout) : Prop :=
  list.length < 65536 ∧ ∀ item ∈ list, item.Legal pool 256

/-- References resolve to constants of the right kind, and numbers fit into their fields. -/
def Legal (pool : PoolLayout) : AttributeContent → Prop
  | signature text => text.Resolves pool.Stands .text
  | sourceFile name => name.Resolves pool.Stands .text
  | constantValue value => value.Resolves pool.Stands .value
  | exceptions names => names.length < 65536 ∧ ∀ name ∈ names, name.Resolves pool.Stands .className
  | code body => body.Legal pool
  | enclosingMethod owner method =>
    owner.Resolves pool.Stands .className ∧ ∀ ref ∈ method, ref.Resolves pool.Stands .nameAndType
  | annotations _ list => LegalAnnotations pool list
  | parameterAnnotations _ slots => slots.length < 256 ∧ ∀ list ∈ slots, LegalAnnotations pool list
  | annotationDefault => True
  | other name => name ∉ readAttributes

lemma reads_annotations {pool : PoolLayout} {list : List AnnotationLayout}
    (hlegal : LegalAnnotations pool list) :
    Reads (Reader.counted (annotationInfo pool.constants))
      (Bytes.counted AnnotationLayout.bytes list) (list.map AnnotationLayout.info) :=
  Reads.counted hlegal.1 fun item hitem => AnnotationLayout.reads (hlegal.2 item hitem)

lemma reads_parameterAnnotations {pool : PoolLayout} {slots : List (List AnnotationLayout)}
    (hcount : slots.length < 256) (hlegal : ∀ list ∈ slots, LegalAnnotations pool list) :
    Reads (Reader.parameterAnnotations pool.constants)
      (UInt8.ofNat slots.length :: slots.flatMap (Bytes.counted AnnotationLayout.bytes))
      (slots.map fun list => list.map AnnotationLayout.info) := by
  have htimes := Reads.times slots fun list hlist => reads_annotations (hlegal list hlist)
  have hnumber : (UInt8.ofNat slots.length).toNat = slots.length := UInt8.toNat_ofNat_of_lt hcount
  refine (Reads.u1 (UInt8.ofNat slots.length)).bind ?_
  rwa [hnumber]

lemma reads_enclosingMethod {pool : PoolLayout} {owner : Ref String}
    (howner : owner.Resolves pool.Stands .className) {method : Option (Ref (String × String))}
    (hmethod : ∀ ref ∈ method, ref.Resolves pool.Stands .nameAndType) :
    Reads (Reader.enclosingMethod pool.constants) (bytes (.enclosingMethod owner method))
      ⟨owner.target, method.map fun ref => ref.target.1, method.map fun ref => ref.target.2⟩ := by
  cases method with
  | none => exact (Ref.reads howner).bind ((Reads.u2 (by decide)).bind_last (.pure _))
  | some ref =>
      have hresolves : ref.Resolves pool.Stands .nameAndType := hmethod ref rfl
      have hslot : ref.slot.toNat ≠ 0 := Ref.slot_ne_zero hresolves
      refine (Ref.reads howner).bind ((Reads.u2 ref.slot.toNat_lt).bind_last ?_)
      rw [if_neg hslot]
      exact (Reads.ofExcept (PoolLayout.lookUp_eq_ok_iff.mpr hresolves)).map _

lemma attributeBody_of_not_mem {pool : ConstantPool} {name : String} (h : name ∉ readAttributes) :
    Reader.attributeBody pool name =
      pure (if name ∈ ignoredAttributes then .ignored else .unknown name) := by
  unfold Reader.attributeBody
  split
  case h_12 => simp only [List.contains_iff_mem]
  -- the other branches are for the names of which something is read
  all_goals exact absurd (by decide) h

/-- The part of a body that is read. -/
lemma reads {pool : PoolLayout} {content : AttributeContent} (hlegal : content.Legal pool) :
    Reads (Reader.attributeBody pool.constants content.name) content.bytes content.meaning := by
  cases content with
  | signature text => exact (Ref.reads hlegal).map _
  | sourceFile name => exact (Ref.reads hlegal).map _
  | constantValue value => exact (Ref.reads hlegal).map _
  | exceptions names =>
      exact (Reads.counted hlegal.1 fun name hname => Ref.reads (hlegal.2 name hname)).map _
  | code body => exact (CodeLayout.reads hlegal).map _
  | enclosingMethod owner method => exact (reads_enclosingMethod hlegal.1 hlegal.2).map _
  | annotations visible list => cases visible <;> exact (reads_annotations hlegal).map _
  | parameterAnnotations visible slots =>
      cases visible <;> exact (reads_parameterAnnotations hlegal.1 hlegal.2).map _
  | annotationDefault => exact .pure _
  | other name =>
      have hbody : Reader.attributeBody pool.constants name = pure (meaning (other name)) :=
        attributeBody_of_not_mem hlegal
      rw [AttributeContent.name, hbody]
      exact .pure _

end AttributeContent

/-- An entry of an attribute table.  Nothing is said about what stands behind the part of the body
that is read. -/
structure AttributeLayout where
  nameSlot : UInt16
  content : AttributeContent
  junk : Bytes

namespace AttributeLayout

/-- The name, as it is referred to. -/
def name (item : AttributeLayout) : Ref String where
  slot := item.nameSlot
  target := item.content.name

def body (item : AttributeLayout) : Bytes :=
  item.content.bytes ++ item.junk

/-- The bytes of an entry: its name, the length of its body, and the body. -/
def bytes (item : AttributeLayout) : Bytes :=
  item.name.bytes ++ (Bytes.ofNumber 4 item.body.length ++ item.body)

/-- The slot of the name holds the name, the body has a length that can be stated, and the content
is legal. -/
structure Legal (pool : PoolLayout) (item : AttributeLayout) : Prop where
  name : item.name.Resolves pool.Stands .text
  length : item.body.length < 4294967296
  content : item.content.Legal pool

lemma reads {pool : PoolLayout} {item : AttributeLayout} (hlegal : item.Legal pool) :
    Reads (Reader.attributeEntry pool.constants) item.bytes item.content.meaning := by
  have hbody := (AttributeContent.reads hlegal.content).within item.junk
  exact (Ref.reads hlegal.name).bind
    ((Reads.u4 hlegal.length).bind ((Reads.take item.body).bind_last hbody))

end AttributeLayout

/-- The entries of an attribute table, in order. -/
abbrev AttributeTable := List AttributeLayout

namespace AttributeTable

def bytes (table : AttributeTable) : Bytes :=
  Bytes.counted AttributeLayout.bytes table

def summary (table : AttributeTable) : Attributes :=
  Attributes.summary (table.map fun item => item.content.meaning)

/-- All entries are legal, and so is their number. -/
structure Legal (pool : PoolLayout) (table : AttributeTable) : Prop where
  count : table.length < 65536
  entries : ∀ item ∈ table, item.Legal pool

/-- A table is read as what it says. -/
lemma reads {pool : PoolLayout} {table : AttributeTable} (hlegal : table.Legal pool) :
    Reads (Attributes.read pool.constants) table.bytes table.summary := by
  have hentries := Reads.counted hlegal.count fun item hitem =>
      AttributeLayout.reads (hlegal.entries item hitem)
  rw [summary, ← Attributes.ofList_eq_summary]
  exact hentries.map Attributes.ofList

end AttributeTable

end JarFacts.ClassFile
