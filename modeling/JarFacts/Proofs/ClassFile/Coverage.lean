import JarFacts.ClassFile.Basic
import JarFacts.Proofs.ClassFile.Decoding
import JarFacts.Proofs.ClassFile.RoundTrip

/-!
# Everything that is read is laid out

The layouts of annotations, method bodies, attribute tables and members describe what can be
written.  Here they turn out to describe all that can be read: wherever one of the readers has a
value, the bytes that it has taken are those of a legal layout, and the value is what the layout
stands for.  The last of these readers is the one for all that stands behind the pool
(`ClassLayout.consumes_declaration`).  Of the pool itself nothing is asked but that it is the pool
of some layout.
-/

namespace JarFacts

open ClassFile

namespace ClassFile

/-! ## References -/

/-- A slot that was looked up is a reference to what was found. -/
lemma Ref.consumes (pool : PoolLayout) {α : Type} (demand : Demand α) :
    Consumes (Reader.slot (pool.constants.lookUp demand))
      (SpelledBy (fun ref : Ref α => ref.Resolves pool.Stands demand) Ref.bytes Ref.target) := by
  refine (Consumes.slot _).mono ?_
  rintro _ value ⟨index, hfound, rfl⟩
  exact ⟨⟨index, value⟩, PoolLayout.lookUp_eq_ok_iff.mp hfound, rfl, rfl⟩

section

variable (pool : PoolLayout)

/-! ## Annotations -/

lemma eq_of_charOfNat {byte : UInt8} {c : Char} (h : Char.ofNat byte.toNat = c) :
    byte = UInt8.ofNat c.toNat := by
  have hbyte : byte.toNat < 256 := byte.toNat_lt
  have hvalid : byte.toNat.isValidChar := Or.inl (by omega)
  have htoNat : (Char.ofNat byte.toNat).toNat = byte.toNat := by
    rw [Char.ofNat, dif_pos hvalid]; rfl
  rw [← h, htoNat, UInt8.ofNat_toNat]

lemma exists_constantType {byte : UInt8}
    (h : constantTags.contains (Char.ofNat byte.toNat) = true) :
    ∃ type : ConstantType, byte = UInt8.ofNat type.tag.toNat ∧
      Char.ofNat byte.toNat = type.tag := by
  have hmem : Char.ofNat byte.toNat ∈ ['B', 'C', 'D', 'F', 'I', 'J', 'S', 'Z', 's'] :=
    List.contains_iff_mem.mp h
  simp only [List.mem_cons, List.not_mem_nil, or_false] at hmem
  have hfound : ∃ type : ConstantType, Char.ofNat byte.toNat = type.tag := by
    rcases hmem with htag | htag | htag | htag | htag | htag | htag | htag | htag
    · exact ⟨.byte, htag⟩
    · exact ⟨.char, htag⟩
    · exact ⟨.double, htag⟩
    · exact ⟨.float, htag⟩
    · exact ⟨.int, htag⟩
    · exact ⟨.long, htag⟩
    · exact ⟨.short, htag⟩
    · exact ⟨.boolean, htag⟩
    · exact ⟨.string, htag⟩
  obtain ⟨type, htype⟩ := hfound
  exact ⟨type, eq_of_charOfNat htype, htype⟩

lemma consumes_annotationWith {levels : Nat} {value : Reader ElementValue}
    (hvalue : Consumes value
      (SpelledBy (ElementLayout.Legal pool levels) ElementLayout.bytes ElementLayout.value)) :
    Consumes (annotationWith pool.constants value)
      (SpelledBy (AnnotationLayout.Legal pool levels) AnnotationLayout.bytes
        AnnotationLayout.info) := by
  refine (Ref.consumes pool .text).bind ?_
  rintro _ _ ⟨type, htype, rfl, rfl⟩
  have helement : Consumes
      (do
        let name ← Reader.slot pool.constants.utf8
        return (name, ← value))
      (SpelledBy
        (fun element : Ref String × ElementLayout => element.1.Resolves pool.Stands .text ∧
          element.2.Legal pool levels)
        (fun element => element.1.bytes ++ element.2.bytes) fun element =>
          (element.1.target, element.2.value)) := by
    refine (Ref.consumes pool .text).bind ?_
    rintro _ _ ⟨name, hname, rfl, rfl⟩
    refine hvalue.map ?_
    rintro _ _ ⟨layout, hlayout, rfl, rfl⟩
    exact ⟨(name, layout), ⟨hname, hlayout⟩, rfl, rfl⟩
  refine helement.counted.map ?_
  rintro _ _ ⟨elements, ⟨hcount, helements⟩, rfl, rfl⟩
  have hnames : ∀ element ∈ elements, element.1.Resolves pool.Stands .text :=
    fun element h => (helements element h).1
  have hvalues : ∀ element ∈ elements, element.2.Legal pool levels :=
    fun element h => (helements element h).2
  exact ⟨⟨type, elements⟩, ⟨htype, hcount, hnames, hvalues⟩, rfl, rfl⟩

/-- An element value that is read within some number of levels is a value that is legal within as
many. -/
lemma consumes_elementValue (levels : Nat) :
    Consumes (elementValue pool.constants levels)
      (SpelledBy (ElementLayout.Legal pool levels) ElementLayout.bytes ElementLayout.value) := by
  induction levels with
  | zero => exact .throw _
  | succ levels ih =>
      refine Consumes.u1.bind ?_
      rintro byte _ rfl
      by_cases hconst : constantTags.contains (Char.ofNat byte.toNat) = true
      · obtain ⟨type, hbyte, htag⟩ := exists_constantType hconst
        dsimp only
        rw [if_pos hconst, htag]
        refine (Consumes.skip 2).map ?_
        intro _ bytes hlength
        obtain ⟨slot, rfl⟩ := Bytes.exists_u2 hlength
        exact ⟨.const type slot, .const type slot, by rw [hbyte, ElementLayout.bytes]; rfl,
          by rw [ElementLayout.value]⟩
      dsimp only
      rw [if_neg hconst]
      split_ifs with henum hclass hnested harray
      · rw [eq_of_charOfNat henum]
        refine (Ref.consumes pool .text).bind ?_
        rintro _ _ ⟨type, htype, rfl, rfl⟩
        refine (Ref.consumes pool .text).map ?_
        rintro _ _ ⟨name, hname, rfl, rfl⟩
        exact ⟨.enumConstant type name, .enumConstant htype hname, by rw [ElementLayout.bytes]; rfl,
          by rw [ElementLayout.value]⟩
      · rw [eq_of_charOfNat hclass]
        refine (Ref.consumes pool .text).map ?_
        rintro _ _ ⟨descriptor, hdescriptor, rfl, rfl⟩
        exact ⟨.classLiteral descriptor,
          .classLiteral hdescriptor, by rw [ElementLayout.bytes]; rfl, by rw [ElementLayout.value]⟩
      · rw [eq_of_charOfNat hnested]
        refine (consumes_annotationWith pool ih).map ?_
        rintro _ _ ⟨⟨type, elements⟩, hlegal, rfl, rfl⟩
        exact ⟨.nested type elements, .nested hlegal.type hlegal.count hlegal.names hlegal.values,
          by rw [ElementLayout.bytes]; rfl, by rw [ElementLayout.value]; rfl⟩
      · rw [eq_of_charOfNat harray]
        refine ih.counted.map ?_
        rintro _ _ ⟨values, ⟨hcount, hvalues⟩, rfl, rfl⟩
        exact ⟨.array values,
          .array hcount hvalues, by rw [ElementLayout.bytes]; rfl, by rw [ElementLayout.value]⟩
      · exact .throw _

lemma consumes_annotationInfo :
    Consumes (annotationInfo pool.constants)
      (SpelledBy (AnnotationLayout.Legal pool 256) AnnotationLayout.bytes AnnotationLayout.info) :=
  consumes_annotationWith pool (consumes_elementValue pool 256)

/-! ## Method bodies -/

lemma Handler.exists_bytes {bytes : Bytes} (hlength : bytes.length = 8) :
    ∃ handler : Handler, bytes = handler.bytes := by
  obtain ⟨first, rest, rfl, hfirst⟩ := Bytes.exists_front bytes (show 2 ≤ _ by omega)
  rw [List.length_append] at hlength
  obtain ⟨last, rest, rfl, hlast⟩ := Bytes.exists_front rest (show 2 ≤ _ by omega)
  rw [List.length_append] at hlength
  obtain ⟨entry, caught, rfl, hentry⟩ := Bytes.exists_front rest (show 2 ≤ _ by omega)
  rw [List.length_append] at hlength
  obtain ⟨first, rfl⟩ := Bytes.exists_u2 hfirst
  obtain ⟨last, rfl⟩ := Bytes.exists_u2 hlast
  obtain ⟨entry, rfl⟩ := Bytes.exists_u2 hentry
  obtain ⟨caught, rfl⟩ := Bytes.exists_u2 (show caught.length = 2 by omega)
  exact ⟨⟨first, last, entry, caught⟩, by simp only [bytes, List.append_assoc]⟩

lemma consumes_passedAttribute :
    Consumes
      (do
        Reader.skip 2
        Reader.skip (← Reader.u4))
      (SpelledBy (fun item : PassedAttribute => item.body.length < 4294967296) PassedAttribute.bytes
        fun _ => ()) := by
  refine (Consumes.skip 2).bind ?_
  intro _ name hname
  obtain ⟨name, rfl⟩ := Bytes.exists_u2 hname
  refine Consumes.u4.bind ?_
  rintro _ _ ⟨length, rfl, rfl⟩
  refine (Consumes.skip _).mono ?_
  intro body _ hbody
  have hlt : body.length < 4294967296 := by
    rw [hbody]
    exact length.toNat_lt
  refine ⟨⟨name, body⟩, hlt, ?_, rfl⟩
  rw [PassedAttribute.bytes, hbody]

lemma consumes_code :
    Consumes (Reader.code pool.constants)
      (SpelledBy (CodeLayout.Legal pool) CodeLayout.bytes CodeLayout.instructions) := by
  refine (Consumes.skip 4).bind ?_
  intro _ frame hframe
  obtain ⟨maxStack, maxLocals, rfl, hstack⟩ := Bytes.exists_front frame (show 2 ≤ _ by omega)
  rw [List.length_append] at hframe
  obtain ⟨maxStack, rfl⟩ := Bytes.exists_u2 hstack
  obtain ⟨maxLocals, rfl⟩ := Bytes.exists_u2 (show maxLocals.length = 2 by omega)
  refine Consumes.u4.bind ?_
  rintro _ _ ⟨length, rfl, rfl⟩
  refine (Consumes.take _).bind ?_
  rintro code _ ⟨rfl, hlength⟩
  refine (consumes_decodeCode pool 0 code).bind ?_
  rintro _ _ ⟨rfl, items, hitems, rfl, rfl⟩
  refine Consumes.u2.bind ?_
  rintro _ _ ⟨count, rfl, rfl⟩
  refine (Consumes.skip _).bind ?_
  intro _ table htable
  obtain ⟨handlers, hcount, rfl⟩ := Bytes.exists_flatMap_eq (fun _ => Handler.exists_bytes) _ htable
  refine consumes_passedAttribute.counted.discard.map ?_
  rintro _ _ ⟨_, attributes, ⟨hattributes, hbodies⟩, rfl, -⟩
  refine ⟨⟨maxStack, maxLocals, items, handlers, attributes⟩, ?_, ?_, rfl⟩
  · exact {
      body := hitems
      bodyLength := by rw [hlength]; exact length.toNat_lt
      handlerCount := by rw [hcount]; exact count.toNat_lt
      attributeCount := hattributes
      attributeLength := hbodies }
  · simp only [CodeLayout.bytes, Bytes.counted, hlength, hcount, List.append_assoc, List.nil_append]

/-! ## Attributes -/

lemma consumes_enclosingMethod :
    Consumes (Reader.enclosingMethod pool.constants) fun bytes found =>
      ∃ (owner : Ref String) (method : Option (Ref (String × String))),
        AttributeContent.Legal pool (.enclosingMethod owner method) ∧
        bytes = AttributeContent.bytes (.enclosingMethod owner method) ∧
        found = ⟨owner.target, method.map fun ref => ref.target.1,
          method.map fun ref => ref.target.2⟩ := by
  refine (Ref.consumes pool .className).bind ?_
  rintro _ _ ⟨owner, howner, rfl, rfl⟩
  refine Consumes.u2.bind ?_
  rintro _ _ ⟨index, rfl, rfl⟩
  split_ifs with hzero
  · refine .pure ⟨owner, none, ⟨howner, by simp⟩, ?_, rfl⟩
    rw [AttributeContent.bytes, hzero, List.append_nil]
  · refine (Consumes.ofExcept _).map ?_
    rintro pair _ ⟨rfl, hpair⟩
    have hmethod : Ref.Resolves ⟨index, pair⟩ pool.Stands .nameAndType :=
      PoolLayout.lookUp_eq_ok_iff.mp hpair
    refine ⟨owner, some ⟨index, pair⟩, ⟨howner, ?_⟩, ?_, rfl⟩
    · rintro ref ⟨⟩
      exact hmethod
    · rw [List.append_nil]
      rfl

lemma consumes_annotations :
    Consumes (Reader.counted (annotationInfo pool.constants))
      (SpelledBy (AttributeContent.LegalAnnotations pool) (Bytes.counted AnnotationLayout.bytes)
        (List.map AnnotationLayout.info)) :=
  (consumes_annotationInfo pool).counted

lemma consumes_parameterAnnotations :
    Consumes (Reader.parameterAnnotations pool.constants)
      (SpelledBy (fun slots => slots.length < 256 ∧
        ∀ list ∈ slots, AttributeContent.LegalAnnotations pool list)
        (fun slots =>
          UInt8.ofNat slots.length :: slots.flatMap (Bytes.counted AnnotationLayout.bytes))
        (List.map (List.map AnnotationLayout.info))) := by
  refine Consumes.u1.bind ?_
  rintro count _ rfl
  refine ((consumes_annotations pool).times count.toNat).mono ?_
  rintro _ _ ⟨slots, ⟨hcount, hslots⟩, rfl, rfl⟩
  refine ⟨slots, ⟨?_, hslots⟩, ?_, rfl⟩
  · rw [hcount]
    exact count.toNat_lt
  · dsimp only
    rw [hcount, UInt8.ofNat_toNat]
    rfl

/-- What is read of an attribute is what its name calls for. -/
lemma consumes_attributeBody (name : String) :
    Consumes (Reader.attributeBody pool.constants name)
      (SpelledBy (fun content : AttributeContent => content.name = name ∧ content.Legal pool)
        AttributeContent.bytes
        AttributeContent.meaning) := by
  by_cases hread : name ∈ readAttributes
  · simp only [readAttributes, List.mem_cons, List.not_mem_nil, or_false] at hread
    rcases hread with rfl | rfl | rfl | rfl | rfl | rfl | rfl | rfl | rfl | rfl | rfl
    · refine (Ref.consumes pool .text).map ?_
      rintro _ _ ⟨text, htext, rfl, rfl⟩
      exact ⟨.signature text, ⟨rfl, htext⟩, rfl, rfl⟩
    · refine (Ref.consumes pool .text).map ?_
      rintro _ _ ⟨name, hname, rfl, rfl⟩
      exact ⟨.sourceFile name, ⟨rfl, hname⟩, rfl, rfl⟩
    · refine (Ref.consumes pool .value).map ?_
      rintro _ _ ⟨value, hvalue, rfl, rfl⟩
      exact ⟨.constantValue value, ⟨rfl, hvalue⟩, rfl, rfl⟩
    · refine (Ref.consumes pool .className).counted.map ?_
      rintro _ _ ⟨names, hnames, rfl, rfl⟩
      exact ⟨.exceptions names, ⟨rfl, hnames⟩, rfl, rfl⟩
    · refine (consumes_code pool).map ?_
      rintro _ _ ⟨body, hbody, rfl, rfl⟩
      exact ⟨.code body, ⟨rfl, hbody⟩, rfl, rfl⟩
    · refine (consumes_enclosingMethod pool).map ?_
      rintro _ _ ⟨owner, method, hlegal, rfl, rfl⟩
      exact ⟨.enclosingMethod owner method, ⟨rfl, hlegal⟩, rfl, rfl⟩
    · refine (consumes_annotations pool).map ?_
      rintro _ _ ⟨list, hlist, rfl, rfl⟩
      exact ⟨.annotations true list, ⟨rfl, hlist⟩, rfl, rfl⟩
    · refine (consumes_annotations pool).map ?_
      rintro _ _ ⟨list, hlist, rfl, rfl⟩
      exact ⟨.annotations false list, ⟨rfl, hlist⟩, rfl, rfl⟩
    · refine (consumes_parameterAnnotations pool).map ?_
      rintro _ _ ⟨slots, hslots, rfl, rfl⟩
      exact ⟨.parameterAnnotations true slots, ⟨rfl, hslots⟩, rfl, rfl⟩
    · refine (consumes_parameterAnnotations pool).map ?_
      rintro _ _ ⟨slots, hslots, rfl, rfl⟩
      exact ⟨.parameterAnnotations false slots, ⟨rfl, hslots⟩, rfl, rfl⟩
    · exact .pure ⟨.annotationDefault, ⟨rfl, trivial⟩, rfl, rfl⟩
  · rw [AttributeContent.attributeBody_of_not_mem hread]
    exact .pure ⟨.other name, ⟨rfl, hread⟩, rfl, rfl⟩

lemma consumes_attributeEntry :
    Consumes (Reader.attributeEntry pool.constants)
      (SpelledBy (AttributeLayout.Legal pool) AttributeLayout.bytes fun item =>
        item.content.meaning) := by
  refine (Ref.consumes pool .text).bind ?_
  rintro _ _ ⟨name, hname, rfl, rfl⟩
  refine Consumes.u4.bind ?_
  rintro _ _ ⟨length, rfl, rfl⟩
  refine (Consumes.take _).bind ?_
  rintro body _ ⟨rfl, hlength⟩
  refine ((consumes_attributeBody pool name.target).within body).mono ?_
  rintro _ _ ⟨rfl, _, junk, rfl, content, ⟨hname', hcontent⟩, rfl, rfl⟩
  have hentry : (⟨name.slot, content, junk⟩ : AttributeLayout).name = name := by
    rw [AttributeLayout.name, hname']
  refine ⟨⟨name.slot, content, junk⟩, ⟨?_, ?_, hcontent⟩, ?_, rfl⟩
  · rw [hentry]
    exact hname
  · rw [AttributeLayout.body, hlength]
    exact length.toNat_lt
  · rw [AttributeLayout.bytes, hentry, AttributeLayout.body, hlength, List.append_nil]

lemma consumes_attributes :
    Consumes (Attributes.read pool.constants)
      (SpelledBy (AttributeTable.Legal pool) AttributeTable.bytes AttributeTable.summary) := by
  refine (consumes_attributeEntry pool).counted.map ?_
  rintro _ _ ⟨table, ⟨hcount, hentries⟩, rfl, rfl⟩
  exact ⟨table, ⟨hcount, hentries⟩, rfl, Attributes.ofList_eq_summary _⟩

/-! ## Members -/

/-- Fields and methods are read alike, up to what is made of the parts. -/
lemma consumes_parts {α : Type} {make : Nat → String → String → Attributes → α}
    {value : MemberLayout → α} (hmake : ∀ item,
      make item.access.toNat item.name.target item.descriptor.target item.attributes.summary =
        value item) :
    Consumes
      (do
        let access ← Reader.u2
        let name ← Reader.slot pool.constants.utf8
        let descriptor ← Reader.slot pool.constants.utf8
        let attributes ← Attributes.read pool.constants
        return make access name descriptor attributes)
      (SpelledBy (MemberLayout.Legal pool) MemberLayout.bytes value) := by
  refine Consumes.u2.bind ?_
  rintro _ _ ⟨access, rfl, rfl⟩
  refine (Ref.consumes pool .text).bind ?_
  rintro _ _ ⟨name, hname, rfl, rfl⟩
  refine (Ref.consumes pool .text).bind ?_
  rintro _ _ ⟨descriptor, hdescriptor, rfl, rfl⟩
  refine (consumes_attributes pool).map ?_
  rintro _ _ ⟨attributes, hattributes, rfl, rfl⟩
  have hvalue := hmake ⟨access, name, descriptor, attributes⟩
  exact ⟨⟨access, name, descriptor, attributes⟩, ⟨hname, hdescriptor, hattributes⟩, rfl, hvalue⟩

lemma consumes_field :
    Consumes (FieldInfo.read pool.constants)
      (SpelledBy (MemberLayout.Legal pool) MemberLayout.bytes MemberLayout.field) := by
  refine consumes_parts pool fun item => ?_
  rw [UInt16.ofNat_toNat]
  rfl

lemma consumes_method :
    Consumes (MethodInfo.read pool.constants)
      (SpelledBy (MemberLayout.Legal pool) MemberLayout.bytes MemberLayout.method) := by
  refine consumes_parts pool fun item => ?_
  rw [UInt16.ofNat_toNat]
  rfl

end

end ClassFile

/-! ## Classes -/

namespace ClassLayout

/-- Slot 0 stands for no superclass, and any other slot for one that is there. -/
lemma consumes_superName (pool : PoolLayout) :
    Consumes (Reader.slot pool.constants.className?) fun bytes found =>
      ∃ superName : Option (Ref String), (∀ ref ∈ superName, ref.Resolves pool.Stands .className) ∧
        bytes = Bytes.ofNumber 2 ((superName.map Ref.slot).getD 0).toNat ∧
        found = superName.map Ref.target := by
  refine (Consumes.slot _).mono ?_
  rintro _ found ⟨index, hfound, rfl⟩
  rw [ConstantPool.className?] at hfound
  split_ifs at hfound with hzero
  · cases hfound
    have hindex : index = 0 := UInt16.toNat_inj.mp hzero
    exact ⟨none, by simp, by rw [hindex]; rfl, rfl⟩
  · cases hclass : pool.constants.className index.toNat with
    | error error => rw [hclass] at hfound; cases hfound
    | ok name =>
        rw [hclass] at hfound
        cases hfound
        have hresolves : Ref.Resolves ⟨index, name⟩ pool.Stands .className :=
          PoolLayout.lookUp_eq_ok_iff.mp hclass
        refine ⟨some ⟨index, name⟩, ?_, rfl, rfl⟩
        rintro ref ⟨⟩
        exact hresolves

lemma superSlot_eq (cls : ClassLayout) : cls.superSlot = (cls.superName.map Ref.slot).getD 0 := by
  rw [superSlot]
  cases cls.superName <;> rfl

/-- What is read behind a pool is the rest of a class file with that pool. -/
lemma consumes_declaration (minorVersion majorVersion : UInt16) (pool : PoolLayout) :
    Consumes (ClassFile.readDeclaration minorVersion.toNat majorVersion.toNat pool.constants)
      fun bytes found =>
      ∃ cls : ClassLayout, (cls.minorVersion = minorVersion ∧ cls.majorVersion = majorVersion ∧
        cls.pool = pool) ∧
        cls.Linked ∧ bytes = cls.declarationBytes ∧ found = cls.model := by
  refine Consumes.u2.bind ?_
  rintro _ _ ⟨access, rfl, rfl⟩
  refine (Ref.consumes pool .className).bind ?_
  rintro _ _ ⟨name, hname, rfl, rfl⟩
  refine (consumes_superName pool).bind ?_
  rintro _ _ ⟨superName, hsuper, rfl, rfl⟩
  refine (Ref.consumes pool .className).counted.bind ?_
  rintro _ _ ⟨interfaces, ⟨hinterfaceCount, hinterfaces⟩, rfl, rfl⟩
  refine (consumes_field pool).counted.bind ?_
  rintro _ _ ⟨fields, ⟨hfieldCount, hfields⟩, rfl, rfl⟩
  refine (consumes_method pool).counted.bind ?_
  rintro _ _ ⟨methods, ⟨hmethodCount, hmethods⟩, rfl, rfl⟩
  refine (consumes_attributes pool).map ?_
  rintro _ _ ⟨attributes, hattributes, rfl, rfl⟩
  refine ⟨⟨minorVersion, majorVersion, pool, access, name, superName, interfaces, fields,
    methods, attributes⟩, ⟨rfl, rfl, rfl⟩, ?_, ?_, ?_⟩
  · exact ⟨hname, hsuper, hinterfaceCount, hinterfaces, hfieldCount, hfields, hmethodCount,
      hmethods, hattributes⟩
  · rw [declarationBytes, superSlot_eq]
  · rw [UInt16.ofNat_toNat]
    rfl

end ClassLayout

end JarFacts
