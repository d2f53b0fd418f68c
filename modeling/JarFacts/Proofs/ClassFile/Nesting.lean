import JarFacts.Proofs.ClassFile.Annotation

/-!
# How deep annotations may nest

`AnnotationLayout.Holds` counts the level of every value that an annotation holds: its own members
are on the first level, and the elements of an array and the members of a nested annotation are one
level below the value they are in. What stands beside a value has no part in the count, so siblings
matter neither by their number nor by their order.

An annotation whose references resolve is read if no value of it is below level 256, and otherwise
refused for that and nothing else.  Both are decided value by value on the way down
(`ElementLayout.legal_or_fails`): a value needs more levels than are left for it because something
in it does, and whatever stands before the first such thing is read.
-/

namespace JarFacts.ClassFile

/-! ## Levels -/

/-- The annotation holds the value on this level. -/
inductive AnnotationLayout.Holds (item : AnnotationLayout) : (level : Nat) → ElementLayout → Prop
  | member {name : Ref String} {value : ElementLayout} (hmem : (name, value) ∈ item.elements) :
      Holds item 1 value
  | inNested {level : Nat} {type name : Ref String} {elements : List (Ref String × ElementLayout)}
      {value : ElementLayout} (houter : Holds item level (.nested type elements))
      (hmem : (name, value) ∈ elements) :
      Holds item (level + 1) value
  | inArray {level : Nat} {values : List ElementLayout} {value : ElementLayout}
      (houter : Holds item level (.array values)) (hmem : value ∈ values) :
        Holds item (level + 1) value

/-- The references of a value resolve and its numbers fit, however deep it nests. -/
inductive ElementLayout.Resolves (pool : PoolLayout) : ElementLayout → Prop
  | const (type : ConstantType) (slot : UInt16) : Resolves pool (.const type slot)
  | enumConstant {type name : Ref String} (htype : type.Resolves pool.Stands .text)
      (hname : name.Resolves pool.Stands .text) :
      Resolves pool (.enumConstant type name)
  | classLiteral {descriptor : Ref String} (hdescriptor : descriptor.Resolves pool.Stands .text) :
      Resolves pool (.classLiteral descriptor)
  | nested {type : Ref String} {elements : List (Ref String × ElementLayout)}
      (htype : type.Resolves pool.Stands .text) (hcount : elements.length < 65536)
      (hnames : ∀ element ∈ elements, element.1.Resolves pool.Stands .text)
      (hvalues : ∀ element ∈ elements, Resolves pool element.2) :
        Resolves pool (.nested type elements)
  | array {values : List ElementLayout} (hcount : values.length < 65536)
      (hvalues : ∀ value ∈ values, Resolves pool value) : Resolves pool (.array values)

/-- The references of an annotation resolve and its numbers fit, however deep it nests. -/
structure AnnotationLayout.Resolves (pool : PoolLayout) (item : AnnotationLayout) : Prop where
  type : item.type.Resolves pool.Stands .text
  count : item.elements.length < 65536
  names : ∀ element ∈ item.elements, element.1.Resolves pool.Stands .text
  values : ∀ element ∈ item.elements, element.2.Resolves pool

variable {pool : PoolLayout} {levels : Nat}

/-- Legality is resolution within a number of levels. -/
lemma ElementLayout.Legal.resolves {element : ElementLayout} (h : element.Legal pool levels) :
    element.Resolves pool := by
  induction h with
  | const type slot => exact .const type slot
  | enumConstant htype hname => exact .enumConstant htype hname
  | classLiteral hdescriptor => exact .classLiteral hdescriptor
  | nested htype hcount hnames _ ih => exact .nested htype hcount hnames ih
  | array hcount _ ih => exact .array hcount ih

lemma AnnotationLayout.Legal.resolves {item : AnnotationLayout} (h : item.Legal pool levels) :
    item.Resolves pool :=
  ⟨h.type, h.count, h.names, fun element helement => (h.values element helement).resolves⟩

/-- An annotation has enough levels for all its members, or is refused at the first for which there
are too few. -/
lemma AnnotationLayout.legal_or_fails (item : AnnotationLayout)
    (htype : item.type.Resolves pool.Stands .text) (hcount : item.elements.length < 65536)
    (hnames : ∀ element ∈ item.elements, element.1.Resolves pool.Stands .text)
    (hvalues : ∀ element ∈ item.elements,
      element.2.Legal pool levels ∨
        Fails (elementValue pool.constants levels) element.2.bytes (refusal (.nestedTooDeep 256))) :
    item.Legal pool levels ∨
      Fails (annotationWith pool.constants (elementValue pool.constants levels)) item.bytes
        (refusal (.nestedTooDeep 256)) := by
  have hgood : ∀ element ∈ item.elements, element.2.Legal pool levels →
      Reads
        (do
          let name ← Reader.slot pool.constants.utf8
          return (name, ← elementValue pool.constants levels))
        (element.1.bytes ++ element.2.bytes) (element.1.target, element.2.value) := by
    intro element helement hlegal
    exact (Ref.reads (hnames element helement)).bind ((ElementLayout.reads hlegal).map _)
  have hmembers := Fails.forall_or_counted hcount hgood fun element helement =>
    (hvalues element helement).imp_right fun h =>
      .after (Ref.reads (hnames element helement)) (h.bind _)
  refine hmembers.imp (fun hall => ⟨htype, hcount, hnames, hall⟩) fun hfails => ?_
  exact .after (Ref.reads htype) (hfails.bind _)

/-- The levels that are left are enough for a value, or it is refused for being nested too deep. -/
lemma ElementLayout.legal_or_fails {element : ElementLayout} (h : element.Resolves pool)
    (levels : Nat) :
    element.Legal pool levels ∨
      Fails (elementValue pool.constants levels) element.bytes (refusal (.nestedTooDeep 256)) := by
  induction h generalizing levels with
  | const type slot =>
      cases levels with
      | zero => exact .inr fun _ _ => ⟨_, rfl⟩
      | succ levels => exact .inl (.const type slot)
  | enumConstant htype hname =>
      cases levels with
      | zero => exact .inr fun _ _ => ⟨_, rfl⟩
      | succ levels => exact .inl (.enumConstant htype hname)
  | classLiteral hdescriptor =>
      cases levels with
      | zero => exact .inr fun _ _ => ⟨_, rfl⟩
      | succ levels => exact .inl (.classLiteral hdescriptor)
  | @nested type elements htype hcount hnames _ ih =>
      cases levels with
      | zero => exact .inr fun _ _ => ⟨_, rfl⟩
      | succ levels =>
          obtain hlegal | hfails :=
            AnnotationLayout.legal_or_fails ⟨type, elements⟩ htype hcount hnames
            fun element helement => ih element helement levels
          · exact .inl (.nested htype hcount hnames hlegal.values)
          · rw [elementValue, bytes]
            exact .inr (.after (.u1 0x40) (hfails.bind _))
  | array hcount _ ih =>
      cases levels with
      | zero => exact .inr fun _ _ => ⟨_, rfl⟩
      | succ levels =>
          obtain hlegal | hfails :=
            Fails.forall_or_counted hcount (fun value _ hvalue => ElementLayout.reads hvalue)
            fun value hvalue => ih value hvalue levels
          · exact .inl (.array hcount hlegal)
          · rw [elementValue, bytes]
            exact .inr (.after (.u1 0x5B) (hfails.bind _))

namespace AnnotationLayout

variable {item other : AnnotationLayout}

/-- What is on a level of an annotation is legal within the levels from there on down. -/
lemma Holds.exists_legal {level : Nat} {value : ElementLayout} (h : item.Holds level value)
    (hlegal : item.Legal pool levels) : ∃ left, level + left = levels + 1 ∧
      value.Legal pool left := by
  induction h with
  | member hmem => exact ⟨levels, Nat.add_comm 1 levels, hlegal.values _ hmem⟩
  | inNested _ hmem ih =>
      obtain ⟨left, hleft, houter⟩ := ih
      cases houter with
      | nested _ _ _ hvalues => exact ⟨_, by omega, hvalues _ hmem⟩
  | inArray _ hmem ih =>
      obtain ⟨left, hleft, houter⟩ := ih
      cases houter with
      | array _ hvalues => exact ⟨_, by omega, hvalues _ hmem⟩

lemma Legal.level_le (hlegal : item.Legal pool levels) {level : Nat} {value : ElementLayout}
    (h : item.Holds level value) : level ≤ levels := by
  obtain ⟨left, hleft, hvalue⟩ := h.exists_legal hlegal
  have hpos : 0 < left := by cases hvalue <;> exact Nat.succ_pos _
  omega

/-- A value that holds nothing below the last level is legal within the levels from its own on
down. -/
lemma legal_of_level_le (hlevels : ∀ level value, item.Holds level value → level ≤ levels)
    {value : ElementLayout}
    (hvalue : value.Resolves pool) (level : Nat) (hholds : item.Holds level value) :
    value.Legal pool (levels - level + 1) := by
  induction hvalue generalizing level with
  | const type slot => exact .const type slot
  | enumConstant htype hname => exact .enumConstant htype hname
  | classLiteral hdescriptor => exact .classLiteral hdescriptor
  | nested htype hcount hnames _ ih =>
      refine .nested htype hcount hnames fun element helement => ?_
      have hinner : item.Holds (level + 1) element.2 := .inNested hholds helement
      have hlevel := hlevels _ _ hinner
      have hleft : levels - level = levels - (level + 1) + 1 := by omega
      rw [hleft]
      exact ih element helement _ hinner
  | array hcount _ ih =>
      refine .array hcount fun inner hmem => ?_
      have hinner : item.Holds (level + 1) inner := .inArray hholds hmem
      have hlevel := hlevels _ _ hinner
      have hleft : levels - level = levels - (level + 1) + 1 := by omega
      rw [hleft]
      exact ih inner hmem _ hinner

/-- The levels that an annotation needs are those that it has values on. -/
lemma Resolves.legal_iff_level_le (h : item.Resolves pool) :
    item.Legal pool levels ↔ ∀ level value, item.Holds level value → level ≤ levels := by
  refine ⟨fun hlegal level value hholds => hlegal.level_le hholds, fun hlevels =>
    ⟨h.type, h.count, h.names, ?_⟩⟩
  intro element helement
  have hholds : item.Holds 1 element.2 := .member helement
  have hlevel := hlevels 1 _ hholds
  have hlegal := legal_of_level_le hlevels (h.values element helement) 1 hholds
  rwa [Nat.sub_add_cancel hlevel] at hlegal

lemma Resolves.legal_or_refused (h : item.Resolves pool) :
    item.Legal pool 256 ∨
    Fails (annotationInfo pool.constants) item.bytes (refusal (.nestedTooDeep 256)) :=
  legal_or_fails item h.type h.count h.names fun element helement =>
    ElementLayout.legal_or_fails (h.values element helement) 256

end AnnotationLayout

lemma AnnotationLayout.Resolves.reads_iff_level_le {item : AnnotationLayout}
    (h : item.Resolves pool) :
    Reads (annotationInfo pool.constants) item.bytes item.info ↔
      ∀ level value, item.Holds level value → level ≤ 256 := by
  rw [← h.legal_iff_level_le]
  refine ⟨fun hreads => ?_, AnnotationLayout.reads⟩
  exact h.legal_or_refused.resolve_right hreads.not_fails

/-- **Annotations nest 256 levels deep and no deeper.**  An annotation whose references resolve is
read as what it says, to its last byte and no further, if it has no value below that level, and
otherwise it is refused.  All that counts is which levels it has values on, not how many, nor in
what order. -/
theorem annotation_read_iff_within_levels {pool : PoolLayout} {item : AnnotationLayout}
    (h : item.Resolves pool) :
    ((∀ level value, item.Holds level value → level ≤ 256) →
      Reads (annotationInfo pool.constants) item.bytes item.info) ∧
    ((∃ level value, item.Holds level value ∧ 256 < level) →
      Fails (annotationInfo pool.constants) item.bytes
        (.malformedAttribute "RuntimeVisibleAnnotations" (.nestedTooDeep 256))) ∧
    ∀ other : AnnotationLayout, other.Resolves pool →
      (∀ level, (∃ value, item.Holds level value) ↔ ∃ value, other.Holds level value) →
      (Reads (annotationInfo pool.constants) item.bytes item.info ↔
        Reads (annotationInfo pool.constants) other.bytes other.info) := by
  refine ⟨h.reads_iff_level_le.mpr, ?_, fun other hother hlevels => ?_⟩
  · rintro ⟨level, value, hholds, hlevel⟩
    refine h.legal_or_refused.resolve_left fun hlegal => ?_
    exact absurd (hlegal.level_le hholds) (by omega)
  · rw [h.reads_iff_level_le, hother.reads_iff_level_le]
    constructor
    · intro hitem level value hholds
      obtain ⟨value', hholds'⟩ := (hlevels level).mpr ⟨value, hholds⟩
      exact hitem level value' hholds'
    · intro hothers level value hholds
      obtain ⟨value', hholds'⟩ := (hlevels level).mp ⟨value, hholds⟩
      exact hothers level value' hholds'

/-- Arrays and nested annotations in turn, each inside the other, with a constant in the innermost
and one beside each array. -/
def tower : Nat → ElementLayout
  | 0 => .const .int 1
  | height + 1 =>
    if height % 2 = 0 then .array [.const .string 1, tower height]
    else .nested ⟨1, "A"⟩ [(⟨1, "A"⟩, tower height)]

/-- An annotation whose members are towers of one height. -/
def towers (count height : Nat) : AnnotationLayout :=
  ⟨⟨1, "A"⟩, List.replicate count (⟨1, "A"⟩, tower height)⟩

lemma tower_legal (height : Nat) : (tower height).Legal [.utf8 "A"] (height + 1) := by
  induction height with
  | zero => exact .const .int 1
  | succ height ih =>
      rw [tower]
      split
      · exact .array (by simp) (by simpa using ⟨.const .string 1, ih⟩)
      · refine .nested (by decide) (by simp) (fun element helement => ?_) (by simpa using ih)
        obtain rfl := List.mem_singleton.mp helement
        exact PoolLayout.lookUp_eq_ok_iff.mp rfl

lemma towers_legal (count : Nat) (hcount : count < 65536) (height : Nat) :
    (towers count height).Legal [.utf8 "A"] (height + 1) where
  type := PoolLayout.lookUp_eq_ok_iff.mp rfl
  count := by rwa [towers, List.length_replicate]
  names element helement := by
    rw [List.eq_of_mem_replicate helement]
    exact PoolLayout.lookUp_eq_ok_iff.mp rfl
  values element helement := by
    rw [List.eq_of_mem_replicate helement]
    exact tower_legal height

/-- A tower has a value on each of its levels. -/
lemma holds_tower {item : AnnotationLayout} (height : Nat) {level : Nat}
    (h : item.Holds level (tower height)) :
    ∀ below ≤ height, ∃ value, item.Holds (level + below) value := by
  induction height generalizing level with
  | zero =>
      intro below hbelow
      obtain rfl := Nat.le_zero.mp hbelow
      exact ⟨_, h⟩
  | succ height ih =>
      have hinner : item.Holds (level + 1) (tower height) := by
        rw [tower] at h
        split at h
        · exact .inArray h (List.mem_cons_of_mem _ List.mem_cons_self)
        · exact .inNested h List.mem_cons_self
      rintro (_ | below) hbelow
      · exact ⟨_, h⟩
      · rw [Nat.add_comm below, ← Nat.add_assoc]
        exact ih hinner below (Nat.le_of_succ_le_succ hbelow)

/-- Towers of one height have values on as many levels, and one more for the innermost constant,
however many they are. -/
lemma exists_holds_towers (count : Nat) (hpos : 0 < count) (hcount : count < 65536)
    (height level : Nat) :
    (∃ value, (towers count height).Holds level value) ↔ 1 ≤ level ∧ level ≤ height + 1 := by
  constructor
  · rintro ⟨value, hholds⟩
    refine ⟨?_, (towers_legal count hcount height).level_le hholds⟩
    cases hholds <;> exact Nat.le_add_left 1 _
  · rintro ⟨hlow, hhigh⟩
    have hfirst : (towers count height).Holds 1 (tower height) :=
      .member (List.mem_replicate.mpr ⟨Nat.ne_of_gt hpos, rfl⟩)
    have hlevel := holds_tower height hfirst (level - 1) (by omega)
    rwa [Nat.add_sub_cancel' hlow] at hlevel

/-- A tower of height 255 around a constant is read, and two of them beside each other are as well;
one step higher it is refused. -/
theorem towers_read_within_levels :
    (towers 1 255).Resolves [.utf8 "A"] ∧
    (∀ level value, (towers 1 255).Holds level value → level ≤ 256) ∧
    Reads (annotationInfo (PoolLayout.constants [.utf8 "A"])) (towers 1 255).bytes
      (towers 1 255).info ∧
    (towers 2 255).Resolves [.utf8 "A"] ∧
    (∀ level, (∃ value, (towers 1 255).Holds level value) ↔
      ∃ value, (towers 2 255).Holds level value) ∧
    Reads (annotationInfo (PoolLayout.constants [.utf8 "A"])) (towers 2 255).bytes
      (towers 2 255).info ∧
    (towers 1 256).Resolves [.utf8 "A"] ∧
    (∃ level value, (towers 1 256).Holds level value ∧ 256 < level) ∧
    Fails (annotationInfo (PoolLayout.constants [.utf8 "A"])) (towers 1 256).bytes
      (.malformedAttribute "RuntimeVisibleAnnotations" (.nestedTooDeep 256)) := by
  have hone := towers_legal 1 (by decide) 255
  have htwo := towers_legal 2 (by decide) 255
  have hhigher := towers_legal 1 (by decide) 256
  have hlevels (level : Nat) (value : ElementLayout) (h : (towers 1 255).Holds level value) :
      level ≤ 256 :=
    hone.level_le h
  have hsame (level : Nat) :
      (∃ value, (towers 1 255).Holds level value) ↔ ∃ value, (towers 2 255).Holds level value := by
    rw [exists_holds_towers 1 (by decide) (by decide),
      exists_holds_towers 2 (by decide) (by decide)]
  obtain ⟨value, hdeep⟩ := (exists_holds_towers 1 (by decide) (by decide) 256 257).mpr (by decide)
  obtain ⟨hread, -, hother⟩ := annotation_read_iff_within_levels hone.resolves
  have hreads := hread hlevels
  exact ⟨hone.resolves, hlevels, hreads, htwo.resolves, hsame,
    (hother _ htwo.resolves hsame).mp hreads, hhigher.resolves, ⟨257, value, hdeep, by decide⟩,
    (annotation_read_iff_within_levels hhigher.resolves).2.1 ⟨257, value, hdeep, by decide⟩⟩

end JarFacts.ClassFile
