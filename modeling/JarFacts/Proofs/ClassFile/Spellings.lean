import JarFacts.Proofs.Bytes.Readings
import JarFacts.Proofs.ClassFile.RawClass

/-!
# Spellings that are taken for texts

Where the contents of a text are not plain UTF-8, reading cuts them into groups of one, two or three
bytes by the leads alone and keeps the low bits of what follows a lead.  `Group` is what such a
group can be.  A group is `Proper` if what follows the lead are continuation bytes and if the code
unit is not spelled in more bytes or fewer than it should be; these are the groups that writing
makes (`Group.proper_iff_bytes_eq`).

Nothing looks at whether a group is proper.  So what is read is plain UTF-8, modified UTF-8, or a
spelling with a group that is not proper in it, and such a spelling is taken for the text of its low
bits (`ModifiedUtf8.reads_text_iff_spelled`).
-/

namespace JarFacts

open ClassFile

namespace ModifiedUtf8

/-- A byte that continues a character: its highest bits are `10`. -/
def IsContinuation (byte : UInt8) : Prop :=
  0x80 ≤ byte ∧ byte < 0xC0

instance (byte : UInt8) : Decidable (IsContinuation byte) :=
  inferInstanceAs (Decidable (_ ∧ _))

/-- A byte that continues a character can be told from its low bits. -/
lemma isContinuation_iff (byte : UInt8) :
    IsContinuation byte ↔ UInt8.ofNat (0x80 + byte.toNat % 64) = byte := by
  have hlt := byte.toNat_lt
  rw [IsContinuation, UInt8.le_iff_toNat_le, UInt8.lt_iff_toNat_lt, ← UInt8.toNat_inj,
    byte_toNat (by omega)]
  simp only [UInt8.reduceToNat]
  omega

lemma ofNat_lead_two {lead : UInt8} (h : 0xC0 ≤ lead ∧ lead < 0xE0) :
    UInt8.ofNat (0xC0 + lead.toNat % 32) = lead := by
  rw [UInt8.le_iff_toNat_le, UInt8.lt_iff_toNat_lt] at h
  simp only [UInt8.reduceToNat] at h
  rw [← UInt8.toNat_inj, byte_toNat (by omega)]
  omega

lemma ofNat_lead_three {lead : UInt8} (h : 0xE0 ≤ lead ∧ lead < 0xF0) :
    UInt8.ofNat (0xE0 + lead.toNat % 16) = lead := by
  rw [UInt8.le_iff_toNat_le, UInt8.lt_iff_toNat_lt] at h
  simp only [UInt8.reduceToNat] at h
  rw [← UInt8.toNat_inj, byte_toNat (by omega)]
  omega

/-- The bytes that are read as one code unit.  The lead says how many there are. -/
inductive Group where
  | one (byte : UInt8) (hbyte : byte < 0x80)
  | two (lead tail : UInt8) (hlead : 0xC0 ≤ lead ∧ lead < 0xE0)
  | three (lead mid tail : UInt8) (hlead : 0xE0 ≤ lead ∧ lead < 0xF0)

namespace Group

def bytes : Group → Bytes
  | one byte _ => [byte]
  | two lead tail _ => [lead, tail]
  | three lead mid tail _ => [lead, mid, tail]

/-- The code unit in the low bits. -/
def unit : Group → Nat
  | one byte _ => byte.toNat
  | two lead tail _ => lead.toNat % 32 * 64 + tail.toNat % 64
  | three lead mid tail _ => lead.toNat % 16 * 4096 + mid.toNat % 64 * 64 + tail.toNat % 64

/-- What follows the lead continues it, and the code unit is spelled in as many bytes as it should
be. -/
def Proper : Group → Prop
  | one byte _ => byte.toNat ≠ 0
  | g@(two _ tail _) => IsContinuation tail ∧ (g.unit = 0 ∨ 0x80 ≤ g.unit)
  | g@(three _ mid tail _) => IsContinuation mid ∧ IsContinuation tail ∧ 0x800 ≤ g.unit

instance : DecidablePred Proper
  | one byte _ => inferInstanceAs (Decidable (byte.toNat ≠ 0))
  | two .. => inferInstanceAs (Decidable (_ ∧ _))
  | three .. => inferInstanceAs (Decidable (_ ∧ _))

lemma unit_lt (group : Group) : group.unit < 0x10000 := by
  cases group with
  | one byte hbyte =>
      have hlt := byte.toNat_lt
      rw [unit]
      omega
  | two lead tail hlead => rw [unit]; omega
  | three lead mid tail hlead => rw [unit]; omega

/-- A proper group is what writing its code unit gives. -/
lemma proper_iff_bytes_eq (group : Group) : group.Proper ↔ group.bytes = encodeUnit group.unit := by
  cases group with
  | one byte hbyte =>
      have hlt : byte.toNat < 0x80 := UInt8.lt_iff_toNat_lt.mp hbyte
      rw [Proper, bytes, unit, encodeUnit]
      by_cases hzero : byte.toNat = 0
      · rw [if_neg (fun h => h.1 hzero), if_pos (by omega)]
        exact iff_of_false (fun h => h hzero) (by simp)
      · rw [if_pos ⟨hzero, hlt⟩, UInt8.ofNat_toNat]
        exact iff_of_true hzero rfl
  | two lead tail hlead =>
      have hvalue : (two lead tail hlead).unit = lead.toNat % 32 * 64 + tail.toNat % 64 := rfl
      rw [Proper, bytes, encodeUnit]
      by_cases hshort : (two lead tail hlead).unit ≠ 0 ∧ (two lead tail hlead).unit < 0x80
      · rw [if_pos hshort]
        exact iff_of_false (by omega) (by simp)
      · have hhigh : (two lead tail hlead).unit / 64 = lead.toNat % 32 := by omega
        have hlow : (two lead tail hlead).unit % 64 = tail.toNat % 64 := by omega
        rw [if_neg hshort, if_pos (by omega), hhigh, hlow, ofNat_lead_two hlead, isContinuation_iff]
        simp only [List.cons.injEq, and_true, true_and, eq_comm (a := tail)]
        exact and_iff_left (by omega)
  | three lead mid tail hlead =>
      have hvalue : (three lead mid tail hlead).unit =
          lead.toNat % 16 * 4096 + mid.toNat % 64 * 64 + tail.toNat % 64 := rfl
      rw [Proper, bytes, encodeUnit]
      by_cases hshort : (three lead mid tail hlead).unit < 0x800
      · refine iff_of_false (by omega) ?_
        split_ifs <;> simp
      · have hhigh : (three lead mid tail hlead).unit / 4096 = lead.toNat % 16 := by omega
        have hmid : (three lead mid tail hlead).unit / 64 % 64 = mid.toNat % 64 := by omega
        have hlow : (three lead mid tail hlead).unit % 64 = tail.toNat % 64 := by omega
        rw [if_neg (by omega), if_neg hshort, hhigh, hmid, hlow, ofNat_lead_three hlead,
          isContinuation_iff, isContinuation_iff]
        simp only [List.cons.injEq, and_true, true_and, eq_comm (a := tail), eq_comm (a := mid)]
        exact and_congr_right fun _ => and_iff_left (Nat.le_of_not_lt hshort)

/-- Where a group ends can be told from its lead. -/
lemma append_inj {group group' : Group} {rest rest' : Bytes}
    (h : group.bytes ++ rest = group'.bytes ++ rest') :
    group = group' ∧ rest = rest' := by
  cases group <;> cases group' <;>
    simp only [bytes, List.cons_append, List.nil_append, List.cons.injEq] at h <;> grind

/-- Bytes are cut into groups in one way only. -/
lemma flatMap_bytes_injective : Function.Injective fun groups :
    List Group => groups.flatMap bytes := by
  intro groups groups' h
  induction groups generalizing groups' with
  | nil =>
      cases groups' with
      | nil => rfl
      | cons group' rest' => cases group' <;> cases h
  | cons group rest ih =>
      cases groups' with
      | nil => cases group <;> cases h
      | cons group' rest' =>
          obtain ⟨rfl, hrest⟩ := append_inj h
          rw [ih hrest]

/-- A group is read as its code unit, whatever follows. -/
lemma units?_bytes_append (group : Group) (rest : Bytes) :
    units? (group.bytes ++ rest) = (units? rest).map (group.unit :: ·) := by
  cases group with
  | one byte hbyte => exact units?_one hbyte rest
  | two lead tail hlead => exact units?_two hlead tail rest
  | three lead mid tail hlead => exact units?_three hlead mid tail rest

end Group

/-- Bytes are read as code units exactly if they can be cut into groups. -/
lemma units?_eq_some_iff {bytes : Bytes} {units : List Nat} :
    units? bytes = some units ↔
      ∃ groups : List Group, bytes = groups.flatMap Group.bytes ∧
        units = groups.map Group.unit := by
  constructor
  · intro h
    fun_induction units? bytes generalizing units with
    | case1 => cases h; exact ⟨[], rfl, rfl⟩
    | case2 lead rest hone ih =>
        obtain ⟨tail, htail, rfl⟩ := Option.map_eq_some_iff.mp h
        obtain ⟨groups, rfl, rfl⟩ := ih htail
        exact ⟨.one lead hone :: groups, rfl, rfl⟩
    | case3 lead hone htwo mid rest ih =>
        obtain ⟨tail, htail, rfl⟩ := Option.map_eq_some_iff.mp h
        obtain ⟨groups, rfl, rfl⟩ := ih htail
        exact ⟨.two lead mid htwo :: groups, rfl, rfl⟩
    | case5 lead hone htwo hthree mid last rest ih =>
        obtain ⟨tail, htail, rfl⟩ := Option.map_eq_some_iff.mp h
        obtain ⟨groups, rfl, rfl⟩ := ih htail
        exact ⟨.three lead mid last hthree :: groups, rfl, rfl⟩
    | case4 | case6 | case7 => cases h
  · rintro ⟨groups, rfl, rfl⟩
    induction groups with
    | nil => rfl
    | cons group rest ih => rw [List.flatMap_cons, group.units?_bytes_append, ih]; rfl

/-- Every code unit has a proper group. -/
lemma exists_proper {unit : Nat} (hunit : unit < 0x10000) :
    ∃ group : Group, group.bytes = encodeUnit unit ∧ group.Proper := by
  have hunits : units? (encodeUnit unit) = some [unit] := by
    rw [← List.append_nil (encodeUnit unit), units?_encodeUnit_append hunit]
    rfl
  obtain ⟨groups, hbytes, hgroups⟩ := units?_eq_some_iff.mp hunits
  match groups with
  | [] => cases hgroups
  | [group] =>
      rw [List.flatMap_singleton] at hbytes
      obtain rfl : unit = group.unit := (List.cons.inj hgroups).1
      exact ⟨group, hbytes.symm, group.proper_iff_bytes_eq.mpr hbytes.symm⟩
  | _ :: _ :: _ => cases hgroups

lemma exists_proper_groups {units : List Nat} (hunits : ∀ unit ∈ units, unit < 0x10000) :
    ∃ groups : List Group, encodeUnits units = groups.flatMap Group.bytes ∧
      ∀ group ∈ groups, group.Proper := by
  induction units with
  | nil => exact ⟨[], rfl, by simp⟩
  | cons unit rest ih =>
      obtain ⟨hunit, hrest⟩ := List.forall_mem_cons.mp hunits
      obtain ⟨group, hgroup, hproper⟩ := exists_proper hunit
      obtain ⟨groups, hgroups, hpropers⟩ := ih hrest
      refine ⟨group :: groups, ?_, List.forall_mem_cons.mpr ⟨hproper, hpropers⟩⟩
      rw [encodeUnits, List.flatMap_cons, ← encodeUnits, hgroups, List.flatMap_cons, hgroup]

/-- **What is written has proper groups only.** -/
lemma proper_of_encode {groups : List Group} {text : List Char}
    (h : groups.flatMap Group.bytes = encode text) :
    ∀ group ∈ groups, group.Proper := by
  obtain ⟨written, hwritten, hproper⟩ := exists_proper_groups (Utf16.flatMap_encodeChar_lt text)
  rw [encode_eq_encodeUnits, hwritten] at h
  rwa [Group.flatMap_bytes_injective h]

/-- **Proper groups are what is written of their text.** -/
lemma eq_encode_of_proper {groups : List Group} (hproper : ∀ group ∈ groups, group.Proper)
    {text : List Char}
    (h : Utf16.decode? (groups.map Group.unit) = some text) : groups.flatMap Group.bytes =
      encode text := by
  have hunits : ∀ unit ∈ groups.map Group.unit, unit < 0x10000 := by
    intro unit hunit
    obtain ⟨group, -, rfl⟩ := List.mem_map.mp hunit
    exact group.unit_lt
  have hbytes : groups.flatMap Group.bytes = encodeUnits (groups.map Group.unit) := by
    rw [encodeUnits, List.flatMap_map, List.flatMap_def, List.flatMap_def]
    exact congrArg _
      (List.map_congr_left fun group hgroup => group.proper_iff_bytes_eq.mp (hproper group hgroup))
  rw [hbytes, Utf16.eq_flatMap_of_decode? hunits h, encode_eq_encodeUnits]

/-! ## What is read -/

/-- Contents are read as plain UTF-8, as what is written in modified UTF-8, or for their low
bits. -/
lemma decode?_eq_some_iff {contents : Bytes} {text : List Char} :
    decode? contents = some text ↔
      contents = Utf8.encode text ∨ contents = encode text ∨
        (∀ other, contents ≠ Utf8.encode other ∧ contents ≠ encode other) ∧
          ∃ groups : List Group, contents = groups.flatMap Group.bytes ∧
            Utf16.decode? (groups.map Group.unit) = some text ∧
            ∃ group ∈ groups, ¬group.Proper := by
  constructor
  · intro h
    cases hplain : Utf8.decode? contents with
    | some plain =>
        rw [decode?_eq_or, hplain] at h
        cases h
        exact .inl (Utf8.eq_encode_of_decode? hplain)
    | none =>
        rw [decode?_eq_or, hplain] at h
        obtain ⟨units, hunits, htext⟩ := Option.bind_eq_some_iff.mp h
        obtain ⟨groups, hgroups, rfl⟩ := units?_eq_some_iff.mp hunits
        by_cases hproper : ∀ group ∈ groups, group.Proper
        · exact .inr (.inl (hgroups.trans (eq_encode_of_proper hproper htext)))
        · refine .inr
            (.inr ⟨fun other => ⟨fun hother => ?_, fun hother => ?_⟩, groups, hgroups, htext, ?_⟩)
          · rw [Utf8.decode?_eq_some_iff.mpr hother] at hplain
            cases hplain
          · exact hproper (proper_of_encode (hgroups.symm.trans hother))
          · simpa using hproper
  · rintro (rfl | rfl | ⟨hother, groups, rfl, htext, -⟩)
    · rw [decode?_eq_or, Utf8.decode?_encode]
      rfl
    · exact decode?_encode text
    · have hplain : Utf8.decode? (groups.flatMap Group.bytes) = none := by
        rw [Option.eq_none_iff_forall_ne_some]
        exact fun other h => (hother other).1 (Utf8.eq_encode_of_decode? h)
      rw [decode?_eq_or, hplain, Option.none_or, assemble?,
        units?_eq_some_iff.mpr ⟨groups, rfl, rfl⟩]
      exact htext

/-- **What is taken for a text is spelled as one, or has a group that is not proper.**  The contents
of a text are read exactly if they are plain UTF-8, or modified UTF-8, or else can be cut into
groups with code units that are a text; and then one of the groups does not continue its lead, or
has more bytes than its code unit takes, or is a bare zero.  Where there is no such group the
contents are malformed or spelled as they should be.  A pool is refused for contents that are not
read, and for no others. -/
theorem reads_text_iff_spelled (contents : Bytes) :
    (∀ text, decode? contents = some text ↔
      contents = Utf8.encode text ∨ contents = encode text ∨
        (∀ other, contents ≠ Utf8.encode other ∧ contents ≠ encode other) ∧
          ∃ groups : List Group, contents = groups.flatMap Group.bytes ∧
            Utf16.decode? (groups.map Group.unit) = some text ∧ ∃ group ∈ groups, ¬group.Proper) ∧
    ((∀ groups : List Group, contents = groups.flatMap Group.bytes →
      ∀ group ∈ groups, group.Proper) →
      ∀ text, decode? contents = some text ↔ contents = Utf8.encode text ∨ contents = encode text) ∧
    (contents.length < 65536 →
      (∀ text, decode? contents = some text →
        Reads Reader.constant (RawEntry.bytes (.text contents)) (.utf8 (String.ofList text))) ∧
      (decode? contents = none →
        Fails Reader.constant (RawEntry.bytes (.text contents)) .invalidUtf8)) := by
  refine ⟨fun text => decode?_eq_some_iff, fun hproper text => ?_, fun hlength =>
    ⟨fun text htext => ?_, fun hnone => ?_⟩⟩
  · rw [decode?_eq_some_iff, ← or_assoc]
    refine or_iff_left ?_
    rintro ⟨-, groups, hgroups, -, group, hgroup, hnot⟩
    exact hnot (hproper groups hgroups group hgroup)
  · have hreads := RawEntry.reads (.text contents) ⟨hlength, Option.isSome_of_eq_some htext⟩
    rwa [RawEntry.entry, htext] at hreads
  · exact RawEntry.fails hlength hnone

/-- An `a`, a zero character and a supplementary one are spelled as they should be, and a lead at
the end is refused. -/
theorem reads_text_mixed :
    (∀ groups : List Group, [0x61, 0xC0, 0x80, 0xED, 0xA0, 0xBD, 0xED, 0xB8, 0x80] =
      groups.flatMap Group.bytes →
      ∀ group ∈ groups, group.Proper) ∧
    decode? [0x61, 0xC0, 0x80, 0xED, 0xA0, 0xBD, 0xED, 0xB8, 0x80] = some ['a', '\x00', '😀'] ∧
    Fails Reader.constant (RawEntry.bytes (.text [0x61, 0xC3])) .invalidUtf8 := by
  have hwritten : [0x61, 0xC0, 0x80, 0xED, 0xA0, 0xBD, 0xED, 0xB8, 0x80] =
      encode ['a', '\x00', '😀'] := by decide
  have hproper (groups : List Group)
      (h : [0x61, 0xC0, 0x80, 0xED, 0xA0, 0xBD, 0xED, 0xB8, 0x80] = groups.flatMap Group.bytes) :
      ∀ group ∈ groups, group.Proper := proper_of_encode (h.symm.trans hwritten)
  refine ⟨hproper, ?_, ?_⟩
  · exact ((reads_text_iff_spelled _).2.1 hproper _).mpr (.inr hwritten)
  · exact ((reads_text_iff_spelled [0x61, 0xC3]).2.2 (by decide)).2 (by decide)

/-- A parenthesis behind the lead of two bytes is lost in a letter, although neither form of UTF-8
spells anything so. -/
theorem parenthesis_lost_in_letter :
    decode? [0xC3, 0x28] = some ['è'] ∧
    (∀ text, [0xC3, 0x28] ≠ Utf8.encode text ∧ [0xC3, 0x28] ≠ encode text) ∧
    ¬IsContinuation 0x28 := by
  have hread : decode? [0xC3, 0x28] = some ['è'] := by decide
  refine ⟨hread, fun text => ⟨fun h => ?_, fun h => ?_⟩, by decide⟩
  · have hplain : Utf8.decode? [0xC3, 0x28] = none := by decide
    rw [Utf8.decode?_eq_some_iff.mpr h] at hplain
    cases hplain
  · rw [h, decode?_encode] at hread
    cases hread
    exact absurd h (by decide)

end ModifiedUtf8

end JarFacts
