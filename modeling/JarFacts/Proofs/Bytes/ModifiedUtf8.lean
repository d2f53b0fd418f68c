import Mathlib.Tactic.Common
import JarFacts.Bytes.ModifiedUtf8

/-!
# Reading modified UTF-8 undoes writing it

The bytes of a text in modified UTF-8 are read as that text, whichever of the two ways of reading
takes them.  More generally this holds of the bytes of code units in any arrangement, where
surrogates that do not form pairs spell no text.  Read as plain UTF-8 the bytes give the text or
nothing at all (`ModifiedUtf8.utf8_decode?_encodeUnits`): a code unit that is not spelled as in
plain UTF-8, zero or a surrogate, stops that reading for good.  Read as code units they always give
the code units (`ModifiedUtf8.units?_encodeUnits`).
-/

namespace JarFacts

lemma toNat_lt_or (c : Char) : c.toNat < 0xD800 ∨ 0xDFFF < c.toNat ∧ c.toNat < 0x110000 :=
  c.valid

lemma toNat_ofNat_of_valid {n : Nat} (h : n.isValidChar) : (Char.ofNat n).toNat = n := by
  rw [Char.ofNat, dif_pos h]
  rfl

lemma byte_toNat {n : Nat} (h : n < 256) : (UInt8.ofNat n).toNat = n :=
  UInt8.toNat_ofNat_of_lt' h

/-! ## Plain UTF-8 -/

namespace Utf8

lemma width_eq (lead : UInt8) :
    width lead =
      if lead.toNat < 0x80 then 1 else if lead.toNat < 0xE0 then 2
      else if lead.toNat < 0xF0 then 3 else 4 := by
  simp only [width, UInt8.lt_iff_toNat_lt]
  rfl

lemma width_le (lead : UInt8) : width lead ≤ 4 := by
  rw [width_eq]
  split_ifs <;> omega

/-- A lead byte takes as many bytes with it as its width says. -/
lemma decode?_group {lead : UInt8} {tail : Bytes} (htail : tail.length + 1 = width lead)
    (rest : Bytes) :
    decode? (lead :: tail ++ rest) =
      do return (← readGroup? (lead :: tail)) :: (← decode? rest) := by
  have hwidth := width_le lead
  match tail with
  | [] =>
      rw [List.singleton_append, decode?.eq_def]
      simp only [← htail]
      rfl
  | [b] =>
      rw [List.cons_append, List.singleton_append, decode?.eq_def]
      simp only [← htail]
      rfl
  | [b, c] =>
      rw [List.cons_append, List.cons_append, List.singleton_append, decode?.eq_def]
      simp only [← htail]
      rfl
  | [b, c, d] =>
      rw [List.cons_append, List.cons_append, List.cons_append,
        List.singleton_append, decode?.eq_def]
      simp only [← htail]
      rfl
  | _ :: _ :: _ :: _ :: _ =>
      simp only [List.length_cons] at htail
      omega

/-- Three bytes carry any value of sixteen bits, also one that is no character. -/
lemma three_bytes {v : Nat} (hv : v < 0x10000) :
    width (UInt8.ofNat (0xE0 + v / 4096)) = 3 ∧
      payload
        [UInt8.ofNat (0xE0 + v / 4096), UInt8.ofNat (0x80 + v / 64 % 64),
          UInt8.ofNat (0x80 + v % 64)] = v := by
  have hlead : (UInt8.ofNat (0xE0 + v / 4096)).toNat = 0xE0 + v / 4096 := byte_toNat (by omega)
  have hmid : (UInt8.ofNat (0x80 + v / 64 % 64)).toNat = 0x80 + v / 64 % 64 := byte_toNat (by omega)
  have htail : (UInt8.ofNat (0x80 + v % 64)).toNat = 0x80 + v % 64 := byte_toNat (by omega)
  have hwidth : width (UInt8.ofNat (0xE0 + v / 4096)) = 3 := by
    rw [width_eq, hlead, if_neg (by omega), if_neg (by omega), if_pos (by omega)]
  refine ⟨hwidth, ?_⟩
  simp only [payload, hwidth, hlead, hmid, htail, List.foldl_cons, List.foldl_nil]
  change ((0xE0 + v / 4096) % 16 * 64 + (0x80 + v / 64 % 64) % 64) * 64 + (0x80 + v % 64) % 64 = v
  omega

/-- The bytes of a character: their number can be told from the first, and their low bits carry the
character. -/
lemma encodeChar_eq_cons (c : Char) :
    ∃ lead tail, encodeChar c = lead :: tail ∧ tail.length + 1 = width lead ∧
      payload (lead :: tail) = c.toNat := by
  have hc := toNat_lt_or c
  unfold encodeChar
  dsimp only
  split_ifs with h1 h2 h3
  · have hlead : (UInt8.ofNat c.toNat).toNat = c.toNat := byte_toNat (by omega)
    have hwidth : width (UInt8.ofNat c.toNat) = 1 := by rw [width_eq, hlead, if_pos h1]
    exact ⟨_, _, rfl, hwidth.symm, by simp only [payload, hwidth, hlead, List.foldl_nil]⟩
  · have hlead : (UInt8.ofNat (0xC0 + c.toNat / 64)).toNat = 0xC0 + c.toNat / 64 :=
      byte_toNat (by omega)
    have htail : (UInt8.ofNat (0x80 + c.toNat % 64)).toNat = 0x80 + c.toNat % 64 :=
      byte_toNat (by omega)
    have hwidth : width (UInt8.ofNat (0xC0 + c.toNat / 64)) = 2 := by
      rw [width_eq, hlead, if_neg (by omega), if_pos (by omega)]
    refine ⟨_, _, rfl, hwidth.symm, ?_⟩
    simp only [payload, hwidth, hlead, htail, List.foldl_cons, List.foldl_nil]
    change (0xC0 + c.toNat / 64) % 32 * 64 + (0x80 + c.toNat % 64) % 64 = c.toNat
    omega
  · obtain ⟨hwidth, hpayload⟩ := three_bytes h3
    exact ⟨_, _, rfl, hwidth.symm, hpayload⟩
  · have hlead : (UInt8.ofNat (0xF0 + c.toNat / 262144)).toNat = 0xF0 + c.toNat / 262144 :=
      byte_toNat (by omega)
    have hmid : (UInt8.ofNat (0x80 + c.toNat / 4096 % 64)).toNat = 0x80 + c.toNat / 4096 % 64 :=
      byte_toNat (by omega)
    have hmid' : (UInt8.ofNat (0x80 + c.toNat / 64 % 64)).toNat = 0x80 + c.toNat / 64 % 64 :=
      byte_toNat (by omega)
    have htail : (UInt8.ofNat (0x80 + c.toNat % 64)).toNat = 0x80 + c.toNat % 64 :=
      byte_toNat (by omega)
    have hwidth : width (UInt8.ofNat (0xF0 + c.toNat / 262144)) = 4 := by
      rw [width_eq, hlead, if_neg (by omega), if_neg (by omega), if_neg (by omega)]
    refine ⟨_, _, rfl, hwidth.symm, ?_⟩
    simp only [payload, hwidth, hlead, hmid, hmid', htail, List.foldl_cons, List.foldl_nil]
    change (((0xF0 + c.toNat / 262144) % 8 * 64 + (0x80 + c.toNat / 4096 % 64) % 64) * 64 +
      (0x80 + c.toNat / 64 % 64) % 64) * 64 + (0x80 + c.toNat % 64) % 64 = c.toNat
    omega

/-- The bytes of a character are read as the character, whatever follows. -/
lemma decode?_encodeChar_append (c : Char) (rest : Bytes) :
    decode? (encodeChar c ++ rest) = (decode? rest).map (c :: ·) := by
  obtain ⟨lead, tail, heq, hwidth, hpayload⟩ := encodeChar_eq_cons c
  have hgroup : readGroup? (lead :: tail) = some c := by
    rw [readGroup?, hpayload, Char.ofNat_toNat]
    exact if_pos heq
  rw [heq, decode?_group hwidth, hgroup]
  cases decode? rest <;> rfl

lemma decode?_encode (text : List Char) : decode? (encode text) = some text := by
  induction text with
  | nil => rfl
  | cons c text ih =>
      have hcons : encode (c :: text) = encodeChar c ++ encode text := rfl
      rw [hcons, decode?_encodeChar_append, ih]
      rfl

end Utf8

/-! ## Code units -/

namespace Utf16

lemma encodeChar_lt (c : Char) : ∀ unit ∈ encodeChar c, unit < 0x10000 := by
  have hc := toNat_lt_or c
  unfold encodeChar
  dsimp only
  split_ifs with hbasic
  · simpa using hbasic
  · simp only [List.mem_cons, List.not_mem_nil, or_false, forall_eq_or_imp, forall_eq]
    omega

lemma flatMap_encodeChar_lt (text : List Char) :
    ∀ unit ∈ text.flatMap encodeChar, unit < 0x10000 := by
  intro unit hunit
  obtain ⟨c, -, hmem⟩ := List.mem_flatMap.mp hunit
  exact encodeChar_lt c unit hmem

/-- The code units of a character are read as the character, whatever follows. -/
lemma decode?_encodeChar_append (c : Char) (rest : List Nat) :
    decode? (encodeChar c ++ rest) = (decode? rest).map (c :: ·) := by
  have hc := toNat_lt_or c
  unfold encodeChar
  dsimp only
  split_ifs with hbasic
  · have hhigh : isHigh c.toNat = false := by
      simp only [isHigh, Bool.and_eq_false_iff, decide_eq_false_iff_not]
      omega
    have hlow : isLow c.toNat = false := by
      simp only [isLow, Bool.and_eq_false_iff, decide_eq_false_iff_not]
      omega
    rw [List.singleton_append, decode?.eq_def]
    simp only [hhigh, hlow, Char.ofNat_toNat]
    rfl
  · set high := 0xD800 + (c.toNat - 0x10000) / 0x400 with hhighDef
    set low := 0xDC00 + (c.toNat - 0x10000) % 0x400 with hlowDef
    have hhigh : isHigh high = true := by
      simp only [isHigh, Bool.and_eq_true, decide_eq_true_eq]; omega
    have hlow : isLow low = true := by simp only [isLow, Bool.and_eq_true, decide_eq_true_eq]; omega
    have hvalue : 0x10000 + (high - 0xD800) * 0x400 + (low - 0xDC00) = c.toNat := by omega
    simp only [List.cons_append, List.nil_append, decode?, hhigh, hlow, hvalue, Char.ofNat_toNat]
    rfl

lemma decode?_encode (text : List Char) : decode? (text.flatMap encodeChar) = some text := by
  induction text with
  | nil => rfl
  | cons c rest ih => rw [List.flatMap_cons, decode?_encodeChar_append, ih]; rfl

end Utf16

namespace ModifiedUtf8

/-! The lead byte alone says how many bytes go into the next code unit. -/

lemma units?_one {lead : UInt8} (hlead : lead < 0x80) (rest : Bytes) :
    units? (lead :: rest) = (units? rest).map (lead.toNat :: ·) := by
  rw [units?.eq_def]
  simp only [hlead, if_true]

lemma units?_two {lead : UInt8} (hlead : 0xC0 ≤ lead ∧ lead < 0xE0) (tail : UInt8) (rest : Bytes) :
    units? (lead :: tail :: rest) =
      (units? rest).map ((lead.toNat % 32 * 64 + tail.toNat % 64) :: ·) := by
  have hone : ¬lead < 0x80 := UInt8.not_lt.mpr (UInt8.le_trans (by decide) hlead.1)
  rw [units?.eq_def]
  simp only [hone, hlead, if_false, and_self, if_true]

lemma units?_three {lead : UInt8} (hlead : 0xE0 ≤ lead ∧ lead < 0xF0) (mid tail : UInt8)
    (rest : Bytes) :
    units? (lead :: mid :: tail :: rest) =
      (units? rest).map
        ((lead.toNat % 16 * 4096 + mid.toNat % 64 * 64 + tail.toNat % 64) :: ·) := by
  have hone : ¬lead < 0x80 := UInt8.not_lt.mpr (UInt8.le_trans (by decide) hlead.1)
  have htwo : ¬lead < 0xE0 := UInt8.not_lt.mpr hlead.1
  rw [units?.eq_def]
  simp only [hone, htwo, hlead, and_false, if_false, and_self, if_true]

lemma units?_of_le {lead : UInt8} (hlead : 0xF0 ≤ lead) (rest : Bytes) :
    units? (lead :: rest) = none := by
  have hone : ¬lead < 0x80 := UInt8.not_lt.mpr (UInt8.le_trans (by decide) hlead)
  have htwo : ¬lead < 0xE0 := UInt8.not_lt.mpr (UInt8.le_trans (by decide) hlead)
  have hthree : ¬lead < 0xF0 := UInt8.not_lt.mpr hlead
  rw [units?.eq_def]
  simp only [hone, htwo, hthree, and_false, if_false]

/-- The bytes of a code unit are read as the code unit, whatever follows. -/
lemma units?_encodeUnit_append {unit : Nat} (hunit : unit < 0x10000) (rest : Bytes) :
    units? (encodeUnit unit ++ rest) = (units? rest).map (unit :: ·) := by
  unfold encodeUnit
  split_ifs with h1 h2
  · have hbyte : (UInt8.ofNat unit).toNat = unit := byte_toNat (by omega)
    have hlead : UInt8.ofNat unit < 0x80 := by rw [UInt8.lt_iff_toNat_lt, hbyte]; exact h1.2
    rw [List.singleton_append, units?_one hlead, hbyte]
  · have hbyte : (UInt8.ofNat (0xC0 + unit / 64)).toNat = 0xC0 + unit / 64 := byte_toNat (by omega)
    have htail : (UInt8.ofNat (0x80 + unit % 64)).toNat = 0x80 + unit % 64 := byte_toNat (by omega)
    have hlead : 0xC0 ≤ UInt8.ofNat (0xC0 + unit / 64) ∧ UInt8.ofNat (0xC0 + unit / 64) < 0xE0 := by
      rw [UInt8.le_iff_toNat_le, UInt8.lt_iff_toNat_lt, hbyte]
      simp only [UInt8.reduceToNat]
      omega
    have hvalue : (0xC0 + unit / 64) % 32 * 64 + (0x80 + unit % 64) % 64 = unit := by omega
    rw [List.cons_append, List.singleton_append, units?_two hlead, hbyte, htail, hvalue]
  · have hbyte : (UInt8.ofNat (0xE0 + unit / 4096)).toNat = 0xE0 + unit / 4096 :=
      byte_toNat (by omega)
    have hmid : (UInt8.ofNat (0x80 + unit / 64 % 64)).toNat = 0x80 + unit / 64 % 64 :=
      byte_toNat (by omega)
    have htail : (UInt8.ofNat (0x80 + unit % 64)).toNat = 0x80 + unit % 64 := byte_toNat (by omega)
    have hlead : 0xE0 ≤ UInt8.ofNat (0xE0 + unit / 4096) ∧
        UInt8.ofNat (0xE0 + unit / 4096) < 0xF0 := by
      rw [UInt8.le_iff_toNat_le, UInt8.lt_iff_toNat_lt, hbyte]
      simp only [UInt8.reduceToNat]
      omega
    have hvalue : (0xE0 + unit / 4096) % 16 * 4096 + (0x80 + unit / 64 % 64) % 64 * 64 +
        (0x80 + unit % 64) % 64 =
        unit := by omega
    rw [List.cons_append, List.cons_append, List.singleton_append, units?_three hlead, hbyte,
      hmid, htail, hvalue]

/-- Code units spelled one behind the other, in any arrangement. -/
def encodeUnits (units : List Nat) : Bytes :=
  units.flatMap encodeUnit

lemma encode_eq_encodeUnits (text : List Char) :
    encode text = encodeUnits (text.flatMap Utf16.encodeChar) :=
  List.flatMap_assoc.symm

lemma units?_encodeUnits {units : List Nat} (hunits : ∀ unit ∈ units, unit < 0x10000) :
    units? (encodeUnits units) = some units := by
  induction units with
  | nil => rfl
  | cons unit rest ih =>
      obtain ⟨hunit, hrest⟩ := List.forall_mem_cons.mp hunits
      rw [encodeUnits, List.flatMap_cons, units?_encodeUnit_append hunit, ← encodeUnits, ih hrest]
      rfl

/-- A character of which this is the whole spelling in plain UTF-8 too. -/
lemma encodeUnit_eq {c : Char} (hzero : c.toNat ≠ 0) (hbasic : c.toNat < 0x10000) :
    (Utf16.encodeChar c).flatMap encodeUnit = Utf8.encodeChar c := by
  rw [Utf16.encodeChar, if_pos hbasic, List.flatMap_singleton, encodeUnit, Utf8.encodeChar]
  simp only [hzero, hbasic, ne_eq, not_false_eq_true, true_and, if_true]

/-- A surrogate is nothing in plain UTF-8. -/
lemma utf8_decode?_surrogate {unit : Nat} (hlow : 0xD800 ≤ unit) (hhigh : unit < 0xE000)
    (rest : Bytes) :
    Utf8.decode? (encodeUnit unit ++ rest) = none := by
  obtain ⟨hwidth, hpayload⟩ := Utf8.three_bytes (show unit < 0x10000 by omega)
  have hchar : Char.ofNat unit = Char.ofNat 0 := by
    rw [Char.ofNat, dif_neg (by rw [Nat.isValidChar]; omega)]
    rfl
  have hgroup :
      Utf8.readGroup? [UInt8.ofNat (0xE0 + unit / 4096), UInt8.ofNat (0x80 + unit / 64 % 64),
      UInt8.ofNat (0x80 + unit % 64)] = none := by
    -- What is left is the zero character, and that takes one byte.
    rw [Utf8.readGroup?, hpayload, hchar]
    refine if_neg fun h => ?_
    have hlength : 1 = 3 := congrArg List.length h
    omega
  rw [encodeUnit, if_neg (by omega), if_neg (by omega)]
  refine (Utf8.decode?_group (by rw [hwidth]; rfl) rest).trans ?_
  rw [hgroup]
  rfl

/-- A code unit that is no surrogate is a character of its own. -/
lemma exists_encodeChar_eq {unit : Nat} (hunit : unit < 0x10000)
    (hsurrogate : ¬(0xD800 ≤ unit ∧ unit < 0xE000)) :
    ∃ c : Char, c.toNat = unit ∧ Utf16.encodeChar c = [unit] := by
  have hvalid : unit.isValidChar := by rw [Nat.isValidChar]; omega
  have htoNat : (Char.ofNat unit).toNat = unit := toNat_ofNat_of_valid hvalid
  exact ⟨Char.ofNat unit, htoNat, by rw [Utf16.encodeChar, htoNat, if_pos hunit]⟩

/-- Taken for plain UTF-8, the bytes of code units give the text of the code units if they give
any. -/
lemma utf8_decode?_encodeUnits {units : List Nat} (hunits : ∀ unit ∈ units, unit < 0x10000)
    {text : List Char}
    (h : Utf8.decode? (encodeUnits units) = some text) : Utf16.decode? units = some text := by
  induction units generalizing text with
  | nil => exact h
  | cons unit rest ih =>
      obtain ⟨hunit, hrest⟩ := List.forall_mem_cons.mp hunits
      rw [encodeUnits, List.flatMap_cons, ← encodeUnits] at h
      by_cases hsurrogate : 0xD800 ≤ unit ∧ unit < 0xE000
      · rw [utf8_decode?_surrogate hsurrogate.1 hsurrogate.2] at h
        cases h
      · by_cases hzero : unit = 0
        · have hnone : Utf8.decode? (0xC0 :: [0x80] ++ encodeUnits rest) = none := by
            rw [Utf8.decode?_group rfl]
            rfl
          rw [hzero] at h
          cases hnone.symm.trans h
        · obtain ⟨c, hc, hchar⟩ := exists_encodeChar_eq hunit hsurrogate
          have hspelled : encodeUnit unit = Utf8.encodeChar c := by
            rw [← encodeUnit_eq (hc ▸ hzero) (hc ▸ hunit), hchar, List.flatMap_singleton]
          rw [hspelled, Utf8.decode?_encodeChar_append] at h
          obtain ⟨restText, hplain, rfl⟩ := Option.map_eq_some_iff.mp h
          have happend := Utf16.decode?_encodeChar_append c rest
          rw [hchar, List.singleton_append] at happend
          rw [happend, ih hrest hplain]
          rfl

/-- **The bytes of code units spell the text of the code units**, and spell none if a surrogate
stands alone. -/
lemma decode?_encodeUnits {units : List Nat} (hunits : ∀ unit ∈ units, unit < 0x10000) :
    decode? (encodeUnits units) = Utf16.decode? units := by
  rw [decode?]
  cases hplain : Utf8.decode? (encodeUnits units) with
  | some text => exact (utf8_decode?_encodeUnits hunits hplain).symm
  | none =>
      dsimp only
      rw [units?_encodeUnits hunits]
      rfl

/-- **Reading modified UTF-8 undoes writing it.** -/
lemma decode?_encode (text : List Char) : decode? (encode text) = some text := by
  rw [encode_eq_encodeUnits, decode?_encodeUnits (Utf16.flatMap_encodeChar_lt text),
    Utf16.decode?_encode]

end ModifiedUtf8

end JarFacts
