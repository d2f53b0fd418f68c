import JarFacts.Proofs.Bytes.ModifiedUtf8

/-!
# Two ways to read a text

Bytes are taken for plain UTF-8 first, and only where they are none are code units put together from
them (`ModifiedUtf8.assemble?`).  The two ways have nothing in common: the one checks each character
by writing it again, the other masks bits and pairs surrogates.  What is prescribed for modified
UTF-8 is read by the second way as the text it was written from, and by the first way too unless
there is a zero character or a supplementary one in it.  What is written in plain UTF-8 is read by
both ways, the second one only if no character takes four bytes.
-/

namespace JarFacts

namespace Utf8

lemma encodeChar_of_readGroup? {group : Bytes} {c : Char} (h : readGroup? group = some c) :
    encodeChar c = group := by
  rw [readGroup?] at h
  split_ifs at h with hgroup
  cases h
  exact hgroup

lemma eq_encode_of_group {group rest : Bytes} {text : List Char}
    (h : (do return (← readGroup? group) :: (← decode? rest)) = some text)
    (hrest : ∀ {tail : List Char}, decode? rest = some tail → rest = encode tail) : group ++ rest =
      encode text := by
  obtain ⟨c, hgroup, h⟩ := Option.bind_eq_some_iff.mp h
  obtain ⟨tail, htail, h⟩ := Option.bind_eq_some_iff.mp h
  cases h
  rw [encode, List.flatMap_cons, encodeChar_of_readGroup? hgroup, ← encode, ← hrest htail]

lemma eq_encode_of_decode? {bytes : Bytes} {text : List Char} (h : decode? bytes = some text) :
    bytes = encode text := by
  fun_induction decode? bytes generalizing text with
  | case1 => cases h; rfl
  | case2 lead rest hwidth ih => exact eq_encode_of_group h ih
  | case3 lead hwidth c rest ih => exact eq_encode_of_group h ih
  | case5 lead hwidth c d rest ih => exact eq_encode_of_group h ih
  | case7 lead c d e rest hone htwo hthree ih => exact eq_encode_of_group h ih
  | case4 | case6 | case8 => cases h

/-- Plain UTF-8 is what is written, and nothing else is read. -/
lemma decode?_eq_some_iff {bytes : Bytes} {text : List Char} :
    decode? bytes = some text ↔ bytes = encode text :=
  ⟨eq_encode_of_decode?, fun h => h ▸ decode?_encode text⟩

lemma length_encodeChar_eq_four_iff (c : Char) : (encodeChar c).length = 4 ↔ 0x10000 ≤ c.toNat := by
  rw [encodeChar]
  split_ifs with hone htwo hthree
  · exact iff_of_false (by simp) (by omega)
  · exact iff_of_false (by simp) (by omega)
  · exact iff_of_false (by simp) (by omega)
  · exact iff_of_true rfl (by omega)

end Utf8

namespace Utf16

/-- Code units are read as a text only if they are those of the text. -/
lemma eq_flatMap_of_decode? {units : List Nat} (hunits : ∀ unit ∈ units, unit < 0x10000)
    {text : List Char} (h : decode? units = some text) : units = text.flatMap encodeChar := by
  fun_induction decode? units generalizing text with
  | case1 => cases h; rfl
  | case2 high hhigh low rest hlow ih =>
      obtain ⟨tail, htail, rfl⟩ := Option.map_eq_some_iff.mp h
      rw [List.forall_mem_cons, List.forall_mem_cons] at hunits
      simp only [isHigh, isLow, Bool.and_eq_true, decide_eq_true_eq] at hhigh hlow
      have hvalid : (0x10000 + (high - 0xD800) * 0x400 + (low - 0xDC00)).isValidChar := by
        rw [Nat.isValidChar]
        omega
      have hchar := toNat_ofNat_of_valid hvalid
      have hhighBack :
          0xD800 + (0x10000 + (high - 0xD800) * 0x400 + (low - 0xDC00) - 0x10000) / 0x400 =
          high := by omega
      have hlowBack :
          0xDC00 + (0x10000 + (high - 0xD800) * 0x400 + (low - 0xDC00) - 0x10000) % 0x400 =
          low := by omega
      rw [List.flatMap_cons, ← ih hunits.2.2 htail, encodeChar, hchar, if_neg (by omega),
        hhighBack, hlowBack]
      rfl
  | case6 unit rest hhigh hlow ih =>
      obtain ⟨tail, htail, rfl⟩ := Option.map_eq_some_iff.mp h
      rw [List.forall_mem_cons] at hunits
      simp only [isHigh, isLow, Bool.and_eq_true, decide_eq_true_eq] at hhigh hlow
      have hvalid : unit.isValidChar := by
        rw [Nat.isValidChar]
        omega
      have hchar := toNat_ofNat_of_valid hvalid
      rw [List.flatMap_cons, ← ih hunits.2 htail, encodeChar, hchar, if_pos hunits.1]
      rfl
  | case3 | case4 | case5 => cases h

end Utf16

namespace ModifiedUtf8

/-- The text put together from code units. -/
def assemble? (bytes : Bytes) : Option (List Char) :=
  (units? bytes).bind Utf16.decode?

lemma decode?_eq_or (bytes : Bytes) :
    decode? bytes = (Utf8.decode? bytes).or (assemble? bytes) := by
  rw [decode?]
  cases Utf8.decode? bytes <;> rfl

/-- A text is read if each of its characters is. -/
lemma if_all_cons (p : Char → Bool) (c : Char) (rest : List Char) :
    (if (c :: rest).all p then some (c :: rest) else none) =
      if p c then (if rest.all p then some rest else none).map (c :: ·) else none := by
  rw [List.all_cons]
  cases p c with
  | false => rfl
  | true =>
      rw [Bool.true_and, if_pos rfl]
      split_ifs <;> rfl

/-! ## What is prescribed, in both ways -/

lemma encode_cons (c : Char) (rest : List Char) :
    encode (c :: rest) = (Utf16.encodeChar c).flatMap encodeUnit ++ encode rest :=
  List.flatMap_cons

lemma assemble?_encode (text : List Char) : assemble? (encode text) = some text := by
  rw [assemble?, encode_eq_encodeUnits, units?_encodeUnits (Utf16.flatMap_encodeChar_lt text)]
  exact Utf16.decode?_encode text

/-- The zero character and the supplementary ones are spelled in a way that is not plain UTF-8. -/
lemma utf8_decode?_encode_cons_of_not {c : Char} (hc : ¬(c.toNat ≠ 0 ∧ c.toNat < 0x10000))
    (rest : List Char) :
    Utf8.decode? (encode (c :: rest)) = none := by
  rw [encode_cons, Utf16.encodeChar]
  split_ifs with hbasic
  · have hzero : c.toNat = 0 := by
      by_contra hzero
      exact hc ⟨hzero, hbasic⟩
    rw [hzero, List.flatMap_singleton]
    exact (Utf8.decode?_group rfl (encode rest)).trans rfl
  · have hchar := toNat_lt_or c
    rw [List.flatMap_cons, List.append_assoc]
    exact utf8_decode?_surrogate (by omega) (by omega) _

lemma utf8_decode?_encode (text : List Char) :
    Utf8.decode? (encode text) = if text.all fun c => c.toNat ≠ 0 ∧ c.toNat < 0x10000 then some text
      else none := by
  induction text with
  | nil => rfl
  | cons c rest ih =>
      rw [if_all_cons, ← ih]
      simp only [decide_eq_true_eq]
      split_ifs with hc
      · rw [encode_cons, encodeUnit_eq hc.1 hc.2, Utf8.decode?_encodeChar_append]
      · exact utf8_decode?_encode_cons_of_not hc rest

/-! ## Plain UTF-8, put together from code units -/

/-- A character of up to three bytes is one code unit. -/
lemma units?_utf8_encodeChar_append {c : Char} (hbasic : c.toNat < 0x10000) (rest : Bytes) :
    units? (Utf8.encodeChar c ++ rest) = (units? rest).map (c.toNat :: ·) := by
  by_cases hzero : c.toNat = 0
  · have hbytes : Utf8.encodeChar c = [0] := by
      rw [Utf8.encodeChar]
      simp only [hzero]
      rfl
    rw [hbytes, hzero, List.singleton_append, units?_one (by decide)]
    rfl
  · have hchar : Utf16.encodeChar c = [c.toNat] := if_pos hbasic
    rw [← encodeUnit_eq hzero hbasic, hchar, List.flatMap_singleton]
    exact units?_encodeUnit_append hbasic rest

lemma assemble?_encodeChar_append {c : Char} (hbasic : c.toNat < 0x10000) (rest : Bytes) :
    assemble? (Utf8.encodeChar c ++ rest) = (assemble? rest).map (c :: ·) := by
  have hchar : Utf16.encodeChar c = [c.toNat] := if_pos hbasic
  rw [assemble?, assemble?, units?_utf8_encodeChar_append hbasic]
  cases units? rest with
  | none => rfl
  | some units =>
      have hunits := Utf16.decode?_encodeChar_append c units
      rwa [hchar] at hunits

/-- The lead byte of four leads no code unit. -/
lemma assemble?_encodeChar_append_of_le {c : Char} (hlarge : 0x10000 ≤ c.toNat) (rest : Bytes) :
    assemble? (Utf8.encodeChar c ++ rest) = none := by
  have hchar := toNat_lt_or c
  have hlead : (UInt8.ofNat (0xF0 + c.toNat / 262144)).toNat = 0xF0 + c.toNat / 262144 :=
    byte_toNat (by omega)
  have hfour : 0xF0 ≤ UInt8.ofNat (0xF0 + c.toNat / 262144) := by
    rw [UInt8.le_iff_toNat_le, hlead]
    exact Nat.le_add_right _ _
  rw [Utf8.encodeChar]
  simp only [show ¬c.toNat < 0x80 by omega, show ¬c.toNat < 0x800 by omega,
    show ¬c.toNat < 0x10000 by omega, if_false]
  rw [assemble?, List.cons_append, units?_of_le hfour, Option.bind_none]

lemma assemble?_utf8_encode (text : List Char) :
    assemble? (Utf8.encode text) = if text.all fun c => (Utf8.encodeChar c).length ≠ 4
      then some text else none := by
  induction text with
  | nil => rfl
  | cons c rest ih =>
      rw [if_all_cons, ← ih, Utf8.encode, List.flatMap_cons]
      simp only [decide_eq_true_eq]
      split_ifs with hc
      · have hbasic : c.toNat < 0x10000 :=
          Nat.not_le.mp (mt (Utf8.length_encodeChar_eq_four_iff c).mpr hc)
        exact assemble?_encodeChar_append hbasic _
      · have hlarge := (Utf8.length_encodeChar_eq_four_iff c).mp (not_not.mp hc)
        exact assemble?_encodeChar_append_of_le hlarge _

/-- **A text is read back from its modified UTF-8, in whichever way.**  Bytes that are not plain
UTF-8 are left to code units.  Plain UTF-8 takes the bytes of a text only if there is neither a zero
character nor a supplementary one in it, and gives the text then; code units give the text always.
The bytes that are plain UTF-8 of a text are the same text in code units, as long as no character
takes four of them. -/
theorem encode_read_either_way (text : List Char) :
    decode? (encode text) = some text ∧
      (∀ bytes, decode? bytes = (Utf8.decode? bytes).or (assemble? bytes)) ∧
      Utf8.decode? (encode text) =
        (if text.all fun c => c.toNat ≠ 0 ∧ c.toNat < 0x10000 then some text else none) ∧
      assemble? (encode text) = some text ∧
      (∀ bytes, Utf8.decode? bytes = some text ↔ bytes = Utf8.encode text) ∧
      assemble? (Utf8.encode text) =
        (if text.all fun c => (Utf8.encodeChar c).length ≠ 4 then some text else none) :=
  ⟨decode?_encode text, decode?_eq_or, utf8_decode?_encode text, assemble?_encode text,
    fun _ => Utf8.decode?_eq_some_iff, assemble?_utf8_encode text⟩

end ModifiedUtf8

end JarFacts
