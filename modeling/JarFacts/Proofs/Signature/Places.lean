import JarFacts.Proofs.Bytes.ModifiedUtf8
import JarFacts.Proofs.Signature.Bytewise

/-!
# Places of a text

A `Place` is a boundary between two characters.  Its position counts the bytes in front of it, and
the byte that stands there is the first one of the next character (`Place.getElem?_position`).  Text
is cut at places and nowhere else (`Bytewise.slice?_eq_some_iff`).

The byte of a character of a single byte stands in no other character (`Utf8.mem_encodeChar_iff`),
so it can be looked for in the bytes of a text without regard to where characters begin.
-/

namespace JarFacts

namespace Utf8

/-- The first byte of a character. -/
def lead (c : Char) : UInt8 :=
  (encodeChar c).headD 0

lemma encodeChar_of_lt {c : Char} (hc : c.toNat < 0x80) : encodeChar c = [c.toUInt8] := by
  rw [encodeChar, if_pos hc]
  rfl

lemma le_of_mem_encodeChar {c : Char} (hc : 0x80 ≤ c.toNat) {byte : UInt8}
    (hbyte : byte ∈ encodeChar c) :
    0x80 ≤ byte.toNat := by
  have hlt := toNat_lt_or c
  have hlarge (n : Nat) (hlow : 0x80 ≤ n) (hhigh : n < 256) : 0x80 ≤ (UInt8.ofNat n).toNat := by
    rwa [byte_toNat hhigh]
  rw [encodeChar, if_neg (Nat.not_lt.mpr hc)] at hbyte
  split_ifs at hbyte <;> simp only [List.mem_cons, List.not_mem_nil, or_false] at hbyte
  · obtain rfl | rfl := hbyte <;> exact hlarge _ (by omega) (by omega)
  · obtain rfl | rfl | rfl := hbyte <;> exact hlarge _ (by omega) (by omega)
  · obtain rfl | rfl | rfl | rfl := hbyte <;> exact hlarge _ (by omega) (by omega)

lemma toNat_toUInt8 {c : Char} (hc : c.toNat < 0x80) : c.toUInt8.toNat = c.toNat :=
  Nat.mod_eq_of_lt (by change c.toNat < 256; omega)

/-- The byte of a character of a single byte stands in no other character. -/
lemma mem_encodeChar_iff {c d : Char} (hd : d.toNat < 0x80) : d.toUInt8 ∈ encodeChar c ↔ c = d := by
  constructor
  · intro hmem
    by_cases hc : c.toNat < 0x80
    · rw [encodeChar_of_lt hc, List.mem_singleton] at hmem
      apply Char.toNat_inj.mp
      rw [← toNat_toUInt8 hc, ← hmem, toNat_toUInt8 hd]
    · have hlarge := le_of_mem_encodeChar (Nat.le_of_not_lt hc) hmem
      rw [toNat_toUInt8 hd] at hlarge
      omega
  · rintro rfl
    rw [encodeChar_of_lt hd]
    exact List.mem_singleton.mpr rfl

lemma encodeChar_eq_lead_cons (c : Char) : ∃ tail, encodeChar c = lead c :: tail := by
  obtain ⟨first, tail, heq, -⟩ := encodeChar_eq_cons c
  exact ⟨tail, by rw [lead, heq]; rfl⟩

lemma lead_eq_iff {c d : Char} (hd : d.toNat < 0x80) : lead c = d.toUInt8 ↔ c = d := by
  constructor
  · intro heq
    obtain ⟨tail, htail⟩ := encodeChar_eq_lead_cons c
    exact (mem_encodeChar_iff hd).mp (by rw [htail, heq]; exact List.mem_cons_self)
  · rintro rfl
    rw [lead, encodeChar_of_lt hd]
    rfl

lemma map_lead_eq_some_iff {found : Option Char} {d : Char} (hd : d.toNat < 0x80) :
    found.map lead = some d.toUInt8 ↔ found = some d := by
  cases found with
  | none => simp only [Option.map_none, reduceCtorEq]
  | some c => rw [Option.map_some, Option.some_inj, Option.some_inj, lead_eq_iff hd]

lemma byteLength_cons (c : Char) (rest : List Char) :
    byteLength (c :: rest) = (encodeChar c).length + byteLength rest := by
  rw [byteLength, encode, List.flatMap_cons, List.length_append]
  rfl

lemma length_encodeChar_pos (c : Char) : 0 < (encodeChar c).length := by
  obtain ⟨tail, htail⟩ := encodeChar_eq_lead_cons c
  rw [htail]
  exact Nat.succ_pos _

lemma length_le_byteLength (text : List Char) : text.length ≤ byteLength text := by
  induction text with
  | nil => exact Nat.zero_le _
  | cons c rest ih =>
      have hpos := length_encodeChar_pos c
      rw [byteLength_cons, List.length_cons]
      omega

end Utf8

namespace Signature

lemma baseTypeName?_of_le {c : Char} (hc : 0x80 ≤ c.toNat) : baseTypeName? c = none := by
  unfold baseTypeName?
  split
  case h_9 => rfl
  all_goals exact absurd hc (by decide)

/-- A base type can be told by the first byte. -/
lemma baseTypeName?_lead (c : Char) :
    baseTypeName? (Char.ofNat (Utf8.lead c).toNat) = baseTypeName? c := by
  by_cases hc : c.toNat < 0x80
  · rw [(Utf8.lead_eq_iff hc).mpr rfl, Utf8.toNat_toUInt8 hc, Char.ofNat_toNat]
  · have hwide := Nat.le_of_not_lt hc
    obtain ⟨tail, htail⟩ := Utf8.encodeChar_eq_lead_cons c
    have hlead : 0x80 ≤ (Utf8.lead c).toNat :=
      Utf8.le_of_mem_encodeChar hwide (by rw [htail]; exact List.mem_cons_self)
    have hvalid : (Utf8.lead c).toNat.isValidChar := .inl (by have := (Utf8.lead c).toNat_lt; omega)
    rw [baseTypeName?_of_le hwide, baseTypeName?_of_le (by rwa [toNat_ofNat_of_valid hvalid])]

/-! ## Cutting at boundaries -/

namespace Bytewise

/-- A position splits the text exactly if it is a boundary of characters inside of the text. -/
lemma splitAt?_eq_some_iff {text front back : List Char} {position : Nat} :
    splitAt? text position = some (front, back) ↔ text = front ++ back ∧
    Utf8.byteLength front = position := by
  fun_induction splitAt? text position generalizing front with
  | case1 text =>
      have hlength := Utf8.length_le_byteLength front
      rw [Option.some_inj, Prod.mk.injEq]
      constructor
      · rintro ⟨rfl, rfl⟩
        exact ⟨rfl, rfl⟩
      · rintro ⟨rfl, hzero⟩
        obtain rfl : front = [] := List.eq_nil_of_length_eq_zero (by omega)
        exact ⟨rfl, rfl⟩
  | case2 position =>
      refine iff_of_false (fun h => nomatch h) ?_
      rintro ⟨hnil, hpos⟩
      rw [(List.append_eq_nil_iff.mp hnil.symm).1] at hpos
      cases hpos
  | case3 c rest position hle ih =>
      rw [Option.map_eq_some_iff]
      constructor
      · rintro ⟨⟨front', back'⟩, hsplit, heq⟩
        cases heq
        obtain ⟨rfl, hlength⟩ := ih.mp hsplit
        exact ⟨rfl, by rw [Utf8.byteLength_cons]; omega⟩
      · rintro ⟨htext, hlength⟩
        match front with
        | [] => cases hlength
        | d :: front =>
            rw [List.cons_append, List.cons.injEq] at htext
            obtain ⟨rfl, hrest⟩ := htext
            rw [Utf8.byteLength_cons] at hlength
            exact ⟨(front, back), ih.mpr ⟨hrest, by omega⟩, rfl⟩
  | case4 c rest position hgt =>
      refine iff_of_false (fun h => nomatch h) ?_
      rintro ⟨htext, hlength⟩
      match front with
      | [] => cases hlength
      | d :: front =>
          rw [List.cons_append, List.cons.injEq] at htext
          rw [Utf8.byteLength_cons, ← htext.1] at hlength
          omega

/-- What is cut out is all that stands between the two boundaries. -/
lemma slice?_eq_some_iff {text taken : List Char} {start stop : Nat} :
    slice? text start stop = some taken ↔
      ∃ before rest, text = before ++ taken ++ rest ∧ Utf8.byteLength before = start ∧
        Utf8.byteLength (before ++ taken) = stop := by
  rw [slice?]
  split_ifs with hle
  · constructor
    · intro hslice
      obtain ⟨⟨before, tail⟩, hbefore, hslice⟩ := Option.bind_eq_some_iff.mp hslice
      obtain ⟨⟨taken', rest⟩, htaken, heq⟩ := Option.bind_eq_some_iff.mp hslice
      cases heq
      obtain ⟨rfl, rfl⟩ := splitAt?_eq_some_iff.mp hbefore
      obtain ⟨rfl, hlength⟩ := splitAt?_eq_some_iff.mp htaken
      refine ⟨before, rest, (List.append_assoc ..).symm, rfl, ?_⟩
      rw [Parser.byteLength_append]
      omega
    · rintro ⟨before, rest, rfl, rfl, rfl⟩
      rw [Parser.byteLength_append, Nat.add_sub_cancel_left, List.append_assoc,
        bind_of_eq_some (splitAt?_eq_some_iff.mpr ⟨rfl, rfl⟩)]
      exact bind_of_eq_some (splitAt?_eq_some_iff.mpr ⟨rfl, rfl⟩) _
  · refine iff_of_false (fun h => nomatch h) ?_
    rintro ⟨before, rest, -, rfl, rfl⟩
    rw [Parser.byteLength_append] at hle
    omega

/-- Nothing is cut out of a wide character. -/
example : slice? "Lé;".toList 1 2 = none := by rfl

/-- Bytes are passed up to a stop where characters are. -/
lemma takeWhile_encode {stops : List Char}
    (hstops : (stops.all fun stop => stop.toNat < 0x80) = true) (text : List Char) :
    ((Utf8.encode text).takeWhile fun byte => !(stops.map Char.toUInt8).contains byte) =
      Utf8.encode (text.takeWhile (Parser.inName stops)) := by
  have hsingle : ∀ stop ∈ stops, stop.toNat < 0x80 := fun stop hstop =>
    of_decide_eq_true (List.all_eq_true.mp hstops stop hstop)
  induction text with
  | nil => rfl
  | cons c rest ih =>
      rw [Utf8.encode, List.flatMap_cons]
      by_cases hc : c ∈ stops
      · rw [List.takeWhile_cons_of_neg fun h => Parser.inName_iff.mp h hc,
          Utf8.encodeChar_of_lt (hsingle c hc), List.singleton_append, List.takeWhile_cons_of_neg]
        · rfl
        · simpa using ⟨c, hc, rfl⟩
      · have hpass : ∀ byte ∈ Utf8.encodeChar c,
            (!(stops.map Char.toUInt8).contains byte) = true := by
          intro byte hbyte
          rw [Bool.not_eq_true', ← Bool.not_eq_true, List.contains_iff_mem]
          intro hmem
          obtain ⟨stop, hstop, rfl⟩ := List.mem_map.mp hmem
          exact hc ((Utf8.mem_encodeChar_iff (hsingle stop hstop)).mp hbyte ▸ hstop)
        rw [List.takeWhile_cons_of_pos (Parser.inName_iff.mpr hc),
          List.takeWhile_append_of_pos hpass, ← Utf8.encode, ih, Utf8.encode, Utf8.encode,
          List.flatMap_cons]

end Bytewise

/-! ## Places -/

/-- A fault speaks of what is there: an unexpected byte stands where it was found, and there is text
behind a type where something is said to trail. -/
def Fault.PointsInto (text : List Char) : Fault → Prop
  | .truncated => True
  | .unexpected found position => ∃ h : position < (Utf8.encode text).length,
      (Utf8.encode text)[position] = found
  | .trailing position => position < (Utf8.encode text).length
  | .tooDeep position => position ≤ (Utf8.encode text).length

/-- A boundary between the characters of a text. -/
structure Place (text : List Char) where
  before : List Char
  rest : List Char
  spells : before ++ rest = text

namespace Place

variable {text : List Char}

/-- Where a text starts. -/
def start (text : List Char) : Place text := ⟨[], text, rfl⟩

/-- The place behind some more characters. -/
def pass (place : Place text) (taken tail : List Char) (hrest : place.rest = taken ++ tail) :
    Place text :=
  ⟨place.before ++ taken, tail, by rw [List.append_assoc, ← hrest, place.spells]⟩

/-- The position of the place in the bytes of the text. -/
def position (place : Place text) : Nat := Utf8.byteLength place.before

/-- The place as the reader of characters knows it. -/
def cursor (place : Place text) : Cursor := ⟨place.position, place.rest⟩

/-- The place as the reader of bytes knows it. -/
def mark (place : Place text) (depth : Nat) : Bytewise.Mark := ⟨place.position, depth⟩

lemma position_pass (place : Place text) {taken tail : List Char}
    (hrest : place.rest = taken ++ tail) :
    (place.pass taken tail hrest).position = place.position + Utf8.byteLength taken :=
  Parser.byteLength_append _ _

lemma length_pass_lt (place : Place text) {c : Char} {tail : List Char}
    (hrest : place.rest = [c] ++ tail) :
    (place.pass [c] tail hrest).rest.length < place.rest.length := by
  rw [hrest]
  exact Nat.lt_succ_self _

lemma byteLength_text (place : Place text) :
    Utf8.byteLength text = place.position + Utf8.byteLength place.rest := by
  conv_lhs => rw [← place.spells, Parser.byteLength_append]
  rfl

lemma position_le (place : Place text) : place.position ≤ Utf8.byteLength text := by
  rw [place.byteLength_text]
  exact Nat.le_add_right _ _

/-- Only at the end there are no bytes left. -/
lemma byteLength_le_position_iff (place : Place text) :
    Utf8.byteLength text ≤ place.position ↔ place.rest.isEmpty = true := by
  have hlength := Utf8.length_le_byteLength place.rest
  rw [place.byteLength_text, List.isEmpty_iff]
  constructor
  · exact fun hle => List.eq_nil_of_length_eq_zero (by omega)
  · intro hnil
    rw [hnil]
    exact Nat.le_refl _

lemma drop_position (place : Place text) :
    (Utf8.encode text).drop place.position = Utf8.encode place.rest := by
  rw [← congrArg Utf8.encode place.spells, Utf8.encode, List.flatMap_append]
  exact List.drop_left

/-- At a place there stands the first byte of the next character. -/
lemma getElem?_position (place : Place text) :
    (Utf8.encode text)[place.position]? = place.rest.head?.map Utf8.lead := by
  rw [← Nat.add_zero place.position, ← List.getElem?_drop, place.drop_position]
  match place.rest with
  | [] => rfl
  | c :: tail =>
      obtain ⟨more, hmore⟩ := Utf8.encodeChar_eq_lead_cons c
      rw [Utf8.encode, List.flatMap_cons, hmore]
      rfl

lemma position_lt (place : Place text) {c : Char} {tail : List Char}
    (hrest : place.rest = [c] ++ tail) :
    place.position < Utf8.byteLength text := by
  have hpos := Utf8.length_encodeChar_pos c
  rw [place.byteLength_text, hrest, Parser.byteLength_append, Parser.byteLength_singleton]
  omega

end Place

end Signature

end JarFacts
