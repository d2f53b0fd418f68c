import Mathlib.Data.List.Induction
import JarFacts.Proofs.ClassFile.Reading

/-!
# What a reader accepts

`Reads` says what a reader makes of given bytes.  `Consumes` goes the other way: on every input on
which the reader has a value, it has taken bytes off the front of the input, and these bytes and the
value are as stated.  Where the bytes are those of some item and the value is what the item stands
for, the statement has the form `SpelledBy`.

The rule for a sequence carries the statement about the whole through its parts: what is left to
show of the second part is the statement with the bytes of the first in front.
-/

namespace JarFacts

namespace Bytes

lemma bigEndian_concat (bytes : Bytes) (byte : UInt8) :
    bigEndian (bytes ++ [byte]) = bigEndian bytes * 256 + byte.toNat := by
  rw [bigEndian, List.foldl_append]
  rfl

lemma bigEndian_lt (bytes : Bytes) : bigEndian bytes < 256 ^ bytes.length := by
  induction bytes using List.reverseRecOn with
  | nil => exact Nat.one_pos
  | append_singleton bytes byte ih =>
      have hbyte : byte.toNat < 256 := byte.toNat_lt
      rw [bigEndian_concat, List.length_append, List.length_singleton, Nat.pow_succ]
      omega

/-- Bytes are spelled by the number they stand for. -/
lemma ofNumber_bigEndian (bytes : Bytes) : ofNumber bytes.length (bigEndian bytes) = bytes := by
  induction bytes using List.reverseRecOn with
  | nil => rfl
  | append_singleton bytes byte ih =>
      have hbyte : byte.toNat < 256 := byte.toNat_lt
      have hhigh : (bigEndian bytes * 256 + byte.toNat) / 256 = bigEndian bytes := by omega
      have hlow : UInt8.ofNat (bigEndian bytes * 256 + byte.toNat) = byte := by
        apply UInt8.toNat_inj.mp
        rw [UInt8.toNat_ofNat']
        omega
      rw [List.length_append, List.length_singleton, bigEndian_concat, ofNumber, hhigh, hlow, ih]

/-- Bytes of the width of several items are those of so many items. -/
lemma exists_flatMap_eq {ι : Type} {spelled : ι → Bytes} {width : Nat}
    (hspelled : ∀ bytes : Bytes, bytes.length = width → ∃ x, bytes = spelled x) (count : Nat)
    {bytes : Bytes} (hlength : bytes.length = width * count) :
    ∃ items : List ι, items.length = count ∧ bytes = items.flatMap spelled := by
  induction count generalizing bytes with
  | zero => exact ⟨[], rfl, List.length_eq_zero_iff.mp hlength⟩
  | succ count ih =>
      rw [Nat.mul_succ] at hlength
      obtain ⟨x, hx⟩ := hspelled (bytes.take width) (by rw [List.length_take]; omega)
      obtain ⟨items, hcount, hitems⟩ := @ih (bytes.drop width) (by rw [List.length_drop]; omega)
      refine ⟨x :: items, by rw [List.length_cons, hcount], ?_⟩
      rw [List.flatMap_cons, ← hx, ← hitems, List.take_append_drop]

end Bytes

namespace ClassFile

variable {α β ι : Type}

/-- Wherever the reader has a value, it has taken bytes off the front of its input, and these bytes
and the value are as stated. -/
def Consumes (reader : Reader α) (spec : Bytes → α → Prop) : Prop :=
  ∀ input value input', reader.run.run input = (.ok value, input') →
    ∃ bytes, input.bytes = bytes ++ input'.bytes ∧ spec bytes value

/-- The bytes are those of a legal item, and the value is what the item stands for. -/
def SpelledBy (legal : ι → Prop) (spelled : ι → Bytes) (value : ι → α) (bytes : Bytes) (found : α) :
    Prop :=
  ∃ x, legal x ∧ bytes = spelled x ∧ found = value x

namespace Consumes

variable {spec spec' : Bytes → α → Prop}

lemma mono {reader : Reader α} (h : Consumes reader spec)
    (hspec : ∀ bytes value, spec bytes value → spec' bytes value) : Consumes reader spec' := by
  intro input value input' hrun
  obtain ⟨bytes, hbytes, hvalue⟩ := h input value input' hrun
  exact ⟨bytes, hbytes, hspec bytes value hvalue⟩

lemma pure {value : α} (h : spec [] value) : Consumes (pure value) spec := by
  intro input value' input' hrun
  cases hrun
  exact ⟨[], rfl, h⟩

lemma throw (error : ClassFileError) : Consumes (throw error : Reader α) spec := by
  intro input value input' hrun
  cases hrun

lemma throw_bind (error : ClassFileError) (next : β → Reader α) :
    Consumes ((MonadExcept.throw error : Reader β) >>= next) spec := by
  intro input value input' hrun
  cases hrun

/-- What comes second is asked to extend the bytes of what comes first to something as stated. -/
lemma bind {reader : Reader α} {next : α → Reader β} {whole : Bytes → β → Prop}
    (hreader : Consumes reader spec) (hnext : ∀ value front, spec front value →
      Consumes (next value) fun bytes result => whole (front ++ bytes) result) :
    Consumes (reader >>= next) whole := by
  intro input result input' hrun
  have hok : ((reader >>= next).run.run input).1 = .ok result := by rw [hrun]
  obtain ⟨value, middle, hfirst, hsecond⟩ := run_bind_of_ok hok
  rw [hrun] at hsecond
  obtain ⟨front, hfront, hvalue⟩ := hreader input value middle hfirst
  obtain ⟨bytes, hbytes, hresult⟩ := hnext value front hvalue middle result input' hsecond.symm
  exact ⟨front ++ bytes, by rw [hfront, hbytes, List.append_assoc], hresult⟩

/-- The last step only makes up the value. -/
lemma map {reader : Reader α} {f : α → β} {whole : Bytes → β → Prop}
    (hreader : Consumes reader spec)
    (hmap : ∀ value bytes, spec bytes value → whole bytes (f value)) :
    Consumes (reader >>= fun found => Pure.pure (f found)) whole := by
  refine hreader.bind fun value front hvalue => .pure ?_
  rw [List.append_nil]
  exact hmap value front hvalue

lemma discard {reader : Reader α} (h : Consumes reader spec) :
    Consumes (Functor.discard reader) fun bytes _ => ∃ value, spec bytes value := by
  rw [discard_eq_bind]
  exact h.map fun value bytes hvalue => ⟨value, hvalue⟩

/-! ### Primitive readers -/

lemma take (count : Nat) :
    Consumes (Reader.take count) fun bytes value => value = bytes ∧ bytes.length = count := by
  intro input value input' hrun
  simp only [Reader.take, run_get_bind] at hrun
  split_ifs at hrun with hshort
  · cases hrun
  · cases hrun
    have hlength : (input.bytes.take count).length = count :=
      Nat.le_antisymm (by rw [List.length_take]; exact Nat.min_le_left _ _)
        (Nat.le_of_not_lt hshort)
    exact ⟨input.bytes.take count, (List.take_append_drop count input.bytes).symm, rfl, hlength⟩

lemma skip (count : Nat) : Consumes (Reader.skip count) fun bytes _ => bytes.length = count :=
  (take count).discard.mono fun _ _ ⟨_, _, hlength⟩ => hlength

lemma u1 : Consumes Reader.u1 fun bytes value => bytes = [value] := by
  refine (take 1).map ?_
  rintro taken bytes ⟨rfl, hlength⟩
  obtain ⟨byte, rfl⟩ := List.length_eq_one_iff.mp hlength
  rfl

/-- Bytes that were taken for a number spell the number. -/
lemma number (width : Nat) :
    Consumes (Reader.take width >>= fun taken => Pure.pure (Bytes.bigEndian taken))
      fun bytes value =>
      value < 256 ^ width ∧ bytes = Bytes.ofNumber width value := by
  refine (take width).map ?_
  rintro taken bytes ⟨rfl, rfl⟩
  exact ⟨taken.bigEndian_lt, taken.ofNumber_bigEndian.symm⟩

lemma u2 : Consumes Reader.u2 fun bytes value => ∃ n :
    UInt16, value = n.toNat ∧ bytes = Bytes.ofNumber 2 n.toNat := by
  refine (number 2).mono ?_
  rintro bytes value ⟨hlt, hbytes⟩
  have hvalue : (UInt16.ofNat value).toNat = value := UInt16.toNat_ofNat_of_lt' hlt
  exact ⟨UInt16.ofNat value, hvalue.symm, by rw [hvalue]; exact hbytes⟩

lemma u4 : Consumes Reader.u4 fun bytes value => ∃ n :
    UInt32, value = n.toNat ∧ bytes = Bytes.ofNumber 4 n.toNat := by
  refine (number 4).mono ?_
  rintro bytes value ⟨hlt, hbytes⟩
  have hvalue : (UInt32.ofNat value).toNat = value := UInt32.toNat_ofNat_of_lt' hlt
  exact ⟨UInt32.ofNat value, hvalue.symm, by rw [hvalue]; exact hbytes⟩

lemma ofExcept (result : Except ClassFileError α) :
    Consumes (Reader.ofExcept result) fun bytes value => bytes = [] ∧ result = .ok value := by
  cases result with
  | error error => exact .throw error
  | ok value => exact .pure ⟨rfl, rfl⟩

lemma note (event : LogEvent) : Consumes (Reader.note event) fun bytes _ => bytes = [] := by
  intro input value input' hrun
  cases hrun
  exact ⟨[], rfl, rfl⟩

/-- A note that is made on a condition comes first. -/
lemma ite_note_bind {condition : Prop} [Decidable condition] {event : LogEvent} {reader : Reader α}
    (h : Consumes reader spec) :
      Consumes (if condition then Reader.note event >>= fun _ => reader else reader) spec := by
  split
  · refine (note event).bind ?_
    rintro _ _ rfl
    exact h
  · exact h

lemma slot (lookUp : Nat → Except ClassFileError α) :
    Consumes (Reader.slot lookUp) fun bytes value =>
      ∃ index : UInt16, lookUp index.toNat = .ok value ∧ bytes = Bytes.ofNumber 2 index.toNat := by
  refine u2.bind ?_
  rintro _ _ ⟨index, rfl, rfl⟩
  refine (ofExcept _).mono ?_
  rintro _ value ⟨rfl, hvalue⟩
  exact ⟨index, hvalue, List.append_nil _⟩

/-! ### Repetition and bodies -/

variable {item : Reader α} {legal : ι → Prop} {spelled : ι → Bytes} {value : ι → α}

/-- The same thing several times in a row. -/
lemma times (hitem : Consumes item (SpelledBy legal spelled value)) (count : Nat) :
    Consumes (Reader.times count item)
      (SpelledBy (fun items : List ι => items.length = count ∧ ∀ x ∈ items, legal x)
        (List.flatMap spelled) (List.map value)) := by
  induction count with
  | zero => exact .pure ⟨[], ⟨rfl, by simp⟩, rfl, rfl⟩
  | succ count ih =>
      refine hitem.bind ?_
      rintro _ _ ⟨x, hx, rfl, rfl⟩
      refine ih.map ?_
      rintro _ _ ⟨items, ⟨hlength, hitems⟩, rfl, rfl⟩
      exact ⟨x :: items, ⟨by rw [List.length_cons, hlength], List.forall_mem_cons.mpr ⟨hx, hitems⟩⟩,
        List.flatMap_cons.symm, rfl⟩

/-- The same thing several times in a row, with the number in front. -/
lemma counted (hitem : Consumes item (SpelledBy legal spelled value)) :
    Consumes (Reader.counted item)
      (SpelledBy (fun items : List ι => items.length < 65536 ∧ ∀ x ∈ items, legal x)
        (Bytes.counted spelled) (List.map value)) := by
  refine u2.bind ?_
  rintro _ _ ⟨count, rfl, rfl⟩
  refine (times hitem count.toNat).mono ?_
  rintro _ _ ⟨items, ⟨hlength, hitems⟩, rfl, rfl⟩
  refine ⟨items, ⟨?_, hitems⟩, ?_, rfl⟩
  · rw [hlength]
    exact count.toNat_lt
  · rw [Bytes.counted, hlength]

/-- What a reader takes off a body is the front of the body. -/
lemma within {reader : Reader α} (h : Consumes reader spec) (body : Bytes) :
    Consumes (Reader.within body reader) fun bytes value =>
      bytes = [] ∧ ∃ used junk, body = used ++ junk ∧ spec used value := by
  intro input value input' hrun
  rw [Reader.within, run_get_bind] at hrun
  change StateT.run (ExceptT.run (reader >>= _)) ⟨body, input.log⟩ = _ at hrun
  have hok := congrArg Prod.fst hrun
  obtain ⟨found, inner, hinner, hrest⟩ := run_bind_of_ok hok
  rw [hrun] at hrest
  cases hrest
  obtain ⟨used, hused, hvalue⟩ := h _ _ _ hinner
  exact ⟨[], rfl, rfl, used, inner.bytes, hused, hvalue⟩

end Consumes

end ClassFile

end JarFacts
