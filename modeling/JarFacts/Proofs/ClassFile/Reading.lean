import Mathlib.Algebra.Ring.Nat
import JarFacts.ClassFile.Constant
import JarFacts.Proofs.Bytes.ModifiedUtf8
import JarFacts.Proofs.Steps

/-!
# What a reader makes of bytes

`Reads` says that a reader consumes given bytes, no more and no less, and has a given value,
whatever comes behind them.  Every primitive reader has one rule, and sequences, repetitions and
bodies of a stated length are composed of the rules of their parts.  What a reader notes on the way
is left open.  `Fails` says the same of a reader that stops with an error.
-/

namespace JarFacts

namespace Bytes

/-- The number in so many bytes, most significant first. -/
def ofNumber : (width : Nat) → Nat → Bytes
  | 0, _ => []
  | width + 1, n => ofNumber width (n / 256) ++ [UInt8.ofNat n]

@[simp] lemma length_ofNumber (width n : Nat) : (ofNumber width n).length = width := by
  induction width generalizing n with
  | zero => rfl
  | succ width ih => rw [ofNumber, List.length_append, ih, List.length_singleton]

lemma bigEndian_ofNumber (width : Nat) {n : Nat} (hn : n < 256 ^ width) :
    bigEndian (ofNumber width n) = n := by
  induction width generalizing n with
  | zero => simp only [Nat.pow_zero, Nat.lt_one_iff] at hn; rw [hn]; rfl
  | succ width ih =>
      have hhigh : n / 256 < 256 ^ width := Nat.div_lt_of_lt_mul (by rwa [Nat.pow_succ'] at hn)
      have hlow : (UInt8.ofNat n).toNat = n % 256 := UInt8.toNat_ofNat'
      rw [ofNumber, bigEndian, List.foldl_append, ← bigEndian, ih hhigh, List.foldl_cons,
        List.foldl_nil, hlow]
      omega

/-- Several things, with their number in front. -/
def counted {ι : Type} (spelled : ι → Bytes) (items : List ι) : Bytes :=
  ofNumber 2 items.length ++ items.flatMap spelled

/-- Things that take the same number of bytes each. -/
lemma length_flatMap {ι : Type} {spelled : ι → Bytes} {width : Nat}
    (h : ∀ x, (spelled x).length = width)
    (items : List ι) : (items.flatMap spelled).length = width * items.length := by
  induction items with
  | nil => rfl
  | cons x rest ih =>
      rw [List.flatMap_cons, List.length_append, h, ih, List.length_cons,
        Nat.mul_succ, Nat.add_comm]

end Bytes

namespace ClassFile

variable {α β ι : Type}

/-- In front of anything the reader consumes exactly these bytes and has this value. -/
def Reads (reader : Reader α) (bytes : Bytes) (value : α) : Prop :=
  ∀ (rest : Bytes) (log : Array LogEvent), ∃ log',
    reader.run.run ⟨bytes ++ rest, log⟩ = (.ok value, ⟨rest, log'⟩)

namespace Reads

lemma pure (value : α) : Reads (pure value) [] value :=
  fun _ log => ⟨log, rfl⟩

lemma bind {reader : Reader α} {next : α → Reader β} {bytes bytes' : Bytes} {value : α} {value' : β}
    (hreader : Reads reader bytes value) (hnext : Reads (next value) bytes' value') :
    Reads (reader >>= next) (bytes ++ bytes') value' := by
  intro rest log
  obtain ⟨log', hrun⟩ := hreader (bytes' ++ rest) log
  obtain ⟨log'', hrun'⟩ := hnext rest log'
  refine ⟨log'', ?_⟩
  rw [List.append_assoc, run_bind, hrun]
  exact hrun'

/-- A step that consumes nothing comes first. -/
lemma bind_silent {reader : Reader α} {next : α → Reader β} {bytes : Bytes} {value : α} {value' : β}
    (hreader : Reads reader [] value) (hnext : Reads (next value) bytes value') :
    Reads (reader >>= next) bytes value' :=
  hreader.bind hnext

/-- A step that consumes nothing comes last. -/
lemma bind_last {reader : Reader α} {next : α → Reader β} {bytes : Bytes} {value : α} {value' : β}
    (hreader : Reads reader bytes value) (hnext : Reads (next value) [] value') :
    Reads (reader >>= next) bytes value' := by
  have hbind : Reads (reader >>= next) (bytes ++ []) value' := hreader.bind hnext
  rwa [List.append_nil] at hbind

/-- The last step only makes up the value. -/
lemma map {reader : Reader α} {bytes : Bytes} {value : α} (h : Reads reader bytes value)
    (f : α → β) :
    Reads (reader >>= fun found => Pure.pure (f found)) bytes (f value) :=
  h.bind_last (.pure (f value))

lemma discard {reader : Reader α} {bytes : Bytes} {value : α} (h : Reads reader bytes value) :
    Reads (Functor.discard reader) bytes ⟨⟩ := by
  rw [discard_eq_bind]
  exact h.map fun _ => PUnit.unit

/-! ### Primitive readers -/

lemma take (bytes : Bytes) : Reads (Reader.take bytes.length) bytes bytes := by
  intro rest log
  refine ⟨log, ?_⟩
  have htake : (bytes ++ rest).take bytes.length = bytes := List.take_left
  have hdrop : (bytes ++ rest).drop bytes.length = rest := List.drop_left
  simp only [Reader.take, run_get_bind, htake, hdrop, Nat.lt_irrefl, if_false]
  rfl

lemma skip (bytes : Bytes) : Reads (Reader.skip bytes.length) bytes ⟨⟩ :=
  (take bytes).discard

lemma u1 (byte : UInt8) : Reads Reader.u1 [byte] byte :=
  (take [byte]).map fun taken => taken.headD 0

/-- A number is read from the bytes that spell it. -/
lemma number (width : Nat) {n : Nat} (hn : n < 256 ^ width) (f : Nat → β) :
    Reads (Reader.take width >>= fun taken => Pure.pure (f (Bytes.bigEndian taken)))
      (Bytes.ofNumber width n) (f n) := by
  have hmap := (take (Bytes.ofNumber width n)).map fun taken => f (Bytes.bigEndian taken)
  rwa [Bytes.length_ofNumber, Bytes.bigEndian_ofNumber width hn] at hmap

lemma u2 {n : Nat} (hn : n < 65536) : Reads Reader.u2 (Bytes.ofNumber 2 n) n :=
  number 2 hn id

lemma u4 {n : Nat} (hn : n < 4294967296) : Reads Reader.u4 (Bytes.ofNumber 4 n) n :=
  number 4 hn id

lemma ofExcept {result : Except ClassFileError α} {value : α} (h : result = .ok value) :
    Reads (Reader.ofExcept result) [] value := by
  rw [h]
  exact .pure value

lemma note (event : LogEvent) : Reads (Reader.note event) [] ⟨⟩ :=
  fun _ log => ⟨log.push event, rfl⟩

lemma slot {lookUp : Nat → Except ClassFileError α} {index : UInt16} {value : α}
    (h : lookUp index.toNat = .ok value) : Reads (Reader.slot lookUp)
      (Bytes.ofNumber 2 index.toNat) value :=
  (u2 index.toNat_lt).bind_last (ofExcept h)

/-! ### Repetition and bodies -/

/-- The same thing several times in a row. -/
lemma times {item : Reader α} {spelled : ι → Bytes} {value : ι → α} (items : List ι)
    (h : ∀ x ∈ items, Reads item (spelled x) (value x)) :
    Reads (Reader.times items.length item) (items.flatMap spelled) (items.map value) := by
  induction items with
  | nil => exact .pure []
  | cons x rest ih =>
      rw [List.flatMap_cons]
      refine (h x List.mem_cons_self).bind ?_
      exact (ih fun y hy => h y (List.mem_cons_of_mem _ hy)).map (value x :: ·)

/-- The same thing several times in a row, with the number in front. -/
lemma counted {item : Reader α} {spelled : ι → Bytes} {value : ι → α} {items : List ι}
    (hcount : items.length < 65536) (h : ∀ x ∈ items, Reads item (spelled x) (value x)) :
    Reads (Reader.counted item) (Bytes.counted spelled items) (items.map value) :=
  (u2 hcount).bind (times items h)

/-- A body is read from its start, and what is left of it is dropped. -/
lemma within {reader : Reader α} {used : Bytes} {value : α} (h : Reads reader used value)
    (junk : Bytes) :
    Reads (Reader.within (used ++ junk) reader) [] value := by
  intro rest log
  obtain ⟨log', hrun⟩ := h junk log
  refine ⟨log', ?_⟩
  rw [Reader.within, run_get_bind]
  change StateT.run (ExceptT.run (reader >>= _)) ⟨used ++ junk, log⟩ = _
  rw [run_bind, hrun]
  rfl

end Reads

/-- In front of anything the reader stops at these bytes with this error. -/
def Fails (reader : Reader α) (bytes : Bytes) (error : ClassFileError) : Prop :=
  ∀ (rest : Bytes) (log : Array LogEvent), ∃ input, reader.run.run ⟨bytes ++ rest, log⟩ =
    (.error error, input)

namespace Fails

lemma throw (error : ClassFileError) : Fails (throw error : Reader α) [] error :=
  fun _ _ => ⟨_, rfl⟩

lemma bind {reader : Reader α} {bytes : Bytes} {error : ClassFileError}
    (h : Fails reader bytes error) (next : α → Reader β) : Fails (reader >>= next) bytes error := by
  intro rest log
  obtain ⟨input, hrun⟩ := h rest log
  exact ⟨input, by rw [run_bind, hrun]⟩

/-- What comes first is read, and what comes second fails. -/
lemma after {reader : Reader α} {next : α → Reader β} {front bytes : Bytes} {value : α}
    {error : ClassFileError}
    (hreader : Reads reader front value) (hnext : Fails (next value) bytes error) :
    Fails (reader >>= next) (front ++ bytes) error := by
  intro rest log
  obtain ⟨log', hrun⟩ := hreader (bytes ++ rest) log
  obtain ⟨input, hrun'⟩ := hnext rest log'
  refine ⟨input, ?_⟩
  rw [List.append_assoc, run_bind, hrun]
  exact hrun'

/-- What comes last fails without consuming anything. -/
lemma after_last {reader : Reader α} {next : α → Reader β} {bytes : Bytes} {value : α}
    {error : ClassFileError}
    (hreader : Reads reader bytes value) (hnext : Fails (next value) [] error) :
    Fails (reader >>= next) bytes error := by
  have hafter : Fails (reader >>= next) (bytes ++ []) error := after hreader hnext
  rwa [List.append_nil] at hafter

/-- What stands behind the bytes at which a reader stops is of no account. -/
lemma append {reader : Reader α} {bytes : Bytes} {error : ClassFileError}
    (h : Fails reader bytes error) (more : Bytes) : Fails reader (bytes ++ more) error := by
  intro rest log
  rw [List.append_assoc]
  exact h (more ++ rest) log

/-- Of several things in a row all are good, or reading them fails at the first that is not. -/
lemma forall_or_times {item : Reader α} {spelled : ι → Bytes} {value : ι → α} {good : ι → Prop}
    {items : List ι}
    {error : ClassFileError} (hgood : ∀ x ∈ items, good x → Reads item (spelled x) (value x))
    (hitems : ∀ x ∈ items, good x ∨ Fails item (spelled x) error) :
    (∀ x ∈ items, good x) ∨
    Fails (Reader.times items.length item) (items.flatMap spelled) error := by
  induction items with
  | nil => exact .inl fun x hx => by cases hx
  | cons first items ih =>
      rw [List.flatMap_cons]
      obtain hfirst | hfirst := hitems first List.mem_cons_self
      · have hreads := hgood first List.mem_cons_self hfirst
        obtain hrest | hrest := ih (fun x hx => hgood x (List.mem_cons_of_mem _ hx))
          fun x hx => hitems x (List.mem_cons_of_mem _ hx)
        · exact .inl (List.forall_mem_cons.mpr ⟨hfirst, hrest⟩)
        · exact .inr (.after hreads (hrest.bind _))
      · exact .inr ((hfirst.bind _).append _)

/-- The same with the number in front. -/
lemma forall_or_counted {item : Reader α} {spelled : ι → Bytes} {value : ι → α} {good : ι → Prop}
    {items : List ι} {error : ClassFileError} (hcount : items.length < 65536)
    (hgood : ∀ x ∈ items, good x → Reads item (spelled x) (value x))
    (hitems : ∀ x ∈ items, good x ∨ Fails item (spelled x) error) :
    (∀ x ∈ items, good x) ∨ Fails (Reader.counted item) (Bytes.counted spelled items) error :=
  (forall_or_times hgood hitems).imp_right fun h => .after (.u2 hcount) h

end Fails

/-- A reader does not both have a value and stop. -/
lemma Reads.not_fails {reader : Reader α} {bytes : Bytes} {value : α} {error : ClassFileError}
    (h : Reads reader bytes value) : ¬Fails reader bytes error := by
  intro hfails
  obtain ⟨log, hrun⟩ := h [] #[]
  obtain ⟨input, hrun'⟩ := hfails [] #[]
  rw [hrun] at hrun'
  cases hrun'

end ClassFile

end JarFacts
