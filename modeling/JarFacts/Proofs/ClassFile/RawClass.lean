import JarFacts.Proofs.ClassFile.Coverage

/-!
# Class files as they are stored

The layout of a class gives the texts of its pool as texts.  In a file they are bytes, and the same
text may be spelled by different ones.  `RawClass` keeps the bytes: it is a layout together with the
pool entries as they stand and the number in front of them, which may count a slot less than the
entries take if the last of them takes two.

The main result is that these are all the class files there are: reading has a result exactly on the
bytes of well-formed raw classes, with anything behind them (`RawClass.parse_eq_ok_iff`).
-/

namespace JarFacts

open ClassFile

namespace Bytes

lemma exists_u8 {bytes : Bytes} (hlength : bytes.length = 8) : ∃ n :
    UInt64, bytes = ofNumber 8 n.toNat := by
  have hlt : bytes.bigEndian < 18446744073709551616 := by simpa [hlength] using bytes.bigEndian_lt
  refine ⟨UInt64.ofNat bytes.bigEndian, ?_⟩
  rw [UInt64.toNat_ofNat_of_lt' hlt, ← hlength, ofNumber_bigEndian]

end Bytes

namespace ClassFile

/-! ## Entries -/

def PoolEntry.isText : PoolEntry → Bool
  | utf8 _ => true
  | _ => false

/-- A pool entry as it stands in a file: the contents of a text, or an entry of another kind. -/
inductive RawEntry where
  | text (contents : Bytes)
  | plain (entry : PoolEntry)

namespace RawEntry

def bytes : RawEntry → Bytes
  | text contents => 1 :: (Bytes.ofNumber 2 contents.length ++ contents)
  | plain entry => entry.bytes

/-- What the entry stands for.  Contents that spell no text stand for the empty one here, and are
not legal. -/
def entry : RawEntry → PoolEntry
  | text contents => .utf8 (String.ofList ((ModifiedUtf8.decode? contents).getD []))
  | plain entry => entry

/-- The length of contents fits into its field, and they spell a text.  An entry of another kind is
no text. -/
def Legal : RawEntry → Prop
  | text contents => contents.length < 65536 ∧ (ModifiedUtf8.decode? contents).isSome = true
  | plain entry => entry.isText = false

instance : DecidablePred Legal
  | text contents =>
    inferInstanceAs
      (Decidable (contents.length < 65536 ∧ (ModifiedUtf8.decode? contents).isSome = true))
  | plain entry => inferInstanceAs (Decidable (entry.isText = false))

lemma reads (raw : RawEntry) (hlegal : raw.Legal) :
    Reads Reader.constant raw.bytes raw.entry.constant := by
  cases raw with
  | text contents =>
      obtain ⟨hlength, hspelled⟩ := hlegal
      obtain ⟨text, htext⟩ := Option.isSome_iff_exists.mp hspelled
      rw [Reader.constant]
      refine (Reads.u1 1).bind ((Reads.u2 hlength).bind ((Reads.take contents).bind_last ?_))
      rw [entry, htext]
      exact .pure _
  | plain entry =>
      refine entry.reads ?_
      cases entry with
      | utf8 text => cases hlegal
      | _ => trivial

/-- Contents that spell no text cannot be read. -/
lemma fails {contents : Bytes} (hlength : contents.length < 65536)
    (hspelled : ModifiedUtf8.decode? contents = none) :
    Fails Reader.constant (bytes (.text contents)) .invalidUtf8 := by
  rw [Reader.constant]
  refine .after (Reads.u1 1) (.after (Reads.u2 hlength) (.after_last (Reads.take contents) ?_))
  rw [hspelled]
  exact .throw _

/-! ### What stands behind a tag -/

section Behind

variable {spec : Bytes → Constant → Prop}

/-- The length of a text and its contents. -/
lemma consumes_text :
    Consumes
      (do
        let contents ← Reader.take (← Reader.u2)
        match ModifiedUtf8.decode? contents with
        | some letters => return Constant.utf8 (String.ofList letters)
        | none => throw .invalidUtf8)
      fun bytes' constant => SpelledBy Legal bytes (fun raw => raw.entry.constant)
        ([1] ++ bytes') constant := by
  refine Consumes.u2.bind ?_
  rintro _ _ ⟨length, rfl, rfl⟩
  refine (Consumes.take _).bind ?_
  rintro contents _ ⟨rfl, hlength⟩
  cases htext : ModifiedUtf8.decode? contents with
  | none => exact .throw _
  | some text =>
      have hlegal : (RawEntry.text contents).Legal := by
        rw [Legal, hlength, htext]
        exact ⟨length.toNat_lt, rfl⟩
      refine .pure ⟨.text contents, hlegal, ?_, ?_⟩
      · rw [bytes, hlength, List.append_nil]
        rfl
      · dsimp only
        rw [entry, htext]
        rfl

/-- A number of four bytes. -/
lemma consumes_word (constant : Nat → Constant)
    (h : ∀ word : UInt32, spec (Bytes.ofNumber 4 word.toNat) (constant word.toNat)) :
    Consumes (do return constant (← Reader.u4)) spec := by
  refine Consumes.u4.map ?_
  rintro _ _ ⟨word, rfl, rfl⟩
  exact h word

/-- A number of eight bytes. -/
lemma consumes_long (constant : Nat → Constant)
    (h : ∀ word : UInt64, spec (Bytes.ofNumber 8 word.toNat) (constant word.toNat)) :
    Consumes (do return constant (Bytes.bigEndian (← Reader.take 8))) spec := by
  refine (Consumes.take 8).map ?_
  rintro taken _ ⟨rfl, hlength⟩
  obtain ⟨word, rfl⟩ := Bytes.exists_u8 hlength
  rw [Bytes.bigEndian_ofNumber 8 word.toNat_lt]
  exact h word

/-- A slot number that is kept. -/
lemma consumes_kept (constant : Nat → Constant)
    (h : ∀ slot : UInt16, spec (Bytes.ofNumber 2 slot.toNat) (constant slot.toNat)) :
    Consumes (do return constant (← Reader.u2)) spec := by
  refine Consumes.u2.map ?_
  rintro _ _ ⟨slot, rfl, rfl⟩
  exact h slot

/-- Two slot numbers that are kept. -/
lemma consumes_kept_pair (constant : Nat → Nat → Constant)
    (h : ∀ first second :
      UInt16, spec (Bytes.ofNumber 2 first.toNat ++ Bytes.ofNumber 2 second.toNat)
      (constant first.toNat second.toNat)) :
    Consumes
      (do
        let first ← Reader.u2
        return constant first (← Reader.u2)) spec := by
  refine Consumes.u2.bind ?_
  rintro _ _ ⟨first, rfl, rfl⟩
  refine Consumes.u2.map ?_
  rintro _ _ ⟨second, rfl, rfl⟩
  exact h first second

/-- A slot number that is passed over. -/
lemma consumes_passed (h : ∀ slot : UInt16, spec (Bytes.ofNumber 2 slot.toNat) .other) :
    Consumes
      (do
        Reader.skip 2
        return Constant.other) spec := by
  refine (Consumes.skip 2).map ?_
  intro _ taken hlength
  obtain ⟨slot, rfl⟩ := Bytes.exists_u2 hlength
  exact h slot

/-- Two slot numbers that are passed over. -/
lemma consumes_passed_pair
    (h : ∀ first second :
      UInt16, spec (Bytes.ofNumber 2 first.toNat ++ Bytes.ofNumber 2 second.toNat) .other) :
    Consumes
      (do
        Reader.skip 4
        return Constant.other) spec := by
  refine (Consumes.skip 4).map ?_
  intro _ taken hlength
  obtain ⟨first, second, rfl, hfirst⟩ := Bytes.exists_front taken (show 2 ≤ _ by omega)
  rw [List.length_append] at hlength
  obtain ⟨first, rfl⟩ := Bytes.exists_u2 hfirst
  obtain ⟨second, rfl⟩ := Bytes.exists_u2 (show second.length = 2 by omega)
  exact h first second

/-- A byte and a slot number that are passed over. -/
lemma consumes_passed_handle
    (h : ∀ (kind : UInt8) (slot : UInt16), spec (kind :: Bytes.ofNumber 2 slot.toNat) .other) :
    Consumes
      (do
        Reader.skip 3
        return Constant.other) spec := by
  refine (Consumes.skip 3).map ?_
  intro _ taken hlength
  obtain ⟨kind, slot, rfl, hkind⟩ := Bytes.exists_front taken (show 1 ≤ _ by omega)
  obtain ⟨kind, rfl⟩ := List.length_eq_one_iff.mp hkind
  obtain ⟨slot, rfl⟩ := Bytes.exists_u2 (Nat.succ.inj hlength)
  exact h kind slot

end Behind

/-- Every constant that is read stands there as an entry. -/
lemma consumes :
    Consumes Reader.constant (SpelledBy Legal bytes fun raw => raw.entry.constant) := by
  refine Consumes.u1.bind ?_
  rintro tag _ rfl
  have htag {n : UInt8} (h : tag.toNat = n.toNat) : tag = n := UInt8.toNat_inj.mp h
  split
  · next h =>
      cases htag (n := 1) h
      exact consumes_text
  · next h =>
      cases htag (n := 3) h
      refine consumes_word (fun word => .integer (Bytes.signed32 word)) fun word => ?_
      refine ⟨.plain (.integer word.toInt32), rfl, rfl, ?_⟩
      exact congrArg Constant.integer (PoolEntry.signed32_toUInt32 word.toInt32)
  · next h =>
      cases htag (n := 4) h
      exact consumes_word .float fun bits => ⟨.plain (.float bits), rfl, rfl, rfl⟩
  · next h =>
      cases htag (n := 5) h
      refine consumes_long (fun word => .long (Bytes.signed64 word)) fun word => ?_
      refine ⟨.plain (.long word.toInt64), rfl, rfl, ?_⟩
      exact congrArg Constant.long (PoolEntry.signed64_toUInt64 word.toInt64)
  · next h =>
      cases htag (n := 6) h
      exact consumes_long .double fun bits => ⟨.plain (.double bits), rfl, rfl, rfl⟩
  · next h =>
      cases htag (n := 7) h
      exact consumes_kept .classRef fun name => ⟨.plain (.classRef name), rfl, rfl, rfl⟩
  · next h =>
      cases htag (n := 8) h
      exact consumes_kept .string fun text => ⟨.plain (.string text), rfl, rfl, rfl⟩
  · next h =>
      cases htag (n := 9) h
      exact consumes_kept_pair .memberRef fun owner pair =>
        ⟨.plain (.member .field owner pair), rfl, rfl, rfl⟩
  · next h =>
      cases htag (n := 10) h
      exact consumes_kept_pair .memberRef fun owner pair =>
        ⟨.plain (.member .method owner pair), rfl, rfl, rfl⟩
  · next h =>
      cases htag (n := 11) h
      exact consumes_kept_pair .memberRef fun owner pair =>
        ⟨.plain (.member .interfaceMethod owner pair), rfl, rfl, rfl⟩
  · next h =>
      cases htag (n := 12) h
      exact consumes_kept_pair .nameAndType fun name descriptor =>
        ⟨.plain (.nameAndType name descriptor), rfl, rfl, rfl⟩
  · next h =>
      cases htag (n := 15) h
      exact consumes_passed_handle fun kind reference =>
        ⟨.plain (.methodHandle kind reference), rfl, rfl, rfl⟩
  · next h =>
      cases htag (n := 16) h
      exact consumes_passed fun name => ⟨.plain (.methodType name), rfl, rfl, rfl⟩
  · next h =>
      cases htag (n := 19) h
      exact consumes_passed fun name => ⟨.plain (.module name), rfl, rfl, rfl⟩
  · next h =>
      cases htag (n := 20) h
      exact consumes_passed fun name => ⟨.plain (.package name), rfl, rfl, rfl⟩
  · next h =>
      cases htag (n := 17) h
      exact consumes_passed_pair fun bootstrap pair =>
        ⟨.plain (.dynamic bootstrap pair), rfl, rfl, rfl⟩
  · next h =>
      cases htag (n := 18) h
      exact consumes_passed_pair fun bootstrap pair =>
        ⟨.plain (.invokeDynamic bootstrap pair), rfl, rfl, rfl⟩
  · exact .throw _

end RawEntry

/-! ## Pools -/

/-- The entries of a pool as they stand in a file, in order. -/
abbrev RawPool := List RawEntry

namespace RawPool

/-- What the entries stand for. -/
def layout (pool : RawPool) : PoolLayout :=
  pool.map RawEntry.entry

lemma layout_append_cons (front back : RawPool) (raw : RawEntry) :
    layout (front ++ raw :: back) = front.layout ++ raw.entry :: back.layout :=
  List.map_append

/-- With some slots taken already, the entries are as many as it takes to fill `count` slots. -/
def Fills (count : Nat) : (taken : Nat) → RawPool → Prop
  | taken, [] => count ≤ taken
  | taken, raw :: rest => taken < count ∧ Fills count (taken + raw.entry.width) rest

instance decidableFills (count : Nat) :
    (taken : Nat) → (pool : RawPool) → Decidable (Fills count taken pool)
  | taken, [] => inferInstanceAs (Decidable (count ≤ taken))
  | taken, raw :: rest =>
    have := decidableFills count (taken + raw.entry.width) rest
    inferInstanceAs (Decidable (taken < count ∧ Fills count (taken + raw.entry.width) rest))

lemma reads_fill {count rounds : Nat} {pool : RawPool} (hlegal : ∀ raw ∈ pool, raw.Legal)
    {slots : Array Constant}
    (hrounds : count ≤ slots.size + rounds) (hfills : Fills count slots.size pool) :
    Reads (ConstantPool.fill count rounds slots) (pool.flatMap RawEntry.bytes)
      (slots ++ (pool.layout.flatMap fun entry => entry.constant.slots).toArray) := by
  induction pool generalizing slots rounds with
  | nil =>
      have hfull : ¬slots.size < count := Nat.not_lt.mpr hfills
      rw [layout, List.map_nil, List.flatMap_nil, List.flatMap_nil, Array.append_empty]
      cases rounds with
      | zero => exact .pure slots
      | succ rounds =>
          rw [ConstantPool.fill, if_neg hfull]
          exact .pure slots
  | cons raw rest ih =>
      obtain ⟨hroom, hfills⟩ := hfills
      obtain ⟨hraw, hrest⟩ := List.forall_mem_cons.mp hlegal
      have hwidth : 1 ≤ raw.entry.width := raw.entry.one_le_width
      obtain ⟨rounds, rfl⟩ : ∃ fewer, rounds = fewer + 1 := ⟨rounds - 1, by omega⟩
      have hsize := PoolLayout.size_append_slots slots raw.entry
      rw [ConstantPool.fill, if_pos hroom, List.flatMap_cons]
      refine (raw.reads hraw).bind ?_
      have hnext :=
        ih hrest (show count ≤ (slots ++ raw.entry.constant.slots).size + rounds by omega)
        (by rw [hsize]; exact hfills)
      rwa [PoolLayout.append_slots_append] at hnext

lemma consumes_fill (count rounds : Nat) (slots : Array Constant)
    (hrounds : count ≤ slots.size + rounds) :
    Consumes (ConstantPool.fill count rounds slots)
      (SpelledBy (fun pool : RawPool => (∀ raw ∈ pool, raw.Legal) ∧ Fills count slots.size pool)
        (List.flatMap RawEntry.bytes)
        fun pool => slots ++ (pool.layout.flatMap fun entry => entry.constant.slots).toArray) := by
  induction rounds generalizing slots with
  | zero => exact .pure ⟨[], ⟨by simp, hrounds⟩, rfl, Array.append_empty.symm⟩
  | succ rounds ih =>
      rw [ConstantPool.fill]
      split_ifs with hroom
      · refine RawEntry.consumes.bind ?_
        rintro _ _ ⟨raw, hraw, rfl, rfl⟩
        have hwidth : 1 ≤ raw.entry.width := raw.entry.one_le_width
        have hsize := PoolLayout.size_append_slots slots raw.entry
        refine (ih (slots ++ raw.entry.constant.slots) (by omega)).mono ?_
        rintro _ _ ⟨rest, ⟨hrest, hfills⟩, rfl, rfl⟩
        rw [hsize] at hfills
        exact ⟨raw :: rest, ⟨List.forall_mem_cons.mpr ⟨hraw, hrest⟩, hroom, hfills⟩,
          List.flatMap_cons.symm, PoolLayout.append_slots_append slots raw.entry rest.layout⟩
      · exact .pure ⟨[], ⟨by simp, Nat.le_of_not_lt hroom⟩, rfl, Array.append_empty.symm⟩

/-- The entries are legal, and they are as many as the number in front of them asks for.  It counts
slot 0. -/
def Legal (count : UInt16) (pool : RawPool) : Prop :=
  (∀ raw ∈ pool, raw.Legal) ∧ Fills count.toNat 1 pool

instance (count : UInt16) (pool : RawPool) : Decidable (pool.Legal count) :=
  inferInstanceAs (Decidable ((∀ raw ∈ pool, raw.Legal) ∧ Fills count.toNat 1 pool))

def bytes (count : UInt16) (pool : RawPool) : Bytes :=
  Bytes.ofNumber 2 count.toNat ++ pool.flatMap RawEntry.bytes

lemma reads {count : UInt16} {pool : RawPool} (hlegal : pool.Legal count) :
    Reads ConstantPool.read (pool.bytes count) pool.layout.constants := by
  have hfill : Reads (ConstantPool.fill count.toNat count.toNat #[.unusable])
      (pool.flatMap RawEntry.bytes) _ :=
    reads_fill hlegal.1 (Nat.le_add_left _ _) hlegal.2
  exact (Reads.u2 count.toNat_lt).bind (hfill.map ConstantPool.mk)

lemma consumes :
    Consumes ConstantPool.read fun found constants =>
      ∃ (count : UInt16) (pool : RawPool), pool.Legal count ∧ found = pool.bytes count ∧
        constants = pool.layout.constants := by
  refine Consumes.u2.bind ?_
  rintro _ _ ⟨count, rfl, rfl⟩
  refine (consumes_fill count.toNat count.toNat #[.unusable] (Nat.le_add_left _ _)).map ?_
  rintro _ _ ⟨pool, hlegal, rfl, rfl⟩
  exact ⟨count, pool, hlegal, rfl, rfl⟩

/-- A text takes one slot whatever its contents are. -/
lemma Fills.exchange {count taken : Nat} {front back : RawPool} {old : Bytes}
    (h : Fills count taken (front ++ .text old :: back)) (new : Bytes) :
    Fills count taken (front ++ .text new :: back) := by
  induction front generalizing taken with
  | nil => exact h
  | cons first rest ih => exact ⟨h.1, ih h.2⟩

/-- A pool cannot be read past an entry that cannot be read. -/
lemma fails_fill {count rounds : Nat} {front back : RawPool} {raw : RawEntry}
    {error : ClassFileError}
    (hfront : ∀ raw ∈ front, raw.Legal) (hraw : Fails Reader.constant raw.bytes error)
    {slots : Array Constant} (hrounds : count ≤ slots.size + rounds)
    (hfills : Fills count slots.size (front ++ raw :: back)) :
    Fails (ConstantPool.fill count rounds slots)
      (front.flatMap RawEntry.bytes ++ raw.bytes) error := by
  induction front generalizing slots rounds with
  | nil =>
      obtain ⟨hroom, -⟩ := hfills
      obtain ⟨rounds, rfl⟩ : ∃ fewer, rounds = fewer + 1 := ⟨rounds - 1, by omega⟩
      rw [ConstantPool.fill, if_pos hroom]
      exact hraw.bind _
  | cons first rest ih =>
      obtain ⟨hroom, hfills⟩ := hfills
      obtain ⟨hfirst, hrest⟩ := List.forall_mem_cons.mp hfront
      have hwidth : 1 ≤ first.entry.width := first.entry.one_le_width
      have hsize := PoolLayout.size_append_slots slots first.entry
      obtain ⟨rounds, rfl⟩ : ∃ fewer, rounds = fewer + 1 := ⟨rounds - 1, by omega⟩
      rw [ConstantPool.fill, if_pos hroom, List.flatMap_cons, List.append_assoc]
      refine .after (first.reads hfirst) (ih hrest ?_ ?_)
      · omega
      · rw [hsize]
        exact hfills

end RawPool

end ClassFile

/-! ## Classes -/

/-- A class file as it is stored. -/
structure RawClass where
  /-- The number in front of the pool. -/
  count : UInt16
  entries : RawPool
  layout : ClassLayout
  /-- The pool of the layout is what the entries stand for. -/
  pool_eq : layout.pool = entries.layout

namespace RawClass

def bytes (cls : RawClass) : Bytes :=
  Bytes.ofNumber 4 0xCAFEBABE ++ (Bytes.ofNumber 2 cls.layout.minorVersion.toNat ++
    (Bytes.ofNumber 2 cls.layout.majorVersion.toNat ++
      (cls.entries.bytes cls.count ++ cls.layout.declarationBytes)))

/-- The pool and what stands behind it are legal. -/
structure WellFormed (cls : RawClass) : Prop where
  entries : cls.entries.Legal cls.count
  declaration : cls.layout.Linked

lemma reads {cls : RawClass} (hcls : cls.WellFormed) :
    Reads ClassFile.read cls.bytes cls.layout.model := by
  have hpool : Reads ConstantPool.read (cls.entries.bytes cls.count) cls.layout.pool.constants := by
    rw [cls.pool_eq]
    exact RawPool.reads hcls.entries
  refine (Reads.u4 (n := 0xCAFEBABE) (by decide)).bind ?_
  refine (Reads.u2 cls.layout.minorVersion.toNat_lt).bind
    ((Reads.u2 cls.layout.majorVersion.toNat_lt).bind ?_)
  exact hpool.bind (ClassLayout.reads_declaration hcls.declaration)

lemma consumes :
    Consumes ClassFile.read (SpelledBy WellFormed bytes fun cls => cls.layout.model) := by
  refine Consumes.u4.bind ?_
  rintro _ _ ⟨magic, rfl, rfl⟩
  by_cases hmagic : magic.toNat = 0xCAFEBABE
  · rw [if_neg (not_not_intro hmagic), hmagic]
    refine Consumes.u2.bind ?_
    rintro _ _ ⟨minorVersion, rfl, rfl⟩
    refine Consumes.u2.bind ?_
    rintro _ _ ⟨majorVersion, rfl, rfl⟩
    refine RawPool.consumes.bind ?_
    rintro _ _ ⟨count, entries, hentries, rfl, rfl⟩
    refine (ClassLayout.consumes_declaration minorVersion majorVersion entries.layout).mono ?_
    rintro _ _ ⟨cls, ⟨rfl, rfl, hpool⟩, hlinked, rfl, rfl⟩
    exact ⟨⟨count, entries, cls, hpool⟩, ⟨hentries, hlinked⟩, rfl, rfl⟩
  · rw [if_pos hmagic]
    exact .throw_bind _ _

/-- A class file cannot be read past an entry of its pool that cannot be read. -/
lemma fails {cls : RawClass} {front back : RawPool} {raw : RawEntry}
    (hentries : cls.entries = front ++ raw :: back)
    (hfront : ∀ raw ∈ front, raw.Legal) (hfills : cls.entries.Fills cls.count.toNat 1)
    {error : ClassFileError} (hraw : Fails Reader.constant raw.bytes error) (trailing : Bytes) :
    ClassFile.parse (cls.bytes ++ trailing) = .error error := by
  rw [hentries] at hfills
  have hfill : Fails (ConstantPool.fill cls.count.toNat cls.count.toNat #[.unusable])
      (front.flatMap RawEntry.bytes ++ raw.bytes) error :=
    RawPool.fails_fill hfront hraw (Nat.le_add_left _ _) hfills
  have hpool : Fails ConstantPool.read
      (Bytes.ofNumber 2 cls.count.toNat ++ (front.flatMap RawEntry.bytes ++ raw.bytes)) error :=
    .after (Reads.u2 cls.count.toNat_lt) (hfill.bind _)
  have hread : Fails ClassFile.read
      (Bytes.ofNumber 4 0xCAFEBABE ++ (Bytes.ofNumber 2 cls.layout.minorVersion.toNat ++
        (Bytes.ofNumber 2 cls.layout.majorVersion.toNat ++
          (Bytes.ofNumber 2 cls.count.toNat ++ (front.flatMap RawEntry.bytes ++ raw.bytes)))))
            error := by
    refine .after (Reads.u4 (n := 0xCAFEBABE) (by decide)) ?_
    refine .after (Reads.u2 cls.layout.minorVersion.toNat_lt)
      (.after (Reads.u2 cls.layout.majorVersion.toNat_lt) ?_)
    exact hpool.bind _
  obtain ⟨input, hrun⟩ :=
    hread (back.flatMap RawEntry.bytes ++ (cls.layout.declarationBytes ++ trailing)) #[]
  have hparse : ClassFile.read.run.run ⟨cls.bytes ++ trailing, #[]⟩ = (.error error, input) := by
    rw [← hrun]
    simp only [bytes, RawPool.bytes, hentries, List.flatMap_append, List.flatMap_cons,
      List.append_assoc]
  rw [ClassFile.parse, ClassFile.parseWithLog, hparse]

/-- **The class files that can be read** are the well-formed ones, with anything behind them. -/
lemma parse_eq_ok_iff {bytes : Bytes} {result : ClassFile} :
    ClassFile.parse bytes = .ok result ↔
      ∃ (cls : RawClass) (trailing : Bytes), cls.WellFormed ∧ bytes = cls.bytes ++ trailing ∧
        result = cls.layout.model := by
  constructor
  · intro hparse
    rcases hrun : ClassFile.read.run.run ⟨bytes, #[]⟩ with ⟨outcome, input⟩
    rw [ClassFile.parse, ClassFile.parseWithLog, hrun] at hparse
    cases hparse
    obtain ⟨_, hbytes, cls, hcls, rfl, rfl⟩ := consumes _ _ _ hrun
    exact ⟨cls, input.bytes, hcls, hbytes, rfl⟩
  · rintro ⟨cls, trailing, hcls, rfl, rfl⟩
    obtain ⟨log, hrun⟩ := reads hcls trailing #[]
    rw [ClassFile.parse, ClassFile.parseWithLog, hrun]

end RawClass

end JarFacts
