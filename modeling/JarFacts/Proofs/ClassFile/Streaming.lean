import JarFacts.Proofs.ClassFile.Composed
import JarFacts.Proofs.ClassFile.Reading

/-!
# A class file is read from the front

A reader that looks at nothing but the bytes it consumes has three ways to go on from given bytes
(`Streams`): it reads a front part of them, and would do so whatever stood behind; it stops at them
with an error, whatever stood behind; or it runs out of bytes.  Every reader of class files is of
this kind (`Composed.streams`).  The body of an attribute is no exception: it is cut out of the
input first, and what is made of it does not depend on the rest.

So a class file that is read has an end.  All that is missing before it is more bytes, and nothing
counts behind it.
-/

namespace JarFacts.ClassFile

variable {α β : Type} {reader : Reader α} {bytes : Bytes}

/-- The reader runs out of these bytes. -/
def Starves (reader : Reader α) (bytes : Bytes) : Prop :=
  ∀ log : Array LogEvent, ∃ input, reader.run.run ⟨bytes, log⟩ = (.error .unexpectedEof, input)

/-- How the reader goes on from these bytes. -/
inductive Streams (reader : Reader α) (bytes : Bytes) : Prop
  | reads {used rest : Bytes} {value : α} (hreads : Reads reader used value)
      (hbytes : bytes = used ++ rest)
  | fails {error : ClassFileError} (hfails : Fails reader bytes error)
  | starves (hstarves : Starves reader bytes)

namespace Streams

lemma pure (value : α) (bytes : Bytes) : Streams (pure value) bytes :=
  .reads (.pure value) (List.nil_append bytes).symm

lemma throw (error : ClassFileError) (bytes : Bytes) : Streams (throw error : Reader α) bytes :=
  .fails fun _ _ => ⟨_, rfl⟩

lemma take (count : Nat) (bytes : Bytes) : Streams (Reader.take count) bytes := by
  by_cases hcount : count ≤ bytes.length
  · have hreads := Reads.take (bytes.take count)
    rw [List.length_take_of_le hcount] at hreads
    exact .reads hreads (List.take_append_drop count bytes).symm
  · refine .starves fun log => ⟨⟨bytes, log⟩, ?_⟩
    have hshort : (bytes.take count).length < count := by
      rw [List.length_take]
      omega
    simp only [Reader.take, run_get_bind, hshort, if_true]
    rfl

lemma note (event : LogEvent) (bytes : Bytes) : Streams (Reader.note event) bytes :=
  .reads (.note event) (List.nil_append bytes).symm

lemma bind {next : α → Reader β} (hreader : Streams reader bytes)
    (hnext : ∀ value rest, Streams (next value) rest) : Streams (reader >>= next) bytes := by
  cases hreader with
  | fails hfails => exact .fails (hfails.bind next)
  | starves hstarves =>
      refine .starves fun log => ?_
      obtain ⟨input, hrun⟩ := hstarves log
      exact ⟨input, by rw [run_bind, hrun]⟩
  | @reads used rest value hreads hbytes =>
      subst hbytes
      -- the second reader goes on from what the first has left
      cases hnext value rest with
      | reads hreads' hrest =>
          rw [hrest, ← List.append_assoc]
          exact .reads (hreads.bind hreads') rfl
      | fails hfails => exact .fails (.after hreads hfails)
      | starves hstarves =>
          refine .starves fun log => ?_
          obtain ⟨log', hrun⟩ := hreads rest log
          obtain ⟨input, hrun'⟩ := hstarves log'
          exact ⟨input, by rw [run_bind, hrun]; exact hrun'⟩

/-- What stands behind a body has no part in how the body is read. -/
lemma within {body : Bytes} (hbody : Streams reader body) (bytes : Bytes) :
    Streams (Reader.within body reader) bytes := by
  have herror {error : ClassFileError}
      (hrun : ∀ log, ∃ input, reader.run.run ⟨body, log⟩ = (.error error, input)) :
      Fails (Reader.within body reader) bytes error := by
    intro rest log
    obtain ⟨input, hrun⟩ := hrun log
    refine ⟨input, ?_⟩
    rw [Reader.within, run_get_bind]
    change StateT.run (ExceptT.run (reader >>= _)) ⟨body, log⟩ = _
    rw [run_bind, hrun]
  cases hbody with
  | @reads used junk value hreads hbytes =>
      rw [hbytes]
      exact .reads (hreads.within junk) (List.nil_append bytes).symm
  | @fails error hfails =>
      have hrun (log : Array LogEvent) : ∃ input, reader.run.run ⟨body, log⟩ =
          (.error error, input) := by
        rw [← List.append_nil body]
        exact hfails [] log
      exact .fails (herror hrun)
  | starves hstarves => exact .fails (herror hstarves)

end Streams

/-- Whatever bytes it is given, a reader of class files goes on in one of the three ways. -/
lemma Composed.streams (h : Composed reader) (bytes : Bytes) : Streams reader bytes := by
  induction h generalizing bytes with
  | pure value => exact .pure value bytes
  | throw error => exact .throw error bytes
  | take count => exact .take count bytes
  | callSite offset => exact .note _ bytes
  | bind _ _ ihreader ihnext => exact (ihreader bytes).bind ihnext
  | within body _ ih => exact (ih body).within bytes

/-- A reader that takes bytes to their end does not take a front part of them for all. -/
lemma Reads.eq_nil_of_append {used rest : Bytes} {value value' : α}
    (h : Reads reader (used ++ rest) value) (h' : Reads reader used value') : rest = [] := by
  obtain ⟨log, hrun⟩ := h [] #[]
  obtain ⟨log', hrun'⟩ := h' rest #[]
  rw [List.append_nil, hrun'] at hrun
  exact congrArg (·.2.bytes) hrun

/-- Short of the end of what it takes, a reader of class files runs out of bytes. -/
lemma Reads.starves_of_append {front rest : Bytes} {value : α} (hcomposed : Composed reader)
    (h : Reads reader (front ++ rest) value) (hrest : rest ≠ []) : Starves reader front := by
  cases hcomposed.streams front with
  | starves hstarves => exact hstarves
  | fails hfails =>
      obtain ⟨log, hrun⟩ := h [] #[]
      obtain ⟨input, hrun'⟩ := hfails rest #[]
      rw [List.append_nil, hrun'] at hrun
      cases hrun
  | @reads used left value' hreads hfront =>
      rw [hfront, List.append_assoc] at h
      exact absurd (List.append_eq_nil_iff.mp (h.eq_nil_of_append hreads)).2 hrest

/-! ## Class files -/

lemma Reads.parse {used : Bytes} {cls : ClassFile} (h : Reads read used cls) (rest : Bytes) :
    ClassFile.parse (used ++ rest) = .ok cls := by
  obtain ⟨log, hrun⟩ := h rest #[]
  rw [ClassFile.parse, parseWithLog, hrun]

lemma Fails.parse {error : ClassFileError} (h : Fails read bytes error) (rest : Bytes) :
    ClassFile.parse (bytes ++ rest) = .error error := by
  obtain ⟨input, hrun⟩ := h rest #[]
  rw [ClassFile.parse, parseWithLog, hrun]

lemma Starves.parse (h : Starves read bytes) : ClassFile.parse bytes = .error .unexpectedEof := by
  obtain ⟨input, hrun⟩ := h #[]
  rw [ClassFile.parse, parseWithLog, hrun]

/-- What is read as a class file has a front part that is all of it. -/
lemma exists_reads_of_parse {cls : ClassFile} (h : parse bytes = .ok cls) :
    ∃ used rest, bytes = used ++ rest ∧ Reads read used cls := by
  cases Composed.read.streams bytes with
  | @reads used rest value hreads hbytes =>
      rw [hbytes, hreads.parse rest] at h
      cases h
      exact ⟨used, rest, hbytes, hreads⟩
  | fails hfails =>
      have hparse := hfails.parse []
      rw [List.append_nil, h] at hparse
      cases hparse
  | starves hstarves =>
      rw [hstarves.parse] at h
      cases h

/-- Bytes behind those that decide about a class file change nothing. -/
lemma parse_append_of_ne (h : parse bytes ≠ .error .unexpectedEof) (more : Bytes) :
    parse (bytes ++ more) = parse bytes := by
  cases Composed.read.streams bytes with
  | reads hreads hbytes => rw [hbytes, hreads.parse, List.append_assoc, hreads.parse]
  | fails hfails =>
      have hparse := hfails.parse []
      rw [List.append_nil] at hparse
      rw [hfails.parse, hparse]
  | starves hstarves => exact absurd hstarves.parse h

/-- **A class file is read from the front.**  Bytes that hold a class file have one place where it
ends: all that is wrong with fewer bytes is that there are not enough, and any more of them make no
difference.  And where bytes decide about a class file, for it or against it, nothing that is put
behind them does. -/
theorem parse_streams (bytes : Bytes) :
    (∀ cls, parse bytes = .ok cls → ∃! n, n ≤ bytes.length ∧
      (∀ m, n ≤ m → m ≤ bytes.length → parse (bytes.take m) = .ok cls) ∧
      ∀ m < n, parse (bytes.take m) = .error .unexpectedEof) ∧
    (parse bytes ≠ .error .unexpectedEof → ∀ more, parse (bytes ++ more) = parse bytes) := by
  refine ⟨fun cls hcls => ?_, parse_append_of_ne⟩
  obtain ⟨used, rest, rfl, hreads⟩ := exists_reads_of_parse hcls
  have hbehind : ∀ m, used.length ≤ m → parse ((used ++ rest).take m) = .ok cls := by
    intro m hm
    rw [List.take_append, List.take_of_length_le hm]
    exact hreads.parse _
  have hbefore : ∀ m < used.length, parse ((used ++ rest).take m) = .error .unexpectedEof := by
    intro m hm
    rw [List.take_append_of_le_length (Nat.le_of_lt hm)]
    rw [← List.take_append_drop m used] at hreads
    refine (hreads.starves_of_append Composed.read ?_).parse
    rw [Ne, List.drop_eq_nil_iff]
    omega
  have hle : used.length ≤ (used ++ rest).length := by simp
  refine ⟨used.length, ⟨hle, fun m hm _ => hbehind m hm, hbefore⟩, ?_⟩
  -- Between this end and another one the class would be read and would not be.
  rintro n ⟨hn, hok, heof⟩
  rcases Nat.lt_trichotomy n used.length with hlt | rfl | hgt
  · have hparse := hok n (Nat.le_refl n) hn
    rw [hbefore n hlt] at hparse
    cases hparse
  · rfl
  · have hparse := heof used.length hgt
    rw [hbehind _ (Nat.le_refl _)] at hparse
    cases hparse

/-- The class `A` with the name of its source file, in a body that is one byte too long. -/
def sourcedClass : Bytes :=
  [0xCA, 0xFE, 0xBA, 0xBE, 0, 0, 0, 52, 0, 4, 1, 0, 1, 65, 7, 0, 1, 1, 0, 10, 83, 111, 117, 114, 99,
    101, 70, 105, 108, 101, 0, 33, 0, 2, 0, 0, 0, 0, 0, 0, 0, 0, 0, 1, 0, 3, 0, 0, 0, 3, 0, 1, 255]

/-- The class ends in front of two more bytes, and four bytes that begin no class file are refused
at once. -/
theorem sourcedClass_parse_streams :
    (∃ cls, parse (sourcedClass ++ [1, 2]) = .ok cls ∧
      ∃! n, n ≤ (sourcedClass ++ [1, 2]).length ∧
        (∀ m, n ≤ m → m ≤ (sourcedClass ++ [1, 2]).length →
          parse ((sourcedClass ++ [1, 2]).take m) = .ok cls) ∧
        ∀ m < n, parse ((sourcedClass ++ [1, 2]).take m) = .error .unexpectedEof) ∧
    parse [0xCA, 0xFE, 0xBA, 0xBF] ≠ .error .unexpectedEof ∧
    ∀ more, parse ([0xCA, 0xFE, 0xBA, 0xBF] ++ more) = .error .invalidMagic := by
  have hrefused : parse [0xCA, 0xFE, 0xBA, 0xBF] = .error .invalidMagic := rfl
  have hother : parse [0xCA, 0xFE, 0xBA, 0xBF] ≠ .error .unexpectedEof := by
    rw [hrefused]
    simp
  have hread : (parse (sourcedClass ++ [1, 2])).toOption.isSome = true := by decide +kernel
  cases hparse : parse (sourcedClass ++ [1, 2]) with
  | error error =>
      rw [hparse] at hread
      cases hread
  | ok cls =>
      exact ⟨⟨cls, rfl, (parse_streams _).1 cls hparse⟩, hother, fun more =>
        ((parse_streams _).2 hother more).trans hrefused⟩

end JarFacts.ClassFile
