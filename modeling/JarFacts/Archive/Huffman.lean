import JarFacts.Bytes.Basic

/-!
# Bits and prefix codes

Compressed data is a sequence of bits, the lowest bit of each byte first.  Symbols are written in
prefix codes that are given by the lengths of their words alone: shorter words come first, and words
of one length follow each other in the order of their symbols.
-/

namespace JarFacts.Deflate

/-! ## Bits -/

/-- Where decompression stands: how many bits of the first byte are used up, the bytes from that one
on, and what has come out so far. -/
structure Progress where
  used : Nat
  input : Bytes
  output : Array UInt8

/-- A step of decompression.  There is none when the data ends, or cannot have been made by
compression. -/
abbrev Inflate := StateT Progress Option

namespace Inflate

/-- Takes a bit. -/
def bit : Inflate Nat := do
  let progress ← get
  match progress.input with
  | [] => failure
  | byte :: rest =>
    let value := (byte.toNat >>> progress.used) % 2
    set (if progress.used = 7 then { progress with used := 0, input := rest }
      else { progress with used := progress.used + 1 })
    return value

/-- Takes a number of so many bits, the lowest first. -/
def bits : Nat → Inflate Nat
  | 0 => return 0
  | count + 1 => do
    let low ← bit
    return low + 2 * (← bits count)

/-- Gives up the rest of a byte of which bits are used. -/
def align : Inflate Unit := modify fun progress =>
  if progress.used = 0 then progress
  else { progress with used := 0, input := progress.input.drop 1 }

/-- Takes a whole byte. -/
def byte : Inflate UInt8 := do
  let progress ← get
  match progress.input with
  | [] => failure
  | byte :: rest =>
    set { progress with input := rest }
    return byte

/-- Puts out a byte. -/
def emit (byte : UInt8) : Inflate Unit := modify fun progress =>
  { progress with output := progress.output.push byte }

end Inflate

/-! ## Prefix codes -/

/-- A prefix code: how many words there are of each length from one on, and the symbols in the order
of their words. -/
structure PrefixCode where
  counts : List Nat
  symbols : Array Nat

namespace PrefixCode

/-- The longest word. -/
def maxLength : Nat := 15

/-- How many words of the next length are left, going through the lengths; nothing when there are
too few. -/
def left (counts : List Nat) : Option Nat :=
  counts.foldlM (fun free count => if count ≤ 2 * free then some (2 * free - count) else none) 1

/-- The code with words of the given lengths, zero for a symbol without one.  All words have to be
used, unless there is no symbol, or a single one with a word of one bit. -/
def ofLengths? (lengths : List Nat) : Option PrefixCode :=
  let widths := (List.range maxLength).map (· + 1)
  let numbered := lengths.zipIdx
  let counts := widths.map fun width => lengths.count width
  let symbols := widths.flatMap fun width =>
    (numbered.filter fun entry => entry.1 = width).map Prod.snd
  match left counts with
  | none => none
  | some free =>
    let isTrivial := symbols.isEmpty || counts = 1 :: List.replicate (maxLength - 1) 0
    if free = 0 ∨ isTrivial then some ⟨counts, symbols.toArray⟩ else none

/-- Takes a symbol.  `code` is the word read so far, `first` the first word of its length, and
`index` the number of shorter words. -/
def symbolFrom (symbols : Array Nat) : List Nat → (code first index : Nat) → Inflate Nat
  | [], _, _, _ => failure
  | count :: counts, code, first, index => do
    let code := code + (← Inflate.bit)
    if code < first + count then
      match symbols[index + (code - first)]? with
      | some symbol => return symbol
      | none => failure
    else symbolFrom symbols counts (2 * code) (2 * (first + count)) (index + count)

/-- Takes a symbol. -/
def symbol (code : PrefixCode) : Inflate Nat :=
  symbolFrom code.symbols code.counts 0 0 0

end PrefixCode

end JarFacts.Deflate
