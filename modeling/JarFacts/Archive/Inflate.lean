import JarFacts.Archive.Huffman

/-!
# Decompression

Compressed data is a sequence of blocks.  A block is stored as it is, or holds symbols in two prefix
codes: bytes and lengths of copies in one, the distances of the copies in the other.  The codes are
fixed, or stand in front of the block in a code of their own.

Data that ends before its last block does is damaged.  A copy may reach back to before the first
byte, as if zeros had come out before it.
-/

namespace JarFacts.Deflate

namespace Inflate

/-! ## Copies -/

/-- The shortest copy of each length symbol, and how many bits go on top of it. -/
def lengthBases : List (Nat × Nat) := [
  (3, 0), (4, 0), (5, 0), (6, 0), (7, 0), (8, 0), (9, 0), (10, 0), (11, 1), (13, 1), (15, 1),
  (17, 1), (19, 2), (23, 2), (27, 2), (31, 2), (35, 3), (43, 3), (51, 3), (59, 3), (67, 4), (83, 4),
  (99, 4), (115, 4), (131, 5), (163, 5), (195, 5), (227, 5), (258, 0)]

/-- The shortest distance of each distance symbol, and how many bits go on top of it. -/
def distanceBases : List (Nat × Nat) := [
  (1, 0), (2, 0), (3, 0), (4, 0), (5, 1), (7, 1), (9, 2), (13, 2), (17, 3), (25, 3), (33, 4),
  (49, 4), (65, 5), (97, 5), (129, 6), (193, 6), (257, 7), (385, 7), (513, 8), (769, 8), (1025, 9),
  (1537, 9), (2049, 10), (3073, 10), (4097, 11), (6145, 11), (8193, 12), (12289, 12), (16385, 13),
  (24577, 13)]

/-- A number made of a base and further bits. -/
def based (bases : List (Nat × Nat)) (symbol : Nat) : Inflate Nat := do
  match bases[symbol]? with
  | some (base, extra) => return base + (← bits extra)
  | none => failure

/-- Puts out so many bytes again, each from the given distance back. -/
def copy (distance : Nat) : Nat → Inflate Unit
  | 0 => return ()
  | length + 1 => do
    let output := (← get).output
    emit (if distance ≤ output.size then output.getD (output.size - distance) 0 else 0)
    copy distance length

/-! ## Blocks -/

/-- The symbols of a block up to its end.  Each round takes a bit. -/
def compressed (literals distances : PrefixCode) : Nat → Inflate Unit
  | 0 => failure
  | rounds + 1 => do
    let symbol ← literals.symbol
    if symbol < 256 then
      emit (UInt8.ofNat symbol)
      compressed literals distances rounds
    else if symbol = 256 then return ()
    else
      let length ← based lengthBases (symbol - 257)
      let distance ← based distanceBases (← distances.symbol)
      copy distance length
      compressed literals distances rounds

/-- A block that is stored as it is: its length, the complement of that, and the bytes. -/
def stored : Inflate Unit := do
  align
  let length := (← byte).toNat + 256 * (← byte).toNat
  let complement := (← byte).toNat + 256 * (← byte).toNat
  if length + complement ≠ 0xFFFF then failure
  (List.replicate length ()).forM fun _ => do emit (← byte)

/-- The code with words of the given lengths. -/
def code (lengths : List Nat) : Inflate PrefixCode :=
  StateT.lift (PrefixCode.ofLengths? lengths)

/-- The fixed code of bytes and lengths. -/
def fixedLiterals : List Nat :=
  List.replicate 144 8 ++ List.replicate 112 9 ++ List.replicate 24 7 ++ List.replicate 8 8

/-- The fixed code of distances. -/
def fixedDistances : List Nat := List.replicate 32 5

/-- The order in which the word lengths of the code of word lengths are given. -/
def lengthOrder : List Nat := [16, 17, 18, 0, 8, 7, 9, 6, 10, 5, 11, 4, 12, 3, 13, 2, 14, 1, 15]

/-- Word lengths, last first, until there are `wanted` of them; some symbols repeat the last one or
zero.  Each round adds one. -/
def wordLengths (lengths : PrefixCode) (wanted : Nat) : Nat → List Nat → Inflate (List Nat)
  | 0, taken => return taken
  | rounds + 1, taken => do
    if taken.length ≥ wanted then return taken
    else
      let symbol ← lengths.symbol
      if symbol < 16 then wordLengths lengths wanted rounds (symbol :: taken)
      else if symbol = 16 then
        match taken with
        | [] => failure
        | last :: _ =>
          wordLengths lengths wanted rounds (List.replicate (3 + (← bits 2)) last ++ taken)
      else if symbol = 17 then
        wordLengths lengths wanted rounds (List.replicate (3 + (← bits 3)) 0 ++ taken)
      else wordLengths lengths wanted rounds (List.replicate (11 + (← bits 7)) 0 ++ taken)

/-- The largest numbers of words in a code of bytes and lengths, and in one of distances. -/
def maxCounts : Nat × Nat := (286, 30)

/-- The codes that stand in front of a block. -/
def codes : Inflate (PrefixCode × PrefixCode) := do
  let literalCount := 257 + (← bits 5)
  let distanceCount := 1 + (← bits 5)
  let orderCount := 4 + (← bits 4)
  if literalCount > maxCounts.1 || distanceCount > maxCounts.2 then failure
  let given ← (List.replicate orderCount ()).mapM fun _ => bits 3
  let ordered := lengthOrder.zip given
  let lengths ← code ((List.range 19).map fun symbol => (ordered.lookup symbol).getD 0)
  let wanted := literalCount + distanceCount
  let taken := (← wordLengths lengths wanted wanted []).reverse
  if taken.length ≠ wanted then failure
  return (← code (taken.take literalCount), ← code (taken.drop literalCount))

/-- Blocks up to the one that says it is the last.  Each round takes a bit. -/
def blocks : Nat → Inflate Unit
  | 0 => failure
  | rounds + 1 => do
    let last ← bit
    match ← bits 2 with
    | 0 => stored
    | 1 => compressed (← code fixedLiterals) (← code fixedDistances) rounds
    | 2 =>
      let (literals, distances) ← codes
      compressed literals distances rounds
    | _ => failure
    if last = 1 then return () else blocks rounds

end Inflate

/-- Decompresses data; nothing when it is damaged. -/
def inflate? (data : Bytes) : Option Bytes :=
  ((Inflate.blocks (8 * data.length + 1)).run ⟨0, data, #[]⟩).map fun (_, progress) =>
    progress.output.toList

end JarFacts.Deflate
