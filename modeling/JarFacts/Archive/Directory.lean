import JarFacts.Archive.Header

/-!
# The directory of an archive

An archive is read from its end.  The *end record* says how many entries there are and where the
directory is.  What is too large for it stands in a *wide* end record, and a locator between the two
says where that one is.

Something may stand in front of an archive.  Positions then count from the start of the file or from
the start of the archive; how far they are off shows when the directory, or the wide end record, is
looked for, from the position given for it onwards.  Something may stand behind an archive as well:
of all that looks like an end record, the last one counts that leads to a directory.
-/

namespace JarFacts.Archive

/-- The directory as the end record at a position gives it by itself. -/
def narrowDirectory? (data : Data) (position : Nat) (record : Record) : Option Directory := do
  let start := record.number 16 4
  let shift ←
    if record.number 10 2 = 0 then some (position - start)
    else if position ≤ start then none
    else (findFrom? (startsAt data .directoryHeader) (position - start) start).map (· - start)
  guard (record.number 4 2 = record.number 6 2)
  return { start := start + shift, count := record.number 8 2, shift }

/-- Does the locator at a position lead to the wide end record at another one?  Then the record
reaches up to the locator, names the same disk, and has room for the directory in front of it. -/
def isLocated (data : Data) (locatorPosition : Nat) (locator : Record) (position : Nat) : Bool :=
  match record? data .wideEndRecord position with
  | none => false
  | some record =>
    let length := record.number 4 8 + 12
    Signature.wideEndRecord.length ≤ length && length = locatorPosition - position &&
      record.number 20 4 = locator.number 4 4 &&
      record.number 32 8 * Signature.directoryHeader.length + record.number 48 8 ≤ position

/-- The directory as the wide end record gives it to which the locator at a position leads. -/
def wideDirectory? (data : Data) (locatorPosition : Nat) (locator : Record) : Option Directory := do
  let given := locator.number 8 8
  guard (given < locatorPosition && locator.number 16 4 ≤ 1)
  let position ← findFrom? (isLocated data locatorPosition locator) (locatorPosition - given) given
  let record ← record? data .wideEndRecord position
  guard (record.number 24 8 ≤ record.number 32 8)
  guard (record.number 14 2 ≤ record.number 12 2)
  guard (record.number 16 4 = record.number 20 4)
  let shift := position - given
  return { start := record.number 48 8 + shift, count := record.number 32 8, shift }

/-- The locator in front of the end record at a position and where it is, if there is one. -/
def locator? (data : Data) (position : Nat) : Option (Record × Nat) := do
  guard (Signature.wideLocator.length ≤ position)
  let locatorPosition := position - Signature.wideLocator.length
  return (← record? data .wideLocator locatorPosition, locatorPosition)

/-- Can it be that there is a wide end record?  Then the end record has the largest numbers that
fit. -/
def mayBeWide (record : Record) : Bool :=
  record.number 10 2 = 0xFFFF || record.number 16 4 = elsewhere

/-- The headers of the directory that the end record at a position leads to. -/
def directory? (data : Data) (position : Nat) : Option (List Header) := do
  let record ← record? data .endRecord position
  guard (position + Signature.endRecord.length + record.number 20 2 ≤ data.size)
  let locator := if mayBeWide record then locator? data position else none
  let directory ← match locator with
    | some (locator, locatorPosition) => wideDirectory? data locatorPosition locator
    | none => narrowDirectory? data position record
  headers? data directory directory.count directory.start

/-- The headers of the directory, by the last end record in front of a position that leads to
one. -/
def directoryBefore? (data : Data) : Nat → Option (List Header)
  | 0 => none
  | position + 1 =>
    match directory? data position with
    | some headers => some headers
    | none => directoryBefore? data position

end JarFacts.Archive
