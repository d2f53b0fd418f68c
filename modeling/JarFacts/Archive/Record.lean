import JarFacts.Bytes.Basic

/-!
# Records of an archive

An archive is made of records.  Each starts with a signature that says what kind of record it is,
and has a part of fixed length with numbers in it, lowest byte first; texts of given lengths may
follow.
-/

namespace JarFacts.Archive

/-- The bytes of a file. -/
abbrev Data := Array UInt8

/-- So many bytes from a position on, if there are. -/
def slice? (data : Data) (position length : Nat) : Option Bytes :=
  if position + length ≤ data.size then some (data.extract position (position + length)).toList
  else none

/-- The kinds of records. -/
inductive Signature where
  /-- In front of the data of an entry. -/
  | entryHeader
  /-- In the directory, for each entry. -/
  | directoryHeader
  /-- At the end, for the archive as a whole. -/
  | endRecord
  /-- In front of the end record and its locator, with room for larger numbers. -/
  | wideEndRecord
  /-- Right in front of the end record; says where the wide one is. -/
  | wideLocator
  deriving DecidableEq

/-- What a record of the kind starts with. -/
def Signature.number : Signature → Nat
  | entryHeader => 0x04034B50
  | directoryHeader => 0x02014B50
  | endRecord => 0x06054B50
  | wideEndRecord => 0x06064B50
  | wideLocator => 0x07064B50

/-- How many bytes the fixed part has, the signature among them. -/
def Signature.length : Signature → Nat
  | entryHeader => 30
  | directoryHeader => 46
  | endRecord => 22
  | wideEndRecord => 56
  | wideLocator => 20

/-- The fixed part of a record. -/
structure Record where
  bytes : Bytes

/-- The number at an offset, of so many bytes. -/
def Record.number (record : Record) (offset width : Nat) : Nat :=
  Bytes.littleEndian ((record.bytes.drop offset).take width)

/-- Does a position hold the signature of a kind? -/
def startsAt (data : Data) (kind : Signature) (position : Nat) : Bool :=
  (slice? data position 4).map Bytes.littleEndian = some kind.number

/-- The record of a kind at a position, if there is one. -/
def record? (data : Data) (kind : Signature) (position : Nat) : Option Record := do
  guard (startsAt data kind position)
  return ⟨← slice? data position kind.length⟩

/-- The first position from `start` on, among so many, that is accepted. -/
def findFrom? (accepts : Nat → Bool) : (count start : Nat) → Option Nat
  | 0, _ => none
  | count + 1, start => if accepts start then some start else findFrom? accepts count (start + 1)

end JarFacts.Archive
