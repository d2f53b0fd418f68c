import JarFacts.Archive.Crc32
import JarFacts.Archive.Record
import JarFacts.Bytes.Utf8

/-!
# Extra fields

The header of an entry in the directory may carry extra fields: each has a kind, a length and
content.  Some kinds change what the header says of its entry: they give numbers that are too large
for it, another name or another comment, or say how the entry is encrypted.  Other kinds do not
matter.

The fields are read one behind the other.  A field that goes on behind the last byte ends the
reading, and what was read until then counts.  A field that contradicts itself is another matter:
the archive cannot be read.
-/

namespace JarFacts.Archive

/-- What extra fields can change of what a header says. -/
structure Particulars where
  /-- The name as it stands in the header. -/
  nameBytes : Bytes
  name : String
  comment : String
  size : Nat
  compressedSize : Nat
  /-- Where the entry's own header is. -/
  position : Nat
  /-- The number of the compression. -/
  method : Nat
  /-- Is it encrypted in the way that takes a field of its own? -/
  isSealed : Bool

/-- The number that stands for one that is given elsewhere. -/
def elsewhere : Nat := 0xFFFFFFFF

/-- Why the reading of extra fields ends early. -/
inductive ExtraStop where
  /-- There are no more bytes. -/
  | short
  /-- A field contradicts itself. -/
  | refused
  deriving DecidableEq

/-- How far the reading of extra fields has come: the bytes that are left, and what is known of the
entry. -/
structure ExtraProgress where
  rest : Bytes
  known : Particulars

/-- A step of reading extra fields.  What is known of the entry outlives a stop. -/
abbrev ExtraReader := ExceptT ExtraStop (StateM ExtraProgress)

namespace ExtraReader

/-! ## Steps -/

/-- Takes so many bytes. -/
def take (count : Nat) : ExtraReader Bytes := do
  let progress ← get
  if progress.rest.length < count then throw .short
  else
    set { progress with rest := progress.rest.drop count }
    return progress.rest.take count

/-- Passes over so many bytes. -/
def skip (count : Nat) : ExtraReader Unit := do
  let _ ← take count

/-- Takes a number of so many bytes. -/
def number (width : Nat) : ExtraReader Nat := do
  return Bytes.littleEndian (← take width)

/-- Changes what is known of the entry. -/
def amend (change : Particulars → Particulars) : ExtraReader Unit :=
  modify fun progress => { progress with known := change progress.known }

/-- Refuses what does not fit together. -/
def require (condition : Bool) : ExtraReader Unit :=
  if condition then return () else throw .refused

/-- The text of bytes that have to be UTF-8. -/
def text (bytes : Bytes) : ExtraReader String :=
  match Utf8.decodeString? bytes with
  | some text => return text
  | none => throw .refused

/-! ## Kinds of fields -/

/-- Takes a number of eight bytes if it is needed.  Says how many bytes that were. -/
def wideNumber (needed : Bool) (change : Nat → Particulars → Particulars) : ExtraReader Nat := do
  if needed then
    amend (change (← number 8))
    return 8
  else return 0

/-- Numbers that are too large for the header: those of which it says that they stand elsewhere, or
all of them if the field has room for all. -/
def wideNumbers (length : Nat) : ExtraReader Unit := do
  let given := (← get).known
  let all : Bool := length ≥ 24
  let size ← wideNumber (all || given.size = elsewhere) fun n known => { known with size := n }
  let compressed ← wideNumber (all || given.compressedSize = elsewhere) fun n known =>
    { known with compressedSize := n }
  let position ← wideNumber (all || given.position = elsewhere)
    fun n known => { known with position := n }
  let used := size + compressed + position
  require (used ≤ length)
  skip (length - used)

/-- Three times in one attribute, of a field that has just that. -/
def fileTimes (length : Nat) : ExtraReader Unit := do
  require (length = 32)
  skip 4
  require ((← number 2) = 1)
  require ((← number 2) = 24)
  skip 24

/-- Up to three times, one for each bit of a byte that is set.  A field with room for one has one,
whichever bits are set. -/
def optionalTimes (length : Nat) : ExtraReader Unit := do
  let bits ← number 1
  let given := ((List.range 3).filter bits.testBit).length
  require (bits < 8 && (length = 5 || length = 1 + 4 * given))
  skip (length - 1)

/-- How the entry is encrypted, and how it was compressed before that. -/
def encryption (length : Nat) : ExtraReader Unit := do
  require (length = 7)
  let version ← number 2
  let vendor ← number 2
  let strength ← number 1
  let method ← number 2
  require (vendor = 0x4541 && (version = 1 || version = 2) && 1 ≤ strength && strength ≤ 3)
  amend fun known => { known with isSealed := true, method := method }

/-- A text in place of another one, which is known by its checksum. -/
def otherText (length : Nat) (replaced : Bytes) : ExtraReader Bytes := do
  skip 1
  let checksum ← number 4
  require (5 ≤ length)
  let content ← take (length - 5)
  require ((Crc32.checksum replaced).toNat = checksum)
  return content

/-- Another comment. -/
def otherComment (length : Nat) : ExtraReader Unit := do
  let comment ← text (← otherText length (Utf8.encodeString (← get).known.comment))
  amend fun known => { known with comment := comment }

/-- Another name. -/
def otherName (length : Nat) : ExtraReader Unit := do
  let nameBytes ← otherText length (← get).known.nameBytes
  let name ← text nameBytes
  amend fun known => { known with nameBytes := nameBytes, name := name }

/-- A field. -/
def field : ExtraReader Unit := do
  let kind ← number 2
  let length ← number 2
  if kind = 0x0001 then wideNumbers length
  else if kind = 0x000A then fileTimes length
  else if kind = 0x5455 then optionalTimes length
  else if kind = 0x6375 then otherComment length
  else if kind = 0x7075 then otherName length
  else if kind = 0x9901 then encryption length
  else skip length

/-- Fields up to the last byte.  Each round takes a field. -/
def fields : Nat → ExtraReader Unit
  | 0 => return ()
  | rounds + 1 => do
    if (← get).rest.isEmpty then return ()
    else
      field
      fields rounds

end ExtraReader

/-- What is known of an entry with its extra fields; nothing if one of them cannot be. -/
def Particulars.extend? (given : Particulars) (extra : Bytes) : Option Particulars :=
  match (ExtraReader.fields extra.length).run.run ⟨extra, given⟩ with
  | (.error .refused, _) => none
  | (.error .short, progress) | (.ok (), progress) => some progress.known

end JarFacts.Archive
