import JarFacts.Archive.EntryText
import JarFacts.Archive.Extra

/-!
# Headers of the directory

The directory of an archive has a header for each entry: its name, what kind of file it is, how it
is compressed, and where it starts.
-/

namespace JarFacts.Archive

/-- How an entry is compressed. -/
inductive Method where
  | stored
  | deflated
  /-- Known by name; its data is never read. -/
  | other
  | unknown
  deriving DecidableEq

/-- The method by its number. -/
def Method.ofNumber (number : Nat) : Method :=
  if number = 0 then .stored
  else if number = 8 then .deflated
  else if [9, 12, 14, 93, 95].contains number then .other
  else .unknown

/-- The method that says only that an entry is encrypted.  How it was compressed is in an extra
field. -/
def sealedMethod : Nat := 99

/-- The header of an entry in the directory. -/
structure Header where
  name : String
  isFile : Bool
  isEncrypted : Bool
  method : Method
  checksum : Nat
  compressedSize : Nat
  /-- Where the entry's own header is. -/
  position : Nat

/-- Is the mode of a file one of a link? -/
def isLinkMode (mode : Nat) : Bool :=
  mode &&& 0o120000 = 0o120000

/-- Where a directory is, how many headers it has, and how far positions are off in it. -/
structure Directory where
  start : Nat
  count : Nat
  shift : Nat

/-- Reads a header of a directory: the header, and where the next one is.  An entry starts in front
of the directory. -/
def header? (data : Data) (directory : Directory) (position : Nat) : Option (Header × Nat) := do
  let record ← record? data .directoryHeader position
  let nameLength := record.number 28 2
  let extraLength := record.number 30 2
  let commentLength := record.number 32 2
  let nameStart := position + Signature.directoryHeader.length
  let nameBytes ← slice? data nameStart nameLength
  let extra ← slice? data (nameStart + nameLength) extraLength
  let commentBytes ← slice? data (nameStart + nameLength + extraLength) commentLength
  let flags := record.number 8 2
  let text := if flags.testBit 11 then EntryText.ofUtf8 else EntryText.ofPage
  let given : Particulars := {
    nameBytes
    name := text nameBytes
    comment := text commentBytes
    size := record.number 24 4
    compressedSize := record.number 20 4
    position := record.number 42 4
    method := record.number 10 2
    isSealed := false }
  let known ← given.extend? extra
  guard (known.method ≠ sealedMethod || known.isSealed)
  guard (known.position + directory.shift < directory.start)
  let isDirectory := known.name.toList.getLast?.any fun c => c = '/' || c = '\\'
  let isLink := record.number 5 1 = 3 && isLinkMode (record.number 40 2)
  let header : Header := {
    name := known.name
    isFile := !isDirectory && !isLink
    isEncrypted := flags.testBit 0 || known.isSealed
    method := .ofNumber known.method
    checksum := record.number 16 4
    compressedSize := known.compressedSize
    position := known.position + directory.shift }
  return (header, nameStart + nameLength + extraLength + commentLength)

/-- Reads so many headers of a directory that follow each other. -/
def headers? (data : Data) (directory : Directory) : (count position : Nat) → Option (List Header)
  | 0, _ => some []
  | count + 1, position => do
    let (header, next) ← header? data directory position
    return header :: (← headers? data directory count next)

/-- Headers by name.  A name that stands twice keeps its first place and has what was said last. -/
def insertHeader (headers : List Header) (header : Header) : List Header :=
  if headers.any fun earlier => earlier.name = header.name then
    headers.map fun earlier => if earlier.name = header.name then header else earlier
  else headers ++ [header]

end JarFacts.Archive
