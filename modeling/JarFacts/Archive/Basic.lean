import JarFacts.Archive.Directory
import JarFacts.Archive.Inflate

/-!
# Zip archives

The directory of an archive has a header for each entry, which says where the entry's own header is;
behind that is its data.
-/

namespace JarFacts

/-- An entry of an archive. -/
structure ArchiveEntry where
  name : String
  /-- Is it a file, and not a directory or a link? -/
  isFile : Bool
  /-- Can it be opened?  It must not be encrypted, its compression known, and its own header in
  place. -/
  opens : Bool
  /-- Its content; nothing when its data is damaged. -/
  content : Unit → Option Bytes

namespace Archive

/-- Where the data of an entry starts: behind the entry's own header, of which only the lengths are
used. -/
def dataStart? (data : Data) (header : Header) : Option Nat := do
  let record ← record? data .entryHeader header.position
  return header.position + Signature.entryHeader.length + record.number 26 2 + record.number 28 2

/-- The content of an entry whose data starts at a position. -/
def content? (data : Data) (header : Header) (start : Nat) : Option Bytes := do
  let raw := (data.extract start (start + header.compressedSize)).toList
  let content ← match header.method with
    | .stored => some raw
    | .deflated => Deflate.inflate? raw
    | .other | .unknown => none
  guard ((Crc32.checksum content).toNat = header.checksum)
  return content

/-- The entry of a header. -/
def entry (data : Data) (header : Header) : ArchiveEntry :=
  let start := dataStart? data header
  { name := header.name
    isFile := header.isFile
    opens := !header.isEncrypted && start.isSome && header.method ≠ .unknown
    content := fun _ => start.bind (content? data header) }

/-- The entries of an archive in the order of its directory; nothing when the bytes are no
archive. -/
def entries? (bytes : Bytes) : Option (List ArchiveEntry) :=
  let data : Data := bytes.toArray
  (directoryBefore? data data.size).map fun headers =>
    (headers.foldl insertHeader []).map (entry data)

end Archive

end JarFacts
