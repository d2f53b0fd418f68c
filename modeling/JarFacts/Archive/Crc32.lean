import JarFacts.Bytes.Basic

/-!
# CRC-32

The checksum of archives: the remainder of a division of polynomials over two elements, taken bit by
bit with the lowest bit of each byte first.
-/

namespace JarFacts.Crc32

/-- The divisor, its highest coefficient left out and the others in reverse. -/
def polynomial : UInt32 := 0xEDB88320

/-- Takes a bit. -/
def step (remainder : UInt32) : UInt32 :=
  if remainder &&& 1 = 1 then (remainder >>> 1) ^^^ polynomial else remainder >>> 1

/-- Takes a byte. -/
def update (remainder : UInt32) (byte : UInt8) : UInt32 :=
  step <| step <| step <| step <| step <| step <| step <| step <| remainder ^^^ byte.toUInt32

/-- The checksum of bytes. -/
def checksum (bytes : Bytes) : UInt32 :=
  bytes.foldl update 0xFFFFFFFF ^^^ 0xFFFFFFFF

end JarFacts.Crc32
