/-!
# Byte strings

Binary formats are read from `List UInt8`, so that what a reader leaves unread is literally the tail
of what it was given.  This file holds the numbers built from bytes and the hexadecimal text of a
byte string.
-/

namespace JarFacts

/-- A byte string. -/
abbrev Bytes := List UInt8

namespace Bytes

/-- The number whose base-256 digits are the bytes, most significant first. -/
def bigEndian (bytes : Bytes) : Nat :=
  bytes.foldl (fun acc b => acc * 256 + b.toNat) 0

/-- The number whose base-256 digits are the bytes, least significant first. -/
def littleEndian : Bytes → Nat
  | [] => 0
  | b :: rest => b.toNat + 256 * littleEndian rest

/-- The two's complement reading of a 32-bit word. -/
def signed32 (word : Nat) : Int :=
  if word < 0x80000000 then word else (word : Int) - 0x100000000

/-- The two's complement reading of a 64-bit word. -/
def signed64 (word : Nat) : Int :=
  if word < 0x8000000000000000 then word else (word : Int) - 0x10000000000000000

/-- The hexadecimal digit of a value below sixteen, in lower case. -/
def hexDigit (n : Nat) : Char :=
  if n < 10 then Char.ofNat ('0'.toNat + n) else Char.ofNat ('a'.toNat + (n - 10))

/-- A value of at most `width` hexadecimal digits, padded with zeros on the left. -/
def hexNumber : (width : Nat) → Nat → List Char
  | 0, _ => []
  | width + 1, n => hexNumber width (n / 16) ++ [hexDigit (n % 16)]

/-- Two lower-case digits for each byte. -/
def hex (bytes : Bytes) : String :=
  String.ofList (bytes.flatMap fun b => hexNumber 2 b.toNat)

/-- The value of a hexadecimal digit of either case. -/
def hexValue? (c : Char) : Option Nat :=
  if '0' ≤ c ∧ c ≤ '9' then some (c.toNat - '0'.toNat)
  else if 'a' ≤ c ∧ c ≤ 'f' then some (c.toNat - 'a'.toNat + 10)
  else if 'A' ≤ c ∧ c ≤ 'F' then some (c.toNat - 'A'.toNat + 10)
  else none

/-- The bytes spelled by pairs of hexadecimal digits. -/
def ofHexDigits? : List Char → Option Bytes
  | [] => some []
  | [_] => none
  | high :: low :: rest => do
    let h ← hexValue? high
    let l ← hexValue? low
    let tail ← ofHexDigits? rest
    return UInt8.ofNat (h * 16 + l) :: tail

/-- The bytes spelled by a hexadecimal text. -/
def ofHex? (text : String) : Option Bytes :=
  ofHexDigits? text.toList

end Bytes

end JarFacts
