import JarFacts.Bytes.Basic

/-!
# UTF-8

Text and bytes.  Encoding is the usual table by size of the scalar value.  Decoding reads the width
off the lead byte, assembles the payload bits and accepts the character exactly when encoding it
gives back the bytes just read; overlong forms, surrogates, stray and missing continuation bytes all
fail that one test.
-/

namespace JarFacts.Utf8

/-- One to four bytes, by the size of the scalar value. -/
def encodeChar (c : Char) : Bytes :=
  let v := c.toNat
  if v < 0x80 then [UInt8.ofNat v]
  else if v < 0x800 then [UInt8.ofNat (0xC0 + v / 64), UInt8.ofNat (0x80 + v % 64)]
  else if v < 0x10000 then
    [UInt8.ofNat (0xE0 + v / 4096), UInt8.ofNat (0x80 + v / 64 % 64), UInt8.ofNat (0x80 + v % 64)]
  else
    [UInt8.ofNat (0xF0 + v / 262144), UInt8.ofNat (0x80 + v / 4096 % 64),
      UInt8.ofNat (0x80 + v / 64 % 64), UInt8.ofNat (0x80 + v % 64)]

/-- The characters' bytes one after the other. -/
def encode (text : List Char) : Bytes :=
  text.flatMap encodeChar

/-- The number of bytes the text takes. -/
def byteLength (text : List Char) : Nat :=
  (encode text).length

/-- How many bytes a character with this lead byte takes. -/
def width (lead : UInt8) : Nat :=
  if lead < 0x80 then 1 else if lead < 0xE0 then 2 else if lead < 0xF0 then 3 else 4

/-- The scalar value carried by the payload bits of a lead byte and its continuation bytes. -/
def payload : Bytes → Nat
  | [] => 0
  | lead :: rest =>
    let high := match width lead with
      | 1 => lead.toNat
      | 2 => lead.toNat % 32
      | 3 => lead.toNat % 16
      | _ => lead.toNat % 8
    rest.foldl (fun acc b => acc * 64 + b.toNat % 64) high

/-- The character that `group` is the encoding of. -/
def readGroup? (group : Bytes) : Option Char :=
  let c := Char.ofNat (payload group)
  if encodeChar c = group then some c else none

/-- The text that `bytes` is the encoding of. -/
def decode? : Bytes → Option (List Char)
  | [] => some []
  | b :: r =>
    match width b with
    | 1 => do return (← readGroup? [b]) :: (← decode? r)
    | 2 =>
      match r with
      | c :: r => do return (← readGroup? [b, c]) :: (← decode? r)
      | _ => none
    | 3 =>
      match r with
      | c :: d :: r => do return (← readGroup? [b, c, d]) :: (← decode? r)
      | _ => none
    | _ =>
      match r with
      | c :: d :: e :: r => do return (← readGroup? [b, c, d, e]) :: (← decode? r)
      | _ => none

/-- The text of a byte string as a `String`. -/
def decodeString? (bytes : Bytes) : Option String :=
  (decode? bytes).map String.ofList

/-- The bytes of a `String`. -/
def encodeString (text : String) : Bytes :=
  encode text.toList

end JarFacts.Utf8
