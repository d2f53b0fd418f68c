import JarFacts.Bytes.Utf8

/-!
# Modified UTF-8

The constant pool spells text in a form of UTF-8 in which the zero character takes two bytes and a
supplementary character is spelled as its two surrogates, three bytes each.  Reading first takes the
bytes as plain UTF-8; failing that, it assembles UTF-16 code units of one, two or three bytes and
pairs the surrogates. `encode` is the spelling the format prescribes.
-/

namespace JarFacts.Utf16

/-- The code units of one character: itself, or a high and a low surrogate. -/
def encodeChar (c : Char) : List Nat :=
  let v := c.toNat
  if v < 0x10000 then [v]
  else [0xD800 + (v - 0x10000) / 0x400, 0xDC00 + (v - 0x10000) % 0x400]

/-- Is the code unit the first half of a surrogate pair? -/
def isHigh (unit : Nat) : Bool :=
  0xD800 ≤ unit && unit < 0xDC00

/-- Is the code unit the second half of a surrogate pair? -/
def isLow (unit : Nat) : Bool :=
  0xDC00 ≤ unit && unit < 0xE000

/-- The text spelled by the code units; a surrogate outside a pair spells nothing. -/
def decode? : List Nat → Option (List Char)
  | [] => some []
  | u :: rest =>
    if isHigh u then
      match rest with
      | w :: rest =>
        if isLow w then
          (decode? rest).map (Char.ofNat (0x10000 + (u - 0xD800) * 0x400 + (w - 0xDC00)) :: ·)
        else none
      | [] => none
    else if isLow u then none
    else (decode? rest).map (Char.ofNat u :: ·)

end JarFacts.Utf16

namespace JarFacts.ModifiedUtf8

/-- One code unit in one to three bytes; zero takes two. -/
def encodeUnit (unit : Nat) : Bytes :=
  if unit ≠ 0 ∧ unit < 0x80 then [UInt8.ofNat unit]
  else if unit < 0x800 then [UInt8.ofNat (0xC0 + unit / 64), UInt8.ofNat (0x80 + unit % 64)]
  else [UInt8.ofNat (0xE0 + unit / 4096), UInt8.ofNat (0x80 + unit / 64 % 64),
    UInt8.ofNat (0x80 + unit % 64)]

/-- The prescribed spelling of a text. -/
def encode (text : List Char) : Bytes :=
  text.flatMap fun c => (Utf16.encodeChar c).flatMap encodeUnit

/-- The code units spelled by the bytes.  The lead byte alone decides how many bytes follow, and of
those only the low six bits count. -/
def units? : Bytes → Option (List Nat)
  | [] => some []
  | b :: r =>
    if b < 0x80 then (units? r).map (b.toNat :: ·)
    else if 0xC0 ≤ b ∧ b < 0xE0 then
      match r with
      | c :: r => (units? r).map ((b.toNat % 32 * 64 + c.toNat % 64) :: ·)
      | [] => none
    else if 0xE0 ≤ b ∧ b < 0xF0 then
      match r with
      | c :: d :: r =>
          (units? r).map ((b.toNat % 16 * 4096 + c.toNat % 64 * 64 + d.toNat % 64) :: ·)
      | _ => none
    else none

/-- The text of a pool entry. -/
def decode? (bytes : Bytes) : Option (List Char) :=
  match Utf8.decode? bytes with
  | some text => some text
  | none => (units? bytes).bind Utf16.decode?

end JarFacts.ModifiedUtf8
