import JarFacts.Bytes.Utf8

/-!
# Names of archive entries

Names are in UTF-8 if the entry says so, and otherwise in code page 437, which agrees with ASCII as
far as that goes.  In UTF-8, what is no text is replaced: each longest beginning of a character
gives one replacement character.
-/

namespace JarFacts.EntryText

/-- The upper half of code page 437. -/
def upperHalf : List Char :=
  ("ÇüéâäàåçêëèïîìÄÅÉæÆôöòûùÿÖÜ¢£¥₧ƒ" ++
    "áíóúñÑªº¿⌐¬½¼¡«»░▒▓│┤╡╢╖╕╣║╗╝╜╛┐" ++
    "└┴┬├─┼╞╟╚╔╩╦╠═╬╧╨╤╥╙╘╒╓╫╪┘┌█▄▌▐▀" ++
    "αßΓπΣσµτΦΘΩδ∞φε∩≡±≥≤⌠⌡÷≈°∙·√ⁿ²■ ").toList

/-- A character of code page 437. -/
def pageChar (byte : UInt8) : Char :=
  if byte < 0x80 then Char.ofNat byte.toNat else upperHalf.getD (byte.toNat - 0x80) ' '

/-- A text in code page 437. -/
def ofPage (bytes : Bytes) : String :=
  String.ofList (bytes.map pageChar)

/-- What stands for bytes that are no text. -/
def replacement : Char := Char.ofNat 0xFFFD

/-- Can the byte follow a lead byte?  Which ones can right behind it depends on the lead byte. -/
def canFollow (lead : UInt8) (first : Bool) (byte : UInt8) : Bool :=
  let low : UInt8 := if first && lead = 0xE0 then 0xA0
    else if first && lead = 0xF0 then 0x90 else 0x80
  let high : UInt8 := if first && lead = 0xED then 0x9F
    else if first && lead = 0xF4 then 0x8F else 0xBF
  low ≤ byte && byte ≤ high

/-- How many bytes follow a lead byte; nothing if it is none. -/
def followers? (lead : UInt8) : Option Nat :=
  if lead < 0x80 then some 0
  else if 0xC2 ≤ lead && lead ≤ 0xDF then some 1
  else if 0xE0 ≤ lead && lead ≤ 0xEF then some 2
  else if 0xF0 ≤ lead && lead ≤ 0xF4 then some 3
  else none

/-- A character in the making: what has been taken of it and how many bytes are missing. -/
structure Partial where
  taken : Bytes
  missing : Nat

/-- Starts a character with a byte. -/
def start (text : List Char) (byte : UInt8) : List Char × Option Partial :=
  match followers? byte with
  | none => (replacement :: text, none)
  | some 0 => (Char.ofNat byte.toNat :: text, none)
  | some missing => (text, some ⟨[byte], missing⟩)

/-- Takes a byte.  The text is kept last character first. -/
def step (state : List Char × Option Partial) (byte : UInt8) : List Char × Option Partial :=
  match state with
  | (text, none) => start text byte
  | (text, some part) =>
    if canFollow (part.taken.headD 0) (part.taken.length = 1) byte then
      let taken := part.taken ++ [byte]
      if part.missing = 1 then ((Utf8.readGroup? taken).getD replacement :: text, none)
      else (text, some ⟨taken, part.missing - 1⟩)
    else start (replacement :: text) byte

/-- A text in UTF-8. -/
def ofUtf8 (bytes : Bytes) : String :=
  let (text, part) := bytes.foldl step ([], none)
  String.ofList (if part.isSome then replacement :: text else text).reverse

end JarFacts.EntryText
