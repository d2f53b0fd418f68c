import JarFacts.Bytes.ModifiedUtf8
import JarFacts.Json.Value
import JarFacts.Text.Digits

/-!
# Reading JSON

The grammar of JSON texts, with nothing added.  A step returns what is left behind the value it
read.  Every round of `value` consumes a character, so that as many rounds as there are characters
suffice.
-/

namespace JarFacts.Json

/-- A step of reading: a value and what is left, or nothing. -/
abbrev Step (α : Type) := List Char → Option (α × List Char)

/-- Is the character a blank of the grammar? -/
def isSpace (c : Char) : Bool :=
  c = ' ' || c = '\n' || c = '\t' || c = '\r'

/-- What is left behind the blanks. -/
def skipSpaces (text : List Char) : List Char :=
  text.dropWhile isSpace

/-- What is left behind a given word. -/
def keyword (word : List Char) (text : List Char) : Option (List Char) :=
  if word.isPrefixOf text then some (text.drop word.length) else none

/-! ## Strings -/

/-- The code unit spelled by four hexadecimal digits. -/
def hexUnit? (a b c d : Char) : Option Nat := do
  let a ← Bytes.hexValue? a
  let b ← Bytes.hexValue? b
  let c ← Bytes.hexValue? c
  let d ← Bytes.hexValue? d
  return ((a * 16 + b) * 16 + c) * 16 + d

/-- The character behind a backslash, other than `u`. -/
def escaped? (c : Char) : Option Char :=
  match c with
  | '"' => some '"'
  | '\\' => some '\\'
  | '/' => some '/'
  | 'b' => some (Char.ofNat 0x08)
  | 'f' => some (Char.ofNat 0x0C)
  | 'n' => some '\n'
  | 'r' => some '\r'
  | 't' => some '\t'
  | _ => none

/-- The UTF-16 code units of a string literal behind its opening quote, last first, added to
`units`. -/
def stringUnits (units : List Nat) : Step (List Nat)
  | [] => none
  | '"' :: rest => some (units, rest)
  | '\\' :: 'u' :: a :: b :: c :: d :: rest =>
    match hexUnit? a b c d with
    | some unit => stringUnits (unit :: units) rest
    | none => none
  | '\\' :: c :: rest =>
    match escaped? c with
    | some c => stringUnits (c.toNat :: units) rest
    | none => none
  | c :: rest =>
    if c.toNat < 0x20 then none else stringUnits ((Utf16.encodeChar c).reverse ++ units) rest

/-- The text of a string literal behind its opening quote; nothing inside when no text is
spelled. -/
def stringBody : Step (Option String) := fun text => do
  let (units, rest) ← stringUnits [] text
  return ((Utf16.decode? units.reverse).map String.ofList, rest)

/-! ## Numbers -/

/-- One digit or more. -/
def digits : Step (List Char) := fun text =>
  let (taken, rest) := text.span Text.isDigit
  if taken.isEmpty then none else some (taken, rest)

/-- The digits before the point: no zero stands in front of others. -/
def wholeDigits : Step (List Char)
  | '0' :: rest => some (['0'], rest)
  | text => digits text

/-- The fraction, as spelled. -/
def fraction : Step (List Char)
  | '.' :: rest => do
    let (taken, rest) ← digits rest
    return ('.' :: taken, rest)
  | text => some ([], text)

/-- The sign of an exponent, as spelled. -/
def exponentSign : List Char → List Char × List Char
  | '+' :: rest => (['+'], rest)
  | '-' :: rest => (['-'], rest)
  | text => ([], text)

/-- The exponent, as spelled. -/
def exponent (text : List Char) : Option (List Char × List Char) :=
  match text with
  | c :: rest =>
    if c = 'e' ∨ c = 'E' then do
      let (sign, rest) := exponentSign rest
      let (taken, rest) ← digits rest
      return (c :: (sign ++ taken), rest)
    else some ([], text)
  | [] => some ([], [])

/-- A number.  A negative zero is no integer. -/
def number : Step Json := fun text => do
  let (negative, text) := match text with
    | '-' :: rest => (true, rest)
    | all => (false, all)
  let (whole, text) ← wholeDigits text
  let (fractional, text) ← fraction text
  let (scale, text) ← exponent text
  let value := Text.digitsValue whole
  if fractional.isEmpty && scale.isEmpty && !(negative && value == 0) then
    return (.int (if negative then -(value : Int) else value), text)
  else
    let sign := if negative then ['-'] else []
    return (.decimal (String.ofList (sign ++ whole ++ fractional ++ scale)), text)

/-! ## Values -/

mutual

/-- A value, with blanks in front. -/
def value : (rounds : Nat) → Step Json
  | 0, _ => none
  | rounds + 1, text =>
    match skipSpaces text with
    | '"' :: rest =>
      match stringBody rest with
      | some (some text, rest) => some (.string text, rest)
      | some (none, rest) => some (.unreadable, rest)
      | none => none
    | '[' :: rest =>
      match skipSpaces rest with
      | ']' :: rest => some (.array [], rest)
      | rest =>
        match items rounds rest with
        | some (list, rest) => some (.array list, rest)
        | none => none
    | '\x7b' :: rest =>
      match skipSpaces rest with
      | '\x7d' :: rest => some (.object [], rest)
      | rest =>
        match members rounds rest with
        | some (some list, rest) => some (.object list, rest)
        | some (none, rest) => some (.unreadable, rest)
        | none => none
    | text =>
      match keyword "null".toList text, keyword "true".toList text, keyword "false".toList text with
      | some rest, _, _ => some (.null, rest)
      | _, some rest, _ => some (.bool true, rest)
      | _, _, some rest => some (.bool false, rest)
      | none, none, none => number text

/-- One item or more, and the closing bracket. -/
def items : (rounds : Nat) → Step (List Json)
  | 0, _ => none
  | rounds + 1, text =>
    match value rounds text with
    | none => none
    | some (first, rest) =>
      match skipSpaces rest with
      | ']' :: rest => some ([first], rest)
      | ',' :: rest =>
        match items rounds rest with
        | some (others, rest) => some (first :: others, rest)
        | none => none
      | _ => none

/-- One member or more, and the closing brace; nothing inside when the name of one spells no
text. -/
def members : (rounds : Nat) → Step (Option (List (String × Json)))
  | 0, _ => none
  | rounds + 1, text =>
    match skipSpaces text with
    | '"' :: rest =>
      match stringBody rest with
      | none => none
      | some (name, rest) =>
        match skipSpaces rest with
        | ':' :: rest =>
          match value rounds rest with
          | none => none
          | some (first, rest) =>
            let member := name.map (·, first)
            match skipSpaces rest with
            | '\x7d' :: rest => some (member.map ([·]), rest)
            | ',' :: rest =>
              match members rounds rest with
              | some (others, rest) =>
                  some ((member.bind fun first => others.map (first :: ·)), rest)
              | none => none
            | _ => none
        | _ => none
    | _ => none

end

/-- The value a text spells, with blanks around it. -/
def parse? (text : String) : Option Json :=
  let chars := text.toList
  match value (2 * chars.length + 2) chars with
  | some (json, rest) => if (skipSpaces rest).isEmpty then some json else none
  | none => none

end JarFacts.Json
