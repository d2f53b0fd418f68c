import JarFacts.Bytes.Basic
import JarFacts.Toml.Reader

/-!
# Texts in TOML

Four ways to write a text: between double quotes with escapes or between single quotes without, and
each on one line or, between three quotes, on several.  On several lines, up to two quotes may stand
next to each other, also right in front of the closing ones; the line end right behind the opening
ones does not count; and a backslash in front of a line end takes away all blanks and line ends up
to the next character.
-/

namespace JarFacts.Toml.Reader

/-- The character with the code that so many hexadecimal digits give. -/
def codePoint (digits : Nat) : Reader Char := do
  let values ← (List.replicate digits ()).mapM fun _ => do
    match Bytes.hexValue? (← char) with
    | some value => return value
    | none => failure
  let code := values.foldl (fun acc value => acc * 16 + value) 0
  guard code.isValidChar
  return Char.ofNat code

/-- The character that an escape behind a backslash stands for. -/
def escape : Reader Char := do
  match ← char with
  | 'b' => return Char.ofNat 8
  | 't' => return '\t'
  | 'n' => return '\n'
  | 'f' => return Char.ofNat 12
  | 'r' => return '\r'
  | '"' => return '"'
  | '\\' => return '\\'
  | 'u' => codePoint 4
  | 'U' => codePoint 8
  | _ => failure

/-- How a text is quoted. -/
structure Quoting where
  quote : Char
  /-- Does a backslash start an escape? -/
  escapes : Bool

/-- Between double quotes. -/
def Quoting.basic : Quoting := ⟨'"', true⟩

/-- Between single quotes. -/
def Quoting.literal : Quoting := ⟨'\'', false⟩

/-- The rest of a text on one line.  Each round takes a character. -/
def lineText (quoting : Quoting) : Nat → Reader (List Char)
  | 0 => failure
  | rounds + 1 => do
    let c ← char
    if c = quoting.quote then return []
    else if quoting.escapes && c = '\\' then
      let escaped ← escape
      return escaped :: (← lineText quoting rounds)
    else if isPlain c then return c :: (← lineText quoting rounds)
    else failure

/-- What is left behind blanks and line ends. -/
def dropGap : List Char → List Char
  | '\r' :: '\n' :: rest => dropGap rest
  | c :: rest => if isBlank c || c = '\n' then dropGap rest else c :: rest
  | [] => []

/-- Skips blanks up to a line end, which has to follow, and then all blanks and line ends. -/
def continuation : Reader Unit := do
  blanks
  lineEnd
  modify dropGap

/-- The rest of a text on several lines.  Each round takes a character. -/
def linesText (quoting : Quoting) : Nat → Reader (List Char)
  | 0 => failure
  | rounds + 1 => do
    let rest ← rest
    let quotes := ((rest.takeWhile (· = quoting.quote)).take 5).length
    if quotes ≥ 3 then
      set (rest.drop quotes)
      return List.replicate (quotes - 3) quoting.quote
    else if quotes > 0 then
      set (rest.drop quotes)
      return List.replicate quotes quoting.quote ++ (← linesText quoting rounds)
    else
      match ← optionally lineEnd with
      | some () => return '\n' :: (← linesText quoting rounds)
      | none =>
        let c ← char
        if quoting.escapes && c = '\\' then
          match ← optionally continuation with
          | some () => linesText quoting rounds
          | none =>
            let escaped ← escape
            return escaped :: (← linesText quoting rounds)
        else if isPlain c then return c :: (← linesText quoting rounds)
        else failure

/-- A text on one line, from its opening quote on. -/
def lineString (quoting : Quoting) : Reader String := do
  exactly [quoting.quote]
  let rest ← rest
  return String.ofList (← lineText quoting (rest.length + 1))

/-- A text, from its opening quotes on. -/
def string (quoting : Quoting) : Reader String := do
  match ← optionally (exactly (List.replicate 3 quoting.quote)) with
  | some () =>
    discard (optionally lineEnd)
    let rest ← rest
    return String.ofList (← linesText quoting (rest.length + 1))
  | none => lineString quoting

end JarFacts.Toml.Reader
