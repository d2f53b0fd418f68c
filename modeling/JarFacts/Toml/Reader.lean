import JarFacts.Text.Digits

/-!
# Reading characters

A reader takes characters off the front of a text or fails.  On top of it stand the smallest parts
of TOML: blanks, line ends and comments.
-/

namespace JarFacts.Toml

/-- Takes characters off the front of a text. -/
abbrev Reader := StateT (List Char) Option

namespace Reader

/-- The characters that are left. -/
def rest : Reader (List Char) := get

/-- Takes a character. -/
def char : Reader Char := fun
  | c :: rest => some (c, rest)
  | [] => none

/-- Takes a character of a class. -/
def charWhere (accept : Char → Bool) : Reader Char := do
  let c ← char
  guard (accept c)
  return c

/-- Takes the given text. -/
def exactly (text : List Char) : Reader Unit := fun rest =>
  if text.isPrefixOf rest then some ((), rest.drop text.length) else none

/-- Takes all characters in front that belong to a class. -/
def takeWhile (accept : Char → Bool) : Reader (List Char) := fun rest =>
  some (rest.takeWhile accept, rest.dropWhile accept)

/-- What a reader finds, if it finds something; otherwise nothing is taken. -/
def optionally {α : Type} (reader : Reader α) : Reader (Option α) := fun rest =>
  match reader rest with
  | some (value, rest) => some (some value, rest)
  | none => some (none, rest)

/-- Nothing may be left. -/
def done : Reader Unit := fun
  | [] => some ((), [])
  | _ :: _ => none

/-! ## Blanks, line ends and comments -/

/-- Blanks and tabs. -/
def isBlank (c : Char) : Bool :=
  c = ' ' || c = '\t'

/-- Characters that may stand in a comment or a text as they are: no control characters besides the
tab. -/
def isPlain (c : Char) : Bool :=
  c = '\t' || (0x20 ≤ c.toNat && c.toNat ≠ 0x7F)

/-- Skips blanks. -/
def blanks : Reader Unit := do
  discard (takeWhile isBlank)

/-- Takes a line end. -/
def lineEnd : Reader Unit := do
  match ← char with
  | '\n' => return ()
  | '\r' => discard (charWhere (· = '\n'))
  | _ => failure

/-- Skips a comment, if there is one. -/
def comment : Reader Unit := fun
  | '#' :: rest => some ((), rest.dropWhile isPlain)
  | rest => some ((), rest)

/-- What may follow on a line: a comment, and then the line or the text ends. -/
def restOfLine : Reader Unit := do
  blanks
  comment
  match ← rest with
  | [] => return ()
  | _ => lineEnd

/-- Skips blanks, comments and line ends.  Each round takes a character, so the text bounds their
number. -/
def skipLines : Nat → Reader Unit
  | 0 => return ()
  | rounds + 1 => do
    blanks
    comment
    match ← optionally lineEnd with
    | some () => skipLines rounds
    | none => return ()

/-- Skips blanks, comments and line ends. -/
def blankLines : Reader Unit := do
  skipLines ((← rest).length + 1)

end Reader

end JarFacts.Toml
