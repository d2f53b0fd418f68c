import JarFacts.Signature.Buffer
import JarFacts.Signature.Error

/-!
# Reading types

A recursive descent over the type grammar, which puts together the canonical name of what it reads.
A `Cursor` is what is left to read and how many bytes were read before it.  The name of each type
grows in a `Buffer` of its own: the buffer of a type is handed on to the readers of its parts, and
each argument of a class type starts another one.

Every step that goes round again has consumed a character, so a number of rounds above the number of
characters left is never exhausted; `typeSignature` starts with such a number and shows none.  The
argument `depth` counts the argument lists that are open, and a list beyond `maxNesting` is refused
where it opens.  `voidAllowed` holds only where a return type stands.
-/

namespace JarFacts.Signature

/-- What is left of a signature, and the number of bytes before it. -/
structure Cursor where
  position : Nat
  rest : List Char

/-- The cursor at the start of a text. -/
def Cursor.start (text : List Char) : Cursor := ⟨0, text⟩

/-- Reading moves a cursor or finds a fault. -/
abbrev Parser := StateT Cursor (Except Fault)

namespace Parser

/-- The next character, not consumed. -/
def peek : Parser (Option Char) := do
  return (← get).rest.head?

/-- The next character, consumed. -/
def next : Parser Char := do
  match (← get) with
  | ⟨_, []⟩ => throw .truncated
  | ⟨position, c :: rest⟩ =>
    set (Cursor.mk (position + (Utf8.encodeChar c).length) rest)
    return c

/-- The refusal of a character: its first byte, and where that stands. -/
def refuse {α : Type} (c : Char) (position : Nat) : Parser α :=
  throw (.unexpected ((Utf8.encodeChar c).headD 0) position)

/-- Consumes one given character. -/
def expect (expected : Char) : Parser Unit := do
  let position := (← get).position
  let c ← next
  if c = expected then return () else refuse c position

/-- The characters before the first one in `stops`, which has to occur. -/
def name (stops : List Char) : Parser (List Char) := do
  let ⟨position, rest⟩ ← get
  let (taken, rest) := rest.span fun c => !stops.contains c
  if rest.isEmpty then throw .truncated
  set (Cursor.mk (position + Utf8.byteLength taken) rest)
  return taken

mutual

/-- Reads a type into the buffer. -/
def typeInto (voidAllowed : Bool) (depth : Nat) : (rounds : Nat) → Buffer → Parser Buffer
  | 0, _ => throw .truncated
  | rounds + 1, buffer => do
    let position := (← get).position
    let c ← next
    if c = '[' then
      typeInto voidAllowed depth rounds buffer.addDimension
    else if c = 'L' then
      let outer ← name ['<', '.', ';']
      suffixesInto depth rounds (buffer.classType outer)
    else if c = 'T' then
      let name ← name [';']
      expect ';'
      return buffer.typeVariable name
    else if c = 'V' ∧ voidAllowed then
      return buffer.baseType "void".toList
    else
      match baseTypeName? c with
      | some name => return buffer.baseType name
      | none => refuse c position

/-- Reads the argument lists and inner names of a class type into the buffer, and the semicolon that
ends it. -/
def suffixesInto (depth : Nat) : (rounds : Nat) → Buffer → Parser Buffer
  | 0, _ => throw .truncated
  | rounds + 1, buffer => do
    let position := (← get).position
    let c ← next
    if c = '<' then
      if depth + 1 > maxNesting then throw (.tooDeep (← get).position)
      let buffer ← argumentsInto (depth + 1) rounds buffer
      suffixesInto depth rounds buffer
    else if c = '.' then
      let inner ← name ['<', '.', ';']
      suffixesInto depth rounds (buffer.innerClassType inner)
    else if c = ';' then
      return buffer
    else refuse c position

/-- Reads the arguments of an open list into the buffer of the class type, and the bracket that
closes the list.  The name of an argument is finished before it is added. -/
def argumentsInto (depth : Nat) : (rounds : Nat) → Buffer → Parser Buffer
  | 0, _ => throw .truncated
  | rounds + 1, buffer => do
    match ← peek with
    | none => throw .truncated
    | some '>' =>
      discard next
      return buffer
    | some '*' =>
      discard next
      argumentsInto depth rounds (buffer.addArgument "<?>".toList)
    | some '+' =>
      discard next
      let bound ← typeInto false depth rounds (.bounded '+')
      argumentsInto depth rounds (buffer.addArgument bound.finish)
    | some '-' =>
      discard next
      let bound ← typeInto false depth rounds (.bounded '-')
      argumentsInto depth rounds (buffer.addArgument bound.finish)
    | some _ =>
      let type ← typeInto false depth rounds {}
      argumentsInto depth rounds (buffer.addArgument type.finish)

end

/-- A number of rounds that no reading of the rest exhausts: a round consumes a character, or starts
another one that does. -/
def rounds : Parser Nat := do
  return 2 * (← get).rest.length + 2

/-- The canonical name of a type; `void` counts as one where it is allowed. -/
def typeSignature (voidAllowed : Bool) : Parser String := do
  let buffer ← typeInto voidAllowed 0 (← rounds) {}
  return String.ofList buffer.finish

/-- The end of the text. -/
def done : Parser Unit := do
  let ⟨position, rest⟩ ← get
  if rest.isEmpty then return () else throw (.trailing position)

/-- Reads a whole text. -/
def runOn {α : Type} (parser : Parser α) (text : String) : Except SignatureError α :=
  match (parser <* done).run' (.start text.toList) with
  | .ok value => .ok value
  | .error fault => .error (fault.inside text)

end Parser

end JarFacts.Signature
