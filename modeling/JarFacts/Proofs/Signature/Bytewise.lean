import JarFacts.Proofs.Signature.Reading
import JarFacts.Signature.Declaration

/-!
# Reading a signature by its bytes

A second reader of the same grammar, which knows of a text only the bytes.  It has a position in
them and the number of argument lists that are open, looks at one byte at a time, and cuts names out
of the text between two positions. Nothing keeps it from a position behind the end, from cutting
through a character or from closing what was not opened: each of these is a `Stop` of its own,
beside the faults of the signature, and so is a loop that does not end.  That none of them ever
happens, and that it reads what the reader of characters reads, is the matter of `Boundaries`.

Rounds are counted in bytes here, so there are more of them than the reader of characters has.
-/

namespace JarFacts.Signature

namespace Bytewise

/-! ## Cutting a text between two positions -/

/-- A text in front of a byte position and behind it, if a character ends there. -/
def splitAt? : List Char → Nat → Option (List Char × List Char)
  | text, 0 => some ([], text)
  | [], _ + 1 => none
  | c :: rest, position + 1 =>
    if (Utf8.encodeChar c).length ≤ position + 1 then
      (splitAt? rest (position + 1 - (Utf8.encodeChar c).length)).map fun (front, back) =>
        (c :: front, back)
    else none

/-- The text between two byte positions.  Both have to be boundaries of characters, and in this
order. -/
def slice? (text : List Char) (start stop : Nat) : Option (List Char) :=
  if start ≤ stop then do
    let (_, rest) ← splitAt? text start
    let (taken, _) ← splitAt? rest (stop - start)
    return taken
  else none

/-! ## Steps -/

/-- Why a reading ends: for a fault of the signature, or for a step that must not be made. -/
inductive Stop where
  | fault (fault : Fault)
  /-- The position is moved from the end of the text. -/
  | beyondEnd
  /-- A name begins or ends inside a character, or outside of the text. -/
  | offBoundary
  /-- More argument lists are closed than were opened. -/
  | notOpen
  /-- A loop goes on although nothing can be left to read. -/
  | exhausted

/-- The next byte to read, and how many argument lists are open. -/
structure Mark where
  position : Nat
  depth : Nat

/-- Reading moves a mark or stops. -/
abbrev Reader := StateT Mark (Except Stop)

section

variable (text : List Char)

/-- The next byte, not passed. -/
def peek : Reader (Option UInt8) := do
  return (Utf8.encode text)[(← get).position]?

/-- Passes one byte. -/
def advance : Reader Unit := do
  let mark ← get
  if mark.position < Utf8.byteLength text then set { mark with position := mark.position + 1 }
  else throw .beyondEnd

/-- The next byte, passed. -/
def next : Reader UInt8 := do
  match ← peek text with
  | none => throw (.fault .truncated)
  | some byte =>
    advance text
    return byte

/-- The refusal of the byte that was passed last. -/
def refuse {α : Type} (byte : UInt8) : Reader α := do
  throw (.fault (.unexpected byte ((← get).position - 1)))

/-- Passes one given byte. -/
def expect (expected : UInt8) : Reader Unit := do
  let byte ← next text
  if byte = expected then return () else refuse byte

/-- What stands in front of the first byte in `stops`, which has to occur. -/
def name (stops : List UInt8) : Reader (List Char) := do
  let mark ← get
  let passed := ((Utf8.encode text).drop mark.position).takeWhile fun byte => !stops.contains byte
  let stop := mark.position + passed.length
  if Utf8.byteLength text ≤ stop then throw (.fault .truncated)
  set { mark with position := stop }
  match slice? text mark.position stop with
  | some taken => return taken
  | none => throw .offBoundary

/-- Opens an argument list. -/
def openList : Reader Unit := do
  let mark ← get
  if mark.depth + 1 > maxNesting then throw (.fault (.tooDeep mark.position))
  else set { mark with depth := mark.depth + 1 }

/-- Closes an argument list. -/
def closeList : Reader Unit := do
  match ← get with
  | ⟨_, 0⟩ => throw .notOpen
  | ⟨position, depth + 1⟩ => set (Mark.mk position depth)

/-- More rounds than there are bytes left. -/
def rounds : Reader Nat := do
  return 2 * (Utf8.byteLength text - (← get).position) + 2

/-! ## Types -/

mutual

/-- Reads a type into the buffer. -/
def typeInto (voidAllowed : Bool) : (rounds : Nat) → Buffer → Reader Buffer
  | 0, _ => throw .exhausted
  | rounds + 1, buffer => do
    let byte ← next text
    if byte = '['.toUInt8 then
      typeInto voidAllowed rounds buffer.addDimension
    else if byte = 'L'.toUInt8 then
      let outer ← name text (['<', '.', ';'].map Char.toUInt8)
      suffixesInto rounds (buffer.classType outer)
    else if byte = 'T'.toUInt8 then
      let name ← name text ([';'].map Char.toUInt8)
      advance text
      return buffer.typeVariable name
    else if byte = 'V'.toUInt8 ∧ voidAllowed then
      return buffer.baseType "void".toList
    else
      match baseTypeName? (Char.ofNat byte.toNat) with
      | some name => return buffer.baseType name
      | none => refuse byte

/-- Reads the argument lists and inner names of a class type into the buffer, and the semicolon that
ends it. -/
def suffixesInto : (rounds : Nat) → Buffer → Reader Buffer
  | 0, _ => throw .exhausted
  | rounds + 1, buffer => do
    let byte ← next text
    if byte = '<'.toUInt8 then
      openList
      let buffer ← argumentsInto rounds buffer
      suffixesInto rounds buffer
    else if byte = '.'.toUInt8 then
      let inner ← name text (['<', '.', ';'].map Char.toUInt8)
      suffixesInto rounds (buffer.innerClassType inner)
    else if byte = ';'.toUInt8 then
      return buffer
    else refuse byte

/-- Reads the arguments of an open list into the buffer of the class type, and the bracket that
closes the list. -/
def argumentsInto : (rounds : Nat) → Buffer → Reader Buffer
  | 0, _ => throw .exhausted
  | rounds + 1, buffer => do
    match ← peek text with
    | none => throw (.fault .truncated)
    | some byte =>
      if byte = '>'.toUInt8 then
        advance text
        closeList
        return buffer
      else if byte = '*'.toUInt8 then
        advance text
        argumentsInto rounds (buffer.addArgument "<?>".toList)
      else if byte = '+'.toUInt8 then
        advance text
        let bound ← typeInto false rounds (.bounded '+')
        argumentsInto rounds (buffer.addArgument bound.finish)
      else if byte = '-'.toUInt8 then
        advance text
        let bound ← typeInto false rounds (.bounded '-')
        argumentsInto rounds (buffer.addArgument bound.finish)
      else
        let type ← typeInto false rounds {}
        argumentsInto rounds (buffer.addArgument type.finish)

end

/-- The canonical name of a type; `void` counts as one where it is allowed. -/
def typeSignature (voidAllowed : Bool) : Reader String := do
  let buffer ← typeInto text voidAllowed (← rounds text) {}
  return String.ofList buffer.finish

/-! ## Declarations -/

/-- Bounds behind colons, as many as there are. -/
def boundNames : (rounds : Nat) → Reader (List String)
  | 0 => throw .exhausted
  | rounds + 1 => do
    if (← peek text) = some ':'.toUInt8 then
      advance text
      let bound ← typeSignature text false
      return bound :: (← boundNames rounds)
    else return []

/-- A formal type parameter: a name, a colon, perhaps a class bound, and any interface bounds. -/
def formalTypeParameter : Reader FormalTypeParameter := do
  let name ← name text ([':'].map Char.toUInt8)
  advance text
  let following ← peek text
  let classBound ←
    if following = some ':'.toUInt8 ∨ following = some '>'.toUInt8 then pure none
    else some <$> typeSignature text false
  let interfaceBounds ← boundNames text (← rounds text)
  return ⟨String.ofList name, classBound.toList ++ interfaceBounds⟩

/-- Formal type parameters up to the bracket that closes their list; there is at least one. -/
def formalTypeParametersTail : (rounds : Nat) → Reader (List FormalTypeParameter)
  | 0 => throw .exhausted
  | rounds + 1 => do
    let parameter ← formalTypeParameter text
    if (← peek text) = some '>'.toUInt8 then
      advance text
      return [parameter]
    else return parameter :: (← formalTypeParametersTail rounds)

/-- The formal type parameters, none when no list opens. -/
def formalTypeParameters : Reader (List FormalTypeParameter) := do
  if (← peek text) = some '<'.toUInt8 then
    advance text
    formalTypeParametersTail text (← rounds text)
  else return []

/-- Types up to the end of the text. -/
def namesToEnd : (rounds : Nat) → Reader (List String)
  | 0 => throw .exhausted
  | rounds + 1 => do
    if (← peek text).isNone then return []
    let type ← typeSignature text false
    return type :: (← namesToEnd rounds)

/-- Types up to the parenthesis that closes a parameter list. -/
def namesToParenthesis : (rounds : Nat) → Reader (List String)
  | 0 => throw .exhausted
  | rounds + 1 => do
    if (← peek text) = some ')'.toUInt8 then
      advance text
      return []
    let type ← typeSignature text false
    return type :: (← namesToParenthesis rounds)

/-- Thrown types, each behind a caret, up to the end of the text. -/
def thrownToEnd : (rounds : Nat) → Reader (List String)
  | 0 => throw .exhausted
  | rounds + 1 => do
    if (← peek text).isNone then return []
    expect text '^'.toUInt8
    let type ← typeSignature text false
    return type :: (← thrownToEnd rounds)

/-- A class signature. -/
def classSignature : Reader ClassSignature := do
  let typeParameters ← formalTypeParameters text
  let superclass ← typeSignature text false
  return ⟨typeParameters, superclass, ← namesToEnd text (← rounds text)⟩

/-- A method signature or descriptor. -/
def methodSignature : Reader MethodSignature := do
  let typeParameters ← formalTypeParameters text
  expect text '('.toUInt8
  let parameters ← namesToParenthesis text (← rounds text)
  let returnType ← typeSignature text true
  return ⟨typeParameters, parameters, returnType, ← thrownToEnd text (← rounds text)⟩

/-! ## Whole texts -/

/-- The end of the text. -/
def done : Reader Unit := do
  let mark ← get
  if mark.position = Utf8.byteLength text then return ()
  else throw (.fault (.trailing mark.position))

end

/-- Reads a whole text. -/
def runOn {α : Type} (reader : List Char → Reader α) (text : String) : Except Stop α :=
  (reader text.toList <* done text.toList).run' ⟨0, 0⟩

/-- The canonical name of a field descriptor or field type signature, read by bytes. -/
def decodeType (signature : String) : Except Stop String :=
  runOn (typeSignature · false) signature

/-- A class signature with canonical names, read by bytes. -/
def decodeClass (signature : String) : Except Stop ClassSignature :=
  runOn classSignature signature

/-- A method signature or descriptor with canonical names, read by bytes. -/
def decodeMethod (signature : String) : Except Stop MethodSignature :=
  runOn methodSignature signature

end Bytewise

end JarFacts.Signature
