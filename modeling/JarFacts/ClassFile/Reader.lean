import JarFacts.Bytes.Basic
import JarFacts.ClassFile.Error
import JarFacts.Log

/-!
# Reading class-file bytes

A reader consumes bytes from the front of its input or stops at the first error.  Numbers are
big-endian. What it has to tell along the way is kept in the input as well, so that it survives an
error.
-/

namespace JarFacts.ClassFile

/-- The bytes not yet read, and the events noted so far. -/
structure Input where
  bytes : Bytes
  log : Array LogEvent

/-- A reader of class-file bytes. -/
abbrev Reader := ExceptT ClassFileError (StateM Input)

namespace Reader

/-- The next `count` bytes. -/
def take (count : Nat) : Reader Bytes := do
  let input ← get
  let taken := input.bytes.take count
  if taken.length < count then throw .unexpectedEof
  set { input with bytes := input.bytes.drop count }
  return taken

/-- Passes over `count` bytes. -/
def skip (count : Nat) : Reader Unit := do
  discard (take count)

/-- The next byte. -/
def u1 : Reader UInt8 := do
  return (← take 1).headD 0

/-- The next two bytes as a number. -/
def u2 : Reader Nat := do
  return Bytes.bigEndian (← take 2)

/-- The next four bytes as a number. -/
def u4 : Reader Nat := do
  return Bytes.bigEndian (← take 4)

/-- Takes over the outcome of a computation without input. -/
def ofExcept {α : Type} : Except ClassFileError α → Reader α
  | .ok value => return value
  | .error error => throw error

/-- Notes an event. -/
def note (event : LogEvent) : Reader Unit :=
  modify fun input => { input with log := input.log.push event }

/-- The same thing `count` times in a row. -/
def times {α : Type} (count : Nat) (item : Reader α) : Reader (List α) :=
  match count with
  | 0 => return []
  | count + 1 => do
    let first ← item
    return first :: (← times count item)

/-- A number of things, two bytes for the number. -/
def counted {α : Type} (item : Reader α) : Reader (List α) := do
  times (← u2) item

/-- Reads from `body` instead of the input.  What of the body is left over is dropped. -/
def within {α : Type} (body : Bytes) (reader : Reader α) : Reader α := do
  let outer ← get
  set { outer with bytes := body }
  let value ← reader
  modify fun inner => { inner with bytes := outer.bytes }
  return value

end Reader

end JarFacts.ClassFile
