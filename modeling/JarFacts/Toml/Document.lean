import JarFacts.Toml.Number
import JarFacts.Toml.Section
import JarFacts.Toml.Text

/-!
# TOML documents

Keys, values and lines.  Values may be nested only so deep, and dotted keys may have only so many
parts; the same bound holds for both.
-/

namespace JarFacts.Toml

/-- The bound on nesting, which must stay below it. -/
def maxNesting : Nat := 80

namespace Reader

/-! ## Keys -/

/-- Characters of keys without quotes. -/
def isBare (c : Char) : Bool :=
  c.isAlphanum || c = '_' || c = '-'

/-- A part of a key. -/
def keyPart : Reader String := do
  match ← rest with
  | '"' :: _ => lineString .basic
  | '\'' :: _ => lineString .literal
  | _ =>
    let name ← takeWhile isBare
    guard (!name.isEmpty)
    return String.ofList name

/-- The parts of a key, with dots between them and blanks around them.  Each round takes a
character. -/
def keyParts : Nat → Reader (List String)
  | 0 => failure
  | rounds + 1 => do
    blanks
    let part ← keyPart
    blanks
    match ← optionally (exactly ['.']) with
    | some () => return part :: (← keyParts rounds)
    | none => return [part]

/-- A key: the parts in front of the last one, and that. -/
def key : Reader (List String × String) := do
  let parts ← keyParts ((← rest).length + 1)
  guard (parts.length < maxNesting)
  match parts.getLast? with
  | some last => return (parts.dropLast, last)
  | none => failure

/-! ## Values -/

/-- The items of an array behind its opening bracket; a comma may follow the last one.  Each round
takes a character. -/
def arrayItems (item : Reader Toml) : Nat → Reader (List Toml)
  | 0 => failure
  | rounds + 1 => do
    blankLines
    match ← optionally (exactly [']']) with
    | some () => return []
    | none =>
      let value ← item
      blankLines
      match ← char with
      | ',' => return value :: (← arrayItems item rounds)
      | ']' => return [value]
      | _ => failure

/-- A key, an equals sign and a value. -/
def assignment (item : Reader Toml) : Reader (List String × String × Toml) := do
  let (path, last) ← key
  exactly ['=']
  blanks
  return (path, last, ← item)

/-- The members of a table in braces from a key on, added to those before.  Each round takes a
character. -/
def inlineMembers (item : Reader Toml) : Nat → Section.Members → Reader Section.Members
  | 0, _ => failure
  | rounds + 1, members => do
    let (path, last, value) ← assignment item
    blanks
    match Section.assign path last value .stated members with
    | none => failure
    | some members =>
      match ← char with
      | ',' => inlineMembers item rounds members
      | '\x7d' => return members
      | _ => failure

/-- A table behind its opening brace. -/
def inlineTable (item : Reader Toml) : Reader Toml := do
  blanks
  match ← optionally (exactly ['\x7d']) with
  | some () => return .table []
  | none =>
    let members ← inlineMembers item ((← rest).length + 1) []
    return .table (Section.finishedMembers members)

/-- A value whose parts are read by `item`, and which has none when that is absent. -/
def valueOf (item : Option (Reader Toml)) : Reader Toml := do
  match ← rest, item with
  | '"' :: _, _ => return .string (← string .basic)
  | '\'' :: _, _ => return .string (← string .literal)
  | '[' :: _, none | '\x7b' :: _, none => failure
  | '[' :: inside, some item =>
    set inside
    return .array (← arrayItems item (inside.length + 1))
  | '\x7b' :: inside, some item =>
    set inside
    inlineTable item
  | 't' :: _, _ =>
    exactly "true".toList
    return .bool true
  | 'f' :: _, _ =>
    exactly "false".toList
    return .bool false
  | 'i' :: _, _ | 'n' :: _, _ =>
    unusual
    return .float
  | _, _ => number

/-- A value with at most so many levels of arrays and tables. -/
def value : Nat → Reader Toml
  | 0 => valueOf none
  | levels + 1 => valueOf (some (value levels))

/-! ## Lines -/

/-- The lines of a document from a line start on.  `path` leads to the table that assignments go
into.  Each round takes a character. -/
def lines : Nat → List String → Section.Members → Reader Section.Members
  | 0, _, _ => failure
  | rounds + 1, path, members => do
    blanks
    match ← rest with
    | [] => return members
    | '#' :: _ =>
      restOfLine
      lines rounds path members
    | '\n' :: _ | '\r' :: _ =>
      lineEnd
      lines rounds path members
    | '[' :: '[' :: header =>
      set header
      let (above, last) ← key
      exactly [']', ']']
      restOfLine
      match Section.openElement above last members with
      | some members => lines rounds (above ++ [last]) members
      | none => failure
    | '[' :: header =>
      set header
      let (above, last) ← key
      exactly [']']
      restOfLine
      match Section.openTable above last members with
      | some members => lines rounds (above ++ [last]) members
      | none => failure
    | _ =>
      let (above, last, value) ← assignment (value (maxNesting - 1))
      restOfLine
      match Section.within .implied (Section.assign above last value) path .stated members with
      | some members => lines rounds path members
      | none => failure

end Reader

/-- The members of the table that a document describes.  A byte order mark in front does not
count. -/
def parse? (text : String) : Option (List (String × Toml)) :=
  let characters := match text.toList with
    | c :: rest => if c.toNat = 0xFEFF then rest else c :: rest
    | [] => []
  ((Reader.lines (characters.length + 1) [] []).run' characters).map Section.finishedMembers

end JarFacts.Toml
