import JarFacts.Bytes.Basic

/-!
# JSON values and their text

Values as they are written and read, with two printed forms.  Members keep their order, and a name
may stand twice; what that means is for the reader of the value to decide.

Only integers are ever written.  Other numbers occur in texts that are read, and are kept as they
were spelled.
-/

namespace JarFacts

/-- A JSON value. -/
inductive Json where
  | null
  | bool (value : Bool)
  | int (value : Int)
  /-- A number with a fraction or an exponent, as spelled. -/
  | decimal (spelling : String)
  | string (text : String)
  /-- A string, or an object with the name of a member, that spells no text because a surrogate
  stands alone in it. -/
  | unreadable
  | array (items : List Json)
  | object (members : List (String × Json))
  deriving Inhabited

namespace Json

/-- A natural number. -/
def nat (value : Nat) : Json := .int value

/-- A text that may be absent. -/
def optional (text : Option String) : Json :=
  match text with
  | some text => .string text
  | none => .null

/-! ## Strings -/

/-- A character inside a string literal.  Quotes, backslashes and control characters are escaped. -/
def escapeChar (c : Char) : List Char :=
  if c = '"' then ['\\', '"']
  else if c = '\\' then ['\\', '\\']
  else if c.toNat = 0x08 then ['\\', 'b']
  else if c.toNat = 0x09 then ['\\', 't']
  else if c.toNat = 0x0A then ['\\', 'n']
  else if c.toNat = 0x0C then ['\\', 'f']
  else if c.toNat = 0x0D then ['\\', 'r']
  else if c.toNat < 0x20 then '\\' :: 'u' :: Bytes.hexNumber 4 c.toNat
  else [c]

/-- A string literal. -/
def quote (text : String) : List Char :=
  '"' :: (text.toList.flatMap escapeChar ++ ['"'])

/-- An integer in decimal. -/
def printInt (value : Int) : List Char :=
  if value < 0 then '-' :: Nat.toDigits 10 value.natAbs else Nat.toDigits 10 value.toNat

/-! ## The compact form -/

mutual

/-- The value without any blanks. -/
def print : Json → List Char
  | .null => "null".toList
  | .bool true => "true".toList
  | .bool false => "false".toList
  | .int value => printInt value
  | .decimal spelling => spelling.toList
  | .string text => quote text
  | .unreadable => ['"', '"']
  | .array [] => ['[', ']']
  | .array (item :: items) => '[' :: (print item ++ printItems items)
  | .object [] => ['\x7b', '\x7d']
  | .object ((name, value) :: members) =>
      '\x7b' :: (quote name ++ ':' :: (print value ++ printMembers members))

/-- The items behind the first one, and the closing bracket. -/
def printItems : List Json → List Char
  | [] => [']']
  | item :: items => ',' :: (print item ++ printItems items)

/-- The members behind the first one, and the closing brace. -/
def printMembers : List (String × Json) → List Char
  | [] => ['\x7d']
  | (name, value) :: members => ',' :: (quote name ++ ':' :: (print value ++ printMembers members))

end

/-- The compact text of a value. -/
def compact (value : Json) : String :=
  String.ofList value.print

/-! ## The indented form -/

/-- A line break and two blanks for each level. -/
def lineBreak (level : Nat) : List Char :=
  '\n' :: List.replicate (2 * level) ' '

mutual

/-- The value on lines of its own, its items one level deeper. -/
def printIndented (level : Nat) : Json → List Char
  | .null => "null".toList
  | .bool true => "true".toList
  | .bool false => "false".toList
  | .int value => printInt value
  | .decimal spelling => spelling.toList
  | .string text => quote text
  | .unreadable => ['"', '"']
  | .array [] => ['[', ']']
  | .array (item :: items) =>
    '[' :: (lineBreak (level + 1) ++
      (printIndented (level + 1) item ++ printIndentedItems level items))
  | .object [] => ['\x7b', '\x7d']
  | .object ((name, value) :: members) =>
    '\x7b' :: (lineBreak (level + 1) ++ (quote name ++ ':' :: ' ' ::
      (printIndented (level + 1) value ++ printIndentedMembers level members)))

/-- The items behind the first one, and the closing bracket. -/
def printIndentedItems (level : Nat) : List Json → List Char
  | [] => lineBreak level ++ [']']
  | item :: items =>
    ',' :: (lineBreak (level + 1) ++
      (printIndented (level + 1) item ++ printIndentedItems level items))

/-- The members behind the first one, and the closing brace. -/
def printIndentedMembers (level : Nat) : List (String × Json) → List Char
  | [] => lineBreak level ++ ['\x7d']
  | (name, value) :: members =>
    ',' :: (lineBreak (level + 1) ++ (quote name ++ ':' :: ' ' ::
      (printIndented (level + 1) value ++ printIndentedMembers level members)))

end

mutual

/-- The value with the members of all objects in the order of their names. -/
def sorted : Json → Json
  | .array items => .array (sortedItems items)
  | .object members => .object ((sortedMembers members).mergeSort fun a b => a.1 ≤ b.1)
  | value => value

/-- The items, each with its members in order. -/
def sortedItems : List Json → List Json
  | [] => []
  | item :: items => sorted item :: sortedItems items

/-- The members, each with those inside it in order. -/
def sortedMembers : List (String × Json) → List (String × Json)
  | [] => []
  | (name, value) :: members => (name, sorted value) :: sortedMembers members

end

/-- The indented text of a value, without a line break at its end. -/
def pretty (value : Json) : String :=
  String.ofList (value.printIndented 0)

end Json

end JarFacts
