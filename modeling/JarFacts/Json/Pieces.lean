import JarFacts.Json.Value

/-!
# JSON texts in pieces

A writer of JSON hands its text over in pieces: a bracket, a comma, a quote, a number, an escape, or
a run of characters that need none.  Together the pieces are the compact text (`flatten_pieces`);
where they are divided shows when they go through buffers to a file that something else is written
to as well.
-/

namespace JarFacts.Json

/-- Does the character stand for itself in a string literal? -/
def isPlain (c : Char) : Bool :=
  c ≠ '"' && c ≠ '\\' && 0x20 ≤ c.toNat

/-- A run of characters given last first, as a piece if there are any. -/
def runPiece (reversed : List Char) : List (List Char) :=
  if reversed.isEmpty then [] else [reversed.reverse]

/-- The pieces of a text inside a string literal.  `reversed` is the run that goes on. -/
def textPieces (reversed : List Char) : List Char → List (List Char)
  | [] => runPiece reversed
  | c :: rest =>
    if isPlain c then textPieces (c :: reversed) rest
    else runPiece reversed ++ escapeChar c :: textPieces [] rest

/-- The pieces of a string literal. -/
def quotePieces (text : String) : List (List Char) :=
  ['"'] :: (textPieces [] text.toList ++ [['"']])

mutual

/-- The pieces of a value. -/
def pieces : Json → List (List Char)
  | .string text => quotePieces text
  | .array [] => [['['], [']']]
  | .array (item :: items) => ['['] :: (pieces item ++ itemPieces items)
  | .object [] => [['\x7b'], ['\x7d']]
  | .object ((name, value) :: members) =>
    ['\x7b'] :: (quotePieces name ++ [':'] :: (pieces value ++ memberPieces members))
  | value => [print value]

/-- The pieces of the items behind the first one, and of the closing bracket. -/
def itemPieces : List Json → List (List Char)
  | [] => [[']']]
  | item :: items => [','] :: (pieces item ++ itemPieces items)

/-- The pieces of the members behind the first one, and of the closing brace. -/
def memberPieces : List (String × Json) → List (List Char)
  | [] => [['\x7d']]
  | (name, value) :: members =>
    [','] :: (quotePieces name ++ [':'] :: (pieces value ++ memberPieces members))

end

/-! ## Together they are the text -/

@[simp]
theorem flatten_runPiece (reversed : List Char) :
    (runPiece reversed).flatten = reversed.reverse := by
  cases reversed <;> simp [runPiece]

theorem escapeChar_of_isPlain {c : Char} (h : isPlain c = true) : escapeChar c = [c] := by
  simp only [isPlain, Bool.and_eq_true, decide_eq_true_eq] at h
  obtain ⟨⟨quote, backslash⟩, control⟩ := h
  have low : ∀ n, n < 0x20 → c.toNat ≠ n := by omega
  simp [escapeChar, quote, backslash, low, Nat.not_lt.2 control]

theorem flatten_textPieces (reversed text : List Char) :
    (textPieces reversed text).flatten = reversed.reverse ++ text.flatMap escapeChar := by
  induction text generalizing reversed with
  | nil => simp [textPieces]
  | cons c rest ih =>
    by_cases h : isPlain c = true
    · simp [textPieces, h, ih, escapeChar_of_isPlain h]
    · simp [textPieces, h, ih]

@[simp]
theorem flatten_quotePieces (text : String) : (quotePieces text).flatten = quote text := by
  simp [quotePieces, quote, flatten_textPieces]

mutual

/-- The pieces of a value make up its compact text. -/
theorem flatten_pieces : (value : Json) → (pieces value).flatten = print value
  | .null | .bool true | .bool false | .int _ | .decimal _ | .unreadable | .array []
      | .object [] => by
    simp [pieces, print]
  | .string text => by simp [pieces, print]
  | .array (item :: items) => by simp [pieces, print, flatten_pieces item, flatten_itemPieces items]
  | .object ((name, value) :: members) => by
    simp [pieces, print, flatten_pieces value, flatten_memberPieces members]

/-- The pieces behind the first item make up the text there. -/
theorem flatten_itemPieces : (items : List Json) → (itemPieces items).flatten = printItems items
  | [] => by simp [itemPieces, printItems]
  | item :: items => by simp [itemPieces, printItems, flatten_pieces item, flatten_itemPieces items]

/-- The pieces behind the first member make up the text there. -/
theorem flatten_memberPieces : (members : List (String × Json)) →
    (memberPieces members).flatten = printMembers members
  | [] => by simp [memberPieces, printMembers]
  | (name, value) :: members => by
    simp [memberPieces, printMembers, flatten_pieces value, flatten_memberPieces members]

end

end JarFacts.Json
