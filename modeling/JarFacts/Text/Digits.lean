/-!
# Decimal digits

Numbers in texts are spelled with the ASCII digits only.
-/

namespace JarFacts.Text

/-- Is the character one of the ten ASCII digits? -/
def isDigit (c : Char) : Bool :=
  '0' ≤ c && c ≤ '9'

/-- The number that digits spell, most significant first. -/
def digitsValue (digits : List Char) : Nat :=
  digits.foldl (fun acc c => acc * 10 + (c.toNat - '0'.toNat)) 0

/-- The number spelled by a text of one or more digits, with an optional plus sign in front. -/
def unsigned? (text : String) : Option Nat :=
  let digits := match text.toList with
    | '+' :: rest => rest
    | all => all
  if digits.isEmpty || !digits.all isDigit then none else some (digitsValue digits)

/-- A number in decimal, padded with zeros to a least width. -/
def padded (width value : Nat) : List Char :=
  let digits := Nat.toDigits 10 value
  List.replicate (width - digits.length) '0' ++ digits

end JarFacts.Text
