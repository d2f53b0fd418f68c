import JarFacts.Bytes.Basic
import JarFacts.Toml.Reader
import JarFacts.Toml.Value

/-!
# Numbers and points in time in TOML

Integers take 64 bits with a sign; they are decimal, without leading zeros, or have a base.  A
number with a fraction or an exponent must not exceed the range of double precision upwards.  Dates
exist in the calendar, and times have seconds.
-/

namespace JarFacts.Toml.Reader

/-! ## Digits -/

/-- Digits behind a first one; an underscore may stand between two. -/
def moreDigits (isDigit : Char → Bool) : List Char → List Char × List Char
  | '_' :: c :: rest =>
    if isDigit c then
      let (digits, rest) := moreDigits isDigit rest
      (c :: digits, rest)
    else ([], '_' :: c :: rest)
  | c :: rest =>
    if isDigit c then
      let (digits, rest) := moreDigits isDigit rest
      (c :: digits, rest)
    else ([], c :: rest)
  | [] => ([], [])

/-- One or more digits. -/
def digits (isDigit : Char → Bool) : Reader (List Char) := do
  let first ← charWhere isDigit
  let (more, rest) := moreDigits isDigit (← rest)
  set rest
  return first :: more

/-- A sign: is the number negative? -/
def sign : Reader Bool := fun
  | '-' :: rest => some (true, rest)
  | '+' :: rest => some (false, rest)
  | rest => some (false, rest)

/-- Decimal digits without a leading zero; a zero stands alone. -/
def wholeDigits : Reader (List Char) := do
  match ← rest with
  | '0' :: rest =>
    set rest
    return ['0']
  | _ => digits Text.isDigit

/-! ## Integers -/

/-- The integers that can be written. -/
def inRange (value : Int) : Bool :=
  -0x8000000000000000 ≤ value && value < 0x8000000000000000

/-- Digits in a base. -/
def based (mark : Char) (base : Nat) : Reader Int := do
  exactly ['0', mark]
  let spelled ← digits fun c => (Bytes.hexValue? c).any (· < base)
  return spelled.foldl (fun acc c => acc * base + ((Bytes.hexValue? c).getD 0 : Nat)) 0

/-- A decimal integer. -/
def decimal : Reader Int := do
  let negative ← sign
  let value : Int := Text.digitsValue (← wholeDigits)
  return if negative then -value else value

/-- An integer. -/
def integer : Reader Int := do
  let value ← based 'x' 16 <|> based 'o' 8 <|> based 'b' 2 <|> decimal
  guard (inRange value)
  return value

/-! ## Fractional numbers -/

/-- Does `mantissa * 10 ^ exponent` round beyond the largest number of double precision?  The bound
lies half way between that number and the next power of two.  The count of digits decides unless it
is close. -/
def exceedsDouble (mantissa : Nat) (exponent : Int) : Bool :=
  let magnitude := (Nat.toDigits 10 mantissa).length + exponent
  let bound : Nat := Nat.pow 2 1024 - Nat.pow 2 970
  if mantissa = 0 || magnitude < 300 then false
  else if magnitude > 320 then true
  else if exponent < 0 then bound * Nat.pow 10 exponent.natAbs ≤ mantissa
  else bound ≤ mantissa * Nat.pow 10 exponent.toNat

/-- An exponent. -/
def exponent : Reader Int := do
  discard (charWhere fun c => c = 'e' || c = 'E')
  let negative ← sign
  let value : Int := Text.digitsValue (← digits Text.isDigit)
  return if negative then -value else value

/-- The digits of a fraction. -/
def fraction : Reader (List Char) := do
  exactly ['.']
  digits Text.isDigit

/-- Infinity or no number. -/
def unusual : Reader Unit :=
  exactly "inf".toList <|> exactly "nan".toList

/-- A number with a fraction or an exponent. -/
def fractional : Reader Unit := do
  let negative ← sign
  let whole ← wholeDigits
  let places ← optionally fraction
  let scale ← optionally exponent
  guard (places.isSome || scale.isSome)
  let decimals := places.getD []
  guard (negative || !exceedsDouble (Text.digitsValue (whole ++ decimals))
    (scale.getD 0 - decimals.length))

/-! ## Points in time -/

/-- A number of exactly so many digits. -/
def fixed (width low high : Nat) : Reader Nat := do
  let spelled ← (List.replicate width ()).mapM fun _ => charWhere Text.isDigit
  let value := Text.digitsValue spelled
  guard (low ≤ value && value ≤ high)
  return value

/-- The number of days in a month. -/
def monthDays (year month : Nat) : Nat :=
  if month = 2 then if year % 4 = 0 && (year % 100 ≠ 0 || year % 400 = 0) then 29 else 28
  else if month = 4 || month = 6 || month = 9 || month = 11 then 30
  else 31

/-- A date. -/
def date : Reader Unit := do
  let year ← fixed 4 0 9999
  exactly ['-']
  let month ← fixed 2 1 12
  exactly ['-']
  discard (fixed 2 1 (monthDays year month))

/-- A time of the day. -/
def timeOfDay : Reader Unit := do
  discard (fixed 2 0 23)
  exactly [':']
  discard (fixed 2 0 59)
  exactly [':']
  discard (fixed 2 0 60)
  discard <| optionally do
    exactly ['.']
    discard (charWhere Text.isDigit)
    takeWhile Text.isDigit

/-- The distance to universal time. -/
def offset : Reader Unit := do
  match ← char with
  | 'Z' | 'z' => return ()
  | '+' | '-' =>
    discard (fixed 2 0 23)
    exactly [':']
    discard (fixed 2 0 59)
  | _ => failure

/-- A date, with or without a time, or a time alone. -/
def time : Reader Unit :=
  (do
    date
    discard <| optionally do
      discard (charWhere fun c => c = 'T' || c = 't' || c = ' ')
      timeOfDay
      optionally offset) <|> timeOfDay

/-- A value that starts with a digit or a sign. -/
def number : Reader Toml :=
  (do time; return .time) <|> (do fractional; return .float) <|>
    (do discard sign; unusual; return .float) <|> (do return .integer (← integer))

end JarFacts.Toml.Reader
