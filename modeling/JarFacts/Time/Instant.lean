import JarFacts.Text.Blank
import JarFacts.Text.Digits

/-!
# Points in time

The start and the end of a walk are points in time, written in UTC with date, time and a fraction of
zero, three, six or nine digits, whichever is the shortest that is exact.  Reading is more lenient
than writing: fields may have fewer digits, date and time may be parted by a blank, and any offset
from UTC is taken off.

A second numbered 60 is a leap second.  It is kept as the last second of its minute with a fraction
of one second or more.
-/

namespace JarFacts

/-- A point in time: the day since 1970-01-01, the second of that day, and nanoseconds behind it. -/
structure Instant where
  day : Int
  second : Nat
  nanos : Nat
  deriving DecidableEq

/-- A date of the Gregorian calendar. -/
structure CalendarDate where
  year : Int
  month : Nat
  day : Nat
  deriving DecidableEq

namespace CalendarDate

/-- Has the year a 29th of February? -/
def isLeapYear (year : Int) : Bool :=
  year % 4 == 0 && (year % 100 != 0 || year % 400 == 0)

/-- The number of days of a month. -/
def daysInMonth (year : Int) (month : Nat) : Nat :=
  if month = 2 then (if isLeapYear year then 29 else 28)
  else if month = 4 ∨ month = 6 ∨ month = 9 ∨ month = 11 then 30
  else 31

/-- Does the date exist? -/
def exists? (date : CalendarDate) : Bool :=
  1 ≤ date.month && date.month ≤ 12 && 1 ≤ date.day && date.day ≤ daysInMonth date.year date.month

/-- The number of days from 1970-01-01 to the date.  Years are counted from March, so that a leap
day is the last one of its year, and 146097 days make 400 years. -/
def toDay (date : CalendarDate) : Int :=
  let year := if date.month ≤ 2 then date.year - 1 else date.year
  let era := year.fdiv 400
  let yearOfEra := year - era * 400
  let monthFromMarch : Int := (date.month + 9) % 12
  let dayOfYear := (153 * monthFromMarch + 2) / 5 + date.day - 1
  let dayOfEra := yearOfEra * 365 + yearOfEra / 4 - yearOfEra / 100 + dayOfYear
  era * 146097 + dayOfEra - 719468

/-- The date that lies the given number of days behind 1970-01-01. -/
def ofDay (day : Int) : CalendarDate :=
  let shifted := day + 719468
  let era := shifted.fdiv 146097
  let dayOfEra := shifted - era * 146097
  let yearOfEra := (dayOfEra - dayOfEra / 1460 + dayOfEra / 36524 - dayOfEra / 146096) / 365
  let dayOfYear := dayOfEra - (365 * yearOfEra + yearOfEra / 4 - yearOfEra / 100)
  let monthFromMarch := (5 * dayOfYear + 2) / 153
  let dayOfMonth := dayOfYear - (153 * monthFromMarch + 2) / 5 + 1
  let month := if monthFromMarch < 10 then monthFromMarch + 3 else monthFromMarch - 9
  let year := yearOfEra + era * 400 + (if month ≤ 2 then 1 else 0)
  ⟨year, month.toNat, dayOfMonth.toNat⟩

end CalendarDate

namespace Instant

/-! ## Writing -/

/-- The fraction of a second in the fewest groups of three digits that are exact. -/
def printFraction (nanos : Nat) : List Char :=
  if nanos = 0 then []
  else if nanos % 1000000 = 0 then '.' :: Text.padded 3 (nanos / 1000000)
  else if nanos % 1000 = 0 then '.' :: Text.padded 6 (nanos / 1000)
  else '.' :: Text.padded 9 nanos

/-- A year in four digits; years beyond them have a sign. -/
def printYear (year : Int) : List Char :=
  if 0 ≤ year ∧ year ≤ 9999 then Text.padded 4 year.toNat
  else if year < 0 then '-' :: Text.padded 4 year.natAbs
  else '+' :: Text.padded 4 year.toNat

/-- The point in time in UTC. -/
def print (instant : Instant) : String :=
  let date := CalendarDate.ofDay instant.day
  let leap := instant.nanos / 1000000000
  String.ofList <|
    printYear date.year ++ '-' :: Text.padded 2 date.month ++ '-' :: Text.padded 2 date.day ++
    'T' :: Text.padded 2 (instant.second / 3600) ++ ':' :: Text.padded 2
      (instant.second / 60 % 60) ++
    ':' :: Text.padded 2 (instant.second % 60 + leap) ++
    printFraction (instant.nanos % 1000000000) ++ ['Z']

/-! ## Reading -/

/-- A number of at least one digit and at most `most`, with blanks in front. -/
def number (most : Nat) (text : List Char) : Option (Nat × List Char) :=
  let text := Text.trimStart text
  let taken := (text.take most).takeWhile Text.isDigit
  if taken.isEmpty then none else some (Text.digitsValue taken, text.drop taken.length)

/-- A year: up to four digits, or a sign and any number of digits. -/
def year (text : List Char) : Option (Int × List Char) :=
  let signed (rest : List Char) : Option (Nat × List Char) :=
    let taken := rest.takeWhile Text.isDigit
    if taken.isEmpty then none else some (Text.digitsValue taken, rest.drop taken.length)
  match Text.trimStart text with
  | '-' :: rest => (signed rest).map fun (value, rest) => (-(value : Int), rest)
  | '+' :: rest => (signed rest).map fun (value, rest) => ((value : Int), rest)
  | text => (number 4 text).map fun (value, rest) => ((value : Int), rest)

/-- A given character, with blanks in front. -/
def mark (expected : Char) (text : List Char) : Option (List Char) :=
  match Text.trimStart text with
  | c :: rest => if c = expected then some rest else none
  | [] => none

/-- A fraction of a second in nanoseconds.  Digits behind the ninth are dropped. -/
def fraction : List Char → Option (Nat × List Char)
  | '.' :: text =>
    let (taken, rest) := text.span Text.isDigit
    if taken.isEmpty then none
    else
      let kept := taken.take 9
      some (Text.digitsValue kept * Nat.pow 10 (9 - kept.length), rest)
  | text => some (0, text)

/-- Two digits. -/
def twoDigits : List Char → Option (Nat × List Char)
  | a :: b :: rest => if Text.isDigit a && Text.isDigit b then some (Text.digitsValue [a, b], rest)
    else none
  | _ => none

/-- An offset from UTC in seconds: a name for UTC itself, or a sign, hours and minutes. -/
def offset (text : List Char) : Option (Int × List Char) :=
  match text with
  | 'Z' :: rest | 'z' :: rest => some (0, rest)
  | c :: rest =>
    if ((text.take 3).map Char.toUpper) = ['U', 'T', 'C'] then some (0, text.drop 3)
    else if c = '+' ∨ c = '-' ∨ c.toNat = 0x2212 then do
      let (hours, rest) ← twoDigits rest
      let (minutes, rest) ← twoDigits (rest.dropWhile fun c => c = ':' || Text.isBlank c)
      if minutes < 60 ∧ hours < 24 then
        let seconds : Int := hours * 3600 + minutes * 60
        return (if c = '+' then seconds else -seconds, rest)
      else none
    else none
  | [] => none

/-- The first and the last year there is. -/
def years : Int × Int := (-262143, 262142)

/-- The point in time a text spells.  Its year has to be one there is, as given and in UTC. -/
def parse? (text : String) : Option Instant := do
  let (year, rest) ← year text.toList
  let rest ← mark '-' rest
  let (month, rest) ← number 2 rest
  let rest ← mark '-' rest
  let (day, rest) ← number 2 rest
  let rest ← match rest with
    | c :: rest => if c = 'T' ∨ c = 't' ∨ c = ' ' then some rest else none
    | [] => none
  let (hour, rest) ← number 2 rest
  let rest ← mark ':' rest
  let (minute, rest) ← number 2 rest
  let rest ← mark ':' rest
  let (second, rest) ← number 2 rest
  let (nanos, rest) ← fraction rest
  let (shift, rest) ← offset (Text.trimStart rest)
  if !(Text.trimStart rest).isEmpty then none
  let date : CalendarDate := ⟨year, month, day⟩
  if !date.exists? ∨ year < years.1 ∨ year > years.2 then none
  if hour > 23 ∨ minute > 59 ∨ second > 60 then none
  let leap := if second = 60 then 1 else 0
  let clock : Int := hour * 3600 + minute * 60 + (second - leap : Nat)
  let utc := clock - shift
  let utcDay := date.toDay + utc.fdiv 86400
  let firstDay := CalendarDate.toDay ⟨years.1, 1, 1⟩
  let lastDay := CalendarDate.toDay ⟨years.2, 12, 31⟩
  if utcDay < firstDay ∨ utcDay > lastDay then none
  return ⟨utcDay, (utc.fmod 86400).toNat, nanos + leap * 1000000000⟩

/-! ## Spans -/

/-- The nanoseconds from one point in time to another, before leap seconds are counted. -/
def nanosBetween (start stop : Instant) : Int :=
  ((stop.day - start.day) * 86400 + (stop.second - start.second)) * 1000000000 +
    (stop.nanos - start.nanos)

/-- A leap second that lies between two points in time of one day, counted with its sign. -/
def leapBetween (start stop : Instant) : Int :=
  if stop.second > start.second ∧ start.nanos ≥ 1000000000 then 1
  else if stop.second < start.second ∧ stop.nanos ≥ 1000000000 then -1
  else 0

/-- The whole milliseconds from one point in time to another, toward zero. -/
def millisBetween (start stop : Instant) : Int :=
  (nanosBetween start stop + leapBetween start stop * 1000000000).tdiv 1000000

end Instant

end JarFacts
