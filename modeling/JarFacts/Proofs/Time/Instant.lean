import Mathlib.Data.List.TakeWhile
import Mathlib.Tactic.Common
import JarFacts.Proofs.Steps
import JarFacts.Proofs.Text.Digits
import JarFacts.Time.Instant

/-!
# Points in time read back

A point in time is read back from its text exactly (`Instant.parse?_print`).  The text holds the
date, so the calendar has to lead from a day to its date and back (`CalendarDate.ofDay_spec`).  Days
are counted in eras of 400 years from March on; a day of an era is divided into centuries, groups of
four years, years and days (`CalendarDate.Parts`), from which everything else is linear.
-/

namespace JarFacts

namespace CalendarDate

/-! ## The calendar -/

/-- A day of an era of 400 years in centuries, groups of four years, years and days.  Only the last
century, the last year of a group, and not the last group of another century, have a day more than
the others. -/
structure Parts (dayOfEra century group year day : Int) : Prop where
  century_mem : 0 ≤ century ∧ century ≤ 3
  group_mem : 0 ≤ group ∧ group ≤ 24
  year_mem : 0 ≤ year ∧ year ≤ 3
  day_mem : 0 ≤ day ∧ day ≤ 365
  leapDay : day = 365 → year = 3 ∧ (group = 24 → century = 3)
  sum : dayOfEra = 36524 * century + 1461 * group + 365 * year + day

lemma exists_parts {dayOfEra : Int} (h0 : 0 ≤ dayOfEra) (h1 : dayOfEra < 146097) :
    ∃ century group year day, Parts dayOfEra century group year day := by
  obtain ⟨century, rest, hcentury, hrest, hlast, hsum⟩ : ∃ century rest,
      (0 ≤ century ∧ century ≤ 3) ∧
      (0 ≤ rest ∧ rest ≤ 36524) ∧ (rest = 36524 → century = 3) ∧
      dayOfEra = 36524 * century + rest :=
    ⟨min 3 (dayOfEra / 36524),
      dayOfEra - 36524 * min 3 (dayOfEra / 36524), by omega, by omega, by omega, by omega⟩
  obtain ⟨group, rest', hgroup, hrest', hsum'⟩ : ∃ group rest', (0 ≤ group ∧ group ≤ 24) ∧
      (0 ≤ rest' ∧ rest' ≤ 1460) ∧ rest = 1461 * group + rest' :=
    ⟨rest / 1461, rest % 1461, by omega, by omega, by omega⟩
  obtain ⟨year, day, hyear, hday, hleap, hsum''⟩ : ∃ year day, (0 ≤ year ∧ year ≤ 3) ∧
      (0 ≤ day ∧ day ≤ 365) ∧ (day = 365 → year = 3) ∧ rest' = 365 * year + day :=
    ⟨min 3 (rest' / 365), rest' - 365 * min 3 (rest' / 365), by omega, by omega, by omega, by omega⟩
  exact ⟨century, group, year, day, hcentury, hgroup, hyear, hday, by omega, by omega⟩

/-- The year of an era is found by taking away the days that leap years have brought. -/
lemma Parts.yearOfEra_eq {dayOfEra century group year day : Int}
    (h : Parts dayOfEra century group year day) :
    (dayOfEra - dayOfEra / 1460 + dayOfEra / 36524 - dayOfEra / 146096) / 365 =
      100 * century + 4 * group + year := by
  obtain ⟨hcentury, hgroup, hyear, hday, hleap, rfl⟩ := h
  obtain ⟨extra, hextra, hextra_mem⟩ : ∃ extra,
      (36524 * century + 1461 * group + 365 * year + day) / 1460 =
      25 * century + group + extra ∧ (extra = 0 ∧ 24 * century + group + 365 * year + day < 1460 ∨
      extra = 1 ∧ 1460 ≤ 24 * century + group + 365 * year + day) := by
    refine ⟨_, (by omega : _ =
      25 * century + group + ((24 * century + group + 365 * year + day) / 1460)), ?_⟩
    omega
  have hlast : 1461 * group + 365 * year + day ≤ 36523 ∨ 1461 * group + 365 * year + day = 36524 ∧
      century = 3 := by
    omega
  have hcenturies : (36524 * century + 1461 * group + 365 * year + day) / 36524 -
      (36524 * century + 1461 * group + 365 * year + day) / 146096 = century := by
    rcases hlast with hrest | ⟨hrest, rfl⟩
    · have hquotient : (36524 * century + 1461 * group + 365 * year + day) / 36524 = century := by
        omega
      have hera : (36524 * century + 1461 * group + 365 * year + day) / 146096 = 0 := by omega
      omega
    · omega
  omega

lemma Parts.dayOfYear_eq {dayOfEra century group year day : Int}
    (h : Parts dayOfEra century group year day) :
    dayOfEra - (365 * (100 * century + 4 * group + year) + (100 * century + 4 * group + year) / 4 -
      (100 * century + 4 * group + year) / 100) = day := by
  obtain ⟨hcentury, hgroup, hyear, hday, -, rfl⟩ := h
  have hfour : (100 * century + 4 * group + year) / 4 = 25 * century + group := by omega
  have hhundred : (100 * century + 4 * group + year) / 100 = century := by omega
  rw [hfour, hhundred]
  omega

/-- The last day of February is the 366th day of a year that is counted from March, and only leap
years have it. -/
lemma Parts.isLeapYear {dayOfEra century group year : Int}
    (h : Parts dayOfEra century group year 365) (era : Int) :
    isLeapYear (100 * century + 4 * group + year + era * 400 + 1) = true := by
  obtain ⟨hyear, hlast⟩ := h.leapDay rfl
  obtain ⟨hcentury, hgroup, -, -, -, -⟩ := h
  subst hyear
  have hfour : (100 * century + 4 * group + 3 + era * 400 + 1) % 4 = 0 := by omega
  have hhundred : (100 * century + 4 * group + 3 + era * 400 + 1) % 100 ≠ 0 ∨
      (100 * century + 4 * group + 3 + era * 400 + 1) % 400 = 0 := by omega
  simp only [CalendarDate.isLeapYear, Bool.and_eq_true, Bool.or_eq_true, beq_iff_eq, bne_iff_ne]
  exact ⟨hfour, hhundred⟩

/-- The months from March on, and the days in them. -/
lemma month_cases {dayOfYear : Int} (h : 0 ≤ dayOfYear ∧ dayOfYear ≤ 365) :
    let monthFromMarch := (5 * dayOfYear + 2) / 153
    let dayOfMonth := dayOfYear - (153 * monthFromMarch + 2) / 5 + 1
    0 ≤ monthFromMarch ∧ monthFromMarch ≤ 11 ∧ 1 ≤ dayOfMonth ∧
      (monthFromMarch = 11 → dayOfMonth ≤ 28 ∨ dayOfMonth = 29 ∧ dayOfYear = 365) ∧
      (monthFromMarch = 1 ∨ monthFromMarch = 3 ∨ monthFromMarch = 6 ∨ monthFromMarch = 8 →
        dayOfMonth ≤ 30) ∧
      dayOfMonth ≤ 31 := by
  intro monthFromMarch dayOfMonth
  omega

/-- The month of the calendar, by its number from March on. -/
def monthFromJanuary (monthFromMarch : Int) : Nat :=
  (if monthFromMarch < 10 then monthFromMarch + 3 else monthFromMarch - 9).toNat

lemma monthFromJanuary_mem {monthFromMarch : Int} (h : 0 ≤ monthFromMarch ∧ monthFromMarch ≤ 11) :
    1 ≤ monthFromJanuary monthFromMarch ∧ monthFromJanuary monthFromMarch ≤ 12 ∧
      (monthFromJanuary monthFromMarch ≤ 2 ↔ 10 ≤ monthFromMarch) ∧
      ((monthFromJanuary monthFromMarch : Int) + 9) % 12 = monthFromMarch := by
  unfold monthFromJanuary
  split <;> omega

lemma daysInMonth_monthFromJanuary {monthFromMarch : Int}
    (h : 0 ≤ monthFromMarch ∧ monthFromMarch ≤ 11) (year : Int) :
    daysInMonth year (monthFromJanuary monthFromMarch) =
      if monthFromMarch = 11 then (if isLeapYear year then 29 else 28)
      else if monthFromMarch = 1 ∨ monthFromMarch = 3 ∨ monthFromMarch = 6 ∨
        monthFromMarch = 8 then 30
      else 31 := by
  have hfebruary : monthFromJanuary monthFromMarch = 2 ↔ monthFromMarch = 11 := by
    unfold monthFromJanuary
    split <;> omega
  have hshort : (monthFromJanuary monthFromMarch = 4 ∨ monthFromJanuary monthFromMarch = 6 ∨
      monthFromJanuary monthFromMarch = 9 ∨ monthFromJanuary monthFromMarch = 11) ↔
      (monthFromMarch = 1 ∨ monthFromMarch = 3 ∨ monthFromMarch = 6 ∨ monthFromMarch = 8) := by
    unfold monthFromJanuary
    split <;> omega
  simp only [daysInMonth, hfebruary, hshort]

/-- The date on a day of the year that begins in March of `year`. -/
def ofDayOfYear (year dayOfYear : Int) : CalendarDate :=
  let monthFromMarch := (5 * dayOfYear + 2) / 153
  let month := monthFromJanuary monthFromMarch
  ⟨if month ≤ 2 then year + 1 else year, month,
    (dayOfYear - (153 * monthFromMarch + 2) / 5 + 1).toNat⟩

lemma exists?_ofDayOfYear {year dayOfYear : Int} (h : 0 ≤ dayOfYear ∧ dayOfYear ≤ 365)
    (hleap : dayOfYear = 365 → isLeapYear (year + 1) = true) :
      (ofDayOfYear year dayOfYear).exists? = true := by
  obtain ⟨hlow, hhigh, hfirst, hfebruary, hshort, hlong⟩ := month_cases h
  obtain ⟨hmonth, hmonth', hwinter, -⟩ := monthFromJanuary_mem ⟨hlow, hhigh⟩
  simp only [ofDayOfYear, exists?, daysInMonth_monthFromJanuary ⟨hlow, hhigh⟩, Bool.and_eq_true]
  refine ⟨⟨⟨decide_eq_true hmonth, decide_eq_true hmonth'⟩, decide_eq_true (by omega)⟩,
    decide_eq_true ?_⟩
  split_ifs with hlast _ hleap' hleap' hshort'
  · omega
  · rcases hfebruary hlast with h28 | ⟨-, h365⟩
    · omega
    · exact absurd (hleap h365) hleap'
  · omega
  · omega
  · have h30 := hshort hshort'
    omega
  · omega

lemma toDay_ofDayOfYear {year dayOfYear : Int} (h : 0 ≤ dayOfYear ∧ dayOfYear ≤ 365) :
    (ofDayOfYear year dayOfYear).toDay =
      year / 400 * 146097 + ((year - year / 400 * 400) * 365 + (year - year / 400 * 400) / 4 -
        (year - year / 400 * 400) / 100 + dayOfYear) - 719468 := by
  obtain ⟨hlow, hhigh, hfirst, -⟩ := month_cases h
  obtain ⟨-, -, -, hmonth⟩ := monthFromJanuary_mem ⟨hlow, hhigh⟩
  have hyear : (if (ofDayOfYear year dayOfYear).month ≤ 2 then (ofDayOfYear year dayOfYear).year - 1
      else (ofDayOfYear year dayOfYear).year) = year := by
    simp only [ofDayOfYear]
    split <;> omega
  have hday : (153 * ((5 * dayOfYear + 2) / 153) + 2) / 5 +
      ((ofDayOfYear year dayOfYear).day : Int) - 1 = dayOfYear := by
    simp only [ofDayOfYear]
    omega
  have hmonth' : ((ofDayOfYear year dayOfYear).month + 9 : Int) % 12 = (5 * dayOfYear + 2) / 153 :=
    hmonth
  unfold toDay
  simp only [hyear, hmonth', hday, Int.fdiv_eq_ediv_of_nonneg _ (show (0 : Int) ≤ 400 by decide)]

lemma ofDay_eq (day : Int) :
    ofDay day =
      let era := (day + 719468) / 146097
      let dayOfEra := day + 719468 - era * 146097
      let yearOfEra := (dayOfEra - dayOfEra / 1460 + dayOfEra / 36524 - dayOfEra / 146096) / 365
      ofDayOfYear (yearOfEra + era * 400)
        (dayOfEra - (365 * yearOfEra + yearOfEra / 4 - yearOfEra / 100)) := by
  simp only [ofDay, ofDayOfYear, Int.fdiv_eq_ediv_of_nonneg _ (show (0 : Int) ≤ 146097 by decide),
    monthFromJanuary]
  congr 1
  split <;> split <;> omega

lemma daysInMonth_le (year : Int) (month : Nat) : daysInMonth year month ≤ 31 := by
  unfold daysInMonth
  split_ifs <;> omega

/-- The month and the day of a date have two digits at most. -/
lemma fields_lt {date : CalendarDate} (h : date.exists? = true) :
    date.month < 10 ^ 2 ∧ date.day < 10 ^ 2 := by
  have hlong := daysInMonth_le date.year date.month
  simp only [exists?, Bool.and_eq_true, decide_eq_true_eq] at h
  omega

/-- Every day is a date, and the date leads back to the day. -/
lemma ofDay_spec (day : Int) : (ofDay day).exists? = true ∧ (ofDay day).toDay = day := by
  rw [ofDay_eq]
  generalize hera : (day + 719468) / 146097 = era
  have h0 : 0 ≤ day + 719468 - era * 146097 := by omega
  have h1 : day + 719468 - era * 146097 < 146097 := by omega
  obtain ⟨century, group, year, dayOfYear, hparts⟩ := exists_parts h0 h1
  simp only [hparts.yearOfEra_eq, hparts.dayOfYear_eq]
  refine ⟨exists?_ofDayOfYear hparts.day_mem ?_, ?_⟩
  · rintro rfl
    exact hparts.isLeapYear era
  · have hdayOfYear := hparts.dayOfYear_eq
    obtain ⟨hcentury, hgroup, hyear, hday, -, -⟩ := hparts
    rw [toDay_ofDayOfYear hday]
    generalize hyearOfEra : 100 * century + 4 * group + year = yearOfEra at *
    have hbounds : 0 ≤ yearOfEra ∧ yearOfEra < 400 := by omega
    have hquotient : (yearOfEra + era * 400) / 400 = era := by omega
    have hyear : yearOfEra + era * 400 - era * 400 = yearOfEra := by omega
    rw [hquotient, hyear]
    clear hera hyearOfEra
    omega

/-- The first and the last day of the years there are. -/
lemma mem_days_of_mem_years {day : Int}
    (h : -262143 ≤ (ofDay day).year ∧ (ofDay day).year ≤ 262142) :
    toDay ⟨-262143, 1, 1⟩ ≤ day ∧ day ≤ toDay ⟨262142, 12, 31⟩ := by
  have hfirst : toDay ⟨-262143, 1, 1⟩ = -96465292 := by decide
  have hlast : toDay ⟨262142, 12, 31⟩ = 95026236 := by decide
  rw [ofDay_eq] at h
  generalize hera : (day + 719468) / 146097 = era at h
  have h0 : 0 ≤ day + 719468 - era * 146097 := by omega
  have h1 : day + 719468 - era * 146097 < 146097 := by omega
  obtain ⟨century, group, year, dayOfYear, hparts⟩ := exists_parts h0 h1
  simp only [hparts.yearOfEra_eq, hparts.dayOfYear_eq, ofDayOfYear] at h
  obtain ⟨hlow, hhigh, -⟩ := month_cases hparts.day_mem
  obtain ⟨-, -, hwinter, -⟩ := monthFromJanuary_mem ⟨hlow, hhigh⟩
  simp only [hwinter] at h
  obtain ⟨hcentury, hgroup, hyear, hday, -, hsum⟩ := hparts
  clear hera hwinter h0 h1
  rw [hfirst, hlast]
  constructor
  · split at h <;> omega
  · split at h <;> omega

end CalendarDate

/-! ## The text -/

namespace Instant

variable {c : Char} {rest : List Char} {width value : Nat}

lemma trimStart_cons (h : Text.isBlank c = false) (rest : List Char) :
    Text.trimStart (c :: rest) = c :: rest :=
  List.dropWhile_cons_of_neg (by simp [h])

lemma isBlank_of_isDigit (h : Text.isDigit c = true) : Text.isBlank c = false := by
  have hcode := Text.isDigit_iff_toNat.mp h
  simp only [Text.isBlank, Text.blankRanges, List.any_cons, List.any_nil, Bool.or_false,
    Bool.or_eq_false_iff, Bool.and_eq_false_iff, decide_eq_false_iff_not]
  omega

lemma exists_padded_eq_cons (width value : Nat) :
    ∃ c others, Text.padded width value = c :: others ∧ Text.isDigit c = true := by
  cases hcons : Text.padded width value with
  | nil => exact absurd hcons (Text.padded_ne_nil width value)
  | cons c others =>
      have hmem : c ∈ Text.padded width value := by simp [hcons]
      exact ⟨c, others, rfl, Text.isDigit_of_mem_padded hmem⟩

lemma trimStart_padded (width value : Nat) (rest : List Char) :
    Text.trimStart (Text.padded width value ++ rest) = Text.padded width value ++ rest := by
  obtain ⟨c, others, hcons, hdigit⟩ := exists_padded_eq_cons width value
  rw [hcons, List.cons_append, trimStart_cons (isBlank_of_isDigit hdigit)]

/-- A number of a fixed width is read back, whatever follows. -/
lemma number_padded (hwidth : 0 < width) (h : value < 10 ^ width) (rest : List Char) :
    number width (Text.padded width value ++ rest) = some (value, rest) := by
  have hlength := Text.length_padded hwidth h
  have htake : (Text.padded width value ++ rest).take width = Text.padded width value := by
    rw [List.take_append_of_le_length (by omega), List.take_of_length_le (by omega)]
  have hdigits : (Text.padded width value).takeWhile Text.isDigit = Text.padded width value :=
    List.takeWhile_eq_self_iff.mpr fun _ => Text.isDigit_of_mem_padded
  simp [number, trimStart_padded, htake, hdigits, Text.padded_ne_nil, Text.digitsValue_padded]

lemma mark_cons (h : Text.isBlank c = false) (rest : List Char) :
    mark c (c :: rest) = some rest := by
  simp [mark, trimStart_cons h]

/-- A year is read back in front of a dash. -/
lemma year_printYear (value : Int) (rest : List Char) :
    year (printYear value ++ '-' :: rest) = some (value, '-' :: rest) := by
  have htaken : ∀ n, (Text.padded 4 n ++ '-' :: rest).takeWhile Text.isDigit = Text.padded 4 n := by
    intro n
    rw [List.takeWhile_append_of_pos fun _ => Text.isDigit_of_mem_padded]
    simp [Text.isDigit]
  unfold printYear
  split_ifs with hfour hnegative
  · have hvalue : (value.toNat : Int) = value := by omega
    obtain ⟨c, others, hcons, hdigit⟩ := exists_padded_eq_cons 4 value.toNat
    have hsmall : value.toNat < 10 ^ 4 := by omega
    have hnumber := number_padded (by decide) hsmall ('-' :: rest)
    rw [year, trimStart_padded]
    rw [hcons, List.cons_append] at hnumber ⊢
    split
    · rename_i heq
      cases heq
      exact absurd hdigit (by decide)
    · rename_i heq
      cases heq
      exact absurd hdigit (by decide)
    · simp [hnumber, hvalue]
  · have hvalue : -(value.natAbs : Int) = value := by omega
    rw [year, List.cons_append, trimStart_cons (by decide)]
    simpa [htaken, Text.padded_ne_nil, Text.digitsValue_padded] using hvalue
  · have hvalue : (value.toNat : Int) = value := by omega
    rw [year, List.cons_append, trimStart_cons (by decide)]
    simpa [htaken, Text.padded_ne_nil, Text.digitsValue_padded] using hvalue

/-- Digits behind the point, scaled to nanoseconds. -/
lemma fraction_padded (hwidth : 0 < width ∧ width ≤ 9) (h : value < 10 ^ width) :
    fraction ('.' :: (Text.padded width value ++ ['Z'])) =
      some (value * 10 ^ (9 - width), ['Z']) := by
  have hlength := Text.length_padded hwidth.1 h
  have hspan : (Text.padded width value ++ ['Z']).span Text.isDigit =
      (Text.padded width value, ['Z']) :=
    Text.span_digits (fun _ => Text.isDigit_of_mem_padded) (by simp [Text.isDigit])
  have htake : (Text.padded width value).take 9 = Text.padded width value :=
    List.take_of_length_le (by omega)
  have hempty : (Text.padded width value).isEmpty = false := by simp [Text.padded_ne_nil]
  simp only [fraction, hspan, hempty, htake, Text.digitsValue_padded, hlength]
  rfl

/-- A fraction of a second is read back. -/
lemma fraction_printFraction {nanos : Nat} (h : nanos < 10 ^ 9) :
    fraction (printFraction nanos ++ ['Z']) = some (nanos, ['Z']) := by
  unfold printFraction
  split_ifs with hzero hmilli hmicro
  · subst hzero
    rfl
  · rw [List.cons_append, fraction_padded (by decide) (by omega)]
    congr 2
    omega
  · rw [List.cons_append, fraction_padded (by decide) (by omega)]
    congr 2
    omega
  · rw [List.cons_append, fraction_padded (by decide) (by omega)]
    simp

/-- A point in time there is: a second of a day, of a year there is.  Only the last second of a
minute may be a leap second. -/
structure Valid (instant : Instant) : Prop where
  year : years.1 ≤ (CalendarDate.ofDay instant.day).year ∧
      (CalendarDate.ofDay instant.day).year ≤ years.2
  second : instant.second < 86400
  nanos : instant.nanos < 2000000000
  leap : 1000000000 ≤ instant.nanos → instant.second % 60 = 59

namespace Valid

variable {instant : Instant} (h : instant.Valid)
include h

/-- The date is one of the years there are. -/
lemma date_range : ¬((!(CalendarDate.ofDay instant.day).exists?) = true ∨
    (CalendarDate.ofDay instant.day).year < years.1 ∨
    (CalendarDate.ofDay instant.day).year > years.2) := by
  obtain ⟨hfirst, hlast⟩ := h.year
  rw [(CalendarDate.ofDay_spec instant.day).1]
  simp only [Bool.not_true, Bool.false_eq_true, false_or]
  omega

/-- The day is one of the years there are. -/
lemma day_range :
    ¬(instant.day < CalendarDate.toDay ⟨years.1, 1, 1⟩ ∨
      instant.day > CalendarDate.toDay ⟨years.2, 12, 31⟩) := by
  obtain ⟨hfirst, hlast⟩ := CalendarDate.mem_days_of_mem_years h.year
  rintro (hlow | hhigh)
  · exact absurd hfirst (Int.not_le.mpr hlow)
  · exact absurd hlast (Int.not_le.mpr hhigh)

/-- The hour, the minute and the second are such as a clock shows. -/
lemma clock_range : ¬(23 < instant.second / 3600 ∨ 59 < instant.second / 60 % 60 ∨
    60 < instant.second % 60 + instant.nanos / 1000000000) := by
  obtain ⟨-, hsecond, hnanos, hleap⟩ := h
  omega

/-- A second numbered 60 is the last second of its minute and a leap second. -/
lemma leap_of_clock : (if instant.second % 60 + instant.nanos / 1000000000 = 60 then 1 else 0) =
    instant.nanos / 1000000000 := by
  obtain ⟨-, -, hnanos, hleap⟩ := h
  split <;> omega

/-- The time of day reaches into no other day. -/
lemma within_day :
    (instant.second : Int).fdiv 86400 = 0 ∧ (instant.second : Int).fmod 86400 = instant.second := by
  have hsecond := h.second
  rw [Int.fdiv_eq_ediv_of_nonneg _ (by decide), Int.fmod_eq_emod_of_nonneg _ (by decide)]
  omega

end Valid

/-- What a clock shows adds up to the second of the day, and what is beyond a second is a leap
second or none. -/
lemma sum_of_clock (instant : Instant) :
    ((instant.second / 3600 : Nat) : Int) * 3600 + ((instant.second / 60 % 60 : Nat) : Int) * 60 +
      ((instant.second % 60 + instant.nanos / 1000000000 - instant.nanos / 1000000000 : Nat) :
        Int) - 0 =
      instant.second ∧
    instant.nanos % 1000000000 + instant.nanos / 1000000000 * 1000000000 = instant.nanos := by
  omega

/-- **A point in time is read back.** -/
lemma parse?_print {instant : Instant} (h : instant.Valid) :
    parse? instant.print = some instant := by
  obtain ⟨hexists, htoDay⟩ := CalendarDate.ofDay_spec instant.day
  obtain ⟨hmonth, hday⟩ := CalendarDate.fields_lt hexists
  have hrange := h.clock_range
  have hhour : instant.second / 3600 < 10 ^ 2 := by omega
  have hminute : instant.second / 60 % 60 < 10 ^ 2 := by omega
  have hclock : instant.second % 60 + instant.nanos / 1000000000 < 10 ^ 2 := by omega
  have hfraction : instant.nanos % 1000000000 < 10 ^ 9 := by omega
  have htwo : 0 < 2 := by decide
  have hoffset : offset (Text.trimStart ['Z']) = some (0, []) := by decide
  obtain ⟨hsecond, hnanos⟩ := instant.sum_of_clock
  obtain ⟨hdivided, hremainder⟩ := h.within_day
  have hrest : ∀ (rest : List Char) (next : List Char → Option Instant),
      (some rest >>= next) = next rest :=
    fun _ _ => rfl
  rw [parse?, print, String.toList_ofList]
  simp only [List.append_assoc, List.cons_append, ↓bind_of_eq_some (year_printYear _ _),
    ↓bind_of_eq_some (mark_cons (c := '-') (by decide) _), ↓bind_of_eq_some
    (mark_cons (c := ':') (by decide) _), ↓bind_of_eq_some (number_padded htwo hmonth _),
    ↓bind_of_eq_some (number_padded htwo hday _), ↓bind_of_eq_some (number_padded htwo hhour _),
    ↓bind_of_eq_some (number_padded htwo hminute _), ↓bind_of_eq_some (number_padded htwo hclock _),
    ↓bind_of_eq_some
    (fraction_printFraction hfraction), ↓bind_of_eq_some hoffset, hrest, true_or, if_true,
    h.leap_of_clock, hsecond, hdivided,
      hremainder, Int.add_zero]
  rw [htoDay, if_neg (by decide), if_neg h.date_range, if_neg hrange, if_neg h.day_range,
    Int.toNat_natCast, hnanos]
  rfl

end Instant

end JarFacts
