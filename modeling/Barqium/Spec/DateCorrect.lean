import Barqium.ForStd.Gregorian
import Barqium.Native.SigV4

/-!
# The date of a request

The year and the month of a date are found by subtracting the lengths of years and months. What
is left and what was passed make the same count of days at every pass, so that the result is the
Gregorian date of the day.

## Key results

- `yearLoop_keeps`, `monthLoop_keeps`: what the loops keep
- `daysToYmd_eq`: the date of a day
- `parseDatetime_formatDatetime`: the text of a date is read back.
- `formatDatetime_before_iff`: the texts are ordered as the seconds are.
- `datetime_gregorian`: all of it
-/

namespace Barqium.Native.SigV4

open Gregorian (Leap Date yearLength monthLength daysBeforeYear daysBeforeMonth)

/-! ## The loops -/

/-- The leap years are those of the calendar. -/
theorem isLeap_iff (y : Nat) : isLeap y = true ↔ Leap y := by
  unfold isLeap Leap
  rw [Bool.and_eq_true, Bool.or_eq_true, Bool.not_eq_true', beq_iff_eq, beq_eq_false_iff_ne,
    beq_iff_eq]
  by_cases hhundred : y % 100 = 0 <;> simp [hhundred]

/-- The lengths of the years are those of the calendar. -/
private theorem dy_eq (y : Nat) : dy y = yearLength y := by
  unfold dy yearLength
  by_cases hleap : Leap y
  · rw [if_pos ((isLeap_iff y).mpr hleap), if_pos hleap]
  · rw [if_neg (mt (isLeap_iff y).mp hleap), if_neg hleap]

/-- The array has the lengths of the months. -/
private theorem months_eq (y : Nat) :
    months (isLeap y) = (List.range' 1 12).map (monthLength y) := by
  by_cases hleap : Leap y
  · have hcode := (isLeap_iff y).mpr hleap
    simp [months, hcode, List.range', monthLength, hleap]
  · have hcode := mt (isLeap_iff y).mp hleap
    simp [months, hcode, List.range', monthLength, hleap]

/-- The years that were passed have the days that were subtracted. -/
theorem yearLoop_keeps (days year : Nat) :
    (yearLoop days year).1 < yearLength (yearLoop days year).2 ∧
      daysBeforeYear (yearLoop days year).2 + (yearLoop days year).1 =
        daysBeforeYear year + days ∧
      year ≤ (yearLoop days year).2 ∧ 365 * (yearLoop days year).2 ≤ 365 * year + days := by
  -- the days counted and the days left always add up to the same
  induction days, year using yearLoop.induct with
  | case1 days year h =>
    rw [yearLoop, if_pos h]
    rw [dy_eq] at h
    exact ⟨h, rfl, Nat.le_refl year, Nat.le_add_right _ _⟩
  | case2 days year h ih =>
    have hsucc := Gregorian.daysBeforeYear_succ year
    -- a year has at least 365 days, which bounds the number of rounds
    have hlong : 365 ≤ yearLength year := by
      unfold yearLength
      split <;> decide
    rw [yearLoop, if_neg h]
    rw [dy_eq] at h ih ⊢
    obtain ⟨hlt, hcount, hle, hbound⟩ := ih
    refine ⟨hlt, ?_, Nat.le_of_succ_le hle, ?_⟩ <;> omega

/-- The months that were passed have the days that were subtracted. -/
theorem monthLoop_keeps (y : Nat) {k m days : Nat} (hpos : 1 ≤ m) (hmonths : m + k = 13)
    (hdays : daysBeforeMonth y m + days < yearLength y) :
    let left := monthLoop ((List.range' m k).map (monthLength y)) days m
    1 ≤ left.2 ∧ left.2 ≤ 12 ∧ left.1 < monthLength y left.2 ∧
      daysBeforeMonth y left.2 + left.1 = daysBeforeMonth y m + days := by
  induction k generalizing m days with
  | zero =>
    -- behind December the year would be over
    obtain rfl : m = 13 := hmonths
    rw [Gregorian.daysBeforeMonth_thirteen] at hdays
    omega
  | succ k ih =>
    have hle : m ≤ 12 := by omega
    have hsucc := Gregorian.daysBeforeMonth_succ y hpos hle
    rw [List.range'_succ, List.map_cons, monthLoop]
    by_cases h : days < monthLength y m
    · rw [if_pos h]
      exact ⟨hpos, hle, h, rfl⟩
    · rw [if_neg h]
      have hleft : daysBeforeMonth y (m + 1) + (days - monthLength y m) < yearLength y := by omega
      have hpos' : 1 ≤ m + 1 := Nat.succ_pos m
      obtain ⟨hfirst, hlast, hlt, hcount⟩ := ih hpos' (by omega) hleft
      exact ⟨hfirst, hlast, hlt, by omega⟩

/-! ## The date of a day -/

/-- The first of January 1970. -/
def epoch : Date := Date.newYear 1970

/-- The date of a day has the number of the day. -/
private theorem exists_date (days : Nat) :
    ∃ d : Date, daysToYmd days = (d.year, d.month, d.day) ∧ d.number = epoch.number + days ∧
      d.year ≤ 1970 + days / 365 := by
  obtain ⟨hyear, hcount, -, hbound⟩ := yearLoop_keeps days 1970
  cases hyears : yearLoop days 1970 with
  | mk left year =>
    rw [hyears] at hyear hcount hbound
    dsimp only at hyear hcount hbound
    -- what the first loop leaves lies inside the year
    have hstart : daysBeforeMonth year 1 + left < yearLength year := by
      rw [Gregorian.daysBeforeMonth_one, Nat.zero_add]
      exact hyear
    obtain ⟨hpos, hle, hlt, hcount'⟩ := monthLoop_keeps year (k := 12) (Nat.le_refl 1) rfl hstart
    rw [← months_eq] at hpos hle hlt hcount'
    cases hmonths : monthLoop (months (isLeap year)) left 1 with
    | mk left' month =>
      rw [hmonths] at hpos hle hlt hcount'
      dsimp only at hpos hle hlt hcount'
      refine ⟨⟨year, month, left' + 1, ⟨hpos, hle, Nat.succ_pos left', hlt⟩⟩, ?_, ?_, ?_⟩
      · -- the date the two loops read
        unfold daysToYmd
        rw [hyears]
        show ((year, (monthLoop (months (isLeap year)) left 1).2,
          (monthLoop (months (isLeap year)) left 1).1 + 1) : Nat × Nat × Nat) = _
        rw [hmonths]
      · -- its number
        show daysBeforeYear year + daysBeforeMonth year month + left' = epoch.number + days
        rw [Gregorian.daysBeforeMonth_one] at hcount'
        unfold epoch
        rw [Date.number_newYear]
        omega
      · show year ≤ 1970 + days / 365
        omega

/-- The date that lies some days after the first of January 1970. -/
def dateOf (days : Nat) : Date := Date.next^[days] epoch

/-- A date is as many days after the epoch as was given. -/
private theorem number_dateOf (days : Nat) : (dateOf days).number = epoch.number + days :=
  Date.number_iterate_next epoch days

/-- The date of a day is the date that lies so many days after the first one. -/
theorem daysToYmd_eq (days : Nat) :
    daysToYmd days = ((dateOf days).year, (dateOf days).month, (dateOf days).day) := by
  obtain ⟨d, hymd, hnumber, -⟩ := exists_date days
  have hdate : dateOf days = d := Date.iterate_next_eq_iff.mpr hnumber
  rw [hdate]
  exact hymd

/-- The year stays in the range of 64 bits. -/
private theorem dateOf_year_le (days : Nat) : (dateOf days).year ≤ 1970 + days / 365 := by
  obtain ⟨d, -, hnumber, hyear⟩ := exists_date days
  have hdate : dateOf days = d := Date.iterate_next_eq_iff.mpr hnumber
  rw [hdate]
  exact hyear

/-! ## Text -/

/-- The seconds before a year. -/
def secondsBefore (year : Nat) : Nat := 86400 * (daysBeforeYear year - epoch.number)

example : secondsBefore 10000 = 253402300800 := by decide

/-- Before the year 10000 the year has four digits. -/
private theorem year_dateOf_lt {secs : Nat} (h : secs < secondsBefore 10000) :
    (dateOf (secs / 86400)).year < 10 ^ 4 := by
  show (dateOf (secs / 86400)).year < 10000
  have hbound : secs < 86400 * (daysBeforeYear 10000 - epoch.number) := h
  rw [Date.year_lt_iff, number_dateOf]
  omega

/-- The eight digits of a date. -/
def dateText (d : Date) : List Char :=
  Digits.zeroPadded 4 d.year ++ (Digits.zeroPadded 2 d.month ++ Digits.zeroPadded 2 d.day)

/-- The six digits of a time of day. -/
def timeText (secs : Nat) : List Char :=
  Digits.zeroPadded 2 (secs / 3600 % 24) ++
    (Digits.zeroPadded 2 (secs / 60 % 60) ++ Digits.zeroPadded 2 (secs % 60))

/-- The text is that of the date and that of the time of day. -/
private theorem formatDatetime_eq (secs : Nat) :
    formatDatetime secs =
      dateText (dateOf (secs / 86400)) ++ ('T' :: (timeText secs ++ ['Z'])) := by
  unfold formatDatetime secondsToYmdHms dateText timeText
  simp only [daysToYmd_eq, List.append_assoc, List.cons_append, List.nil_append]

/-- Month and day have two digits. -/
private theorem date_fields_lt (d : Date) : d.month < 10 ^ 2 ∧ d.day < 10 ^ 2 := by
  refine ⟨Nat.lt_of_le_of_lt d.valid.month_le (by decide), ?_⟩
  calc d.day ≤ monthLength d.year d.month := d.valid.day_le
    _ ≤ 31 := Gregorian.monthLength_le _ _
    _ < 10 ^ 2 := by decide

/-- Hours, minutes and seconds have two digits. -/
private theorem time_fields_lt (secs : Nat) :
    secs / 3600 % 24 < 10 ^ 2 ∧ secs / 60 % 60 < 10 ^ 2 ∧ secs % 60 < 10 ^ 2 := by
  refine ⟨?_, ?_, ?_⟩
  · exact Nat.lt_trans (Nat.mod_lt _ (by decide)) (by decide)
  · exact Nat.lt_trans (Nat.mod_lt _ (by decide)) (by decide)
  · exact Nat.lt_trans (Nat.mod_lt _ (by decide)) (by decide)

/-- The text of a date has eight characters. -/
private theorem length_dateText {d : Date} (hyear : d.year < 10 ^ 4) : (dateText d).length = 8 := by
  obtain ⟨hmonth, hday⟩ := date_fields_lt d
  unfold dateText
  rw [List.length_append, List.length_append, Digits.length_zeroPadded (by decide) hyear,
    Digits.length_zeroPadded (by decide) hmonth, Digits.length_zeroPadded (by decide) hday]

/-- The text of a time has six. -/
private theorem length_timeText (secs : Nat) : (timeText secs).length = 6 := by
  obtain ⟨hhour, hmin, hsec⟩ := time_fields_lt secs
  unfold timeText
  rw [List.length_append, List.length_append, Digits.length_zeroPadded (by decide) hhour,
    Digits.length_zeroPadded (by decide) hmin, Digits.length_zeroPadded (by decide) hsec]

/-- With the two letters there are sixteen. -/
private theorem length_formatDatetime {secs : Nat} (h : secs < secondsBefore 10000) :
    (formatDatetime secs).length = 16 := by
  rw [formatDatetime_eq, List.length_append, List.length_cons, List.length_append,
    length_dateText (year_dateOf_lt h), length_timeText, List.length_singleton]

/-- A digit is one byte long. -/
private theorem byteLen_digits {text : List Char} (h : ∀ c ∈ text, c.isDigit = true) :
    Text.byteLen text = text.length := by
  induction text with
  | nil => rfl
  | cons c text ih =>
    obtain ⟨hc, htext⟩ := List.forall_mem_cons.mp h
    have hsize : c.utf8Size = 1 := by
      have hle : c.toNat ≤ 57 := (Char.isDigit_iff_toNat.mp hc).2
      rw [Char.utf8Size_eq_one_iff, UInt32.le_iff_toNat_le]
      exact Nat.le_trans hle (by decide)
    rw [Text.byteLen_cons, hsize, ih htext, List.length_cons, Nat.add_comm]

/-- The text of a date has digits only. -/
private theorem isDigit_dateText {d : Date} {c : Char} (h : c ∈ dateText d) : c.isDigit = true := by
  rcases List.mem_append.mp h with hyear | hrest
  · exact Digits.isDigit_zeroPadded hyear
  · rcases List.mem_append.mp hrest with hmonth | hday
    · exact Digits.isDigit_zeroPadded hmonth
    · exact Digits.isDigit_zeroPadded hday

/-- The cut of the credential scope lies behind the date. -/
private theorem scopeDate_eq {secs : Nat} (h : secs < secondsBefore 10000) :
    scopeDate secs = some (dateText (dateOf (secs / 86400))) := by
  have hlength := length_dateText (year_dateOf_lt h)
  refine Text.sliceTo_eq_some.mpr ⟨_, formatDatetime_eq secs, ?_⟩
  rw [byteLen_digits fun _ => isDigit_dateText, hlength]

/-! ## Reading -/

/-- A field of digits at the beginning of a text. -/
def readField (width : Nat) (text : List Char) : Option (Nat × List Char) :=
  (Digits.parse (10 ^ width) (text.take width)).map fun n => (n, text.drop width)

/-- The seconds that a text of the basic format of ISO 8601 stands for. -/
def parseDatetime (text : List Char) : Option Nat := do
  let (year, text) ← readField 4 text
  let (month, text) ← readField 2 text
  let (day, text) ← readField 2 text
  let text ← Text.stripPrefix ['T'] text
  let (hour, text) ← readField 2 text
  let (min, text) ← readField 2 text
  let (sec, text) ← readField 2 text
  let text ← Text.stripPrefix ['Z'] text
  if h : Gregorian.Valid year month day ∧ hour < 24 ∧ min < 60 ∧ sec < 60 ∧ text = [] then
    let date : Date := ⟨year, month, day, h.1⟩
    return 86400 * (date.number - epoch.number) + 3600 * hour + 60 * min + sec
  else none

/-- A field of fixed width is read back. -/
private theorem readField_zeroPadded {width n : Nat} (hwidth : 0 < width) (h : n < 10 ^ width)
    (text : List Char) : readField width (Digits.zeroPadded width n ++ text) = some (n, text) := by
  have hlength := Digits.length_zeroPadded hwidth h
  unfold readField
  rw [List.take_left' hlength, List.drop_left' hlength, Digits.parse_zeroPadded hwidth h h]
  rfl

/-- The text of a date is read back. -/
theorem parseDatetime_formatDatetime {secs : Nat} (h : secs < secondsBefore 10000) :
    parseDatetime (formatDatetime secs) = some secs := by
  -- each field fits into the digits it is written with
  obtain ⟨hmonth, hday⟩ := date_fields_lt (dateOf (secs / 86400))
  obtain ⟨hhour, hmin, hsec⟩ := time_fields_lt secs
  have hvalid := (dateOf (secs / 86400)).valid
  have hnumber := number_dateOf (secs / 86400)
  rw [formatDatetime_eq]
  unfold parseDatetime dateText timeText
  simp only [List.append_assoc, readField_zeroPadded (by decide) (year_dateOf_lt h),
    readField_zeroPadded (by decide) hmonth, readField_zeroPadded (by decide) hday,
    readField_zeroPadded (by decide) hhour, readField_zeroPadded (by decide) hmin,
    readField_zeroPadded (by decide) hsec, Text.stripPrefix, if_true, Option.bind_eq_bind,
    Option.bind_some]
  -- the fields read back are in range
  have hhour' : secs / 3600 % 24 < 24 := Nat.mod_lt _ (by decide)
  have hmin' : secs / 60 % 60 < 60 := Nat.mod_lt _ (by decide)
  have hsec' : secs % 60 < 60 := Nat.mod_lt _ (by decide)
  rw [dif_pos ⟨hvalid, hhour', hmin', hsec', trivial⟩]
  show some (86400 * ((dateOf (secs / 86400)).number - epoch.number) + 3600 * (secs / 3600 % 24) +
    60 * (secs / 60 % 60) + secs % 60) = some secs
  rw [hnumber, Nat.add_sub_cancel_left]
  congr 1
  omega

/-! ## Order -/

/-- Later days have later dates. -/
theorem dateOf_lt_iff {days days' : Nat} : dateOf days < dateOf days' ↔ days < days' := by
  rw [← Date.number_lt_iff, number_dateOf, number_dateOf]
  exact Nat.add_lt_add_iff_left

/-- Different days have different dates. -/
private theorem dateOf_inj {days days' : Nat} : dateOf days = dateOf days' ↔ days = days' := by
  rw [← Date.number_inj, number_dateOf, number_dateOf]
  exact Nat.add_left_cancel_iff

/-- Texts that begin with dates are ordered by the dates first. -/
theorem dateText_append_before_iff {d e : Date} {text text' : List Char}
    (hd : d.year < 10 ^ 4) (he : e.year < 10 ^ 4) :
    Digits.Before (dateText d ++ text) (dateText e ++ text') ↔
      d < e ∨ d = e ∧ Digits.Before text text' := by
  -- the three fields decide in turn, each of a fixed width
  obtain ⟨hmonth, hday⟩ := date_fields_lt d
  obtain ⟨hmonth', hday'⟩ := date_fields_lt e
  unfold dateText
  rw [List.append_assoc, List.append_assoc, List.append_assoc, List.append_assoc,
    Digits.zeroPadded_append_before_iff (by decide) hd he,
    Digits.zeroPadded_append_before_iff (by decide) hmonth hmonth',
    Digits.zeroPadded_append_before_iff (by decide) hday hday']
  constructor
  · rintro (hlt | ⟨hy, hlt | ⟨hm, hlt | ⟨hd, htext⟩⟩⟩)
    · exact .inl (.inl hlt)
    · exact .inl (.inr ⟨hy, .inl hlt⟩)
    · exact .inl (.inr ⟨hy, .inr ⟨hm, hlt⟩⟩)
    · exact .inr ⟨Date.ext hy hm hd, htext⟩
  · rintro ((hlt | ⟨hy, hlt | ⟨hm, hlt⟩⟩) | ⟨rfl, htext⟩)
    · exact .inl hlt
    · exact .inr ⟨hy, .inl hlt⟩
    · exact .inr ⟨hy, .inr ⟨hm, .inl hlt⟩⟩
    · exact .inr ⟨rfl, .inr ⟨rfl, .inr ⟨rfl, htext⟩⟩⟩

/-- Texts that begin with times are ordered by the seconds of the day first. -/
theorem timeText_append_before_iff {secs secs' : Nat} {text text' : List Char} :
    Digits.Before (timeText secs ++ text) (timeText secs' ++ text') ↔
      secs % 86400 < secs' % 86400 ∨
        secs % 86400 = secs' % 86400 ∧ Digits.Before text text' := by
  obtain ⟨hhour, hmin, hsec⟩ := time_fields_lt secs
  obtain ⟨hhour', hmin', hsec'⟩ := time_fields_lt secs'
  -- the second of the day from its three fields
  have hfields : ∀ s, s % 86400 = 3600 * (s / 3600 % 24) + (60 * (s / 60 % 60) + s % 60) := by
    intro s
    omega
  have hlow : ∀ s, 60 * (s / 60 % 60) + s % 60 < 3600 := by
    intro s
    omega
  have hmod : ∀ s, s % 60 < 60 := fun s => Nat.mod_lt s (by decide)
  unfold timeText
  rw [List.append_assoc, List.append_assoc, List.append_assoc, List.append_assoc,
    Digits.zeroPadded_append_before_iff (by decide) hhour hhour',
    Digits.zeroPadded_append_before_iff (by decide) hmin hmin',
    Digits.zeroPadded_append_before_iff (by decide) hsec hsec']
  -- the fields in turn order the seconds of the day
  have hlt : secs % 86400 < secs' % 86400 ↔ secs / 3600 % 24 < secs' / 3600 % 24 ∨
      secs / 3600 % 24 = secs' / 3600 % 24 ∧ (secs / 60 % 60 < secs' / 60 % 60 ∨
        secs / 60 % 60 = secs' / 60 % 60 ∧ secs % 60 < secs' % 60) := by
    rw [hfields secs, hfields secs', Digits.mul_add_lt_iff (hlow secs) (hlow secs'),
      Digits.mul_add_lt_iff (hmod secs) (hmod secs')]
  rw [hlt]
  constructor
  · rintro (h | ⟨hh, h | ⟨hm, h | ⟨hs, htext⟩⟩⟩)
    · exact .inl (.inl h)
    · exact .inl (.inr ⟨hh, .inl h⟩)
    · exact .inl (.inr ⟨hh, .inr ⟨hm, h⟩⟩)
    · exact .inr ⟨by rw [hfields secs, hfields secs', hh, hm, hs], htext⟩
  · rintro ((h | ⟨hh, h | ⟨hm, h⟩⟩) | ⟨heq, htext⟩)
    · exact .inl h
    · exact .inr ⟨hh, .inl h⟩
    · exact .inr ⟨hh, .inr ⟨hm, .inl h⟩⟩
    · -- the same second of the day has the same hour, minute and second
      have hh : secs / 3600 % 24 = secs' / 3600 % 24 := by omega
      have hm : secs / 60 % 60 = secs' / 60 % 60 := by omega
      have hs : secs % 60 = secs' % 60 := by omega
      exact .inr ⟨hh, .inr ⟨hm, .inr ⟨hs, htext⟩⟩⟩

/-- The texts are ordered as the seconds are. -/
theorem formatDatetime_before_iff {secs secs' : Nat} (h : secs < secondsBefore 10000)
    (h' : secs' < secondsBefore 10000) :
    Digits.Before (formatDatetime secs) (formatDatetime secs') ↔ secs < secs' := by
  -- the closing `Z` is the same on both sides
  have htime : Digits.Before ('T' :: (timeText secs ++ ['Z'])) ('T' :: (timeText secs' ++ ['Z'])) ↔
      secs % 86400 < secs' % 86400 := by
    rw [Digits.cons_before_cons_iff, timeText_append_before_iff]
    constructor
    · rintro (hlt | ⟨-, hlast⟩)
      · exact hlt
      · exact absurd hlast (Digits.not_before_self ['Z'])
    · exact .inl
  rw [formatDatetime_eq, formatDatetime_eq,
    dateText_append_before_iff (year_dateOf_lt h) (year_dateOf_lt h'), dateOf_lt_iff, dateOf_inj,
    htime]
  omega

/-- The date of a request is the Gregorian date: the loops find the date that lies the given
number of days after the first of January 1970, and the year stays in range. Before the year
10000 the text of a date has sixteen characters, is read back as the same seconds and begins with
the date of the day, which the credential scope has, and texts are ordered as the seconds are. -/
theorem datetime_gregorian :
    (∀ days : Nat, ∃ date : Date, date = Date.next^[days] epoch ∧
      daysToYmd days = (date.year, date.month, date.day) ∧
      date.number = epoch.number + days ∧ date.year ≤ 1970 + days / 365) ∧
    (∀ secs < secondsBefore 10000, (formatDatetime secs).length = 16 ∧
      parseDatetime (formatDatetime secs) = some secs ∧
      (formatDatetime secs).take 8 = dateText (Date.next^[secs / 86400] epoch) ∧
      scopeDate secs = some ((formatDatetime secs).take 8)) ∧
    ∀ secs < secondsBefore 10000, ∀ secs' < secondsBefore 10000,
      Digits.Before (formatDatetime secs) (formatDatetime secs') ↔ secs < secs' := by
  refine ⟨fun days => ?_, fun secs h => ?_, fun secs h secs' h' => ?_⟩
  · exact ⟨dateOf days, rfl, daysToYmd_eq days, number_dateOf days, dateOf_year_le days⟩
  · have htake : (formatDatetime secs).take 8 = dateText (dateOf (secs / 86400)) := by
      rw [formatDatetime_eq]
      exact List.take_left' (length_dateText (year_dateOf_lt h))
    refine ⟨length_formatDatetime h, parseDatetime_formatDatetime h, htake, ?_⟩
    rw [htake]
    exact scopeDate_eq h
  · exact formatDatetime_before_iff h h'

/-- The 29th of February 2000 and the last second of the year 9999. -/
theorem datetime_leapDay :
    parseDatetime (formatDatetime 951782400) = some 951782400 ∧
      Digits.Before (formatDatetime 951782400) (formatDatetime 253402300799) :=
  ⟨(datetime_gregorian.2.1 951782400 (by decide)).2.1,
    (datetime_gregorian.2.2 951782400 (by decide) 253402300799 (by decide)).mpr (by decide)⟩

end Barqium.Native.SigV4
