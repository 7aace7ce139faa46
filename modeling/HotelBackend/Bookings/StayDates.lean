import Mathlib.Data.Rat.Floor
import HotelBackend.Common.Calendar
import HotelBackend.Bookings.LifecycleThrows

/-!
# The dates of a stay

`assertBookingDates` and `hotelDateSpanDays` as they stand, in milliseconds: a date goes through `Date.UTC` and
is kept if it prints back the same, `Date.UTC` runs over where a field is out of range and reads a year below
100 as 19xx, stays are compared partly as numbers and partly as texts, and nights are a rounded quotient. What
they accept are the dates of the calendar from the year 100 on, and what they count are its days
(`stay_arithmetic`). The booking service is modelled with whole days, which is the same
(`assertBookingDates_eq`).
-/

namespace HotelBackend.Bookings

open HotelBackend.Common
open Throwing (parseHotelDate_isoDay isoInstant_startOfDay newDate_of_parse)

def millisecondsPerDay : ℤ := 86400000

/-- `Math.round(q)`: the half goes up. -/
def mathRound (q : ℚ) : ℤ := ⌊q + 1 / 2⌋

/-- `Date.UTC(year, month, day)`; a year below 100 is of the twentieth century. -/
def dateUTC (year month day : ℤ) : ℤ := makeDay (if year < 100 then 1900 + year else year) month day * millisecondsPerDay

namespace BookingCreate

def parseHotelDate (value : String) : Option ℤ := do
  let (year, month, day) ← matchDate value
  let date := dateUTC year (month - 1) day
  if (isoInstant date).take 10 = value.toList then some date else none

def assertBookingDates (checkIn checkOut today : String) : ℤ :=
  match parseHotelDate checkIn, parseHotelDate checkOut with
  | some first, some last =>
    if last ≤ first then 0
    else if checkIn < today then 0
    else mathRound ((last - first : ℤ) / millisecondsPerDay)
  | _, _ => 0

end BookingCreate

/-- The date `Intl.DateTimeFormat` finds in the hotel's zone, put together from its parts: the year is not padded. -/
def hotelDateToday (today : CalendarDate) : String :=
  toString today.year.toNat ++ "-" ++ String.ofList (padDigits 2 today.month) ++ "-" ++ String.ofList (padDigits 2 today.day)

/-- Whole days from one date to another; `none` is `NaN`. -/
def hotelDateSpanDays (engine : String → Option ℤ) (from' to' : String) : Option ℤ := do
  let last ← newDate engine (to' ++ "T00:00:00.000Z")
  let first ← newDate engine (from' ++ "T00:00:00.000Z")
  return mathRound ((last - first : ℤ) / millisecondsPerDay)

/-! ### Milliseconds and days -/

theorem mathRound_days (n : ℤ) : mathRound ((n * millisecondsPerDay : ℤ) / millisecondsPerDay) = n := by
  have hpos : (millisecondsPerDay : ℚ) ≠ 0 := by simp [millisecondsPerDay]
  rw [mathRound, Int.cast_mul, mul_div_cancel_right₀ _ hpos, Int.floor_eq_iff]
  constructor <;> norm_num

theorem isoDay_length (day : ℤ) : 10 ≤ (isoDay day).length := by
  unfold isoDay
  dsimp only
  split
  · simp [padDigits_length]
  · simp [padDigits_length]

/-- A day prints its date. -/
theorem take_isoInstant (day : ℤ) : (isoInstant (day * millisecondsPerDay)).take 10 = (isoDay day).take 10 := by
  have hday : day * millisecondsPerDay / 86400000 = day := by
    unfold millisecondsPerDay
    omega
  rw [isoInstant_eq, hday, List.take_append_of_le_length (isoDay_length day)]

theorem parseHotelDate_ms (value : String) : BookingCreate.parseHotelDate value = (parseHotelDate value).map (· * millisecondsPerDay) := by
  unfold BookingCreate.parseHotelDate parseHotelDate
  cases matchDate value with
  | none => rfl
  | some fields =>
    obtain ⟨year, month, day⟩ := fields
    simp only [Option.bind_eq_bind, Option.bind_some, dateUTC, Nat.cast_lt_ofNat, take_isoInstant, isoDate]
    generalize makeDay (if year < 100 then 1900 + (year : ℤ) else year) (month - 1) day = date
    by_cases hsame : (isoDay date).take 10 = value.toList
    · rw [if_pos hsame, if_pos (by rw [hsame, String.ofList_toList])]
      rfl
    · rw [if_neg hsame, if_neg fun heq => hsame (by rw [← heq, String.toList_ofList])]
      rfl

/-- Whole days and milliseconds come to the same nights. -/
theorem assertBookingDates_eq (checkIn checkOut today : String) :
    BookingCreate.assertBookingDates checkIn checkOut today = assertBookingDates checkIn checkOut today := by
  unfold BookingCreate.assertBookingDates assertBookingDates
  rw [parseHotelDate_ms, parseHotelDate_ms]
  cases parseHotelDate checkIn with
  | none => rfl
  | some first =>
    cases parseHotelDate checkOut with
    | none => rfl
    | some last =>
      simp only [Option.map_some]
      have horder : last * millisecondsPerDay ≤ first * millisecondsPerDay ↔ last ≤ first := by
        unfold millisecondsPerDay
        omega
      have hnights : mathRound ((last * millisecondsPerDay - first * millisecondsPerDay : ℤ) / millisecondsPerDay) = last - first := by
        rw [← Int.sub_mul]
        exact mathRound_days _
      by_cases hle : last ≤ first
      · rw [if_pos (horder.2 hle), if_pos (.inl hle)]
        rfl
      · rw [if_neg fun h => hle (horder.1 h)]
        by_cases hpast : checkIn < today
        · rw [if_pos hpast, if_pos (.inr hpast)]
          rfl
        · rw [if_neg hpast, if_neg (not_or.2 ⟨hle, hpast⟩), hnights]
          omega

/-! ### Dates of the calendar -/

/-- The text spells the date, of a year that the program accepts. -/
structure Spelled (c : CalendarDate) (value : String) : Prop where
  century : 100 ≤ c.year
  fourDigits : c.year ≤ 9999
  text : c.text = value

section Spelled

variable {c d : CalendarDate} {value value' : String}

theorem Spelled.year (h : Spelled c value) : 0 ≤ c.year ∧ c.year ≤ 9999 := ⟨le_trans (by decide) h.century, h.fourDigits⟩

/-- A year of the twentieth century is not one below 100. -/
theorem makeDay_century (y m d : ℤ) (hm : 0 ≤ m ∧ m < 12) : makeDay y m d < makeDay (1900 + y) m d := by
  have hdiv : m / 12 = 0 := by omega
  have hfar : dayFromYear y + 366 < dayFromYear (1900 + y) := by
    unfold dayFromYear
    omega
  have hle : daysBeforeMonth (inLeapYear y) (m % 12).toNat ≤ 366 :=
    (CalendarDate.daysBeforeMonth_mono (by omega) le_rfl).trans (by cases inLeapYear y <;> decide)
  have hnonneg := daysBeforeMonth_nonneg (inLeapYear (1900 + y)) ⟨(m % 12).toNat, by omega⟩
  unfold makeDay
  dsimp only at hnonneg ⊢
  rw [hdiv, Int.add_zero, Int.add_zero]
  omega

/-- What is parsed are the dates of the calendar, from the year 100 on. -/
theorem parseHotelDate_eq_some_iff {day : ℤ} : parseHotelDate value = some day ↔ ∃ c, Spelled c value ∧ c.toDay = day := by
  constructor
  · intro h
    obtain ⟨hdate, hyear⟩ := parseHotelDate_spec h
    have htext : (CalendarDate.ofDay day).text = value := by
      rw [← String.toList_inj, hdate, ← CalendarDate.isoDay_toDay (show 0 ≤ yearFromDay day ∧ yearFromDay day ≤ 9999 from hyear),
        CalendarDate.toDay_ofDay]
    refine ⟨.ofDay day, ⟨?_, hyear.2, htext⟩, CalendarDate.toDay_ofDay day⟩
    show 100 ≤ yearFromDay day
    by_contra hsmall
    have hspelled : value = String.ofList (isoDay day) := by rw [← hdate, String.ofList_toList]
    have hbounds := dateFromDay_bounds day
    have hmonth := monthFromDay_lt day
    rw [parseHotelDate, hspelled, matchDate_isoDay hyear, ← hspelled] at h
    simp only [Option.bind_eq_bind, Option.bind_some, Option.ite_none_right_eq_some, Option.some.injEq] at h
    have hcentury : (yearFromDay day).toNat < 100 := by omega
    have hmonth' : ((monthFromDay day + 1 : ℕ) : ℤ) - 1 = monthFromDay day := by omega
    have hday := h.2
    rw [if_pos hcentury, hmonth', Int.toNat_of_nonneg hyear.1, Int.toNat_of_nonneg (show 0 ≤ dateFromDay day by omega)] at hday
    have hlater := makeDay_century (yearFromDay day) (monthFromDay day) (dateFromDay day) (by omega)
    rw [hday, makeDay_of_day] at hlater
    exact lt_irrefl _ hlater
  · rintro ⟨c, h, rfl⟩
    refine parseHotelDate_isoDay ?_ ?_
    · rw [CalendarDate.isoDay_toDay h.year, h.text]
    · rw [CalendarDate.year_toDay]
      exact ⟨h.century, h.fourDigits⟩

theorem Spelled.unique (h : Spelled c value) (h' : Spelled d value) : c = d := by
  have hc := parseHotelDate_eq_some_iff.2 ⟨c, h, rfl⟩
  rw [parseHotelDate_eq_some_iff.2 ⟨d, h', rfl⟩] at hc
  exact CalendarDate.toDay_strictMono.injective (Option.some.inj hc).symm

theorem Spelled.lt_iff (h : Spelled c value) (h' : Spelled d value') : value < value' ↔ c < d := by
  rw [← h.text, ← h'.text]
  exact CalendarDate.text_lt_iff h.year h'.year

/-- `Date.parse` of the start of a spelled date. -/
theorem newDate_spelled {engine : String → Option ℤ} (h : Spelled c value) :
    newDate engine (value ++ "T00:00:00.000Z") = some (c.toDay * millisecondsPerDay) := by
  have hday : c.toDay * 86400000 / 86400000 = c.toDay := by omega
  have htext : value ++ "T00:00:00.000Z" = String.ofList (isoInstant (c.toDay * 86400000)) := by
    rw [isoInstant_startOfDay, CalendarDate.isoDay_toDay h.year, h.text, ← String.toList_append, String.ofList_toList]
  refine newDate_of_parse ?_
  rw [htext, parseInstant_isoInstant, millisecondsPerDay]
  rw [hday, CalendarDate.year_toDay]
  exact h.year

end Spelled

/-- From 1000 on a year has its four digits. -/
theorem toString_year {n : ℕ} (h : 1000 ≤ n) (hn : n ≤ 9999) : (toString n).toList = padDigits 4 n := by
  have hdigit : ∀ d < 10, Nat.digitChar d = Char.ofNat (48 + d) := by decide
  rw [Nat.toString_eq_repr, Nat.toList_repr, Nat.toDigits_of_base_le (by decide) (by omega), Nat.toDigits_of_base_le (by decide) (by omega),
    Nat.toDigits_of_base_le (by decide) (by omega), Nat.toDigits_of_lt_base (by omega)]
  simp only [padDigits, hdigit _ (Nat.mod_lt _ (show 10 > 0 by decide)), hdigit (n / 10 / 10 / 10) (by omega), List.nil_append]
  rw [Nat.mod_eq_of_lt (show n / 10 / 10 / 10 < 10 by omega)]

theorem hotelDateToday_eq {today : CalendarDate} (h : 1000 ≤ today.year ∧ today.year ≤ 9999) : hotelDateToday today = today.text := by
  rw [← String.toList_inj, hotelDateToday, CalendarDate.text]
  simp only [String.toList_append, String.toList_ofList, toString_year (show 1000 ≤ today.year.toNat by omega) (by omega), List.append_assoc,
    List.cons_append]
  rfl

/-! ### The results -/

/-- What `assertBookingDates` says of two texts, on a day of the hotel. -/
structure StayArithmetic (engine : String → Option ℤ) (checkIn checkOut : String) (today : CalendarDate) : Prop where
  accepts : BookingCreate.assertBookingDates checkIn checkOut (hotelDateToday today) ≠ 0 ↔
    ∃ first last, Spelled first checkIn ∧ Spelled last checkOut ∧ first < last ∧ today ≤ first
  nights : ∀ first last, Spelled first checkIn → Spelled last checkOut → first < last → today ≤ first →
    BookingCreate.assertBookingDates checkIn checkOut (hotelDateToday today) = (Set.Ico first last).ncard
  span : BookingCreate.assertBookingDates checkIn checkOut (hotelDateToday today) ≠ 0 →
    hotelDateSpanDays engine checkIn checkOut = some (BookingCreate.assertBookingDates checkIn checkOut (hotelDateToday today))
  order : ∀ first last, Spelled first checkIn → Spelled last checkOut → (checkIn < checkOut ↔ first < last)

/-- Two spelled dates: the stay is accepted if it begins today or later and ends after it begins, and has its days. -/
theorem assertBookingDates_spelled {checkIn checkOut : String} {first last today : CalendarDate} (hin : Spelled first checkIn)
    (hout : Spelled last checkOut) (htoday : 1000 ≤ today.year ∧ today.year ≤ 9999) :
    BookingCreate.assertBookingDates checkIn checkOut (hotelDateToday today) =
      if first < last ∧ today ≤ first then last.toDay - first.toDay else 0 := by
  have hfirst := parseHotelDate_eq_some_iff.2 ⟨first, hin, rfl⟩
  have hlast := parseHotelDate_eq_some_iff.2 ⟨last, hout, rfl⟩
  have hpast : checkIn < hotelDateToday today ↔ first < today := by
    rw [hotelDateToday_eq htoday, ← hin.text]
    exact CalendarDate.text_lt_iff hin.year ⟨by omega, htoday.2⟩
  have horder : last.toDay ≤ first.toDay ↔ last ≤ first := CalendarDate.toDay_strictMono.le_iff_le
  rw [assertBookingDates_eq, assertBookingDates, hfirst, hlast]
  by_cases hstay : first < last ∧ today ≤ first
  · have hlt := CalendarDate.toDay_strictMono hstay.1
    have haccepted : ¬ (last.toDay ≤ first.toDay ∨ checkIn < hotelDateToday today) := by
      rw [horder, hpast]
      exact not_or.2 ⟨not_le.2 hstay.1, not_lt.2 hstay.2⟩
    simp only [if_neg haccepted, if_pos hstay]
    omega
  · have hrefused : last.toDay ≤ first.toDay ∨ checkIn < hotelDateToday today := by
      rw [horder, hpast]
      by_contra hn
      exact hstay ⟨not_le.1 fun h => hn (.inl h), not_lt.1 fun h => hn (.inr h)⟩
    simp only [if_pos hrefused, if_neg hstay]
    rfl

/-- Anything else is refused. -/
theorem spelled_of_assertBookingDates {checkIn checkOut today : String} (h : BookingCreate.assertBookingDates checkIn checkOut today ≠ 0) :
    ∃ first last, Spelled first checkIn ∧ Spelled last checkOut := by
  rw [assertBookingDates_eq, assertBookingDates] at h
  cases hin : parseHotelDate checkIn with
  | none =>
    rw [hin] at h
    exact absurd rfl h
  | some first =>
    cases hout : parseHotelDate checkOut with
    | none =>
      rw [hin, hout] at h
      exact absurd rfl h
    | some last =>
      obtain ⟨c, hc, -⟩ := parseHotelDate_eq_some_iff.1 hin
      obtain ⟨d, hd, -⟩ := parseHotelDate_eq_some_iff.1 hout
      exact ⟨c, d, hc, hd⟩

/-- **Stays are counted as the calendar counts**, on any day of a four-digit year. -/
theorem stay_arithmetic (engine : String → Option ℤ) (checkIn checkOut : String) (today : CalendarDate)
    (htoday : 1000 ≤ today.year ∧ today.year ≤ 9999) : StayArithmetic engine checkIn checkOut today := by
  have haccepts : BookingCreate.assertBookingDates checkIn checkOut (hotelDateToday today) ≠ 0 ↔
      ∃ first last, Spelled first checkIn ∧ Spelled last checkOut ∧ first < last ∧ today ≤ first := by
    constructor
    · intro h
      obtain ⟨first, last, hin, hout⟩ := spelled_of_assertBookingDates h
      rw [assertBookingDates_spelled hin hout htoday, ne_eq, ite_eq_right_iff, Classical.not_imp] at h
      exact ⟨first, last, hin, hout, h.1⟩
    · rintro ⟨first, last, hin, hout, hstay⟩
      have hlt := CalendarDate.toDay_strictMono hstay.1
      rw [assertBookingDates_spelled hin hout htoday, if_pos hstay]
      omega
  refine ⟨haccepts, fun first last hin hout hlt hle => ?_, fun h => ?_, fun first last hin hout => hin.lt_iff hout⟩
  · have hday := CalendarDate.toDay_strictMono hlt
    rw [assertBookingDates_spelled hin hout htoday, if_pos ⟨hlt, hle⟩, CalendarDate.ncard_Ico]
    omega
  · obtain ⟨first, last, hin, hout, hstay⟩ := haccepts.1 h
    rw [assertBookingDates_spelled hin hout htoday, if_pos hstay, hotelDateSpanDays, newDate_spelled hout, newDate_spelled hin]
    simp only [Option.bind_eq_bind, Option.bind_some, ← Int.sub_mul, mathRound_days]
    rfl

/-- The first of October 2026. -/
def firstOfOctober : CalendarDate := ⟨2026, 10, 1, by decide, by decide, by decide, by decide⟩

/-- Three nights over the end of a February with 29 days. -/
theorem stay_arithmetic_leapFebruary : 1000 ≤ firstOfOctober.year ∧
    BookingCreate.assertBookingDates "2028-02-27" "2028-03-01" (hotelDateToday firstOfOctober) = 3 ∧
    StayArithmetic (fun _ => none) "2028-02-27" "2028-03-01" firstOfOctober := by
  refine ⟨by decide, ?_, stay_arithmetic (fun _ => none) "2028-02-27" "2028-03-01" firstOfOctober (by decide)⟩
  rw [assertBookingDates_eq]
  decide

end HotelBackend.Bookings
