import Mathlib.Data.Int.ConditionallyCompleteOrder
import Mathlib.Data.Int.Interval
import Mathlib.Data.Prod.Lex
import Mathlib.Data.Set.Card
import Mathlib.Order.Interval.Set.OrderIso
import HotelBackend.Common.HotelDates

/-!
# The calendar

A date of the Gregorian calendar is a year, a month of it and a day of that month (`CalendarDate`), in the
order of these. The ECMAScript day number of a date counts the dates in that order: `toDay` is an order
isomorphism onto the integers (`dayIso`), so there are as many dates from one to another as their numbers
differ by (`ncard_Ico`).
-/

namespace HotelBackend.Common

/-! ### Months -/

/-- The days of a month, from January as 1. -/
def monthLength (leap : Bool) : ℕ → ℕ
  | 2 => if leap then 29 else 28
  | 4 | 6 | 9 | 11 => 30
  | _ => 31

/-- A month begins where the one before it ends. -/
theorem daysBeforeMonth_succ : ∀ (leap : Bool) (m : Fin 12),
    daysBeforeMonth leap (m + 1) = daysBeforeMonth leap m + monthLength leap (m + 1) := by
  decide

theorem daysBeforeMonth_nonneg : ∀ (leap : Bool) (m : Fin 13), 0 ≤ daysBeforeMonth leap m := by
  decide

/-- A day of the year is not after the end of its month. -/
theorem monthOfYearDay_length : ∀ (leap : Bool) (r : Fin 366), leap = true ∨ (r : ℕ) < 365 →
    (r : ℤ) < daysBeforeMonth leap (monthOfYearDay leap r) + monthLength leap (monthOfYearDay leap r + 1) := by
  decide +kernel

/-- A year begins where the one before it ends. -/
theorem dayFromYear_succ (y : ℤ) : dayFromYear (y + 1) = dayFromYear y + daysBeforeMonth (inLeapYear y) 12 := by
  have hcommon : daysBeforeMonth false 12 = 365 := rfl
  have hleap : daysBeforeMonth true 12 = 366 := rfl
  cases h : inLeapYear y with
  | true =>
    simp only [inLeapYear, Bool.and_eq_true, Bool.or_eq_true, beq_iff_eq, bne_iff_ne] at h
    rw [hleap]
    unfold dayFromYear
    omega
  | false =>
    simp only [inLeapYear, Bool.and_eq_false_iff, Bool.or_eq_false_iff, beq_eq_false_iff_ne, bne_eq_false_iff_eq] at h
    rw [hcommon]
    unfold dayFromYear
    omega

/-! ### Dates -/

/-- A date of the calendar, which is extended to all years. -/
structure CalendarDate where
  year : ℤ
  month : ℕ
  day : ℕ
  month_pos : 1 ≤ month
  month_le : month ≤ 12
  day_pos : 1 ≤ day
  day_le : day ≤ monthLength (inLeapYear year) month
  deriving DecidableEq

namespace CalendarDate

theorem ext_parts {c d : CalendarDate} (hy : c.year = d.year) (hm : c.month = d.month) (hd : c.day = d.day) : c = d := by
  cases c
  cases d
  obtain rfl := hy
  obtain rfl := hm
  obtain rfl := hd
  rfl

/-- By year, then by month, then by day. -/
def key (c : CalendarDate) : ℤ ×ₗ ℕ ×ₗ ℕ := toLex (c.year, toLex (c.month, c.day))

theorem key_injective : Function.Injective key := by
  intro c d h
  simp only [key, EmbeddingLike.apply_eq_iff_eq, Prod.mk.injEq] at h
  exact ext_parts h.1 h.2.1 h.2.2

instance : LinearOrder CalendarDate := LinearOrder.lift' key key_injective

theorem lt_iff {c d : CalendarDate} : c < d ↔
    c.year < d.year ∨ (c.year = d.year ∧ (c.month < d.month ∨ (c.month = d.month ∧ c.day < d.day))) := by
  show key c < key d ↔ _
  simp only [key, Prod.Lex.toLex_lt_toLex]

/-- `Date.UTC(year, month - 1, day)`, in days. -/
def toDay (c : CalendarDate) : ℤ := makeDay c.year (c.month - 1) c.day

/-- The days of the year before the date. -/
def yearDay (c : CalendarDate) : ℤ := daysBeforeMonth (inLeapYear c.year) (c.month - 1) + c.day - 1

variable {c d : CalendarDate}

theorem toDay_eq (c : CalendarDate) : c.toDay = dayFromYear c.year + c.yearDay := by
  have hpos := c.month_pos
  have hle := c.month_le
  have hdiv : ((c.month : ℤ) - 1) / 12 = 0 := by omega
  have hmod : (((c.month : ℤ) - 1) % 12).toNat = c.month - 1 := by omega
  unfold toDay makeDay yearDay
  dsimp only
  rw [hdiv, hmod, Int.add_zero]
  omega

/-- The date is in its month, so before the next begins. -/
theorem yearDay_lt_month (c : CalendarDate) : c.yearDay < daysBeforeMonth (inLeapYear c.year) c.month := by
  have hpos := c.month_pos
  have hday := c.day_le
  have hsucc := daysBeforeMonth_succ (inLeapYear c.year) ⟨c.month - 1, by have := c.month_le; omega⟩
  simp only [Nat.sub_add_cancel hpos] at hsucc
  unfold yearDay
  omega

theorem daysBeforeMonth_mono {leap : Bool} {m n : ℕ} (h : m ≤ n) (hn : n ≤ 12) : daysBeforeMonth leap m ≤ daysBeforeMonth leap n := by
  induction n, h using Nat.le_induction with
  | base => exact le_rfl
  | succ n hmn ih =>
    have hsucc := daysBeforeMonth_succ leap ⟨n, by omega⟩
    dsimp only at hsucc
    have := ih (by omega)
    omega

theorem yearDay_nonneg (c : CalendarDate) : 0 ≤ c.yearDay := by
  have hday := c.day_pos
  have hzero := daysBeforeMonth_nonneg (inLeapYear c.year) ⟨c.month - 1, by have := c.month_le; omega⟩
  unfold yearDay
  dsimp only at hzero
  omega

/-- The date is in its year. -/
theorem yearDay_lt_year (c : CalendarDate) : c.yearDay < daysBeforeMonth (inLeapYear c.year) 12 :=
  c.yearDay_lt_month.trans_le (daysBeforeMonth_mono c.month_le le_rfl)

/-- Later dates have later numbers. -/
theorem toDay_strictMono : StrictMono toDay := by
  intro c d h
  rw [toDay_eq, toDay_eq]
  rcases lt_iff.1 h with hyear | ⟨hyear, hmonth | ⟨hmonth, hday⟩⟩
  · have hend := c.yearDay_lt_year
    have hstart := d.yearDay_nonneg
    have hnext := dayFromYear_succ c.year
    have hmono := dayFromYear_mono (show c.year + 1 ≤ d.year by omega)
    omega
  · have hend := c.yearDay_lt_month
    have hmono : daysBeforeMonth (inLeapYear d.year) c.month ≤ _ :=
      daysBeforeMonth_mono (show c.month ≤ d.month - 1 by omega) (by have := d.month_le; omega)
    have hpos := d.day_pos
    rw [hyear] at hend ⊢
    unfold yearDay at *
    omega
  · unfold yearDay
    rw [hyear, hmonth]
    omega

/-! ### Days are dates -/

theorem dateFromDay_pos (day : ℤ) : 1 ≤ (dateFromDay day).toNat := by
  have := dateFromDay_bounds day
  omega

theorem dateFromDay_le (day : ℤ) : (dateFromDay day).toNat ≤ monthLength (inLeapYear (yearFromDay day)) (monthFromDay day + 1) := by
  have hspec := yearFromDay_spec day
  obtain ⟨r, hr⟩ := Int.eq_ofNat_of_zero_le (show 0 ≤ day - dayFromYear (yearFromDay day) by omega)
  have hnext := dayFromYear_succ (yearFromDay day)
  have hlt := yearDay_lt day
  have hcommon : inLeapYear (yearFromDay day) = true ∨ r < 365 := by
    cases hleap : inLeapYear (yearFromDay day) with
    | true => exact .inl rfl
    | false =>
      rw [hleap, show daysBeforeMonth false 12 = 365 from rfl] at hnext
      exact .inr (by omega)
  have hlength := monthOfYearDay_length (inLeapYear (yearFromDay day)) ⟨r, by omega⟩ hcommon
  dsimp only at hlength
  simp only [dateFromDay, monthFromDay, hr]
  omega

/-- The date of a day. -/
def ofDay (day : ℤ) : CalendarDate where
  year := yearFromDay day
  month := monthFromDay day + 1
  day := (dateFromDay day).toNat
  month_pos := Nat.le_add_left 1 _
  month_le := monthFromDay_lt day
  day_pos := dateFromDay_pos day
  day_le := dateFromDay_le day

theorem toDay_ofDay (day : ℤ) : (ofDay day).toDay = day := by
  have hdate := dateFromDay_bounds day
  have hcast : ((ofDay day).day : ℤ) = dateFromDay day := Int.toNat_of_nonneg (by omega)
  have hmonth : ((ofDay day).month : ℤ) - 1 = monthFromDay day := by
    show ((monthFromDay day + 1 : ℕ) : ℤ) - 1 = _
    omega
  rw [toDay, hcast, hmonth]
  exact makeDay_of_day day

theorem ofDay_toDay (c : CalendarDate) : ofDay c.toDay = c := toDay_strictMono.injective (toDay_ofDay c.toDay)

/-- Dates are numbered by the integers, in their order. -/
noncomputable def dayIso : CalendarDate ≃o ℤ :=
  toDay_strictMono.orderIsoOfSurjective toDay fun day => ⟨ofDay day, toDay_ofDay day⟩

/-- The dates from one to another, without the last, are as many as their numbers differ by. -/
theorem ncard_Ico (c d : CalendarDate) : ((Set.Ico c d).ncard : ℤ) = max (d.toDay - c.toDay) 0 := by
  have himage : dayIso '' Set.Ico c d = Set.Ico c.toDay d.toDay := dayIso.image_Ico c d
  rw [← Set.ncard_image_of_injective _ dayIso.injective, himage, ← Finset.coe_Ico, Set.ncard_coe_finset, Int.card_Ico]
  omega

/-! ### Texts -/

/-- `YYYY-MM-DD` -/
def text (c : CalendarDate) : String :=
  String.ofList (padDigits 4 c.year.toNat ++ '-' :: padDigits 2 c.month ++ '-' :: padDigits 2 c.day)

theorem year_toDay (c : CalendarDate) : yearFromDay c.toDay = c.year := congrArg year (ofDay_toDay c)

/-- A date of a four-digit year is spelled as its day is. -/
theorem isoDay_toDay (hyear : 0 ≤ c.year ∧ c.year ≤ 9999) : isoDay c.toDay = c.text.toList := by
  have hmonth : monthFromDay c.toDay + 1 = c.month := congrArg month (ofDay_toDay c)
  have hday : (dateFromDay c.toDay).toNat = c.day := congrArg day (ofDay_toDay c)
  rw [isoDay_of_year (by rwa [year_toDay]), year_toDay, hmonth, hday, text, String.toList_ofList]
  simp only [List.append_assoc, List.cons_append]

/-- Later dates are spelled later. -/
theorem text_lt (hc : 0 ≤ c.year ∧ c.year ≤ 9999) (hd : 0 ≤ d.year ∧ d.year ≤ 9999) (h : c < d) : c.text < d.text := by
  rw [String.lt_iff_toList_lt, ← isoDay_toDay hc, ← isoDay_toDay hd]
  exact isoDay_lt (toDay_strictMono h) (by rwa [year_toDay]) (by rwa [year_toDay])

/-- The order of texts is that of dates. -/
theorem text_lt_iff (hc : 0 ≤ c.year ∧ c.year ≤ 9999) (hd : 0 ≤ d.year ∧ d.year ≤ 9999) : c.text < d.text ↔ c < d := by
  refine ⟨fun h => ?_, text_lt hc hd⟩
  rcases lt_trichotomy c d with hlt | heq | hgt
  · exact hlt
  · rw [heq] at h
    exact absurd h (lt_irrefl _)
  · exact absurd (text_lt hd hc hgt) (lt_asymm h)

end CalendarDate

end HotelBackend.Common
