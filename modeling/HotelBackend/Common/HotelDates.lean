import Mathlib.Data.String.Basic

/-!
# Hotel dates

A hotel date is a `YYYY-MM-DD` string. The program parses one through a JavaScript
`Date` at UTC midnight and keeps it only if the date prints back the same, so the
ECMAScript day arithmetic is here: days since 1970-01-01 (`makeDay`), the year, month
and day of such a number, and its ISO spelling (`isoDate`).
-/

namespace HotelBackend.Common

/-! ### ECMAScript days -/

/-- The day the year `y` starts. -/
def dayFromYear (y : ℤ) : ℤ := 365 * (y - 1970) + (y - 1969) / 4 - (y - 1901) / 100 + (y - 1601) / 400

/-- The leap years of the Gregorian calendar. -/
def inLeapYear (y : ℤ) : Bool := y % 4 == 0 && (y % 100 != 0 || y % 400 == 0)

/-- The days of a year before its month `m` (January is 0). -/
def daysBeforeMonth (leap : Bool) (m : ℕ) : ℤ :=
  let common : ℤ := [0, 31, 59, 90, 120, 151, 181, 212, 243, 273, 304, 334].getD m 365
  if leap ∧ 2 ≤ m then common + 1 else common

/-- `Date.UTC(y, m, d)` in days: a month or a day out of range runs over. -/
def makeDay (y m d : ℤ) : ℤ :=
  let ym := y + m / 12
  dayFromYear ym + daysBeforeMonth (inLeapYear ym) (m % 12).toNat + d - 1

/-- The year of a day: the average year gives it up to one. -/
def yearFromDay (day : ℤ) : ℤ :=
  let y := 1970 + day * 400 / 146097
  if dayFromYear (y + 1) ≤ day then y + 1 else if day < dayFromYear y then y - 1 else y

/-- The month of a day of the year (January is 0). -/
def monthOfYearDay (leap : Bool) (yearDay : ℤ) : ℕ :=
  (List.range 12).countP fun m => m ≠ 0 ∧ daysBeforeMonth leap m ≤ yearDay

/-- The month of a day. -/
def monthFromDay (day : ℤ) : ℕ :=
  let y := yearFromDay day
  monthOfYearDay (inLeapYear y) (day - dayFromYear y)

/-- The day of the month of a day, from 1. -/
def dateFromDay (day : ℤ) : ℤ :=
  let y := yearFromDay day
  day - dayFromYear y - daysBeforeMonth (inLeapYear y) (monthFromDay day) + 1

/-! ### Decimal digits -/

/-- `[0-9]`. -/
def isDigit (c : Char) : Bool := '0' ≤ c && c ≤ '9'

/-- The number a run of digits spells. -/
def digitsValue (digits : List Char) : ℕ := digits.foldl (fun n c => 10 * n + (c.toNat - 48)) 0

/-- The last `width` digits of `n`, most significant first. -/
def padDigits : ℕ → ℕ → List Char
  | 0, _ => []
  | width + 1, n => padDigits width (n / 10) ++ [Char.ofNat (48 + n % 10)]

/-- A day as `toISOString` spells it; a year outside 0..9999 is signed, with six digits. -/
def isoDay (day : ℤ) : List Char :=
  let y := yearFromDay day
  let year := if 0 ≤ y ∧ y ≤ 9999 then padDigits 4 y.toNat else (if y < 0 then '-' else '+') :: padDigits 6 y.natAbs
  year ++ '-' :: padDigits 2 (monthFromDay day + 1) ++ '-' :: padDigits 2 (dateFromDay day).toNat

/-- `toISOString().slice(0, 10)` of a day. -/
def isoDate (day : ℤ) : String := String.ofList ((isoDay day).take 10)

/-- `toISOString()` of an instant in microseconds. -/
def toISOString (us : ℕ) : String :=
  let ms := us / 1000
  String.ofList (isoDay (ms / 86400000) ++ 'T' :: padDigits 2 (ms / 3600000 % 24) ++ ':' :: padDigits 2 (ms / 60000 % 60) ++
    ':' :: padDigits 2 (ms / 1000 % 60) ++ '.' :: padDigits 3 (ms % 1000) ++ ['Z'])

/-! ### Hotel dates -/

/-- `/^(\d{4})-(\d{2})-(\d{2})$/`: the year, month and day spelled. -/
def matchDate (value : String) : Option (ℕ × ℕ × ℕ) :=
  match value.toList with
  | [a, b, c, d, '-', e, f, '-', g, h] =>
    if [a, b, c, d, e, f, g, h].all isDigit then some (digitsValue [a, b, c, d], digitsValue [e, f], digitsValue [g, h])
    else none
  | _ => none

/-- The day a hotel date names, if it is one. `Date.UTC` reads a year below 100 as 19xx. -/
def parseHotelDate (value : String) : Option ℤ := do
  let (year, month, day) ← matchDate value
  let date := makeDay (if year < 100 then 1900 + year else year) (month - 1) day
  if isoDate date = value then some date else none

/-- The nights of a stay, or 0 if it is not a stay that starts at `today` or later. -/
def assertBookingDates (checkIn checkOut today : String) : ℕ :=
  match parseHotelDate checkIn, parseHotelDate checkOut with
  | some first, some last => if last ≤ first ∨ checkIn < today then 0 else (last - first).toNat
  | _, _ => 0

example : assertBookingDates "2028-02-27" "2028-03-01" "2026-10-01" = 3 := by decide

/-! ### The order of hotel dates -/

theorem dayFromYear_mono {y z : ℤ} (h : y ≤ z) : dayFromYear y ≤ dayFromYear z := by
  unfold dayFromYear
  omega

/-- A day lies in its year. -/
theorem yearFromDay_spec (day : ℤ) :
    dayFromYear (yearFromDay day) ≤ day ∧ day < dayFromYear (yearFromDay day + 1) := by
  unfold yearFromDay
  dsimp only
  generalize hy : 1970 + day * 400 / 146097 = y
  have hlow : dayFromYear (y - 1) ≤ day := by
    unfold dayFromYear
    omega
  have hhigh : day < dayFromYear (y + 1 + 1) := by
    unfold dayFromYear
    omega
  split
  · next h => exact ⟨h, hhigh⟩
  · next h =>
    split
    · exact ⟨hlow, by rwa [Int.sub_add_cancel]⟩
    · next h' => exact ⟨not_lt.1 h', not_le.1 h⟩

theorem yearFromDay_mono {d e : ℤ} (h : d ≤ e) : yearFromDay d ≤ yearFromDay e := by
  by_contra hlt
  have := dayFromYear_mono (show yearFromDay e + 1 ≤ yearFromDay d by omega)
  have := yearFromDay_spec d
  have := yearFromDay_spec e
  omega

/-- The day of the year is below 366. -/
theorem yearDay_lt (day : ℤ) : day - dayFromYear (yearFromDay day) < 366 := by
  have hstep : dayFromYear (yearFromDay day + 1) ≤ dayFromYear (yearFromDay day) + 366 := by
    unfold dayFromYear
    omega
  have := yearFromDay_spec day
  omega

/-- A day of the year lies in its month. -/
theorem monthOfYearDay_spec : ∀ (leap : Bool) (r : Fin 366),
    daysBeforeMonth leap (monthOfYearDay leap r) ≤ r ∧ (r : ℤ) ≤ daysBeforeMonth leap (monthOfYearDay leap r) + 31 := by
  decide +kernel

theorem dateFromDay_bounds (day : ℤ) : 1 ≤ dateFromDay day ∧ dateFromDay day ≤ 32 := by
  have hlow := (yearFromDay_spec day).1
  obtain ⟨r, hr⟩ := Int.eq_ofNat_of_zero_le (show 0 ≤ day - dayFromYear (yearFromDay day) by omega)
  have hlt := yearDay_lt day
  have hspec := monthOfYearDay_spec (inLeapYear (yearFromDay day)) ⟨r, by omega⟩
  dsimp only at hspec
  simp only [dateFromDay, monthFromDay, hr]
  omega

theorem monthOfYearDay_mono {leap : Bool} {d e : ℤ} (h : d ≤ e) : monthOfYearDay leap d ≤ monthOfYearDay leap e := by
  refine List.countP_mono_left fun m _ hm => ?_
  rw [decide_eq_true_eq] at hm ⊢
  exact ⟨hm.1, hm.2.trans h⟩

theorem monthFromDay_le (day : ℤ) : monthFromDay day ≤ 12 :=
  List.countP_le_length.trans (by rw [List.length_range])

theorem monthFromDay_lt (day : ℤ) : monthFromDay day < 12 := by
  have hzero : ∀ leap r, monthOfYearDay leap r ≤ 11 := by
    intro leap r
    have : List.range 12 = 0 :: List.range' 1 11 := rfl
    rw [monthOfYearDay, this, List.countP_cons_of_neg (by simp)]
    exact List.countP_le_length
  exact Nat.lt_succ_of_le (hzero _ _)

/-- A day is made of its year, month and date. -/
theorem makeDay_of_day (day : ℤ) : makeDay (yearFromDay day) (monthFromDay day) (dateFromDay day) = day := by
  have hmonth := monthFromDay_lt day
  have hdiv : (monthFromDay day : ℤ) / 12 = 0 := by omega
  have hmod : ((monthFromDay day : ℤ) % 12).toNat = monthFromDay day := by omega
  unfold makeDay
  dsimp only
  rw [hdiv, Int.add_zero, hmod]
  unfold dateFromDay
  dsimp only
  omega

theorem charOfDigit_lt : ∀ a < 10, ∀ b < 10, a < b → Char.ofNat (48 + a) < Char.ofNat (48 + b) := by decide

/-- Padded numbers are ordered as strings. -/
theorem padDigits_lt {w n m : ℕ} (h : n < m) (hm : m < 10 ^ w) (s t : List Char) :
    padDigits w n ++ s < padDigits w m ++ t := by
  induction w generalizing n m s t with
  | zero =>
    rw [pow_zero] at hm
    omega
  | succ w ih =>
    simp only [padDigits, List.append_assoc, List.singleton_append]
    rcases Nat.lt_or_ge (n / 10) (m / 10) with hlt | hge
    · rw [pow_succ] at hm
      exact ih hlt (by omega) _ _
    · rw [show n / 10 = m / 10 by omega]
      refine List.append_left_lt ?_
      rw [List.cons_lt_cons_iff]
      exact .inl (charOfDigit_lt _ (by omega) _ (by omega) (by omega))

theorem padDigits_length (w n : ℕ) : (padDigits w n).length = w := by
  induction w generalizing n with
  | zero => rfl
  | succ w ih => simp [padDigits, ih]

/-- A day of a four-digit year, spelled. -/
theorem isoDay_of_year {day : ℤ} (h : 0 ≤ yearFromDay day ∧ yearFromDay day ≤ 9999) :
    isoDay day = padDigits 4 (yearFromDay day).toNat ++ ('-' :: padDigits 2 (monthFromDay day + 1) ++
      ('-' :: padDigits 2 (dateFromDay day).toNat)) := by
  simp only [isoDay, if_pos h, List.append_assoc]

/-- Later days are spelled later. -/
theorem isoDay_lt {d e : ℤ} (h : d < e) (hd : 0 ≤ yearFromDay d ∧ yearFromDay d ≤ 9999)
    (he : 0 ≤ yearFromDay e ∧ yearFromDay e ≤ 9999) : isoDay d < isoDay e := by
  rw [isoDay_of_year hd, isoDay_of_year he]
  rcases lt_or_eq_of_le (yearFromDay_mono h.le) with hyear | hyear
  · exact padDigits_lt (by omega) (by omega) _ _
  rw [hyear]
  refine List.append_left_lt ?_
  simp only [List.cons_append]
  rw [List.cons_lt_cons_iff]
  refine .inr ⟨rfl, ?_⟩
  have hmonth : monthFromDay d ≤ monthFromDay e := by
    simp only [monthFromDay, hyear]
    exact monthOfYearDay_mono (by omega)
  rcases lt_or_eq_of_le hmonth with hmonth | hmonth
  · have := monthFromDay_le e
    exact padDigits_lt (by omega) (by omega) _ _
  rw [hmonth]
  refine List.append_left_lt ?_
  rw [List.cons_lt_cons_iff]
  have hdate : dateFromDay d < dateFromDay e := by
    simp only [dateFromDay, hyear, hmonth]
    omega
  have := dateFromDay_bounds d
  have := dateFromDay_bounds e
  refine .inr ⟨rfl, ?_⟩
  have hlt := padDigits_lt (w := 2) (show (dateFromDay d).toNat < (dateFromDay e).toNat by omega) (by omega) [] []
  rwa [List.append_nil, List.append_nil] at hlt

/-- A hotel date is spelled as its day, in a four-digit year. -/
theorem parseHotelDate_spec {value : String} {day : ℤ} (h : parseHotelDate value = some day) :
    value.toList = isoDay day ∧ 0 ≤ yearFromDay day ∧ yearFromDay day ≤ 9999 := by
  simp only [parseHotelDate, Option.bind_eq_bind, Option.bind_eq_some_iff] at h
  obtain ⟨⟨year, month, date⟩, hmatch, h⟩ := h
  rw [Option.ite_none_right_eq_some, Option.some.injEq] at h
  obtain ⟨hiso, hday⟩ := h
  rw [hday] at hiso
  have hlist := congrArg String.toList hiso
  rw [isoDate, String.toList_ofList] at hlist
  -- the first character is a digit, not the sign of a longer year
  have hyear : 0 ≤ yearFromDay day ∧ yearFromDay day ≤ 9999 := by
    by_contra hn
    rw [isoDay] at hlist
    simp only [if_neg hn, List.cons_append, List.take_succ_cons] at hlist
    rw [matchDate, ← hlist] at hmatch
    split at hmatch
    · next heq =>
      have hsign := (List.cons.inj heq).1
      split at hmatch
      · next hdigits =>
        simp only [List.all_cons, Bool.and_eq_true] at hdigits
        rw [← hsign] at hdigits
        split at hdigits
        · exact absurd hdigits.1 (by decide)
        · exact absurd hdigits.1 (by decide)
      · cases hmatch
    · cases hmatch
  refine ⟨?_, hyear⟩
  rw [← hlist, List.take_of_length_le]
  simp [isoDay_of_year hyear, padDigits_length]

/-- A stay has a night. -/
theorem lt_of_assertBookingDates {checkIn checkOut today : String} (h : assertBookingDates checkIn checkOut today ≠ 0) :
    checkIn < checkOut := by
  unfold assertBookingDates at h
  split at h
  · next first last hfirst hlast =>
    split at h
    · exact absurd rfl h
    · next hn =>
      push Not at hn
      obtain ⟨hf, hfy⟩ := parseHotelDate_spec hfirst
      obtain ⟨hl, hly⟩ := parseHotelDate_spec hlast
      rw [String.lt_iff_toList_lt, hf, hl]
      exact isoDay_lt hn.1 hfy hly
  · exact absurd rfl h

end HotelBackend.Common
