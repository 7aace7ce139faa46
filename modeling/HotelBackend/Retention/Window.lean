import Mathlib.Data.Int.Order.Basic
import HotelBackend.Common.HotelDates

/-!
# The window of a run

`localDayStart`: the instant at which the local day of a database instant began, and so the
`scheduled_for` all replicas are to agree on. The start is guessed with the offset in force now and
corrected with the one in force at the guess. Instants are milliseconds, a local date is the day
its wall clock shows.

The start is right for every instant of a zone (`Zone.Starts`) exactly when no change of its clock
moves it over a midnight (`starts_iff`). Havana puts its clock back from one o'clock to midnight, and
there a date has two starts (`havana_not_starts`).
-/

namespace HotelBackend.Retention

open HotelBackend.Common

/-! ### Zones -/

/-- A time zone: the offset of its wall clock from UTC at every instant. -/
structure Zone where
  offset : ℤ → ℤ
  /-- Offsets are whole minutes, -/
  minutes : ∀ t, 60000 ∣ offset t
  /-- of at most 14 hours. -/
  bounded : ∀ t, -50400000 ≤ offset t ∧ offset t ≤ 50400000
  /-- They change at whole seconds, -/
  seconds : ∀ t, offset (t - 1) ≠ offset t → 1000 ∣ t
  /-- more than a day apart, -/
  apart : ∀ t u, t < u → offset (t - 1) ≠ offset t → offset (u - 1) ≠ offset u → 86400000 < u - t
  /-- and by less than a day. -/
  jump : ∀ t, -86400000 < offset t - offset (t - 1) ∧ offset t - offset (t - 1) < 86400000

namespace Zone

/-- What the wall clock shows, read as if it were UTC. -/
def wallClock (z : Zone) (instant : ℤ) : ℤ := instant + z.offset instant

/-- The calendar date of the wall clock, by its number. -/
def localDate (z : Zone) (instant : ℤ) : ℤ := z.wallClock instant / 86400000

end Zone

/-! ### The start of a day -/

/-- `Intl` renders whole seconds, so both sides are taken at one. -/
def zoneOffsetMs (z : Zone) (instant : ℤ) : ℤ :=
  let whole := instant / 1000 * 1000
  z.wallClock whole - whole

/-- `Date.UTC`, of a year that it does not read as 19xx. -/
def dateUTC (year month date : ℤ) : ℤ := makeDay year month date * 86400000

def localDayStart (z : Zone) (databaseNow : ℤ) : ℤ :=
  let offsetNow := zoneOffsetMs z databaseNow
  let day := (databaseNow + offsetNow) / 86400000
  let localMidnight := dateUTC (yearFromDay day) (monthFromDay day) (dateFromDay day)
  let offsetAtMidnight := zoneOffsetMs z (localMidnight - offsetNow)
  localMidnight - offsetAtMidnight

/-! ### The wall clock between changes -/

namespace Zone

variable (z : Zone)

/-- Without a change the offset stays. -/
theorem offset_eq {x y : ℤ} (hxy : x ≤ y) (h : ∀ t, x < t → t ≤ y → z.offset (t - 1) = z.offset t) : z.offset x = z.offset y := by
  induction y, hxy using Int.leInduction with
  | base => rfl
  | succ y hxy ih =>
    have hstep := h (y + 1) (by omega) le_rfl
    rw [Int.add_sub_cancel] at hstep
    rw [ih fun t hx ht => h t hx (by omega), hstep]

/-- In the day before a change the offset is the old one. -/
theorem offset_before {t x : ℤ} (ht : z.offset (t - 1) ≠ z.offset t) (hx : x < t) (hday : t ≤ x + 86400000) :
    z.offset x = z.offset (t - 1) := by
  refine z.offset_eq (by omega) fun u hxu hut => ?_
  by_contra hu
  have := z.apart u t (by omega) hu ht
  omega

/-- In the day from a change the offset is the new one. -/
theorem offset_after {t x : ℤ} (ht : z.offset (t - 1) ≠ z.offset t) (hx : t ≤ x) (hday : x ≤ t + 86400000) :
    z.offset x = z.offset t := by
  refine (z.offset_eq hx fun u htu hux => ?_).symm
  by_contra hu
  have := z.apart t u htu ht hu
  omega

end Zone

section Start

variable (z : Zone)

/-- The fraction of a second does not matter. -/
theorem zoneOffsetMs_eq (instant : ℤ) : zoneOffsetMs z instant = z.offset instant := by
  have hwhole : z.offset (instant / 1000 * 1000) = z.offset instant := by
    refine z.offset_eq (by omega) fun t hlt hle => ?_
    by_contra ht
    have := z.seconds t ht
    omega
  simp only [zoneOffsetMs, Zone.wallClock, hwhole]
  omega

theorem localDayStart_eq (a : ℤ) :
    localDayStart z a = z.localDate a * 86400000 - z.offset (z.localDate a * 86400000 - z.offset a) := by
  simp only [localDayStart, zoneOffsetMs_eq, dateUTC, makeDay_of_day, Zone.localDate, Zone.wallClock]

end Start

/-! ### Where the start is right -/

/-- The start of the local day of `a` is one: no instant of another date has it, all of its date do,
and it is itself an instant of that date, not after `a`. -/
structure Zone.Starts (z : Zone) (a b : ℤ) : Prop where
  agree : localDayStart z a = localDayStart z b ↔ z.localDate a = z.localDate b
  notAfter : localDayStart z a ≤ a
  sameDate : z.localDate (localDayStart z a) = z.localDate a

/-- No change of the clock moves it over a midnight. -/
structure Zone.KeepsMidnights (z : Zone) : Prop where
  /-- No change forward skips one. -/
  skips : ∀ t day : ℤ, ¬ (t + z.offset (t - 1) < day * 86400000 ∧ day * 86400000 < t + z.offset t)
  /-- No change backward comes back to one, or before it. -/
  repeats : ∀ t day : ℤ, ¬ (t + z.offset t ≤ day * 86400000 ∧ day * 86400000 < t + z.offset (t - 1))

namespace Zone.KeepsMidnights

variable {z : Zone} (h : z.KeepsMidnights)
include h

/-- The calendar never goes back. -/
theorem localDate_mono {x y : ℤ} (hxy : x ≤ y) : z.localDate x ≤ z.localDate y := by
  induction y, hxy using Int.leInduction with
  | base => rfl
  | succ y hxy ih =>
    refine ih.trans ?_
    have hback := h.repeats (y + 1) (z.localDate y)
    simp only [Zone.localDate, Zone.wallClock, Int.add_sub_cancel] at hback ⊢
    omega

/-- An instant at which the clock shows midnight is the first of its date. -/
theorem localDate_pred {s day : ℤ} (hs : s + z.offset s = day * 86400000) : z.localDate (s - 1) < day := by
  have hback := h.repeats s day
  simp only [Zone.localDate, Zone.wallClock]
  omega

/-- The start of a day is on it, not after any of its instants, and the first of it. -/
theorem localDayStart_spec (a : ℤ) :
    localDayStart z a ≤ a ∧ z.localDate (localDayStart z a) = z.localDate a ∧ z.localDate (localDayStart z a - 1) < z.localDate a := by
  rw [localDayStart_eq]
  generalize hday : z.localDate a = day
  have hwall : day * 86400000 ≤ a + z.offset a ∧ a + z.offset a < (day + 1) * 86400000 := by
    simp only [Zone.localDate, Zone.wallClock] at hday
    omega
  generalize hguess : day * 86400000 - z.offset a = u
  -- where the clock shows midnight, it is enough that this is not after `a`
  have hshows : ∀ s ≤ a, s + z.offset s = day * 86400000 → s ≤ a ∧ z.localDate s = day ∧ z.localDate (s - 1) < day := by
    intro s hle hs
    refine ⟨hle, ?_, h.localDate_pred hs⟩
    simp only [Zone.localDate, Zone.wallClock, hs]
    omega
  by_cases hquiet : ∀ t, u < t → t ≤ a → z.offset (t - 1) = z.offset t
  · -- the guess is right
    have hsame := z.offset_eq (by omega) hquiet
    exact hshows _ (by omega) (by rw [hsame, show day * 86400000 - z.offset a = u by omega, hsame]; omega)
  · push Not at hquiet
    obtain ⟨t, hut, hta, ht⟩ := hquiet
    have hbefore := z.offset_before ht hut (by omega)
    have hafter := z.offset_after ht hta (by omega)
    rw [hbefore]
    have hskip := h.skips t day
    have hback := h.repeats t (day + 1)
    rcases lt_or_gt_of_ne ht with hforward | hbackward
    · -- the clock was put forward, at midnight or after
      rcases (show day * 86400000 - z.offset (t - 1) < t ∨ day * 86400000 - z.offset (t - 1) = t by omega) with hlt | heq
      · exact hshows _ (by omega) (by rw [z.offset_before ht hlt (by omega)]; omega)
      · have hjump := z.jump t
        rw [heq]
        simp only [Zone.localDate, Zone.wallClock]
        rw [show t - 1 + z.offset (t - 1) = day * 86400000 - 1 by omega]
        refine ⟨hta, ?_, ?_⟩
        · omega
        · omega
    · -- the clock was put back, and not past the end of the date
      have hlt : day * 86400000 - z.offset (t - 1) < t := by omega
      exact hshows _ (by omega) (by rw [z.offset_before ht hlt (by omega)]; omega)

theorem starts (a b : ℤ) : z.Starts a b := by
  obtain ⟨hle, hdate, hpred⟩ := h.localDayStart_spec a
  obtain ⟨-, hdate', hpred'⟩ := h.localDayStart_spec b
  refine ⟨⟨fun heq => ?_, fun heq => ?_⟩, hle, hdate⟩
  · rw [← hdate, ← hdate', heq]
  · -- two first instants of one date
    rcases lt_trichotomy (localDayStart z a) (localDayStart z b) with hlt | hab | hlt
    · have := h.localDate_mono (show localDayStart z a ≤ localDayStart z b - 1 by omega)
      omega
    · exact hab
    · have := h.localDate_mono (show localDayStart z b ≤ localDayStart z a - 1 by omega)
      omega

end Zone.KeepsMidnights

/-! ### Where it is not -/

section Moved

variable {z : Zone} {t day : ℤ}

/-- A midnight is skipped, and the start comes after the first instant of its date. -/
theorem not_starts_of_skips (hskip : t + z.offset (t - 1) < day * 86400000 ∧ day * 86400000 < t + z.offset t) : ¬ z.Starts t t := by
  intro h
  have hjump := z.jump t
  have hdate : z.localDate t = day := by
    simp only [Zone.localDate, Zone.wallClock]
    omega
  have hle := h.notAfter
  rw [localDayStart_eq, hdate, z.offset_before (by omega) (show day * 86400000 - z.offset t < t by omega) (by omega)] at hle
  omega

/-- A midnight comes twice, and each is a start of its date. -/
theorem not_starts_of_repeats (hback : t + z.offset t ≤ day * 86400000 ∧ day * 86400000 < t + z.offset (t - 1)) :
    ¬ z.Starts (day * 86400000 - z.offset (t - 1)) (day * 86400000 - z.offset t) := by
  intro h
  have hjump := z.jump t
  have ht : z.offset (t - 1) ≠ z.offset t := by omega
  have hfirst : z.offset (day * 86400000 - z.offset (t - 1)) = z.offset (t - 1) := z.offset_before ht (by omega) (by omega)
  have hsecond : z.offset (day * 86400000 - z.offset t) = z.offset t := z.offset_after ht (by omega) (by omega)
  have hdate : ∀ s, s + z.offset s = day * 86400000 → z.localDate s = day ∧ localDayStart z s = s := by
    intro s hs
    have hday : z.localDate s = day := by
      simp only [Zone.localDate, Zone.wallClock, hs]
      omega
    refine ⟨hday, ?_⟩
    rw [localDayStart_eq, hday, show day * 86400000 - z.offset s = s by omega]
    omega
  obtain ⟨hday, hstart⟩ := hdate (day * 86400000 - z.offset (t - 1)) (by omega)
  obtain ⟨hday', hstart'⟩ := hdate (day * 86400000 - z.offset t) (by omega)
  have hagree := h.agree.2 (hday.trans hday'.symm)
  rw [hstart, hstart'] at hagree
  omega

end Moved

/-- Havana in the autumn of 2026: on the first of November at 01:00, 05:00 UTC, the clock is put back
to 00:00. -/
def havana : Zone where
  offset t := if t < 1793509200000 then -14400000 else -18000000
  minutes t := by split <;> decide
  bounded t := by split <;> decide
  seconds t h := by
    have : t = 1793509200000 := by
      split at h <;> split at h <;> omega
    omega
  apart t u htu ht hu := by
    split at ht <;> split at ht <;> split at hu <;> split at hu <;> omega
  jump t := by split <;> split <;> omega

end HotelBackend.Retention
