import Mathlib.Algebra.Group.Nat.Defs
import Mathlib.Data.Rat.Defs

/-!
# JSON values and JavaScript numbers

The values of the JSON columns, and the two facts about JavaScript numbers the
program depends on: a decimal string becomes the nearest double (`jsNumber`), and
`Number.isSafeInteger`.
-/

namespace HotelBackend.Common

/-- A JSON value. An object's fields are in the order they were written. -/
inductive Json where
  /-- `null`. -/
  | null
  /-- A boolean. -/
  | bool (b : Bool)
  /-- A number. -/
  | num (q : ℚ)
  /-- A string. -/
  | str (s : String)
  /-- An array. -/
  | arr (items : List Json)
  /-- An object. -/
  | obj (fields : List (String × Json))

/-- `Number.MAX_SAFE_INTEGER`. -/
def maxSafeInteger : ℕ := 9007199254740991

/-- `Number(text)` of a decimal integer: the nearest double, ties to even. -/
def jsNumber (n : ℕ) : ℕ :=
  if n ≤ maxSafeInteger then n
  else
    let ulp := 2 ^ (Nat.log2 n - 52)
    let down := n / ulp
    let rest := n % ulp
    if 2 * rest < ulp ∨ (2 * rest = ulp ∧ down % 2 = 0) then down * ulp else (down + 1) * ulp

/-- `Number.isSafeInteger`. -/
def isSafeInteger (q : ℚ) : Bool := q.den == 1 && q.num.natAbs ≤ maxSafeInteger

@[simp] theorem isSafeInteger_natCast (n : ℕ) : isSafeInteger n = true ↔ n ≤ maxSafeInteger := by
  simp only [isSafeInteger, Rat.den_natCast, Rat.num_natCast, Int.natAbs_natCast, beq_self_eq_true, Bool.true_and]
  exact decide_eq_true_iff

theorem jsNumber_of_le {n : ℕ} (h : n ≤ maxSafeInteger) : jsNumber n = n := if_pos h

/-- Rounding never brings a number back into the safe range. -/
theorem maxSafeInteger_lt_jsNumber {n : ℕ} (h : maxSafeInteger < n) : maxSafeInteger < jsNumber n := by
  have hn : n ≠ 0 := by
    unfold maxSafeInteger at h
    omega
  have hlog : 53 ≤ Nat.log2 n := by
    rw [Nat.le_log2 hn]
    unfold maxSafeInteger at h
    omega
  -- the significand of an unsafe integer has its top bit set
  have hdown : 2 ^ 52 ≤ n / 2 ^ (Nat.log2 n - 52) := by
    rw [Nat.le_div_iff_mul_le (Nat.two_pow_pos _), ← Nat.pow_add, show 52 + (Nat.log2 n - 52) = Nat.log2 n by omega]
    exact Nat.log2_self_le hn
  have hulp : 2 ≤ 2 ^ (Nat.log2 n - 52) := by
    calc 2 = 2 ^ 1 := rfl
      _ ≤ 2 ^ (Nat.log2 n - 52) := Nat.pow_le_pow_right (by omega) (by omega)
  have hprod : 2 ^ 53 ≤ n / 2 ^ (Nat.log2 n - 52) * 2 ^ (Nat.log2 n - 52) := by
    calc 2 ^ 53 = 2 ^ 52 * 2 := rfl
      _ ≤ n / 2 ^ (Nat.log2 n - 52) * 2 ^ (Nat.log2 n - 52) := Nat.mul_le_mul hdown hulp
  have hmax : maxSafeInteger < 2 ^ 53 := by decide
  unfold jsNumber
  rw [if_neg (by omega)]
  dsimp only
  split
  · omega
  · rw [Nat.add_mul]
    omega

/-- A number is safe exactly when it was safe before it was rounded. -/
theorem jsNumber_le_iff {n : ℕ} : jsNumber n ≤ maxSafeInteger ↔ n ≤ maxSafeInteger := by
  constructor
  · intro h
    by_contra hn
    have := maxSafeInteger_lt_jsNumber (not_le.1 hn)
    omega
  · intro h
    rwa [jsNumber_of_le h]

end HotelBackend.Common
