import Mathlib.Algebra.Group.Nat.Defs
import Mathlib.Data.Nat.Notation
import Mathlib.Data.List.Basic

/-!
# Numbers written in a fixed number of digits

`Positional.encode` writes a number in `width` digits of base `b`, most significant first,
over any alphabet. With an alphabet that ascends, numbers that fit are ordered as their
digits are (`encode_lt_encode_iff`), and two parts side by side are one number
(`encode_append`), so that a composite key sorts by its parts.
-/

namespace HotelBackend.Theory

universe u

namespace Positional

variable {α : Type u} {b : ℕ} {digit : ℕ → α}

/-- The last `width` digits of a number. -/
def encode (b : ℕ) (digit : ℕ → α) : ℕ → ℕ → List α
  | 0, _ => []
  | width + 1, n => encode b digit width (n / b) ++ [digit (n % b)]

@[simp] theorem length_encode (width n : ℕ) : (encode b digit width n).length = width := by
  induction width generalizing n with
  | zero => rfl
  | succ width ih => simp [encode, ih]

/-- Every digit is one of the base. -/
theorem exists_of_mem_encode (hb : 0 < b) {width n : ℕ} {c : α} (h : c ∈ encode b digit width n) : ∃ i < b, c = digit i := by
  induction width generalizing n with
  | zero => exact absurd h List.not_mem_nil
  | succ width ih =>
    rcases List.mem_append.1 h with h | h
    · exact ih h
    · exact ⟨n % b, Nat.mod_lt _ hb, List.mem_singleton.1 h⟩

/-- The most significant digit first. -/
theorem encode_succ (width n : ℕ) : encode b digit (width + 1) n = digit (n / b ^ width % b) :: encode b digit width n := by
  induction width generalizing n with
  | zero => simp [encode]
  | succ width ih =>
    rw [encode, ih, List.cons_append, Nat.div_div_eq_div_mul, ← Nat.pow_succ']
    rfl

/-- Two parts side by side are the digits of one number. -/
theorem encode_append (width : ℕ) (n : ℕ) {width' m : ℕ} (h : m < b ^ width') :
    encode b digit width n ++ encode b digit width' m = encode b digit (width + width') (n * b ^ width' + m) := by
  induction width' generalizing m with
  | zero =>
    obtain rfl : m = 0 := by simpa using h
    simp [encode]
  | succ width' ih =>
    have hb : 0 < b := by
      by_contra hb
      simp [Nat.eq_zero_of_not_pos hb] at h
    have hdiv : m / b < b ^ width' := Nat.div_lt_of_lt_mul (by rwa [Nat.pow_succ'] at h)
    have hsum : n * b ^ (width' + 1) + m = b * (n * b ^ width') + m := by rw [Nat.pow_succ', Nat.mul_left_comm]
    rw [encode, ← List.append_assoc, ih hdiv, ← Nat.add_assoc, encode, hsum, Nat.mul_add_div hb, Nat.mul_add_mod]

section Order

variable [LT α]

/-- The remainders decide the order of the digits. -/
theorem encode_lt_encode (hb : 0 < b) (hdigit : ∀ i j, i < j → j < b → digit i < digit j) {width n m : ℕ}
    (h : n % b ^ width < m % b ^ width) : encode b digit width n < encode b digit width m := by
  induction width with
  | zero => simp [Nat.mod_one] at h
  | succ width ih =>
    rw [encode_succ, encode_succ, List.cons_lt_cons_iff]
    rw [Nat.mod_pow_succ, Nat.mod_pow_succ] at h
    have hm : m % b ^ width < b ^ width := Nat.mod_lt _ (Nat.pow_pos hb)
    rcases Nat.lt_trichotomy (n / b ^ width % b) (m / b ^ width % b) with hlt | heq | hgt
    · exact .inl (hdigit _ _ hlt (Nat.mod_lt _ hb))
    · refine .inr ⟨congrArg digit heq, ih ?_⟩
      rw [heq] at h
      exact Nat.lt_of_add_lt_add_right h
    · -- a greater head digit outweighs every tail
      have hhead := Nat.mul_le_mul_left (b ^ width) hgt
      rw [Nat.mul_succ] at hhead
      have hn := Nat.zero_le (n % b ^ width)
      omega

/-- Numbers that fit are ordered as their digits are. -/
theorem encode_lt_encode_iff [Std.Asymm (fun x y : α => x < y)] (hb : 0 < b)
    (hdigit : ∀ i j, i < j → j < b → digit i < digit j) {width n m : ℕ} (hn : n < b ^ width) (hm : m < b ^ width) :
    encode b digit width n < encode b digit width m ↔ n < m := by
  have hlt : ∀ {n m : ℕ}, n < b ^ width → m < b ^ width → n < m → encode b digit width n < encode b digit width m := by
    intro n m hn hm h
    apply encode_lt_encode hb hdigit
    rwa [Nat.mod_eq_of_lt hn, Nat.mod_eq_of_lt hm]
  refine ⟨fun h => ?_, hlt hn hm⟩
  rcases Nat.lt_trichotomy n m with hnm | rfl | hmn
  · exact hnm
  · exact absurd h (List.lt_asymm h)
  · exact absurd h (List.lt_asymm (hlt hm hn hmn))

end Order

end Positional

end HotelBackend.Theory
