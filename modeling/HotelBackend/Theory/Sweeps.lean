import Mathlib.Data.List.DropRight
import Mathlib.Data.List.Nodup
import Mathlib.Logic.Function.Iterate

/-!
# Sweeps over a prefix

A sweep looks at the first `n` of a queue and removes those that do not stick. Those that
stick stay where they are, and `n` of them in front block what is behind: repeated sweeps
clear the queue just if fewer than `n` that stick are before the last that does not
(`exists_cleared_iff`), and move at all just if the queue does not begin with `n` that
stick (`exists_moved_iff`).
-/

namespace HotelBackend.Theory

universe u

variable {α : Type u} {sticks : α → Bool} {n : ℕ} {l a c : List α} {x : α}

/-- One sweep. -/
def sweep (sticks : α → Bool) (n : ℕ) (l : List α) : List α := (l.take n).filter sticks ++ l.drop n

/-- Those that stick before the last that does not. -/
def aheadOfLast (sticks : α → Bool) (l : List α) : ℕ := (l.rdropWhile sticks).countP sticks

theorem sweep_sublist : (sweep sticks n l).Sublist l := by
  have h := (List.filter_sublist (p := sticks) (l := l.take n)).append_right (l.drop n)
  rwa [List.take_append_drop] at h

theorem iterate_sublist (k : ℕ) : ((sweep sticks n)^[k] l).Sublist l := by
  induction k with
  | zero => exact List.Sublist.refl l
  | succ k ih =>
    rw [Function.iterate_succ_apply']
    exact sweep_sublist.trans ih

/-- What sticks stays. -/
theorem mem_sweep (hx : x ∈ l) (hs : sticks x = true) : x ∈ sweep sticks n l := by
  rw [← List.take_append_drop n l] at hx
  rcases List.mem_append.1 hx with hx | hx
  · exact List.mem_append_left _ (List.mem_filter.2 ⟨hx, hs⟩)
  · exact List.mem_append_right _ hx

theorem mem_iterate (hx : x ∈ l) (hs : sticks x = true) (k : ℕ) : x ∈ (sweep sticks n)^[k] l := by
  induction k with
  | zero => exact hx
  | succ k ih =>
    rw [Function.iterate_succ_apply']
    exact mem_sweep ih hs

/-- A queue in which everything in reach sticks is left as it is. -/
theorem sweep_eq_self (h : ∀ x ∈ l.take n, sticks x = true) : sweep sticks n l = l := by
  rw [sweep, List.filter_eq_self.2 h, List.take_append_drop]

theorem iterate_eq_self (h : sweep sticks n l = l) (k : ℕ) : (sweep sticks n)^[k] l = l :=
  Function.iterate_fixed h k

/-- A queue has a last that does not stick, unless all stick. -/
theorem exists_last (h : ∃ x ∈ l, sticks x = false) :
    ∃ a x c, l = a ++ x :: c ∧ sticks x = false ∧ ∀ y ∈ c, sticks y = true := by
  have hne : l.rdropWhile sticks ≠ [] := by
    intro hnil
    obtain ⟨x, hx, hs⟩ := h
    rw [List.rdropWhile_eq_nil_iff.1 hnil x hx] at hs
    cases hs
  refine ⟨(l.rdropWhile sticks).dropLast, (l.rdropWhile sticks).getLast hne, l.rtakeWhile sticks, ?_, ?_, ?_⟩
  · conv_lhs => rw [← List.rdropWhile_append_rtakeWhile (p := sticks) (l := l), ← List.dropLast_append_getLast hne]
    simp
  · simpa using List.rdropWhile_last_not sticks l hne
  · exact fun y hy => List.mem_rtakeWhile_imp hy

theorem aheadOfLast_eq (hx : sticks x = false) (hc : ∀ y ∈ c, sticks y = true) :
    aheadOfLast sticks (a ++ x :: c) = a.countP sticks := by
  have hdrop : (a ++ x :: c).rdropWhile sticks = a ++ [x] := by
    induction c using List.reverseRecOn with
    | nil => exact List.rdropWhile_concat_neg _ _ _ (by simp [hx])
    | append_singleton c y ih =>
      rw [← List.cons_append, ← List.append_assoc, List.rdropWhile_concat_pos _ _ _ (hc y (by simp))]
      exact ih fun z hz => hc z (by simp [hz])
  rw [aheadOfLast, hdrop, List.countP_append, List.countP_singleton, if_neg (by simp [hx]), Nat.add_zero]

theorem aheadOfLast_eq_zero (h : ∀ x ∈ l, sticks x = true) : aheadOfLast sticks l = 0 := by
  rw [aheadOfLast, List.rdropWhile_eq_nil_iff.2 h, List.countP_nil]

/-- What is out of reach moves up by what is removed. -/
theorem sweep_append (h : n ≤ a.length) : sweep sticks n (a ++ c) = sweep sticks n a ++ c := by
  rw [sweep, sweep, List.take_append_of_le_length h, List.drop_append_of_le_length h, List.append_assoc]

theorem countP_sweep : (sweep sticks n l).countP sticks = l.countP sticks := by
  conv_rhs => rw [← List.take_append_drop n l]
  rw [sweep, List.countP_append, List.countP_append, List.countP_filter]
  simp

/-- Behind `n` that stick nothing is ever reached. -/
theorem mem_of_blocked (h : n ≤ a.countP sticks) (k : ℕ) : x ∈ (sweep sticks n)^[k] (a ++ x :: c) := by
  induction k generalizing a with
  | zero => simp
  | succ k ih =>
    rw [Function.iterate_succ_apply, sweep_append (h.trans List.countP_le_length)]
    exact ih (countP_sweep.symm ▸ h)

/-- With fewer than `n` in the way, the sweeps get to the last that does not stick. -/
theorem exists_cleared (hc : ∀ y ∈ c, sticks y = true) (h : a.countP sticks < n) :
    ∃ k, ∀ y ∈ (sweep sticks n)^[k] (a ++ x :: c), sticks y = true := by
  induction hm : a.length using Nat.strong_induction_on generalizing a with
  | _ m ih =>
    by_cases hreach : a.length < n
    · refine ⟨1, fun y hy => ?_⟩
      rw [Function.iterate_one, sweep] at hy
      rcases List.mem_append.1 hy with hy | hy
      · exact (List.mem_filter.1 hy).2
      · -- all that is out of reach is behind the last
        have hdrop : (a ++ x :: c).drop n = c.drop (n - a.length - 1) := by
          rw [List.drop_append, List.drop_eq_nil_of_le (by omega), List.nil_append,
            show n - a.length = (n - a.length - 1) + 1 by omega, List.drop_succ_cons]
          simp
        exact hc y (List.mem_of_mem_drop (hdrop ▸ hy))
    · have hle : n ≤ a.length := Nat.not_lt.1 hreach
      -- one of the first `n` does not stick, so the sweep is shorter
      have hshort : (sweep sticks n a).length < a.length := by
        refine Nat.lt_of_le_of_ne sweep_sublist.length_le fun heq => ?_
        have hself := sweep_sublist.eq_of_length heq
        have hall : ∀ y ∈ a.take n, sticks y = true := by
          have hfilter : (a.take n).filter sticks = a.take n := by
            exact List.append_cancel_right (hself.trans (List.take_append_drop n a).symm)
          exact List.filter_eq_self.1 hfilter
        have hcount : (a.take n).countP sticks = n := by
          rw [List.countP_eq_length.2 hall, List.length_take, min_eq_left hle]
        have hmono := (List.take_sublist n a).countP_le (p := sticks)
        omega
      obtain ⟨k, hk⟩ := ih _ (hm ▸ hshort) (countP_sweep.symm ▸ h) rfl
      exact ⟨k + 1, by rwa [Function.iterate_succ_apply, sweep_append hle]⟩

/-- Repeated sweeps clear the queue just if fewer than `n` that stick are before the last that does not. -/
theorem exists_cleared_iff (hn : 1 ≤ n) :
    (∃ k, ∀ y ∈ (sweep sticks n)^[k] l, sticks y = true) ↔ aheadOfLast sticks l < n := by
  by_cases hall : ∀ x ∈ l, sticks x = true
  · rw [aheadOfLast_eq_zero hall]
    exact ⟨fun _ => hn, fun _ => ⟨0, hall⟩⟩
  · obtain ⟨a, x, c, rfl, hx, hc⟩ := exists_last (by simpa using hall)
    rw [aheadOfLast_eq hx hc]
    constructor
    · rintro ⟨k, hk⟩
      by_contra hblocked
      rw [hk x (mem_of_blocked (Nat.not_lt.1 hblocked) k)] at hx
      cases hx
    · exact exists_cleared hc

/-- Repeated sweeps remove something just if the queue does not begin with `n` that stick. -/
theorem exists_moved_iff (h : ∃ x ∈ l, sticks x = false) (hnodup : l.Nodup) :
    (∃ k, ∃ x ∈ l, sticks x = false ∧ x ∉ (sweep sticks n)^[k] l) ↔ (l.takeWhile sticks).length < n := by
  constructor
  · rintro ⟨k, x, hx, hs, hgone⟩
    by_contra hlong
    have hself : sweep sticks n l = l := by
      refine sweep_eq_self fun y hy => ?_
      have hfirst : l.take n = (l.takeWhile sticks).take n := by
        conv_lhs => rw [← List.takeWhile_append_dropWhile (p := sticks) (l := l)]
        rw [List.take_append_of_le_length (Nat.not_lt.1 hlong)]
      exact List.mem_takeWhile_imp (List.mem_of_mem_take (hfirst ▸ hy))
    rw [iterate_eq_self hself] at hgone
    exact hgone hx
  · intro hlt
    have hne : l.dropWhile sticks ≠ [] := by
      intro hnil
      obtain ⟨x, hx, hs⟩ := h
      rw [List.dropWhile_eq_nil_iff.1 hnil x hx] at hs
      cases hs
    obtain ⟨x, c, hcons⟩ := List.exists_cons_of_ne_nil hne
    have hx : sticks x = false := by
      have := List.head_dropWhile_not sticks hne
      simpa [hcons] using this
    have hsplit : l = l.takeWhile sticks ++ x :: c := by
      conv_lhs => rw [← List.takeWhile_append_dropWhile (p := sticks) (l := l), hcons]
    refine ⟨1, x, hsplit ▸ by simp, hx, fun hmem => ?_⟩
    rw [Function.iterate_one, sweep] at hmem
    rcases List.mem_append.1 hmem with hmem | hmem
    · rw [(List.mem_filter.1 hmem).2] at hx
      cases hx
    · -- the first that does not stick is in reach, and nowhere else
      have htake : x ∈ l.take n := by
        have : (l.takeWhile sticks ++ [x]).Sublist (l.take n) := by
          have hlen : (l.takeWhile sticks ++ [x]).length ≤ n := by simpa using Nat.succ_le_of_lt hlt
          have : l.take n = (l.takeWhile sticks ++ [x]) ++ c.take (n - (l.takeWhile sticks ++ [x]).length) := by
            conv_lhs => rw [hsplit, show l.takeWhile sticks ++ x :: c = (l.takeWhile sticks ++ [x]) ++ c by simp]
            rw [List.take_append, List.take_of_length_le hlen]
          rw [this]
          exact List.sublist_append_left _ _
        exact this.subset (by simp)
      exact List.disjoint_of_nodup_append ((List.take_append_drop n l).symm ▸ hnodup) htake hmem

end HotelBackend.Theory
