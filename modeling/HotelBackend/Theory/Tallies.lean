import Mathlib.Algebra.GroupWithZero.Nat
import Mathlib.Data.List.AList
import Mathlib.Algebra.BigOperators.Group.List.Basic

/-!
# Tallies

A tally has a number for some keys, and zero for every other. `bump` adds to one number,
`addAll` bumps by one entry after the other, and `merge` adds all entries at once, to
the numbers as they were. The two agree: `count_addAll` and `count_merge`.
-/

namespace HotelBackend.Theory

universe u

/-- Numbers under keys, each key once. -/
abbrev Tally (κ : Type u) := AList fun _ : κ => ℕ

namespace Tally

variable {κ : Type u} [DecidableEq κ]

/-- The number under the key. -/
def count (t : Tally κ) (k : κ) : ℕ := (t.lookup k).getD 0

/-- Adds to one number. -/
def bump (t : Tally κ) (k : κ) (n : ℕ) : Tally κ := t.insert k (t.count k + n)

/-- Adds the entries one after the other. -/
def addAll (t u : Tally κ) : Tally κ := u.foldl bump t

/-- Adds the entries, each to the number that was there before any. -/
def merge (t u : Tally κ) : Tally κ := u.foldl (fun acc k n => acc.insert k (t.count k + n)) t

/-- Some number is not zero. -/
def anyPositive (t : Tally κ) : Bool := t.entries.any fun e => 0 < e.2

@[simp] theorem count_empty (k : κ) : count (∅ : Tally κ) k = 0 := rfl

/-- A key that has no entry. -/
theorem count_of_notMem {t : Tally κ} {k : κ} (h : k ∉ t.keys) : t.count k = 0 := by
  rw [count, AList.lookup_eq_none.2 (mt AList.mem_keys.1 h), Option.getD_none]

theorem count_insert (t : Tally κ) (k j : κ) (n : ℕ) : count (t.insert k n) j = if j = k then n else t.count j := by
  split
  case isTrue h => rw [count, h, AList.lookup_insert, Option.getD_some]
  case isFalse h => rw [count, AList.lookup_insert_ne h, count]

theorem count_bump (t : Tally κ) (k j : κ) (n : ℕ) : (t.bump k n).count j = t.count j + if j = k then n else 0 := by
  rw [bump, count_insert]
  split
  case isTrue h => rw [h]
  case isFalse => rw [Nat.add_zero]

/-- What stands in a list of entries under a key. -/
def sumOf (k : κ) (es : List (Sigma fun _ : κ => ℕ)) : ℕ := (es.map fun e => if k = e.1 then e.2 else 0).sum

theorem sumOf_eq_zero {k : κ} {es : List (Sigma fun _ : κ => ℕ)} (h : k ∉ es.keys) : sumOf k es = 0 := by
  refine List.sum_eq_zero fun n hn => ?_
  obtain ⟨e, he, rfl⟩ := List.mem_map.1 hn
  refine if_neg ?_
  rintro rfl
  exact h (List.mem_keys_of_mem he)

theorem sumOf_cons (k : κ) (e : Sigma fun _ : κ => ℕ) (es : List (Sigma fun _ : κ => ℕ)) :
    sumOf k (e :: es) = (if k = e.1 then e.2 else 0) + sumOf k es := rfl

/-- Each key stands once, so the sum is its number. -/
theorem sumOf_eq_dlookup {k : κ} {es : List (Sigma fun _ : κ => ℕ)} (h : es.NodupKeys) :
    sumOf k es = (es.dlookup k).getD 0 := by
  induction es with
  | nil => rfl
  | cons e es ih =>
    obtain ⟨hnew, hes⟩ := List.nodupKeys_cons.1 h
    rw [sumOf_cons]
    by_cases hk : k = e.1
    · subst hk
      rw [if_pos rfl, List.dlookup_cons_eq, Option.getD_some]
      exact (congrArg _ (sumOf_eq_zero hnew)).trans (Nat.add_zero _)
    · rw [if_neg hk, List.dlookup_cons_ne _ _ hk, Nat.zero_add]
      exact ih hes

theorem count_eq_sumOf (t : Tally κ) (k : κ) : t.count k = sumOf k t.entries := (sumOf_eq_dlookup t.nodupKeys).symm

theorem count_addAll (t u : Tally κ) (k : κ) : (t.addAll u).count k = t.count k + u.count k := by
  rw [u.count_eq_sumOf, addAll, AList.foldl]
  generalize u.entries = es
  induction es generalizing t with
  | nil => rfl
  | cons e es ih => rw [List.foldl_cons, ih, count_bump, sumOf_cons, Nat.add_assoc]

theorem count_merge (t u : Tally κ) (k : κ) : (t.merge u).count k = t.count k + u.count k := by
  have key : ∀ (es : List (Sigma fun _ : κ => ℕ)) (acc : Tally κ), es.NodupKeys →
      count (es.foldl (fun r e => r.insert e.1 (t.count e.1 + e.2)) acc) k =
        if k ∈ es.keys then t.count k + sumOf k es else acc.count k := by
    intro es
    induction es with
    | nil => exact fun acc _ => rfl
    | cons e es ih =>
      intro acc h
      obtain ⟨hnew, hes⟩ := List.nodupKeys_cons.1 h
      rw [List.foldl_cons, ih _ hes, sumOf_cons, List.keys_cons, count_insert]
      by_cases hk : k = e.1
      · subst hk
        rw [if_neg hnew, if_pos rfl, if_pos List.mem_cons_self, if_pos rfl]
        exact congrArg _ ((congrArg _ (sumOf_eq_zero hnew)).trans (Nat.add_zero _)).symm
      · simp only [List.mem_cons, hk, false_or, if_false, Nat.zero_add]
  rw [merge, AList.foldl, key _ _ u.nodupKeys, u.count_eq_sumOf]
  split
  case isTrue => rfl
  case isFalse h => rw [sumOf_eq_zero h, Nat.add_zero]

end Tally

end HotelBackend.Theory
