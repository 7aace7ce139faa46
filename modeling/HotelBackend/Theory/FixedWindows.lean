import Mathlib.Data.List.TakeWhile
import Mathlib.Data.List.Infix

/-!
# Windows that begin with their first item

Items in the order of their times fall into windows: the first item opens one, which lasts `length`, and the
next item that comes when it is gone opens the next. A rule says when a deadline is over; at the deadline itself
it may decide either way (`ExpiryRule`).

An interval that is no longer than a window meets at most two of them, since a window that lies between two
others takes longer than that. So if of each window at most `max` items are taken, at most twice as many are
taken in the interval (`countP_windows`).
-/

namespace HotelBackend.Theory

universe u

/-- When something with a deadline is gone. -/
structure ExpiryRule where
  gone : ℕ → ℕ → Bool
  gone_of_lt : ∀ {deadline now}, deadline < now → gone deadline now = true
  le_of_gone : ∀ {deadline now}, gone deadline now = true → deadline ≤ now

/-- What is gone stays gone. -/
theorem ExpiryRule.gone_mono (E : ExpiryRule) {deadline now later : ℕ} (h : E.gone deadline now = true) (hle : now ≤ later) :
    E.gone deadline later = true := by
  rcases hle.lt_or_eq with hlt | rfl
  · exact E.gone_of_lt ((E.le_of_gone h).trans_lt hlt)
  · exact h

variable {α : Type u} (E : ExpiryRule) (time : α → ℕ) (length : ℕ)

/-- Whether an item comes before the window is gone that `first` opened. -/
def inWindow (first a : α) : Bool := !E.gone (time first + length) (time a)

/-- The windows of items in the order of their times. -/
def windows : List α → List (List α)
  | [] => []
  | first :: rest => (first :: rest.takeWhile (inWindow E time length first)) :: windows (rest.dropWhile (inWindow E time length first))
termination_by items => items.length
decreasing_by
  have := (List.dropWhile_suffix (l := rest) (inWindow E time length first)).length_le
  simp only [List.length_cons]
  omega

@[simp] theorem windows_nil : windows E time length ([] : List α) = [] := by
  rw [windows]

theorem windows_cons (first : α) (rest : List α) : windows E time length (first :: rest) =
    (first :: rest.takeWhile (inWindow E time length first)) :: windows E time length (rest.dropWhile (inWindow E time length first)) := by
  rw [windows]

theorem flatten_windows (items : List α) : (windows E time length items).flatten = items := by
  induction items using windows.induct E time length with
  | case1 => simp
  | case2 first rest ih => rw [windows_cons, List.flatten_cons, ih, List.cons_append, List.takeWhile_append_dropWhile]

section Bound

variable {E time length} {first a b : α} {rest items : List α}

/-- Items of a window come before those after it. -/
theorem lt_of_inWindow (ha : inWindow E time length first a = true) (hb : inWindow E time length first b = false) : time a < time b := by
  rw [inWindow, Bool.not_eq_true'] at ha
  rw [inWindow, Bool.not_eq_false'] at hb
  by_contra hle
  rw [E.gone_mono hb (not_lt.1 hle)] at ha
  cases ha

/-- Once the window is gone it is for every later item. -/
theorem not_inWindow_of_mem (h : (first :: rest).Pairwise fun a b => time a ≤ time b)
    (hb : b ∈ rest.dropWhile (inWindow E time length first)) : inWindow E time length first b = false := by
  induction rest with
  | nil => cases hb
  | cons a rest ih =>
    rw [List.dropWhile_cons] at hb
    rw [List.pairwise_cons, List.pairwise_cons] at h
    obtain ⟨hfirst, ha, hrest⟩ := h
    split at hb
    · exact ih (List.pairwise_cons.2 ⟨fun c hc => hfirst c (List.mem_cons_of_mem a hc), hrest⟩) hb
    · next hgone =>
      simp only [inWindow, Bool.not_eq_true', Bool.not_eq_false] at hgone
      rw [inWindow, Bool.not_eq_false']
      rcases List.mem_cons.1 hb with rfl | hb
      · exact hgone
      · exact E.gone_mono hgone (ha b hb)

/-- A window lasts. -/
theorem le_of_mem_dropWhile (h : (first :: rest).Pairwise fun a b => time a ≤ time b)
    (hb : b ∈ rest.dropWhile (inWindow E time length first)) : time first + length ≤ time b := by
  have hgone := not_inWindow_of_mem h hb
  rw [inWindow, Bool.not_eq_false'] at hgone
  exact E.le_of_gone hgone

theorem pairwise_dropWhile {p : α → Bool} (h : (first :: rest).Pairwise fun a b => time a ≤ time b) :
    (rest.dropWhile p).Pairwise fun a b => time a ≤ time b :=
  (List.pairwise_cons.1 h).2.sublist (List.dropWhile_sublist p)

theorem inWindow_first (hpos : 0 < length) : inWindow E time length first first = true := by
  rw [inWindow, Bool.not_eq_true']
  by_contra hgone
  have := E.le_of_gone (Bool.not_eq_false _ ▸ hgone)
  omega

theorem inWindow_of_mem (hpos : 0 < length) (ha : a ∈ first :: rest.takeWhile (inWindow E time length first)) :
    inWindow E time length first a = true := by
  rcases List.mem_cons.1 ha with rfl | ha
  · exact inWindow_first hpos
  · exact List.mem_takeWhile_imp ha

variable {pick : List α → List α} {max lo hi : ℕ}

/-- What is taken of windows is of their items. -/
theorem mem_of_mem_pick (hpick : ∀ window, (pick window).Sublist window) (ha : a ∈ (windows E time length items).flatMap pick) : a ∈ items := by
  obtain ⟨window, hwindow, ha⟩ := List.mem_flatMap.1 ha
  rw [← flatten_windows E time length items]
  exact List.mem_flatten.2 ⟨window, hwindow, (hpick window).mem ha⟩

theorem countP_pick_le (hmax : ∀ window, (pick window).length ≤ max) (p : α → Bool) (window : List α) : (pick window).countP p ≤ max :=
  (List.countP_le_length).trans (hmax window)

/-- **At most two windows** meet an interval that is no longer than one of them. -/
theorem countP_windows (hpos : 0 < length) (hpick : ∀ window, (pick window).Sublist window) (hmax : ∀ window, (pick window).length ≤ max)
    (hitems : items.Pairwise fun a b => time a ≤ time b) (hlength : hi ≤ lo + length) :
    ((windows E time length items).flatMap pick).countP (fun a => lo ≤ time a ∧ time a ≤ hi) ≤ 2 * max := by
  induction items using windows.induct E time length with
  | case1 => simp
  | case2 first rest ih =>
    have hrest := pairwise_dropWhile (p := inWindow E time length first) hitems
    rw [windows_cons, List.flatMap_cons, List.countP_append]
    by_cases hmeets : ∃ a ∈ first :: rest.takeWhile (inWindow E time length first), lo ≤ time a ∧ time a ≤ hi
    · obtain ⟨a, ha, hlo, -⟩ := hmeets
      have hnext : ((windows E time length (rest.dropWhile (inWindow E time length first))).flatMap pick).countP
          (fun a => lo ≤ time a ∧ time a ≤ hi) ≤ max := by
        cases hsecond : rest.dropWhile (inWindow E time length first) with
        | nil => simp
        | cons second later =>
          have hlt : time a < time second := lt_of_inWindow (inWindow_of_mem hpos ha)
            (not_inWindow_of_mem hitems (hsecond ▸ List.mem_cons_self))
          -- the windows after the second begin too late
          have hlate : ((windows E time length (later.dropWhile (inWindow E time length second))).flatMap pick).countP
              (fun a => lo ≤ time a ∧ time a ≤ hi) = 0 := by
            rw [List.countP_eq_zero]
            intro b hb hin
            have hle := le_of_mem_dropWhile (hsecond ▸ hrest) (mem_of_mem_pick hpick hb)
            have := (of_decide_eq_true hin).2
            omega
          rw [windows_cons, List.flatMap_cons, List.countP_append, hlate, Nat.add_zero]
          exact countP_pick_le hmax _ _
      have hfirst := countP_pick_le hmax (fun a => lo ≤ time a ∧ time a ≤ hi) (first :: rest.takeWhile (inWindow E time length first))
      omega
    · have hnone : (pick (first :: rest.takeWhile (inWindow E time length first))).countP (fun a => lo ≤ time a ∧ time a ≤ hi) = 0 := by
        rw [List.countP_eq_zero]
        intro a ha hin
        exact hmeets ⟨a, (hpick _).mem ha, of_decide_eq_true hin⟩
      rw [hnone, Nat.zero_add]
      exact ih hrest

end Bound

end HotelBackend.Theory
