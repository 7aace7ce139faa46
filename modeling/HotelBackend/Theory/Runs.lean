import Mathlib.Logic.Basic
import Mathlib.Logic.Function.Basic

/-!
# Runs of a machine

A machine has a start and an executable step: `exec s a` is the state after the
action `a`, or `none` where `a` is not possible in `s`. All the nondeterminism of
a system (who acts next, what a clock says, whether a call fails) is in the
action, so a run is a list of actions and can be computed.

A run may be asked to meet a condition at each step, `C s a`, on the state before
the step and the action taken. `Reachable C` are the states at the end of such
runs; `fun _ _ => True` is no condition. The one induction over runs is
`Reachable.invariant`, and `Reachable.of_run` turns a computed run into a
reachable state, `Reachable.of_check` one whose condition is computed with it.
-/

namespace HotelBackend.Theory

universe u v

/-- A machine over states `σ` with actions `α`. -/
structure Machine (σ : Type u) (α : Type v) where
  /-- Where it starts. -/
  init : σ → Prop
  /-- The state after an action, if the action is possible. -/
  exec : σ → α → Option σ

namespace Machine

variable {σ : Type u} {α : Type v} (M : Machine σ α)

/-- The states at the end of a run whose every step meets `C`. -/
inductive Reachable (C : σ → α → Prop) : σ → Prop where
  /-- The run of no steps. -/
  | init {s : σ} : M.init s → Reachable C s
  /-- One more step. -/
  | step {s s' : σ} {a : α} : Reachable C s → C s a → M.exec s a = some s' → Reachable C s'

variable {M}

/-- An invariant holds initially, and every step that meets the condition keeps it. -/
theorem Reachable.invariant {C : σ → α → Prop} {I : σ → Prop} (hinit : ∀ s, M.init s → I s)
    (hstep : ∀ s a s', I s → C s a → M.exec s a = some s' → I s') {s : σ} (h : M.Reachable C s) : I s := by
  induction h with
  | init hi => exact hinit _ hi
  | step _ hC he ih => exact hstep _ _ _ ih hC he

/-- A weaker condition allows more runs. -/
theorem Reachable.mono {C C' : σ → α → Prop} (hCC' : ∀ s a, C s a → C' s a) {s : σ} (h : M.Reachable C s) :
    M.Reachable C' s := by
  induction h with
  | init hi => exact .init hi
  | step _ hC he ih => exact .step ih (hCC' _ _ hC) he

/-- The state at the end of a list of actions. -/
def run (M : Machine σ α) : σ → List α → Option σ
  | s, [] => some s
  | s, a :: as => (M.exec s a).bind fun s' => run M s' as

@[simp] theorem run_nil (s : σ) : M.run s [] = some s := rfl

theorem run_cons (s : σ) (a : α) (as : List α) :
    M.run s (a :: as) = (M.exec s a).bind fun s' => M.run s' as := rfl

theorem run_append (s : σ) (as bs : List α) : M.run s (as ++ bs) = (M.run s as).bind fun s' => M.run s' bs := by
  induction as generalizing s with
  | nil => rfl
  | cons a as ih =>
    rw [List.cons_append, run_cons, run_cons, Option.bind_assoc]
    exact congrArg _ (funext ih)

/-- What every step keeps, a run keeps. -/
theorem run_induction {P : σ → α → Prop} {I : σ → Prop} (hstep : ∀ s a s', I s → P s a → M.exec s a = some s' → I s')
    {as : List α} (hP : ∀ a ∈ as, ∀ s, P s a) {s s' : σ} (hs : I s) (hr : M.run s as = some s') : I s' := by
  induction as generalizing s with
  | nil =>
    simp only [run_nil, Option.some.injEq] at hr
    exact hr ▸ hs
  | cons a as ih =>
    rw [run_cons, Option.bind_eq_some_iff] at hr
    obtain ⟨t, ht, hr⟩ := hr
    exact ih (fun b hb => hP b (List.mem_cons_of_mem _ hb)) (hstep _ _ _ hs (hP a List.mem_cons_self s) ht) hr

/-- A computed run of steps that meet the condition anywhere reaches the state it computes. -/
theorem Reachable.of_run {C : σ → α → Prop} {s s' : σ} {as : List α} (h : M.Reachable C s) (hC : ∀ a ∈ as, ∀ s, C s a)
    (hr : M.run s as = some s') : M.Reachable C s' :=
  run_induction (fun _ _ _ h hC he => h.step hC he) hC h hr

/-- A run that stops where a step does not meet the condition. -/
def check (M : Machine σ α) (C : σ → α → Prop) [∀ s a, Decidable (C s a)] : σ → List α → Option σ
  | s, [] => some s
  | s, a :: as => if C s a then (M.exec s a).bind fun s' => check M C s' as else none

/-- A computed run whose steps were found to meet the condition reaches the state it computes. -/
theorem Reachable.of_check {C : σ → α → Prop} [∀ s a, Decidable (C s a)] {s s' : σ} {as : List α} (h : M.Reachable C s)
    (hr : M.check C s as = some s') : M.Reachable C s' := by
  induction as generalizing s with
  | nil =>
    simp only [check, Option.some.injEq] at hr
    exact hr ▸ h
  | cons a as ih =>
    rw [check] at hr
    split at hr
    case isTrue hC =>
      obtain ⟨t, ht, hr⟩ := Option.bind_eq_some_iff.1 hr
      exact ih (h.step hC ht) hr
    case isFalse => cases hr

end Machine

end HotelBackend.Theory
