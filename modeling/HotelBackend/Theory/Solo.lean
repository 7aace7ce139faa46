import HotelBackend.Theory.Guarantees

/-!
# A transaction alone

`Txn.alone base c Q E now`: run on the store `base` with no other program in between, from the point
where its own writes have made `now` of it, `c` comes to its end, and whatever the store and the host
supply it with, it ends with `Q` or fails with an error of `E`. It is `Txn.wp` where nobody else
moves, with the failures and the end included, and at least one supply for each write.

`exists_run_of_alone` and `alone_of_run` say that of the machine: from a state in which no other
program holds a key, steps of the program alone bring it to its end, and any such steps that do
bring it to an end that satisfies `Q` or `E`. `SucceedsAlone` is what a caller means by it: the call,
made when nobody else is there, commits.
-/

namespace HotelBackend.Theory.Transactions

variable {Db Key Sup Err α β ι : Type}

/-- Run by itself, the program ends with `Q`, or fails with an error of `E`. -/
def Txn.alone (base : Db) : Txn Db Key Sup Err α → (α → Db → Prop) → (Err → Prop) → Db → Prop
  | .done a, Q, _ => fun now => Q a now
  | .throw e, _, E => fun _ => E e
  | .peek q k, Q, E => fun now => (k (q base)).alone base Q E now
  | .read q k, Q, E => fun now => (k (q now)).alone base Q E now
  | .lock _ q k, Q, E => fun now => (k (q now)).alone base Q E now
  | .write _ ok u k, Q, E => fun now =>
      (∃ x, ok x now = true) ∧ ∀ x, ok x now = true → (k x).alone base Q E (u x now)

namespace Txn

variable {Q : α → Db → Prop} {E : Err → Prop} {base now : Db}

/-- Sequencing. -/
@[simp] theorem alone_bind (c : Txn Db Key Sup Err α) (f : α → Txn Db Key Sup Err β) (Q : β → Db → Prop) (E : Err → Prop)
    (now : Db) : (c >>= f).alone base Q E now ↔ c.alone base (fun a now => (f a).alone base Q E now) E now := by
  show (c.bind f).alone base Q E now ↔ _
  induction c generalizing now with
  | done a => exact Iff.rfl
  | throw e => exact Iff.rfl
  | peek q k ih => exact ih _ _
  | read q k ih => exact ih _ _
  | lock ks q k ih => exact ih _ _
  | write ks ok u k ih => exact and_congr_right fun _ => forall₂_congr fun x _ => ih x _

@[simp] theorem alone_pure (a : α) : (pure a : Txn Db Key Sup Err α).alone base Q E now ↔ Q a now := Iff.rfl

@[simp] theorem alone_peeking (q : Db → α) : (peeking q : Txn Db Key Sup Err α).alone base Q E now ↔ Q (q base) now := Iff.rfl

@[simp] theorem alone_reading (q : Db → α) : (reading q : Txn Db Key Sup Err α).alone base Q E now ↔ Q (q now) now := Iff.rfl

@[simp] theorem alone_locking (ks : Db → List Key) (q : Db → α) :
    (locking ks q : Txn Db Key Sup Err α).alone base Q E now ↔ Q (q now) now := Iff.rfl

@[simp] theorem alone_writing (ks : Sup → Db → List Key) (ok : Sup → Db → Bool) (u : Sup → Db → Db) (Q : Sup → Db → Prop) :
    (writing ks ok u : Txn Db Key Sup Err Sup).alone base Q E now ↔
      (∃ x, ok x now = true) ∧ ∀ x, ok x now = true → Q x (u x now) := Iff.rfl

@[simp] theorem alone_orThrow_some (a : α) (e : Err) : (orThrow (some a) e : Txn Db Key Sup Err α).alone base Q E now ↔ Q a now := Iff.rfl

@[simp] theorem alone_orThrow_none (e : Err) : (orThrow none e : Txn Db Key Sup Err α).alone base Q E now ↔ E e := Iff.rfl

theorem alone_require_pos {c : Prop} [Decidable c] (hc : c) (e : Err) (Q : Unit → Db → Prop) :
    (require c e : Txn Db Key Sup Err Unit).alone base Q E now ↔ Q () now := by
  rw [require, if_pos hc]
  exact Iff.rfl

theorem alone_require_neg {c : Prop} [Decidable c] (hc : ¬ c) (e : Err) (Q : Unit → Db → Prop) :
    (require c e : Txn Db Key Sup Err Unit).alone base Q E now ↔ E e := by
  rw [require, if_neg hc]
  exact Iff.rfl

theorem alone_mono {Q' : α → Db → Prop} {E' : Err → Prop} (c : Txn Db Key Sup Err α) (hQ : ∀ a now, Q a now → Q' a now)
    (hE : ∀ e, E e → E' e) (h : c.alone base Q E now) : c.alone base Q' E' now := by
  induction c generalizing now with
  | done a => exact hQ a now h
  | throw e => exact hE e h
  | peek q k ih => exact ih _ h
  | read q k ih => exact ih _ h
  | lock ks q k ih => exact ih _ h
  | write ks ok u k ih => exact ⟨h.1, fun x hok => ih x (h.2 x hok)⟩

end Txn

/-! ### In the machine -/

variable [DecidableEq Key]

/-- The end of a program as the machine shows it, from the store `base`. -/
def Sys.EndsAs (s : Sys Db Key Sup Err α ι) (base : Db) (Q : α → Db → Prop) (E : Err → Prop) : Phase Db Key Sup Err α → Prop
  | .running _ _ _ => True
  | .committed a => Q a s.db
  | .rolledBack (some e) => E e ∧ s.db = base
  | .rolledBack none => False

section Machine

variable {prog : ι → Txn Db Key Sup Err α} {start : Db → Prop} {Q : α → Db → Prop} {E : Err → Prop} {p : ℕ} {i : ι}

/-- A program that has ended takes no step. -/
theorem exec_step_of_ended {s : Sys Db Key Sup Err α ι} {ph : Phase Db Key Sup Err α} (hph : ∀ c pend view, ph ≠ .running c pend view)
    (hp : s.proc p = some (i, ph)) (x : Sup) : (machine prog start).exec s (.step p x) = none := by
  simp only [machine, hp]
  split
  case h_1 j c pend view heq =>
    simp only [Option.some.injEq, Prod.mk.injEq] at heq
    exact absurd heq.2 (hph c pend view)
  case h_2 => rfl

theorem eq_of_run_of_ended {s s' : Sys Db Key Sup Err α ι} {ph : Phase Db Key Sup Err α} (hph : ∀ c pend view, ph ≠ .running c pend view)
    (hp : s.proc p = some (i, ph)) {xs : List Sup} (hr : (machine prog start).run s (xs.map (.step p)) = some s') : s' = s := by
  cases xs with
  | nil => exact (Option.some.inj hr).symm
  | cons x xs =>
    rw [List.map_cons, Machine.run_cons, exec_step_of_ended hph hp, Option.bind_none] at hr
    cases hr

/-- Steps of a program alone bring it to an end it may have. -/
theorem alone_of_run {c : Txn Db Key Sup Err α} {pend : Db → Db} {view : Option Db} {s s' : Sys Db Key Sup Err α ι} {xs : List Sup}
    (h : c.alone s.db Q E (pend s.db)) (hview : view.getD s.db = s.db) (hp : s.proc p = some (i, .running c pend view))
    (hr : (machine prog start).run s (xs.map (.step p)) = some s') : ∃ ph, s'.proc p = some (i, ph) ∧ s'.EndsAs s.db Q E ph := by
  induction xs generalizing s c pend view with
  | nil =>
    obtain rfl := Option.some.inj hr
    exact ⟨_, hp, trivial⟩
  | cons x xs ih =>
    rw [List.map_cons, Machine.run_cons, Option.bind_eq_some_iff] at hr
    obtain ⟨s₁, he, hr⟩ := hr
    have he : s.stmt p i x pend view c = some s₁ := by
      simp only [machine, hp] at he
      exact he
    have hself : ∀ (t : Sys Db Key Sup Err α ι) ph, (t.setPhase p i ph).proc p = some (i, ph) := fun t ph => by
      rw [Sys.setPhase_proc, if_pos rfl]
    have hend : ∀ db ph, (s.finish p i db ph).proc p = some (i, ph) := fun db ph => if_pos rfl
    cases c with
    | done a =>
      cases he
      obtain rfl := eq_of_run_of_ended (fun _ _ _ => by simp) (hend (pend s.db) (.committed a)) hr
      exact ⟨.committed a, hend _ _, h⟩
    | throw e =>
      cases he
      obtain rfl := eq_of_run_of_ended (fun _ _ _ => by simp) (hend s.db (.rolledBack (some e))) hr
      exact ⟨.rolledBack (some e), hend _ _, h, rfl⟩
    | peek q k =>
      cases he
      exact ih (c := k (q s.db)) (s := s.setPhase p i (.running (k (q s.db)) pend view)) h hview (hself _ _) hr
    | read q k =>
      cases he
      refine ih (c := k (q (pend (view.getD s.db))))
        (s := s.setPhase p i (.running (k (q (pend (view.getD s.db)))) pend (some (view.getD s.db)))) ?_ ?_ (hself _ _) hr
      · rw [hview]
        exact h
      · exact hview
    | lock ks q k =>
      simp only [Sys.stmt, Option.ite_none_right_eq_some] at he
      obtain ⟨-, he⟩ := he
      cases he
      exact ih (c := k (q (pend s.db))) (s := (s.acquire p (ks (pend s.db))).setPhase p i (.running (k (q (pend s.db))) pend view)) h hview (hself _ _) hr
    | write ks ok u k =>
      simp only [Sys.stmt, Bool.and_eq_true, Option.ite_none_right_eq_some] at he
      obtain ⟨⟨-, hok⟩, he⟩ := he
      cases he
      refine ih (s := (s.acquire p (ks x (pend s.db))).setPhase p i (.running (k x) (u x ∘ pend) view)) ?_ hview (hself _ _) hr
      exact h.2 x hok

/-- No program but `p` holds a key. -/
def Sys.FreeFor (s : Sys Db Key Sup Err α ι) (p : ℕ) : Prop := ∀ k q, s.owner k = some q → q = p

omit [DecidableEq Key] in
theorem Sys.FreeFor.free {s : Sys Db Key Sup Err α ι} (h : s.FreeFor p) (ks : List Key) : s.free p ks = true := by
  refine List.all_eq_true.2 fun k _ => ?_
  cases hk : s.owner k with
  | none => rfl
  | some q =>
    rw [h k q hk]
    simp

theorem Sys.FreeFor.acquire {s : Sys Db Key Sup Err α ι} (h : s.FreeFor p) (ks : List Key) : (s.acquire p ks).FreeFor p := by
  intro k q hk
  simp only [Sys.acquire] at hk
  split at hk
  · exact (Option.some.inj hk).symm
  · exact h k q hk

/-- With no key held by another, its own steps bring a program to its end. -/
theorem exists_run_of_alone [Nonempty Sup] {c : Txn Db Key Sup Err α} {pend : Db → Db} {view : Option Db} {s : Sys Db Key Sup Err α ι}
    (h : c.alone s.db Q E (pend s.db)) (hview : view.getD s.db = s.db) (hp : s.proc p = some (i, .running c pend view)) (hfree : s.FreeFor p) :
    ∃ (xs : List Sup) (s' : Sys Db Key Sup Err α ι) (ph : Phase Db Key Sup Err α), (machine prog start).run s (xs.map (.step p)) = some s' ∧ s'.proc p = some (i, ph) ∧
      ∀ c' pend' view', ph ≠ .running c' pend' view' := by
  have hself : ∀ (t : Sys Db Key Sup Err α ι) ph, (t.setPhase p i ph).proc p = some (i, ph) := fun t ph => by
    rw [Sys.setPhase_proc, if_pos rfl]
  -- one step, and the rest
  have hstep : ∀ {c : Txn Db Key Sup Err α} {pend view} {s s₁ : Sys Db Key Sup Err α ι} (x : Sup),
      s.proc p = some (i, .running c pend view) → s.stmt p i x pend view c = some s₁ →
      (∃ (xs : List Sup) (s' : Sys Db Key Sup Err α ι) (ph : Phase Db Key Sup Err α), (machine prog start).run s₁ (xs.map (.step p)) = some s' ∧ s'.proc p = some (i, ph) ∧
        ∀ c' pend' view', ph ≠ .running c' pend' view') →
      ∃ (xs : List Sup) (s' : Sys Db Key Sup Err α ι) (ph : Phase Db Key Sup Err α), (machine prog start).run s (xs.map (.step p)) = some s' ∧ s'.proc p = some (i, ph) ∧
        ∀ c' pend' view', ph ≠ .running c' pend' view' := by
    rintro c pend view s s₁ x hp he ⟨xs, s', ph, hr, hs'⟩
    refine ⟨x :: xs, s', ph, ?_, hs'⟩
    have hexec : (machine prog start).exec s (.step p x) = some s₁ := by
      simp only [machine, hp]
      exact he
    rw [List.map_cons, Machine.run_cons, hexec]
    exact hr
  obtain ⟨x₀⟩ := ‹Nonempty Sup›
  induction c generalizing s pend view with
  | done a => exact hstep x₀ hp rfl ⟨[], _, .committed a, rfl, if_pos rfl, fun _ _ _ => by simp⟩
  | throw e => exact hstep x₀ hp rfl ⟨[], _, .rolledBack (some e), rfl, if_pos rfl, fun _ _ _ => by simp⟩
  | peek q k ih =>
    exact hstep x₀ hp rfl (ih _ (s := s.setPhase p i (.running (k (q s.db)) pend view)) h hview (hself _ _) hfree)
  | read q k ih =>
    refine hstep x₀ hp rfl (ih _ (s := s.setPhase p i (.running (k (q (pend (view.getD s.db)))) pend (some (view.getD s.db)))) ?_
      ?_ (hself _ _) hfree)
    · rw [hview]
      exact h
    · exact hview
  | lock ks q k ih =>
    exact hstep x₀ hp (if_pos (hfree.free _)) (ih _
      (s := (s.acquire p (ks (pend s.db))).setPhase p i (.running (k (q (pend s.db))) pend view)) h hview (hself _ _) (hfree.acquire _))
  | write ks ok u k ih =>
    obtain ⟨x, hok⟩ := h.1
    have hcan : (s.free p (ks x (pend s.db)) && ok x (pend s.db)) = true := by
      rw [hfree.free, Bool.true_and]
      exact hok
    refine hstep x hp (if_pos hcan) (ih x
      (s := (s.acquire p (ks x (pend s.db))).setPhase p i (.running (k x) (u x ∘ pend) view)) ?_ hview (hself _ _) (hfree.acquire _))
    exact h.2 x hok

/-! ### A call when nobody else is there -/

/-- Started on the store `db` with no other program, call `i` ends at `ph` and leaves `db'`. -/
def EndsAlone (M : Machine (Sys Db Key Sup Err α ι) (Act Sup ι)) (db : Db) (i : ι) (ph : Phase Db Key Sup Err α) (db' : Db) : Prop :=
  ∃ (xs : List Sup) (s : Sys Db Key Sup Err α ι), M.run (.start db) (.start 0 i :: xs.map (.step 0)) = some s ∧
    s.proc 0 = some (i, ph) ∧ s.db = db' ∧ ∀ c pend view, ph ≠ .running c pend view

/-- Started on the store `db` with no other program, call `i` commits, as `Q` says, and cannot fail. -/
def SucceedsAlone (M : Machine (Sys Db Key Sup Err α ι) (Act Sup ι)) (db : Db) (i : ι) (Q : α → Db → Prop) : Prop :=
  (∃ ph db', EndsAlone M db i ph db') ∧ ∀ ph db', EndsAlone M db i ph db' → ∃ a, ph = .committed a ∧ Q a db'

theorem endsAlone_of_alone [Nonempty Sup] {db : Db} (h : (prog i).alone db Q E db) :
    ∃ ph db', EndsAlone (machine prog start) db i ph db' := by
  have hp : ((Sys.start db).setPhase 0 i (.running (prog i) id none) : Sys Db Key Sup Err α ι).proc 0 =
      some (i, .running (prog i) id none) := by rw [Sys.setPhase_proc, if_pos rfl]
  obtain ⟨xs, s, ph, hr, hs, hph⟩ := exists_run_of_alone h rfl hp fun k q hk => nomatch hk
  exact ⟨ph, s.db, xs, s, hr, hs, rfl, hph⟩

theorem alone_of_endsAlone {db db' : Db} {ph : Phase Db Key Sup Err α} (h : (prog i).alone db Q E db)
    (hend : EndsAlone (machine prog start) db i ph db') :
    (∃ a, ph = .committed a ∧ Q a db') ∨ ∃ e, ph = .rolledBack (some e) ∧ E e ∧ db' = db := by
  obtain ⟨xs, s, hr, hs, rfl, hph⟩ := hend
  have hp : ((Sys.start db).setPhase 0 i (.running (prog i) id none) : Sys Db Key Sup Err α ι).proc 0 =
      some (i, .running (prog i) id none) := by rw [Sys.setPhase_proc, if_pos rfl]
  obtain ⟨ph', hs', hend⟩ := alone_of_run h rfl hp hr
  rw [hs, Option.some.injEq, Prod.mk.injEq] at hs'
  obtain ⟨-, rfl⟩ := hs'
  cases ph with
  | running c pend view => exact absurd rfl (hph c pend view)
  | committed a => exact .inl ⟨a, rfl, hend⟩
  | rolledBack e =>
    cases e with
    | none => exact hend.elim
    | some e => exact .inr ⟨e, rfl, hend⟩

/-- A program that cannot fail alone succeeds alone. -/
theorem succeedsAlone_of_alone [Nonempty Sup] {db : Db} (h : (prog i).alone db Q (fun _ => False) db) :
    SucceedsAlone (machine prog start) db i Q := by
  refine ⟨endsAlone_of_alone h, fun ph db' hend => ?_⟩
  rcases alone_of_endsAlone h hend with hcommit | ⟨e, -, he, -⟩
  · exact hcommit
  · exact he.elim

/-- What a call that succeeds alone is known to do, it does. -/
theorem SucceedsAlone.exists_of_alone [Nonempty Sup] {db : Db} {Q' : α → Db → Prop}
    (h : SucceedsAlone (machine prog start) db i Q') (halone : (prog i).alone db Q E db) : ∃ a db', Q a db' ∧ Q' a db' := by
  obtain ⟨ph, db', hend⟩ := h.1
  obtain ⟨a, rfl, hQ'⟩ := h.2 ph db' hend
  rcases alone_of_endsAlone halone hend with ⟨b, hb, hQ⟩ | ⟨e, he, -⟩
  · cases hb
    exact ⟨a, db', hQ, hQ'⟩
  · cases he

end Machine

end HotelBackend.Theory.Transactions
