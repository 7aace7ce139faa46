import HotelBackend.Theory.Guarantees

/-!
# A stretch of a run

Something may hold all the way from one state of a run to another (`Machine.Through`). `Txn.within I c Q E`:
on stores that satisfy `I`, whatever the other programs make of them in between, `c` ends with `Q` or fails
with an error of `E`. A program that can only fail, and is at its start when such a stretch begins, does not
commit in it and changes nothing (`refused_of_through`). It is at its start as long as another holds the key
that its first statement takes (`atStart_of_commits`).
-/

namespace HotelBackend.Theory

/-- `t` is reached from `s`, and `I` holds all the way, in `s` and `t` too. -/
inductive Machine.Through {σ : Type*} {α : Type*} (M : Machine σ α) (I : σ → Prop) (s : σ) : σ → Prop where
  | refl (hs : I s) : M.Through I s s
  | step {t u : σ} {a : α} (h : M.Through I s t) (he : M.exec t a = some u) (hu : I u) : M.Through I s u

namespace Machine.Through

variable {σ : Type*} {α : Type*} {M : Machine σ α} {I J : σ → Prop} {s t : σ}

theorem last (h : M.Through I s t) : I t := by
  cases h with
  | refl hs => exact hs
  | step _ _ ht => exact ht

/-- What each step keeps where `I` holds, the stretch keeps. -/
theorem keeps (h : M.Through I s t) (hs : J s) (hstep : ∀ t u a, J t → I u → M.exec t a = some u → J u) : M.Through J s t := by
  induction h with
  | refl _ => exact .refl hs
  | step _ he hu ih => exact .step ih he (hstep _ _ _ ih.last hu he)

theorem mono (hIJ : ∀ s, I s → J s) (h : M.Through I s t) : M.Through J s t := by
  induction h with
  | refl hs => exact .refl (hIJ _ hs)
  | step _ he hu ih => exact .step ih he (hIJ _ hu)

end Machine.Through

namespace Transactions

variable {Db Key Sup Err α β ι : Type}

namespace Txn

theorem bind_assoc {γ : Type} (c : Txn Db Key Sup Err α) (k : α → Txn Db Key Sup Err β) (k' : β → Txn Db Key Sup Err γ) :
    c >>= k >>= k' = c >>= fun a => k a >>= k' := by
  show (c.bind k).bind k' = c.bind fun a => (k a).bind k'
  induction c with
  | done a => rfl
  | throw e => rfl
  | peek q c ih => exact congrArg (Txn.peek q) (funext ih)
  | read q c ih => exact congrArg (Txn.read q) (funext ih)
  | lock ks q c ih => exact congrArg (Txn.lock ks q) (funext ih)
  | write ks ok w c ih => exact congrArg (Txn.write ks ok w) (funext ih)

/-- On stores that satisfy `I`, the program ends with `Q`, or fails with an error of `E`. -/
def within (I : Db → Prop) : Txn Db Key Sup Err α → (α → (Db → Db) → Prop) → (Err → Prop) → (Db → Db) → Prop
  | .done a, Q, _ => fun pend => Q a pend
  | .throw e, _, E => fun _ => E e
  | .peek q k, Q, E => fun pend => ∀ db, I db → (k (q db)).within I Q E pend
  | .read q k, Q, E => fun pend => ∀ db, I db → (k (q (pend db))).within I Q E pend
  | .lock _ q k, Q, E => fun pend => ∀ db, I db → (k (q (pend db))).within I Q E pend
  | .write _ ok u k, Q, E => fun pend => ∀ db x, I db → ok x (pend db) = true → (k x).within I Q E (u x ∘ pend)

variable {I : Db → Prop} {E : Err → Prop} {pend : Db → Db}

/-- Sequencing. -/
@[simp] theorem within_bind (c : Txn Db Key Sup Err α) (f : α → Txn Db Key Sup Err β) (Q : β → (Db → Db) → Prop) (E : Err → Prop)
    (pend : Db → Db) : (c >>= f).within I Q E pend ↔ c.within I (fun a => (f a).within I Q E) E pend := by
  show (c.bind f).within I Q E pend ↔ _
  induction c generalizing pend with
  | done a => exact Iff.rfl
  | throw e => exact Iff.rfl
  | peek q k ih => exact forall₂_congr fun db _ => ih _ _
  | read q k ih => exact forall₂_congr fun db _ => ih _ _
  | lock ks q k ih => exact forall₂_congr fun db _ => ih _ _
  | write ks ok u k ih => exact forall₄_congr fun db x _ _ => ih x _

@[simp] theorem within_locking (ks : Db → List Key) (q : Db → α) (Q : α → (Db → Db) → Prop) :
    (locking ks q : Txn Db Key Sup Err α).within I Q E pend ↔ ∀ db, I db → Q (q (pend db)) pend := Iff.rfl

@[simp] theorem within_writing (ks : Sup → Db → List Key) (ok : Sup → Db → Bool) (u : Sup → Db → Db) (Q : Sup → (Db → Db) → Prop) :
    (writing ks ok u : Txn Db Key Sup Err Sup).within I Q E pend ↔ ∀ db x, I db → ok x (pend db) = true → Q x (u x ∘ pend) := Iff.rfl

@[simp] theorem within_orThrow_some (a : α) (e : Err) (Q : α → (Db → Db) → Prop) :
    (orThrow (some a) e : Txn Db Key Sup Err α).within I Q E pend ↔ Q a pend := Iff.rfl

theorem within_require_pos {c : Prop} [Decidable c] (hc : c) (e : Err) (Q : Unit → (Db → Db) → Prop) :
    (require c e : Txn Db Key Sup Err Unit).within I Q E pend ↔ Q () pend := by
  rw [require, if_pos hc]
  exact Iff.rfl

theorem within_require_neg {c : Prop} [Decidable c] (hc : ¬ c) (e : Err) (Q : Unit → (Db → Db) → Prop) :
    (require c e : Txn Db Key Sup Err Unit).within I Q E pend ↔ E e := by
  rw [require, if_neg hc]
  exact Iff.rfl

end Txn

/-! ### Programs that cannot commit -/

/-- On stores that satisfy `I`, the program does not commit, and fails with an error of `E` only. -/
def Phase.Refused (I : Db → Prop) (E : Err → Prop) : Phase Db Key Sup Err α → Prop
  | .running code pend view => code.within I (fun _ _ => False) E pend ∧ ∀ db, view = some db → I db
  | .committed _ => False
  | .rolledBack e => ∀ e', e = some e' → E e'

/-- Program `p`, where it has started call `i`, is refused. -/
def Sys.Refuses (I : Db → Prop) (E : Err → Prop) (p : ℕ) (i : ι) (s : Sys Db Key Sup Err α ι) : Prop :=
  ∀ ph, s.proc p = some (i, ph) → ph.Refused I E

variable [DecidableEq Key] {I : Db → Prop} {E : Err → Prop} {p : ℕ} {i : ι} {s s' : Sys Db Key Sup Err α ι}

/-- A statement of a program that is refused. -/
theorem Sys.refused_stmt {code : Txn Db Key Sup Err α} {pend : Db → Db} {view : Option Db} {x : Sup} (hI : I s.db)
    (h : (Phase.running code pend view : Phase Db Key Sup Err α).Refused I E) (he : s.stmt p i x pend view code = some s') :
    s'.db = s.db ∧ ∃ ph, s'.proc p = some (i, ph) ∧ ph.Refused I E := by
  obtain ⟨hcode, hview⟩ := h
  have hself : ∀ (t : Sys Db Key Sup Err α ι) ph, (t.setPhase p i ph).proc p = some (i, ph) := fun t ph => by
    rw [Sys.setPhase_proc, if_pos rfl]
  cases code with
  | done a => exact hcode.elim
  | throw e =>
    cases he
    refine ⟨rfl, .rolledBack (some e), if_pos rfl, ?_⟩
    rintro _ ⟨⟩
    exact hcode
  | peek q k =>
    cases he
    exact ⟨rfl, _, hself _ _, hcode s.db hI, hview⟩
  | read q k =>
    cases he
    have hI' : I (view.getD s.db) := by
      cases view with
      | none => exact hI
      | some db => exact hview db rfl
    refine ⟨rfl, _, hself _ _, hcode _ hI', ?_⟩
    rintro _ ⟨⟩
    exact hI'
  | lock ks q k =>
    simp only [Sys.stmt, Option.ite_none_right_eq_some] at he
    obtain ⟨-, he⟩ := he
    cases he
    exact ⟨rfl, _, hself _ _, hcode s.db hI, hview⟩
  | write ks ok u k =>
    simp only [Sys.stmt, Bool.and_eq_true, Option.ite_none_right_eq_some] at he
    obtain ⟨⟨-, hok⟩, he⟩ := he
    cases he
    exact ⟨rfl, _, hself _ _, hcode s.db x hI hok, hview⟩

variable {prog : ι → Txn Db Key Sup Err α} {start : Db → Prop} {a : Act Sup ι}

/-- What a program that is refused does itself. -/
theorem Sys.Refuses.own (hi : (prog i).within I (fun _ _ => False) E id) (hI : I s.db) (h : s.Refuses I E a.program i)
    (he : (machine prog start).exec s a = some s') {ph : Phase Db Key Sup Err α} (hp : s'.proc a.program = some (i, ph)) :
    ph.Refused I E ∧ s'.db = s.db := by
  cases a with
  | start p j =>
    simp only [machine] at he
    split at he
    case h_2 => cases he
    case h_1 =>
      cases he
      rw [Act.program, Sys.setPhase_proc, if_pos rfl, Option.some.injEq, Prod.mk.injEq] at hp
      obtain ⟨rfl, rfl⟩ := hp
      refine ⟨⟨hi, fun _ hview => ?_⟩, rfl⟩
      cases hview
  | step p x =>
    simp only [machine] at he
    split at he
    case h_2 => cases he
    case h_1 j code pend view hrun =>
      have hp : s'.proc p = some (i, ph) := hp
      obtain ⟨ph', hph', -⟩ := Sys.proc_of_stmt he
      have hself := hp
      rw [hph', Sys.setPhase_proc, if_pos rfl, Option.some.injEq, Prod.mk.injEq] at hself
      obtain ⟨rfl, rfl⟩ := hself
      obtain ⟨hdb, ph, hph, hrefused⟩ := Sys.refused_stmt hI (h _ hrun) he
      rw [hp, Option.some.injEq, Prod.mk.injEq] at hph
      obtain ⟨-, rfl⟩ := hph
      exact ⟨hrefused, hdb⟩
  | abort p =>
    simp only [machine] at he
    split at he
    case h_2 => cases he
    case h_1 =>
      cases he
      have hself : some (_, Phase.rolledBack none) = some (i, ph) := (if_pos rfl).symm.trans hp
      cases hself
      refine ⟨fun _ herr => ?_, rfl⟩
      cases herr

/-- A program that is refused stays so. -/
theorem Sys.Refuses.exec (hi : (prog i).within I (fun _ _ => False) E id) (hI : I s.db) (h : s.Refuses I E p i)
    (he : (machine prog start).exec s a = some s') : s'.Refuses I E p i := by
  intro ph hph
  by_cases hp : p = a.program
  · subst hp
    exact (h.own hi hI he hph).1
  · obtain ⟨j, ph', hproc, -⟩ := proc_of_exec he
    rw [hproc, Sys.setPhase_proc, if_neg hp] at hph
    exact h ph hph

/-- A program that is refused when a stretch begins is refused at its end. -/
theorem refused_of_through (hi : (prog i).within I (fun _ _ => False) E id) (h : s.Refuses I E p i)
    (hthrough : (machine prog start).Through (fun s => I s.db) s s') : s'.Refuses I E p i := by
  induction hthrough with
  | refl _ => exact h
  | step hthrough he _ ih => exact ih.exec hi hthrough.last he

/-! ### Programs that wait at their start -/

/-- The first statement of the program takes the key. -/
def Txn.TakesFirst (k : Key) : Txn Db Key Sup Err α → Prop
  | .write ks _ _ _ => ∀ x db, k ∈ ks x db
  | .lock ks _ _ => ∀ db, k ∈ ks db
  | _ => False

/-- Every running program of a call is at its start, or holds the key that its first statement takes. -/
def Sys.Queues (prog : ι → Txn Db Key Sup Err α) (key : ι → Option Key) (s : Sys Db Key Sup Err α ι) : Prop :=
  ∀ p i k code pend view, s.proc p = some (i, .running code pend view) → key i = some k →
    (code = prog i ∧ pend = id ∧ view = none) ∨ s.owner k = some p

/-- What is taken by one program stays with it as another moves. -/
theorem Sys.held_of_stmt {q : ℕ} {code : Txn Db Key Sup Err α} {pend : Db → Db} {view : Option Db} {x : Sup} (hq : q ≠ p)
    (he : s.stmt p i x pend view code = some s') : s'.held q = s.held q := by
  cases code with
  | done a =>
    cases he
    exact held_finish_other _ _ hq
  | throw e =>
    cases he
    exact held_finish_other _ _ hq
  | peek q k =>
    cases he
    rfl
  | read q k =>
    cases he
    rfl
  | lock ks q k =>
    simp only [Sys.stmt, Option.ite_none_right_eq_some] at he
    obtain ⟨hfree, he⟩ := he
    cases he
    exact held_acquire_other hq hfree
  | write ks ok u k =>
    simp only [Sys.stmt, Bool.and_eq_true, Option.ite_none_right_eq_some] at he
    obtain ⟨⟨hfree, -⟩, he⟩ := he
    cases he
    exact held_acquire_other hq hfree

/-- A program that goes on keeps its keys, and has those of its first statement. -/
theorem Sys.held_of_running {code code' : Txn Db Key Sup Err α} {pend pend' : Db → Db} {view view' : Option Db} {x : Sup}
    (he : s.stmt p i x pend view code = some s') {j : ι} (hp : s'.proc p = some (j, .running code' pend' view')) {k : Key}
    (hk : code.TakesFirst k ∨ k ∈ s.held p) : k ∈ s'.held p := by
  have hended : ∀ db (ph : Phase Db Key Sup Err α), (∀ c pend view, ph ≠ .running c pend view) →
      (s.finish p i db ph).proc p ≠ some (j, .running code' pend' view') := by
    intro db ph hph heq
    have heq : some (i, ph) = some (j, .running code' pend' view') := (if_pos rfl).symm.trans heq
    rw [Option.some.injEq, Prod.mk.injEq] at heq
    exact hph _ _ _ heq.2
  cases code with
  | done a =>
    cases he
    exact absurd hp (hended _ _ fun _ _ _ => by simp)
  | throw e =>
    cases he
    exact absurd hp (hended _ _ fun _ _ _ => by simp)
  | peek q c =>
    cases he
    exact hk.resolve_left id
  | read q c =>
    cases he
    exact hk.resolve_left id
  | lock ks q c =>
    simp only [Sys.stmt, Option.ite_none_right_eq_some] at he
    obtain ⟨-, he⟩ := he
    cases he
    show k ∈ (s.acquire p (ks (pend s.db))).held p
    rw [held_acquire_self]
    exact hk.elim (fun hfirst => .inr (hfirst (pend s.db))) .inl
  | write ks ok u c =>
    simp only [Sys.stmt, Option.ite_none_right_eq_some] at he
    obtain ⟨-, he⟩ := he
    cases he
    show k ∈ (s.acquire p (ks x (pend s.db))).held p
    rw [held_acquire_self]
    exact hk.elim (fun hfirst => .inr (hfirst x (pend s.db))) .inl

/-- A step keeps the queue. -/
theorem Sys.Queues.exec {key : ι → Option Key} (hfirst : ∀ i k, key i = some k → (prog i).TakesFirst k) (h : s.Queues prog key)
    (he : (machine prog start).exec s a = some s') : s'.Queues prog key := by
  intro q j k code' pend' view' hq hkey
  cases a with
  | start p i =>
    simp only [machine] at he
    split at he
    case h_2 => cases he
    case h_1 =>
      cases he
      rw [Sys.setPhase_proc] at hq
      split at hq
      case isTrue =>
        cases hq
        exact .inl ⟨rfl, rfl, rfl⟩
      case isFalse => exact h q j k code' pend' view' hq hkey
  | step p x =>
    simp only [machine] at he
    split at he
    case h_2 => cases he
    case h_1 i code pend view hp =>
      obtain ⟨ph, hph, -⟩ := Sys.proc_of_stmt he
      by_cases hqp : q = p
      · subst hqp
        have hself := hq
        rw [hph, Sys.setPhase_proc, if_pos rfl, Option.some.injEq, Prod.mk.injEq] at hself
        obtain ⟨rfl, -⟩ := hself
        refine .inr (Sys.held_of_running he hq ?_)
        rcases h q i k code pend view hp hkey with ⟨rfl, -, -⟩ | hheld
        · exact .inl (hfirst i k hkey)
        · exact .inr hheld
      · have hwas := hq
        rw [hph, Sys.setPhase_proc, if_neg hqp] at hwas
        refine (h q j k code' pend' view' hwas hkey).imp_right fun hheld => ?_
        have hheld : k ∈ s.held q := hheld
        rwa [← Sys.held_of_stmt hqp he] at hheld
  | abort p =>
    simp only [machine] at he
    split at he
    case h_2 => cases he
    case h_1 =>
      cases he
      have hq : (if q = p then _ else s.proc q) = some (j, .running code' pend' view') := hq
      split at hq
      case isTrue => cases hq
      case isFalse hqp =>
        refine (h q j k code' pend' view' hq hkey).imp_right fun hheld => ?_
        have hheld : k ∈ s.held q := hheld
        rwa [← Sys.held_finish_other _ _ hqp] at hheld

theorem queues_of_reachable {key : ι → Option Key} (hfirst : ∀ i k, key i = some k → (prog i).TakesFirst k)
    {C : Sys Db Key Sup Err α ι → Act Sup ι → Prop} (h : (machine prog start).Reachable C s) : s.Queues prog key := by
  refine h.invariant ?_ fun s a s' hs _ he => hs.exec hfirst he
  rintro _ ⟨db, -, rfl⟩ p i k code pend view hp
  cases hp

/-- A statement that commits is the last one. -/
theorem Sys.done_of_stmt {j : ι} {code : Txn Db Key Sup Err α} {pend : Db → Db} {view : Option Db} {y : Sup} {x : α}
    (he : s.stmt p j y pend view code = some s') (hp : s'.proc p = some (i, .committed x)) : i = j ∧ code = .done x := by
  have hself : ∀ (t : Sys Db Key Sup Err α ι) ph, (t.setPhase p j ph).proc p = some (i, .committed x) → (j, ph) = (i, .committed x) :=
    fun t ph heq => Option.some.inj ((if_pos rfl).symm.trans heq)
  have hend : ∀ db ph, (s.finish p j db ph).proc p = some (i, .committed x) → (j, ph) = (i, .committed x) :=
    fun db ph heq => Option.some.inj ((if_pos rfl).symm.trans heq)
  cases code with
  | done a =>
    cases he
    cases hend _ _ hp
    exact ⟨rfl, rfl⟩
  | throw e =>
    cases he
    cases hend _ _ hp
  | peek q k =>
    cases he
    cases hself _ _ hp
  | read q k =>
    cases he
    cases hself _ _ hp
  | lock ks q k =>
    simp only [Sys.stmt, Option.ite_none_right_eq_some] at he
    obtain ⟨-, he⟩ := he
    cases he
    cases hself _ _ hp
  | write ks ok u k =>
    simp only [Sys.stmt, Option.ite_none_right_eq_some] at he
    obtain ⟨-, he⟩ := he
    cases he
    cases hself _ _ hp

/-- A program that commits had nothing left to do. -/
theorem done_of_commits {x : α} (he : (machine prog start).exec s a = some s') (hc : Sys.Commits p i x s s') :
    ∃ pend view, s.proc p = some (i, .running (.done x) pend view) := by
  obtain ⟨j, code, pend, view, hrun⟩ := hc.running
  have hp : p = a.program := by
    by_contra hne
    obtain ⟨k, ph, hproc, -⟩ := proc_of_exec he
    have hsame := hc.committed
    rw [hproc, Sys.setPhase_proc, if_neg hne, hrun] at hsame
    cases hsame
  subst hp
  have hcommitted := hc.committed
  cases a with
  | start p i =>
    have hrun : s.proc p = some (j, .running code pend view) := hrun
    simp only [machine, hrun] at he
    cases he
  | abort p =>
    have hrun : s.proc p = some (j, .running code pend view) := hrun
    simp only [machine, hrun] at he
    cases he
    have hself : some (j, Phase.rolledBack none) = some (i, Phase.committed x) := (if_pos rfl).symm.trans hcommitted
    cases hself
  | step p y =>
    have hrun : s.proc p = some (j, .running code pend view) := hrun
    simp only [machine, hrun] at he
    obtain ⟨rfl, rfl⟩ := Sys.done_of_stmt he hcommitted
    exact ⟨pend, view, hrun⟩

/-- When a program commits, every other running program of its key is at its start. -/
theorem atStart_of_commits {key : ι → Option Key} {k : Key} {x : α} (hfirst : ∀ i k, key i = some k → (prog i).TakesFirst k)
    (h : s.Queues prog key) (he : (machine prog start).exec s a = some s') (hc : Sys.Commits p i x s s') (hi : key i = some k)
    {q : ℕ} (hqp : q ≠ p) {j : ι} (hj : key j = some k) {code : Txn Db Key Sup Err α} {pend : Db → Db} {view : Option Db}
    (hq : s.proc q = some (j, .running code pend view)) : code = prog j ∧ pend = id ∧ view = none := by
  obtain ⟨pend', view', hdone⟩ := done_of_commits he hc
  have howner : s.owner k = some p := by
    refine (h p i k _ pend' view' hdone hi).resolve_left ?_
    rintro ⟨hcode, -⟩
    have htakes := hfirst i k hi
    rw [← hcode] at htakes
    exact htakes
  refine (h q j k code pend view hq hj).resolve_right fun hheld => hqp ?_
  rw [howner] at hheld
  exact (Option.some.inj hheld).symm

end Transactions

end HotelBackend.Theory
