import HotelBackend.Theory.Transactions

/-!
# What a commit does

A program that follows a discipline may promise more than that: what it answers, and what its
commit does to the store (`Discipline.Ensures`). If every program of a family does
(`promised_of_reachable`), a step of an interleaving leaves the store alone or is one of the
promised commits (`Promised.step`), so what all promised commits keep, every run keeps
(`Promised.run_induction`).

A program that has ended stays as it ended (`ended_of_run`), a program that was rolled back has
changed nothing (`db_of_rolledBack`), and one that never throws is rolled back only by force
(`calm_of_reachable`).
-/

namespace HotelBackend.Theory.Transactions

variable {Db Key Sup Err α ι : Type}

/-- The program may commit, and its answer and what it does to the store are as `G` says. -/
def Discipline.Ensures (D : Discipline Db Key) (G : α → Db → Db → Prop) (a : α) (l : Local Db Key) : Prop :=
  ∀ db, D.Rely l.held l.db db →
    D.Inv (l.pend db) ∧ (∀ k, k ∉ l.held → D.Keeps k db (l.pend db)) ∧ G a db (l.pend db)

theorem Discipline.Ensures.commit {D : Discipline Db Key} {G : α → Db → Db → Prop} {a : α} {l : Local Db Key}
    (h : D.Ensures G a l) : D.Commit a l := fun db hr => ⟨(h db hr).1, (h db hr).2.1⟩

theorem Discipline.Ensures.rely {D : Discipline Db Key} {G : α → Db → Db → Prop} {a : α} {l : Local Db Key} {db : Db}
    (h : D.Ensures G a l) (hr : D.Rely l.held l.db db) : D.Ensures G a { l with db := db } :=
  fun db' hr' => h db' (hr.trans hr' subset_rfl)

namespace Txn

variable {D : Discipline Db Key} {G : α → Db → Db → Prop}

/-- What another program does keeps a program ready to do what it promises. -/
theorem wp_rely (c : Txn Db Key Sup Err α) {l : Local Db Key} {db : Db} (h : c.wp D (D.Ensures G) l)
    (hr : D.Rely l.held l.db db) : c.wp D (D.Ensures G) { l with db := db } := by
  cases c with
  | done a => exact Discipline.Ensures.rely h hr
  | throw e => trivial
  | peek q k => exact fun db' hr' => h db' (hr.trans hr' subset_rfl)
  | read q k => exact fun db' hr' => h db' (hr.trans hr' subset_rfl)
  | lock ks q k => exact fun db' hr' => h db' (hr.trans hr' subset_rfl)
  | write ks ok u k => exact fun db' hr' => h db' (hr.trans hr' subset_rfl)

end Txn

namespace Sys

variable {D : Discipline Db Key} {G : ι → α → Db → Db → Prop} {s s' : Sys Db Key Sup Err α ι}

/-- The interleaving is good, and every running program is on its way to what its call promises. -/
structure Promised (D : Discipline Db Key) (G : ι → α → Db → Db → Prop) (s : Sys Db Key Sup Err α ι) : Prop where
  good : s.Good D
  ready : ∀ p i code pend view, s.proc p = some (i, .running code pend view) →
    code.wp D (D.Ensures (G i)) ⟨s.held p, pend, view, s.db⟩

/-- Nothing is committed: the store stays, and so do the answers. -/
def Idles (s s' : Sys Db Key Sup Err α ι) : Prop :=
  s'.db = s.db ∧ ∀ q i a, s'.proc q = some (i, .committed a) → s.proc q = some (i, .committed a)

/-- Program `p`, which is call `i`, commits with the answer `a`. -/
structure Commits (p : ℕ) (i : ι) (a : α) (s s' : Sys Db Key Sup Err α ι) : Prop where
  running : s.Running p
  committed : s'.proc p = some (i, .committed a)
  others : ∀ q, q ≠ p → s'.proc q = s.proc q

/-- Nothing is committed, or something with its promise. -/
def Moves (G : ι → α → Db → Db → Prop) (s s' : Sys Db Key Sup Err α ι) : Prop :=
  Idles s s' ∨ ∃ p i a, Commits p i a s s' ∧ G i a s.db s'.db

/-- What happens to a running program that does not act. -/
theorem Promised.other {q : ℕ} {j : ι} {c : Txn Db Key Sup Err α} {pd : Db → Db} {v : Option Db} (h : Promised D G s)
    (hq : s.proc q = some (j, .running c pd v)) (hheld : s'.held q = s.held q) (hr : D.Rely (s.held q) s.db s'.db) :
    c.wp D (D.Ensures (G j)) ⟨s'.held q, pd, v, s'.db⟩ := by
  rw [hheld]
  exact Txn.wp_rely c (h.ready q j c pd v hq) hr

variable [DecidableEq Key]

/-- Program `p` moves on without ending. -/
theorem Promised.continue_ {p : ℕ} {i : ι} {ks : List Key} {code code' : Txn Db Key Sup Err α} {pend pend' : Db → Db}
    {view view' : Option Db} (h : Promised D G s) (hp : s.proc p = some (i, .running code pend view)) (hf : s.free p ks = true)
    (hgood : ((s.acquire p ks).setPhase p i (.running code' pend' view')).Good D)
    (hw : code'.wp D (D.Ensures (G i)) ⟨s.held p ∪ {k | k ∈ ks}, pend', view', s.db⟩) :
    Promised D G ((s.acquire p ks).setPhase p i (.running code' pend' view')) ∧
      Moves G s ((s.acquire p ks).setPhase p i (.running code' pend' view')) := by
  refine ⟨⟨hgood, fun q j c pd v hq => ?_⟩, .inl ⟨rfl, fun q j a hq => ?_⟩⟩
  · rw [setPhase_proc] at hq
    split at hq
    case isTrue hqp =>
      subst hqp
      simp only [Option.some.injEq, Prod.mk.injEq, Phase.running.injEq] at hq
      obtain ⟨rfl, rfl, rfl, rfl⟩ := hq
      show code'.wp D _ ⟨(s.acquire q ks).held q, pend', view', s.db⟩
      rw [held_acquire_self]
      exact hw
    case isFalse hqp => exact h.other hq (held_acquire_other hqp hf) (.refl h.good.inv)
  · rw [setPhase_proc] at hq
    split at hq
    case isTrue => cases hq
    case isFalse => exact hq

theorem acquire_nil (s : Sys Db Key Sup Err α ι) (p : ℕ) : s.acquire p [] = s := by
  show { s with owner := fun k => if k ∈ ([] : List Key) then some p else s.owner k } = s
  simp

/-- A step that takes no key. -/
theorem Promised.setPhase {p : ℕ} {i : ι} {code code' : Txn Db Key Sup Err α} {pend pend' : Db → Db} {view view' : Option Db}
    (h : Promised D G s) (hp : s.proc p = some (i, .running code pend view))
    (hgood : (s.setPhase p i (.running code' pend' view')).Good D)
    (hw : code'.wp D (D.Ensures (G i)) ⟨s.held p, pend', view', s.db⟩) :
    Promised D G (s.setPhase p i (.running code' pend' view')) ∧ Moves G s (s.setPhase p i (.running code' pend' view')) := by
  have hnone : s.held p ∪ {k | k ∈ ([] : List Key)} = s.held p := by
    ext
    simp
  rw [← hnone] at hw
  have hfree : s.free p [] = true := List.all_nil
  have hcontinue := h.continue_ hp hfree (by rwa [acquire_nil]) hw
  rwa [acquire_nil] at hcontinue

omit [DecidableEq Key] in
/-- A program starts. -/
theorem Promised.started {p : ℕ} {i : ι} {code : Txn Db Key Sup Err α} (h : Promised D G s) (hp : s.proc p = none)
    (hw : code.wp D (D.Ensures (G i)) ⟨∅, id, none, s.db⟩) :
    Promised D G (s.setPhase p i (.running code id none)) ∧ Moves G s (s.setPhase p i (.running code id none)) := by
  have hgood := h.good.started (i := i) hp (Txn.wp_mono code (fun _ _ he => he.commit) _ hw)
  rw [← h.good.held_eq_empty hp] at hw
  refine ⟨⟨hgood, fun q j c pd v hq => ?_⟩, .inl ⟨rfl, fun q j a hq => ?_⟩⟩
  · rw [setPhase_proc] at hq
    split at hq
    case isTrue hqp =>
      subst hqp
      simp only [Option.some.injEq, Prod.mk.injEq, Phase.running.injEq] at hq
      obtain ⟨rfl, rfl, rfl, rfl⟩ := hq
      exact hw
    case isFalse => exact h.ready q j c pd v hq
  · rw [setPhase_proc] at hq
    split at hq
    case isTrue => cases hq
    case isFalse => exact hq

omit [DecidableEq Key] in
/-- Program `p` ends, with the store `db`. -/
theorem Promised.finish {p : ℕ} {i : ι} {db : Db} {ph : Phase Db Key Sup Err α} (h : Promised D G s)
    (hph : ∀ code pend view, ph ≠ .running code pend view) (hgood : (s.finish p i db ph).Good D)
    (hkeep : ∀ k, k ∉ s.held p → D.Keeps k s.db db) : Promised D G (s.finish p i db ph) := by
  refine ⟨hgood, fun q j c pd v hq => ?_⟩
  have hq : (if q = p then some (i, ph) else s.proc q) = some (j, .running c pd v) := hq
  split at hq
  case isTrue =>
    simp only [Option.some.injEq, Prod.mk.injEq] at hq
    exact absurd hq.2 (hph c pd v)
  case isFalse hqp =>
    exact h.other hq (held_finish_other db ph hqp) ⟨hgood.inv, fun k hk => hkeep k (held_disjoint hqp hk)⟩

omit [DecidableEq Key] in
/-- Program `p` is rolled back. -/
theorem Promised.rollback {p : ℕ} {i : ι} (h : Promised D G s) (e : Option Err) :
    Promised D G (s.finish p i s.db (.rolledBack e)) ∧ Moves G s (s.finish p i s.db (.rolledBack e)) := by
  refine ⟨h.finish (fun _ _ _ => by simp) (h.good.rollback e) fun k _ => D.refl k s.db, .inl ⟨rfl, fun q j a hq => ?_⟩⟩
  have hq : (if q = p then some (i, .rolledBack e) else s.proc q) = some (j, .committed a) := hq
  split at hq
  case isTrue => cases hq
  case isFalse => exact hq

/-- One statement of a program. -/
theorem Promised.stmt {p : ℕ} {i : ι} {code : Txn Db Key Sup Err α} {pend : Db → Db} {view : Option Db} {x : Sup}
    (h : Promised D G s) (hp : s.proc p = some (i, .running code pend view)) (he : s.stmt p i x pend view code = some s') :
    Promised D G s' ∧ Moves G s s' := by
  have hw := h.ready p i code pend view hp
  have hgood := h.good.stmt hp he
  have hr : D.Rely (s.held p) s.db s.db := .refl h.good.inv
  cases code with
  | done a =>
    cases he
    obtain ⟨-, hkeep, hG⟩ := hw s.db hr
    refine ⟨h.finish (fun _ _ _ => by simp) hgood hkeep, .inr ⟨p, i, a, ⟨⟨i, _, pend, view, hp⟩, if_pos rfl, fun q hq => if_neg hq⟩, hG⟩⟩
  | throw e =>
    cases he
    exact h.rollback (some e)
  | peek q k =>
    cases he
    exact h.setPhase hp hgood (hw s.db hr)
  | read q k =>
    cases he
    exact h.setPhase hp hgood (hw s.db hr)
  | lock ks q k =>
    simp only [Sys.stmt, Option.ite_none_right_eq_some] at he
    obtain ⟨hf, he⟩ := he
    cases he
    exact h.continue_ hp hf hgood (hw s.db hr)
  | write ks ok u k =>
    simp only [Sys.stmt, Bool.and_eq_true, Option.ite_none_right_eq_some] at he
    obtain ⟨⟨hf, hok⟩, he⟩ := he
    cases he
    exact h.continue_ hp hf hgood (hw s.db hr x hok)

end Sys

variable [DecidableEq Key] {D : Discipline Db Key} {G : ι → α → Db → Db → Prop} {prog : ι → Txn Db Key Sup Err α} {start : Db → Prop}

/-- A step of an interleaving whose programs do what they promise. -/
theorem Sys.Promised.step (hprog : ∀ i db, D.Inv db → (prog i).wp D (D.Ensures (G i)) ⟨∅, id, none, db⟩)
    {s s' : Sys Db Key Sup Err α ι} {a : Act Sup ι} (h : Sys.Promised D G s) (he : (machine prog start).exec s a = some s') :
    Sys.Promised D G s' ∧ Sys.Moves G s s' := by
  cases a with
  | start p i =>
    simp only [machine] at he
    split at he
    case h_2 => cases he
    case h_1 hp =>
      cases he
      exact h.started hp (hprog i s.db h.good.inv)
  | step p x =>
    simp only [machine] at he
    split at he
    case h_1 i code pend view hp => exact h.stmt hp he
    case h_2 => cases he
  | abort p =>
    simp only [machine] at he
    split at he
    case h_1 =>
      cases he
      exact h.rollback none
    case h_2 => cases he

theorem promised_of_reachable (hstart : ∀ db, start db → D.Inv db)
    (hprog : ∀ i db, D.Inv db → (prog i).wp D (D.Ensures (G i)) ⟨∅, id, none, db⟩)
    {C : Sys Db Key Sup Err α ι → Act Sup ι → Prop} {s : Sys Db Key Sup Err α ι} (h : (machine prog start).Reachable C s) :
    Sys.Promised D G s := by
  refine h.invariant ?_ fun s a s' hs _ he => (hs.step hprog he).1
  rintro _ ⟨db, hdb, rfl⟩
  exact ⟨.start (hstart db hdb), fun p i code pend view hp => by simp [Sys.start] at hp⟩

/-- A program that commits does what its call promises. -/
theorem Sys.Promised.of_commits (hprog : ∀ i db, D.Inv db → (prog i).wp D (D.Ensures (G i)) ⟨∅, id, none, db⟩)
    {s s' : Sys Db Key Sup Err α ι} {a : Act Sup ι} (h : Sys.Promised D G s) (he : (machine prog start).exec s a = some s')
    {p : ℕ} {i : ι} {x : α} (hc : Sys.Commits p i x s s') : G i x s.db s'.db := by
  obtain ⟨j, code, pend, view, hrun⟩ := hc.running
  rcases (h.step hprog he).2 with hidle | ⟨q, k, y, hcommit, hG⟩
  · have hwas := hidle.2 p i x hc.committed
    rw [hrun] at hwas
    cases hwas
  · by_cases hpq : p = q
    · subst hpq
      have hsame := hcommit.committed
      rw [hc.committed] at hsame
      cases hsame
      exact hG
    · have hsame := hcommit.others p hpq
      rw [hrun, hc.committed] at hsame
      cases hsame

/-- What the promised commits keep, a run keeps. -/
theorem Sys.Promised.run_induction (hprog : ∀ i db, D.Inv db → (prog i).wp D (D.Ensures (G i)) ⟨∅, id, none, db⟩)
    {I : Db → Prop} (hI : ∀ i a db db', D.Inv db → G i a db db' → I db → I db') {s s' : Sys Db Key Sup Err α ι}
    {as : List (Act Sup ι)} (h : Sys.Promised D G s) (hr : (machine prog start).run s as = some s') (hs : I s.db) : I s'.db := by
  have hrun := Machine.run_induction (M := machine prog start) (P := fun _ _ => True)
    (I := fun s => Sys.Promised D G s ∧ I s.db) ?_ (fun _ _ _ => trivial) ⟨h, hs⟩ hr
  · exact hrun.2
  · rintro s a s' ⟨hpromised, hs⟩ - he
    obtain ⟨hpromised', hmoves⟩ := hpromised.step hprog he
    refine ⟨hpromised', ?_⟩
    rcases hmoves with hidle | ⟨p, i, a, -, hG⟩
    · rw [hidle.1]
      exact hs
    · exact hI i a s.db s'.db hpromised.good.inv hG hs

/-! ### How programs end -/

/-- The program that acts. -/
def Act.program : Act Sup ι → ℕ
  | .start p _ => p
  | .step p _ => p
  | .abort p => p

/-- Whatever a program reads, it does not throw. -/
def Txn.Returns : Txn Db Key Sup Err α → Prop
  | .done _ => True
  | .throw _ => False
  | .peek _ k => ∀ b, (k b).Returns
  | .read _ k => ∀ b, (k b).Returns
  | .lock _ _ k => ∀ b, (k b).Returns
  | .write _ _ _ k => ∀ x, (k x).Returns

omit [DecidableEq Key] in
theorem Txn.Returns.bind {β : Type} {c : Txn Db Key Sup Err α} {f : α → Txn Db Key Sup Err β} (hc : c.Returns)
    (hf : ∀ a, (f a).Returns) : (c >>= f).Returns := by
  show (c.bind f).Returns
  induction c with
  | done a => exact hf a
  | throw e => exact hc.elim
  | peek q k ih => exact fun b => ih b (hc b)
  | read q k ih => exact fun b => ih b (hc b)
  | lock ks q k ih => exact fun b => ih b (hc b)
  | write ks ok u k ih => exact fun x => ih x (hc x)

omit [DecidableEq Key] in
theorem Txn.Returns.orThrow {β : Type} {o : Option α} {a : α} {e : Err} {f : α → Txn Db Key Sup Err β} (ho : o = some a)
    (hf : (f a).Returns) : (Txn.orThrow o e >>= f).Returns := by
  subst ho
  exact hf

/-- It has not thrown, and will not. -/
def Phase.Calm : Phase Db Key Sup Err α → Prop
  | .running code _ _ => code.Returns
  | .committed _ => True
  | .rolledBack e => e = none

/-- A statement moves its own program. -/
theorem Sys.proc_of_stmt {s s' : Sys Db Key Sup Err α ι} {p : ℕ} {i : ι} {x : Sup} {pend : Db → Db} {view : Option Db}
    {code : Txn Db Key Sup Err α} (he : s.stmt p i x pend view code = some s') :
    ∃ ph, s'.proc = (s.setPhase p i ph).proc ∧ (code.Returns → ph.Calm) := by
  cases code with
  | done a =>
    cases he
    exact ⟨.committed a, rfl, fun _ => trivial⟩
  | throw e =>
    cases he
    exact ⟨.rolledBack (some e), rfl, fun h => h.elim⟩
  | peek q k =>
    cases he
    exact ⟨_, rfl, fun h => h _⟩
  | read q k =>
    cases he
    exact ⟨_, rfl, fun h => h _⟩
  | lock ks q k =>
    simp only [Sys.stmt, Option.ite_none_right_eq_some] at he
    obtain ⟨-, he⟩ := he
    cases he
    exact ⟨_, rfl, fun h => h _⟩
  | write ks ok u k =>
    simp only [Sys.stmt, Option.ite_none_right_eq_some] at he
    obtain ⟨-, he⟩ := he
    cases he
    exact ⟨_, rfl, fun h => h _⟩

/-- The program that acts starts, or was running; it goes on as the same call. -/
theorem proc_of_exec {s s' : Sys Db Key Sup Err α ι} {a : Act Sup ι} (he : (machine prog start).exec s a = some s') :
    ∃ i ph, s'.proc = (s.setPhase a.program i ph).proc ∧
      (a = .start a.program i ∧ s.proc a.program = none ∧ ((prog i).Returns → ph.Calm) ∨
        ∃ code pend view, s.proc a.program = some (i, .running code pend view) ∧ (code.Returns → ph.Calm)) := by
  cases a with
  | start p i =>
    simp only [machine] at he
    split at he
    case h_2 => cases he
    case h_1 hp =>
      cases he
      exact ⟨i, _, rfl, .inl ⟨rfl, hp, id⟩⟩
  | step p x =>
    simp only [machine] at he
    split at he
    case h_2 => cases he
    case h_1 i code pend view hp =>
      obtain ⟨ph, hph, hcalm⟩ := Sys.proc_of_stmt he
      exact ⟨i, ph, hph, .inr ⟨code, pend, view, hp, hcalm⟩⟩
  | abort p =>
    simp only [machine] at he
    split at he
    case h_2 => cases he
    case h_1 i code pend view hp =>
      cases he
      exact ⟨i, _, rfl, .inr ⟨code, pend, view, hp, fun _ => rfl⟩⟩

/-- A program is the call it started as. -/
theorem call_of_exec {s s' : Sys Db Key Sup Err α ι} {a : Act Sup ι} (he : (machine prog start).exec s a = some s') {p : ℕ} {i : ι}
    {ph : Phase Db Key Sup Err α} (hp : s'.proc p = some (i, ph)) : a = .start p i ∨ ∃ ph', s.proc p = some (i, ph') := by
  obtain ⟨j, ph', hproc, hwas⟩ := proc_of_exec he
  rw [hproc, Sys.setPhase_proc] at hp
  split at hp
  case isFalse => exact .inr ⟨ph, hp⟩
  case isTrue hpa =>
    subst hpa
    cases hp
    rcases hwas with ⟨hstart, -⟩ | ⟨code, pend, view, hrun, -⟩
    · exact .inl hstart
    · exact .inr ⟨_, hrun⟩

/-- A program that has started goes on as its call. -/
theorem call_stays {s s' : Sys Db Key Sup Err α ι} {a : Act Sup ι} (he : (machine prog start).exec s a = some s') {p : ℕ} {i : ι}
    {ph : Phase Db Key Sup Err α} (hp : s.proc p = some (i, ph)) : ∃ ph', s'.proc p = some (i, ph') := by
  obtain ⟨j, ph', hproc, hwas⟩ := proc_of_exec he
  rw [hproc, Sys.setPhase_proc]
  by_cases hpa : p = a.program
  · rw [if_pos hpa]
    subst hpa
    rcases hwas with ⟨-, hnone, -⟩ | ⟨code, pend, view, hrun, -⟩
    · rw [hp] at hnone
      cases hnone
    · rw [hp] at hrun
      cases hrun
      exact ⟨ph', rfl⟩
  · rw [if_neg hpa]
    exact ⟨ph, hp⟩

/-- A program that has ended does not act. -/
theorem ended_of_exec {s s' : Sys Db Key Sup Err α ι} {a : Act Sup ι} (he : (machine prog start).exec s a = some s') {p : ℕ} {i : ι}
    {ph : Phase Db Key Sup Err α} (hph : ∀ code pend view, ph ≠ .running code pend view) (hp : s.proc p = some (i, ph)) :
    s'.proc p = some (i, ph) := by
  obtain ⟨j, ph', hproc, hwas⟩ := proc_of_exec he
  rw [hproc, Sys.setPhase_proc, if_neg ?_, hp]
  rintro rfl
  rcases hwas with ⟨-, hnone, -⟩ | ⟨code, pend, view, hrun, -⟩
  · rw [hp] at hnone
    cases hnone
  · rw [hp] at hrun
    cases hrun
    exact hph code pend view rfl

theorem ended_of_run {s s' : Sys Db Key Sup Err α ι} {as : List (Act Sup ι)} (hr : (machine prog start).run s as = some s') {p : ℕ} {i : ι}
    {ph : Phase Db Key Sup Err α} (hph : ∀ code pend view, ph ≠ .running code pend view) (hp : s.proc p = some (i, ph)) :
    s'.proc p = some (i, ph) :=
  Machine.run_induction (P := fun _ _ => True) (I := fun s : Sys Db Key Sup Err α ι => s.proc p = some (i, ph))
    (fun _ _ _ hp _ he => ended_of_exec he hph hp) (fun _ _ _ => trivial) hp hr

/-- A program that was rolled back has left the store as it was, with each of its steps. -/
theorem db_of_rolledBack (hprog : ∀ i db, D.Inv db → (prog i).wp D (D.Ensures (G i)) ⟨∅, id, none, db⟩) {s t s' : Sys Db Key Sup Err α ι}
    (h : Sys.Promised D G s) {a : Act Sup ι} (he : (machine prog start).exec s a = some t) {as : List (Act Sup ι)}
    (hr : (machine prog start).run t as = some s') {i : ι} {e : Option Err} (hp : s'.proc a.program = some (i, .rolledBack e)) :
    t.db = s.db := by
  rcases (h.step hprog he).2 with hidle | ⟨p, j, x, hcommit, -⟩
  · exact hidle.1
  · -- the program that committed is the one that acted
    have hpa : p = a.program := by
      by_contra hne
      obtain ⟨k, ph, hproc, -⟩ := proc_of_exec he
      obtain ⟨l, code, pend, view, hrun⟩ := hcommit.running
      have hsame := hcommit.committed
      rw [hproc, Sys.setPhase_proc, if_neg hne, hrun] at hsame
      cases hsame
    subst hpa
    rw [ended_of_run hr (fun _ _ _ => by simp) hcommit.committed] at hp
    cases hp

/-- A call that does not throw is rolled back by force only. -/
theorem calm_of_reachable {i : ι} (hi : (prog i).Returns) {C : Sys Db Key Sup Err α ι → Act Sup ι → Prop} {s : Sys Db Key Sup Err α ι}
    (h : (machine prog start).Reachable C s) : ∀ p ph, s.proc p = some (i, ph) → ph.Calm := by
  apply h.invariant
  · rintro _ ⟨db, -, rfl⟩ p ph hp
    cases hp
  · intro s a s' hs _ he p ph hp
    obtain ⟨j, ph', hproc, hwas⟩ := proc_of_exec he
    rw [hproc, Sys.setPhase_proc] at hp
    split at hp
    case isFalse => exact hs p ph hp
    case isTrue hpa =>
      subst hpa
      cases hp
      rcases hwas with ⟨-, -, hcalm⟩ | ⟨code, pend, view, hrun, hcalm⟩
      · exact hcalm hi
      · exact hcalm (hs _ _ hrun)

end HotelBackend.Theory.Transactions
