import HotelBackend.Theory.Guarantees
import Mathlib.Logic.Relation
import Mathlib.Order.Defs.PartialOrder

/-!
# An order of locks

A program waits when a key that its next statement asks for is held by another. If every key a
program may ask for has a rank above the rank of what its holder waits for in turn, no programs
wait for each other in a circle (`acyclic_of_rank`).

`Txn.asking` is what a program owes for that: at each statement, every key asked for is held
already, or satisfies `Ask`, a condition on the keys held and the store. It is proved for one
program at a time. `deadlock_free` then needs the rank only of two programs that hold different
keys of one store.

Statements that lock several rows lock them one by one, in any order, and others run in
between. In `lockMachine` that is an action of its own (`take`); the rest is `machine`.
-/

namespace HotelBackend.Theory.Transactions

/-! ### Ranks -/

/-- Waits with increasing ranks do not close. `waits p k q` is that `p` waits for `k`, held by `q`. -/
theorem acyclic_of_rank {P K τ : Type} [Preorder τ] {waits : P → K → P → Prop} {rank : P → K → τ}
    (h : ∀ p k q k' r, waits p k q → waits q k' r → rank p k < rank q k') (p : P) :
    ¬ Relation.TransGen (fun p q => ∃ k, waits p k q) p p := by
  -- a path from `p` starts with a wait that ranks below whatever its end waits for
  have hpath : ∀ q, Relation.TransGen (fun p q => ∃ k, waits p k q) p q →
      ∃ k r, waits p k r ∧ ∀ k' r', waits q k' r' → rank p k < rank q k' := by
    intro q hq
    induction hq with
    | single he =>
      obtain ⟨k, hk⟩ := he
      exact ⟨k, _, hk, fun k' r' hw => h _ _ _ _ _ hk hw⟩
    | tail _ he ih =>
      obtain ⟨k, r, hk, hlast⟩ := ih
      obtain ⟨k₁, hk₁⟩ := he
      exact ⟨k, r, hk, fun k' r' hw => (hlast k₁ _ hk₁).trans (h _ _ _ _ _ hk₁ hw)⟩
  intro hcycle
  obtain ⟨k, r, hk, hlast⟩ := hpath p hcycle
  exact lt_irrefl _ (hlast k r hk)

variable {Db Key Sup Err α β ι : Type}

/-! ### What a statement asks for -/

/-- The keys the next statement of a program asks for. Of a write it is only those whose row is
there: what it inserts, no other program can hold. -/
def Txn.Asks (row : Db → Key → Prop) (db : Db) : Txn Db Key Sup Err α → Key → Prop
  | .lock ks _ _, k => k ∈ ks db
  | .write ks ok _ _, k => row db k ∧ ∃ x, ok x db = true ∧ k ∈ ks x db
  | _, _ => False

/-- A locking statement with the keys `ks` is waiting: others act, and of several keys one is taken
after the other. -/
inductive Eases (D : Discipline Db Key) (ks : Db → List Key) : Local Db Key → Local Db Key → Prop where
  | waits {l : Local Db Key} {db : Db} : D.Rely l.held l.db db → Eases D ks l { l with db := db }
  | takes {l : Local Db Key} {k : Key} : k ∈ ks (l.pend l.db) → 1 < (ks (l.pend l.db)).length →
      Eases D ks l { l with held := l.held ∪ {k} }

/-- How far a locking statement may have come when it has waited enough. -/
def Taking (D : Discipline Db Key) (ks : Db → List Key) (l l' : Local Db Key) : Prop :=
  Relation.ReflTransGen (Eases D ks) l l' ∧ D.Inv l'.db

section Taking

variable {D : Discipline Db Key} {ks : Db → List Key} {l l' : Local Db Key}

theorem Taking.refl (h : D.Inv l.db) : Taking D ks l l := ⟨.refl, h⟩

theorem Taking.head {m : Local Db Key} (he : Eases D ks l m) (h : Taking D ks m l') : Taking D ks l l' :=
  ⟨h.1.head he, h.2⟩

/-- A statement with one key at most only waits. -/
theorem Taking.rely (h : Taking D ks l l') (hsingle : ∀ db, (ks (l.pend db)).length ≤ 1) :
    ∃ db, D.Rely l.held l.db db ∧ l' = { l with db := db } := by
  obtain ⟨hpath, hinv⟩ := h
  have hwaited : l' = l ∨ ∃ db, D.Rely l.held l.db db ∧ l' = { l with db := db } := by
    clear hinv
    induction hpath with
    | refl => exact .inl rfl
    | tail _ he ih =>
      rcases ih with rfl | ⟨db, hr, rfl⟩
      · cases he with
        | waits hr => exact .inr ⟨_, hr, rfl⟩
        | takes hk hlt => exact absurd (hsingle _) (not_le.2 hlt)
      · cases he with
        | waits hr' => exact .inr ⟨_, hr.trans hr' subset_rfl, rfl⟩
        | takes hk hlt => exact absurd (hsingle _) (not_le.2 hlt)
  rcases hwaited with rfl | hwaited
  · exact ⟨l'.db, .refl hinv, rfl⟩
  · exact hwaited

/-- What waiting and taking keep. -/
theorem Taking.invariant {I : Local Db Key → Prop} (h : Taking D ks l l') (hl : I l)
    (hwaits : ∀ m db, I m → m.pend = l.pend → D.Rely m.held m.db db → I { m with db := db })
    (htakes : ∀ m k, I m → m.pend = l.pend → D.Inv m.db → k ∈ ks (m.pend m.db) → I { m with held := m.held ∪ {k} })
    (hinv : D.Inv l.db) : I l' ∧ l'.pend = l.pend ∧ l.held ⊆ l'.held ∧ D.Rely l.held l.db l'.db := by
  obtain ⟨hpath, -⟩ := h
  induction hpath with
  | refl => exact ⟨hl, rfl, subset_rfl, .refl hinv⟩
  | tail _ he ih =>
    obtain ⟨hI, hpend, hheld, hrely⟩ := ih
    cases he with
    | waits hr => exact ⟨hwaits _ _ hI hpend hr, hpend, hheld, hrely.trans hr hheld⟩
    | takes hk _ => exact ⟨htakes _ _ hI hpend hrely.1 hk, hpend, hheld.trans Set.subset_union_left, hrely⟩

end Taking

/-! ### What a program owes -/

/-- The weakest precondition of a program among programs that follow `D`, of which every key it asks
for has to be held already, or to satisfy `Ask`. -/
def Txn.asking (D : Discipline Db Key) (row : Db → Key → Prop) (Ask : Local Db Key → Key → Prop) :
    Txn Db Key Sup Err α → (α → Local Db Key → Prop) → Local Db Key → Prop
  | .done a, Q => fun l => Q a l
  | .throw _, _ => fun _ => True
  | .peek q k, Q => fun l => ∀ db, D.Rely l.held l.db db → (k (q db)).asking D row Ask Q { l with db := db }
  | .read q k, Q => fun l => ∀ db, D.Rely l.held l.db db →
      (k (q (l.pend (l.view.getD db)))).asking D row Ask Q { l with db := db, view := some (l.view.getD db) }
  | .lock ks q k, Q => fun l => ∀ l', Taking D ks l l' →
      (∀ x ∈ ks (l'.pend l'.db), x ∈ l'.held ∨ Ask l' x) ∧
        (k (q (l'.pend l'.db))).asking D row Ask Q { l' with held := l'.held ∪ {x | x ∈ ks (l'.pend l'.db)} }
  | .write ks ok u k, Q => fun l => ∀ db, D.Rely l.held l.db db → ∀ x, ok x (l.pend db) = true →
      (∀ y ∈ ks x (l.pend db), row (l.pend db) y → y ∈ l.held ∨ Ask { l with db := db } y) ∧
        (k x).asking D row Ask Q { l with db := db, held := l.held ∪ {y | y ∈ ks x (l.pend db)}, pend := u x ∘ l.pend }

namespace Txn

variable {D : Discipline Db Key} {row : Db → Key → Prop} {Ask : Local Db Key → Key → Prop} {l : Local Db Key}

/-- Sequencing. -/
@[simp] theorem asking_bind (c : Txn Db Key Sup Err α) (f : α → Txn Db Key Sup Err β) (Q : β → Local Db Key → Prop)
    (l : Local Db Key) : (c >>= f).asking D row Ask Q l ↔ c.asking D row Ask (fun a => (f a).asking D row Ask Q) l := by
  show (c.bind f).asking D row Ask Q l ↔ _
  induction c generalizing l with
  | done a => exact Iff.rfl
  | throw e => exact Iff.rfl
  | peek q k ih => exact forall₂_congr fun db _ => ih _ _
  | read q k ih => exact forall₂_congr fun db _ => ih _ _
  | lock ks q k ih => exact forall₂_congr fun l' _ => and_congr_right fun _ => ih _ _
  | write ks ok u k ih => exact forall₄_congr fun db _ x _ => and_congr_right fun _ => ih x _

@[simp] theorem asking_pure (a : α) (Q : α → Local Db Key → Prop) (l : Local Db Key) :
    (pure a : Txn Db Key Sup Err α).asking D row Ask Q l ↔ Q a l := Iff.rfl

@[simp] theorem asking_peeking (q : Db → α) (Q : α → Local Db Key → Prop) (l : Local Db Key) :
    (peeking q : Txn Db Key Sup Err α).asking D row Ask Q l ↔
      ∀ db, D.Rely l.held l.db db → Q (q db) { l with db := db } := Iff.rfl

@[simp] theorem asking_reading (q : Db → α) (Q : α → Local Db Key → Prop) (l : Local Db Key) :
    (reading q : Txn Db Key Sup Err α).asking D row Ask Q l ↔ ∀ db, D.Rely l.held l.db db →
      Q (q (l.pend (l.view.getD db))) { l with db := db, view := some (l.view.getD db) } := Iff.rfl

@[simp] theorem asking_locking (ks : Db → List Key) (q : Db → α) (Q : α → Local Db Key → Prop) (l : Local Db Key) :
    (locking ks q : Txn Db Key Sup Err α).asking D row Ask Q l ↔ ∀ l', Taking D ks l l' →
      (∀ x ∈ ks (l'.pend l'.db), x ∈ l'.held ∨ Ask l' x) ∧
        Q (q (l'.pend l'.db)) { l' with held := l'.held ∪ {x | x ∈ ks (l'.pend l'.db)} } := Iff.rfl

@[simp] theorem asking_writing (ks : Sup → Db → List Key) (ok : Sup → Db → Bool) (u : Sup → Db → Db)
    (Q : Sup → Local Db Key → Prop) (l : Local Db Key) :
    (writing ks ok u : Txn Db Key Sup Err Sup).asking D row Ask Q l ↔ ∀ db, D.Rely l.held l.db db →
      ∀ x, ok x (l.pend db) = true →
        (∀ y ∈ ks x (l.pend db), row (l.pend db) y → y ∈ l.held ∨ Ask { l with db := db } y) ∧
          Q x { l with db := db, held := l.held ∪ {y | y ∈ ks x (l.pend db)}, pend := u x ∘ l.pend } := Iff.rfl

@[simp] theorem asking_orThrow (o : Option α) (e : Err) (Q : α → Local Db Key → Prop) (l : Local Db Key) :
    (orThrow o e : Txn Db Key Sup Err α).asking D row Ask Q l ↔ ∀ a, o = some a → Q a l := by
  cases o with
  | none => simp [orThrow, asking]
  | some a => simp [orThrow, asking]

@[simp] theorem asking_require (c : Prop) [Decidable c] (e : Err) (Q : Unit → Local Db Key → Prop)
    (l : Local Db Key) : (require c e : Txn Db Key Sup Err Unit).asking D row Ask Q l ↔ (c → Q () l) := by
  unfold require
  split
  · simp [asking, *]
  · simp [asking, *]

@[simp] theorem asking_when (c : Prop) [Decidable c] (p : Txn Db Key Sup Err Unit) (Q : Unit → Local Db Key → Prop)
    (l : Local Db Key) : (p.when c).asking D row Ask Q l ↔ (c → p.asking D row Ask Q l) ∧ (¬ c → Q () l) := by
  unfold when
  split
  · simp [*]
  · simp [asking, *]

@[simp] theorem asking_ofExcept (x : Except Err α) (Q : α → Local Db Key → Prop) (l : Local Db Key) :
    (ofExcept x : Txn Db Key Sup Err α).asking D row Ask Q l ↔ ∀ a, x = .ok a → Q a l := by
  cases x with
  | error e => simp [ofExcept, asking]
  | ok a => simp [ofExcept, asking]

/-- A locking read of the first row that matches asks for the key of the row it finds. -/
theorem asking_locking_find {ρ : Type} {table : Db → List ρ} {key : ρ → Key} {q : ρ → Bool}
    {Q : Option ρ → Local Db Key → Prop}
    (hask : ∀ db, D.Rely l.held l.db db → ∀ r ∈ table (l.pend db), q r = true → key r ∈ l.held ∨ Ask { l with db := db } (key r))
    (hnone : ∀ db, D.Rely l.held l.db db → Q none { l with db := db })
    (hsome : ∀ db, D.Rely l.held l.db db → ∀ r ∈ table (l.pend db), q r = true →
      Q (some r) { l with db := db, held := l.held ∪ {key r} }) :
    (locking (fun db => ((table db).find? q).toList.map key) (fun db => (table db).find? q) :
      Txn Db Key Sup Err (Option ρ)).asking D row Ask Q l := by
  intro l' htaking
  have hsingle : ∀ db, (((table db).find? q).toList.map key).length ≤ 1 := by
    intro db
    rw [List.length_map]
    exact Option.length_toList_le
  obtain ⟨db, hr, rfl⟩ := htaking.rely fun db => hsingle _
  cases hfind : (table (l.pend db)).find? q with
  | none =>
    have hheld : l.held ∪ {k | k ∈ (none : Option ρ).toList.map key} = l.held := by
      ext
      simp
    simp only [asking, hfind, hheld]
    exact ⟨fun x hx => absurd hx List.not_mem_nil, hnone db hr⟩
  | some r =>
    have hheld : l.held ∪ {k | k ∈ (some r).toList.map key} = l.held ∪ {key r} := by
      ext
      simp
    have hmem := List.mem_of_find?_eq_some hfind
    simp only [asking, hfind, hheld]
    refine ⟨fun x hx => ?_, hsome db hr r hmem (List.find?_some hfind)⟩
    obtain rfl : x = key r := by simpa using hx
    exact hask db hr r hmem (List.find?_some hfind)

end Txn

/-! ### Programs that ask for nothing more -/

/-- Whatever a program reads, it asks for no key outside `H`. -/
def Txn.Within (row : Db → Key → Prop) (H : Set Key) : Txn Db Key Sup Err α → Prop
  | .done _ => True
  | .throw _ => True
  | .peek _ k => ∀ b, (k b).Within row H
  | .read _ k => ∀ b, (k b).Within row H
  | .lock ks _ k => (∀ db, ∀ y ∈ ks db, y ∈ H) ∧ ∀ b, (k b).Within row H
  | .write ks ok _ k => ∀ x, (∀ db, ok x db = true → ∀ y ∈ ks x db, row db y → y ∈ H) ∧ (k x).Within row H

namespace Txn

variable {D : Discipline Db Key} {row : Db → Key → Prop} {Ask : Local Db Key → Key → Prop} {H : Set Key}

theorem Within.bind {c : Txn Db Key Sup Err α} {f : α → Txn Db Key Sup Err β} (hc : c.Within row H)
    (hf : ∀ a, (f a).Within row H) : (c >>= f).Within row H := by
  show (c.bind f).Within row H
  induction c with
  | done a => exact hf a
  | throw e => trivial
  | peek q k ih => exact fun b => ih b (hc b)
  | read q k ih => exact fun b => ih b (hc b)
  | lock ks q k ih => exact ⟨hc.1, fun b => ih b (hc.2 b)⟩
  | write ks ok u k ih => exact fun x => ⟨(hc x).1, ih x (hc x).2⟩

theorem Within.pure (a : α) : (Pure.pure a : Txn Db Key Sup Err α).Within row H := trivial

theorem Within.reading (q : Db → α) : (Txn.reading q : Txn Db Key Sup Err α).Within row H := fun _ => trivial

theorem Within.orThrow (o : Option α) (e : Err) : (Txn.orThrow o e : Txn Db Key Sup Err α).Within row H := by
  cases o <;> trivial

theorem Within.require (c : Prop) [Decidable c] (e : Err) : (Txn.require c e : Txn Db Key Sup Err Unit).Within row H := by
  unfold Txn.require
  split <;> trivial

theorem Within.writing {ks : Sup → Db → List Key} {ok : Sup → Db → Bool} {u : Sup → Db → Db}
    (h : ∀ x db, ok x db = true → ∀ y ∈ ks x db, row db y → y ∈ H) :
    (Txn.writing ks ok u : Txn Db Key Sup Err Sup).Within row H :=
  fun x => ⟨h x, trivial⟩

/-- A program whose keys are held already owes nothing. -/
theorem asking_of_within {c : Txn Db Key Sup Err α} {l : Local Db Key} (hc : c.Within row H) (hH : H ⊆ l.held) (hinv : D.Inv l.db) :
    c.asking D row Ask (fun _ _ => True) l := by
  induction c generalizing l with
  | done a => trivial
  | throw e => trivial
  | peek q k ih => exact fun db hr => ih _ (hc _) hH hr.1
  | read q k ih => exact fun db hr => ih _ (hc _) hH hr.1
  | lock ks q k ih =>
    intro l' htaking
    have htaken := htaking.invariant (I := fun _ => True) trivial (fun _ _ _ _ _ => trivial) (fun _ _ _ _ _ _ => trivial) hinv
    have hheld : H ⊆ l'.held := hH.trans htaken.2.2.1
    exact ⟨fun x hx => .inl (hheld (hc.1 _ x hx)), ih _ (hc.2 _) (hheld.trans Set.subset_union_left) htaking.2⟩
  | write ks ok u k ih =>
    intro db hr x hok
    exact ⟨fun y hy hrow => .inl (hH ((hc x).1 _ hok y hy hrow)), ih x (hc x).2 (hH.trans Set.subset_union_left) hr.1⟩

end Txn

/-! ### How far a program has come -/

/-- One statement of a program in the middle of its run. -/
inductive Txn.Moves (D : Discipline Db Key) : Txn Db Key Sup Err α → Local Db Key → Txn Db Key Sup Err α → Local Db Key → Prop where
  | peek {γ : Type} {q : Db → γ} {k : γ → Txn Db Key Sup Err α} {l : Local Db Key} :
      Moves D (.peek q k) l (k (q l.db)) l
  | read {γ : Type} {q : Db → γ} {k : γ → Txn Db Key Sup Err α} {l : Local Db Key} :
      Moves D (.read q k) l (k (q (l.pend (l.view.getD l.db)))) { l with view := some (l.view.getD l.db) }
  | lock {γ : Type} {ks : Db → List Key} {q : Db → γ} {k : γ → Txn Db Key Sup Err α} {l : Local Db Key} :
      Moves D (.lock ks q k) l (k (q (l.pend l.db))) { l with held := l.held ∪ {x | x ∈ ks (l.pend l.db)} }
  | write {ks : Sup → Db → List Key} {ok : Sup → Db → Bool} {u : Sup → Db → Db} {k : Sup → Txn Db Key Sup Err α}
      {l : Local Db Key} {x : Sup} : ok x (l.pend l.db) = true →
      Moves D (.write ks ok u k) l (k x) { l with held := l.held ∪ {y | y ∈ ks x (l.pend l.db)}, pend := u x ∘ l.pend }

section Stable

variable {D : Discipline Db Key} {row : Db → Key → Prop} {Ask : Local Db Key → Key → Prop} {l l' : Local Db Key}

/-- What another program does leaves what a program owes. -/
theorem Txn.asking_rely (c : Txn Db Key Sup Err α) {db : Db} (h : c.asking D row Ask (fun _ _ => True) l)
    (hr : D.Rely l.held l.db db) : c.asking D row Ask (fun _ _ => True) { l with db := db } := by
  cases c with
  | done a => trivial
  | throw e => trivial
  | peek q k => exact fun db' hr' => h db' (hr.trans hr' subset_rfl)
  | read q k => exact fun db' hr' => h db' (hr.trans hr' subset_rfl)
  | lock ks q k => exact fun l' htaking => h l' (htaking.head (.waits hr))
  | write ks ok u k => exact fun db' hr' => h db' (hr.trans hr' subset_rfl)

theorem Txn.Moves.asking {c c' : Txn Db Key Sup Err α} (hm : Txn.Moves D c l c' l') (hinv : D.Inv l.db)
    (h : c.asking D row Ask (fun _ _ => True) l) : c'.asking D row Ask (fun _ _ => True) l' := by
  cases hm with
  | peek => exact h l.db (.refl hinv)
  | read => exact h l.db (.refl hinv)
  | lock => exact (h l (.refl hinv)).2
  | write hok => exact (h l.db (.refl hinv) _ hok).2

/-- What a program asks for where it is, it holds, or it satisfies `Ask`. -/
theorem Txn.ask_of_asks {c : Txn Db Key Sup Err α} {k : Key} (h : c.asking D row Ask (fun _ _ => True) l) (hinv : D.Inv l.db)
    (hk : c.Asks row (l.pend l.db) k) : k ∈ l.held ∨ Ask l k := by
  cases c with
  | lock ks q c => exact (h l (.refl hinv)).1 k hk
  | write ks ok u c =>
    obtain ⟨hrow, x, hok, hkx⟩ := hk
    exact (h l.db (.refl hinv) x hok).1 k hkx hrow
  | _ => exact hk.elim

/-- A program that holds more may still commit. -/
theorem Txn.wp_of_held_subset (c : Txn Db Key Sup Err α) (h : c.wp D D.Commit l) {held : Set Key} (hsub : l.held ⊆ held) :
    c.wp D D.Commit { l with held := held } := by
  have hrely : ∀ {a b : Set Key} {x y : Db}, a ⊆ b → D.Rely b x y → D.Rely a x y :=
    fun hab hr => ⟨hr.1, fun k hk => hr.2 k (hab hk)⟩
  induction c generalizing l held with
  | done a =>
    intro db hr
    obtain ⟨hinv, hkeep⟩ := h db (hrely hsub hr)
    exact ⟨hinv, fun k hk => hkeep k fun hk' => hk (hsub hk')⟩
  | throw e => trivial
  | peek q k ih => exact fun db hr => ih _ (h db (hrely hsub hr)) hsub
  | read q k ih => exact fun db hr => ih _ (h db (hrely hsub hr)) hsub
  | lock ks q k ih => exact fun db hr => ih _ (h db (hrely hsub hr)) (Set.union_subset_union_left _ hsub)
  | write ks ok u k ih => exact fun db hr x hok => ih x (h db (hrely hsub hr) x hok) (Set.union_subset_union_left _ hsub)

end Stable

/-! ### The machine that locks row by row -/

/-- What may happen next. -/
inductive LockAct (Key Sup ι : Type) where
  /-- As in `machine`. -/
  | act (a : Act Sup ι)
  /-- Program `p`, at a statement that locks several rows, takes the key `k` of one of them. -/
  | take (p : ℕ) (k : Key)

variable [DecidableEq Key]

/-- The state after program `p` takes `k`, if its next statement locks `k` and other rows. -/
def Sys.take (s : Sys Db Key Sup Err α ι) (p : ℕ) (k : Key) (pend : Db → Db) : Txn Db Key Sup Err α → Option (Sys Db Key Sup Err α ι)
  | .lock ks _ _ => if k ∈ ks (pend s.db) ∧ 1 < (ks (pend s.db)).length ∧ s.free p [k] = true then some (s.acquire p [k]) else none
  | _ => none

/-- The machine of the calls `prog` in which statements lock their rows one by one. -/
def lockMachine (prog : ι → Txn Db Key Sup Err α) (start : Db → Prop) : Machine (Sys Db Key Sup Err α ι) (LockAct Key Sup ι) where
  init := (machine prog start : Machine (Sys Db Key Sup Err α ι) (Act Sup ι)).init
  exec s
    | .act a => (machine prog start).exec s a
    | .take p k =>
      match s.proc p with
      | some (_, .running code pend _) => s.take p k pend code
      | _ => none

namespace Sys

/-- Program `p` waits for the key `k`, which program `q` holds. -/
def WaitsOn (row : Db → Key → Prop) (s : Sys Db Key Sup Err α ι) (p : ℕ) (k : Key) (q : ℕ) : Prop :=
  p ≠ q ∧ s.owner k = some q ∧ ∃ i code pend view, s.proc p = some (i, .running code pend view) ∧ code.Asks row (pend s.db) k

/-- The keys that the next locking read of program `p` asks for. -/
def nextKeys (s : Sys Db Key Sup Err α ι) (p : ℕ) : List Key :=
  match s.proc p with
  | some (_, .running (.lock ks _ _) pend _) => ks (pend s.db)
  | _ => []

omit [DecidableEq Key] in
theorem waitsOn_of_nextKeys {row : Db → Key → Prop} {s : Sys Db Key Sup Err α ι} {p q : ℕ} {k : Key} (hpq : p ≠ q)
    (hq : s.owner k = some q) (hk : k ∈ s.nextKeys p) : s.WaitsOn row p k q := by
  unfold nextKeys at hk
  split at hk
  case h_1 i γ ks read code pend view hp => exact ⟨hpq, hq, i, _, pend, view, hp, hk⟩
  case h_2 => cases hk

/-- Program `p` waits for program `q`. -/
def WaitsFor (row : Db → Key → Prop) (s : Sys Db Key Sup Err α ι) (p q : ℕ) : Prop := ∃ k, s.WaitsOn row p k q

/-- Where program `p` is. -/
def place (s : Sys Db Key Sup Err α ι) (p : ℕ) : Local Db Key :=
  match s.proc p with
  | some (_, .running _ pend view) => ⟨s.held p, pend, view, s.db⟩
  | _ => ⟨s.held p, id, none, s.db⟩

omit [DecidableEq Key] in
@[simp] theorem place_db (s : Sys Db Key Sup Err α ι) (p : ℕ) : (s.place p).db = s.db := by
  unfold place
  split <;> rfl

omit [DecidableEq Key] in
@[simp] theorem place_held (s : Sys Db Key Sup Err α ι) (p : ℕ) : (s.place p).held = s.held p := by
  unfold place
  split <;> rfl

/-- The interleaving is good, and every running program owes no more than `Ask`. -/
structure Orderly (D : Discipline Db Key) (row : Db → Key → Prop) (Ask : Local Db Key → Key → Prop)
    (s : Sys Db Key Sup Err α ι) : Prop where
  good : s.Good D
  asking : ∀ p i code pend view, s.proc p = some (i, .running code pend view) →
    code.asking D row Ask (fun _ _ => True) ⟨s.held p, pend, view, s.db⟩

variable {D : Discipline Db Key} {row : Db → Key → Prop} {Ask : Local Db Key → Key → Prop}
  {prog : ι → Txn Db Key Sup Err α} {start : Db → Prop} {s s' : Sys Db Key Sup Err α ι} {p : ℕ} {i : ι}

/-- What one statement of program `p` does: `p` moves on, or ends and keeps the keys it does not hold. -/
theorem Good.stmt_cases {code : Txn Db Key Sup Err α} {pend : Db → Db} {view : Option Db} {x : Sup} (h : s.Good D)
    (hp : s.proc p = some (i, .running code pend view)) (he : s.stmt p i x pend view code = some s') :
    (∃ ks code' pend' view', s.free p ks = true ∧ s' = (s.acquire p ks).setPhase p i (.running code' pend' view') ∧
        Txn.Moves D code ⟨s.held p, pend, view, s.db⟩ code' ⟨(s.acquire p ks).held p, pend', view', s.db⟩) ∨
      ∃ db ph, (∀ code' pend' view', ph ≠ .running code' pend' view') ∧ s' = s.finish p i db ph ∧
        ∀ k, k ∉ s.held p → D.Keeps k s.db db := by
  have hw := h.ready p i code pend view hp
  have hnone : (s.acquire p []).held p = s.held p := by rw [acquire_nil]
  cases code with
  | done a =>
    cases he
    exact .inr ⟨_, _, fun _ _ _ => by simp, rfl, (hw s.db (.refl h.inv)).2⟩
  | throw e =>
    cases he
    exact .inr ⟨_, _, fun _ _ _ => by simp, rfl, fun k _ => D.refl k s.db⟩
  | peek q k =>
    cases he
    refine .inl ⟨[], _, _, _, List.all_nil, by rw [acquire_nil], ?_⟩
    rw [hnone]
    exact .peek
  | read q k =>
    cases he
    refine .inl ⟨[], _, _, _, List.all_nil, by rw [acquire_nil], ?_⟩
    rw [hnone]
    exact .read
  | lock ks q k =>
    simp only [Sys.stmt, Option.ite_none_right_eq_some] at he
    obtain ⟨hf, he⟩ := he
    cases he
    refine .inl ⟨_, _, _, _, hf, rfl, ?_⟩
    rw [held_acquire_self]
    exact .lock
  | write ks ok u k =>
    simp only [Sys.stmt, Bool.and_eq_true, Option.ite_none_right_eq_some] at he
    obtain ⟨⟨hf, hok⟩, he⟩ := he
    cases he
    refine .inl ⟨_, _, _, _, hf, rfl, ?_⟩
    rw [held_acquire_self]
    exact .write hok

omit [DecidableEq Key] in
/-- Program `p` is at a new place, where it owes no more than `Ask`; the others are where they were. -/
theorem Orderly.moved {code' : Txn Db Key Sup Err α} {pend' : Db → Db} {view' : Option Db} (h : Orderly D row Ask s)
    (hgood : s'.Good D) (hproc : s'.proc = (s.setPhase p i (.running code' pend' view')).proc) (hdb : s'.db = s.db)
    (hother : ∀ q, q ≠ p → s'.held q = s.held q)
    (hw : code'.asking D row Ask (fun _ _ => True) ⟨s'.held p, pend', view', s.db⟩) : Orderly D row Ask s' := by
  refine ⟨hgood, fun q j c pd v hq => ?_⟩
  rw [hproc, setPhase_proc] at hq
  rw [hdb]
  split at hq
  case isTrue hqp =>
    subst hqp
    simp only [Option.some.injEq, Prod.mk.injEq, Phase.running.injEq] at hq
    obtain ⟨rfl, rfl, rfl, rfl⟩ := hq
    exact hw
  case isFalse hqp =>
    rw [hother q hqp]
    exact h.asking q j c pd v hq

omit [DecidableEq Key] in
/-- Program `p` ends with the store `db`; the others keep what they hold. -/
theorem Orderly.finish {db : Db} {ph : Phase Db Key Sup Err α} (h : Orderly D row Ask s)
    (hph : ∀ code pend view, ph ≠ .running code pend view) (hgood : (s.finish p i db ph).Good D)
    (hkeep : ∀ k, k ∉ s.held p → D.Keeps k s.db db) : Orderly D row Ask (s.finish p i db ph) := by
  refine ⟨hgood, fun q j c pd v hq => ?_⟩
  have hq : (if q = p then some (i, ph) else s.proc q) = some (j, .running c pd v) := hq
  split at hq
  case isTrue =>
    simp only [Option.some.injEq, Prod.mk.injEq] at hq
    exact absurd hq.2 (hph c pd v)
  case isFalse hqp =>
    rw [held_finish_other db ph hqp]
    exact Txn.asking_rely c (h.asking q j c pd v hq) ⟨hgood.inv, fun k hk => hkeep k (held_disjoint hqp hk)⟩

/-- One statement of a program. -/
theorem Orderly.stmt {code : Txn Db Key Sup Err α} {pend : Db → Db} {view : Option Db} {x : Sup} (h : Orderly D row Ask s)
    (hp : s.proc p = some (i, .running code pend view)) (he : s.stmt p i x pend view code = some s') : Orderly D row Ask s' := by
  have hgood := h.good.stmt hp he
  rcases h.good.stmt_cases hp he with ⟨ks, code', pend', view', hfree, rfl, hm⟩ | ⟨db, ph, hph, rfl, hkeep⟩
  · exact h.moved hgood rfl rfl (fun q hq => held_acquire_other hq hfree) (hm.asking h.good.inv (h.asking p i code pend view hp))
  · exact h.finish hph hgood hkeep

theorem Orderly.exec {a : Act Sup ι} (hprog : ∀ i db, D.Inv db → (prog i).wp D D.Commit ⟨∅, id, none, db⟩)
    (hasks : ∀ i db, D.Inv db → (prog i).asking D row Ask (fun _ _ => True) ⟨∅, id, none, db⟩)
    (h : Orderly D row Ask s) (he : (machine prog start).exec s a = some s') : Orderly D row Ask s' := by
  have hgood := h.good.exec hprog he
  cases a with
  | start p i =>
    simp only [machine] at he
    split at he
    case h_2 => cases he
    case h_1 hp =>
      cases he
      refine h.moved hgood rfl rfl (fun _ _ => rfl) ?_
      show (prog i).asking D row Ask _ ⟨s.held p, id, none, s.db⟩
      rw [h.good.held_eq_empty hp]
      exact hasks i s.db h.good.inv
  | step p x =>
    simp only [machine] at he
    split at he
    case h_2 => cases he
    case h_1 i code pend view hp => exact h.stmt hp he
  | abort p =>
    simp only [machine] at he
    split at he
    case h_2 => cases he
    case h_1 i code pend view hp =>
      cases he
      exact h.finish (fun _ _ _ => by simp) hgood fun k _ => D.refl k s.db

/-- A program that takes one of the keys it waits for owes what it owed. -/
theorem Orderly.take {code : Txn Db Key Sup Err α} {pend : Db → Db} {view : Option Db} {k : Key} (h : Orderly D row Ask s)
    (hp : s.proc p = some (i, .running code pend view)) (he : s.take p k pend code = some s') : Orderly D row Ask s' := by
  cases code with
  | lock ks q c =>
    simp only [Sys.take, Option.ite_none_right_eq_some] at he
    obtain ⟨⟨hk, hlt, hfree⟩, he⟩ := he
    cases he
    have hsame : s.proc = (s.setPhase p i (.running (.lock ks q c) pend view)).proc := by
      funext r
      rw [setPhase_proc]
      split
      case isTrue hrp => rw [hrp, hp]
      case isFalse => rfl
    have hheld : (s.acquire p [k]).held p = s.held p ∪ {k} := by
      rw [held_acquire_self]
      ext
      simp
    have hstate : (s.acquire p [k]).setPhase p i (.running (.lock ks q c) pend view) = s.acquire p [k] := by
      show { s.acquire p [k] with proc := (s.setPhase p i (.running (.lock ks q c) pend view)).proc } = s.acquire p [k]
      rw [← hsame]
      rfl
    have hgood : (s.acquire p [k]).Good D := by
      rw [← hstate]
      refine h.good.continue_ hp hfree ?_
      exact Txn.wp_of_held_subset _ (h.good.ready p i _ pend view hp) Set.subset_union_left
    refine h.moved hgood hsame rfl (fun r hr => held_acquire_other hr hfree) ?_
    rw [hheld]
    exact fun l' htaking => h.asking p i _ pend view hp l' (htaking.head (.takes hk hlt))
  | _ => cases he

end Sys

/-- **Ranked locks do not deadlock.** Programs that follow a discipline and owe no more than `Ask`, of which a key asked for
ranks below every key its holder may ask for, never wait for each other in a circle. -/
theorem deadlock_free {D : Discipline Db Key} {row : Db → Key → Prop} {Ask : Local Db Key → Key → Prop} {τ : Type} [Preorder τ]
    {rank : Local Db Key → Key → τ} {prog : ι → Txn Db Key Sup Err α} {start : Db → Prop} (hstart : ∀ db, start db → D.Inv db)
    (hprog : ∀ i db, D.Inv db → (prog i).wp D D.Commit ⟨∅, id, none, db⟩)
    (hasks : ∀ i db, D.Inv db → (prog i).asking D row Ask (fun _ _ => True) ⟨∅, id, none, db⟩)
    (hrank : ∀ l l' k k', D.Inv l.db → l'.db = l.db → (∀ x ∈ l.held, x ∉ l'.held) → k ∈ l'.held → k' ∉ l'.held → Ask l k →
      Ask l' k' → rank l k < rank l' k')
    {C : Sys Db Key Sup Err α ι → LockAct Key Sup ι → Prop} {s : Sys Db Key Sup Err α ι}
    (h : (lockMachine prog start).Reachable C s) (p : ℕ) : ¬ Relation.TransGen (s.WaitsFor row) p p := by
  have hs : Sys.Orderly D row Ask s := by
    apply h.invariant
    · rintro _ ⟨db, hdb, rfl⟩
      exact ⟨.start (hstart db hdb), fun p i code pend view hp => nomatch hp⟩
    · intro s a s' hs _ he
      cases a with
      | act a =>
        have he : (machine prog start).exec s a = some s' := he
        exact hs.exec hprog hasks he
      | take p k =>
        simp only [lockMachine] at he
        split at he
        case h_1 i code pend view hp => exact hs.take hp he
        case h_2 => cases he
  have hask : ∀ p k q, s.WaitsOn row p k q → k ∉ s.held p ∧ Ask (s.place p) k := by
    rintro p k q ⟨hpq, hq, i, code, pend, view, hp, hk⟩
    have hfree : k ∉ s.held p := Sys.held_disjoint (Ne.symm hpq) hq
    have hplace : s.place p = ⟨s.held p, pend, view, s.db⟩ := by rw [Sys.place, hp]
    refine ⟨hfree, ?_⟩
    rw [hplace]
    exact (Txn.ask_of_asks (hs.asking p i code pend view hp) hs.good.inv hk).resolve_left hfree
  refine @acyclic_of_rank _ _ _ _ (s.WaitsOn row) (fun p k => rank (s.place p) k) (fun p k q k' r hw hw' => ?_) p
  obtain ⟨-, hak⟩ := hask p k q hw
  obtain ⟨hfree, hak'⟩ := hask q k' r hw'
  refine hrank _ _ k k' ?_ ?_ (fun x hx => ?_) ?_ ?_ hak hak'
  · rw [Sys.place_db]
    exact hs.good.inv
  · rw [Sys.place_db, Sys.place_db]
  · rw [Sys.place_held] at hx ⊢
    exact Sys.held_disjoint hw.1 hx
  · rw [Sys.place_held]
    exact hw.2.1
  · rw [Sys.place_held]
    exact hfree

end HotelBackend.Theory.Transactions
