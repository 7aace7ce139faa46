import HotelBackend.Theory.Runs
import Mathlib.Data.Set.Insert
import Mathlib.Order.SetNotation

/-!
# Transactions under exclusive row locks

Programs that read a shared store, take exclusive locks on keys of it, write, and
commit or roll back; any number of them, interleaved statement by statement. A
write stays private until the commit; a lock is held until the end of the
transaction; a locking read sees the committed store and the program's own
writes; a plain read inside a transaction sees the store as it was at the first
such read (a snapshot), a read before it sees the committed store of that moment.
A program may be rolled back at any point (a deadlock victim, a lost connection,
a crash).

## The proof rule

`Discipline` is what a family of programs agrees on: an invariant `Inv` of the
committed store, and for each key a preorder `Keeps k`, what a transaction that
does **not** hold `k` may do to the store. `Txn.wp D c Q` is the weakest
precondition of a program against other programs that follow `D`: before each
statement the store may have moved to any store that satisfies `Inv` and keeps
every key held (`Rely`). A program that reaches its end must be able to commit:
`Commit` asks that its writes restore `Inv` and keep every key it does not hold.

`sound` is the whole point: if every program follows `D` by itself, then `Inv`
holds of the committed store in every state of every interleaving.
-/

namespace HotelBackend.Theory.Transactions

/-! ### Programs -/

/-- A transaction program over stores `Db` with lockable keys `Key`, failing with an
`Err` or ending with an `α`. A write is given what the store and the program's host
supply at that moment (a fresh id, the clock) as a `Sup`. -/
inductive Txn (Db Key Sup Err α : Type) : Type 1 where
  /-- The end: commit, and answer `a`. -/
  | done (a : α)
  /-- An exception: roll back. -/
  | throw (e : Err)
  /-- A read of the committed store, outside the transaction. -/
  | peek {β : Type} (q : Db → β) (k : β → Txn Db Key Sup Err α)
  /-- A plain read inside the transaction, of its snapshot. -/
  | read {β : Type} (q : Db → β) (k : β → Txn Db Key Sup Err α)
  /-- A locking read: takes the keys of the rows it matches. -/
  | lock {β : Type} (keys : Db → List Key) (q : Db → β) (k : β → Txn Db Key Sup Err α)
  /-- A write: takes the keys of the rows it changes or inserts. `ok` is what the store
  guarantees of the supply (a fresh id is vacant). -/
  | write (keys : Sup → Db → List Key) (ok : Sup → Db → Bool) (u : Sup → Db → Db)
      (k : Sup → Txn Db Key Sup Err α)

namespace Txn

variable {Db Key Sup Err α β : Type}

/-- Sequencing. -/
def bind : Txn Db Key Sup Err α → (α → Txn Db Key Sup Err β) → Txn Db Key Sup Err β
  | .done a, f => f a
  | .throw e, _ => .throw e
  | .peek q k, f => .peek q fun b => (k b).bind f
  | .read q k, f => .read q fun b => (k b).bind f
  | .lock ks q k, f => .lock ks q fun b => (k b).bind f
  | .write ks ok u k, f => .write ks ok u fun x => (k x).bind f

instance : Monad (Txn Db Key Sup Err) where
  pure := .done
  bind := .bind

/-- A read of the committed store, outside the transaction. -/
def peeking (q : Db → α) : Txn Db Key Sup Err α := .peek q .done

/-- A plain read inside the transaction. -/
def reading (q : Db → α) : Txn Db Key Sup Err α := .read q .done

/-- A locking read. -/
def locking (keys : Db → List Key) (q : Db → α) : Txn Db Key Sup Err α := .lock keys q .done

/-- A write; its answer is what was supplied to it. -/
def writing (keys : Sup → Db → List Key) (ok : Sup → Db → Bool) (u : Sup → Db → Db) : Txn Db Key Sup Err Sup :=
  .write keys ok u .done

/-- Fail with `e`. -/
def fail (e : Err) : Txn Db Key Sup Err α := .throw e

/-- Go on with the value of `o`, or fail with `e`. -/
def orThrow (o : Option α) (e : Err) : Txn Db Key Sup Err α :=
  match o with
  | some a => .done a
  | none => .throw e

/-- Go on if `c`, or fail with `e`. -/
def require (c : Prop) [Decidable c] (e : Err) : Txn Db Key Sup Err Unit :=
  if c then .done () else .throw e

/-- Do `p` if `c`. -/
def when (p : Txn Db Key Sup Err Unit) (c : Prop) [Decidable c] : Txn Db Key Sup Err Unit :=
  if c then p else .done ()

/-- The result of a check computed by the program itself. -/
def ofExcept (x : Except Err α) : Txn Db Key Sup Err α :=
  match x with
  | .ok a => .done a
  | .error e => .throw e

end Txn

/-! ### Weakest preconditions -/

variable {Db Key Sup Err α : Type}

/-- What the programs of a family agree on. -/
structure Discipline (Db Key : Type) where
  /-- The invariant of the committed store. -/
  Inv : Db → Prop
  /-- What a transaction not holding the key may do. -/
  Keeps : Key → Db → Db → Prop
  /-- Nothing may be done. -/
  refl : ∀ k db, Keeps k db db
  /-- One after the other. -/
  trans : ∀ k a b c, Keeps k a b → Keeps k b c → Keeps k a c

/-- A program in the middle of its run: the keys it holds, its writes, its snapshot, and
the committed store. -/
structure Local (Db Key : Type) where
  /-- The keys it holds. -/
  held : Set Key
  /-- Its uncommitted writes. -/
  pend : Db → Db
  /-- Its snapshot. -/
  view : Option Db
  /-- The committed store. -/
  db : Db

namespace Discipline

variable (D : Discipline Db Key)

/-- What the others may have done to the store while the keys `held` were held. -/
def Rely (held : Set Key) (a b : Db) : Prop := D.Inv b ∧ ∀ k ∈ held, D.Keeps k a b

variable {D}

theorem Rely.refl {held : Set Key} {a : Db} (h : D.Inv a) : D.Rely held a a := ⟨h, fun k _ => D.refl k a⟩

theorem Rely.trans {h h' : Set Key} {a b c : Db} (hab : D.Rely h a b) (hbc : D.Rely h' b c) (hh : h ⊆ h') :
    D.Rely h a c :=
  ⟨hbc.1, fun k hk => D.trans k a b c (hab.2 k hk) (hbc.2 k (hh hk))⟩

variable (D)

/-- The program may commit, whatever the others do first: its writes restore the
invariant and keep every key it does not hold. -/
def Commit (_ : α) (l : Local Db Key) : Prop :=
  ∀ db, D.Rely l.held l.db db → D.Inv (l.pend db) ∧ ∀ k, k ∉ l.held → D.Keeps k db (l.pend db)

end Discipline

/-- The weakest precondition of a program among programs that follow `D`. -/
def Txn.wp (D : Discipline Db Key) : Txn Db Key Sup Err α → (α → Local Db Key → Prop) → Local Db Key → Prop
  | .done a, Q => fun l => Q a l
  | .throw _, _ => fun _ => True
  | .peek q k, Q => fun l => ∀ db, D.Rely l.held l.db db → (k (q db)).wp D Q { l with db := db }
  | .read q k, Q => fun l => ∀ db, D.Rely l.held l.db db →
      (k (q (l.pend (l.view.getD db)))).wp D Q { l with db := db, view := some (l.view.getD db) }
  | .lock ks q k, Q => fun l => ∀ db, D.Rely l.held l.db db →
      (k (q (l.pend db))).wp D Q { l with db := db, held := l.held ∪ {x | x ∈ ks (l.pend db)} }
  | .write ks ok u k, Q => fun l => ∀ db, D.Rely l.held l.db db → ∀ x, ok x (l.pend db) = true →
      (k x).wp D Q { l with db := db, held := l.held ∪ {y | y ∈ ks x (l.pend db)}, pend := u x ∘ l.pend }

namespace Txn

variable {D : Discipline Db Key} {β : Type}

/-- Sequencing of weakest preconditions. -/
@[simp] theorem wp_bind (c : Txn Db Key Sup Err α) (f : α → Txn Db Key Sup Err β) (Q : β → Local Db Key → Prop)
    (l : Local Db Key) : (c >>= f).wp D Q l ↔ c.wp D (fun a => (f a).wp D Q) l := by
  show (c.bind f).wp D Q l ↔ _
  induction c generalizing l with
  | done a => exact Iff.rfl
  | throw e => exact Iff.rfl
  | peek q k ih => exact forall₂_congr fun db _ => ih _ _
  | read q k ih => exact forall₂_congr fun db _ => ih _ _
  | lock ks q k ih => exact forall₂_congr fun db _ => ih _ _
  | write ks ok u k ih => exact forall₄_congr fun db _ x _ => ih x _

@[simp] theorem wp_pure (a : α) (Q : α → Local Db Key → Prop) (l : Local Db Key) :
    (pure a : Txn Db Key Sup Err α).wp D Q l ↔ Q a l := Iff.rfl

@[simp] theorem wp_fail (e : Err) (Q : α → Local Db Key → Prop) (l : Local Db Key) :
    (fail e : Txn Db Key Sup Err α).wp D Q l := trivial

@[simp] theorem wp_peeking (q : Db → α) (Q : α → Local Db Key → Prop) (l : Local Db Key) :
    (peeking q : Txn Db Key Sup Err α).wp D Q l ↔ ∀ db, D.Rely l.held l.db db → Q (q db) { l with db := db } :=
  Iff.rfl

@[simp] theorem wp_reading (q : Db → α) (Q : α → Local Db Key → Prop) (l : Local Db Key) :
    (reading q : Txn Db Key Sup Err α).wp D Q l ↔ ∀ db, D.Rely l.held l.db db →
      Q (q (l.pend (l.view.getD db))) { l with db := db, view := some (l.view.getD db) } := Iff.rfl

@[simp] theorem wp_locking (ks : Db → List Key) (q : Db → α) (Q : α → Local Db Key → Prop) (l : Local Db Key) :
    (locking ks q : Txn Db Key Sup Err α).wp D Q l ↔ ∀ db, D.Rely l.held l.db db →
      Q (q (l.pend db)) { l with db := db, held := l.held ∪ {x | x ∈ ks (l.pend db)} } := Iff.rfl

/-- A locking read of the first row that matches locks the row it finds. -/
theorem wp_locking_find {ρ : Type} {table : Db → List ρ} {key : ρ → Key} {q : ρ → Bool} {Q : Option ρ → Local Db Key → Prop}
    {l : Local Db Key} (hnone : ∀ db, D.Rely l.held l.db db → (table (l.pend db)).find? q = none → Q none { l with db := db })
    (hsome : ∀ db, D.Rely l.held l.db db → ∀ r ∈ table (l.pend db), q r = true →
      Q (some r) { l with db := db, held := l.held ∪ {key r} }) :
    (locking (fun db => ((table db).find? q).toList.map key) (fun db => (table db).find? q) : Txn Db Key Sup Err (Option ρ)).wp D Q l := by
  intro db hr
  cases hfind : (table (l.pend db)).find? q with
  | none =>
    have hheld : l.held ∪ {k | k ∈ (none : Option ρ).toList.map key} = l.held := by
      ext
      simp
    simp only [wp, hfind, hheld]
    exact hnone db hr hfind
  | some r =>
    have hheld : l.held ∪ {k | k ∈ (some r).toList.map key} = l.held ∪ {key r} := by
      ext
      simp
    simp only [wp, hfind, hheld]
    exact hsome db hr r (List.mem_of_find?_eq_some hfind) (List.find?_some hfind)

@[simp] theorem wp_writing (ks : Sup → Db → List Key) (ok : Sup → Db → Bool) (u : Sup → Db → Db)
    (Q : Sup → Local Db Key → Prop) (l : Local Db Key) :
    (writing ks ok u : Txn Db Key Sup Err Sup).wp D Q l ↔ ∀ db, D.Rely l.held l.db db →
      ∀ x, ok x (l.pend db) = true →
        Q x { l with db := db, held := l.held ∪ {y | y ∈ ks x (l.pend db)}, pend := u x ∘ l.pend } := Iff.rfl

@[simp] theorem wp_orThrow (o : Option α) (e : Err) (Q : α → Local Db Key → Prop) (l : Local Db Key) :
    (orThrow o e : Txn Db Key Sup Err α).wp D Q l ↔ ∀ a, o = some a → Q a l := by
  cases o with
  | none => simp [orThrow, wp]
  | some a => simp [orThrow, wp]

@[simp] theorem wp_require (c : Prop) [Decidable c] (e : Err) (Q : Unit → Local Db Key → Prop)
    (l : Local Db Key) : (require c e : Txn Db Key Sup Err Unit).wp D Q l ↔ (c → Q () l) := by
  unfold require
  split
  · simp [wp, *]
  · simp [wp, *]

@[simp] theorem wp_when (c : Prop) [Decidable c] (p : Txn Db Key Sup Err Unit) (Q : Unit → Local Db Key → Prop)
    (l : Local Db Key) : (p.when c).wp D Q l ↔ (c → p.wp D Q l) ∧ (¬ c → Q () l) := by
  unfold when
  split
  · simp [*]
  · simp [wp, *]

@[simp] theorem wp_ofExcept (x : Except Err α) (Q : α → Local Db Key → Prop) (l : Local Db Key) :
    (ofExcept x : Txn Db Key Sup Err α).wp D Q l ↔ ∀ a, x = .ok a → Q a l := by
  cases x with
  | error e => simp [ofExcept, wp]
  | ok a => simp [ofExcept, wp]

theorem wp_mono {Q Q' : α → Local Db Key → Prop} (c : Txn Db Key Sup Err α) (hQ : ∀ a l, Q a l → Q' a l)
    (l : Local Db Key) (h : c.wp D Q l) : c.wp D Q' l := by
  induction c generalizing l with
  | done a => exact hQ a l h
  | throw e => trivial
  | peek q k ih => exact fun db hdb => ih _ _ (h db hdb)
  | read q k ih => exact fun db hdb => ih _ _ (h db hdb)
  | lock ks q k ih => exact fun db hdb => ih _ _ (h db hdb)
  | write ks ok u k ih => exact fun db hdb x hx => ih x _ (h db hdb x hx)

/-- A postcondition that always holds. -/
theorem wp_of_forall {Q : α → Local Db Key → Prop} (c : Txn Db Key Sup Err α) (hQ : ∀ a l, Q a l) (l : Local Db Key) : c.wp D Q l := by
  induction c generalizing l with
  | done a => exact hQ a l
  | throw e => trivial
  | peek q k ih => exact fun db _ => ih _ _
  | read q k ih => exact fun db _ => ih _ _
  | lock ks q k ih => exact fun db _ => ih _ _
  | write ks ok u k ih => exact fun db _ x _ => ih x _

/-- What another program does keeps a program ready to commit. -/
theorem wp_stable (c : Txn Db Key Sup Err α) {l : Local Db Key} {db : Db}
    (h : c.wp D D.Commit l) (hr : D.Rely l.held l.db db) : c.wp D D.Commit { l with db := db } := by
  cases c with
  | done a => exact fun db' hr' => h db' (hr.trans hr' subset_rfl)
  | throw e => trivial
  | peek q k => exact fun db' hr' => h db' (hr.trans hr' subset_rfl)
  | read q k => exact fun db' hr' => h db' (hr.trans hr' subset_rfl)
  | lock ks q k => exact fun db' hr' => h db' (hr.trans hr' subset_rfl)
  | write ks ok u k => exact fun db' hr' => h db' (hr.trans hr' subset_rfl)

end Txn

/-! ### Writes the discipline does not see -/

/-- A change of the store that neither the invariant nor any key sees. -/
def Discipline.Neutral (D : Discipline Db Key) (u : Db → Db) : Prop :=
  ∀ db, (D.Inv db → D.Inv (u db)) ∧ ∀ k a, D.Keeps k a db → D.Keeps k a (u db)

/-- Whatever a program reads, each of its writes is neutral. -/
def Txn.Tail (D : Discipline Db Key) : Txn Db Key Sup Err α → Prop
  | .done _ => True
  | .throw _ => True
  | .peek _ k => ∀ b, (k b).Tail D
  | .read _ k => ∀ b, (k b).Tail D
  | .lock _ _ k => ∀ b, (k b).Tail D
  | .write _ _ u k => ∀ x, D.Neutral (u x) ∧ (k x).Tail D

namespace Txn

variable {D : Discipline Db Key} {β : Type}

theorem Tail.bind {c : Txn Db Key Sup Err α} {f : α → Txn Db Key Sup Err β} (hc : c.Tail D)
    (hf : ∀ a, (f a).Tail D) : (c >>= f).Tail D := by
  show (c.bind f).Tail D
  induction c with
  | done a => exact hf a
  | throw e => trivial
  | peek q k ih => exact fun b => ih b (hc b)
  | read q k ih => exact fun b => ih b (hc b)
  | lock ks q k ih => exact fun b => ih b (hc b)
  | write ks ok u k ih => exact fun x => ⟨(hc x).1, ih x (hc x).2⟩

theorem Tail.pure (a : α) : (Pure.pure a : Txn Db Key Sup Err α).Tail D := trivial

theorem Tail.fail (e : Err) : (Txn.fail e : Txn Db Key Sup Err α).Tail D := trivial

theorem Tail.reading (q : Db → α) : (Txn.reading q : Txn Db Key Sup Err α).Tail D := fun _ => trivial

theorem Tail.orThrow (o : Option α) (e : Err) : (Txn.orThrow o e : Txn Db Key Sup Err α).Tail D := by
  cases o <;> trivial

theorem Tail.writing {ks : Sup → Db → List Key} {ok : Sup → Db → Bool} {u : Sup → Db → Db}
    (h : ∀ x, D.Neutral (u x)) : (Txn.writing ks ok u : Txn Db Key Sup Err Sup).Tail D :=
  fun x => ⟨h x, trivial⟩

/-- A program that may commit may still do so after neutral writes. -/
theorem wp_of_tail {c : Txn Db Key Sup Err α} {Q : α → Local Db Key → Prop} {l : Local Db Key} (hc : c.Tail D)
    (hl : D.Commit () l) (hQ : ∀ a l', D.Commit () l' → Q a l') : c.wp D Q l := by
  induction c generalizing l with
  | done a => exact hQ a l hl
  | throw e => trivial
  | peek q k ih => exact fun db hr => ih _ (hc _) (fun db' hr' => hl db' (hr.trans hr' subset_rfl))
  | read q k ih => exact fun db hr => ih _ (hc _) (fun db' hr' => hl db' (hr.trans hr' subset_rfl))
  | lock ks q k ih =>
    intro db hr
    refine ih _ (hc _) (fun db' hr' => ?_)
    obtain ⟨hinv, hkeep⟩ := hl db' (hr.trans hr' Set.subset_union_left)
    exact ⟨hinv, fun k hk => hkeep k fun hk' => hk (.inl hk')⟩
  | write ks ok u k ih =>
    intro db hr x _
    refine ih _ (hc x).2 (fun db' hr' => ?_)
    obtain ⟨hinv, hkeep⟩ := hl db' (hr.trans hr' Set.subset_union_left)
    exact ⟨((hc x).1 _).1 hinv, fun k hk => ((hc x).1 _).2 k db' (hkeep k fun hk' => hk (.inl hk'))⟩

end Txn

/-! ### The machine -/

variable {ι : Type}

/-- How far a started program has come. -/
inductive Phase (Db Key Sup Err α : Type) : Type 1 where
  /-- Running: what is left of it, its uncommitted writes, and its snapshot. -/
  | running (code : Txn Db Key Sup Err α) (pend : Db → Db) (view : Option Db)
  /-- Committed, with its answer. -/
  | committed (a : α)
  /-- Rolled back, by its own exception or (`none`) by force. -/
  | rolledBack (e : Option Err)

/-- A state of the machine. Programs are numbered as they start; a number is used once. -/
structure Sys (Db Key Sup Err α ι : Type) where
  /-- The committed store. -/
  db : Db
  /-- Who holds a key. -/
  owner : Key → Option ℕ
  /-- The programs started so far, each with the call it is. -/
  proc : ℕ → Option (ι × Phase Db Key Sup Err α)

/-- What may happen next. -/
inductive Act (Sup ι : Type) where
  /-- Call `i` starts as program `p`. -/
  | start (p : ℕ) (i : ι)
  /-- Program `p` executes its next statement, supplied with `x`. -/
  | step (p : ℕ) (x : Sup)
  /-- Program `p` is rolled back. -/
  | abort (p : ℕ)

namespace Sys

/-- Nothing has started. -/
def start (db : Db) : Sys Db Key Sup Err α ι := ⟨db, fun _ => none, fun _ => none⟩

/-- No key of `ks` is held by another program. -/
def free (s : Sys Db Key Sup Err α ι) (p : ℕ) (ks : List Key) : Bool :=
  ks.all fun k => s.owner k == none || s.owner k == some p

/-- Program `p` is at `ph`. -/
def setPhase (s : Sys Db Key Sup Err α ι) (p : ℕ) (i : ι) (ph : Phase Db Key Sup Err α) : Sys Db Key Sup Err α ι :=
  { s with proc := fun q => if q = p then some (i, ph) else s.proc q }

variable [DecidableEq Key]

/-- Program `p` takes the keys `ks`. -/
def acquire (s : Sys Db Key Sup Err α ι) (p : ℕ) (ks : List Key) : Sys Db Key Sup Err α ι :=
  { s with owner := fun k => if k ∈ ks then some p else s.owner k }

/-- Program `p` ends at `ph`, leaving the store `db`, and gives up its keys. -/
def finish (s : Sys Db Key Sup Err α ι) (p : ℕ) (i : ι) (db : Db) (ph : Phase Db Key Sup Err α) : Sys Db Key Sup Err α ι :=
  { (s.setPhase p i ph) with db := db, owner := fun k => if s.owner k = some p then none else s.owner k }

/-- The next statement of program `p`, which is call `i`. -/
def stmt (s : Sys Db Key Sup Err α ι) (p : ℕ) (i : ι) (x : Sup) (pend : Db → Db) (view : Option Db) :
    Txn Db Key Sup Err α → Option (Sys Db Key Sup Err α ι)
  | .done a => some (s.finish p i (pend s.db) (.committed a))
  | .throw e => some (s.finish p i s.db (.rolledBack (some e)))
  | .peek q k => some (s.setPhase p i (.running (k (q s.db)) pend view))
  | .read q k => some (s.setPhase p i (.running (k (q (pend (view.getD s.db)))) pend (some (view.getD s.db))))
  | .lock ks q k =>
    if s.free p (ks (pend s.db)) then
      some ((s.acquire p (ks (pend s.db))).setPhase p i (.running (k (q (pend s.db))) pend view))
    else none
  | .write ks ok u k =>
    if s.free p (ks x (pend s.db)) && ok x (pend s.db) then
      some ((s.acquire p (ks x (pend s.db))).setPhase p i (.running (k x) (u x ∘ pend) view))
    else none

end Sys

variable [DecidableEq Key]

/-- The machine of the calls `prog`, from stores satisfying `start`. -/
def machine (prog : ι → Txn Db Key Sup Err α) (start : Db → Prop) :
    Machine (Sys Db Key Sup Err α ι) (Act Sup ι) where
  init s := ∃ db, start db ∧ s = Sys.start db
  exec s
    | .start p i =>
      match s.proc p with
      | none => some (s.setPhase p i (.running (prog i) id none))
      | some _ => none
    | .step p x =>
      match s.proc p with
      | some (i, .running code pend view) => s.stmt p i x pend view code
      | _ => none
    | .abort p =>
      match s.proc p with
      | some (i, .running _ _ _) => some (s.finish p i s.db (.rolledBack none))
      | _ => none

/-! ### Soundness -/

namespace Sys

variable {D : Discipline Db Key} {s : Sys Db Key Sup Err α ι} {p q : ℕ} {i : ι}

/-- The keys program `p` holds. -/
def held (s : Sys Db Key Sup Err α ι) (p : ℕ) : Set Key := {k | s.owner k = some p}

/-- Program `p` is running. -/
def Running (s : Sys Db Key Sup Err α ι) (p : ℕ) : Prop := ∃ i code pend view, s.proc p = some (i, .running code pend view)

/-- The invariant of the interleaving: the store satisfies `Inv`, only running programs
hold keys, and every running program is on its way to a commit it may make. -/
structure Good (D : Discipline Db Key) (s : Sys Db Key Sup Err α ι) : Prop where
  /-- The invariant of the store. -/
  inv : D.Inv s.db
  /-- A key is held by a running program. -/
  owned : ∀ k p, s.owner k = some p → s.Running p
  /-- Each running program follows the discipline from where it is. -/
  ready : ∀ p i code pend view, s.proc p = some (i, .running code pend view) →
    code.wp D D.Commit ⟨s.held p, pend, view, s.db⟩

omit [DecidableEq Key] in
theorem Good.start {db : Db} (h : D.Inv db) : Good D (Sys.start db : Sys Db Key Sup Err α ι) :=
  ⟨h, fun _ _ hk => by simp [Sys.start] at hk, fun _ _ _ _ _ hp => by simp [Sys.start] at hp⟩

omit [DecidableEq Key] in
/-- A program that has not started holds nothing. -/
theorem Good.held_eq_empty (h : Good D s) (hp : s.proc p = none) : s.held p = ∅ := by
  ext k
  simp only [held, Set.mem_ofPred_eq, Set.mem_empty_iff_false, iff_false]
  intro hk
  obtain ⟨i, code, pend, view, he⟩ := h.owned k p hk
  rw [hp] at he
  cases he

omit [DecidableEq Key] in
theorem setPhase_proc (s : Sys Db Key Sup Err α ι) (p : ℕ) (i : ι) (ph : Phase Db Key Sup Err α) (q : ℕ) :
    (s.setPhase p i ph).proc q = if q = p then some (i, ph) else s.proc q := rfl

theorem held_acquire_self (s : Sys Db Key Sup Err α ι) (p : ℕ) (ks : List Key) :
    (s.acquire p ks).held p = s.held p ∪ {k | k ∈ ks} := by
  ext k
  simp only [held, acquire, Set.mem_ofPred_eq, Set.mem_union]
  by_cases hk : k ∈ ks <;> simp [hk]

theorem held_acquire_other {ks : List Key} (hpq : q ≠ p) (hf : s.free p ks = true) :
    (s.acquire p ks).held q = s.held q := by
  ext k
  simp only [held, acquire, Set.mem_ofPred_eq]
  by_cases hk : k ∈ ks
  · have := List.all_eq_true.mp hf k hk
    simp only [Bool.or_eq_true, beq_iff_eq] at this
    rcases this with h | h
    · simp [hk, h, Ne.symm hpq]
    · simp [hk, h, Ne.symm hpq]
  · simp [hk]

omit [DecidableEq Key] in
theorem held_finish_other (db : Db) (ph : Phase Db Key Sup Err α) (hpq : q ≠ p) :
    (s.finish p i db ph).held q = s.held q := by
  ext k
  simp only [held, finish, setPhase, Set.mem_ofPred_eq]
  by_cases hk : s.owner k = some p
  · simp [hk, Ne.symm hpq]
  · simp [hk]

omit [DecidableEq Key] in
/-- Distinct programs hold distinct keys. -/
theorem held_disjoint {k : Key} (hpq : q ≠ p) (hk : k ∈ s.held q) : k ∉ s.held p := by
  intro hk'
  simp only [held, Set.mem_ofPred_eq] at hk hk'
  rw [hk] at hk'
  exact hpq (Option.some.inj hk')

/-- Program `p` moves on without ending: it may take keys, and only it moves. -/
theorem Good.continue_ {ks : List Key} {code code' : Txn Db Key Sup Err α} {pend pend' : Db → Db}
    {view view' : Option Db} (h : Good D s) (hp : s.proc p = some (i, .running code pend view))
    (hf : s.free p ks = true)
    (hw : code'.wp D D.Commit ⟨s.held p ∪ {k | k ∈ ks}, pend', view', s.db⟩) :
    Good D ((s.acquire p ks).setPhase p i (.running code' pend' view')) := by
  have hother : ∀ q, q ≠ p → ((s.acquire p ks).setPhase p i (.running code' pend' view')).held q = s.held q :=
    fun q hq => held_acquire_other hq hf
  refine ⟨h.inv, fun k q hk => ?_, fun q j c pd v hq => ?_⟩
  · by_cases hqp : q = p
    · subst hqp
      exact ⟨i, code', pend', view', by rw [setPhase_proc, if_pos rfl]⟩
    · have hk' : k ∈ s.held q := by
        rw [← hother q hqp]
        exact hk
      obtain ⟨j, c, pd, v, he⟩ := h.owned k q hk'
      exact ⟨j, c, pd, v, by rw [setPhase_proc, if_neg hqp]; exact he⟩
  · rw [setPhase_proc] at hq
    split at hq
    · next hqp =>
      subst hqp
      simp only [Option.some.injEq, Prod.mk.injEq, Phase.running.injEq] at hq
      obtain ⟨rfl, rfl, rfl, rfl⟩ := hq
      show code'.wp D D.Commit ⟨(s.acquire q ks).held q, pend', view', s.db⟩
      rw [held_acquire_self]
      exact hw
    · next hqp =>
      rw [hother q hqp]
      exact h.ready q j c pd v hq

/-- A step that takes no key. -/
theorem Good.setPhase {code code' : Txn Db Key Sup Err α} {pend pend' : Db → Db}
    {view view' : Option Db} (h : Good D s) (hp : s.proc p = some (i, .running code pend view))
    (hw : code'.wp D D.Commit ⟨s.held p, pend', view', s.db⟩) :
    Good D (s.setPhase p i (.running code' pend' view')) := by
  have hs : s.acquire p [] = s := by
    show { s with owner := fun k => if k ∈ ([] : List Key) then some p else s.owner k } = s
    simp
  have he : s.held p ∪ {k | k ∈ ([] : List Key)} = s.held p := by
    ext
    simp
  rw [← he] at hw
  have h' := h.continue_ hp (List.all_nil : s.free p [] = true) hw
  rwa [hs] at h'

omit [DecidableEq Key] in
/-- Program `p` ends, leaving a store that satisfies the invariant and keeps every key it
did not hold. -/
theorem Good.finish {db : Db} {ph : Phase Db Key Sup Err α} (h : Good D s)
    (hph : ∀ code pend view, ph ≠ .running code pend view) (hinv : D.Inv db)
    (hkeep : ∀ k, k ∉ s.held p → D.Keeps k s.db db) : Good D (s.finish p i db ph) := by
  refine ⟨hinv, fun k q hk => ?_, fun q j c pd v hq => ?_⟩
  · by_cases hqp : q = p
    · subst hqp
      simp only [Sys.finish] at hk
      split at hk
      · cases hk
      · next hn => exact absurd hk hn
    · have hk' : k ∈ s.held q := by
        rw [← held_finish_other (p := p) (i := i) db ph hqp]
        exact hk
      obtain ⟨j, c, pd, v, he⟩ := h.owned k q hk'
      exact ⟨j, c, pd, v, by show (if q = p then _ else _) = _; rw [if_neg hqp]; exact he⟩
  · have hq' : (if q = p then some (i, ph) else s.proc q) = some (j, .running c pd v) := hq
    split at hq'
    · next hqp =>
      simp only [Option.some.injEq, Prod.mk.injEq] at hq'
      exact absurd hq'.2 (hph c pd v)
    · next hqp =>
      rw [held_finish_other db ph hqp]
      exact Txn.wp_stable c (h.ready q j c pd v hq') ⟨hinv, fun k hk => hkeep k (held_disjoint hqp hk)⟩

omit [DecidableEq Key] in
/-- Program `p` is rolled back. -/
theorem Good.rollback (h : Good D s) (e : Option Err) : Good D (s.finish p i s.db (.rolledBack e)) :=
  h.finish (fun _ _ _ => by simp) h.inv fun k _ => D.refl k s.db

omit [DecidableEq Key] in
/-- A program that follows the discipline starts. -/
theorem Good.started {code : Txn Db Key Sup Err α} (h : Good D s) (hp : s.proc p = none)
    (hw : code.wp D D.Commit ⟨∅, id, none, s.db⟩) : Good D (s.setPhase p i (.running code id none)) := by
  rw [← h.held_eq_empty hp] at hw
  refine ⟨h.inv, fun k q hk => ?_, fun q j c pd v hq => ?_⟩
  · obtain ⟨j, c, pd, v, hq⟩ := h.owned k q hk
    refine ⟨j, c, pd, v, ?_⟩
    rw [setPhase_proc, if_neg fun hqp => by rw [hqp, hp] at hq; cases hq]
    exact hq
  · rw [setPhase_proc] at hq
    split at hq
    · next hqp =>
      subst hqp
      simp only [Option.some.injEq, Prod.mk.injEq, Phase.running.injEq] at hq
      obtain ⟨rfl, rfl, rfl, rfl⟩ := hq
      exact hw
    · exact h.ready q j c pd v hq

/-- One statement keeps the invariant of the interleaving. -/
theorem Good.stmt {code : Txn Db Key Sup Err α} {pend : Db → Db} {view : Option Db} {x : Sup}
    {s' : Sys Db Key Sup Err α ι} (h : Good D s) (hp : s.proc p = some (i, .running code pend view))
    (he : s.stmt p i x pend view code = some s') : Good D s' := by
  have hw := h.ready p i code pend view hp
  have hr : D.Rely (s.held p) s.db s.db := .refl h.inv
  cases code with
  | done a =>
    cases he
    obtain ⟨hinv, hkeep⟩ := hw s.db hr
    exact h.finish (fun _ _ _ => by simp) hinv hkeep
  | throw e =>
    cases he
    exact h.rollback (some e)
  | peek q k =>
    cases he
    exact h.setPhase hp (hw s.db hr)
  | read q k =>
    cases he
    exact h.setPhase hp (hw s.db hr)
  | lock ks q k =>
    simp only [Sys.stmt, Option.ite_none_right_eq_some] at he
    obtain ⟨hf, he⟩ := he
    cases he
    exact h.continue_ hp hf (hw s.db hr)
  | write ks ok u k =>
    simp only [Sys.stmt, Bool.and_eq_true, Option.ite_none_right_eq_some] at he
    obtain ⟨⟨hf, hok⟩, he⟩ := he
    cases he
    exact h.continue_ hp hf (hw s.db hr x hok)

end Sys

/-- What happens next keeps the invariant of the interleaving. -/
theorem Sys.Good.exec {D : Discipline Db Key} {prog : ι → Txn Db Key Sup Err α} {start : Db → Prop}
    (hprog : ∀ i db, D.Inv db → (prog i).wp D D.Commit ⟨∅, id, none, db⟩)
    {s s' : Sys Db Key Sup Err α ι} {a : Act Sup ι} (h : s.Good D) (he : (machine prog start).exec s a = some s') :
    s'.Good D := by
  cases a with
  | start p i =>
    simp only [machine] at he
    split at he
    · next hp =>
      cases he
      exact h.started hp (hprog i s.db h.inv)
    · cases he
  | step p x =>
    simp only [machine] at he
    split at he
    · next i code pend view hp => exact h.stmt hp he
    · cases he
  | abort p =>
    simp only [machine] at he
    split at he
    · cases he
      exact h.rollback none
    · cases he

/-- **Programs that each follow a discipline keep its invariant in every interleaving.** -/
theorem sound {D : Discipline Db Key} {prog : ι → Txn Db Key Sup Err α} {start : Db → Prop}
    (hstart : ∀ db, start db → D.Inv db)
    (hprog : ∀ i db, D.Inv db → (prog i).wp D D.Commit ⟨∅, id, none, db⟩)
    {C : Sys Db Key Sup Err α ι → Act Sup ι → Prop} {s : Sys Db Key Sup Err α ι}
    (h : (machine prog start).Reachable C s) : s.Good D := by
  refine Machine.Reachable.invariant ?_ (fun s a s' hs _ he => hs.exec hprog he) h
  rintro _ ⟨db, hdb, rfl⟩
  exact .start (hstart db hdb)

end HotelBackend.Theory.Transactions
