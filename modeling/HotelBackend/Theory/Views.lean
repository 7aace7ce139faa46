import HotelBackend.Theory.Guarantees

/-!
# Disciplines over a part of the store

A family of programs can follow several disciplines, each about a part of the store: a view of it.
`Discipline.comap` makes a discipline over the view one over the store, and a program none of whose
writes changes the view (`Txn.Still`) follows any such discipline by itself (`wp_of_still`).
-/

namespace HotelBackend.Theory.Transactions

variable {Db View Key Sup Err α β : Type}

/-- A discipline over a view of the store, as one over the store. -/
def Discipline.comap (π : Db → View) (D : Discipline View Key) : Discipline Db Key where
  Inv db := D.Inv (π db)
  Keeps k a b := D.Keeps k (π a) (π b)
  refl k db := D.refl k (π db)
  trans k a b c := D.trans k (π a) (π b) (π c)

/-- Whatever a program reads, none of its writes changes the view. -/
def Txn.Still (π : Db → View) : Txn Db Key Sup Err α → Prop
  | .done _ => True
  | .throw _ => True
  | .peek _ k => ∀ b, (k b).Still π
  | .read _ k => ∀ b, (k b).Still π
  | .lock _ _ k => ∀ b, (k b).Still π
  | .write _ _ u k => ∀ x, (∀ db, π (u x db) = π db) ∧ (k x).Still π

namespace Txn

variable {π : Db → View}

theorem Still.bind {c : Txn Db Key Sup Err α} {f : α → Txn Db Key Sup Err β} (hc : c.Still π) (hf : ∀ a, (f a).Still π) :
    (c >>= f).Still π := by
  show (c.bind f).Still π
  induction c with
  | done a => exact hf a
  | throw e => trivial
  | peek q k ih => exact fun b => ih b (hc b)
  | read q k ih => exact fun b => ih b (hc b)
  | lock ks q k ih => exact fun b => ih b (hc b)
  | write ks ok u k ih => exact fun x => ⟨(hc x).1, ih x (hc x).2⟩

theorem Still.pure (a : α) : (Pure.pure a : Txn Db Key Sup Err α).Still π := trivial

theorem Still.reading (q : Db → α) : (Txn.reading q : Txn Db Key Sup Err α).Still π := fun _ => trivial

theorem Still.locking (ks : Db → List Key) (q : Db → α) : (Txn.locking ks q : Txn Db Key Sup Err α).Still π := fun _ => trivial

theorem Still.writing {ks : Sup → Db → List Key} {ok : Sup → Db → Bool} {u : Sup → Db → Db} (h : ∀ x db, π (u x db) = π db) :
    (Txn.writing ks ok u : Txn Db Key Sup Err Sup).Still π := fun x => ⟨h x, trivial⟩

theorem Still.orThrow (o : Option α) (e : Err) : (Txn.orThrow o e : Txn Db Key Sup Err α).Still π := by
  cases o <;> trivial

theorem Still.require (c : Prop) [Decidable c] (e : Err) : (Txn.require c e : Txn Db Key Sup Err Unit).Still π := by
  unfold Txn.require
  split <;> trivial

theorem Still.when {p : Txn Db Key Sup Err Unit} (c : Prop) [Decidable c] (h : p.Still π) : (p.when c).Still π := by
  unfold Txn.when
  split
  · exact h
  · trivial

end Txn

/-- A program has come from `l` to `l'`: others did what its locks allow, it gave up none, and its writes have not changed the view. -/
structure Calm (D : Discipline View Key) (π : Db → View) (l l' : Local Db Key) : Prop where
  rely : (D.comap π).Rely l.held l.db l'.db
  held : l.held ⊆ l'.held
  pend : ∀ db, π (l'.pend db) = π (l.pend db)

section Calm

variable {D : Discipline View Key} {π : Db → View} {l l' l'' : Local Db Key}

theorem Calm.refl (h : D.Inv (π l.db)) : Calm D π l l := ⟨.refl h, subset_rfl, fun _ => rfl⟩

theorem Calm.trans (h : Calm D π l l') (h' : Calm D π l' l'') : Calm D π l l'' :=
  ⟨h.rely.trans h'.rely h.held, h.held.trans h'.held, fun db => (h'.pend db).trans (h.pend db)⟩

/-- One statement before it. -/
theorem Calm.after (h : Calm D π l' l'') (hr : (D.comap π).Rely l.held l.db l'.db) (hheld : l.held ⊆ l'.held)
    (hpend : ∀ db, π (l'.pend db) = π (l.pend db)) : Calm D π l l'' :=
  Calm.trans ⟨hr, hheld, hpend⟩ h

/-- A still program passes on what it was given. -/
theorem Txn.wp_of_still {c : Txn Db Key Sup Err α} {Q : α → Local Db Key → Prop} (hc : c.Still π) (hinv : D.Inv (π l.db))
    (hQ : ∀ a l', Calm D π l l' → Q a l') : c.wp (D.comap π) Q l := by
  induction c generalizing l with
  | done a => exact hQ a l (.refl hinv)
  | throw e => trivial
  | peek q k ih => exact fun db hr => ih _ (hc _) hr.1 fun a l' hl' => hQ a l' (hl'.after hr subset_rfl fun _ => rfl)
  | read q k ih => exact fun db hr => ih _ (hc _) hr.1 fun a l' hl' => hQ a l' (hl'.after hr subset_rfl fun _ => rfl)
  | lock ks q k ih => exact fun db hr => ih _ (hc _) hr.1 fun a l' hl' => hQ a l' (hl'.after hr Set.subset_union_left fun _ => rfl)
  | write ks ok u k ih =>
    intro db hr x _
    refine ih x (hc x).2 hr.1 fun a l' hl' => hQ a l' ?_
    exact hl'.after hr Set.subset_union_left fun db' => (hc x).1 (l.pend db')

end Calm

end HotelBackend.Theory.Transactions
