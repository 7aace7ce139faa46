import HotelBackend.Theory.Transactions

/-!
# What a program writes, whatever it reads

`Txn.Writes R c`: each write of `c` changes the store as the relation `R` allows, in whatever state it
meets it. For a preorder `R` the writes of the whole program then do (`wp_of_writes`), under any
discipline and with any others around.
-/

namespace HotelBackend.Theory.Transactions

variable {Db Key Sup Err α β : Type}

/-- Whatever the program reads, each of its writes is in `R`. -/
def Txn.Writes (R : Db → Db → Prop) : Txn Db Key Sup Err α → Prop
  | .done _ => True
  | .throw _ => True
  | .peek _ k => ∀ b, (k b).Writes R
  | .read _ k => ∀ b, (k b).Writes R
  | .lock _ _ k => ∀ b, (k b).Writes R
  | .write _ _ u k => ∀ x, (∀ db, R db (u x db)) ∧ (k x).Writes R

namespace Txn

variable {R : Db → Db → Prop}

theorem Writes.bind {c : Txn Db Key Sup Err α} {f : α → Txn Db Key Sup Err β} (hc : c.Writes R) (hf : ∀ a, (f a).Writes R) :
    (c >>= f).Writes R := by
  show (c.bind f).Writes R
  induction c with
  | done a => exact hf a
  | throw e => trivial
  | peek q k ih => exact fun b => ih b (hc b)
  | read q k ih => exact fun b => ih b (hc b)
  | lock ks q k ih => exact fun b => ih b (hc b)
  | write ks ok u k ih => exact fun x => ⟨(hc x).1, ih x (hc x).2⟩

theorem Writes.pure (a : α) : (Pure.pure a : Txn Db Key Sup Err α).Writes R := trivial

theorem Writes.peeking (q : Db → α) : (Txn.peeking q : Txn Db Key Sup Err α).Writes R := fun _ => trivial

theorem Writes.reading (q : Db → α) : (Txn.reading q : Txn Db Key Sup Err α).Writes R := fun _ => trivial

theorem Writes.locking (ks : Db → List Key) (q : Db → α) : (Txn.locking ks q : Txn Db Key Sup Err α).Writes R := fun _ => trivial

theorem Writes.writing {ks : Sup → Db → List Key} {ok : Sup → Db → Bool} {u : Sup → Db → Db} (h : ∀ x db, R db (u x db)) :
    (Txn.writing ks ok u : Txn Db Key Sup Err Sup).Writes R := fun x => ⟨h x, trivial⟩

theorem Writes.orThrow (o : Option α) (e : Err) : (Txn.orThrow o e : Txn Db Key Sup Err α).Writes R := by
  cases o <;> trivial

theorem Writes.require (c : Prop) [Decidable c] (e : Err) : (Txn.require c e : Txn Db Key Sup Err Unit).Writes R := by
  unfold Txn.require
  split <;> trivial

theorem Writes.ofExcept (x : Except Err α) : (Txn.ofExcept x : Txn Db Key Sup Err α).Writes R := by
  cases x <;> trivial

theorem Writes.when {p : Txn Db Key Sup Err Unit} (c : Prop) [Decidable c] (h : p.Writes R) : (p.when c).Writes R := by
  unfold Txn.when
  split
  · exact h
  · trivial

/-- A weaker relation allows more writes. -/
theorem Writes.mono {R' : Db → Db → Prop} {c : Txn Db Key Sup Err α} (hc : c.Writes R) (h : ∀ a b, R a b → R' a b) : c.Writes R' := by
  induction c with
  | done a => trivial
  | throw e => trivial
  | peek q k ih => exact fun b => ih b (hc b)
  | read q k ih => exact fun b => ih b (hc b)
  | lock ks q k ih => exact fun b => ih b (hc b)
  | write ks ok u k ih => exact fun x => ⟨fun db => h _ _ ((hc x).1 db), ih x (hc x).2⟩

variable {D : Discipline Db Key} {l : Local Db Key}

/-- What a program has written is in `R`. -/
theorem wp_of_writes {c : Txn Db Key Sup Err α} {Q : α → Local Db Key → Prop} (hrefl : ∀ db, R db db)
    (htrans : ∀ a b c, R a b → R b c → R a c) (hc : c.Writes R) (hinv : D.Inv l.db)
    (hQ : ∀ a l', D.Rely l.held l.db l'.db → l.held ⊆ l'.held → (∀ db, R (l.pend db) (l'.pend db)) → Q a l') : c.wp D Q l := by
  induction c generalizing l with
  | done a => exact hQ a l (.refl hinv) subset_rfl fun _ => hrefl _
  | throw e => trivial
  | peek q k ih =>
    exact fun db hr => ih _ (hc _) hr.1 fun a l' hr' hheld hR => hQ a l' (hr.trans hr' subset_rfl) hheld hR
  | read q k ih =>
    exact fun db hr => ih _ (hc _) hr.1 fun a l' hr' hheld hR => hQ a l' (hr.trans hr' subset_rfl) hheld hR
  | lock ks q k ih =>
    intro db hr
    exact ih _ (hc _) hr.1 fun a l' hr' hheld hR =>
      hQ a l' (hr.trans hr' Set.subset_union_left) (Set.subset_union_left.trans hheld) hR
  | write ks ok u k ih =>
    intro db hr x _
    refine ih x (hc x).2 hr.1 fun a l' hr' hheld hR => ?_
    refine hQ a l' (hr.trans hr' Set.subset_union_left) (Set.subset_union_left.trans hheld) fun db' => ?_
    exact htrans _ _ _ ((hc x).1 (l.pend db')) (hR db')

/-- What holds of every store that the program may meet from here on holds of where it comes to, and of what it reads from. -/
theorem wp_viewed {P : Db → Prop} {Q : α → Local Db Key → Prop} (c : Txn Db Key Sup Err α) (hnow : P l.db) (hview : ∀ v, l.view = some v → P v)
    (hP : ∀ db, D.Rely l.held l.db db → P db) (h : c.wp D (fun a l' => P l'.db → (∀ v, l'.view = some v → P v) → Q a l') l) : c.wp D Q l := by
  induction c generalizing l with
  | done a => exact h hnow hview
  | throw e => trivial
  | peek q k ih => exact fun db hr => ih _ (hP db hr) hview (fun db' hr' => hP db' (hr.trans hr' subset_rfl)) (h db hr)
  | read q k ih =>
    refine fun db hr => ih _ (hP db hr) (fun v hv => ?_) (fun db' hr' => hP db' (hr.trans hr' subset_rfl)) (h db hr)
    obtain rfl := Option.some.inj hv
    cases hl : l.view with
    | none => exact hP db hr
    | some w => exact hview w hl
  | lock ks q k ih => exact fun db hr => ih _ (hP db hr) hview (fun db' hr' => hP db' (hr.trans hr' Set.subset_union_left)) (h db hr)
  | write ks ok u k ih =>
    exact fun db hr x hok => ih x (hP db hr) hview (fun db' hr' => hP db' (hr.trans hr' Set.subset_union_left)) (h db hr x hok)

end Txn

end HotelBackend.Theory.Transactions
