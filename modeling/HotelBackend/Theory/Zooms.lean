import HotelBackend.Theory.Writes

/-!
# Programs on a part of a store

A program written for one store runs on a larger one that has it as a part: it reads and writes the part,
and what it locks and throws is named as the larger store names it (`Txn.zoom`). Zooming commutes with every
way to build a program, and what the program writes it writes in the part alone (`Writes.zoom`).
-/

namespace HotelBackend.Theory.Transactions

variable {Big Db Key Key' Sup Err Err' α β : Type}

/-- A part of a larger store. -/
structure Part (Big Db : Type) where
  get : Big → Db
  set : Big → Db → Big
  get_set : ∀ s d, get (set s d) = d
  set_set : ∀ s d d', set (set s d) d' = set s d'

namespace Part

variable (P : Part Big Db)

/-- The part changes as `R` says, and nothing else does. -/
def Lifts (R : Db → Db → Prop) (a b : Big) : Prop := R (P.get a) (P.get b) ∧ ∀ d, P.set b d = P.set a d

variable {P} {R : Db → Db → Prop} {a b c : Big}

theorem Lifts.refl (hrefl : ∀ d, R d d) (a : Big) : P.Lifts R a a := ⟨hrefl _, fun _ => rfl⟩

theorem Lifts.trans (htrans : ∀ d e f, R d e → R e f → R d f) (h : P.Lifts R a b) (h' : P.Lifts R b c) : P.Lifts R a c :=
  ⟨htrans _ _ _ h.1 h'.1, fun d => (h'.2 d).trans (h.2 d)⟩

theorem lifts_set {d : Db} (h : R (P.get a) d) : P.Lifts R a (P.set a d) := by
  refine ⟨?_, P.set_set a d⟩
  rw [P.get_set]
  exact h

end Part

namespace Txn

variable (P : Part Big Db) (key : Key → Key') (err : Err → Err')

/-- The program on the part `P`. -/
def zoom : Txn Db Key Sup Err α → Txn Big Key' Sup Err' α
  | .done a => .done a
  | .throw e => .throw (err e)
  | .peek q k => .peek (fun s => q (P.get s)) fun b => (k b).zoom
  | .read q k => .read (fun s => q (P.get s)) fun b => (k b).zoom
  | .lock ks q k => .lock (fun s => (ks (P.get s)).map key) (fun s => q (P.get s)) fun b => (k b).zoom
  | .write ks ok u k =>
    .write (fun x s => (ks x (P.get s)).map key) (fun x s => ok x (P.get s)) (fun x s => P.set s (u x (P.get s))) fun x => (k x).zoom

@[simp] theorem zoom_bind (c : Txn Db Key Sup Err α) (f : α → Txn Db Key Sup Err β) :
    (c >>= f).zoom P key err = c.zoom P key err >>= fun a => (f a).zoom P key err := by
  show (c.bind f).zoom P key err = (c.zoom P key err).bind _
  induction c with
  | done a => rfl
  | throw e => rfl
  | peek q k ih => exact congrArg (Txn.peek _) (funext ih)
  | read q k ih => exact congrArg (Txn.read _) (funext ih)
  | lock ks q k ih => exact congrArg (Txn.lock _ _) (funext ih)
  | write ks ok u k ih => exact congrArg (Txn.write _ _ _) (funext ih)

@[simp] theorem zoom_pure (a : α) : (pure a : Txn Db Key Sup Err α).zoom P key err = pure a := rfl

@[simp] theorem zoom_reading (q : Db → α) :
    (reading q : Txn Db Key Sup Err α).zoom P key err = reading fun s => q (P.get s) := rfl

@[simp] theorem zoom_locking (ks : Db → List Key) (q : Db → α) :
    (locking ks q : Txn Db Key Sup Err α).zoom P key err = locking (fun s => (ks (P.get s)).map key) fun s => q (P.get s) := rfl

@[simp] theorem zoom_writing (ks : Sup → Db → List Key) (ok : Sup → Db → Bool) (u : Sup → Db → Db) :
    (writing ks ok u : Txn Db Key Sup Err Sup).zoom P key err =
      writing (fun x s => (ks x (P.get s)).map key) (fun x s => ok x (P.get s)) fun x s => P.set s (u x (P.get s)) := rfl

@[simp] theorem zoom_orThrow (o : Option α) (e : Err) : (orThrow o e : Txn Db Key Sup Err α).zoom P key err = orThrow o (err e) := by
  cases o <;> rfl

@[simp] theorem zoom_require (c : Prop) [Decidable c] (e : Err) :
    (require c e : Txn Db Key Sup Err Unit).zoom P key err = require c (err e) := by
  unfold require
  split <;> rfl

variable {P} {key} {err}

/-- The writes of a program on a part are in the part. -/
theorem Writes.zoom {R : Db → Db → Prop} {c : Txn Db Key Sup Err α} (hc : c.Writes R) : (c.zoom P key err).Writes (P.Lifts R) := by
  induction c with
  | done a => trivial
  | throw e => trivial
  | peek q k ih => exact fun b => ih b (hc b)
  | read q k ih => exact fun b => ih b (hc b)
  | lock ks q k ih => exact fun b => ih b (hc b)
  | write ks ok u k ih => exact fun x => ⟨fun s => Part.lifts_set ((hc x).1 (P.get s)), ih x (hc x).2⟩

end Txn

end HotelBackend.Theory.Transactions
