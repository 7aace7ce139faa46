import HotelBackend.Theory.Guarantees
import Mathlib.Data.List.FinRange

/-!
# Shared locks and references

The locks of `Transactions` are exclusive. Over a pool of `n` connections a lock that can be shared
is one slot for each connection: a shared lock of a row takes the slot of its own connection, an
exclusive lock takes them all. So shared locks of a row go together, and an exclusive one goes with
nothing.

The discipline `references` is what such locks are for. A store has rows, and references to them;
every reference has its row. Who writes a reference holds its row, shared or exclusively; who adds or
removes a row holds it exclusively, and removes it only when no reference is left
(`commit_references`). A reference says which slot it was written under, as a row says which
transaction wrote it, so that the holder of a slot answers for its own references only.
-/

namespace HotelBackend.Theory.Transactions

variable {Db Row Sup Err α : Type} {n : ℕ}

/-! ### Slots -/

/-- An exclusive lock of a row. -/
def exclusive (n : ℕ) (r : Row) : List (Row × Fin n) := (List.finRange n).map fun c => (r, c)

/-- A shared lock of a row, by a connection. -/
def shared (c : Fin n) (r : Row) : List (Row × Fin n) := [(r, c)]

@[simp] theorem mem_exclusive {r : Row} {k : Row × Fin n} : k ∈ exclusive n r ↔ k.1 = r := by
  obtain ⟨r', c⟩ := k
  simp [exclusive, eq_comm]

@[simp] theorem mem_shared {c : Fin n} {r : Row} {k : Row × Fin n} : k ∈ shared c r ↔ k = (r, c) := by
  simp [shared]

/-- The row is held exclusively. -/
def Owns (held : Set (Row × Fin n)) (r : Row) : Prop := ∀ c, (r, c) ∈ held

theorem Owns.mono {held held' : Set (Row × Fin n)} {r : Row} (h : Owns held r) (hsub : held ⊆ held') : Owns held' r :=
  fun c => hsub (h c)

/-- `findOne … FOR UPDATE`: the first row that matches, held exclusively. -/
def Txn.findExclusive {ρ : Type} (table : Db → List ρ) (row : ρ → Row) (p : ρ → Bool) :
    Txn Db (Row × Fin n) Sup Err (Option ρ) :=
  .locking (fun db => ((table db).find? p).toList.flatMap fun x => exclusive n (row x)) fun db => (table db).find? p

/-- `findOne … FOR SHARE`: the first row that matches, shared. -/
def Txn.findShared {ρ : Type} (c : Fin n) (table : Db → List ρ) (row : ρ → Row) (p : ρ → Bool) :
    Txn Db (Row × Fin n) Sup Err (Option ρ) :=
  .locking (fun db => ((table db).find? p).toList.flatMap fun x => shared c (row x)) fun db => (table db).find? p

namespace Txn

variable {D : Discipline Db (Row × Fin n)} {ρ : Type} {table : Db → List ρ} {row : ρ → Row} {p : ρ → Bool}
  {Q : Option ρ → Local Db (Row × Fin n) → Prop} {l : Local Db (Row × Fin n)}

theorem wp_findExclusive (hnone : ∀ db, D.Rely l.held l.db db → (table (l.pend db)).find? p = none → Q none { l with db := db })
    (hsome : ∀ db, D.Rely l.held l.db db → ∀ x ∈ table (l.pend db), p x = true →
      Q (some x) { l with db := db, held := l.held ∪ {k | k.1 = row x} }) :
    (findExclusive table row p : Txn Db (Row × Fin n) Sup Err (Option ρ)).wp D Q l := by
  rw [findExclusive, wp_locking]
  intro db hr
  cases hfind : (table (l.pend db)).find? p with
  | none => simpa using hnone db hr hfind
  | some x => simpa using hsome db hr x (List.mem_of_find?_eq_some hfind) (List.find?_some hfind)

theorem wp_findShared {c : Fin n} (hnone : ∀ db, D.Rely l.held l.db db → (table (l.pend db)).find? p = none → Q none { l with db := db })
    (hsome : ∀ db, D.Rely l.held l.db db → ∀ x ∈ table (l.pend db), p x = true →
      Q (some x) { l with db := db, held := l.held ∪ {(row x, c)} }) :
    (findShared c table row p : Txn Db (Row × Fin n) Sup Err (Option ρ)).wp D Q l := by
  rw [findShared, wp_locking]
  intro db hr
  cases hfind : (table (l.pend db)).find? p with
  | none => simpa using hnone db hr hfind
  | some x => simpa using hsome db hr x (List.mem_of_find?_eq_some hfind) (List.find?_some hfind)

end Txn

/-! ### The course of a program -/

section Later

variable {Key : Type} {D : Discipline Db Key} {l l' l'' : Local Db Key}

/-- A program has come from `l` to `l'`: others did what its locks allow, it gave up none, and a snapshot it took is one of its way. -/
structure Discipline.Later (D : Discipline Db Key) (l l' : Local Db Key) : Prop where
  rely : D.Rely l.held l.db l'.db
  held : l.held ⊆ l'.held
  view : ∀ v, l'.view = some v → l.view = some v ∨ D.Rely l.held l.db v ∧ D.Rely l.held v l'.db

theorem Discipline.Later.refl (h : D.Inv l.db) : D.Later l l := ⟨.refl h, subset_rfl, fun _ => .inl⟩

theorem Discipline.Later.trans (h : D.Later l l') (h' : D.Later l' l'') : D.Later l l'' := by
  refine ⟨h.rely.trans h'.rely h.held, h.held.trans h'.held, fun v hv => ?_⟩
  rcases h'.view v hv with hold | ⟨hto, hfrom⟩
  · refine (h.view v hold).imp_right fun hway => ⟨hway.1, hway.2.trans h'.rely h.held⟩
  · exact .inr ⟨h.rely.trans hto h.held, hfrom.1, fun k hk => hfrom.2 k (h.held hk)⟩

/-- One statement that reads no snapshot. -/
theorem Discipline.Later.step {db : Db} {held : Set Key} {pend : Db → Db} (h : D.Rely l.held l.db db) (hsub : l.held ⊆ held) :
    D.Later l ⟨held, pend, l.view, db⟩ := ⟨h, hsub, fun _ => .inl⟩

theorem Txn.wp_locking_later {ks : Db → List Key} {q : Db → α} {Q : α → Local Db Key → Prop}
    (h : ∀ l', D.Later l l' → l'.pend = l.pend → l'.view = l.view → (∀ k ∈ ks (l.pend l'.db), k ∈ l'.held) → Q (q (l.pend l'.db)) l') :
    (Txn.locking ks q : Txn Db Key Sup Err α).wp D Q l := by
  rw [wp_locking]
  intro db hr
  exact h _ (.step hr Set.subset_union_left) rfl rfl fun k hk => .inr hk

theorem Txn.wp_writing_later {ks : Sup → Db → List Key} {ok : Sup → Db → Bool} {u : Sup → Db → Db} {Q : Sup → Local Db Key → Prop}
    (h : ∀ l' x, D.Later l l' → l'.pend = u x ∘ l.pend → l'.view = l.view → (∀ k ∈ ks x (l.pend l'.db), k ∈ l'.held) →
      ok x (l.pend l'.db) = true → Q x l') :
    (Txn.writing ks ok u : Txn Db Key Sup Err Sup).wp D Q l := by
  rw [wp_writing]
  intro db hr x hok
  exact h _ x (.step hr Set.subset_union_left) rfl rfl (fun k hk => .inr hk) hok

/-- A snapshot is read. -/
theorem Txn.wp_reading_later {q : Db → α} {Q : α → Local Db Key → Prop}
    (h : ∀ l' v, D.Later l l' → l'.held = l.held → l'.pend = l.pend → l'.view = some v → Q (q (l.pend v)) l') :
    (Txn.reading q : Txn Db Key Sup Err α).wp D Q l := by
  rw [wp_reading]
  intro db hr
  refine h _ _ ⟨hr, subset_rfl, fun v hv => ?_⟩ rfl rfl rfl
  cases hview : l.view with
  | none =>
    rw [hview] at hv
    cases hv
    exact .inr ⟨hr, .refl hr.1⟩
  | some w =>
    rw [hview] at hv
    exact .inl hv

end Later

/-! ### Two disciplines at once -/

section Both

variable {Key : Type} {D E : Discipline Db Key} {held : Set Key} {a b : Db}

/-- The programs agree on both. -/
def Discipline.both (D E : Discipline Db Key) : Discipline Db Key where
  Inv db := D.Inv db ∧ E.Inv db
  Keeps k a b := D.Keeps k a b ∧ E.Keeps k a b
  refl k db := ⟨D.refl k db, E.refl k db⟩
  trans k a b c hab hbc := ⟨D.trans k a b c hab.1 hbc.1, E.trans k a b c hab.2 hbc.2⟩

theorem Discipline.Rely.fst (h : (D.both E).Rely held a b) : D.Rely held a b := ⟨h.1.1, fun k hk => (h.2 k hk).1⟩

theorem Discipline.Rely.snd (h : (D.both E).Rely held a b) : E.Rely held a b := ⟨h.1.2, fun k hk => (h.2 k hk).2⟩

/-- What may be committed under each may be committed under both. -/
theorem Discipline.ensures_both {G : α → Db → Db → Prop} {x : α} {l : Local Db Key}
    (hD : ∀ db, (D.both E).Rely l.held l.db db → D.Inv (l.pend db) ∧ ∀ k ∉ l.held, D.Keeps k db (l.pend db))
    (hE : ∀ db, (D.both E).Rely l.held l.db db → E.Inv (l.pend db) ∧ ∀ k ∉ l.held, E.Keeps k db (l.pend db))
    (hG : ∀ db, (D.both E).Rely l.held l.db db → G x db (l.pend db)) : (D.both E).Ensures G x l := by
  intro db hr
  exact ⟨⟨(hD db hr).1, (hE db hr).1⟩, fun k hk => ⟨(hD db hr).2 k hk, (hE db hr).2 k hk⟩, hG db hr⟩

end Both

/-! ### References -/

/-- A reference to a row: from which row, and the slot it was written under, if not under all of them. -/
structure Reference (Row : Type) (n : ℕ) where
  target : Row
  referrer : Row
  writer : Option (Fin n)

/-- Rows, and references to them. -/
structure Referring (Row : Type) (n : ℕ) where
  rows : Set Row
  references : Set (Reference Row n)

/-- The slot is one of those that the reference was written under. -/
def Reference.Under (e : Reference Row n) (c : Fin n) : Prop := e.writer = none ∨ e.writer = some c

/-- Who holds the slots may write the reference. -/
def Reference.WrittenBy (e : Reference Row n) (held : Set (Row × Fin n)) : Prop := ∀ c, e.Under c → (e.target, c) ∈ held

theorem Reference.writtenBy_of_owns {e : Reference Row n} {held : Set (Row × Fin n)} (h : Owns held e.target) : e.WrittenBy held :=
  fun c _ => h c

theorem Reference.writtenBy_of_shared {r s : Row} {c : Fin n} {held : Set (Row × Fin n)} (h : (r, c) ∈ held) :
    (Reference.mk r s (some c)).WrittenBy held := by
  rintro c' (h' | h')
  · cases h'
  · cases h'
    exact h

/-- Every reference has its row. -/
def references (Row : Type) (n : ℕ) : Discipline (Referring Row n) (Row × Fin n) where
  Inv s := ∀ e ∈ s.references, e.target ∈ s.rows
  Keeps k a b := (k.1 ∈ b.rows ↔ k.1 ∈ a.rows) ∧ ∀ e ∈ b.references, e.target = k.1 → e.Under k.2 → e ∈ a.references
  refl _ _ := ⟨Iff.rfl, fun _ he _ _ => he⟩
  trans _ _ _ _ hab hbc := ⟨hbc.1.trans hab.1, fun e he ht hu => hab.2 e (hbc.2 e he ht hu) ht hu⟩

section References

variable {held : Set (Row × Fin n)} {a b : Referring Row n}

/-- A row that is held stays as it is. -/
theorem row_iff_of_rely (h : (references Row n).Rely held a b) {k : Row × Fin n} (hk : k ∈ held) : k.1 ∈ b.rows ↔ k.1 ∈ a.rows :=
  (h.2 k hk).1

/-- Nobody else writes a reference to a row that is held exclusively. -/
theorem reference_of_rely (h : (references Row n).Rely held a b) (c : Fin n) {e : Reference Row n} (hown : Owns held e.target)
    (he : e ∈ b.references) : e ∈ a.references := by
  cases hw : e.writer with
  | none => exact (h.2 _ (hown c)).2 e he rfl (.inl hw)
  | some c' => exact (h.2 _ (hown c')).2 e he rfl (.inr hw)

/-- **The commit rule**: rows are added and removed by who owns them, a row is removed when no reference to it is
left, and a new reference is written under its row, which is there. -/
theorem commit_references (hinv : (references Row n).Inv a) (hadded : ∀ r ∈ b.rows, r ∈ a.rows ∨ Owns held r)
    (hremoved : ∀ r ∈ a.rows, r ∈ b.rows ∨ Owns held r ∧ ∀ e ∈ b.references, e.target ≠ r)
    (hwritten : ∀ e ∈ b.references, e ∈ a.references ∨ e.WrittenBy held ∧ e.target ∈ b.rows) :
    (references Row n).Inv b ∧ ∀ k ∉ held, (references Row n).Keeps k a b := by
  refine ⟨fun e he => ?_, fun k hk => ⟨⟨fun hrow => ?_, fun hrow => ?_⟩, fun e he htarget hunder => ?_⟩⟩
  · rcases hwritten e he with hold | ⟨-, hrow⟩
    · exact (hremoved e.target (hinv e hold)).resolve_right fun hgone => hgone.2 e he rfl
    · exact hrow
  · exact (hadded k.1 hrow).resolve_right fun hown => hk (hown k.2)
  · exact (hremoved k.1 hrow).resolve_right fun hgone => hk (hgone.1 k.2)
  · refine (hwritten e he).resolve_right fun hnew => hk ?_
    have hheld := hnew.1 k.2 hunder
    rwa [htarget] at hheld

end References

end HotelBackend.Theory.Transactions
