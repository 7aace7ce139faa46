import Mathlib.Data.List.Sort
import Mathlib.Data.List.Nodup

/-!
# Keyset paging

A table read page by page, each page the first `size` rows beyond the key of the last one read. With one
row to a key the pages follow each other without gap or repeat (`page_some`), and a walk that folds over
them, and stops at a page that is not full, folds over the table in the order of its keys (`walk_eq`).
-/

namespace HotelBackend.Theory.Keyset

universe u v

variable {α : Type u} {κ : Type v} [LinearOrder κ] (key : α → κ)

/-- `ORDER BY key` -/
def inOrder (table : List α) : List α := table.insertionSort (key · ≤ key ·)

/-- `WHERE key > after ORDER BY key LIMIT size`; the first page has no `after`. -/
def page (table : List α) (size : ℕ) (after : Option κ) : List α :=
  (inOrder key (table.filter fun a => after.all (· < key a))).take size

variable {key}

section Order

variable {table : List α}

theorem inOrder_perm : (inOrder key table).Perm table := List.perm_insertionSort _ _

theorem inOrder_pairwise : (inOrder key table).Pairwise (key · ≤ key ·) := by
  have : Std.Total (α := α) (key · ≤ key ·) := ⟨fun a b => le_total (key a) (key b)⟩
  have : IsTrans α (key · ≤ key ·) := ⟨fun _ _ _ => le_trans⟩
  exact List.pairwise_insertionSort _ _

/-- With one row to a key the order is strict. -/
theorem inOrder_strict (h : (table.map key).Nodup) : (inOrder key table).Pairwise (key · < key ·) := by
  have hkeys : ((inOrder key table).map key).Nodup := (inOrder_perm.map key).nodup_iff.2 h
  rw [List.Nodup, List.pairwise_map] at hkeys
  exact inOrder_pairwise.imp₂ (fun a b hle hne => lt_of_le_of_ne hle hne) hkeys

/-- A list in strict order is what its rows are in order. -/
theorem inOrder_eq {rows : List α} (hperm : rows.Perm table) (hrows : rows.Pairwise (key · < key ·)) : inOrder key table = rows := by
  refine (inOrder_perm.trans hperm.symm).eq_of_pairwise (fun a b ha hb hab hba => ?_) inOrder_pairwise (hrows.imp le_of_lt)
  -- two rows of one key are one row
  have hkey : key a = key b := le_antisymm hab hba
  have hnodup : (rows.map key).Nodup := List.pairwise_map.2 (hrows.imp ne_of_lt)
  exact List.inj_on_of_nodup_map hnodup ((inOrder_perm.trans hperm.symm).mem_iff.1 ha) hb hkey

theorem inOrder_filter (h : (table.map key).Nodup) (p : α → Bool) : inOrder key (table.filter p) = (inOrder key table).filter p :=
  inOrder_eq (inOrder_perm.filter p) ((inOrder_strict h).filter p)

end Order

section Pages

variable {table front rest : List α} {a : α} {size : ℕ}

theorem page_none : page key table size none = (inOrder key table).take size := by
  have hall : table.filter (fun a => (none : Option κ).all (· < key a)) = table := List.filter_eq_self.2 fun _ _ => rfl
  rw [page, hall]

/-- The page beyond a row is what comes next. -/
theorem page_some (h : (table.map key).Nodup) (hrows : inOrder key table = front ++ a :: rest) :
    page key table size (some (key a)) = rest.take size := by
  have hstrict := inOrder_strict h
  rw [hrows, List.pairwise_append, List.pairwise_cons] at hstrict
  obtain ⟨-, ⟨hafter, hrest⟩, hbefore⟩ := hstrict
  have hsplit : (inOrder key table).filter (fun b => (some (key a)).all (· < key b)) = rest := by
    have hfront : ∀ b ∈ front ++ [a], ¬ key a < key b := by
      intro b hb
      rcases List.mem_append.1 hb with hb | hb
      · exact not_lt.2 (hbefore b hb a List.mem_cons_self).le
      · exact not_lt.2 (List.mem_singleton.1 hb ▸ le_refl _)
    rw [hrows, List.append_cons, List.filter_append, List.filter_eq_nil_iff.2 (fun b hb => by simpa using hfront b hb), List.nil_append]
    exact List.filter_eq_self.2 fun b hb => decide_eq_true (hafter b hb)
  have hperm : rest.Perm (table.filter fun b => (some (key a)).all (· < key b)) := hsplit ▸ inOrder_perm.filter _
  rw [page, inOrder_eq hperm hrest]

end Pages

/-- Pages by number, of a list in one order: together they are its beginning. -/
theorem flatMap_pages (rows : List α) (size count : ℕ) :
    ((List.range count).flatMap fun i => (rows.drop (i * size)).take size) = rows.take (count * size) := by
  induction count with
  | zero => simp
  | succ count ih =>
    rw [List.range_succ, List.flatMap_append, ih, List.flatMap_singleton, Nat.succ_mul, ← List.take_add]

/-! ### Walks -/

section Walks

variable {ε σ : Type*}

variable (key) in
/-- Page by page, until one is not full. `none` is a walk that is not over yet. -/
def walk (fetch : Option κ → List α) (consume : σ → List α → Except ε σ) (size : ℕ) : ℕ → Option κ → σ → Option (Except ε σ)
  | 0, _, _ => none
  | fuel + 1, after, s =>
    match (fetch after).getLast? with
    | none => some (.ok s)
    | some last =>
      match consume s (fetch after) with
      | .error e => some (.error e)
      | .ok s' => if (fetch after).length < size then some (.ok s') else walk fetch consume size fuel (some (key last)) s'

variable {table : List α} {size : ℕ} {step : σ → α → Except ε σ}

theorem foldlM_append_ok {rows rows' : List α} {s s' : σ} (h : rows.foldlM step s = .ok s') :
    (rows ++ rows').foldlM step s = rows'.foldlM step s' := by
  rw [List.foldlM_append, h]
  rfl

theorem foldlM_append_error {rows rows' : List α} {s : σ} {e : ε} (h : rows.foldlM step s = .error e) :
    (rows ++ rows').foldlM step s = .error e := by
  rw [List.foldlM_append, h]
  rfl

/-- From anywhere in the table, the walk folds over what is left. -/
theorem walk_from {consume : σ → List α → Except ε σ} (hsize : 0 < size) {after : Option κ} {rest : List α}
    (hconsume : ∀ rows s, (∀ a ∈ rows, a ∈ rest) → consume s rows = rows.foldlM step s) (hafter : page key table size after = rest.take size)
    (hnext : ∀ front a tail, rest = front ++ a :: tail → page key table size (some (key a)) = tail.take size)
    {fuel : ℕ} (hfuel : rest.length < fuel) (s : σ) :
    walk key (page key table size) consume size fuel after s = some (rest.foldlM step s) := by
  induction fuel generalizing after rest s with
  | zero => exact absurd hfuel (Nat.not_lt_zero _)
  | succ fuel ih =>
    rw [walk, hafter]
    split
    · next hnone =>
      -- an empty page, of a table that is read
      rw [List.getLast?_eq_none_iff, List.take_eq_nil_iff] at hnone
      rcases hnone with hzero | rfl
      · omega
      · rfl
    · next last hlast =>
      obtain ⟨init, hinit⟩ := List.getLast?_eq_some_iff.1 hlast
      have hrest : rest = init ++ last :: rest.drop size := by
        rw [List.append_cons, ← hinit, List.take_append_drop]
      rw [hconsume _ s fun a ha => List.mem_of_mem_take ha]
      cases hfold : (rest.take size).foldlM step s with
      | error e =>
        dsimp only
        rw [← List.take_append_drop size rest, foldlM_append_error hfold]
      | ok s' =>
        dsimp only
        have hfull := @foldlM_append_ok _ _ _ step _ (rest.drop size) _ _ hfold
        rw [List.take_append_drop] at hfull
        split
        · next hshort =>
          rw [List.length_take] at hshort
          rw [hfull, List.drop_eq_nil_of_le (by omega)]
          rfl
        · rw [hfull]
          refine ih (fun rows s hrows => hconsume rows s fun a ha => List.mem_of_mem_drop (hrows a ha)) (hnext init last _ hrest)
            (fun front a tail htail => ?_) ?_ s'
          · exact hnext (init ++ last :: front) a tail (by rw [hrest, htail]; simp)
          · have hlength := congrArg List.length hrest
            rw [List.length_append, List.length_cons] at hlength
            omega

/-- **A walk reads the whole table in order**, and ends. -/
theorem walk_eq {consume : σ → List α → Except ε σ} (h : (table.map key).Nodup) (hsize : 0 < size)
    (hconsume : ∀ rows s, (∀ a ∈ rows, a ∈ table) → consume s rows = rows.foldlM step s) {fuel : ℕ} (hfuel : table.length < fuel) (s : σ) :
    walk key (page key table size) consume size fuel none s = some ((inOrder key table).foldlM step s) := by
  refine walk_from hsize (fun rows s hrows => hconsume rows s fun a ha => inOrder_perm.mem_iff.1 (hrows a ha)) page_none
    (fun front a tail hrows => page_some h hrows) ?_ s
  rwa [inOrder_perm.length_eq]

omit [LinearOrder κ] in
/-- A walk that is over stays what it was. -/
theorem walk_mono {fetch : Option κ → List α} {consume : σ → List α → Except ε σ} {fuel fuel' : ℕ} (hle : fuel ≤ fuel') {after : Option κ} {s : σ}
    {result : Except ε σ} (h : walk key fetch consume size fuel after s = some result) : walk key fetch consume size fuel' after s = some result := by
  induction fuel generalizing fuel' after s with
  | zero => cases h
  | succ fuel ih =>
    obtain ⟨n, rfl⟩ : ∃ n, fuel' = n + 1 := ⟨fuel' - 1, by omega⟩
    rw [walk] at h ⊢
    cases hlast : (fetch after).getLast? with
    | none => rwa [hlast] at h
    | some last =>
      rw [hlast] at h
      dsimp only at h ⊢
      cases hconsume : consume s (fetch after) with
      | error e => rwa [hconsume] at h
      | ok s' =>
        rw [hconsume] at h
        dsimp only at h ⊢
        split
        · next hshort => rwa [if_pos hshort] at h
        · next hfull =>
          rw [if_neg hfull] at h
          exact ih (by omega) h

end Walks

end HotelBackend.Theory.Keyset
