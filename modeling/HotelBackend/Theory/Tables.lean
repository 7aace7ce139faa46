import Mathlib.Data.List.Basic
import Mathlib.Data.List.Nodup

/-!
# Tables

A table is the list of its rows, in insertion order. `update rows p f` is
`UPDATE … SET f WHERE p`, `affected rows p` the number of rows it reports, and
`delete rows p` is `DELETE … WHERE p`; a lookup is `List.find?`. `UniqueBy key rows`
is a primary or unique key.

The lemmas say what a row of the table after a statement was before it.
-/

namespace HotelBackend.Theory.Table

variable {ρ κ : Type}

/-- `UPDATE … SET f WHERE p`. -/
def update (rows : List ρ) (p : ρ → Bool) (f : ρ → ρ) : List ρ := rows.map fun r => if p r then f r else r

/-- The rows an `UPDATE … WHERE p` or a `DELETE … WHERE p` reports. -/
def affected (rows : List ρ) (p : ρ → Bool) : ℕ := rows.countP p

/-- `DELETE … WHERE p`. -/
def delete (rows : List ρ) (p : ρ → Bool) : List ρ := rows.filter fun r => !p r

/-- The largest value of a `SMALLINT UNSIGNED` column. -/
def maxSmallint : ℕ := 65535

/-- No two rows share a key. -/
def UniqueBy (key : ρ → κ) (rows : List ρ) : Prop := ∀ x ∈ rows, ∀ y ∈ rows, key x = key y → x = y

variable {rows : List ρ} {p : ρ → Bool} {f : ρ → ρ} {key : ρ → κ} {x y : ρ}

/-- A row after an update is an updated row or a row the update did not match. -/
theorem mem_update : y ∈ update rows p f ↔ ∃ x ∈ rows, (p x = true ∧ f x = y) ∨ (p x = false ∧ x = y) := by
  simp only [update, List.mem_map]
  constructor
  · rintro ⟨x, hx, h⟩
    refine ⟨x, hx, ?_⟩
    cases hp : p x
    · exact .inr ⟨rfl, by rwa [hp, if_neg Bool.false_ne_true] at h⟩
    · exact .inl ⟨rfl, by rwa [hp, if_pos rfl] at h⟩
  · rintro ⟨x, hx, ⟨hp, h⟩ | ⟨hp, h⟩⟩
    · exact ⟨x, hx, by rwa [if_pos hp]⟩
    · exact ⟨x, hx, by rwa [if_neg (by simp [hp])]⟩

theorem mem_update_of_neg (hx : x ∈ rows) (hp : p x = false) : x ∈ update rows p f :=
  mem_update.2 ⟨x, hx, .inr ⟨hp, rfl⟩⟩

theorem mem_update_of_pos (hx : x ∈ rows) (hp : p x = true) : f x ∈ update rows p f :=
  mem_update.2 ⟨x, hx, .inl ⟨hp, rfl⟩⟩

@[simp] theorem mem_delete : x ∈ delete rows p ↔ x ∈ rows ∧ p x = false := by
  simp [delete]

theorem delete_subset : delete rows p ⊆ rows := fun _ hx => (mem_delete.1 hx).1

/-- What is selected was not deleted. -/
theorem filter_delete {q : ρ → Bool} (h : ∀ x ∈ rows, q x = true → p x = false) : (delete rows p).filter q = rows.filter q := by
  rw [delete, List.filter_filter]
  refine List.filter_congr fun x hx => ?_
  cases hq : q x with
  | false => rfl
  | true => simp [h x hx hq]

/-- Nothing was selected. -/
theorem delete_eq_self (h : rows.filter p = []) : delete rows p = rows := by
  rw [List.filter_eq_nil_iff] at h
  exact List.filter_eq_self.2 fun x hx => by simpa using h x hx

/-- What is selected was not updated. -/
theorem filter_update {q : ρ → Bool} (h : ∀ x, p x = true → q x = false ∧ q (f x) = false) : (update rows p f).filter q = rows.filter q := by
  induction rows with
  | nil => rfl
  | cons x rows ih =>
    rw [update, List.map_cons, List.filter_cons, List.filter_cons, ← update, ih]
    cases hp : p x with
    | false => rfl
    | true => simp [(h x hp).1, (h x hp).2]

/-- What is selected was deleted. -/
theorem filter_delete_eq_nil {q : ρ → Bool} (h : ∀ x, q x = true → p x = true) : (delete rows p).filter q = [] := by
  rw [List.filter_eq_nil_iff]
  intro x hx hq
  rw [mem_delete, h x hq] at hx
  cases hx.2

/-- An update of the rows under a key leaves the others as they are. -/
theorem mem_update_of_ne {k : κ} (hp : ∀ x, p x = true → key x = k) (hf : ∀ x, key (f x) = key x) (hy : key y ≠ k) :
    y ∈ update rows p f ↔ y ∈ rows := by
  refine ⟨fun h => ?_, fun h => mem_update_of_neg h (Bool.eq_false_iff.2 fun hpy => hy (hp y hpy))⟩
  obtain ⟨x, hx, ⟨hpx, rfl⟩ | ⟨-, rfl⟩⟩ := mem_update.1 h
  · exact absurd ((hf x).trans (hp x hpx)) hy
  · exact hx

/-- Tables with the same rows but for one key have the same keys but for that one. -/
theorem mem_keys_iff {rows' : List ρ} {k : κ} (h : ∀ x, key x ≠ k → (x ∈ rows' ↔ x ∈ rows)) {k' : κ} (hk : k' ≠ k) :
    k' ∈ rows'.map key ↔ k' ∈ rows.map key := by
  simp only [List.mem_map]
  refine exists_congr fun x => ?_
  constructor
  · rintro ⟨hx, rfl⟩
    exact ⟨(h x hk).1 hx, rfl⟩
  · rintro ⟨hx, rfl⟩
    exact ⟨(h x hk).2 hx, rfl⟩

/-- An update of no row. -/
theorem update_none : update rows (fun _ => false) id = rows := by
  simp [update]

/-- An update that matches no row. -/
theorem update_eq_self (h : rows.any p = false) : update rows p f = rows :=
  (List.map_congr_left fun r hr => if_neg (List.any_eq_false.1 h r hr)).trans (List.map_id' rows)

/-- An update that leaves the keys of the rows it matches alone keeps them unique. -/
theorem UniqueBy.update_of (h : UniqueBy key rows) (hf : ∀ x ∈ rows, p x = true → key (f x) = key x) :
    UniqueBy key (update rows p f) := by
  intro a ha b hb hab
  obtain ⟨x, hx, hxa⟩ := mem_update.1 ha
  obtain ⟨y, hy, hyb⟩ := mem_update.1 hb
  have hkx : key x = key a := by
    rcases hxa with ⟨hp, rfl⟩ | ⟨-, rfl⟩
    · exact (hf x hx hp).symm
    · rfl
  have hky : key y = key b := by
    rcases hyb with ⟨hp, rfl⟩ | ⟨-, rfl⟩
    · exact (hf y hy hp).symm
    · rfl
  obtain rfl : x = y := h x hx y hy (hkx.trans (hab.trans hky.symm))
  rcases hxa with ⟨hp, rfl⟩ | ⟨hp, rfl⟩ <;> rcases hyb with ⟨hp', h⟩ | ⟨hp', h⟩
  · exact h
  · rw [hp] at hp'
    cases hp'
  · rw [hp] at hp'
    cases hp'
  · exact h

/-- An update that leaves keys alone keeps them unique. -/
theorem UniqueBy.update (h : UniqueBy key rows) (hf : ∀ x, key (f x) = key x) : UniqueBy key (update rows p f) :=
  h.update_of fun x _ _ => hf x

theorem UniqueBy.delete (h : UniqueBy key rows) : UniqueBy key (delete rows p) :=
  fun a ha b hb hab => h a (mem_delete.1 ha).1 b (mem_delete.1 hb).1 hab

/-- A row under a key no row has may be inserted. -/
theorem UniqueBy.insert (h : UniqueBy key rows) (hx : ∀ y ∈ rows, key y ≠ key x) : UniqueBy key (rows ++ [x]) := by
  intro a ha b hb hab
  rw [List.mem_append, List.mem_singleton] at ha hb
  rcases ha with ha | rfl <;> rcases hb with hb | rfl
  · exact h a ha b hb hab
  · exact absurd hab (hx a ha)
  · exact absurd hab.symm (hx b hb)
  · rfl

/-- A key column without duplicates is a unique key. -/
theorem UniqueBy.of_nodup (h : (rows.map key).Nodup) : UniqueBy key rows :=
  fun _ hx _ hy hxy => List.inj_on_of_nodup_map h hx hy hxy

/-- An update that leaves keys alone leaves the key column alone. -/
theorem map_update (hf : ∀ x ∈ rows, p x = true → key (f x) = key x) : (update rows p f).map key = rows.map key := by
  rw [update, List.map_map]
  refine List.map_congr_left fun x hx => ?_
  by_cases hp : p x = true
  · simp [hp, hf x hx hp]
  · simp [hp]

/-- An update that leaves keys alone loses none. -/
theorem mem_keys_update (hf : ∀ x, key (f x) = key x) {k : κ} : k ∈ (update rows p f).map key ↔ k ∈ rows.map key := by
  rw [map_update fun x _ _ => hf x]

/-- The lookup of a row by its key. -/
theorem find?_eq_some [DecidableEq κ] (h : (rows.map key).Nodup) (hx : x ∈ rows) :
    rows.find? (fun y => key y = key x) = some x := by
  cases hf : rows.find? (fun y => key y = key x) with
  | none =>
    have := List.find?_eq_none.1 hf x hx
    simp at this
  | some y =>
    have hy := List.find?_some hf
    rw [UniqueBy.of_nodup h y (List.mem_of_find?_eq_some hf) x hx (of_decide_eq_true hy)]

/-- The lookup of a row by a condition that names its key. -/
theorem find?_of_key (h : UniqueBy key rows) (hx : x ∈ rows) (hp : p x = true) (hkey : ∀ y, p y = true → key y = key x) :
    rows.find? p = some x := by
  cases hf : rows.find? p with
  | none => exact absurd hp (List.find?_eq_none.1 hf x hx)
  | some y => rw [h y (List.mem_of_find?_eq_some hf) x hx (hkey y (List.find?_some hf))]

/-- A selection of equal rows is at most one. -/
theorem length_le_one {l : List ρ} (hn : l.Nodup) (h : ∀ x ∈ l, ∀ y ∈ l, x = y) : l.length ≤ 1 := by
  cases l with
  | nil => exact Nat.zero_le 1
  | cons x l =>
    cases l with
    | nil => exact Nat.le_refl 1
    | cons y l =>
      have hxy := h x List.mem_cons_self y (List.mem_cons_of_mem _ List.mem_cons_self)
      exact absurd (hxy ▸ List.mem_cons_self) (List.nodup_cons.1 hn).1

/-- Of rows with different keys, a selection by key has at most one. -/
theorem length_filter_key_le_one (h : (rows.map key).Nodup) {k : κ} (hp : ∀ row, p row = true → key row = k) : (rows.filter p).length ≤ 1 := by
  refine length_le_one (List.Nodup.filter p (List.Nodup.of_map key h)) fun x hx y hy => ?_
  rw [List.mem_filter] at hx hy
  exact UniqueBy.of_nodup h x hx.1 y hy.1 ((hp x hx.2).trans (hp y hy.2).symm)

/-- A row with a new key. -/
theorem nodup_map_concat (h : (rows.map key).Nodup) (hx : ∀ y ∈ rows, key y ≠ key x) : ((rows ++ [x]).map key).Nodup := by
  rw [List.map_append, List.map_singleton, List.nodup_append]
  refine ⟨h, List.nodup_singleton _, fun a ha b hb hab => ?_⟩
  obtain ⟨y, hy, rfl⟩ := List.mem_map.1 ha
  exact hx y hy (hab.trans (List.mem_singleton.1 hb))

/-- Tables with the same keys, each once, whose rows match under each key. -/
theorem exists_forall₂_perm {ρ' : Type} {key' : ρ' → κ} {R : ρ → ρ' → Prop} {rows' : List ρ'} (h : (rows.map key).Nodup)
    (h' : (rows'.map key').Nodup) (hto : ∀ x ∈ rows, ∃ y ∈ rows', key' y = key x ∧ R x y) (hfrom : ∀ y ∈ rows', ∃ x ∈ rows, key x = key' y) :
    ∃ zs, zs.Perm rows' ∧ List.Forall₂ R rows zs := by
  induction rows generalizing rows' with
  | nil =>
    cases rows' with
    | nil => exact ⟨[], .nil, .nil⟩
    | cons y ys =>
      obtain ⟨x, hx, -⟩ := hfrom y List.mem_cons_self
      exact absurd hx List.not_mem_nil
  | cons x rows ih =>
    rw [List.map_cons, List.nodup_cons] at h
    obtain ⟨y, hy, hkey, hxy⟩ := hto x List.mem_cons_self
    obtain ⟨before, after, rfl⟩ := List.append_of_mem hy
    have hperm : (before ++ y :: after).Perm (y :: (before ++ after)) := List.perm_middle
    have hcons := (hperm.map key').nodup_iff.1 h'
    rw [List.map_cons, List.nodup_cons] at hcons
    have hto' : ∀ z ∈ rows, ∃ w ∈ before ++ after, key' w = key z ∧ R z w := fun z hz => by
      obtain ⟨w, hw, hwkey, hzw⟩ := hto z (List.mem_cons_of_mem _ hz)
      rcases List.mem_cons.1 (hperm.mem_iff.1 hw) with rfl | hw
      · exact absurd (List.mem_map.2 ⟨z, hz, hwkey.symm.trans hkey⟩) h.1
      · exact ⟨w, hw, hwkey, hzw⟩
    have hfrom' : ∀ z ∈ before ++ after, ∃ w ∈ rows, key w = key' z := fun z hz => by
      obtain ⟨w, hw, hwkey⟩ := hfrom z (hperm.mem_iff.2 (List.mem_cons_of_mem _ hz))
      rcases List.mem_cons.1 hw with rfl | hw
      · exact absurd (List.mem_map.2 ⟨z, hz, hwkey.symm.trans hkey.symm⟩) hcons.1
      · exact ⟨w, hw, hwkey⟩
    obtain ⟨zs, hzs, hmatch⟩ := ih h.2 hcons.2 hto' hfrom'
    exact ⟨y :: zs, (hzs.cons y).trans hperm.symm, .cons hxy hmatch⟩

theorem affected_pos : 0 < affected rows p ↔ ∃ x ∈ rows, p x = true := List.countP_pos_iff

theorem affected_eq_zero : affected rows p = 0 ↔ ∀ x ∈ rows, p x = false := by
  rw [affected, List.countP_eq_zero]
  exact forall₂_congr fun x _ => Bool.not_eq_true _ ▸ Iff.rfl

/-- An update that reports no row. -/
theorem update_of_not_affected (h : ¬ 0 < affected rows p) : update rows p f = rows :=
  update_eq_self <| List.any_eq_false.2 fun x hx =>
    Bool.not_eq_true _ ▸ affected_eq_zero.1 (Nat.eq_zero_of_not_pos h) x hx

end HotelBackend.Theory.Table
