import Mathlib.Data.List.Nodup
import Mathlib.Data.Set.Insert

/-!
# The newest of each key

Rows with a key and a version, and a table that holds the newest row of each key among
those it was given (`IsNewest`). Putting one more row in (`put`) keeps it so. If no two
rows have one key and one version, the table is determined by what was put in
(`IsNewest.mem_iff`): the order, the repetitions and the portions do not matter.
-/

namespace HotelBackend.Theory

universe u v

/-- What tells the rows apart, and which of two is newer. -/
structure Versioning (α : Type u) (κ : Type v) where
  key : α → κ
  version : α → ℕ

namespace Versioning

variable {α : Type u} {κ : Type v} (V : Versioning α κ)

/-- A row is known by its key and version. -/
def Consistent (xs : Set α) : Prop := ∀ a ∈ xs, ∀ b ∈ xs, V.key a = V.key b → V.version a = V.version b → a = b

/-- No row under its key is newer. -/
def Latest (xs : Set α) (a : α) : Prop := a ∈ xs ∧ ∀ b ∈ xs, V.key b = V.key a → V.version b ≤ V.version a

/-- The table holds the newest row of each key, once. -/
structure IsNewest (xs : Set α) (table : List α) : Prop where
  keys : (table.map V.key).Nodup
  latest : ∀ a ∈ table, V.Latest xs a
  cover : ∀ a ∈ xs, V.key a ∈ table.map V.key

/-- The row goes in, if it is the first under its key or newer than the one there. -/
def put [DecidableEq κ] (table : List α) (a : α) : List α :=
  if table.any (V.key · = V.key a) then
    table.map fun b => if V.key b = V.key a ∧ V.version b < V.version a then a else b
  else table ++ [a]

variable {V} {xs ys : Set α} {table rows : List α} {a b : α}

theorem Consistent.mono (h : V.Consistent ys) (hsub : xs ⊆ ys) : V.Consistent xs :=
  fun a ha b hb => h a (hsub ha) b (hsub hb)

theorem isNewest_nil : V.IsNewest ∅ [] :=
  ⟨List.nodup_nil, fun _ h => absurd h List.not_mem_nil, fun a h => absurd h (Set.notMem_empty a)⟩

/-- What was put in determines the rows. -/
theorem IsNewest.mem_iff (h : V.IsNewest xs table) (hc : V.Consistent xs) : a ∈ table ↔ V.Latest xs a := by
  constructor
  · exact h.latest a
  · rintro ⟨ha, hmax⟩
    obtain ⟨b, hb, hkey⟩ := List.mem_map.1 (h.cover a ha)
    obtain ⟨hbx, hbmax⟩ := h.latest b hb
    rwa [hc a ha b hbx hkey.symm ((hbmax a ha hkey.symm).antisymm (hmax b hbx hkey))]

/-- The table may be sorted. -/
theorem IsNewest.perm {table' : List α} (h : V.IsNewest xs table) (hp : table.Perm table') : V.IsNewest xs table' where
  keys := (hp.map V.key).nodup_iff.1 h.keys
  latest a ha := h.latest a (hp.mem_iff.2 ha)
  cover a ha := (hp.map V.key).mem_iff.1 (h.cover a ha)

/-- Rows that another one outdoes do not matter. -/
theorem IsNewest.extend (h : V.IsNewest xs table) (hsub : xs ⊆ ys)
    (hdom : ∀ b ∈ ys, ∃ c ∈ xs, V.key c = V.key b ∧ V.version b ≤ V.version c) : V.IsNewest ys table where
  keys := h.keys
  latest a ha := by
    obtain ⟨hax, hmax⟩ := h.latest a ha
    refine ⟨hsub hax, fun b hb hkey => ?_⟩
    obtain ⟨c, hc, hck, hle⟩ := hdom b hb
    exact hle.trans (hmax c hc (hck.trans hkey))
  cover a ha := by
    obtain ⟨c, hc, hck, -⟩ := hdom a ha
    exact hck ▸ h.cover c hc

section Put

variable [DecidableEq κ]

theorem map_key_put : (V.put table a).map V.key =
    if V.key a ∈ table.map V.key then table.map V.key else table.map V.key ++ [V.key a] := by
  have hany : table.any (V.key · = V.key a) = true ↔ V.key a ∈ table.map V.key := by
    simp only [List.any_eq_true, decide_eq_true_eq, List.mem_map]
  unfold put
  split
  case isTrue h =>
    rw [if_pos (hany.1 h), List.map_map]
    refine List.map_congr_left fun b _ => ?_
    simp only [Function.comp_apply]
    split
    case isTrue hold => exact hold.1.symm
    case isFalse => rfl
  case isFalse h => rw [if_neg fun hk => h (hany.2 hk), List.map_append, List.map_singleton]

theorem keys_put (h : (table.map V.key).Nodup) : ((V.put table a).map V.key).Nodup := by
  rw [map_key_put]
  split
  case isTrue => exact h
  case isFalse hk =>
    exact List.Nodup.append h (List.nodup_singleton _) fun k hkt hka => hk (List.mem_singleton.1 hka ▸ hkt)

/-- A row of the table was there and is not outdone, or is the new one and newer than the one that was there. -/
theorem of_mem_put (h : b ∈ V.put table a) :
    (b ∈ table ∧ ¬ (V.key b = V.key a ∧ V.version b < V.version a)) ∨
    (b = a ∧ ((∀ c ∈ table, V.key c ≠ V.key a) ∨ ∃ c ∈ table, V.key c = V.key a ∧ V.version c < V.version a)) := by
  unfold put at h
  split at h
  case isTrue =>
    obtain ⟨c, hc, hcb⟩ := List.mem_map.1 h
    split at hcb
    case isTrue hold => exact .inr ⟨hcb.symm, .inr ⟨c, hc, hold⟩⟩
    case isFalse hnew => exact .inl ⟨hcb ▸ hc, hcb ▸ hnew⟩
  case isFalse hany =>
    have hnone : ∀ c ∈ table, V.key c ≠ V.key a := fun c hc hck => hany (List.any_eq_true.2 ⟨c, hc, decide_eq_true hck⟩)
    rcases List.mem_append.1 h with hb | hb
    · exact .inl ⟨hb, fun hold => hnone b hb hold.1⟩
    · exact .inr ⟨List.mem_singleton.1 hb, .inl hnone⟩

/-- One more row. -/
theorem IsNewest.put (h : V.IsNewest xs table) : V.IsNewest (insert a xs) (V.put table a) where
  keys := keys_put h.keys
  latest b hb := by
    rcases of_mem_put hb with ⟨hb, hnew⟩ | ⟨rfl, hnone | ⟨c, hc, hck, hlt⟩⟩
    · obtain ⟨hbx, hmax⟩ := h.latest b hb
      refine ⟨.inr hbx, ?_⟩
      rintro d (rfl | hd) hkey
      · exact not_lt.1 fun hlt => hnew ⟨hkey.symm, hlt⟩
      · exact hmax d hd hkey
    · refine ⟨.inl rfl, ?_⟩
      rintro d (rfl | hd) hkey
      · exact le_rfl
      · obtain ⟨c, hc, hck⟩ := List.mem_map.1 (h.cover d hd)
        exact absurd (hck.trans hkey) (hnone c hc)
    · refine ⟨.inl rfl, ?_⟩
      rintro d (rfl | hd) hkey
      · exact le_rfl
      · exact ((h.latest c hc).2 d hd (hkey.trans hck.symm)).trans hlt.le
  cover b hb := by
    rw [map_key_put]
    rcases hb with rfl | hb
    · split
      case isTrue hk => exact hk
      case isFalse => exact List.mem_append_right _ List.mem_cons_self
    · split
      case isTrue => exact h.cover b hb
      case isFalse => exact List.mem_append_left _ (h.cover b hb)

/-- The rows of a list, one after the other. -/
theorem IsNewest.foldl (h : V.IsNewest xs table) : V.IsNewest (xs ∪ {a | a ∈ rows}) (rows.foldl V.put table) := by
  induction rows generalizing xs table with
  | nil =>
    have hnone : xs ∪ {a | a ∈ ([] : List α)} = xs := by
      ext
      simp
    rwa [hnone]
  | cons a rows ih =>
    have hone : xs ∪ {b | b ∈ a :: rows} = insert a xs ∪ {b | b ∈ rows} := by
      ext b
      simp only [List.mem_cons, Set.mem_union, Set.mem_ofPred_eq, Set.mem_insert_iff]
      tauto
    rw [hone]
    exact ih h.put

/-- The newest of a portion stand for the whole portion. -/
theorem IsNewest.foldl_newest (h : V.IsNewest xs table) (hrows : V.IsNewest ys rows) : V.IsNewest (xs ∪ ys) (rows.foldl V.put table) := by
  refine h.foldl.extend (Set.union_subset_union_right xs fun a ha => (hrows.latest a ha).1) ?_
  rintro b (hb | hb)
  · exact ⟨b, .inl hb, rfl, le_rfl⟩
  · obtain ⟨c, hc, hck⟩ := List.mem_map.1 (hrows.cover b hb)
    exact ⟨c, .inr hc, hck, (hrows.latest c hc).2 b hb hck.symm⟩

end Put

end Versioning

end HotelBackend.Theory
