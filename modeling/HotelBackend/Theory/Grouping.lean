import Mathlib.Algebra.GroupWithZero.Nat
import Mathlib.Algebra.BigOperators.Group.List.Basic
import Mathlib.Data.List.Dedup
import Mathlib.Data.List.Sort

/-!
# Grouping

A map of the language keeps its entries in the order their keys were first set
(`InsertionMap`). Rows are grouped by folding them into such a map, each into the value
under its key: what stands under a key is then the fold of the rows with that key
(`get?_groupBy`). The entries in the order of their keys depend only on what stands
under each key (`sorted_congr`), and numbers added up group by group are the numbers
added up (`sum_groups`). `GROUP BY` has a row for each key that is there (`groupsOf`).
-/

namespace HotelBackend.Theory

universe u v w

/-- A `Map`: entries in the order their keys were first set. -/
structure InsertionMap (κ : Type u) (α : Type v) where
  entries : List (κ × α)
  nodup : (entries.map Prod.fst).Nodup

namespace InsertionMap

variable {κ : Type u} {α : Type v} {ρ : Type w}

def empty : InsertionMap κ α := ⟨[], List.nodup_nil⟩

def keys (m : InsertionMap κ α) : List κ := m.entries.map Prod.fst

section Lookup

variable [DecidableEq κ]

def get? (m : InsertionMap κ α) (k : κ) : Option α := (m.entries.find? (·.1 = k)).map Prod.snd

/-- A key that is there keeps its place. -/
def setEntries (entries : List (κ × α)) (k : κ) (a : α) : List (κ × α) :=
  if k ∈ entries.map Prod.fst then entries.map fun e => if e.1 = k then (k, a) else e else entries ++ [(k, a)]

theorem keys_setEntries (entries : List (κ × α)) (k : κ) (a : α) :
    (setEntries entries k a).map Prod.fst =
      if k ∈ entries.map Prod.fst then entries.map Prod.fst else entries.map Prod.fst ++ [k] := by
  unfold setEntries
  split
  · rw [List.map_map]
    refine List.map_congr_left fun e _ => ?_
    by_cases he : e.1 = k
    · simp [he]
    · simp [he]
  · rw [List.map_append, List.map_singleton]

def set (m : InsertionMap κ α) (k : κ) (a : α) : InsertionMap κ α where
  entries := setEntries m.entries k a
  nodup := by
    rw [keys_setEntries]
    split
    case isTrue => exact m.nodup
    case isFalse h => exact List.concat_eq_append ▸ m.nodup.concat h

variable {m m' : InsertionMap κ α} {k k' : κ} {a : α}

/-- An entry is what stands under its key. -/
theorem mem_entries : (k, a) ∈ m.entries ↔ m.get? k = some a := by
  constructor
  · intro h
    obtain ⟨e, he⟩ : ∃ e, m.entries.find? (·.1 = k) = some e :=
      Option.isSome_iff_exists.1 (List.find?_isSome.2 ⟨_, h, by simp⟩)
    have hkey : e.1 = k := by simpa using List.find?_some he
    have heq : e = (k, a) := List.inj_on_of_nodup_map m.nodup (List.mem_of_find?_eq_some he) h hkey
    rw [get?, he, heq]
    rfl
  · intro h
    obtain ⟨e, he, rfl⟩ := Option.map_eq_some_iff.1 h
    have hkey : e.1 = k := by simpa using List.find?_some he
    have hmem := List.mem_of_find?_eq_some he
    rwa [← hkey]

theorem mem_keys : k ∈ m.keys ↔ ∃ a, m.get? k = some a := by
  simp only [← mem_entries]
  simp [keys]

theorem get?_eq_none : m.get? k = none ↔ k ∉ m.keys := by
  rw [mem_keys, Option.eq_none_iff_forall_not_mem]
  simp

@[simp] theorem get?_empty (k : κ) : (empty : InsertionMap κ α).get? k = none := rfl

@[simp] theorem get?_set_self (m : InsertionMap κ α) (k : κ) (a : α) : (m.set k a).get? k = some a := by
  rw [← mem_entries]
  change (k, a) ∈ setEntries m.entries k a
  unfold setEntries
  by_cases h : k ∈ m.entries.map Prod.fst
  · obtain ⟨e, he, hkey⟩ := List.mem_map.1 h
    rw [if_pos h]
    exact List.mem_map.2 ⟨e, he, by rw [if_pos hkey]⟩
  · rw [if_neg h]
    simp

theorem get?_set_of_ne (m : InsertionMap κ α) (a : α) (h : k' ≠ k) : (m.set k a).get? k' = m.get? k' := by
  refine Option.ext fun b => ?_
  simp only [← mem_entries]
  change (k', b) ∈ setEntries m.entries k a ↔ _
  unfold setEntries
  split
  · simp only [List.mem_map]
    constructor
    · rintro ⟨e, he, heq⟩
      by_cases hk : e.1 = k
      · rw [if_pos hk] at heq
        exact absurd (congrArg Prod.fst heq).symm h
      · rw [if_neg hk] at heq
        rwa [← heq]
    · intro hb
      exact ⟨_, hb, if_neg h⟩
  · simp [h]

/-! ### Sorted entries -/

/-- The entries in the order of their keys. -/
def sortedBy (m : InsertionMap κ α) (le : κ → κ → Prop) [DecidableRel le] : List (κ × α) :=
  m.entries.insertionSort fun e e' => le e.1 e'.1

variable {le : κ → κ → Prop} [DecidableRel le]

@[simp] theorem mem_sortedBy : (k, a) ∈ m.sortedBy le ↔ m.get? k = some a :=
  (List.mem_insertionSort _).trans mem_entries

omit [DecidableEq κ] in
theorem nodup_sortedBy (m : InsertionMap κ α) : ((m.sortedBy le).map Prod.fst).Nodup :=
  (((List.perm_insertionSort _ m.entries).map Prod.fst).nodup_iff).2 m.nodup

omit [DecidableEq κ] in
theorem pairwise_sortedBy (m : InsertionMap κ α) (htotal : ∀ k k', le k k' ∨ le k' k) (htrans : ∀ i j k, le i j → le j k → le i k) :
    ((m.sortedBy le).map Prod.fst).Pairwise le := by
  have : Std.Total fun e e' : κ × α => le e.1 e'.1 := ⟨fun e e' => htotal e.1 e'.1⟩
  have : IsTrans (κ × α) fun e e' => le e.1 e'.1 := ⟨fun e e' e'' => htrans e.1 e'.1 e''.1⟩
  exact List.pairwise_map.2 (List.pairwise_insertionSort _ m.entries)

/-- A lookup in the sorted entries. -/
theorem find?_sortedBy (m : InsertionMap κ α) (k : κ) : ((m.sortedBy le).find? (·.1 = k)).map Prod.snd = m.get? k := by
  let sorted : InsertionMap κ α := ⟨m.sortedBy le, nodup_sortedBy m⟩
  have hget : sorted.get? k = m.get? k := Option.ext fun a => by
    rw [← mem_entries]
    exact mem_sortedBy
  exact hget

/-- The keys in their order. -/
def sortedKeys (m : InsertionMap κ α) (le : κ → κ → Prop) [DecidableRel le] : List κ := (m.sortedBy le).map Prod.fst

theorem mem_sortedKeys : k ∈ m.sortedKeys le ↔ k ∈ m.keys := by
  rw [mem_keys]
  simp [sortedKeys]

/-- The sorted keys depend only on which they are. -/
theorem sortedKeys_congr (htotal : ∀ k k', le k k' ∨ le k' k) (htrans : ∀ i j k, le i j → le j k → le i k)
    (hanti : ∀ k ∈ m.keys, ∀ k' ∈ m.keys, le k k' → le k' k → k = k') (h : ∀ k, k ∈ m.keys ↔ k ∈ m'.keys) :
    m.sortedKeys le = m'.sortedKeys le := by
  have hperm : (m.sortedKeys le).Perm (m'.sortedKeys le) :=
    (List.perm_ext_iff_of_nodup (nodup_sortedBy m) (nodup_sortedBy m')).2 fun k =>
      mem_sortedKeys.trans ((h k).trans mem_sortedKeys.symm)
  refine hperm.eq_of_pairwise (fun k k' hk hk' => ?_) (pairwise_sortedBy m htotal htrans) (pairwise_sortedBy m' htotal htrans)
  exact hanti k (mem_sortedKeys.1 hk) k' (mem_sortedKeys.1 (hperm.mem_iff.2 hk'))

/-- The sorted entries, read off the sorted keys. -/
theorem sortedBy_eq (m : InsertionMap κ α) : m.sortedBy le = (m.sortedKeys le).filterMap fun k => (m.get? k).map (k, ·) := by
  have hread : ∀ e ∈ m.sortedBy le, ((m.get? e.1).map (e.1, ·)) = some e := fun e he => by rw [mem_sortedBy.1 he, Option.map_some]
  rw [sortedKeys, List.filterMap_map]
  exact (List.filterMap_some.symm.trans (List.filterMap_congr hread).symm)

/-- The sorted entries depend only on what stands under each key. -/
theorem sortedBy_congr (htotal : ∀ k k', le k k' ∨ le k' k) (htrans : ∀ i j k, le i j → le j k → le i k)
    (hanti : ∀ k ∈ m.keys, ∀ k' ∈ m.keys, le k k' → le k' k → k = k') (h : ∀ k, m.get? k = m'.get? k) :
    m.sortedBy le = m'.sortedBy le := by
  have hkeys : m.sortedKeys le = m'.sortedKeys le :=
    sortedKeys_congr htotal htrans hanti fun k => by simp only [mem_keys, h]
  rw [sortedBy_eq, sortedBy_eq, hkeys]
  exact List.filterMap_congr fun k _ => by rw [h]

/-! ### Rows folded into groups -/

variable (key : ρ → κ) (init : α) (step : α → ρ → α)

/-- The row goes into the group of its key. -/
def push (m : InsertionMap κ α) (row : ρ) : InsertionMap κ α := m.set (key row) (step ((m.get? (key row)).getD init) row)

theorem get?_push (m : InsertionMap κ α) (row : ρ) (k : κ) :
    (m.push key init step row).get? k = if key row = k then some (step ((m.get? k).getD init) row) else m.get? k := by
  unfold push
  split
  case isTrue h =>
    subst h
    rw [get?_set_self]
  case isFalse h => exact get?_set_of_ne m _ (Ne.symm h)

/-- What stands under a key is the fold of its rows. -/
theorem get?_foldl_push (rows : List ρ) (m : InsertionMap κ α) (k : κ) :
    (rows.foldl (push key init step) m).get? k =
      if rows.filter (key · = k) = [] then m.get? k else some ((rows.filter (key · = k)).foldl step ((m.get? k).getD init)) := by
  induction rows generalizing m with
  | nil => rfl
  | cons row rows ih =>
    rw [List.foldl_cons, ih, get?_push]
    by_cases hrow : key row = k
    · rw [List.filter_cons_of_pos (by simpa using hrow), if_neg (List.cons_ne_nil _ _), if_pos hrow, List.foldl_cons]
      split
      case isTrue hnil => rw [hnil, List.foldl_nil]
      case isFalse => rw [Option.getD_some]
    · rw [List.filter_cons_of_neg (by simpa using hrow), if_neg hrow]

theorem get?_groupBy (rows : List ρ) (k : κ) :
    (rows.foldl (push key init step) empty).get? k =
      if rows.filter (key · = k) = [] then none else some ((rows.filter (key · = k)).foldl step init) :=
  get?_foldl_push key init step rows empty k

theorem mem_keys_groupBy (rows : List ρ) (k : κ) : k ∈ (rows.foldl (push key init step) empty).keys ↔ ∃ row ∈ rows, key row = k := by
  rw [mem_keys, get?_groupBy]
  split
  case isTrue h => simpa using fun row hrow => by simpa using List.filter_eq_nil_iff.1 h row hrow
  case isFalse h => simpa using h

end Lookup

end InsertionMap

theorem sum_single {κ : Type u} [DecidableEq κ] {ks : List κ} {k : κ} {n : ℕ} (hnodup : ks.Nodup) (hk : k ∈ ks) :
    (ks.map fun k' => if k' = k then n else 0).sum = n := by
  induction ks with
  | nil => cases hk
  | cons k' ks ih =>
    obtain ⟨hnew, hks⟩ := List.nodup_cons.1 hnodup
    rw [List.map_cons, List.sum_cons]
    by_cases heq : k' = k
    · subst heq
      rw [if_pos rfl, List.map_congr_left fun j hj => if_neg (fun h : j = k' => hnew (h ▸ hj))]
      simp
    · rw [if_neg heq, Nat.zero_add]
      exact ih hks ((List.mem_cons.1 hk).resolve_left (Ne.symm heq))

/-- Numbers added up group by group are the numbers added up. -/
theorem sum_groups {κ : Type u} {ρ : Type v} [DecidableEq κ] (key : ρ → κ) (weight : ρ → ℕ) {groups : List κ} {rows : List ρ}
    (hnodup : groups.Nodup) (hcover : ∀ row ∈ rows, key row ∈ groups) :
    (groups.map fun k => ((rows.filter (key · = k)).map weight).sum).sum = (rows.map weight).sum := by
  induction rows with
  | nil => simp
  | cons row rows ih =>
    have hsplit : ∀ k, (((row :: rows).filter (key · = k)).map weight).sum =
        (if k = key row then weight row else 0) + ((rows.filter (key · = k)).map weight).sum := by
      intro k
      by_cases hk : key row = k
      · simp [hk]
      · simp [hk, Ne.symm hk]
    have hone : (groups.map fun k => if k = key row then weight row else 0).sum = weight row :=
      sum_single hnodup (hcover row List.mem_cons_self)
    rw [List.map_congr_left fun k _ => hsplit k, List.sum_map_add, hone,
      ih fun row' hrow' => hcover row' (List.mem_cons_of_mem row hrow'), List.map_cons, List.sum_cons]

/-! ### `GROUP BY` -/

section GroupBy

variable {κ : Type u} {ρ : Type v} [DecidableEq κ] {key : ρ → κ} {rows : List ρ}

/-- Each key that a row has, once, with the rows that have it. -/
def groupsOf (key : ρ → κ) (rows : List ρ) : List (κ × List ρ) := (rows.map key).dedup.map fun k => (k, rows.filter (key · = k))

theorem mem_groupsOf {g : κ × List ρ} : g ∈ groupsOf key rows ↔ g.1 ∈ rows.map key ∧ g.2 = rows.filter (key · = g.1) := by
  rw [groupsOf, List.mem_map]
  constructor
  · rintro ⟨k, hk, rfl⟩
    exact ⟨List.mem_dedup.1 hk, rfl⟩
  · rintro ⟨hk, hg⟩
    exact ⟨g.1, List.mem_dedup.2 hk, Prod.ext rfl hg.symm⟩

/-- What is added up over the groups of some keys is added up over the rows that have them. -/
theorem sum_groupsOf (p : κ → Bool) (weight : ρ → ℕ) :
    (((groupsOf key rows).filter (p ·.1)).map fun g => (g.2.map weight).sum).sum = ((rows.filter (p <| key ·)).map weight).sum := by
  have hnodup : ((rows.map key).dedup.filter p).Nodup := (List.nodup_dedup _).filter _
  have hcover : ∀ row ∈ rows.filter (p <| key ·), key row ∈ (rows.map key).dedup.filter p := fun row hrow => by
    rw [List.mem_filter] at hrow ⊢
    exact ⟨List.mem_dedup.2 (List.mem_map_of_mem hrow.1), hrow.2⟩
  rw [← sum_groups key weight hnodup hcover, groupsOf, List.filter_map, List.map_map]
  refine congrArg _ (List.map_congr_left fun k hk => ?_)
  have hp : p k = true := (List.mem_filter.1 hk).2
  have hfilter : rows.filter (key · = k) = (rows.filter (p <| key ·)).filter (key · = k) := by
    rw [List.filter_filter]
    refine List.filter_congr fun row _ => ?_
    by_cases h : key row = k
    · simp [h, hp]
    · simp [h]
  rw [Function.comp_apply, hfilter]

end GroupBy

end HotelBackend.Theory
