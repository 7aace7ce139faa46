import Mathlib.Data.List.Nodup
import HotelBackend.Common.JsonStringify

/-!
# JSON values up to the order of their keys

`Json.Reorders`: the same value, whose objects may name their keys in another order, at every level.
A store of JSON values keeps that much of what is written to it. What it returns is spelled as what was
written exactly if it returns the keys in the order of the writer (`Json.SameOrder`).
-/

namespace HotelBackend.Common

namespace Json

/-- The same value, up to the order of keys. -/
inductive Reorders : Json → Json → Prop where
  | null : Reorders .null .null
  | bool (b : Bool) : Reorders (.bool b) (.bool b)
  | num (q : ℚ) : Reorders (.num q) (.num q)
  | str (s : String) : Reorders (.str s) (.str s)
  | arr {items items' : List Json} : items.length = items'.length → (∀ p ∈ items.zip items', Reorders p.1 p.2) →
      Reorders (.arr items) (.arr items')
  | obj {fields fields' : List (String × Json)} : (fields.map (·.1)).Perm (fields'.map (·.1)) →
      (∀ f ∈ fields, ∀ g ∈ fields', f.1 = g.1 → Reorders f.2 g.2) → Reorders (.obj fields) (.obj fields')

/-- The objects of two values name the same keys in the same order. -/
inductive SameOrder : Json → Json → Prop where
  | null : SameOrder .null .null
  | bool (b b' : Bool) : SameOrder (.bool b) (.bool b')
  | num (q q' : ℚ) : SameOrder (.num q) (.num q')
  | str (s s' : String) : SameOrder (.str s) (.str s')
  | arr {items items' : List Json} : items.length = items'.length → (∀ p ∈ items.zip items', SameOrder p.1 p.2) →
      SameOrder (.arr items) (.arr items')
  | obj {fields fields' : List (String × Json)} : fields.map (·.1) = fields'.map (·.1) →
      (∀ f ∈ fields, ∀ g ∈ fields', f.1 = g.1 → SameOrder f.2 g.2) → SameOrder (.obj fields) (.obj fields')

/-- An object with these keys. -/
def HasKeys (v : Json) (keys : List String) : Prop := ∃ fields, v = .obj fields ∧ (fields.map (·.1)).Perm keys

section Reorders

variable {v w : Json} {fields fields' : List (String × Json)}

/-- With the keys in the same order nothing has changed. -/
theorem Reorders.eq_of_sameOrder (h : Reorders v w) (ho : SameOrder v w) : w = v := by
  induction h with
  | null | bool | num | str => rfl
  | @arr items items' hlength _ ih =>
    cases ho with
    | arr _ hitems =>
      congr 1
      refine List.ext_getElem hlength.symm fun i hi hi' => ?_
      have hmem : (items[i], items'[i]) ∈ items.zip items' := by
        rw [List.mem_iff_getElem]
        exact ⟨i, by rw [List.length_zip]; omega, List.getElem_zip⟩
      exact ih _ hmem (hitems _ hmem)
  | @obj fields fields' _ _ ih =>
    cases ho with
    | obj hkeys hfields =>
      congr 1
      have hlength : fields.length = fields'.length := by rw [← List.length_map (f := (·.1)), hkeys, List.length_map]
      refine List.ext_getElem hlength.symm fun i hi hi' => ?_
      have hkey : fields[i].1 = fields'[i].1 := by
        have := congrArg (·[i]?) hkeys
        simpa [List.getElem?_map, List.getElem?_eq_getElem, hi, hi'] using this
      have hf := List.getElem_mem hi'
      have hg := List.getElem_mem hi
      exact Prod.ext hkey.symm (ih _ hf _ hg hkey (hfields _ hf _ hg hkey))

/-- A key names one field. -/
theorem eq_of_key (h : (fields.map (·.1)).Nodup) {f g : String × Json} (hf : f ∈ fields) (hg : g ∈ fields) (hkey : f.1 = g.1) : f = g :=
  List.inj_on_of_nodup_map h hf hg hkey

/-- Field by field, where keys are unique. -/
theorem Reorders.of_forall (hperm : (fields.map (·.1)).Perm (fields'.map (·.1))) (hkeys : (fields.map (·.1)).Nodup)
    (h : ∀ f ∈ fields, ∃ value, (f.1, value) ∈ fields' ∧ Reorders f.2 value) : Reorders (.obj fields) (.obj fields') := by
  refine .obj hperm fun f hf g hg hkey => ?_
  obtain ⟨value, hmem, hval⟩ := h f hf
  rwa [eq_of_key (hperm.nodup_iff.1 hkeys) hg hmem hkey.symm]

/-- The same, read from the other side. -/
theorem Reorders.of_forall_right (hperm : (fields.map (·.1)).Perm (fields'.map (·.1))) (hkeys : (fields'.map (·.1)).Nodup)
    (h : ∀ g ∈ fields', ∃ value, (g.1, value) ∈ fields ∧ Reorders value g.2) : Reorders (.obj fields) (.obj fields') := by
  refine .obj hperm fun f hf g hg hkey => ?_
  obtain ⟨value, hmem, hval⟩ := h g hg
  rwa [eq_of_key (hperm.nodup_iff.2 hkeys) hf hmem hkey]

theorem Reorders.refl (h : v.Plain) : Reorders v v := by
  induction h with
  | null => exact .null
  | bool b => exact .bool b
  | num => exact .num _
  | str s => exact .str s
  | @arr items _ ih =>
    refine .arr rfl fun p hp => ?_
    obtain ⟨i, hi, rfl⟩ := List.mem_iff_getElem.1 hp
    rw [List.getElem_zip]
    exact ih _ (List.getElem_mem _)
  | obj hkeys _ ih => exact .of_forall (.refl _) hkeys fun f hf => ⟨f.2, hf, ih f hf⟩

theorem SameOrder.refl (h : v.Plain) : SameOrder v v := by
  induction h with
  | null => exact .null
  | bool b => exact .bool b b
  | num => exact .num _ _
  | str s => exact .str s s
  | @arr items _ ih =>
    refine .arr rfl fun p hp => ?_
    obtain ⟨i, hi, rfl⟩ := List.mem_iff_getElem.1 hp
    rw [List.getElem_zip]
    exact ih _ (List.getElem_mem _)
  | obj hkeys _ ih =>
    refine .obj rfl fun f hf g hg hkey => ?_
    obtain rfl := eq_of_key hkeys hf hg hkey
    exact ih f hf

/-- A field has its counterpart. -/
theorem exists_of_perm (h : (fields.map (·.1)).Perm (fields'.map (·.1))) {g : String × Json} (hg : g ∈ fields') :
    ∃ f ∈ fields, f.1 = g.1 := by
  obtain ⟨f, hf, hkey⟩ := List.mem_map.1 (h.mem_iff.2 (List.mem_map_of_mem hg))
  exact ⟨f, hf, hkey⟩

/-- Reordered, a value is written without loss as before. -/
theorem Reorders.plain (h : Reorders v w) (hv : v.Plain) : w.Plain := by
  induction h with
  | null | bool | num | str => exact hv
  | @arr items items' hlength _ ih =>
    cases hv with
    | arr hitems =>
      refine .arr fun item hitem => ?_
      obtain ⟨i, hi, rfl⟩ := List.mem_iff_getElem.1 hitem
      have hmem : (items[i], items'[i]) ∈ items.zip items' := by
        rw [List.mem_iff_getElem]
        exact ⟨i, by rw [List.length_zip]; omega, List.getElem_zip⟩
      exact ih _ hmem (hitems _ (List.getElem_mem _))
  | obj hperm _ ih =>
    cases hv with
    | obj hkeys hfields =>
      refine .obj (hperm.nodup_iff.1 hkeys) fun g hg => ?_
      obtain ⟨f, hf, hkey⟩ := exists_of_perm hperm hg
      exact ih f hf g hg hkey (hfields f hf)

/-- The fields of an object that is reordered. -/
theorem Reorders.of_mem (h : Reorders (.obj fields) (.obj fields')) {f g : String × Json} (hf : f ∈ fields) (hg : g ∈ fields')
    (hkey : f.1 = g.1) : f.2.Reorders g.2 := by
  cases h with
  | obj _ hfields => exact hfields f hf g hg hkey

theorem Reorders.exists_of_mem (h : Reorders (.obj fields) (.obj fields')) {f : String × Json} (hf : f ∈ fields) :
    ∃ g ∈ fields', g.1 = f.1 := by
  cases h with
  | obj hperm _ => exact exists_of_perm hperm.symm hf

theorem Reorders.hasKeys {keys : List String} (h : Reorders v w) (hw : w.HasKeys keys) : v.HasKeys keys := by
  obtain ⟨fields, rfl, hkeys⟩ := hw
  cases h with
  | obj hperm _ => exact ⟨_, rfl, hperm.trans hkeys⟩

theorem Reorders.eq_str {s : String} (h : Reorders (.str s) v) : v = .str s := by
  cases h
  rfl

end Reorders

end Json

theorem stringify_inj {v w : Json} (hv : v.Plain) (hw : w.Plain) (h : stringify v = stringify w) : v = w := by
  have hread := parseJson_stringify hv
  rw [h, parseJson_stringify hw] at hread
  exact (Option.some.inj hread).symm

/-- A reordered value is spelled as before exactly if its keys are in the same order. -/
theorem stringify_eq_iff {v w : Json} (hv : v.Plain) (h : v.Reorders w) : stringify w = stringify v ↔ v.SameOrder w := by
  constructor
  · intro heq
    rw [stringify_inj (h.plain hv) hv heq]
    exact .refl hv
  · intro ho
    rw [h.eq_of_sameOrder ho]

end HotelBackend.Common
