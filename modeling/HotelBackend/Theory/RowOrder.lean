import HotelBackend.Theory.Tables

/-!
# Updates a row at a time

An engine that carries out `UPDATE … SET f WHERE p` a row at a time checks the constraints of the table after
each row. `updateEach` visits the rows of the keys it is given and stops at a row that breaks one. If the table
meets its constraints with any of the matched rows updated, the rows may be visited in any order, and the
table after the last is the updated one (`updateEach_eq_some`).
-/

namespace HotelBackend.Theory.Table

variable {ρ κ : Type} [DecidableEq κ]

/-- `UPDATE … SET f WHERE p`, the row of a key after that of another; `none` if a constraint is broken. -/
def updateEach (key : ρ → κ) (p : ρ → Bool) (f : ρ → ρ) (ok : List ρ → Bool) : List κ → List ρ → Option (List ρ)
  | [], rows => some rows
  | k :: visit, rows =>
    let rows := update rows (fun r => p r && key r = k) f
    if ok rows then updateEach key p f ok visit rows else none

/-- The table once the matched rows of some keys were visited. -/
def visitedRows (key : ρ → κ) (p : ρ → Bool) (f : ρ → ρ) (visited : List κ) (rows : List ρ) : List ρ :=
  update rows (fun r => p r && decide (key r ∈ visited)) f

section

variable {key : ρ → κ} {p : ρ → Bool} {f : ρ → ρ} {ok : List ρ → Bool} {rows : List ρ} {visit visited : List κ}

/-- One more row is visited. -/
theorem update_visitedRows (hkey : ∀ r, key (f r) = key r) (hp : ∀ r, p (f r) = p r) {k : κ} (hk : k ∉ visited) :
    update (visitedRows key p f visited rows) (fun r => p r && key r = k) f = visitedRows key p f (visited ++ [k]) rows := by
  unfold visitedRows update
  rw [List.map_map]
  refine List.map_congr_left fun r _ => ?_
  simp only [Function.comp_apply, List.mem_append, List.mem_singleton, Bool.and_eq_true, decide_eq_true_eq]
  by_cases hr : p r = true ∧ key r ∈ visited
  · have hne : key r ≠ k := fun h => hk (h ▸ hr.2)
    simp [hr.1, hr.2, hkey, hp, hne]
  · simp only [if_neg hr]
    by_cases hrk : p r = true ∧ key r = k
    · rw [if_pos hrk, if_pos ⟨hrk.1, .inr hrk.2⟩]
    · rw [if_neg hrk, if_neg fun h => h.2.elim (fun hm => hr ⟨h.1, hm⟩) fun hm => hrk ⟨h.1, hm⟩]

theorem updateEach_visitedRows (hkey : ∀ r, key (f r) = key r) (hp : ∀ r, p (f r) = p r) (hvisit : (visited ++ visit).Nodup)
    (hok : ∀ visited, ok (visitedRows key p f visited rows) = true) :
    updateEach key p f ok visit (visitedRows key p f visited rows) = some (visitedRows key p f (visited ++ visit) rows) := by
  induction visit generalizing visited with
  | nil => rw [updateEach, List.append_nil]
  | cons k visit ih =>
    have hk : k ∉ visited := fun h => (List.disjoint_of_nodup_append hvisit) h List.mem_cons_self
    have happend : visited ++ k :: visit = visited ++ [k] ++ visit := List.append_cons visited k visit
    rw [updateEach, update_visitedRows hkey hp hk]
    rw [if_pos (hok _), happend]
    exact ih (happend ▸ hvisit)

/-- **Any order does.** If no set of updated rows breaks a constraint, every visit of the matched rows ends in
the updated table. -/
theorem updateEach_eq_some (hkey : ∀ r, key (f r) = key r) (hp : ∀ r, p (f r) = p r) (hn : (rows.map key).Nodup)
    (hvisit : visit.Perm ((rows.filter p).map key)) (hok : ∀ visited, ok (visitedRows key p f visited rows) = true) :
    updateEach key p f ok visit rows = some (update rows p f) := by
  have hnone : visitedRows key p f [] rows = rows := by simp [visitedRows, update]
  have hall : visitedRows key p f ([] ++ visit) rows = update rows p f := by
    refine List.map_congr_left fun r hr => ?_
    by_cases hpr : p r = true
    · have hmem : key r ∈ visit := hvisit.mem_iff.2 (List.mem_map_of_mem (List.mem_filter.2 ⟨hr, hpr⟩))
      simp [hpr, hmem]
    · simp [hpr]
  have hnodup : ([] ++ visit).Nodup := hvisit.nodup_iff.2 (hn.sublist (List.filter_sublist.map _))
  have hrun := updateEach_visitedRows hkey hp hnodup hok
  rwa [hnone, hall] at hrun

end

end HotelBackend.Theory.Table
