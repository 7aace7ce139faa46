import HotelBackend.Outbox.Counters

/-!
# What an event keeps

No statement changes what an event is: its id, type, payload and time (`SameEvent`). A
statement closes an event, or leaves it as closed as it was (`closed_of_exec`), and an open
event is waiting or held under a lease that runs out, so that some claim takes it later
(`Claimable`).
-/

namespace HotelBackend.Outbox

open HotelBackend.Common
open HotelBackend.Theory

/-! ### The event of a row -/

/-- Two states of one event. -/
structure SameEvent (e e' : OutboxEvent) : Prop where
  id : e'.id = e.id
  eventType : e'.eventType = e.eventType
  payload : e'.payload = e.payload
  createdAt : e'.createdAt = e.createdAt

namespace SameEvent

theorem refl (e : OutboxEvent) : SameEvent e e := ⟨rfl, rfl, rfl, rfl⟩

theorem trans {e e' e'' : OutboxEvent} (h : SameEvent e e') (h' : SameEvent e' e'') : SameEvent e e'' :=
  ⟨h'.id.trans h.id, h'.eventType.trans h.eventType, h'.payload.trans h.payload, h'.createdAt.trans h.createdAt⟩

theorem of_update {st : Statement} {u : Update} {now : ℕ} (hu : st.update now = some u) (e : OutboxEvent) : SameEvent e (u.set e) := by
  cases st with
  | insert | claim => cases hu
  | _ =>
    obtain rfl := Option.some.inj hu
    exact ⟨rfl, rfl, rfl, rfl⟩

end SameEvent

section Exec

variable {s s' : State} {st : Statement} {now : ℕ}

/-- An event stays in the table. -/
theorem kept_of_exec (hi : Inv s) (h : s.exec now st = some s') {e : OutboxEvent} (he : e ∈ s.rows) :
    ∃ e' ∈ s'.rows, SameEvent e e' := by
  cases effect_of_exec h with
  | insert => exact ⟨e, List.mem_append_left _ he, .refl e⟩
  | claimFailed => exact ⟨e, he, .refl e⟩
  | claim _ hclaim =>
    rw [(claimBatch_ok hi.ids hclaim).table]
    cases hp : (claimUpdate _ _ now).pred e
    · exact ⟨e, Table.mem_update_of_neg he hp, .refl e⟩
    · exact ⟨_, Table.mem_update_of_pos he hp, rfl, rfl, rfl, rfl⟩
  | @update _ u hu =>
    cases hp : u.pred e
    · exact ⟨e, Table.mem_update_of_neg he hp, .refl e⟩
    · exact ⟨_, Table.mem_update_of_pos he hp, .of_update hu e⟩

/-- Where an event comes from. -/
theorem origin_of_exec (hi : Inv s) (h : s.exec now st = some s') {e' : OutboxEvent} (he' : e' ∈ s'.rows) :
    (∃ e ∈ s.rows, SameEvent e e') ∨
      ∃ id eventType payload key, st = .insert id eventType payload key ∧ e' = .fresh id eventType payload key now := by
  cases effect_of_exec h with
  | insert =>
    rcases List.mem_append.1 he' with he' | he'
    · exact .inl ⟨e', he', .refl e'⟩
    · exact .inr ⟨_, _, _, _, rfl, List.mem_singleton.1 he'⟩
  | claimFailed => exact .inl ⟨e', he', .refl e'⟩
  | claim _ hclaim =>
    obtain ⟨e, he, ⟨rfl, -⟩ | rfl⟩ := (claimBatch_ok hi.ids hclaim).mem hi.ids he'
    · exact .inl ⟨e, he, rfl, rfl, rfl, rfl⟩
    · exact .inl ⟨_, he, .refl _⟩
  | update hu =>
    obtain ⟨e, he, ⟨-, rfl⟩ | ⟨-, rfl⟩⟩ := Table.mem_update.1 he'
    · exact .inl ⟨e, he, .of_update hu e⟩
    · exact .inl ⟨_, he, .refl _⟩

/-- A closed event was closed before, or the statement is an update that closes it. -/
theorem closed_of_exec (hi : Inv s) (h : s.exec now st = some s') {e' : OutboxEvent} (he' : e' ∈ s'.rows)
    (hclosed : e'.status.isOpen = false) :
    e' ∈ s.rows ∨ ∃ u, st.update now = some u ∧ ∃ e ∈ s.rows, u.pred e = true ∧ u.set e = e' := by
  cases effect_of_exec h with
  | insert =>
    rcases List.mem_append.1 he' with he' | he'
    · exact .inl he'
    · rw [List.mem_singleton.1 he'] at hclosed
      cases hclosed
  | claimFailed => exact .inl he'
  | claim _ hclaim =>
    obtain ⟨e, he, ⟨rfl, -⟩ | rfl⟩ := (claimBatch_ok hi.ids hclaim).mem hi.ids he'
    · cases hclosed
    · exact .inl he
  | @update _ u hu =>
    obtain ⟨e, he, hp | ⟨-, rfl⟩⟩ := Table.mem_update.1 he'
    · exact .inr ⟨u, hu, e, he, hp⟩
    · exact .inl he

/-- The families other than the event's own do not close it. -/
theorem family_of_closing {u : Update} {f : Family} {e : OutboxEvent} (hi : Inv s) (hu : st.update now = some u) (he : e ∈ s.rows)
    (hp : u.pred e = true) (htype : e.eventType ∈ f.eventTypes) : st.family = some f := by
  obtain ⟨g, hfam, hg⟩ := (change_of_update hu (hi.lease e he) hp).family
  rw [hfam, Family.eventTypes_disjoint hg htype]

end Exec

/-! ### Open events -/

/-- From when on a claim may take an open event. -/
def OutboxEvent.claimableFrom (e : OutboxEvent) : Option ℕ :=
  match e.status with
  | .pending => some e.availableAt
  | .processing => e.lockExpiresAt
  | .processed | .failed => none

/-- A claim takes the event, from a time on. A batch fails only for a row that was claimed 65535 times. -/
structure Claimable (f : Family) (s : State) (e : OutboxEvent) (since : ℕ) : Prop where
  time : e.claimableFrom = some since
  eligible : ∀ now, since ≤ now → isExpired f.eventTypes now e = true ∨ isDue f.eventTypes now e = true
  taken : ∀ now, since ≤ now → ∀ input : OutboxClaimInput, input.eventTypes = f.eventTypes → s.rows.length ≤ input.batchSize →
    ∀ skipExpired skipDue : String → Bool, skipExpired e.id = false → skipDue e.id = false →
    (∃ rows claims, claimBatch s.rows input skipExpired skipDue now = .ok (rows, claims) ∧ e.id ∈ claims.map (·.id)) ∨
      ∃ r ∈ s.rows, 65535 ≤ s.claims.countP (·.id = r.id)

section Claimable

variable {rows : List OutboxEvent} {input : OutboxClaimInput} {skipExpired skipDue : String → Bool} {now : ℕ}

theorem mem_selectEligible_of {p : OutboxEvent → Bool} {skip : String → Bool} {limit : ℕ} {e : OutboxEvent} (he : e ∈ rows)
    (hp : p e = true) (hskip : skip e.id = false) (hlimit : rows.countP p ≤ limit) : e ∈ selectEligible rows p skip limit := by
  have hcount : (rows.filter fun e => p e && !skip e.id).length ≤ limit := by
    rw [← List.countP_eq_length_filter]
    refine (List.countP_mono_left fun x _ hx => ?_).trans hlimit
    exact (Bool.and_eq_true _ _ ▸ hx).1
  rw [selectEligible, List.take_of_length_le (by rwa [List.length_insertionSort]), (List.perm_insertionSort _ _).mem_iff]
  exact List.mem_filter.2 ⟨he, by rw [hp, hskip]; rfl⟩

/-- A batch of the size of the table takes every row it may. -/
theorem mem_eligible_of {e : OutboxEvent} (he : e ∈ rows)
    (hel : isExpired input.eventTypes now e = true ∨ isDue input.eventTypes now e = true) (hsize : rows.length ≤ input.batchSize)
    (hexpired : skipExpired e.id = false) (hdue : skipDue e.id = false) : e ∈ eligible rows input skipExpired skipDue now := by
  rw [eligible, (List.perm_insertionSort _ _).mem_iff, List.mem_append]
  rcases hel with hel | hel
  · exact .inl (mem_selectEligible_of he hel hexpired (List.countP_le_length.trans hsize))
  · right
    have hfew : (selectEligible rows (isExpired input.eventTypes now) skipExpired input.batchSize).length ≤
        rows.countP (isExpired input.eventTypes now) := by
      rw [selectEligible, List.length_take, List.length_insertionSort, ← List.countP_eq_length_filter]
      refine (Nat.min_le_right _ _).trans (List.countP_mono_left fun x _ hx => ?_)
      exact (Bool.and_eq_true _ _ ▸ hx).1
    have hsum : rows.countP (isExpired input.eventTypes now) + rows.countP (isDue input.eventTypes now) ≤ rows.length := by
      have hle : rows.countP (isDue input.eventTypes now) ≤ rows.countP fun x => ¬ isExpired input.eventTypes now x = true := by
        refine List.countP_mono_left fun x _ hx => ?_
        by_cases hexp : isExpired input.eventTypes now x = true
        · rw [not_isDue_of_isExpired hexp] at hx
          cases hx
        · simp [hexp]
      have := List.length_eq_countP_add_countP (isExpired input.eventTypes now) (l := rows)
      omega
    have hpos : 0 < rows.countP (isDue input.eventTypes now) := List.countP_pos_iff.2 ⟨e, he, hel⟩
    rw [if_pos (by omega)]
    exact mem_selectEligible_of he hel hdue (by omega)

/-- An open event is claimable. -/
theorem claimable_of_open {f : Family} {s : State} (hi : Inv s) {e : OutboxEvent} (he : e ∈ s.rows) (htype : e.eventType ∈ f.eventTypes)
    (hopen : e.status.isOpen = true) : ∃ since, Claimable f s e since := by
  have hel : ∃ since, e.claimableFrom = some since ∧
      ∀ now, since ≤ now → isExpired f.eventTypes now e = true ∨ isDue f.eventTypes now e = true := by
    have hlease := hi.lease e he
    cases hs : e.status with
    | pending =>
      refine ⟨e.availableAt, by rw [OutboxEvent.claimableFrom, hs], fun now hnow => .inr ?_⟩
      simp [isDue, htype, hs, hnow]
    | processing =>
      simp only [OutboxEvent.leaseState, hs, Bool.and_eq_true] at hlease
      obtain ⟨since, hsince⟩ := Option.isSome_iff_exists.1 hlease.1.1.1.2
      refine ⟨since, by rw [OutboxEvent.claimableFrom, hs, hsince], fun now hnow => .inl ?_⟩
      simp [isExpired, htype, hs, hsince, hnow]
    | processed | failed =>
      rw [hs] at hopen
      cases hopen
  obtain ⟨since, hsince, hel⟩ := hel
  refine ⟨since, hsince, hel, fun now hnow input htypes hsize skipExpired skipDue hexpired hdue => ?_⟩
  have hmem := mem_eligible_of he (htypes ▸ hel now hnow) hsize hexpired hdue
  cases hclaim : claimBatch s.rows input skipExpired skipDue now with
  | ok result =>
    refine .inl ⟨result.1, result.2, rfl, ?_⟩
    rw [claimBatch_ids hclaim]
    exact List.mem_map_of_mem hmem
  | error err =>
    obtain ⟨-, r, hr, hfull⟩ := (claimBatch_eq_error hi.ids (htypes ▸ f.eventTypes_ne_nil)).1 hclaim
    exact .inr ⟨r, (mem_eligible hr).1, hfull.trans (hi.counted r (mem_eligible hr).1)⟩

end Claimable

end HotelBackend.Outbox
