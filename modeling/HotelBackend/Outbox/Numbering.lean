import HotelBackend.Outbox.Protocol

/-!
# The numbers of claims

A claim carries the number of its attempt. The number is counted up by the claim, and down
by the release that gives the claim back. Apart from claims given back, the claims of an
event have numbers of their own, none above the count of the row, as long as no redrive
starts the count over.
-/

namespace HotelBackend.Outbox

open HotelBackend.Theory

/-- The claims of a row not among those given back. -/
structure Numbered (claims given : List ClaimKey) (e : OutboxEvent) : Prop where
  below : ∀ c ∈ claims, c ∉ given → c.id = e.id → c.attempt ≤ e.attempts
  distinct : ∀ c ∈ claims, c ∉ given → ∀ d ∈ claims, d ∉ given → c.id = e.id → d.id = e.id → c.attempt = d.attempt → c = d

/-- The events of a family. -/
structure Numbering (family : Family) (s : State) (given : List ClaimKey) : Prop where
  rows : ∀ e ∈ s.rows, e.eventType ∈ family.eventTypes → Numbered s.claims given e
  known : ∀ c ∈ s.claims, ∃ e ∈ s.rows, e.id = c.id

section Rows

variable {claims given : List ClaimKey} {e e' : OutboxEvent}

theorem Numbered.congr (h : Numbered claims given e) (hid : e'.id = e.id) (hatt : e.attempts ≤ e'.attempts) : Numbered claims given e' where
  below c hc hgiven hce := (h.below c hc hgiven (hce.trans hid)).trans hatt
  distinct c hc hc' d hd hd' hce hde := h.distinct c hc hc' d hd hd' (hce.trans hid) (hde.trans hid)

/-- The next number is a new one. -/
theorem Numbered.claim (h : Numbered claims given e) {new : List ClaimKey} (hid : e'.id = e.id) (hatt : e'.attempts = e.attempts + 1)
    (hnew : ∀ c ∈ new, c.id = e.id → c.attempt = e.attempts + 1) (hone : ∀ c ∈ new, ∀ d ∈ new, c.id = d.id → c = d) :
    Numbered (claims ++ new) given e' where
  below := by
    refine List.forall_mem_append.2 ⟨fun c hc hgiven hce => ?_, fun c hc _ hce => ?_⟩
    · have := h.below c hc hgiven (hce.trans hid)
      omega
    · have := hnew c hc (hce.trans hid)
      omega
  distinct c hc hc' d hd hd' hce hde hcd := by
    rw [hid] at hce hde
    rw [List.mem_append] at hc hd
    rcases hc with hc | hc <;> rcases hd with hd | hd
    · exact h.distinct c hc hc' d hd hd' hce hde hcd
    · have := h.below c hc hc' hce
      have := hnew d hd hde
      omega
    · have := h.below d hd hd' hde
      have := hnew c hc hce
      omega
    · exact hone c hc d hd (hce.trans hde.symm)

/-- Claims of other events do not matter. -/
theorem Numbered.append (h : Numbered claims given e) {new : List ClaimKey} (hnew : ∀ c ∈ new, c.id ≠ e.id) :
    Numbered (claims ++ new) given e where
  below := List.forall_mem_append.2 ⟨h.below, fun c hc _ hce => absurd hce (hnew c hc)⟩
  distinct := by
    intro c hc hc' d hd hd' hce hde
    rcases List.mem_append.1 hc with hc | hc
    · rcases List.mem_append.1 hd with hd | hd
      · exact h.distinct c hc hc' d hd hd' hce hde
      · exact absurd hde (hnew d hd)
    · exact absurd hce (hnew c hc)

/-- The number of the claim that holds the row may be used again once the claim is given back. -/
theorem Numbered.release (h : Numbered claims given e) {key : ClaimKey} (hkey : key ∈ claims) (hgiven : key ∉ given)
    (hholds : key.holds e = true) (hid : e'.id = e.id) (hatt : e'.attempts = e.attempts - 1) : Numbered claims (given ++ [key]) e' where
  below c hc hc' hce := by
    rw [List.mem_append, List.mem_singleton, not_or] at hc'
    obtain ⟨hke, -, -, hka⟩ := ClaimKey.holds_iff.1 hholds
    have hbelow := h.below c hc hc'.1 (hce.trans hid)
    have hne : c.attempt ≠ key.attempt := fun heq => hc'.2 (h.distinct c hc hc'.1 key hkey hgiven (hce.trans hid) hke.symm heq)
    omega
  distinct c hc hc' d hd hd' hce hde := by
    rw [List.mem_append, not_or] at hc' hd'
    exact h.distinct c hc hc'.1 d hd hd'.1 (hce.trans hid) (hde.trans hid)

theorem Numbered.mono (h : Numbered claims given e) {key : ClaimKey} : Numbered claims (given ++ [key]) e where
  below c hc hc' := h.below c hc fun hg => hc' (List.mem_append_left _ hg)
  distinct c hc hc' d hd hd' := h.distinct c hc (fun hg => hc' (List.mem_append_left _ hg)) d hd fun hg => hd' (List.mem_append_left _ hg)

end Rows

section Steps

variable {family : Family} {s s' : State} {given : List ClaimKey} {now : ℕ} {st : Statement}

theorem mem_claimKeys {claimToken : String} {claims : List OutboxClaim} {c : ClaimKey} :
    c ∈ claimKeys claimToken claims ↔ c.claimToken = claimToken ∧ (⟨c.id, c.attempt⟩ : OutboxClaim) ∈ claims := by
  simp only [claimKeys, List.mem_map]
  constructor
  · rintro ⟨k, hk, rfl⟩
    exact ⟨rfl, hk⟩
  · rintro ⟨rfl, hk⟩
    exact ⟨_, hk, rfl⟩

/-- The claims of a batch. -/
theorem Numbering.claim {input : OutboxClaimInput} {rows : List OutboxEvent} {claims : List OutboxClaim} (hn : Numbering family s given)
    (hi : Inv s) (h : Claimed s.rows input now rows claims) :
    Numbering family ⟨rows, s.claims ++ claimKeys input.claimToken claims⟩ given where
  known := by
    have hids : ∀ id, (∃ e ∈ s.rows, e.id = id) → ∃ e ∈ rows, e.id = id := by
      rintro id ⟨e, he, rfl⟩
      rw [h.table]
      cases hp : (claimUpdate input (claims.map (·.id)) now).pred e
      · exact ⟨e, Table.mem_update_of_neg he hp, rfl⟩
      · exact ⟨_, Table.mem_update_of_pos he hp, rfl⟩
    refine List.forall_mem_append.2 ⟨fun c hc => hids c.id (hn.known c hc), fun c hc => hids c.id ?_⟩
    obtain ⟨e, he, hid, -⟩ := h.attempt _ (mem_claimKeys.1 hc).2
    exact ⟨e, he, hid⟩
  rows e' he' htype := by
    have hone : ∀ c ∈ claimKeys input.claimToken claims, ∀ d ∈ claimKeys input.claimToken claims, c.id = d.id → c = d := by
      intro c hc d hd hcd
      obtain ⟨hct, hc⟩ := mem_claimKeys.1 hc
      obtain ⟨hdt, hd⟩ := mem_claimKeys.1 hd
      have := OutboxClaim.mk.inj (List.inj_on_of_nodup_map h.nodup hc hd hcd)
      cases c
      cases d
      rw [ClaimKey.mk.injEq]
      exact ⟨hcd, hct.trans hdt.symm, this.2⟩
    have hnumber : ∀ e ∈ s.rows, ∀ c ∈ claimKeys input.claimToken claims, c.id = e.id → c.attempt = e.attempts + 1 := by
      intro e he c hc hce
      obtain ⟨g, hg, hgc, hatt⟩ := h.attempt _ (mem_claimKeys.1 hc).2
      rw [← Table.UniqueBy.of_nodup hi.ids g hg e he (hgc.trans hce)]
      exact hatt
    rw [h.table] at he'
    obtain ⟨e, he, ⟨hp, rfl⟩ | ⟨hp, rfl⟩⟩ := Table.mem_update.1 he'
    · exact (hn.rows e he htype).claim rfl rfl (hnumber e he) hone
    · refine (hn.rows e he htype).append fun c hc hce => ?_
      obtain ⟨g, hg, hgc, -⟩ := h.attempt _ (mem_claimKeys.1 hc).2
      have hid : e.id ∈ claims.map (·.id) := List.mem_map.2 ⟨_, (mem_claimKeys.1 hc).2, hce⟩
      have htypes := type_of_eligible (h.eligible _ he hid)
      rw [claimUpdate_pred.2 ⟨hid, htypes⟩] at hp
      cases hp

/-- A statement that neither gives a claim of the family back nor starts a count over. -/
theorem Numbering.exec (hn : Numbering family s given) (hi : Inv s) (h : s.exec now st = some s') (hredrive : st.isRedrive = false)
    (hrelease : st.isRelease = true → st.family ≠ some family) : Numbering family s' given := by
  cases effect_of_exec h with
  | @insert id eventType payload key hnew =>
    refine ⟨List.forall_mem_append.2 ⟨hn.rows, List.forall_mem_singleton.2 fun _ => ?_⟩, fun c hc => ?_⟩
    · have hnone : ∀ c ∈ s.claims, c.id ≠ id := by
        intro c hc hid
        obtain ⟨e, he, hec⟩ := hn.known c hc
        exact hnew e he (hec.trans hid)
      exact ⟨fun c hc _ hce => absurd hce (hnone c hc), fun c hc _ _ _ _ hce => absurd hce (hnone c hc)⟩
    · obtain ⟨e, he, hec⟩ := hn.known c hc
      exact ⟨e, List.mem_append_left _ he, hec⟩
  | claimFailed => exact hn
  | claim _ hclaim => exact hn.claim hi (claimBatch_ok hi.ids hclaim)
  | update hu =>
    refine ⟨fun e' he' htype => ?_, fun c hc => ?_⟩
    · obtain ⟨e, he, hc | rfl⟩ := mem_run hi.lease hu he'
      · rw [hc.eventType] at htype
        obtain ⟨f, hfam, hf⟩ := hc.family
        obtain rfl := Family.eventTypes_disjoint hf htype
        have hnot : st.isRelease = false := Bool.eq_false_iff.2 fun hr => hrelease hr hfam
        exact (hn.rows e he htype).congr hc.id (hc.counted hnot hredrive).ge
      · exact hn.rows _ he htype
    · obtain ⟨e, he, hec⟩ := hn.known c hc
      rcases permitted_of_exec hi h he with hmem | ⟨e', he', hp⟩
      · exact ⟨e, hmem, hec⟩
      · exact ⟨e', he', hp.id.trans hec⟩

/-- A claim of the family is given back. -/
theorem Numbering.release {key : ClaimKey} {retryInMs : ℕ} {errorCode : String} (hn : Numbering family s given)
    (hkey : key ∈ s.claims) (hgiven : key ∉ given) :
    Numbering family ⟨(Outbox.release family.eventTypes key retryInMs errorCode now).run s.rows, s.claims⟩ (given ++ [key]) where
  known c hc := by
    obtain ⟨e, he, hec⟩ := hn.known c hc
    cases hp : (Outbox.release family.eventTypes key retryInMs errorCode now).pred e
    · exact ⟨e, Table.mem_update_of_neg he hp, hec⟩
    · exact ⟨_, Table.mem_update_of_pos he hp, hec⟩
  rows e' he' htype := by
    obtain ⟨e, he, ⟨hp, rfl⟩ | ⟨-, rfl⟩⟩ := Table.mem_update.1 he'
    · simp only [Outbox.release, Bool.and_eq_true] at hp
      exact (hn.rows e he htype).release hkey hgiven hp.2 rfl rfl
    · exact (hn.rows _ he htype).mono

end Steps

end HotelBackend.Outbox
