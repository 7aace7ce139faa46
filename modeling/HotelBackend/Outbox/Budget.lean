import Mathlib.Data.List.Range
import HotelBackend.Outbox.Protocol

/-!
# The attempt budget

An attempt costs what it starts: the send of a mail, the run of an export. `starts` are
the claims under which one was started, since the last redrive of their event, and
`Budget` says that an event has started no more than it may, and is not tried again once
it has started as many.

The claim counts attempts, not starts, and does not look at the count. `Frugal` is what
the statements would have to make sure of; then `Budgeted` is an invariant.
-/

namespace HotelBackend.Outbox

open HotelBackend.Theory

/-! ### The property -/

/-- What was started for an event. -/
def startsOf (starts : List ClaimKey) (id : String) : List ClaimKey := starts.filter (·.id = id)

/-- The event keeps within its budget, and ends once the budget is spent. -/
structure Budget (max : ℕ) (starts : List ClaimKey) (e : OutboxEvent) : Prop where
  spent : (startsOf starts e.id).length ≤ max
  /-- It is not rescheduled. -/
  waiting : (startsOf starts e.id).length = max → e.status ≠ .pending
  /-- It is not claimed again: whoever holds it has started, and is at the last attempt. -/
  last : (startsOf starts e.id).length = max → e.status = .processing → ∃ c ∈ starts, c.holds e = true ∧ max ≤ c.attempt

/-- A statement of the family spends within the budget: an abandoned event is recovered only while
there is something left of its budget, and a claim that holds its event is handed back only if it
has started nothing. -/
def Frugal (family : Family) (max : ℕ) (starts : List ClaimKey) (s : State) (now : ℕ) : Statement → Prop
  | .claim family' batchSize leaseMs claimToken skipExpired skipDue => family' = family →
      ∀ e ∈ eligible s.rows ⟨family.eventTypes, batchSize, leaseMs, claimToken⟩ skipExpired skipDue now,
        e.status = .processing → (startsOf starts e.id).length < max
  | .release family' key .. => family' = family → (∃ e ∈ s.rows, e.eventType ∈ family.eventTypes ∧ key.holds e = true) → key ∉ starts
  | .deliveryRetry key .. => family = .notification → key.attempt < max
  | .exportRetry key .. => family = .roomExport → key.attempt < max
  | .lifecycleRetry .. => family ≠ .bookingLifecycle
  | .redrive _ => family ≠ .notification
  | _ => True

/-- A claim of the family recovers no event that has started as much as it may. -/
def sparesRecovered (family : Family) (max : ℕ) (starts : List ClaimKey) (rows : List OutboxEvent) (now : ℕ) : Statement → Bool
  | .claim family' batchSize leaseMs claimToken skipExpired skipDue => family' ≠ family ||
      (eligible rows ⟨family.eventTypes, batchSize, leaseMs, claimToken⟩ skipExpired skipDue now).all fun e =>
        e.status ≠ .processing || (startsOf starts e.id).length < max
  | _ => true

/-- With that of its claims, a family has to make sure of its releases and retries. -/
theorem frugal_of_sparesRecovered {family : Family} {max : ℕ} {starts : List ClaimKey} {s : State} {now : ℕ} {st : Statement}
    (h : sparesRecovered family max starts s.rows now st = true)
    (hrelease : ∀ key, st.isRelease = true → st.family = some family → st.key = some key →
      (∃ e ∈ s.rows, e.eventType ∈ family.eventTypes ∧ key.holds e = true) → key ∉ starts)
    (hown : st.family = some family → st.isRedrive = false ∧ (st.isRetry = true → ∃ key, st.key = some key ∧ key.attempt < max)) :
    Frugal family max starts s now st := by
  cases st with
  | claim family' =>
    rintro rfl e he hs
    simp only [sparesRecovered, Bool.or_eq_true, decide_eq_true_eq, List.all_eq_true] at h
    rcases h with h | h
    · exact absurd rfl h
    · exact (h e he).resolve_left fun hne => hne hs
  | release family' key =>
    rintro rfl heffect
    exact hrelease key rfl rfl rfl heffect
  | deliveryRetry key | exportRetry key =>
    rintro rfl
    obtain ⟨key', hkey, hlt⟩ := (hown rfl).2 rfl
    exact Option.some.inj hkey ▸ hlt
  | lifecycleRetry =>
    rintro rfl
    obtain ⟨key', hkey, -⟩ := (hown rfl).2 rfl
    cases hkey
  | redrive =>
    rintro rfl
    cases (hown rfl).1
  | _ => trivial

/-! ### The invariant -/

/-- A row and what was started for it. -/
structure Spending (max : ℕ) (starts : List ClaimKey) (e : OutboxEvent) : Prop where
  spent : (startsOf starts e.id).length ≤ max
  attempts : ∀ c ∈ startsOf starts e.id, 1 ≤ c.attempt ∧ c.attempt ≤ e.attempts
  distinct : ((startsOf starts e.id).map (·.attempt)).Nodup
  waiting : e.status = .pending → (startsOf starts e.id).length < max
  held : e.status = .processing → (∃ c ∈ starts, c.holds e = true) ∨
    ((startsOf starts e.id).length < max ∧ ∀ c ∈ startsOf starts e.id, c.attempt < e.attempts)

structure Budgeted (family : Family) (max : ℕ) (s : State) (starts : List ClaimKey) : Prop where
  rows : ∀ e ∈ s.rows, e.eventType ∈ family.eventTypes → Spending max starts e
  known : ∀ c ∈ starts, ∃ e ∈ s.rows, e.id = c.id

section Rows

variable {max : ℕ} {starts : List ClaimKey} {e : OutboxEvent} {c : ClaimKey}

theorem mem_startsOf {id : String} : c ∈ startsOf starts id ↔ c ∈ starts ∧ c.id = id := by
  simp only [startsOf, List.mem_filter, decide_eq_true_eq]

/-- Each start has an attempt of its own. -/
theorem Spending.length_le (h : Spending max starts e) : (startsOf starts e.id).length ≤ e.attempts := by
  have hsub : (startsOf starts e.id).map (·.attempt) ⊆ List.range' 1 e.attempts := by
    intro n hn
    obtain ⟨c, hc, rfl⟩ := List.mem_map.1 hn
    obtain ⟨hlow, hhigh⟩ := h.attempts c hc
    exact List.mem_range'_1.2 ⟨hlow, by omega⟩
  have := (List.subperm_of_subset h.distinct hsub).length_le
  rwa [List.length_map, List.length_range'] at this

theorem Spending.budget (h : Spending max starts e) : Budget max starts e where
  spent := h.spent
  waiting hmax hs := absurd (h.waiting hs) (hmax ▸ Nat.lt_irrefl _)
  last hmax hs := by
    rcases h.held hs with ⟨c, hc, hholds⟩ | ⟨hlt, -⟩
    · refine ⟨c, hc, hholds, ?_⟩
      rw [← (ClaimKey.holds_iff.1 hholds).2.2.2, ← hmax]
      exact h.length_le
    · exact absurd hlt (hmax ▸ Nat.lt_irrefl _)

/-- Nothing was started for it. -/
theorem Spending.of_none (hmax : 0 < max) (h : startsOf starts e.id = []) : Spending max starts e := by
  refine ⟨?_, ?_, ?_, fun _ => ?_, fun _ => .inr ⟨?_, ?_⟩⟩ <;> rw [h]
  · exact Nat.zero_le _
  · exact fun _ hc => absurd hc List.not_mem_nil
  · exact List.nodup_nil
  · exact hmax
  · exact hmax
  · exact fun _ hc => absurd hc List.not_mem_nil

/-- A claim leaves the next attempt to be started. -/
theorem Spending.claim {input : OutboxClaimInput} {ids : List String} {now : ℕ} (h : Spending max starts e)
    (hleft : (startsOf starts e.id).length < max) : Spending max starts ((claimUpdate input ids now).set e) where
  spent := h.spent
  attempts c hc := ⟨(h.attempts c hc).1, Nat.le_succ_of_le (h.attempts c hc).2⟩
  distinct := h.distinct
  waiting hs := by cases hs
  held _ := .inr ⟨hleft, fun c hc => Nat.lt_succ_of_le (h.attempts c hc).2⟩

/-- What starts is the attempt that holds the row, once. -/
theorem Spending.start (h : Spending max starts e) (hholds : c.holds e = true) (hnew : c ∉ starts) (hpos : 1 ≤ e.attempts) :
    Spending max (starts ++ [c]) e := by
  obtain ⟨hid, hs, -, hatt⟩ := ClaimKey.holds_iff.1 hholds
  have hof : startsOf (starts ++ [c]) e.id = startsOf starts e.id ++ [c] := by
    simp only [startsOf, List.filter_append, List.filter_cons, hid, decide_true, if_true, List.filter_nil]
  rcases h.held hs with ⟨d, hd, hdholds⟩ | ⟨hlt, hbelow⟩
  · exact absurd (ClaimKey.eq_of_holds hholds hdholds ▸ hd) hnew
  · refine ⟨?_, ?_, ?_, fun hp => ?_, fun _ => .inl ⟨c, List.mem_append_right _ List.mem_cons_self, hholds⟩⟩
    · rw [hof, List.length_append, List.length_singleton]
      exact hlt
    · rw [hof]
      exact List.forall_mem_append.2 ⟨h.attempts, List.forall_mem_singleton.2 ⟨hatt ▸ hpos, hatt.ge⟩⟩
    · rw [hof, List.map_append]
      refine List.Nodup.append h.distinct (List.nodup_singleton _) fun n hn hn' => ?_
      obtain ⟨d, hd, rfl⟩ := List.mem_map.1 hn
      exact (hbelow d hd).ne ((List.mem_singleton.1 hn').trans hatt.symm)
    · rw [hs] at hp
      cases hp

/-- The starts of other events do not matter. -/
theorem Spending.congr {starts' : List ClaimKey} (h : Spending max starts e) (hof : startsOf starts' e.id = startsOf starts e.id) :
    Spending max starts' e := by
  refine ⟨hof ▸ h.spent, hof ▸ h.attempts, hof ▸ h.distinct, hof ▸ h.waiting, fun hs => ?_⟩
  rw [hof]
  refine (h.held hs).imp_left ?_
  rintro ⟨c, hc, hholds⟩
  have hmem : c ∈ startsOf starts' e.id := hof ▸ mem_startsOf.2 ⟨hc, (ClaimKey.holds_iff.1 hholds).1.symm⟩
  exact ⟨c, (mem_startsOf.1 hmem).1, hholds⟩

/-- A statement that hands back only what has started nothing, and reschedules only below the last
attempt, keeps the row within its budget. -/
theorem Spending.change {st : Statement} {e' : OutboxEvent} (h : Spending max starts e) (hc : Change st e e')
    (hredrive : st.isRedrive = false) (hrelease : st.isRelease = true → ∀ key, st.key = some key → key ∉ starts)
    (hkey : st.isRelease = true → ∃ key, st.key = some key) (hretry : st.isRetry = true → e.attempts < max) :
    Spending max starts e' := by
  have hholds : ∀ c : ClaimKey, e'.status = .processing → c.holds e = true → c.holds e' = true := by
    intro c hs hholds
    obtain ⟨hid, -, ht, hatt⟩ := ClaimKey.holds_iff.1 hholds
    obtain ⟨-, ht', hatt'⟩ := hc.processing hs
    exact ClaimKey.holds_iff.2 ⟨hc.id.trans hid, hs, ht'.trans ht, hatt'.trans hatt⟩
  cases hrel : st.isRelease with
  | true =>
    obtain ⟨key, hk⟩ := hkey hrel
    have hkholds := hc.holds key hk
    rcases h.held (ClaimKey.holds_iff.1 hkholds).2.1 with ⟨d, hd, hdholds⟩ | ⟨hlt, hbelow⟩
    · exact absurd (ClaimKey.eq_of_holds hdholds hkholds ▸ hd) (hrelease hrel key hk)
    · refine ⟨?_, ?_, ?_, fun _ => ?_, fun hs => .inr ⟨?_, ?_⟩⟩ <;> rw [hc.id]
      · exact h.spent
      · intro c hcmem
        rw [hc.release hrel]
        exact ⟨(h.attempts c hcmem).1, Nat.le_sub_one_of_lt (hbelow c hcmem)⟩
      · exact h.distinct
      · exact hlt
      · exact hlt
      · rw [(hc.processing hs).2.2]
        exact hbelow
  | false =>
    have hatt := hc.counted hrel hredrive
    refine ⟨?_, ?_, ?_, fun hs => ?_, fun hs => ?_⟩ <;> rw [hc.id]
    · exact h.spent
    · exact hatt ▸ h.attempts
    · exact h.distinct
    · rcases hc.pending hs with hp | hp | hp
      · rw [hrel] at hp
        cases hp
      · exact h.length_le.trans_lt (hretry hp)
      · rw [hredrive] at hp
        cases hp
    · rw [hatt]
      exact (h.held (hc.processing hs).1).imp_left fun ⟨c, hcmem, hcholds⟩ => ⟨c, hcmem, hholds c hs hcholds⟩

end Rows

/-! ### Steps -/

section Steps

variable {family : Family} {max : ℕ} {s s' : State} {starts : List ClaimKey} {now : ℕ} {st : Statement}

/-- What a frugal statement makes sure of where it changes a row of the family. -/
theorem Frugal.spec (h : Frugal family max starts s now st) (hfam : st.family = some family) {e : OutboxEvent} (he : e ∈ s.rows)
    (htype : e.eventType ∈ family.eventTypes) : st.isRedrive = false ∧
    (st.isRelease = true → ∃ key, st.key = some key ∧ (key.holds e = true → key ∉ starts)) ∧
    (st.isRetry = true → ∃ key, st.key = some key ∧ key.attempt < max) := by
  cases st with
  | release _ key =>
    exact ⟨rfl, fun _ => ⟨key, rfl, fun hholds => h (Option.some.inj hfam) ⟨e, he, htype, hholds⟩⟩, fun hr => absurd hr Bool.false_ne_true⟩
  | deliveryRetry key | exportRetry key =>
    exact ⟨rfl, fun hr => absurd hr Bool.false_ne_true, fun _ => ⟨key, rfl, h (Option.some.inj hfam).symm⟩⟩
  | lifecycleRetry => exact absurd (Option.some.inj hfam).symm h
  | redrive => exact absurd (Option.some.inj hfam).symm h
  | _ => exact ⟨rfl, fun hr => absurd hr Bool.false_ne_true, fun hr => absurd hr Bool.false_ne_true⟩

/-- The rows stay, under their ids. -/
theorem mem_ids_of_exec (h : s.exec now st = some s') {id : String} (hid : ∃ e ∈ s.rows, e.id = id) (hi : Inv s) :
    ∃ e ∈ s'.rows, e.id = id := by
  obtain ⟨e, he, rfl⟩ := hid
  rcases permitted_of_exec hi h he with hmem | ⟨e', he', hp⟩
  · exact ⟨e, hmem, rfl⟩
  · exact ⟨e', he', hp.id⟩

/-- A frugal statement keeps the events of the family within their budget. -/
theorem Budgeted.exec (hb : Budgeted family max s starts) (hi : Inv s) (hmax : 0 < max) (hf : Frugal family max starts s now st)
    (h : s.exec now st = some s') : Budgeted family max s' starts where
  known c hc := mem_ids_of_exec h (hb.known c hc) hi
  rows := by
    cases effect_of_exec h with
    | insert hnew =>
      refine List.forall_mem_append.2 ⟨hb.rows, List.forall_mem_singleton.2 fun _ => Spending.of_none hmax ?_⟩
      refine List.filter_eq_nil_iff.2 fun c hc hid => ?_
      obtain ⟨e, he, hec⟩ := hb.known c hc
      exact hnew e he (hec.trans (of_decide_eq_true hid))
    | claimFailed => exact hb.rows
    | claim hfresh hclaim =>
      intro e' he' htype
      obtain ⟨e, he, ⟨rfl, -, hc, hel⟩ | rfl⟩ := (claimBatch_ok hi.ids hclaim).mem hi.ids he'
      · have hsp := hb.rows e he htype
        obtain rfl := Family.eventTypes_disjoint (type_of_eligible hel) htype
        refine hsp.claim ?_
        cases hs : e.status with
        | pending => exact hsp.waiting hs
        | processing =>
          have hid : e.id ∈ (eligible s.rows _ _ _ now).map (·.id) := claimBatch_ids hclaim ▸ List.mem_map.2 ⟨_, hc, rfl⟩
          obtain ⟨g, hg, hge⟩ := List.mem_map.1 hid
          obtain rfl := Table.UniqueBy.of_nodup hi.ids g (mem_eligible hg).1 e he hge
          exact hf rfl g hg hs
        | processed | failed => simp [isExpired, isDue, hs] at hel
      · exact hb.rows _ he htype
    | update hu =>
      intro e' he' htype
      obtain ⟨e, he, hc | rfl⟩ := mem_run hi.lease hu he'
      · rw [hc.eventType] at htype
        obtain ⟨f, hfam, hf'⟩ := hc.family
        obtain rfl := Family.eventTypes_disjoint hf' htype
        obtain ⟨hredrive, hrelease, hretry⟩ := hf.spec hfam he htype
        refine (hb.rows e he htype).change hc hredrive (fun hr key hk => ?_) (fun hr => ?_) fun hr => ?_
        · obtain ⟨key', hk', hnew⟩ := hrelease hr
          exact Option.some.inj (hk'.symm.trans hk) ▸ hnew (hc.holds key' hk')
        · obtain ⟨key', hk', -⟩ := hrelease hr
          exact ⟨key', hk'⟩
        · obtain ⟨key, hk, hlt⟩ := hretry hr
          exact (ClaimKey.holds_iff.1 (hc.holds key hk)).2.2.2 ▸ hlt
      · exact hb.rows _ he htype

/-- A claim that holds its row starts, once. -/
theorem Budgeted.start (hb : Budgeted family max s starts) (hi : Inv s) {c : ClaimKey} (hnew : c ∉ starts) {e : OutboxEvent}
    (he : e ∈ s.rows) (hholds : c.holds e = true) : Budgeted family max s (starts ++ [c]) where
  known := List.forall_mem_append.2 ⟨hb.known, List.forall_mem_singleton.2 ⟨e, he, (ClaimKey.holds_iff.1 hholds).1⟩⟩
  rows g hg htype := by
    by_cases hid : g.id = c.id
    · obtain rfl := Table.UniqueBy.of_nodup hi.ids g hg e he (hid.trans (ClaimKey.holds_iff.1 hholds).1.symm)
      obtain ⟨d, hd, hdholds⟩ := hi.held g hg (ClaimKey.holds_iff.1 hholds).2.1
      exact (hb.rows g hg htype).start hholds hnew ((ClaimKey.holds_iff.1 hdholds).2.2.2 ▸ hi.positive d hd)
    · refine (hb.rows g hg htype).congr ?_
      rw [startsOf, List.filter_append, List.filter_eq_nil_iff.2 (List.forall_mem_singleton.2 ?_), List.append_nil, startsOf]
      simpa using Ne.symm hid

/-- A redrive gives a mail event its budget again. -/
theorem Budgeted.redrive (hb : Budgeted .notification max s starts) (hi : Inv s) (hmax : 0 < max) {id : String}
    (h : s.exec now (.redrive id) = some s') : Budgeted .notification max s' (starts.filter (·.id ≠ id)) where
  known c hc := mem_ids_of_exec h (hb.known c (List.mem_filter.1 hc).1) hi
  rows e' he' htype := by
    have hnone : ∀ e : OutboxEvent, e.id = id → startsOf (starts.filter (·.id ≠ id)) e.id = [] := by
      rintro e rfl
      refine List.filter_eq_nil_iff.2 fun c hc hid => ?_
      exact of_decide_eq_true (List.mem_filter.1 hc).2 (of_decide_eq_true hid)
    obtain rfl := Option.some.inj h
    obtain ⟨e, he, ⟨hp, rfl⟩ | ⟨-, rfl⟩⟩ := Table.mem_update.1 he'
    · simp only [NotificationRedrive.resetEvent, Bool.and_eq_true, decide_eq_true_eq] at hp
      exact Spending.of_none hmax (hnone _ hp.1.1)
    · by_cases hid : e.id = id
      · exact Spending.of_none hmax (hnone _ hid)
      · refine (hb.rows _ he htype).congr ?_
        rw [startsOf, List.filter_filter, startsOf]
        refine List.filter_congr fun c _ => ?_
        by_cases hc : c.id = e.id
        · simp [hc, hid]
        · simp [hc]

end Steps

end HotelBackend.Outbox
