import HotelBackend.Retention.Election

/-!
# What is charged to a window

`recover` raises the attempts of a window unless the attempt before stopped with a
continuation code and had removed rows; `fail` closes a window at the last attempt,
whatever the code. An attempt that has come to nothing is a wasted one: `wastedBefore`
counts them, and the attempts of an open window are at most one more.

A replica calls `fail` as `runTask` does (`ofRunTask`), and the database's clock does not
run backwards.
-/

namespace HotelBackend.Retention

open HotelBackend.Theory
open ScheduledRunRepository

/-! ### Attempts -/

/-- A stop with a continuation code, after rows were removed. -/
def Recorded.isContinuation (x : Recorded) : Bool :=
  x.errorCode.any (· ∈ retentionContinuationCodes) && x.counts.anyPositive

/-- The attempt failed or removed nothing, or its lease ran out before it recorded anything. -/
def wasted (records : List Recorded) (claimToken : String) : Bool :=
  match records.find? (·.claim.claimToken = claimToken) with
  | none => true
  | some x => x.errorCode.isSome && !x.isContinuation

/-- The wasted attempts of a window. -/
def wastedAttempts (takes : List ((RetentionTaskName × ℕ) × String)) (records : List Recorded) (window : RetentionTaskName × ℕ) : ℕ :=
  takes.countP fun x => x.1 = window && wasted records x.2

/-- The wasted attempts of a window other than the one with this token. -/
def wastedBefore (takes : List ((RetentionTaskName × ℕ) × String)) (records : List Recorded) (window : RetentionTaskName × ℕ)
    (claimToken : String) : ℕ :=
  takes.countP fun x => (x.1 = window && wasted records x.2) && x.2 ≠ claimToken

section Counting

variable {takes takes' : List ((RetentionTaskName × ℕ) × String)} {records : List Recorded} {x : Recorded}
  {window : RetentionTaskName × ℕ} {t : String}

/-- The record of another attempt does not matter. -/
theorem find?_append_of_ne (h : x.claim.claimToken ≠ t) :
    (records ++ [x]).find? (·.claim.claimToken = t) = records.find? (·.claim.claimToken = t) := by
  rw [List.find?_append, List.find?_cons_of_neg (by simpa using h), List.find?_nil, Option.or_none]

theorem wasted_append_of_ne (h : x.claim.claimToken ≠ t) : wasted (records ++ [x]) t = wasted records t := by
  rw [wasted, find?_append_of_ne h, wasted]

theorem wastedBefore_le_append (y : (RetentionTaskName × ℕ) × String) :
    wastedBefore takes records window t ≤ wastedBefore (takes ++ [y]) records window t := by
  rw [wastedBefore, wastedBefore, List.countP_append]
  exact Nat.le_add_right _ _

theorem wastedAttempts_le_append (y : (RetentionTaskName × ℕ) × String) :
    wastedAttempts takes records window ≤ wastedAttempts (takes ++ [y]) records window := by
  rw [wastedAttempts, wastedAttempts, List.countP_append]
  exact Nat.le_add_right _ _

/-- A token that has taken over nothing leaves out nothing. -/
theorem wastedBefore_of_new (h : ∀ y ∈ takes, y.2 ≠ t) : wastedBefore takes records window t = wastedAttempts takes records window := by
  refine List.countP_congr fun y hy => ?_
  rw [Bool.and_eq_true, decide_eq_true_eq]
  exact and_iff_left (h y hy)

/-- The attempt with the token is one of them, if it was wasted. -/
theorem wastedBefore_lt (h : (window, t) ∈ takes) (hwasted : wasted records t = true) :
    wastedBefore takes records window t < wastedAttempts takes records window := by
  have hsplit := List.countP_eq_countP_filter_add takes (fun y => decide (y.1 = window) && wasted records y.2) fun y => decide (y.2 ≠ t)
  have hfirst : (takes.filter fun y => decide (y.2 ≠ t)).countP (fun y => decide (y.1 = window) && wasted records y.2) =
      wastedBefore takes records window t := List.countP_filter
  have hrest : 0 < (takes.filter fun y => !decide (y.2 ≠ t)).countP fun y => decide (y.1 = window) && wasted records y.2 :=
    List.countP_pos_iff.2 ⟨(window, t), List.mem_filter.2 ⟨h, by simp⟩, by simp [hwasted]⟩
  have htotal : wastedAttempts takes records window = takes.countP fun y => decide (y.1 = window) && wasted records y.2 := rfl
  omega

theorem wastedBefore_le : wastedBefore takes records window t ≤ wastedAttempts takes records window :=
  List.countP_mono_left fun _ _ h => (Bool.and_eq_true_iff.1 h).1

/-- A record does not change what is counted, if no attempt that is counted made it. -/
theorem wastedBefore_append (h : ∀ y ∈ takes, y.1 = window → y.2 ≠ t → x.claim.claimToken ≠ y.2) :
    wastedBefore takes (records ++ [x]) window t = wastedBefore takes records window t := by
  refine List.countP_congr fun y hy => ?_
  simp only [Bool.and_eq_true, decide_eq_true_eq, and_assoc]
  refine and_congr_right fun hw => ?_
  constructor
  · rintro ⟨hwasted, ht⟩
    exact ⟨wasted_append_of_ne (h y hy hw ht) ▸ hwasted, ht⟩
  · rintro ⟨hwasted, ht⟩
    exact ⟨(wasted_append_of_ne (h y hy hw ht)).symm ▸ hwasted, ht⟩

theorem wastedAttempts_append (h : ∀ y ∈ takes, y.1 = window → x.claim.claimToken ≠ y.2) :
    wastedAttempts takes (records ++ [x]) window = wastedAttempts takes records window := by
  refine List.countP_congr fun y hy => ?_
  simp only [Bool.and_eq_true, decide_eq_true_eq]
  exact and_congr_right fun hw => by rw [wasted_append_of_ne (h y hy hw)]

end Counting

/-! ### Runs -/

/-- The codes `runTask` passes to `fail`. -/
def runTaskCodes : List RetentionErrorCode := [.taskFailed, .statementTimeout, .shutdown, .budgetSpent, .storageIncomplete]

/-- `runTask` calls `fail` with a failure that may be retried. -/
def LedgerAction.ofRunTask : LedgerAction → Bool
  | .fail _ failure _ _ => failure.retryable && failure.errorCode ∈ runTaskCodes
  | _ => true

/-- An attempt that stops with a continuation code after it removed rows is not the last one. -/
def LedgerAction.sparesLast (maxAttempts : ℕ) (a : LedgerAction) : Bool :=
  a.written.all fun x => !x.isContinuation || x.claim.attempt < maxAttempts

namespace Ledger

/-- The clock does not run backwards, the call is one of `runTask`, and no continuation stops at the last attempt. -/
def Continues (maxAttempts : ℕ) (s : Ledger) (x : ℕ × LedgerAction) : Prop :=
  s.clock ≤ x.1 ∧ x.2.ofRunTask = true ∧ x.2.sparesLast maxAttempts = true

instance (maxAttempts : ℕ) (s : Ledger) (x : ℕ × LedgerAction) : Decidable (s.Continues maxAttempts x) :=
  inferInstanceAs (Decidable (_ ∧ _ ∧ _))

/-- How the attempt that holds an open row has stopped, if it has. -/
structure Stopped (maxAttempts : ℕ) (s : Ledger) (r : ScheduledRun) (x : Recorded) : Prop where
  code : x.errorCode.isSome = true ∧ r.lastErrorCode = x.errorCode
  progress : x.counts.anyPositive = true → r.progressedAt.any (r.startedAt ≤ ·) = true
  expired : r.expired s.clock = true
  left : r.attempts < maxAttempts

/-- An open row and the token that holds it. -/
structure Holding (maxAttempts : ℕ) (s : Ledger) (r : ScheduledRun) (t : String) : Prop where
  started : r.startedAt ≤ s.clock
  budget : r.attempts ≤ 1 + wastedBefore s.takes s.records r.window t
  running : s.records.find? (·.claim.claimToken = t) = none → r.lastErrorCode = none
  stopped : ∀ x, s.records.find? (·.claim.claimToken = t) = some x → Stopped maxAttempts s r x

/-- Open windows have been charged for wasted attempts only, and closed ones have used them up. -/
structure Charged (maxAttempts : ℕ) (s : Ledger) : Prop where
  agreed : s.Agreed maxAttempts
  granted : ∀ x ∈ s.records, s.Granted x.claim
  once : (s.records.map (·.claim.claimToken)).Nodup
  fresh : ∀ c ∈ s.calls, c.phase = .recovering → ∀ x ∈ s.takes, x.2 ≠ c.claimToken
  numbers : ∀ c ∈ s.calls, ∀ claim, c.phase = .returned (.claimed claim) → ∀ r ∈ s.rows, r.lockedBy = some c.claimToken →
    claim.attempt = r.attempts
  holding : ∀ r ∈ s.rows, r.status = .claimed → ∃ t, r.lockedBy = some t ∧ Holding maxAttempts s r t
  closed : ∀ r ∈ s.rows, r.status = .failed → r.lastErrorCode = some .stopped ∨ maxAttempts ≤ wastedAttempts s.takes s.records r.window

section Frame

variable {maxAttempts : ℕ} {s s' : Ledger} {r : ScheduledRun} {t : String}

theorem expired_mono {now now' : ℕ} (hle : now ≤ now') (h : r.expired now = true) : r.expired now' = true := by
  simp only [ScheduledRun.expired, Option.any_eq_true, decide_eq_true_eq] at h ⊢
  obtain ⟨e, he, hlow⟩ := h
  exact ⟨e, he, hlow.trans hle⟩

theorem not_live_of_expired {now : ℕ} (h : r.expired now = true) : r.live now = false := by
  simp only [ScheduledRun.expired, Option.any_eq_true, decide_eq_true_eq] at h
  obtain ⟨e, he, hle⟩ := h
  simp [ScheduledRun.live, he, hle]

/-- What other attempts do leaves a holder as it is. -/
theorem Holding.frame (h : Holding maxAttempts s r t) (hclock : s.clock ≤ s'.clock)
    (hbefore : wastedBefore s.takes s.records r.window t ≤ wastedBefore s'.takes s'.records r.window t)
    (hfind : s'.records.find? (·.claim.claimToken = t) = s.records.find? (·.claim.claimToken = t)) : Holding maxAttempts s' r t where
  started := h.started.trans hclock
  budget := h.budget.trans (Nat.add_le_add_left hbefore 1)
  running hnone := h.running (hfind ▸ hnone)
  stopped x hx :=
    have hstop := h.stopped x (hfind ▸ hx)
    { code := hstop.code, progress := hstop.progress, expired := expired_mono hclock hstop.expired, left := hstop.left }

/-- A holder that is not charged for its stop has not wasted its attempt, and one that is has. -/
theorem Holding.wasted_of_charge (h : Holding maxAttempts s r t) (hcharge : continued r = false) : wasted s.records t = true := by
  unfold wasted
  split
  case h_1 => rfl
  case h_2 x hx =>
    obtain ⟨⟨hsome, hcode⟩, hprogress, -, -⟩ := h.stopped x hx
    rw [hsome, Bool.true_and, Bool.not_eq_true', Recorded.isContinuation, ← hcode]
    rw [continued, Bool.and_eq_false_iff] at hcharge
    rcases hcharge with hcharge | hcharge
    · rw [hcharge, Bool.false_and]
    · cases hany : x.counts.anyPositive with
      | false => rw [Bool.and_false]
      | true =>
        rw [hprogress hany] at hcharge
        cases hcharge

/-- A continuation is not charged. -/
theorem Holding.continued_of_stop (h : Holding maxAttempts s r t) {x : Recorded}
    (hx : s.records.find? (·.claim.claimToken = t) = some x) (hcont : x.isContinuation = true) : continued r = true := by
  obtain ⟨⟨-, hcode⟩, hprogress, -, -⟩ := h.stopped x hx
  rw [Recorded.isContinuation, Bool.and_eq_true, ← hcode] at hcont
  rw [continued, hcont.1, hprogress hcont.2, Bool.and_true]

end Frame

section Steps

variable {maxAttempts now : ℕ} {s s' : Ledger} {a : LedgerAction} {c d : ClaimCall} {phase : ClaimPhase}

theorem Agreed.mem_setPhase (h : s.Agreed maxAttempts) (hc : c ∈ s.calls) (hd : d ∈ s.setPhase c phase) :
    (d ∈ s.calls ∧ d.claimToken ≠ c.claimToken) ∨ d = { c with phase := phase } := by
  obtain ⟨e, he, rfl⟩ := List.mem_map.1 hd
  split
  case isTrue ht => exact .inr (by rw [h.calls.eq_of_token he hc ht])
  case isFalse ht => exact .inl ⟨he, ht⟩

theorem mem_setPhase_of_ne (hd : d ∈ s.calls) (hne : d.claimToken ≠ c.claimToken) : d ∈ s.setPhase c phase :=
  List.mem_map.2 ⟨d, hd, if_neg hne⟩

/-- A call that goes on had not returned, so what was granted stays granted. -/
theorem Agreed.granted_setPhase (h : s.Agreed maxAttempts) (hc : c ∈ s.calls) (hopen : ∀ result, c.phase ≠ .returned result)
    {claim : ScheduledRunClaim} (hg : s.Granted claim) : ∃ d ∈ s.setPhase c phase, d.phase = .returned (.claimed claim) := by
  obtain ⟨e, he, hphase⟩ := hg
  refine ⟨e, mem_setPhase_of_ne he fun ht => ?_, hphase⟩
  obtain rfl := h.calls.eq_of_token he hc ht
  exact hopen _ hphase

/-- The attempts of the rows that the granted claims hold are those they were granted with. -/
theorem numbers_setPhase (h : Charged maxAttempts s) (hc : c ∈ s.calls)
    (hown : ∀ claim, phase = .returned (.claimed claim) → ∀ r ∈ s.rows, r.lockedBy = some c.claimToken → claim.attempt = r.attempts) :
    ∀ d ∈ s.setPhase c phase, ∀ claim, d.phase = .returned (.claimed claim) → ∀ r ∈ s.rows, r.lockedBy = some d.claimToken →
      claim.attempt = r.attempts := by
  intro d hd claim hphase
  rcases h.agreed.mem_setPhase hc hd with ⟨hold, -⟩ | rfl
  · exact h.numbers d hold claim hphase
  · exact hown claim hphase

theorem fresh_setPhase (h : Charged maxAttempts s) (hc : c ∈ s.calls) (hphase : phase ≠ .recovering) :
    ∀ d ∈ s.setPhase c phase, d.phase = .recovering → d ∈ s.calls ∧ d.claimToken ≠ c.claimToken := by
  intro d hd hrec
  rcases h.agreed.mem_setPhase hc hd with hold | rfl
  · exact hold
  · exact absurd hrec hphase

/-- A token that no call has yet has taken over nothing. -/
theorem Agreed.new_token (h : s.Agreed maxAttempts) {t : String} (hnew : ∀ d ∈ s.calls, d.claimToken ≠ t) : ∀ x ∈ s.takes, x.2 ≠ t := by
  intro x hx ht
  obtain ⟨d, hd, htoken, -⟩ := h.calls.takers x hx
  exact hnew d hd (htoken.trans ht)

/-- A token that was not granted has recorded nothing. -/
theorem Charged.find?_eq_none (h : Charged maxAttempts s) {t : String}
    (hnew : ∀ d ∈ s.calls, ∀ claim, d.phase = .returned (.claimed claim) → d.claimToken ≠ t) :
    s.records.find? (·.claim.claimToken = t) = none := by
  refine List.find?_eq_none.2 fun x hx ht => ?_
  obtain ⟨d, hd, hphase⟩ := h.granted x hx
  exact hnew d hd _ hphase ((h.agreed.calls.granted d hd _ hphase).1.symm.trans (of_decide_eq_true ht))

/-- A step that changes no row and records nothing. -/
theorem Charged.quiet (h : Charged maxAttempts s) {calls : List ClaimCall} (hclock : s.clock ≤ now)
    (hagreed : Agreed maxAttempts { s with calls := calls, clock := now })
    (hgranted : ∀ claim, s.Granted claim → Granted { s with calls := calls, clock := now } claim)
    (hfresh : ∀ c ∈ calls, c.phase = .recovering → ∀ x ∈ s.takes, x.2 ≠ c.claimToken)
    (hnumbers : ∀ c ∈ calls, ∀ claim, c.phase = .returned (.claimed claim) → ∀ r ∈ s.rows, r.lockedBy = some c.claimToken →
      claim.attempt = r.attempts) :
    Charged maxAttempts { s with calls := calls, clock := now } where
  agreed := hagreed
  granted x hx := hgranted _ (h.granted x hx)
  once := h.once
  fresh := hfresh
  numbers := hnumbers
  holding r hr hopen := by
    obtain ⟨t, ht, hold⟩ := h.holding r hr hopen
    exact ⟨t, ht, hold.frame hclock le_rfl rfl⟩
  closed := h.closed

/-- Rows are updated: each open one that was not is held as before, and each that was, as the statement leaves it. -/
theorem Charged.update_holding (h : Charged maxAttempts s) {p : ScheduledRun → Bool} {f : ScheduledRun → ScheduledRun}
    (hother : ∀ r ∈ s.rows, p r = false → ∀ t, r.lockedBy = some t → Holding maxAttempts s r t → Holding maxAttempts s' r t)
    (hmatched : ∀ r ∈ s.rows, p r = true → (f r).status = .claimed → ∃ t, (f r).lockedBy = some t ∧ Holding maxAttempts s' (f r) t) :
    ∀ r ∈ Table.update s.rows p f, r.status = .claimed → ∃ t, r.lockedBy = some t ∧ Holding maxAttempts s' r t := by
  intro r' hr' hopen
  obtain ⟨r, hr, ⟨hp, rfl⟩ | ⟨hp, rfl⟩⟩ := Table.mem_update.1 hr'
  · exact hmatched r hr hp hopen
  · obtain ⟨t, ht, hold⟩ := h.holding r hr hopen
    exact ⟨t, ht, hother r hr hp t ht hold⟩

theorem Charged.update_closed (h : Charged maxAttempts s) {p : ScheduledRun → Bool} {f : ScheduledRun → ScheduledRun}
    (hother : ∀ r ∈ s.rows, p r = false → wastedAttempts s.takes s.records r.window ≤ wastedAttempts s'.takes s'.records r.window)
    (hmatched : ∀ r ∈ s.rows, p r = true → (f r).status = .failed →
      (f r).lastErrorCode = some .stopped ∨ maxAttempts ≤ wastedAttempts s'.takes s'.records (f r).window) :
    ∀ r ∈ Table.update s.rows p f, r.status = .failed →
      r.lastErrorCode = some .stopped ∨ maxAttempts ≤ wastedAttempts s'.takes s'.records r.window := by
  intro r' hr' hfailed
  obtain ⟨r, hr, ⟨hp, rfl⟩ | ⟨hp, rfl⟩⟩ := Table.mem_update.1 hr'
  · exact hmatched r hr hp hfailed
  · exact (h.closed r hr hfailed).imp_right fun hle => hle.trans (hother r hr hp)

/-- An update that closes rows or leaves their holder and attempts. -/
theorem numbers_update {rows : List ScheduledRun} {calls : List ClaimCall} {p : ScheduledRun → Bool} {f : ScheduledRun → ScheduledRun}
    (h : ∀ c ∈ calls, ∀ claim, c.phase = .returned (.claimed claim) → ∀ r ∈ rows, r.lockedBy = some c.claimToken → claim.attempt = r.attempts)
    (hf : ∀ r ∈ rows, p r = true → ∀ c ∈ calls, ∀ claim, c.phase = .returned (.claimed claim) → (f r).lockedBy = some c.claimToken →
      r.lockedBy = some c.claimToken ∧ (f r).attempts = r.attempts) :
    ∀ c ∈ calls, ∀ claim, c.phase = .returned (.claimed claim) → ∀ r ∈ Table.update rows p f, r.lockedBy = some c.claimToken →
      claim.attempt = r.attempts := by
  intro c hc claim hphase r' hr' hheld
  obtain ⟨r, hr, ⟨hp, rfl⟩ | ⟨-, rfl⟩⟩ := Table.mem_update.1 hr'
  · obtain ⟨hsame, hattempts⟩ := hf r hr hp c hc claim hphase hheld
    exact hattempts ▸ h c hc claim hphase r hr hsame
  · exact h c hc claim hphase r hr hheld

/-- An open row that no statement touches, when another token takes over a window. -/
theorem Holding.of_take {t : String} {r : ScheduledRun} (h : Holding maxAttempts s r t) (hclock : s.clock ≤ now)
    (y : (RetentionTaskName × ℕ) × String) {rows : List ScheduledRun} {calls : List ClaimCall} :
    Holding maxAttempts { s with rows := rows, calls := calls, takes := s.takes ++ [y], clock := now } r t :=
  h.frame hclock (wastedBefore_le_append y) rfl

/-- A window that is claimed for the first time. -/
theorem Charged.win (h : Charged maxAttempts s) (hclock : s.clock ≤ now) {id : String}
    (hnew : ∀ d ∈ s.calls, d.claimToken ≠ c.claimToken) {claim : ScheduledRunClaim} (hattempt : claim.attempt = 1)
    (hagreed : Agreed maxAttempts
      { s with
        rows := s.rows ++ [insertedRun c.taskName c.scheduledFor c.leaseMs id c.claimToken now]
        calls := s.calls ++ [{ c with phase := .returned (.claimed claim) }]
        takes := s.takes ++ [(c.window, c.claimToken)]
        clock := now }) :
    Charged maxAttempts
      { s with
        rows := s.rows ++ [insertedRun c.taskName c.scheduledFor c.leaseMs id c.claimToken now]
        calls := s.calls ++ [{ c with phase := .returned (.claimed claim) }]
        takes := s.takes ++ [(c.window, c.claimToken)]
        clock := now } where
  agreed := hagreed
  granted x hx := by
    obtain ⟨d, hd, hphase⟩ := h.granted x hx
    exact ⟨d, List.mem_append_left _ hd, hphase⟩
  once := h.once
  fresh := by
    refine List.forall_mem_append.2 ⟨fun d hd hphase => ?_, List.forall_mem_singleton.2 fun hphase => by cases hphase⟩
    exact List.forall_mem_append.2 ⟨h.fresh d hd hphase, List.forall_mem_singleton.2 (hnew d hd).symm⟩
  numbers := by
    refine List.forall_mem_append.2 ⟨fun d hd claim' hphase => ?_, List.forall_mem_singleton.2 fun claim' hphase => ?_⟩
    · refine List.forall_mem_append.2 ⟨h.numbers d hd claim' hphase, List.forall_mem_singleton.2 fun hheld => ?_⟩
      exact absurd (Option.some.inj hheld).symm (hnew d hd)
    · obtain rfl := ScheduledRunClaimResult.claimed.inj (ClaimPhase.returned.inj hphase)
      refine List.forall_mem_append.2 ⟨fun r hr hheld => ?_, List.forall_mem_singleton.2 fun _ => hattempt⟩
      exact absurd rfl (h.agreed.new_token hnew _ (h.agreed.rows.holders r hr _ hheld))
  holding := by
    refine List.forall_mem_append.2 ⟨fun r hr hopen => ?_, List.forall_mem_singleton.2 fun _ => ⟨c.claimToken, rfl, ?_⟩⟩
    · obtain ⟨t, ht, hold⟩ := h.holding r hr hopen
      exact ⟨t, ht, hold.of_take hclock _⟩
    · have hnone := h.find?_eq_none fun d hd _ _ => hnew d hd
      refine ⟨le_rfl, Nat.le_add_right _ _, fun _ => rfl, fun x hx => ?_⟩
      cases hnone.symm.trans hx
  closed := by
    refine List.forall_mem_append.2 ⟨fun r hr hfailed => ?_, List.forall_mem_singleton.2 fun hfailed => by cases hfailed⟩
    exact (h.closed r hr hfailed).imp_right fun hle => hle.trans (wastedAttempts_le_append _)

/-- A window that is taken over. -/
theorem Charged.recover (h : Charged maxAttempts s) (hclock : s.clock ≤ now) (hc : c ∈ s.calls) (hphase : c.phase = .recovering)
    {p : ScheduledRun → Bool} (hp : ∀ r, p r = true → r.window = c.window ∧ r.status = .claimed)
    (hagreed : Agreed maxAttempts
      { s with
        rows := Table.update s.rows p (recoverSet c.claimToken c.leaseMs now)
        calls := s.setPhase c .readingBack
        takes := s.takes ++ [(c.window, c.claimToken)]
        clock := now }) :
    Charged maxAttempts
      { s with
        rows := Table.update s.rows p (recoverSet c.claimToken c.leaseMs now)
        calls := s.setPhase c .readingBack
        takes := s.takes ++ [(c.window, c.claimToken)]
        clock := now } where
  agreed := hagreed
  granted x hx := h.agreed.granted_setPhase hc (by simp [hphase]) (h.granted x hx)
  once := h.once
  fresh d hd hrec := by
    obtain ⟨hold, hne⟩ := fresh_setPhase h hc (by simp : ClaimPhase.readingBack ≠ .recovering) d hd hrec
    exact List.forall_mem_append.2 ⟨h.fresh d hold hrec, List.forall_mem_singleton.2 (Ne.symm hne)⟩
  numbers := by
    refine numbers_update (numbers_setPhase h hc fun _ hclaim => by cases hclaim) fun r hr _ d hd claim hd' hheld => ?_
    -- the token is that of a call that has not returned
    rcases h.agreed.mem_setPhase hc hd with ⟨-, hne⟩ | rfl
    · exact absurd (Option.some.inj hheld).symm hne
    · cases hd'
  holding := by
    refine h.update_holding (fun r _ _ t _ hold => hold.of_take hclock _) fun r hr hpr _ => ⟨c.claimToken, rfl, ?_⟩
    obtain ⟨hwindow, hopen⟩ := hp r hpr
    obtain ⟨t, ht, hold⟩ := h.holding r hr hopen
    have hnone : s.records.find? (·.claim.claimToken = c.claimToken) = none :=
      h.find?_eq_none fun d hd claim hd' htoken => by
        obtain rfl := h.agreed.calls.eq_of_token hd hc htoken
        rw [hphase] at hd'
        cases hd'
    refine ⟨le_rfl, ?_, fun _ => rfl, fun x hx => by cases hnone.symm.trans hx⟩
    have hbefore : wastedBefore (s.takes ++ [(c.window, c.claimToken)]) s.records r.window c.claimToken =
        wastedAttempts s.takes s.records r.window := by
      rw [wastedBefore, List.countP_append, List.countP_singleton, if_neg (by simp), Nat.add_zero]
      exact wastedBefore_of_new (h.fresh c hc hphase)
    simp only [recoverSet]
    refine le_trans ?_ (Nat.add_le_add_left hbefore.ge 1)
    have hbudget := hold.budget
    cases hcharge : continued r with
    | true =>
      have hle : wastedBefore s.takes s.records r.window t ≤ wastedAttempts s.takes s.records r.window := wastedBefore_le
      rw [if_pos rfl]
      omega
    | false =>
      have hlt := wastedBefore_lt (h.agreed.rows.holders r hr t ht) (hold.wasted_of_charge hcharge)
      rw [if_neg Bool.false_ne_true]
      omega
  closed := h.update_closed (fun _ _ _ => wastedAttempts_le_append _) fun r _ hpr hfailed => by
    have hopen : (recoverSet c.claimToken c.leaseMs now r).status = .claimed := (hp r hpr).2
    rw [hopen] at hfailed
    cases hfailed

/-- Windows that are closed without a record: their holders are gone. -/
theorem Charged.close (h : Charged maxAttempts s) (hclock : s.clock ≤ now) {calls : List ClaimCall} {p : ScheduledRun → Bool}
    {errorCode : RetentionErrorCode}
    (hagreed : Agreed maxAttempts { s with rows := Table.update s.rows p (closeSet errorCode now), calls := calls, clock := now })
    (hgranted : ∀ claim, s.Granted claim → ∃ c ∈ calls, c.phase = .returned (.claimed claim))
    (hfresh : ∀ c ∈ calls, c.phase = .recovering → ∀ x ∈ s.takes, x.2 ≠ c.claimToken)
    (hnumbers : ∀ c ∈ calls, ∀ claim, c.phase = .returned (.claimed claim) → ∀ r ∈ s.rows, r.lockedBy = some c.claimToken →
      claim.attempt = r.attempts)
    (hspent : ∀ r ∈ s.rows, p r = true → errorCode = .stopped ∨ maxAttempts ≤ wastedAttempts s.takes s.records r.window) :
    Charged maxAttempts { s with rows := Table.update s.rows p (closeSet errorCode now), calls := calls, clock := now } where
  agreed := hagreed
  granted x hx := hgranted _ (h.granted x hx)
  once := h.once
  fresh := hfresh
  numbers := numbers_update hnumbers fun r _ _ c _ _ _ hheld => by cases hheld
  holding := h.update_holding (fun r _ _ t _ hold => hold.frame hclock le_rfl rfl) fun r _ _ hopen => by cases hopen
  closed := h.update_closed (fun _ _ _ => le_rfl) fun r hr hpr _ => (hspent r hr hpr).imp_left fun hcode => congrArg some hcode

/-- Who may write holds the one row of the window, and has not stopped before. -/
theorem Charged.writer (h : Charged maxAttempts s) (hclock : s.clock ≤ now) {claim : ScheduledRunClaim} (hgranted : s.Granted claim)
    {r : ScheduledRun} (hr : r ∈ s.rows) (hheld : heldBy claim.claimToken now r = true) :
    r.lockedBy = some claim.claimToken ∧ Holding maxAttempts s r claim.claimToken ∧ claim.attempt = r.attempts ∧
      s.records.find? (·.claim.claimToken = claim.claimToken) = none := by
  simp only [heldBy, Bool.and_eq_true, decide_eq_true_eq] at hheld
  obtain ⟨⟨htoken, hopen⟩, hlive⟩ := hheld
  obtain ⟨t, ht, hold⟩ := h.holding r hr hopen
  obtain rfl := Option.some.inj (htoken.symm.trans ht)
  obtain ⟨c, hc, hphase⟩ := hgranted
  refine ⟨htoken, hold, h.numbers c hc claim hphase r hr ((h.agreed.calls.granted c hc claim hphase).1 ▸ htoken), ?_⟩
  cases hfind : s.records.find? (·.claim.claimToken = claim.claimToken) with
  | none => rfl
  | some x =>
    have hexpired := expired_mono hclock (hold.stopped x hfind).expired
    rw [not_live_of_expired hexpired] at hlive
    cases hlive

/-- The attempts that are counted for another window did not make the record. -/
theorem Charged.other_window (h : Charged maxAttempts s) {claim : ScheduledRunClaim} (hgranted : s.Granted claim)
    {y : (RetentionTaskName × ℕ) × String} (hy : y ∈ s.takes) (hne : y.1 ≠ claim.window) : claim.claimToken ≠ y.2 := by
  intro htoken
  obtain ⟨c, hc, hphase⟩ := hgranted
  obtain ⟨hown, hwindow⟩ := h.agreed.calls.granted c hc claim hphase
  obtain ⟨d, hd, hdtoken, hdwindow⟩ := h.agreed.calls.takers y hy
  obtain rfl := h.agreed.calls.eq_of_token hc hd (hown.symm.trans (htoken.trans hdtoken.symm))
  exact hne (hdwindow.symm.trans hwindow.symm)

/-- The write of the attempt that holds the window. -/
theorem Charged.record (h : Charged maxAttempts s) (hclock : s.clock ≤ now) (hrun : a.ofRunTask = true)
    (hspares : a.sparesLast maxAttempts = true) {entry : Recorded} (ha : a.written = some entry) (hgranted : s.Granted entry.claim)
    (hheld : ∃ r ∈ s.rows, heldBy entry.claim.claimToken now r = true)
    (hagreed : Agreed maxAttempts
      { s with
        rows := Table.update s.rows (heldBy entry.claim.claimToken now) fun r => a.close maxAttempts now (counted entry.counts now r)
        records := s.records ++ [entry]
        clock := now }) :
    Charged maxAttempts
      { s with
        rows := Table.update s.rows (heldBy entry.claim.claimToken now) fun r => a.close maxAttempts now (counted entry.counts now r)
        records := s.records ++ [entry]
        clock := now } := by
  have hwindow : ∀ r ∈ s.rows, heldBy entry.claim.claimToken now r = true → r.window = entry.claim.window :=
    fun r hr hp => h.agreed.window_of_heldBy hgranted hr hp
  -- a row that is not written to is of another window
  have hother : ∀ r ∈ s.rows, heldBy entry.claim.claimToken now r = false → r.window ≠ entry.claim.window := by
    obtain ⟨y, hy, hyp⟩ := hheld
    intro r hr hp hw
    obtain rfl := h.agreed.rows.windows y hy r hr ((hwindow y hy hyp).trans hw.symm)
    rw [hp] at hyp
    cases hyp
  have hcontinues : entry.isContinuation = true → entry.claim.attempt < maxAttempts := by
    intro hcont
    rw [LedgerAction.sparesLast, ha, Option.all_some, hcont, Bool.not_true, Bool.false_or, decide_eq_true_eq] at hspares
    exact hspares
  have hentry : ∀ r ∈ s.rows, heldBy entry.claim.claimToken now r = true →
      (s.records ++ [entry]).find? (·.claim.claimToken = entry.claim.claimToken) = some entry := by
    intro r hr hp
    rw [List.find?_append, (h.writer hclock hgranted hr hp).2.2.2, Option.none_or, List.find?_cons_of_pos (by simp)]
  refine ⟨hagreed, ?_, ?_, h.fresh, ?_, ?_, ?_⟩
  · exact List.forall_mem_append.2 ⟨h.granted, List.forall_mem_singleton.2 hgranted⟩
  · obtain ⟨r, hr, hp⟩ := hheld
    rw [List.map_append]
    refine List.Nodup.append h.once (List.nodup_singleton _) fun t ht htoken => ?_
    obtain ⟨x, hx, rfl⟩ := List.mem_map.1 ht
    exact List.find?_eq_none.1 (h.writer hclock hgranted hr hp).2.2.2 x hx (decide_eq_true (List.mem_singleton.1 htoken))
  · refine numbers_update h.numbers fun r _ _ c _ _ _ hlocked => ?_
    have hlock : (a.close maxAttempts now (counted entry.counts now r)).lockedBy = none ∨ _ := lockedBy_close a _
    rcases hlock with hnone | hsame
    · rw [hnone] at hlocked
      cases hlocked
    · exact ⟨hsame ▸ hlocked, attempts_close a _⟩
  · refine h.update_holding (fun r hr hp t ht hold => ?_) fun r hr hp hopen => ?_
    · have hne : entry.claim.claimToken ≠ t := h.other_window hgranted (h.agreed.rows.holders r hr t ht) (hother r hr hp)
      refine hold.frame hclock (le_of_eq (wastedBefore_append fun y hy hyw _ => ?_).symm) (find?_append_of_ne hne)
      exact h.other_window hgranted hy (hyw ▸ hother r hr hp)
    · obtain ⟨htoken, hold, hattempt, -⟩ := h.writer hclock hgranted hr hp
      -- only a failure that hands the window back leaves the row open
      cases a with
      | complete => cases hopen
      | fail claim failure counts heard =>
        obtain rfl := Option.some.inj ha
        simp only [LedgerAction.close] at hopen ⊢
        split at hopen
        case isFalse => cases hopen
        case isTrue hback =>
          simp only [handsBack, Bool.and_eq_true, decide_eq_true_eq] at hback
          rw [if_pos (by simp [handsBack, hback])]
          refine ⟨claim.claimToken, htoken, hold.started.trans hclock, ?_, fun hnone => ?_, fun x hx => ?_⟩
          · refine hold.budget.trans (Nat.add_le_add_left (le_of_eq (wastedBefore_append fun y _ _ hne => ?_).symm) 1)
            exact Ne.symm hne
          · cases (hentry r hr hp).symm.trans hnone
          · obtain rfl := Option.some.inj ((hentry r hr hp).symm.trans hx)
            refine ⟨⟨rfl, rfl⟩, fun hany => ?_, ?_, hattempt ▸ hback.2⟩
            · have hstarted := hold.started.trans hclock
              simp [handBackSet, counted, recordCounts, progressedAtExpression, hany, hstarted]
            · simp [ScheduledRun.expired, handBackSet]
      | claim | proceed | closeAbandonedBefore => cases ha
  · refine h.update_closed (fun r hr hp => le_of_eq (wastedAttempts_append fun y hy hyw => ?_).symm) fun r hr hp hfailed => ?_
    · exact h.other_window hgranted hy (hyw ▸ hother r hr hp)
    · obtain ⟨htoken, hold, hattempt, -⟩ := h.writer hclock hgranted hr hp
      cases a with
      | complete => cases hfailed
      | fail claim failure counts heard =>
        obtain rfl := Option.some.inj ha
        rw [window_close]
        simp only [LedgerAction.close] at hfailed ⊢
        split at hfailed
        case isTrue =>
          have hopen := (Bool.and_eq_true_iff.1 (Bool.and_eq_true_iff.1 hp).1).2
          cases (of_decide_eq_true hopen).symm.trans hfailed
        case isFalse hback =>
          -- the last attempt fails, so all of them were wasted
          have hnumber : claim.attempt = r.attempts := hattempt
          have hlast : maxAttempts ≤ r.attempts := by
            simp only [LedgerAction.ofRunTask, Bool.and_eq_true] at hrun
            simp only [handsBack, hrun.1, Bool.true_and, decide_eq_true_eq] at hback
            omega
          have hwasted : wasted (s.records ++ [{ claim, errorCode := some failure.errorCode, counts, heard }]) claim.claimToken = true := by
            rw [wasted, hentry r hr hp]
            cases hcont : Recorded.isContinuation { claim, errorCode := some failure.errorCode, counts, heard } with
            | false => simp [hcont]
            | true =>
              have hbelow : claim.attempt < maxAttempts := hcontinues hcont
              omega
          have hlt : wastedBefore s.takes _ r.window claim.claimToken < _ := wastedBefore_lt (h.agreed.rows.holders r hr _ htoken) hwasted
          have hsame : wastedBefore s.takes (s.records ++ [{ claim, errorCode := some failure.errorCode, counts, heard }]) r.window
              claim.claimToken = wastedBefore s.takes s.records r.window claim.claimToken :=
            wastedBefore_append fun y _ _ hne => Ne.symm hne
          have hbudget : r.attempts ≤ 1 + wastedBefore s.takes s.records r.window claim.claimToken := hold.budget
          exact .inr (show maxAttempts ≤ wastedAttempts s.takes _ r.window by omega)
      | claim | proceed | closeAbandonedBefore => cases ha

/-- A statement of a run in which no continuation stops at the last attempt. -/
theorem Charged.effect (hmax : 1 ≤ maxAttempts) (h : Charged maxAttempts s) (hC : s.Continues maxAttempts (now, a))
    (he : Effect maxAttempts now s a s') : Charged maxAttempts s' := by
  have hagreed := h.agreed.effect hmax he
  obtain ⟨hclock, hrun, hspares⟩ := hC
  cases he with
  | lose hnew hphase =>
    refine h.quiet hclock hagreed ?_ ?_ ?_
    · rintro claim ⟨d, hd, hd'⟩
      exact ⟨d, List.mem_append_left _ hd, hd'⟩
    · exact List.forall_mem_append.2 ⟨h.fresh, List.forall_mem_singleton.2 fun _ => h.agreed.new_token hnew⟩
    · refine List.forall_mem_append.2 ⟨h.numbers, List.forall_mem_singleton.2 fun claim hclaim => ?_⟩
      rcases hphase with hphase | hphase <;> rw [hphase] at hclaim <;> cases hclaim
  | win hnew => exact h.win hclock hnew rfl hagreed
  | recover hc hphase =>
    refine h.recover hclock hc hphase (fun r hp => ?_) hagreed
    simp only [Bool.and_eq_true, recoverable, decide_eq_true_eq] at hp
    exact hp.1.1
  | @grant _ c r hc hphase hr hheld =>
    refine h.quiet hclock hagreed (fun claim => h.agreed.granted_setPhase hc (by simp [hphase])) ?_ ?_
    · intro d hd hrec
      exact h.fresh d (fresh_setPhase h hc (by simp : ClaimPhase.returned _ ≠ .recovering) d hd hrec).1 hrec
    · refine numbers_setPhase h hc fun claim hclaim y hy hyheld => ?_
      obtain rfl := ScheduledRunClaimResult.claimed.inj (ClaimPhase.returned.inj hclaim)
      have hwindow := (h.agreed.window_of_holder hc hr hheld).trans (h.agreed.window_of_holder hc hy hyheld).symm
      rw [h.agreed.rows.windows r hr y hy hwindow]
  | @pass _ c phase hc hopen hnone hread hrec =>
    refine h.quiet hclock hagreed (fun claim => h.agreed.granted_setPhase hc hopen) ?_ ?_
    · intro d hd hd'
      exact h.fresh d (fresh_setPhase h hc hrec d hd hd').1 hd'
    · exact numbers_setPhase h hc fun claim hclaim => absurd hclaim (hnone claim)
  | @abandon _ c hc hphase =>
    refine h.close hclock hagreed (fun claim => h.agreed.granted_setPhase hc (by simp [hphase])) ?_ (numbers_setPhase h hc fun _ hclaim => by cases hclaim) ?_
    · intro d hd hd'
      exact h.fresh d (fresh_setPhase h hc (by simp : ClaimPhase.returned _ ≠ .recovering) d hd hd').1 hd'
    · intro r hr hp
      simp only [Bool.and_eq_true, recoverable, decide_eq_true_eq] at hp
      obtain ⟨⟨⟨-, hopen⟩, -⟩, hspent⟩ := hp
      obtain ⟨t, ht, hold⟩ := h.holding r hr hopen
      -- an attempt that had stopped would have left one more
      have hwasted : wasted s.records t = true := by
        unfold wasted
        split
        case h_1 => rfl
        case h_2 x hx => exact absurd (hold.stopped x hx).left (Nat.not_lt.2 hspent)
      have hlt := wastedBefore_lt (h.agreed.rows.holders r hr t ht) hwasted
      have hbudget := hold.budget
      exact .inr (by omega)
  | record ha hgranted _ hheld _ => exact h.record hclock hrun hspares ha hgranted hheld hagreed
  | nothing => exact h.quiet hclock hagreed (fun _ => id) h.fresh h.numbers
  | rollOver => exact h.close hclock hagreed (fun _ => id) h.fresh h.numbers fun _ _ _ => .inl rfl

theorem charged_of_reachable (hmax : 1 ≤ maxAttempts) (h : (machine maxAttempts).Reachable (Continues maxAttempts) s) :
    Charged maxAttempts s := by
  apply h.invariant
  · rintro _ rfl
    exact ⟨agreed_empty, fun _ hx => absurd hx List.not_mem_nil, List.nodup_nil, fun _ hc => absurd hc List.not_mem_nil,
      fun _ hc => absurd hc List.not_mem_nil, fun _ hr => absurd hr List.not_mem_nil, fun _ hr => absurd hr List.not_mem_nil⟩
  · rintro s ⟨now, a⟩ s' hs hC he
    exact hs.effect hmax hC (effect_of_exec he)

/-! ### Continuations -/

/-- A window whose attempt continues is taken over at no charge. -/
theorem Effect.attempts_of_continued (h : s.Agreed maxAttempts) (he : Effect maxAttempts now s a s') {r r' : ScheduledRun}
    (hr : r ∈ s.rows) (hcont : continued r = true) (hr' : r' ∈ s'.rows) (hwindow : r'.window = r.window) : r'.attempts = r.attempts := by
  have hupdate : ∀ {p : ScheduledRun → Bool} {f : ScheduledRun → ScheduledRun}, r' ∈ Table.update s.rows p f →
      (∀ y, (f y).window = y.window) → (f r).attempts = r.attempts → r'.attempts = r.attempts := by
    intro p f hmem hf hattempts
    obtain ⟨y, hy, ⟨-, rfl⟩ | ⟨-, rfl⟩⟩ := Table.mem_update.1 hmem
    · obtain rfl := h.rows.windows y hy r hr ((hf y).symm.trans hwindow)
      exact hattempts
    · rw [h.rows.windows _ hy r hr hwindow]
  cases he with
  | lose | grant | pass | nothing => rw [h.rows.windows r' hr' r hr hwindow]
  | win _ hnone =>
    rcases List.mem_append.1 hr' with hold | hnew
    · rw [h.rows.windows r' hold r hr hwindow]
    · obtain rfl := List.mem_singleton.1 hnew
      exact absurd hwindow.symm (hnone r hr)
  | recover => exact hupdate hr' (fun _ => rfl) (by simp only [recoverSet, hcont, if_true, Nat.add_zero])
  | abandon | rollOver => exact hupdate hr' (fun _ => rfl) rfl
  | record => exact hupdate hr' (fun _ => window_close a _) (attempts_close a _)

/-- A write that adds a record adds its own. -/
theorem Effect.records_eq (he : Effect maxAttempts now s a s') {x : Recorded} (ha : a.written = some x)
    (hlength : s'.records.length = s.records.length + 1) : s'.records = s.records ++ [x] := by
  cases he with
  | record ha' => rw [Option.some.inj (ha'.symm.trans ha)]
  | _ => exact absurd hlength (Nat.ne_of_lt (Nat.lt_succ_self _))

/-- A continuation that is recorded below the last attempt leaves its window open, and its lease run out. -/
theorem Charged.handed_back (h : Charged maxAttempts s) (hC : s.Continues maxAttempts (now, a)) (he : Effect maxAttempts now s a s')
    {x : Recorded} (ha : a.written = some x) (hcont : x.isContinuation = true) (hrecorded : s'.records = s.records ++ [x]) :
    ∃ r ∈ s'.rows, r.window = x.claim.window ∧ r.status = .claimed ∧ r.expired now = true ∧ r.attempts < maxAttempts := by
  obtain ⟨hclock, hrun, hspares⟩ := hC
  rw [LedgerAction.sparesLast, ha, Option.all_some, hcont, Bool.not_true, Bool.false_or, decide_eq_true_eq] at hspares
  cases he with
  | record ha' hgranted hkeys hheld =>
    obtain rfl := Option.some.inj (ha'.symm.trans ha)
    obtain ⟨r, hr, hp⟩ := hheld
    obtain ⟨-, -, hattempt, -⟩ := h.writer hclock hgranted hr hp
    have hwindow : r.window = _ := h.agreed.window_of_heldBy hgranted hr hp
    refine ⟨_, Table.mem_update_of_pos hr hp, (window_close a _).trans hwindow, ?_⟩
    rw [attempts_close]
    cases a with
    | complete =>
      obtain rfl := Option.some.inj ha
      cases hcont
    | fail claim failure counts heard =>
      obtain rfl := Option.some.inj ha
      have hback : handsBack claim failure maxAttempts = true :=
        Bool.and_eq_true_iff.2 ⟨(Bool.and_eq_true_iff.1 hrun).1, decide_eq_true hspares⟩
      have hopen := (Bool.and_eq_true_iff.1 (Bool.and_eq_true_iff.1 hp).1).2
      simp only [LedgerAction.close, hback, if_true]
      exact ⟨of_decide_eq_true hopen, by simp [ScheduledRun.expired, handBackSet], hattempt ▸ hspares⟩
    | claim | proceed | closeAbandonedBefore => cases ha
  | _ => exact absurd (congrArg List.length hrecorded) (by simp)

/-- In a run in which no continuation stops at the last attempt, a continuation hands its window back and is not charged,
and a window is closed by the roll-over of the day or after as many wasted attempts as there may be. -/
theorem continuation_handsBack (hmax : 1 ≤ maxAttempts) (h : (machine maxAttempts).Reachable (Continues maxAttempts) s)
    (hC : s.Continues maxAttempts (now, a)) (he : exec maxAttempts s (now, a) = some s') :
    (∀ x, a.written = some x → x.isContinuation = true → s'.records = s.records ++ [x] →
      ∃ r ∈ s'.rows, r.window = x.claim.window ∧ r.status = .claimed ∧ r.expired now = true ∧ r.attempts < maxAttempts) ∧
    (∀ r ∈ s.rows, r.status = .claimed → ∀ x ∈ s.records, r.lockedBy = some x.claim.claimToken → x.isContinuation = true →
      ∀ r' ∈ s'.rows, r'.window = r.window → r'.attempts = r.attempts) ∧
    ∀ r ∈ s'.rows, r.status = .failed →
      r.lastErrorCode = some .stopped ∨ maxAttempts ≤ wastedAttempts s'.takes s'.records r.window := by
  have hcharged := charged_of_reachable hmax h
  have heffect := effect_of_exec he
  refine ⟨fun x ha hcont hrecorded => hcharged.handed_back hC heffect ha hcont hrecorded, fun r hr hopen x hx htoken hcont r' hr' hwindow => ?_,
    (hcharged.effect hmax hC heffect).closed⟩
  obtain ⟨t, ht, hold⟩ := hcharged.holding r hr hopen
  obtain rfl := Option.some.inj (htoken.symm.trans ht)
  have hfind : s.records.find? (·.claim.claimToken = x.claim.claimToken) = some x :=
    Table.find?_eq_some hcharged.once hx
  exact heffect.attempts_of_continued hcharged.agreed hr (hold.continued_of_stop hfind hcont) hr' hwindow

end Steps

/-- One attempt, that runs out of its budget after it removed rows. -/
def firstAttempt : List (ℕ × LedgerAction) := [(0, .claim 1 .authSessions 0 600000 "run-1" "token-1" false)]

def firstStop : ℕ × LedgerAction :=
  (300000000, .fail ⟨"run-1", .authSessions, 0, "token-1", 1⟩ ⟨.budgetSpent, true⟩ (AList.singleton "auth_sessions" 500) true)

theorem firstStop_recorded : ((machine 3).check (Continues 3) empty firstAttempt).bind (fun s =>
    ((machine 3).exec s firstStop).map fun s' => (decide (s.Continues 3 firstStop), s'.records.map (·.heard), s.records.length)) =
      some (true, [true], 0) := by
  rfl

theorem continuation_handsBack_first : ∃ s s', (machine 3).check (Continues 3) empty firstAttempt = some s ∧
    exec 3 s firstStop = some s' ∧
    ∀ r ∈ s'.rows, r.status = .failed → r.lastErrorCode = some .stopped ∨ 3 ≤ wastedAttempts s'.takes s'.records r.window := by
  obtain ⟨s, hs, hstop⟩ := Option.bind_eq_some_iff.1 firstStop_recorded
  obtain ⟨s', hs', hstop⟩ := Option.map_eq_some_iff.1 hstop
  have hC : s.Continues 3 firstStop := of_decide_eq_true (congrArg Prod.fst hstop)
  exact ⟨s, s', hs, hs', (continuation_handsBack (by decide : 1 ≤ 3) ((Machine.Reachable.init rfl).of_check hs) hC hs').2.2⟩

/-- Two attempts die, and the third, which removed rows, runs out of its budget. -/
def crashedTwice : List (ℕ × LedgerAction) :=
  [(0, .claim 1 .authSessions 0 600000 "run-1" "token-1" false),
    (600000000, .claim 2 .authSessions 0 600000 "run-2" "token-2" false),
    (600000000, .proceed "token-2"),
    (600000000, .proceed "token-2"),
    (1200000000, .claim 3 .authSessions 0 600000 "run-3" "token-3" false),
    (1200000000, .proceed "token-3"),
    (1200000000, .proceed "token-3")]

def thirdStop : ℕ × LedgerAction :=
  (1500000000, .fail ⟨"run-1", .authSessions, 0, "token-3", 3⟩ ⟨.budgetSpent, true⟩ (AList.singleton "auth_sessions" 500) true)

/-- `runTask` calls, in the order of the clock. -/
def InOrder (s : Ledger) (x : ℕ × LedgerAction) : Prop := s.clock ≤ x.1 ∧ x.2.ofRunTask = true

instance (s : Ledger) (x : ℕ × LedgerAction) : Decidable (s.InOrder x) := inferInstanceAs (Decidable (_ ∧ _))

theorem thirdStop_closes : ((machine 3).check InOrder empty crashedTwice).bind (fun s =>
    ((machine 3).exec s thirdStop).map fun s' =>
      (decide (s.InOrder thirdStop), s'.records.length == s.records.length + 1, s'.rows.all (·.status = .failed))) =
      some (true, true, true) := by
  rfl

/-- A continuation at the last attempt closes its window. -/
theorem continuation_closed : ¬ ∀ s s' now a, (machine 3).Reachable InOrder s → s.InOrder (now, a) → exec 3 s (now, a) = some s' →
    ∀ x, LedgerAction.written a = some x → x.isContinuation = true → s'.records = s.records ++ [x] →
      ∃ r ∈ s'.rows, r.window = x.claim.window ∧ r.status = .claimed := by
  intro hall
  obtain ⟨s, hs, hstop⟩ := Option.bind_eq_some_iff.1 thirdStop_closes
  obtain ⟨s', hs', hstop⟩ := Option.map_eq_some_iff.1 hstop
  obtain ⟨hC, hlength, hfailed⟩ := Prod.mk.inj hstop |>.imp id fun h => Prod.mk.inj h
  have hs' : exec 3 s (thirdStop.1, thirdStop.2) = some s' := hs'
  obtain ⟨r, hr, -, hopen⟩ := hall s s' _ _ ((Machine.Reachable.init rfl).of_check hs) (of_decide_eq_true hC) hs' _ rfl rfl
    ((effect_of_exec hs').records_eq rfl (beq_iff_eq.1 hlength))
  have hclosed := of_decide_eq_true (List.all_eq_true.1 hfailed r hr)
  rw [hclosed] at hopen
  cases hopen

end Ledger

end HotelBackend.Retention
