import HotelBackend.Retention.ScheduledRunRepository

/-!
# The election of a window

What the statements agree on, whatever their order: a window has one row, the row names
one holder, the holder was granted this window, and what the row says was removed is what
was recorded for it.
-/

namespace HotelBackend.Retention

open HotelBackend.Theory
open ScheduledRunRepository

/-! ### What is recorded for a window -/

/-- The counts of the writes to a window. -/
def recordedOf (records : List Recorded) (window : RetentionTaskName × ℕ) (table : String) : ℕ :=
  ((records.filter (·.claim.window = window)).map (·.counts.count table)).sum

theorem recordedOf_append (records : List Recorded) (x : Recorded) (window : RetentionTaskName × ℕ) (table : String) :
    recordedOf (records ++ [x]) window table =
      recordedOf records window table + if x.claim.window = window then x.counts.count table else 0 := by
  rw [recordedOf, List.filter_append, List.map_append, List.sum_append, recordedOf]
  congr 1
  split
  case isTrue h => simp [h]
  case isFalse h => simp [h]

theorem recordedOf_eq_zero {records : List Recorded} {window : RetentionTaskName × ℕ}
    (h : ∀ x ∈ records, x.claim.window ≠ window) (table : String) : recordedOf records window table = 0 := by
  rw [recordedOf, List.filter_eq_nil_iff.2 fun x hx => by simpa using h x hx, List.map_nil, List.sum_nil]

/-! ### The invariant -/

/-- The calls have different tokens, and a token takes over only the window of its call. -/
structure CallsAgree (calls : List ClaimCall) (takes : List ((RetentionTaskName × ℕ) × String)) : Prop where
  tokens : (calls.map (·.claimToken)).Nodup
  takers : ∀ x ∈ takes, ∃ c ∈ calls, c.claimToken = x.2 ∧ c.window = x.1
  granted : ∀ c ∈ calls, ∀ claim, c.phase = .returned (.claimed claim) → claim.claimToken = c.claimToken ∧ claim.window = c.window

/-- A window has one row; its holder has taken it over, its attempts are in their budget and its counts were recorded. -/
structure RowsAgree (maxAttempts : ℕ) (rows : List ScheduledRun) (takes : List ((RetentionTaskName × ℕ) × String))
    (records : List Recorded) : Prop where
  windows : Table.UniqueBy ScheduledRun.window rows
  holders : ∀ r ∈ rows, ∀ t, r.lockedBy = some t → (r.window, t) ∈ takes
  attempts : ∀ r ∈ rows, 1 ≤ r.attempts ∧ r.attempts ≤ maxAttempts
  known : ∀ x ∈ records, ∃ r ∈ rows, r.window = x.claim.window
  removed : ∀ r ∈ rows, ∀ table, r.removed table = recordedOf records r.window table

/-- What every run of the replicas keeps. -/
structure Ledger.Agreed (maxAttempts : ℕ) (s : Ledger) : Prop where
  calls : CallsAgree s.calls s.takes
  rows : RowsAgree maxAttempts s.rows s.takes s.records

/-! ### Calls -/

section Calls

variable {calls : List ClaimCall} {takes : List ((RetentionTaskName × ℕ) × String)} {c d : ClaimCall} {phase : ClaimPhase}

/-- A claim names the token and the window of its call. -/
def GrantsOwn (c : ClaimCall) (phase : ClaimPhase) : Prop :=
  ∀ claim, phase = .returned (.claimed claim) → claim.claimToken = c.claimToken ∧ claim.window = c.window

theorem CallsAgree.eq_of_token (h : CallsAgree calls takes) (hc : c ∈ calls) (hd : d ∈ calls) (ht : c.claimToken = d.claimToken) :
    c = d :=
  Table.UniqueBy.of_nodup h.tokens c hc d hd ht

theorem CallsAgree.append (h : CallsAgree calls takes) (hnew : ∀ d ∈ calls, d.claimToken ≠ c.claimToken) (hown : GrantsOwn c c.phase) :
    CallsAgree (calls ++ [c]) takes where
  tokens := by
    rw [List.map_append]
    refine List.Nodup.append h.tokens (List.nodup_singleton _) fun t ht htc => ?_
    obtain ⟨d, hd, rfl⟩ := List.mem_map.1 ht
    exact hnew d hd (List.mem_singleton.1 htc)
  takers x hx := by
    obtain ⟨d, hd, hdx⟩ := h.takers x hx
    exact ⟨d, List.mem_append_left _ hd, hdx⟩
  granted := List.forall_mem_append.2 ⟨h.granted, List.forall_mem_singleton.2 hown⟩

/-- The call takes over its window. -/
theorem CallsAgree.take (h : CallsAgree calls takes) (hc : ∃ d ∈ calls, d.claimToken = c.claimToken ∧ d.window = c.window) :
    CallsAgree calls (takes ++ [(c.window, c.claimToken)]) where
  tokens := h.tokens
  takers := List.forall_mem_append.2 ⟨h.takers, List.forall_mem_singleton.2 hc⟩
  granted := h.granted

/-- A call goes on. -/
theorem CallsAgree.advance (h : CallsAgree calls takes) (hc : c ∈ calls) (hown : GrantsOwn c phase) :
    CallsAgree (calls.map fun d => if d.claimToken = c.claimToken then { d with phase := phase } else d) takes where
  tokens := by
    rw [List.map_map]
    convert h.tokens using 1
    refine List.map_congr_left fun d _ => ?_
    simp only [Function.comp_apply]
    split <;> rfl
  takers x hx := by
    obtain ⟨d, hd, hdx⟩ := h.takers x hx
    refine ⟨_, List.mem_map_of_mem hd, ?_⟩
    split
    · exact hdx
    · exact hdx
  granted e he claim hphase := by
    obtain ⟨d, hd, rfl⟩ := List.mem_map.1 he
    split at hphase
    case isTrue ht =>
      obtain rfl := h.eq_of_token hd hc ht
      rw [if_pos rfl]
      exact hown claim hphase
    case isFalse ht =>
      rw [if_neg ht]
      exact h.granted d hd claim hphase

end Calls

/-! ### Rows -/

section Rows

variable {maxAttempts : ℕ} {rows rows' : List ScheduledRun} {takes takes' : List ((RetentionTaskName × ℕ) × String)}
  {records : List Recorded} {p : ScheduledRun → Bool} {f : ScheduledRun → ScheduledRun} {n : ℕ}

theorem eq_of_update (h : update rows p f = some (rows', n)) :
    rows' = Table.update rows p f ∧ n = Table.affected rows p ∧ ∀ r ∈ rows, p r = true → (f r).checks = true := by
  unfold update at h
  split at h
  case isTrue hchecks =>
    refine ⟨congrArg Prod.fst (Option.some.inj h).symm, congrArg Prod.snd (Option.some.inj h).symm, fun r hr hp => ?_⟩
    simpa [hp] using List.all_eq_true.1 hchecks r hr
  case isFalse => cases h

/-- A statement that removes nothing changes a row. -/
structure Keeps (maxAttempts : ℕ) (takes : List ((RetentionTaskName × ℕ) × String)) (r r' : ScheduledRun) : Prop where
  window : r'.window = r.window
  holder : ∀ t, r'.lockedBy = some t → (r.window, t) ∈ takes
  attempts : 1 ≤ r'.attempts ∧ r'.attempts ≤ maxAttempts

theorem RowsAgree.append (h : RowsAgree maxAttempts rows takes records) {r : ScheduledRun}
    (hnew : ∀ y ∈ rows, y.window ≠ r.window) (hr : Keeps maxAttempts takes' r r) (hsub : takes ⊆ takes') (hnone : r.deletedCounts = none) :
    RowsAgree maxAttempts (rows ++ [r]) takes' records where
  windows := h.windows.insert hnew
  holders := List.forall_mem_append.2 ⟨fun y hy t ht => hsub (h.holders y hy t ht), List.forall_mem_singleton.2 hr.holder⟩
  attempts := List.forall_mem_append.2 ⟨h.attempts, List.forall_mem_singleton.2 hr.attempts⟩
  known x hx := by
    obtain ⟨y, hy, hyx⟩ := h.known x hx
    exact ⟨y, List.mem_append_left _ hy, hyx⟩
  removed := by
    refine List.forall_mem_append.2 ⟨h.removed, List.forall_mem_singleton.2 fun table => ?_⟩
    rw [recordedOf_eq_zero, ScheduledRun.removed, hnone]
    · rfl
    · intro x hx hxr
      obtain ⟨y, hy, hyx⟩ := h.known x hx
      exact hnew y hy (hyx.trans hxr)

/-- A statement that changes rows, and the record of what they removed. -/
theorem RowsAgree.update {records' : List Recorded} (h : RowsAgree maxAttempts rows takes records)
    (hf : ∀ r ∈ rows, p r = true → Keeps maxAttempts takes' r (f r)) (hsub : takes ⊆ takes')
    (hknown : ∀ x ∈ records', x ∈ records ∨ ∃ r ∈ rows, r.window = x.claim.window)
    (hremoved : ∀ r ∈ rows, ∀ table, ((if p r then f r else r).removed table) + recordedOf records r.window table =
      r.removed table + recordedOf records' r.window table) :
    RowsAgree maxAttempts (Table.update rows p f) takes' records' := by
  have hwindow : ∀ r ∈ rows, p r = true → (f r).window = r.window := fun r hr hp => (hf r hr hp).window
  refine ⟨h.windows.update_of hwindow, fun r' hr' => ?_, fun r' hr' => ?_, fun x hx => ?_, fun r' hr' table => ?_⟩
  · obtain ⟨r, hr, ⟨hp, rfl⟩ | ⟨-, rfl⟩⟩ := Table.mem_update.1 hr'
    · exact hwindow r hr hp ▸ (hf r hr hp).holder
    · exact fun t ht => hsub (h.holders r hr t ht)
  · obtain ⟨r, hr, ⟨hp, rfl⟩ | ⟨-, rfl⟩⟩ := Table.mem_update.1 hr'
    · exact (hf r hr hp).attempts
    · exact h.attempts r hr
  · have hrow : ∃ r ∈ rows, r.window = x.claim.window := (hknown x hx).elim (h.known x) id
    obtain ⟨r, hr, hrx⟩ := hrow
    cases hp : p r with
    | true => exact ⟨f r, Table.mem_update_of_pos hr hp, (hwindow r hr hp).trans hrx⟩
    | false => exact ⟨r, Table.mem_update_of_neg hr hp, hrx⟩
  · obtain ⟨r, hr, ⟨hp, rfl⟩ | ⟨hp, rfl⟩⟩ := Table.mem_update.1 hr'
    · have := hremoved r hr table
      rw [if_pos hp, h.removed r hr] at this
      rw [hwindow r hr hp]
      omega
    · have := hremoved r hr table
      rw [if_neg (by rw [hp]; exact Bool.false_ne_true), h.removed r hr] at this
      rw [h.removed r hr]
      omega

end Rows

/-! ### What a statement does -/

/-- What a `complete` or a `fail` would record. -/
def LedgerAction.written : LedgerAction → Option Recorded
  | .complete held counts heard => some { claim := held, errorCode := none, counts, heard }
  | .fail held failure counts heard => some { claim := held, errorCode := some failure.errorCode, counts, heard }
  | _ => none

/-- What it sets beside the counts. -/
def LedgerAction.close (maxAttempts now : ℕ) : LedgerAction → ScheduledRun → ScheduledRun
  | .complete .. => completeSet now
  | .fail held failure .. =>
    if handsBack held failure maxAttempts then handBackSet failure.errorCode now else closeSet failure.errorCode now
  | _ => id

/-- The row with the attempt's counts in it. -/
def counted (counts : DeletedCounts) (now : ℕ) (r : ScheduledRun) : ScheduledRun :=
  recordCounts counts ((accumulateCounts counts r.deletedCounts).getD r.deletedCounts) now r

namespace Ledger

/-- The call is in another phase. -/
def setPhase (s : Ledger) (c : ClaimCall) (phase : ClaimPhase) : List ClaimCall :=
  s.calls.map fun d => if d.claimToken = c.claimToken then { d with phase := phase } else d

/-- Every way a statement can go. -/
inductive Effect (maxAttempts now : ℕ) (s : Ledger) : LedgerAction → Ledger → Prop where
  /-- The `INSERT` loses. -/
  | lose {a : LedgerAction} {c : ClaimCall} : (∀ d ∈ s.calls, d.claimToken ≠ c.claimToken) →
      c.phase = .recovering ∨ c.phase = .returned (.refused .taken) →
      Effect maxAttempts now s a { s with calls := s.calls ++ [c], clock := now }
  /-- The `INSERT` wins. -/
  | win {a : LedgerAction} {c : ClaimCall} {id : String} : (∀ d ∈ s.calls, d.claimToken ≠ c.claimToken) →
      (∀ r ∈ s.rows, r.window ≠ c.window) →
      Effect maxAttempts now s a
        { s with
          rows := s.rows ++ [insertedRun c.taskName c.scheduledFor c.leaseMs id c.claimToken now]
          calls := s.calls ++ [{ c with phase := .returned (.claimed
            { id := id, taskName := c.taskName, scheduledFor := c.scheduledFor, claimToken := c.claimToken, attempt := 1 }) }]
          takes := s.takes ++ [(c.window, c.claimToken)]
          clock := now }
  /-- The call takes the window over. -/
  | recover {a : LedgerAction} {c : ClaimCall} : c ∈ s.calls → c.phase = .recovering →
      (∃ r ∈ s.rows, (recoverable c.window now r && r.attempts < maxAttempts) = true) →
      (∀ r ∈ s.rows, (recoverable c.window now r && r.attempts < maxAttempts) = true →
        (recoverSet c.claimToken c.leaseMs now r).checks = true) →
      Effect maxAttempts now s a
        { s with
          rows := Table.update s.rows (fun r => recoverable c.window now r && r.attempts < maxAttempts)
            (recoverSet c.claimToken c.leaseMs now)
          calls := s.setPhase c .readingBack
          takes := s.takes ++ [(c.window, c.claimToken)]
          clock := now }
  /-- The call is granted the window it took over. -/
  | grant {a : LedgerAction} {c : ClaimCall} {r : ScheduledRun} : c ∈ s.calls → c.phase = .readingBack → r ∈ s.rows →
      r.lockedBy = some c.claimToken →
      Effect maxAttempts now s a
        { s with
          calls := s.setPhase c (.returned (.claimed
            { id := r.id, taskName := c.taskName, scheduledFor := c.scheduledFor, claimToken := c.claimToken, attempt := r.attempts }))
          clock := now }
  /-- The call changes no row. -/
  | pass {a : LedgerAction} {c : ClaimCall} {phase : ClaimPhase} : c ∈ s.calls → (∀ result, c.phase ≠ .returned result) →
      (∀ claim, phase ≠ .returned (.claimed claim)) → phase ≠ .readingBack → phase ≠ .recovering →
      Effect maxAttempts now s a { s with calls := s.setPhase c phase, clock := now }
  /-- The call closes a window whose budget is spent. -/
  | abandon {a : LedgerAction} {c : ClaimCall} : c ∈ s.calls → c.phase = .abandoning →
      (∀ r ∈ s.rows, (recoverable c.window now r && maxAttempts ≤ r.attempts) = true →
        (closeSet .runAbandoned now r).checks = true) →
      Effect maxAttempts now s a
        { s with
          rows := Table.update s.rows (fun r => recoverable c.window now r && maxAttempts ≤ r.attempts) (closeSet .runAbandoned now)
          calls := s.setPhase c (.returned (.refused .exhausted))
          clock := now }
  /-- A write of the attempt that holds the window. -/
  | record {a : LedgerAction} {entry : Recorded} : a.written = some entry → s.Granted entry.claim →
      entry.counts.keys.all isUsableKey = true → (∃ r ∈ s.rows, heldBy entry.claim.claimToken now r = true) →
      (∀ r ∈ s.rows, heldBy entry.claim.claimToken now r = true → (a.close maxAttempts now (counted entry.counts now r)).checks = true) →
      Effect maxAttempts now s a
        { s with
          rows := Table.update s.rows (heldBy entry.claim.claimToken now) fun r => a.close maxAttempts now (counted entry.counts now r)
          records := s.records ++ [entry]
          clock := now }
  /-- Nothing is written. -/
  | nothing {a : LedgerAction} : Effect maxAttempts now s a { s with clock := now }
  /-- The windows of earlier days are closed. -/
  | rollOver {currentWindow : ℕ} :
      (∀ r ∈ s.rows, (r.status = .claimed && r.scheduledFor < currentWindow && r.expired now) = true →
        (closeSet .stopped now r).checks = true) →
      Effect maxAttempts now s (.closeAbandonedBefore currentWindow)
        { s with
          rows := Table.update s.rows (fun r => r.status = .claimed && r.scheduledFor < currentWindow && r.expired now)
            (closeSet .stopped now)
          clock := now }

section Steps

variable {maxAttempts now : ℕ} {s s' : Ledger} {a : LedgerAction}

theorem effect_of_record {claim : ScheduledRunClaim} {counts : DeletedCounts} {entry : Recorded} {rest : ScheduledRun → ScheduledRun}
    (ha : a.written = some entry) (hclaim : entry.claim = claim) (hcounts : entry.counts = counts) (hgranted : s.Granted claim)
    (hrest : a.close maxAttempts now = rest) :
    Effect maxAttempts now s a (s.recorded now entry (record s.rows claim.claimToken counts now rest)) := by
  subst hclaim hcounts hrest
  unfold ScheduledRunRepository.record
  split
  case isFalse => exact .nothing
  case isTrue hkeys =>
    cases hu : update s.rows (heldBy entry.claim.claimToken now) _ with
    | none => exact .nothing
    | some result =>
      obtain ⟨rows', n⟩ := result
      obtain ⟨rfl, rfl, hchecks⟩ := eq_of_update hu
      rw [recorded]
      split
      case isTrue hpos => exact .record ha hgranted hkeys (Table.affected_pos.1 hpos) hchecks
      case isFalse hzero =>
        rw [Table.update_of_not_affected hzero]
        exact .nothing

theorem effect_of_claimStep {c : ClaimCall} {rows' : List ScheduledRun} {phase : ClaimPhase} (hc : c ∈ s.calls)
    (h : claimStep maxAttempts now s.rows c = some (rows', phase)) : Effect maxAttempts now s a (s.advance now c rows' phase) := by
  unfold claimStep at h
  split at h
  case h_1 hphase =>
    split at h
    case h_1 =>
      obtain ⟨rfl, rfl⟩ := Prod.mk.inj (Option.some.inj h)
      exact .pass hc (hphase ▸ nofun) nofun nofun nofun
    case h_2 taken hu =>
      obtain ⟨rfl, rfl⟩ := Prod.mk.inj (Option.some.inj h)
      obtain ⟨rfl, rfl, hchecks⟩ := eq_of_update hu
      split
      case isTrue hpos => exact .recover hc hphase (Table.affected_pos.1 hpos) hchecks
      case isFalse hzero =>
        rw [Table.update_of_not_affected hzero]
        exact .pass hc (hphase ▸ nofun) nofun nofun nofun
  case h_2 hphase =>
    split at h
    case h_1 =>
      obtain ⟨rfl, rfl⟩ := Prod.mk.inj (Option.some.inj h)
      exact .pass hc (hphase ▸ nofun) nofun nofun nofun
    case h_2 r hr =>
      obtain ⟨rfl, rfl⟩ := Prod.mk.inj (Option.some.inj h)
      exact .grant hc hphase (List.mem_of_find?_eq_some hr) (by simpa using List.find?_some hr)
  case h_3 hphase =>
    split at h
    case h_1 =>
      obtain ⟨rfl, rfl⟩ := Prod.mk.inj (Option.some.inj h)
      exact .pass hc (hphase ▸ nofun) nofun nofun nofun
    case h_2 abandoned hu =>
      obtain ⟨rfl, rfl⟩ := Prod.mk.inj (Option.some.inj h)
      obtain ⟨rfl, rfl, hchecks⟩ := eq_of_update hu
      split
      case isTrue => exact .abandon hc hphase hchecks
      case isFalse hzero =>
        rw [Table.update_of_not_affected hzero]
        exact .pass hc (hphase ▸ nofun) nofun nofun nofun
  case h_4 hphase =>
    obtain ⟨rfl, rfl⟩ := Prod.mk.inj (Option.some.inj h)
    exact .pass hc (hphase ▸ nofun) nofun nofun nofun
  case h_5 => cases h
  case h_6 => cases h

/-- What a step of the ledger does. -/
theorem effect_of_exec (h : exec maxAttempts s (now, a) = some s') : Effect maxAttempts now s a s' := by
  cases a with
  | claim replica taskName scheduledFor leaseMs id claimToken lockWaitTimeout =>
    simp only [exec] at h
    split at h
    case isTrue => cases h
    case isFalse hfresh =>
      obtain rfl := Option.some.inj h
      have hnew : ∀ d ∈ s.calls, d.claimToken ≠ claimToken := fun d hd ht => hfresh (.inl ⟨d, hd, ht⟩)
      split
      case isTrue => exact .lose hnew (.inr rfl)
      case isFalse =>
        rw [insert]
        split
        case isTrue => exact .lose hnew (.inl rfl)
        case isFalse hnone =>
          exact .win hnew fun r hr hw => hnone (List.any_eq_true.2 ⟨r, hr, decide_eq_true hw⟩)
  | proceed claimToken =>
    simp only [exec, Option.bind_eq_bind, Option.bind_eq_some_iff, Prod.exists] at h
    obtain ⟨c, hc, rows', phase, hstep, h⟩ := h
    obtain rfl := Option.some.inj h
    exact effect_of_claimStep (List.mem_of_find?_eq_some hc) hstep
  | complete claim counts heard =>
    simp only [exec] at h
    split at h
    case isFalse => cases h
    case isTrue hgranted =>
      obtain rfl := Option.some.inj h
      exact effect_of_record rfl rfl rfl hgranted rfl
  | fail claim failure counts heard =>
    simp only [exec] at h
    split at h
    case isFalse => cases h
    case isTrue hgranted =>
      obtain rfl := Option.some.inj h
      exact effect_of_record rfl rfl rfl hgranted rfl
  | closeAbandonedBefore currentWindow =>
    simp only [exec] at h
    split at h
    case h_1 =>
      obtain rfl := Option.some.inj h
      exact .nothing
    case h_2 rows' n hu =>
      obtain rfl := Option.some.inj h
      obtain ⟨rfl, -, hchecks⟩ := eq_of_update hu
      exact .rollOver hchecks

/-- Who holds a row was granted its window: a row whose holder made the call is of the window of the call. -/
theorem Agreed.window_of_holder (h : s.Agreed maxAttempts) {c : ClaimCall} (hc : c ∈ s.calls) {r : ScheduledRun} (hr : r ∈ s.rows)
    (hheld : r.lockedBy = some c.claimToken) : r.window = c.window := by
  obtain ⟨d, hd, htoken, hwindow⟩ := h.calls.takers _ (h.rows.holders r hr _ hheld)
  obtain rfl := h.calls.eq_of_token hd hc htoken
  exact hwindow.symm

theorem Agreed.window_of_heldBy (h : s.Agreed maxAttempts) {claim : ScheduledRunClaim} (hgranted : s.Granted claim) {r : ScheduledRun}
    (hr : r ∈ s.rows) (hheld : heldBy claim.claimToken now r = true) : r.window = claim.window := by
  obtain ⟨c, hc, hphase⟩ := hgranted
  obtain ⟨htoken, hwindow⟩ := h.calls.granted c hc claim hphase
  simp only [heldBy, Bool.and_eq_true, decide_eq_true_eq, htoken] at hheld
  exact (h.window_of_holder hc hr hheld.1.1).trans hwindow.symm

/-- Whatever is written beside the counts leaves them. -/
theorem removed_close (a : LedgerAction) (r : ScheduledRun) (table : String) :
    (a.close maxAttempts now r).removed table = r.removed table := by
  unfold LedgerAction.close
  split
  · rfl
  · split <;> rfl
  · rfl

theorem window_close (a : LedgerAction) (r : ScheduledRun) : (a.close maxAttempts now r).window = r.window := by
  unfold LedgerAction.close
  split
  · rfl
  · split <;> rfl
  · rfl

theorem attempts_close (a : LedgerAction) (r : ScheduledRun) : (a.close maxAttempts now r).attempts = r.attempts := by
  unfold LedgerAction.close
  split
  · rfl
  · split <;> rfl
  · rfl

/-- A write releases the window or leaves it with its holder. -/
theorem lockedBy_close (a : LedgerAction) (r : ScheduledRun) :
    (a.close maxAttempts now r).lockedBy = none ∨ (a.close maxAttempts now r).lockedBy = r.lockedBy := by
  unfold LedgerAction.close
  split
  · exact .inl rfl
  · split
    · exact .inr rfl
    · exact .inl rfl
  · exact .inr rfl

theorem removed_counted {counts : DeletedCounts} (hkeys : counts.keys.all isUsableKey = true) (r : ScheduledRun) (table : String) :
    (counted counts now r).removed table = r.removed table + counts.count table := by
  have hsome : ∃ deletedCounts, accumulateCounts counts r.deletedCounts = some deletedCounts :=
    ⟨_, if_pos hkeys⟩
  obtain ⟨deletedCounts, hacc⟩ := hsome
  have := count_accumulateCounts hacc table
  simpa only [ScheduledRun.removed, counted, recordCounts, hacc, Option.getD_some] using this

/-- Rows are closed without a word about what they removed. -/
theorem rowsAgree_close {rows : List ScheduledRun} {takes : List ((RetentionTaskName × ℕ) × String)} {records : List Recorded}
    (h : RowsAgree maxAttempts rows takes records) (p : ScheduledRun → Bool) (errorCode : RetentionErrorCode) :
    RowsAgree maxAttempts (Table.update rows p (closeSet errorCode now)) takes records :=
  h.update (fun r hr _ => ⟨rfl, nofun, h.attempts r hr⟩) (List.Subset.refl _) (fun _ hx => .inl hx) fun r _ table => by
    split <;> rfl

/-- No statement breaks the agreement. -/
theorem Agreed.effect (hmax : 1 ≤ maxAttempts) (h : s.Agreed maxAttempts) (he : Effect maxAttempts now s a s') :
    s'.Agreed maxAttempts := by
  cases he with
  | lose hnew hphase =>
    refine ⟨h.calls.append hnew ?_, h.rows⟩
    rcases hphase with hphase | hphase <;> rw [hphase] <;> exact fun _ hclaim => by cases hclaim
  | @win _ c id hnew hnone =>
    refine ⟨CallsAgree.take (CallsAgree.append h.calls ?_ ?_) ?_,
      h.rows.append hnone ⟨rfl, ?_, le_rfl, hmax⟩ (List.subset_append_left _ _) rfl⟩
    · exact hnew
    · intro claim hclaim
      obtain rfl := ScheduledRunClaimResult.claimed.inj (ClaimPhase.returned.inj hclaim)
      exact ⟨rfl, rfl⟩
    · exact ⟨_, List.mem_append_right _ List.mem_cons_self, rfl, rfl⟩
    · intro t ht
      obtain rfl := Option.some.inj ht
      exact List.mem_append_right _ List.mem_cons_self
  | @recover _ c hc hphase =>
    refine ⟨CallsAgree.take (h.calls.advance hc ?_) ?_, h.rows.update ?_ (List.subset_append_left _ _) (fun _ hx => .inl hx) ?_⟩
    · exact fun _ hclaim => by cases hclaim
    · exact ⟨_, List.mem_map_of_mem hc, by rw [if_pos rfl], by rw [if_pos rfl]; rfl⟩
    · intro r hr hp
      simp only [Bool.and_eq_true, recoverable, decide_eq_true_eq] at hp
      refine ⟨rfl, fun t ht => ?_, ?_⟩
      · obtain rfl := Option.some.inj ht
        exact List.mem_append_right _ (List.mem_singleton.2 (by rw [hp.1.1.1]))
      · have hbudget := h.rows.attempts r hr
        have hless := hp.2
        simp only [recoverSet]
        split <;> omega
    · intro r _ table
      split <;> rfl
  | @grant _ c r hc _ hr hheld =>
    refine ⟨h.calls.advance hc ?_, h.rows⟩
    intro claim hclaim
    obtain rfl := ScheduledRunClaimResult.claimed.inj (ClaimPhase.returned.inj hclaim)
    exact ⟨rfl, rfl⟩
  | pass hc _ hphase => exact ⟨h.calls.advance hc fun claim hclaim => absurd hclaim (hphase claim), h.rows⟩
  | abandon hc => exact ⟨h.calls.advance hc (fun _ hclaim => by cases hclaim), rowsAgree_close h.rows _ _⟩
  | @record _ entry ha hgranted hkeys hheld =>
    have hwindow : ∀ r ∈ s.rows, heldBy entry.claim.claimToken now r = true → r.window = entry.claim.window :=
      fun r hr hp => h.window_of_heldBy hgranted hr hp
    refine ⟨h.calls, h.rows.update ?_ (List.Subset.refl _) ?_ ?_⟩
    · intro r hr hp
      refine ⟨window_close a _, fun t ht => ?_, ?_⟩
      · have hlock : (a.close maxAttempts now (counted entry.counts now r)).lockedBy = none ∨ _ := lockedBy_close a _
        rcases hlock with hnone | hsame
        · rw [hnone] at ht
          cases ht
        · exact h.rows.holders r hr t (hsame ▸ ht)
      · rw [attempts_close]
        exact h.rows.attempts r hr
    · intro x hx
      rcases List.mem_append.1 hx with hx | hx
      · exact .inl hx
      · obtain ⟨r, hr, hp⟩ := hheld
        exact .inr ⟨r, hr, List.mem_singleton.1 hx ▸ hwindow r hr hp⟩
    · intro r hr table
      rw [recordedOf_append]
      cases hp : heldBy entry.claim.claimToken now r with
      | true =>
        rw [if_pos rfl, if_pos (hwindow r hr hp).symm, removed_close, removed_counted hkeys]
        omega
      | false =>
        -- the row that was written to is the only one of the window
        obtain ⟨y, hy, hyp⟩ := hheld
        rw [if_neg Bool.false_ne_true, if_neg, Nat.add_zero]
        intro hw
        obtain rfl := h.rows.windows y hy r hr ((hwindow y hy hyp).trans hw)
        rw [hp] at hyp
        cases hyp
  | nothing => exact ⟨h.calls, h.rows⟩
  | rollOver => exact ⟨h.calls, rowsAgree_close h.rows _ _⟩

theorem agreed_empty : empty.Agreed maxAttempts where
  calls := ⟨List.nodup_nil, fun _ hx => absurd hx List.not_mem_nil, fun _ hc => absurd hc List.not_mem_nil⟩
  rows :=
    { windows := fun _ hr => absurd hr List.not_mem_nil
      holders := fun _ hr => absurd hr List.not_mem_nil
      attempts := fun _ hr => absurd hr List.not_mem_nil
      known := fun _ hx => absurd hx List.not_mem_nil
      removed := fun _ hr => absurd hr List.not_mem_nil }

theorem agreed_of_reachable (hmax : 1 ≤ maxAttempts) {C : Ledger → ℕ × LedgerAction → Prop} (h : (machine maxAttempts).Reachable C s) :
    s.Agreed maxAttempts := by
  apply h.invariant
  · rintro _ rfl
    exact agreed_empty
  · rintro s ⟨now, a⟩ s' hs - he
    exact hs.effect hmax (effect_of_exec he)

/-- The table holds only what it accepts. -/
theorem checks_of_reachable {C : Ledger → ℕ × LedgerAction → Prop} (h : (machine maxAttempts).Reachable C s) :
    ∀ r ∈ s.rows, r.checks = true := by
  apply h.invariant (I := fun s => ∀ r ∈ s.rows, r.checks = true)
  · rintro _ rfl r hr
    exact absurd hr List.not_mem_nil
  · rintro s ⟨now, a⟩ s' hs - he
    have hupdate : ∀ {p : ScheduledRun → Bool} {f : ScheduledRun → ScheduledRun}, (∀ r ∈ s.rows, p r = true → (f r).checks = true) →
        ∀ r ∈ Table.update s.rows p f, r.checks = true := by
      intro p f hf r' hr'
      obtain ⟨r, hr, ⟨hp, rfl⟩ | ⟨-, rfl⟩⟩ := Table.mem_update.1 hr'
      · exact hf r hr hp
      · exact hs r hr
    cases effect_of_exec he with
    | lose | grant | pass | nothing => exact hs
    | win => exact List.forall_mem_append.2 ⟨hs, List.forall_mem_singleton.2 rfl⟩
    | recover _ _ _ hchecks => exact hupdate hchecks
    | abandon _ _ hchecks => exact hupdate hchecks
    | record _ _ _ _ hchecks => exact hupdate hchecks
    | rollOver hchecks => exact hupdate hchecks

/-! ### The election -/

/-- The replica made a call whose token holds the window, under a lease that is live. -/
def Holds (s : Ledger) (now replica : ℕ) (window : RetentionTaskName × ℕ) : Prop :=
  ∃ c ∈ s.calls, c.replica = replica ∧ ∃ r ∈ s.rows, r.window = window ∧ heldBy c.claimToken now r = true

theorem Agreed.holder_unique (h : s.Agreed maxAttempts) {p q : ℕ} {window : RetentionTaskName × ℕ}
    (hp : s.Holds now p window) (hq : s.Holds now q window) : p = q := by
  obtain ⟨c, hc, rfl, r, hr, hrw, hcr⟩ := hp
  obtain ⟨d, hd, rfl, y, hy, hyw, hdy⟩ := hq
  obtain rfl := h.rows.windows r hr y hy (hrw.trans hyw.symm)
  simp only [heldBy, Bool.and_eq_true, decide_eq_true_eq] at hcr hdy
  rw [h.calls.eq_of_token hc hd (Option.some.inj (hcr.1.1.symm.trans hdy.1.1))]

/-- A statement changes only open rows. -/
theorem Effect.mem_of_closed (he : Effect maxAttempts now s a s') {r : ScheduledRun} (hr : r ∈ s.rows)
    (hclosed : r.status ≠ .claimed) : r ∈ s'.rows := by
  have hheld : ∀ token, heldBy token now r = false := fun token => by simp [heldBy, hclosed]
  have hrec : ∀ window, recoverable window now r = false := fun window => by simp [recoverable, hclosed]
  cases he with
  | lose | grant | pass | nothing => exact hr
  | win => exact List.mem_append_left _ hr
  | recover => exact Table.mem_update_of_neg hr (by rw [hrec, Bool.false_and])
  | abandon => exact Table.mem_update_of_neg hr (by rw [hrec, Bool.false_and])
  | record => exact Table.mem_update_of_neg hr (hheld _)
  | rollOver => exact Table.mem_update_of_neg hr (by simp [hclosed])

theorem mem_of_run {as : List (ℕ × LedgerAction)} (h : (machine maxAttempts).run s as = some s')
    {r : ScheduledRun} (hr : r ∈ s.rows) (hclosed : r.status ≠ .claimed) : r ∈ s'.rows :=
  Machine.run_induction (M := machine maxAttempts) (P := fun _ _ => True) (I := fun s => r ∈ s.rows)
    (fun _ _ _ hr _ he => (effect_of_exec he).mem_of_closed hr hclosed) (fun _ _ _ => trivial) hr h

/-- A write changes something only if its claim holds its window. -/
theorem Agreed.unchanged (h : s.Agreed maxAttempts) {entry : Recorded} (ha : a.written = some entry)
    (he : exec maxAttempts s (now, a) = some s')
    (hlost : ∀ r ∈ s.rows, r.window = entry.claim.window → heldBy entry.claim.claimToken now r = false) :
    s'.rows = s.rows ∧ s'.records = s.records := by
  have hnone : s.Granted entry.claim → ∀ r ∈ s.rows, heldBy entry.claim.claimToken now r = false := by
    intro hgranted r hr
    by_contra hheld
    rw [Bool.not_eq_false] at hheld
    rw [hlost r hr (h.window_of_heldBy hgranted hr hheld)] at hheld
    cases hheld
  have hrecord : ∀ (counts : DeletedCounts) (close : ScheduledRun → ScheduledRun), s.Granted entry.claim →
      (s.recorded now entry (record s.rows entry.claim.claimToken counts now close)).rows = s.rows ∧
        (s.recorded now entry (record s.rows entry.claim.claimToken counts now close)).records = s.records := by
    intro counts close hgranted
    unfold ScheduledRunRepository.record
    split
    case isFalse => exact ⟨rfl, rfl⟩
    cases hu : update s.rows (heldBy entry.claim.claimToken now) _ with
    | none => exact ⟨rfl, rfl⟩
    | some result =>
      obtain ⟨rows', n⟩ := result
      obtain ⟨rfl, rfl, -⟩ := eq_of_update hu
      have hzero := Table.affected_eq_zero.2 (hnone hgranted)
      exact ⟨Table.update_of_not_affected (by omega), if_neg (by omega)⟩
  cases a with
  | complete claim counts heard =>
    obtain rfl := Option.some.inj ha
    simp only [exec] at he
    split at he
    case isFalse => cases he
    case isTrue hgranted => exact Option.some.inj he ▸ hrecord counts _ hgranted
  | fail claim failure counts heard =>
    obtain rfl := Option.some.inj ha
    simp only [exec] at he
    split at he
    case isFalse => cases he
    case isTrue hgranted => exact Option.some.inj he ▸ hrecord counts _ hgranted
  | claim | proceed | closeAbandonedBefore => cases ha

/-- The ledger elects: a window has one row and one holder at a time, a closed row stays as it is, a write without the
claim changes nothing, what the row says was removed is what the writes that were applied say, and the budget is kept. -/
theorem elects (hmax : 1 ≤ maxAttempts) (h : (machine maxAttempts).Reachable (fun _ _ => True) s) :
    Table.UniqueBy ScheduledRun.window s.rows ∧
    (∀ now window p q, s.Holds now p window → s.Holds now q window → p = q) ∧
    (∀ as s', (machine maxAttempts).run s as = some s' → ∀ r ∈ s.rows, r.status ≠ .claimed → r ∈ s'.rows) ∧
    (∀ now a entry s', LedgerAction.written a = some entry → exec maxAttempts s (now, a) = some s' →
      (∀ r ∈ s.rows, r.window = entry.claim.window → heldBy entry.claim.claimToken now r = false) →
      s'.rows = s.rows ∧ s'.records = s.records) ∧
    (∀ r ∈ s.rows, ∀ table, r.removed table = recordedOf s.records r.window table) ∧
    ∀ r ∈ s.rows, r.attempts ≤ maxAttempts := by
  have hagreed := agreed_of_reachable hmax h
  refine ⟨hagreed.rows.windows, fun _ _ _ _ hp hq => hagreed.holder_unique hp hq, fun as s' hrun r hr hclosed => ?_,
    fun _ _ _ _ ha he hlost => hagreed.unchanged ha he hlost, hagreed.rows.removed, fun r hr => (hagreed.rows.attempts r hr).2⟩
  exact mem_of_run hrun hr hclosed

end Steps

/-- A replica dies in its first attempt; another takes the window over, and dies once the database has its write. -/
def unheardRun : List (ℕ × LedgerAction) :=
  [(0, .claim 1 .authSessions 0 600000 "run-1" "token-1" false),
    (600000000, .claim 2 .authSessions 0 600000 "run-2" "token-2" false),
    (600000001, .proceed "token-2"),
    (600000002, .proceed "token-2"),
    (600000003, .complete ⟨"run-1", .authSessions, 0, "token-2", 2⟩ (AList.singleton "auth_sessions" 500) false)]

theorem unheardRun_counts : ((machine 3).run empty unheardRun).map (fun s => s.rows.any fun r =>
    r.removed "auth_sessions" ≠ recordedOf (s.records.filter (·.heard)) r.window "auth_sessions") = some true := by
  rfl

/-- The run is one of the ledger. -/
theorem reachable_of_run {as : List (ℕ × LedgerAction)} {s : Ledger} (h : (machine 3).run empty as = some s) :
    (machine 3).Reachable (fun _ _ => True) s :=
  (Machine.Reachable.init rfl).of_run (fun _ _ _ => trivial) h

/-- What a row says was removed may be more than its calls reported. -/
theorem removed_ne_reported : ¬ ∀ s, (machine 3).Reachable (fun _ _ => True) s →
    ∀ r ∈ s.rows, ∀ table, r.removed table = recordedOf (s.records.filter (·.heard)) r.window table := by
  intro hall
  obtain ⟨s, hrun, hne⟩ := Option.map_eq_some_iff.1 unheardRun_counts
  obtain ⟨r, hr, hne⟩ := List.any_eq_true.1 hne
  exact of_decide_eq_true hne (hall s (reachable_of_run hrun) r hr _)

theorem elects_unheard : ∃ s, (machine 3).run empty unheardRun = some s ∧ Table.UniqueBy ScheduledRun.window s.rows ∧
    ∀ r ∈ s.rows, ∀ table, r.removed table = recordedOf s.records r.window table := by
  obtain ⟨s, hrun, -⟩ := Option.map_eq_some_iff.1 unheardRun_counts
  obtain ⟨hwindows, -, -, -, hremoved, -⟩ := elects (by decide : 1 ≤ 3) (reachable_of_run hrun)
  exact ⟨s, hrun, hwindows, hremoved⟩

end Ledger

end HotelBackend.Retention
