import HotelBackend.Outbox.Protocol
import HotelBackend.Files.StorageCleanup

/-!
# Claim counters

`outbox_events.attempts` and `storage_cleanup_tasks.attempts` are `SMALLINT UNSIGNED`,
every claim adds one, and nothing bounds how often a row of the lifecycle family or a
cleanup task is claimed. In strict SQL mode the counter never passes its column: the
`UPDATE` that would take it there fails, whole, and with it the claim of every other row
of the batch.
-/

namespace HotelBackend.Outbox

open HotelBackend.Common
open HotelBackend.Theory
open HotelBackend.Files

section Claims

variable {rows : List OutboxEvent} {input : OutboxClaimInput} {skipExpired skipDue : String → Bool} {now : ℕ}

/-- A claim fails exactly if it selects a row whose counter is full. -/
theorem claimBatch_eq_error (hn : (rows.map (·.id)).Nodup) (htypes : input.eventTypes ≠ []) {e : ClaimError} :
    claimBatch rows input skipExpired skipDue now = .error e ↔
      e = .outOfRange ∧ ∃ r ∈ eligible rows input skipExpired skipDue now, Table.maxSmallint ≤ r.attempts := by
  have hfull : (rows.any fun r =>
      (claimUpdate input ((eligible rows input skipExpired skipDue now).map (·.id)) now).pred r && Table.maxSmallint ≤ r.attempts) =
        true ↔ ∃ r ∈ eligible rows input skipExpired skipDue now, Table.maxSmallint ≤ r.attempts := by
    simp only [List.any_eq_true, Bool.and_eq_true, decide_eq_true_eq, claimUpdate_pred]
    constructor
    · rintro ⟨r, hr, ⟨hid, -⟩, hle⟩
      obtain ⟨g, hg, hgr⟩ := List.mem_map.1 hid
      obtain rfl := Table.UniqueBy.of_nodup hn g (mem_eligible hg).1 r hr hgr
      exact ⟨g, hg, hle⟩
    · rintro ⟨r, hr, hle⟩
      exact ⟨r, (mem_eligible hr).1, ⟨List.mem_map_of_mem hr, type_of_eligible (mem_eligible hr).2⟩, hle⟩
  unfold claimBatch
  rw [if_neg htypes]
  dsimp only
  by_cases hids : (eligible rows input skipExpired skipDue now).map (·.id) = []
  · rw [if_pos hids, List.map_eq_nil_iff.1 hids]
    simp
  · rw [if_neg hids]
    split
    case isTrue h => simp [hfull.1 h, eq_comm]
    case isFalse h => simp [mt hfull.2 h]

end Claims

theorem Family.eventTypes_ne_nil (f : Family) : f.eventTypes ≠ [] := by
  cases f <;> exact List.cons_ne_nil _ _

/-- What the counters of the two tables guarantee. -/
structure CountersFit (s : State) (store : Store Unit) : Prop where
  /-- A counter fits its column, and counts claims of its row. -/
  events : ∀ e ∈ s.rows, e.attempts ≤ 65535 ∧ e.attempts ≤ s.claims.countP (·.id = e.id)
  tasks : ∀ t ∈ store.tasks, t.attempts ≤ 65535 ∧ t.attempts ≤ store.claims.count t.id
  /-- A batch fails exactly if it selects a row at the end of the column, for this reason only, -/
  batch : ∀ (family : Family) batchSize leaseMs claimToken skipExpired skipDue now e,
    claimBatch s.rows ⟨family.eventTypes, batchSize, leaseMs, claimToken⟩ skipExpired skipDue now = .error e ↔
      e = .outOfRange ∧ ∃ r ∈ eligible s.rows ⟨family.eventTypes, batchSize, leaseMs, claimToken⟩ skipExpired skipDue now,
        r.attempts = 65535
  /-- and then changes nothing. -/
  rollback : ∀ (family : Family) batchSize leaseMs claimToken skipExpired skipDue now e s',
    claimBatch s.rows ⟨family.eventTypes, batchSize, leaseMs, claimToken⟩ skipExpired skipDue now = .error e →
      s.exec now (.claim family batchSize leaseMs claimToken skipExpired skipDue) = some s' → s' = s
  /-- The same for the cleanup of storage. -/
  one : ∀ workerId graceMs skip now, claimOne store.tasks workerId graceMs skip now = none ↔
    ∃ t, candidate store.tasks skip now = some t ∧ ∃ u ∈ store.tasks, u.id = t.id ∧ u.attempts = 65535
  rollbackOne : ∀ run workerId graceMs skip now store', claimOne store.tasks workerId graceMs skip now = none →
    store.exec (.claim run workerId graceMs skip now) = some store' → store' = store
  /-- So no claim fails as long as no row was claimed 65535 times. -/
  never : (∀ id, s.claims.countP (·.id = id) < 65535) →
    ∀ (family : Family) batchSize leaseMs claimToken skipExpired skipDue now e,
      claimBatch s.rows ⟨family.eventTypes, batchSize, leaseMs, claimToken⟩ skipExpired skipDue now ≠ .error e
  neverOne : (∀ id, store.claims.count id < 65535) → ∀ workerId graceMs skip now,
    claimOne store.tasks workerId graceMs skip now ≠ none

/-- **The claim counters fit their columns**, in every state the two tables can reach. -/
theorem counters_fit (s : State) (hs : outbox.Reachable (fun _ _ => True) s) (store : Store Unit)
    (hstore : Store.table.Reachable (fun _ _ => True) store) : CountersFit s store := by
  have hi := inv_of_reachable hs
  have hc := Store.counted_of_reachable hstore
  have hbatch : ∀ (family : Family) batchSize leaseMs claimToken skipExpired skipDue now e,
      claimBatch s.rows ⟨family.eventTypes, batchSize, leaseMs, claimToken⟩ skipExpired skipDue now = .error e ↔
        e = .outOfRange ∧ ∃ r ∈ eligible s.rows ⟨family.eventTypes, batchSize, leaseMs, claimToken⟩ skipExpired skipDue now,
          r.attempts = 65535 := by
    intro family batchSize leaseMs claimToken skipExpired skipDue now e
    rw [claimBatch_eq_error hi.ids family.eventTypes_ne_nil]
    refine and_congr_right fun _ => exists_congr fun r => and_congr_right fun hr => ?_
    exact ⟨fun h => (hi.bounded r (mem_eligible hr).1).antisymm h, fun h => h.ge⟩
  have hone : ∀ workerId graceMs skip now, claimOne store.tasks workerId graceMs skip now = none ↔
      ∃ t, candidate store.tasks skip now = some t ∧ ∃ u ∈ store.tasks, u.id = t.id ∧ u.attempts = 65535 := by
    intro workerId graceMs skip now
    rw [claimOne_eq_none]
    refine exists_congr fun t => and_congr_right fun _ => exists_congr fun u => and_congr_right fun hu => and_congr_right fun _ => ?_
    exact ⟨fun h => (hc u hu).1.antisymm h, fun h => h.ge⟩
  refine ⟨fun e he => ⟨hi.bounded e he, hi.counted e he⟩, hc, hbatch, ?_, hone, ?_, ?_, ?_⟩
  · intro family batchSize leaseMs claimToken skipExpired skipDue now e s' herr hexec
    simp only [State.exec, herr] at hexec
    split at hexec
    · cases hexec
    · exact (Option.some.inj hexec).symm
  · intro run workerId graceMs skip now store' hnone hexec
    simp only [Store.exec, hnone] at hexec
    split at hexec
    · cases hexec
    · exact (Option.some.inj hexec).symm
  · intro hfew family batchSize leaseMs claimToken skipExpired skipDue now e herr
    obtain ⟨-, r, hr, hfull⟩ := (hbatch ..).1 herr
    have := hi.counted r (mem_eligible hr).1
    rw [hfull] at this
    exact absurd (hfew r.id) (not_lt.2 this)
  · intro hfew workerId graceMs skip now hnone
    obtain ⟨t, -, u, hu, -, hfull⟩ := (hone ..).1 hnone
    have := (hc u hu).2
    rw [hfull] at this
    exact absurd (hfew u.id) (not_lt.2 this)

/-- A worker claims the task of an upload that was given up, and releases it. -/
def givenUp : List Store.TableAction :=
  [.insertUploadSafeguard "task" "object" 5, .worker (.claim 0 "worker" 60 (fun _ => false) 10),
   .worker (.deleteObject 0 .refused), .worker (.release 0 60 20 .committed)]

theorem givenUp_isSome : (Store.table.run ⟨[], fun _ => none, [], [], []⟩ givenUp).isSome = true := by decide

theorem counters_fit_crashRecovery :
    CountersFit ((outbox.run ⟨[], []⟩ crashRecovery).get crashRecovery_isSome)
      ((Store.table.run ⟨[], fun _ => none, [], [], []⟩ givenUp).get givenUp_isSome) :=
  counters_fit _ (.of_run (.init rfl) (fun _ _ _ => trivial) (Option.some_get crashRecovery_isSome).symm)
    _ (.of_run (.init rfl) (fun _ _ _ => trivial) (Option.some_get givenUp_isSome).symm)

/-! ### A counter at its end -/

/-- The token of the nth claim of an outage. -/
def outageToken (n : ℕ) : String := String.ofList (List.replicate n 'x')

theorem outageToken_injective {m n : ℕ} (h : outageToken m = outageToken n) : m = n := by
  have := congrArg List.length (String.ofList_injective h)
  rwa [List.length_replicate, List.length_replicate] at this

/-- An event of the lifecycle stream that waits again after `n` claims. -/
def stuck (n : ℕ) (errorCode : Option String) : OutboxEvent :=
  { OutboxEvent.fresh "stuck" bookingLifecycleEventType (.obj []) "stuck-key" 0 with attempts := n, lastErrorCode := errorCode }

theorem eligible_stuck (n : ℕ) (errorCode : Option String) (claimToken : String) :
    eligible [stuck n errorCode] ⟨Family.bookingLifecycle.eventTypes, 1, 60, claimToken⟩ (fun _ => false) (fun _ => false) 0 =
      [stuck n errorCode] := rfl

/-- A claim of the stuck event alone. -/
theorem claimBatch_stuck {n : ℕ} (hn : n < Table.maxSmallint) (errorCode : Option String) (claimToken : String) :
    claimBatch [stuck n errorCode] ⟨Family.bookingLifecycle.eventTypes, 1, 60, claimToken⟩ (fun _ => false) (fun _ => false) 0 =
      .ok ([(claimUpdate ⟨Family.bookingLifecycle.eventTypes, 1, 60, claimToken⟩ ["stuck"] 0).set (stuck n errorCode)],
        [⟨"stuck", n + 1⟩]) := by
  have hroom : ¬ ([stuck n errorCode].any fun e =>
      (claimUpdate ⟨Family.bookingLifecycle.eventTypes, 1, 60, claimToken⟩ ["stuck"] 0).pred e &&
        Table.maxSmallint ≤ e.attempts) = true := by
    rw [List.any_cons, List.any_nil, Bool.or_false, Bool.and_eq_true, decide_eq_true_eq, not_and, not_le]
    exact fun _ => hn
  unfold claimBatch
  rw [if_neg (Family.eventTypes_ne_nil _), eligible_stuck]
  dsimp only
  rw [show [stuck n errorCode].map (·.id) = ["stuck"] from rfl, if_neg (List.cons_ne_nil _ _)]
  exact (if_neg hroom).trans rfl

/-- A claim that succeeds. -/
theorem exec_claim {s : State} {family : Family} {batchSize leaseMs now : ℕ} {claimToken : String}
    {skipExpired skipDue : String → Bool} {rows : List OutboxEvent} {claims : List OutboxClaim}
    (hfresh : ∀ c ∈ s.claims, c.claimToken ≠ claimToken)
    (h : claimBatch s.rows ⟨family.eventTypes, batchSize, leaseMs, claimToken⟩ skipExpired skipDue now = .ok (rows, claims)) :
    s.exec now (.claim family batchSize leaseMs claimToken skipExpired skipDue) =
      some ⟨rows, s.claims ++ claimKeys claimToken claims⟩ := by
  have hfresh' : ¬ (s.claims.any fun c => c.claimToken = claimToken) = true := by
    rw [List.any_eq_true]
    rintro ⟨c, hc, ht⟩
    exact hfresh c hc (of_decide_eq_true ht)
  simp only [State.exec, h, if_neg hfresh']

/-- A relay hands the stuck event back. -/
theorem markRetry_stuck (n : ℕ) (errorCode : Option String) (claimToken code : String) :
    (BookingLifecycleRelay.markRetry ["stuck"] claimToken 0 0 (fun _ => 0) code 0).run
      [(claimUpdate ⟨Family.bookingLifecycle.eventTypes, 1, 60, claimToken⟩ ["stuck"] 0).set (stuck n errorCode)] =
      [stuck (n + 1) (some code)] := by
  have hpred : (BookingLifecycleRelay.markRetry ["stuck"] claimToken 0 0 (fun _ => 0) code 0).pred
      ((claimUpdate ⟨Family.bookingLifecycle.eventTypes, 1, 60, claimToken⟩ ["stuck"] 0).set (stuck n errorCode)) = true := by
    simp only [BookingLifecycleRelay.markRetry, BookingLifecycleRelay.finish, Bool.and_eq_true, decide_eq_true_eq]
    exact ⟨⟨⟨List.mem_cons_self, List.mem_cons_self⟩, rfl⟩, rfl⟩
  have hbackoff : ∀ attempts rand, BookingLifecycleRelay.backoffMs 0 0 attempts rand = 0 := fun _ _ => Nat.min_zero _
  rw [Update.run, Table.update, List.map_cons, List.map_nil, if_pos hpred]
  simp only [BookingLifecycleRelay.markRetry, BookingLifecycleRelay.finish, Outcome.apply, hbackoff]
  rfl

/-- A publish that fails, again and again. -/
theorem outage (n : ℕ) (hn : n ≤ Table.maxSmallint) : ∃ errorCode claims,
    outbox.Reachable (fun _ _ => True) ⟨[stuck n errorCode], claims⟩ ∧ ∀ c ∈ claims, ∃ m < n, c.claimToken = outageToken m := by
  induction n with
  | zero =>
    refine ⟨none, [], .step (.init rfl) trivial (a := (0, .insert "stuck" bookingLifecycleEventType (.obj []) "stuck-key")) rfl, ?_⟩
    exact fun c hc => absurd hc List.not_mem_nil
  | succ n ih =>
    obtain ⟨errorCode, claims, hreach, htokens⟩ := ih (Nat.le_of_succ_le hn)
    have hfresh : ∀ c ∈ claims, c.claimToken ≠ outageToken n := by
      intro c hc h
      obtain ⟨m, hm, ht⟩ := htokens c hc
      exact hm.ne (outageToken_injective (ht.symm.trans h))
    let claim : Statement := .claim .bookingLifecycle 1 60 (outageToken n) (fun _ => false) fun _ => false
    have hexec : outbox.exec ⟨[stuck n errorCode], claims⟩ (0, claim) =
        some ⟨[(claimUpdate ⟨Family.bookingLifecycle.eventTypes, 1, 60, outageToken n⟩ ["stuck"] 0).set (stuck n errorCode)],
          claims ++ claimKeys (outageToken n) [⟨"stuck", n + 1⟩]⟩ :=
      exec_claim hfresh (claimBatch_stuck (Nat.lt_of_succ_le hn) errorCode (outageToken n))
    have hclaim := Machine.Reachable.step hreach trivial hexec
    refine ⟨some "BOOKING_STREAM_PUBLISH_FAILED", claims ++ [⟨"stuck", outageToken n, n + 1⟩], .step hclaim trivial
      (a := (0, .lifecycleRetry ["stuck"] (outageToken n) 0 0 (fun _ => 0) "BOOKING_STREAM_PUBLISH_FAILED")) ?_, fun c hc => ?_⟩
    · exact congrArg (fun rows => some (⟨rows, _⟩ : State)) (markRetry_stuck n errorCode (outageToken n) _)
    · rcases List.mem_append.1 hc with hc | hc
      · obtain ⟨m, hm, ht⟩ := htokens c hc
        exact ⟨m, hm.trans n.lt_succ_self, ht⟩
      · exact ⟨n, n.lt_succ_self, by rw [List.mem_singleton.1 hc]⟩

/-- A new event next to the stuck one. -/
def waiting : OutboxEvent := .fresh "waiting" bookingLifecycleEventType (.obj []) "waiting-key" 0

theorem mem_eligible_of_isDue {rows : List OutboxEvent} {input : OutboxClaimInput} {now : ℕ} {e : OutboxEvent} (he : e ∈ rows)
    (hdue : isDue input.eventTypes now e = true) (hroom : 2 * rows.length ≤ input.batchSize) :
    e ∈ eligible rows input (fun _ => false) (fun _ => false) now := by
  have hlength : ∀ p : OutboxEvent → Bool,
      ((rows.filter fun e => p e && !false).insertionSort fun e g => e.availableAt ≤ g.availableAt).length ≤ rows.length :=
    fun p => by
      rw [List.length_insertionSort]
      exact List.length_filter_le _ _
  have hpos : 0 < rows.length := List.length_pos_of_mem he
  have hexpired : (selectEligible rows (isExpired input.eventTypes now) (fun _ => false) input.batchSize).length ≤ rows.length :=
    (List.length_take_le' _ _).trans (hlength _)
  rw [eligible, (List.perm_insertionSort _ _).mem_iff, List.mem_append, if_pos (by omega)]
  refine .inr ?_
  rw [selectEligible, List.take_of_length_le ((hlength _).trans (by omega)), (List.perm_insertionSort _ _).mem_iff, List.mem_filter]
  exact ⟨he, by rw [hdue]; rfl⟩

/-- After 65535 claims the event waits again, and the next claim fails for it and for the new event. -/
theorem claimBatch_blocked : ∃ s : State, outbox.Reachable (fun _ _ => True) s ∧
    (∃ e ∈ s.rows, isDue Family.bookingLifecycle.eventTypes 0 e = true ∧ e.attempts = 0) ∧
    claimBatch s.rows ⟨Family.bookingLifecycle.eventTypes, 10, 60, "relay"⟩ (fun _ => false) (fun _ => false) 0 =
      .error .outOfRange := by
  obtain ⟨errorCode, claims, hreach, -⟩ := outage Table.maxSmallint le_rfl
  have hreach' : outbox.Reachable (fun _ _ => True) ⟨[stuck Table.maxSmallint errorCode, waiting], claims⟩ :=
    .step hreach trivial (a := (0, .insert "waiting" bookingLifecycleEventType (.obj []) "waiting-key")) rfl
  have hstuck : stuck Table.maxSmallint errorCode ∈ [stuck Table.maxSmallint errorCode, waiting] := List.mem_cons_self
  refine ⟨_, hreach', ⟨waiting, List.mem_cons_of_mem _ List.mem_cons_self, by decide, rfl⟩, ?_⟩
  rw [claimBatch_eq_error (inv_of_reachable hreach').ids Family.bookingLifecycle.eventTypes_ne_nil]
  exact ⟨rfl, _, mem_eligible_of_isDue hstuck rfl (by simp), le_rfl⟩

end HotelBackend.Outbox
