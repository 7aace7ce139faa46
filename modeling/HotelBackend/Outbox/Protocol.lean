import HotelBackend.Theory.Runs
import HotelBackend.Outbox.Statements

/-!
# The lease protocol of the outbox

Any number of writers, dispatchers, relays, workers and operators run the statements of
`Outbox.Statements` on one table, with any arguments and at any time: a crash, a stale
holder or a duplicated call is a statement that does not come, or that comes late. Only
two things are asked of a statement: an insert is of a new id and key, and a claim token
is new (`randomUUID`).

A claim that was handed out is remembered (`claims`), so that its holder can be spoken
of later. `Inv` is the invariant; `Change` says once what a statement other than a claim
does to a row it matches, and everything else is read off it.
-/

namespace HotelBackend.Outbox

open HotelBackend.Common
open HotelBackend.Theory

/-! ### The machine -/

/-- A statement some process runs. -/
inductive Statement where
  /-- A booking transaction or an export request writes an event. -/
  | insert (id eventType : String) (payload : Json) (idempotencyKey : String)
  /-- A dispatcher or a relay claims a batch. -/
  | claim (family : Family) (batchSize leaseMs : ℕ) (claimToken : String) (skipExpired skipDue : String → Bool)
  /-- A dispatcher hands a claim back. -/
  | release (family : Family) (key : ClaimKey) (retryInMs : ℕ) (errorCode : String)
  | deliverySent (key : ClaimKey)
  | deliveryRetry (key : ClaimKey) (retryInMs : ℕ) (errorCode : String)
  | deliveryFailed (key : ClaimKey) (errorCode : String)
  | deliveryRenew (id claimToken : String) (claimLeaseMs : ℕ)
  | redrive (id : String)
  | exportRenew (id claimToken : String) (leaseMs : ℕ)
  | exportComplete (key : ClaimKey)
  | exportRetry (key : ClaimKey) (retryInMs : ℕ) (errorCode : String)
  | exportFail (key : ClaimKey) (errorCode : String)
  | lifecyclePublished (ids : List String) (claimToken : String)
  | lifecycleRetry (ids : List String) (claimToken : String) (initialMs maxMs : ℕ) (rand : String → ℚ) (errorCode : String)
  | lifecycleFailed (ids : List String) (claimToken errorCode : String)

namespace Statement

/-- The update a statement is, unless it inserts or claims. -/
def update (now : ℕ) : Statement → Option Update
  | insert .. => none
  | claim .. => none
  | release family key retryInMs errorCode => some (Outbox.release family.eventTypes key retryInMs errorCode now)
  | deliverySent key => some (DeliveryResult.markSent key now)
  | deliveryRetry key retryInMs errorCode => some (DeliveryResult.markRetry key retryInMs errorCode now)
  | deliveryFailed key errorCode => some (DeliveryResult.markFailed key errorCode now)
  | deliveryRenew id claimToken claimLeaseMs => some (DeliveryResult.renew id claimToken claimLeaseMs now)
  | redrive id => some (NotificationRedrive.resetEvent id now)
  | exportRenew id claimToken leaseMs => some (RoomExportAttempt.renew id claimToken leaseMs now)
  | exportComplete key => some (RoomExportAttempt.complete key now)
  | exportRetry key retryInMs errorCode => some (RoomExportAttempt.retry key retryInMs errorCode now)
  | exportFail key errorCode => some (RoomExportAttempt.fail key errorCode now)
  | lifecyclePublished ids claimToken => some (BookingLifecycleRelay.markPublished ids claimToken now)
  | lifecycleRetry ids claimToken initialMs maxMs rand errorCode =>
    some (BookingLifecycleRelay.markRetry ids claimToken initialMs maxMs rand errorCode now)
  | lifecycleFailed ids claimToken errorCode => some (BookingLifecycleRelay.markFailed ids claimToken errorCode now)

/-- The family whose dispatcher, worker, relay or command runs it. -/
def family : Statement → Option Family
  | insert .. => none
  | claim family .. | release family .. => some family
  | deliverySent .. | deliveryRetry .. | deliveryFailed .. | deliveryRenew .. | redrive .. => some .notification
  | exportRenew .. | exportComplete .. | exportRetry .. | exportFail .. => some .roomExport
  | lifecyclePublished .. | lifecycleRetry .. | lifecycleFailed .. => some .bookingLifecycle

/-- The claim it acts on, if it names one. -/
def key : Statement → Option ClaimKey
  | release _ key .. | deliverySent key | deliveryRetry key .. | deliveryFailed key .. | exportComplete key
  | exportRetry key .. | exportFail key .. => some key
  | _ => none

/-- The claim token it carries, if it acts on a claim. -/
def token : Statement → Option String
  | insert .. | claim .. | redrive .. => none
  | release _ key .. | deliverySent key | deliveryRetry key .. | deliveryFailed key .. | exportComplete key
  | exportRetry key .. | exportFail key .. => some key.claimToken
  | deliveryRenew _ claimToken _ | exportRenew _ claimToken _ | lifecyclePublished _ claimToken
  | lifecycleRetry _ claimToken .. | lifecycleFailed _ claimToken _ => some claimToken

/-- The attempt it checks, if it does. -/
def attempt : Statement → Option ℕ
  | release _ key .. | deliverySent key | deliveryRetry key .. | deliveryFailed key .. | exportComplete key
  | exportRetry key .. | exportFail key .. => some key.attempt
  | _ => none

/-- It is a redrive. -/
def isRedrive : Statement → Bool
  | redrive _ => true
  | _ => false

/-- It is a release. -/
def isRelease : Statement → Bool
  | release .. => true
  | _ => false

/-- It reschedules an attempt that was made. -/
def isRetry : Statement → Bool
  | deliveryRetry .. | exportRetry .. | lifecycleRetry .. => true
  | _ => false

end Statement

/-- The table, and the claims handed out so far. -/
structure State where
  rows : List OutboxEvent
  claims : List ClaimKey

/-- The claims of a batch, with the token they were taken under. -/
def claimKeys (claimToken : String) (claims : List OutboxClaim) : List ClaimKey :=
  claims.map fun c => ⟨c.id, claimToken, c.attempt⟩

/-- A statement at a time. A claim that fails is rolled back. -/
def State.exec (s : State) (now : ℕ) : Statement → Option State
  | .insert id eventType payload key =>
    if s.rows.any fun e => e.id = id ∨ e.idempotencyKey = key then none
    else some { s with rows := s.rows ++ [.fresh id eventType payload key now] }
  | .claim family batchSize leaseMs claimToken skipExpired skipDue =>
    if s.claims.any fun c => c.claimToken = claimToken then none
    else match claimBatch s.rows ⟨family.eventTypes, batchSize, leaseMs, claimToken⟩ skipExpired skipDue now with
      | .ok (rows, claims) => some ⟨rows, s.claims ++ claimKeys claimToken claims⟩
      | .error _ => some s
  | st => (st.update now).map fun u => { s with rows := u.run s.rows }

/-- Runs of the outbox, from an empty table. -/
def outbox : Machine State (ℕ × Statement) where
  init s := s = ⟨[], []⟩
  exec s a := s.exec a.1 a.2

/-! ### What a statement does to a row -/

/-- A statement that is no insert and no claim changed the row `e` into `e'`. -/
structure Change (st : Statement) (e e' : OutboxEvent) : Prop where
  id : e'.id = e.id
  eventType : e'.eventType = e.eventType
  family : ∃ f, st.family = some f ∧ e.eventType ∈ f.eventTypes
  lease : e'.leaseState = true
  attempts : e'.attempts ≤ e.attempts
  /-- A row is held afterwards only by the claim that held it before. -/
  processing : e'.status = .processing → e.status = .processing ∧ e'.lockedBy = e.lockedBy ∧ e'.attempts = e.attempts
  /-- It was held under the token the statement carries, or was redriven from failure. -/
  held : (∃ t, st.token = some t ∧ e.status = .processing ∧ e.lockedBy = some t) ∨
    (st.token = none ∧ st.isRedrive = true ∧ e.status = .failed)
  attempt : ∀ n, st.attempt = some n → e.attempts = n
  /-- The claim it names holds the row. -/
  holds : ∀ key, st.key = some key → key.holds e = true
  /-- The row waits again for one of three reasons. -/
  pending : e'.status = .pending → st.isRelease = true ∨ st.isRetry = true ∨ st.isRedrive = true
  release : st.isRelease = true → e'.attempts = e.attempts - 1
  counted : st.isRelease = false → st.isRedrive = false → e'.attempts = e.attempts

section Rows

variable {e : OutboxEvent} {now : ℕ}

/-- Only a held row has a holder. -/
theorem status_of_lockedBy (hl : e.leaseState = true) {t : String} (h : e.lockedBy = some t) : e.status = .processing := by
  cases hs : e.status <;> simp [OutboxEvent.leaseState, hs, h] at hl ⊢

/-- A held row has a holder. -/
theorem lockedBy_of_status (hl : e.leaseState = true) (h : e.status = .processing) : ∃ t, e.lockedBy = some t := by
  simp only [OutboxEvent.leaseState, h, Bool.and_eq_true] at hl
  exact Option.isSome_iff_exists.1 hl.1.1.2

/-- What a claim matches is held. -/
theorem ClaimKey.holds_iff {key : ClaimKey} : key.holds e = true ↔
    e.id = key.id ∧ e.status = .processing ∧ e.lockedBy = some key.claimToken ∧ e.attempts = key.attempt := by
  simp only [ClaimKey.holds, Bool.and_eq_true, decide_eq_true_eq, and_assoc]

/-- Two claims that hold a row are one. -/
theorem ClaimKey.eq_of_holds {c d : ClaimKey} (hc : c.holds e = true) (hd : d.holds e = true) : c = d := by
  obtain ⟨hcid, -, hct, hca⟩ := ClaimKey.holds_iff.1 hc
  obtain ⟨hdid, -, hdt, hda⟩ := ClaimKey.holds_iff.1 hd
  cases c
  cases d
  simp only at hcid hct hca hdid hdt hda
  rw [ClaimKey.mk.injEq]
  exact ⟨hcid.symm.trans hdid, Option.some.inj (hct.symm.trans hdt), hca.symm.trans hda⟩

/-- An outcome of a held row satisfies the lease check. -/
theorem Outcome.leaseState_apply (outcome : Outcome) (hl : e.leaseState = true) (hs : e.status = .processing) :
    (outcome.apply now e).leaseState = true := by
  cases outcome <;> simp [OutboxEvent.leaseState, hs, Outcome.apply, OutboxEvent.unlock] at hl ⊢ <;> simp [hl]

theorem Outcome.status_apply (outcome : Outcome) : (outcome.apply now e).status ≠ .processing := by
  cases outcome <;> simp [Outcome.apply]

theorem Outcome.isRetry_of_apply (outcome : Outcome) (h : (outcome.apply now e).status = .pending) : outcome.isRetry = true := by
  cases outcome <;> simp [Outcome.apply, Outcome.isRetry] at h ⊢

/-- Finishing an event held under the token of the statement. -/
theorem change_of_outcome {st : Statement} {t : String} (outcome : Outcome) {f : Family} (hl : e.leaseState = true)
    (hfam : st.family = some f) (htype : e.eventType ∈ f.eventTypes) (htoken : st.token = some t)
    (hs : e.status = .processing) (hlocked : e.lockedBy = some t) (hattempt : ∀ n, st.attempt = some n → e.attempts = n)
    (hholds : ∀ key, st.key = some key → key.holds e = true) (hrel : st.isRelease = false)
    (hretry : st.isRetry = outcome.isRetry) : Change st e (outcome.apply now e) where
  id := by cases outcome <;> rfl
  eventType := by cases outcome <;> rfl
  family := ⟨f, hfam, htype⟩
  lease := outcome.leaseState_apply hl hs
  attempts := by cases outcome <;> exact le_refl _
  processing h := absurd h outcome.status_apply
  held := .inl ⟨t, htoken, hs, hlocked⟩
  attempt := hattempt
  holds := hholds
  pending h := .inr (.inl (hretry.trans (outcome.isRetry_of_apply h)))
  release h := by rw [hrel] at h; cases h
  counted _ _ := by cases outcome <;> rfl

/-- Finishing an event checked by token and attempt. -/
theorem change_of_finishEvent {st : Statement} {key : ClaimKey} {outcome : Outcome} {f : Family} (hl : e.leaseState = true)
    (hfam : st.family = some f) (htoken : st.token = some key.claimToken) (hattempt : st.attempt = some key.attempt)
    (hkey : st.key = some key) (hrel : st.isRelease = false) (hretry : st.isRetry = outcome.isRetry) (hp : (finishEvent f.eventTypes key outcome now).pred e = true) :
    Change st e ((finishEvent f.eventTypes key outcome now).set e) := by
  simp only [finishEvent, Bool.and_eq_true, decide_eq_true_eq] at hp
  obtain ⟨htype, hholds⟩ := hp
  obtain ⟨-, hs, hlocked, hatt⟩ := ClaimKey.holds_iff.1 hholds
  refine change_of_outcome outcome hl hfam htype htoken hs hlocked ?_ ?_ hrel hretry
  · intro n hn
    rw [hattempt, Option.some.injEq] at hn
    rw [hatt, hn]
  · intro key' hkey'
    exact Option.some.inj (hkey.symm.trans hkey') ▸ hholds

/-- Finishing a batch checked by its token. -/
theorem change_of_finish {st : Statement} {ids : List String} {t : String} {outcome : Outcome} (hl : e.leaseState = true)
    (hfam : st.family = some .bookingLifecycle) (htoken : st.token = some t) (hattempt : st.attempt = none) (hkey : st.key = none)
    (hrel : st.isRelease = false) (hretry : st.isRetry = outcome.isRetry) (hp : (BookingLifecycleRelay.finish ids t outcome now).pred e = true) :
    Change st e ((BookingLifecycleRelay.finish ids t outcome now).set e) := by
  simp only [BookingLifecycleRelay.finish, Bool.and_eq_true, decide_eq_true_eq] at hp
  obtain ⟨⟨⟨-, htype⟩, hs⟩, hlocked⟩ := hp
  refine change_of_outcome outcome hl hfam htype htoken hs hlocked ?_ ?_ hrel hretry
  · intro n hn
    rw [hattempt] at hn
    cases hn
  · intro key hkey'
    rw [hkey] at hkey'
    cases hkey'

/-- A later expiry of the lease. -/
theorem change_of_renew {st : Statement} {t : String} {expiresAt : ℕ} {f : Family} (hl : e.leaseState = true)
    (hfam : st.family = some f) (htype : e.eventType ∈ f.eventTypes) (htoken : st.token = some t)
    (hattempt : st.attempt = none) (hkey : st.key = none) (hrel : st.isRelease = false) (hlocked : e.lockedBy = some t) :
    Change st e { e with lockExpiresAt := some expiresAt } where
  id := rfl
  eventType := rfl
  family := ⟨f, hfam, htype⟩
  lease := by
    have hs := status_of_lockedBy hl hlocked
    simp only [OutboxEvent.leaseState, hs] at hl ⊢
    simp only [Bool.and_eq_true] at hl ⊢
    exact ⟨⟨⟨⟨hl.1.1.1.1, rfl⟩, hl.1.1.2⟩, hl.1.2⟩, hl.2⟩
  attempts := le_refl _
  processing h := ⟨h, rfl, rfl⟩
  held := .inl ⟨t, htoken, status_of_lockedBy hl hlocked, hlocked⟩
  attempt n hn := by rw [hattempt] at hn; cases hn
  holds key h := by rw [hkey] at h; cases h
  pending h := by
    rw [status_of_lockedBy hl hlocked] at h
    cases h
  release h := by rw [hrel] at h; cases h
  counted _ _ := rfl

/-- Handing a claim back. -/
theorem change_of_release {family : Family} {key : ClaimKey} {retryInMs : ℕ} {errorCode : String} (hl : e.leaseState = true)
    (htype : e.eventType ∈ family.eventTypes) (hholds : key.holds e = true) :
    Change (.release family key retryInMs errorCode) e ((release family.eventTypes key retryInMs errorCode now).set e) where
  id := rfl
  eventType := rfl
  family := ⟨family, rfl, htype⟩
  lease := by
    simp only [OutboxEvent.leaseState, (ClaimKey.holds_iff.1 hholds).2.1, Bool.and_eq_true] at hl
    simp only [OutboxEvent.leaseState, release, OutboxEvent.unlock, hl.1.2, hl.2, Option.isNone_none, Bool.and_self]
  attempts := Nat.sub_le _ _
  processing h := by cases h
  held := .inl ⟨_, rfl, (ClaimKey.holds_iff.1 hholds).2.1, (ClaimKey.holds_iff.1 hholds).2.2.1⟩
  attempt n hn := (ClaimKey.holds_iff.1 hholds).2.2.2.trans (Option.some.inj hn)
  holds _ h := Option.some.inj h ▸ hholds
  pending _ := .inl rfl
  release _ := rfl
  counted h := by cases h

/-- Another budget for a failed event. -/
theorem change_of_redrive {id : String} (hl : e.leaseState = true) (htype : e.eventType ∈ notificationEventTypes)
    (hs : e.status = .failed) : Change (.redrive id) e ((NotificationRedrive.resetEvent id now).set e) where
  id := rfl
  eventType := rfl
  family := ⟨.notification, rfl, htype⟩
  lease := by
    simp only [OutboxEvent.leaseState, hs, Bool.and_eq_true] at hl
    simp only [OutboxEvent.leaseState, NotificationRedrive.resetEvent, OutboxEvent.unlock, hl.1.1.2, Option.isNone_none,
      Bool.and_self]
  attempts := Nat.zero_le _
  processing h := by cases h
  held := .inr ⟨rfl, rfl, hs⟩
  attempt n hn := by cases hn
  holds _ h := by cases h
  pending _ := .inr (.inr rfl)
  release h := by cases h
  counted _ h := by cases h

/-- What a statement other than an insert and a claim does to a row it matches. -/
theorem change_of_update {st : Statement} {u : Update} (hu : st.update now = some u) (hl : e.leaseState = true)
    (hp : u.pred e = true) : Change st e (u.set e) := by
  cases st with
  | insert | claim => cases hu
  | release family key retryInMs errorCode =>
    obtain rfl := Option.some.inj hu
    simp only [release, Bool.and_eq_true, decide_eq_true_eq] at hp
    exact change_of_release hl hp.1 hp.2
  | deliverySent | deliveryRetry | deliveryFailed =>
    obtain rfl := Option.some.inj hu
    exact change_of_finishEvent (f := .notification) hl rfl rfl rfl rfl rfl rfl hp
  | deliveryRenew id claimToken claimLeaseMs =>
    obtain rfl := Option.some.inj hu
    simp only [DeliveryResult.renew, Bool.and_eq_true, decide_eq_true_eq] at hp
    obtain ⟨⟨-, htype⟩, hlocked⟩ := hp
    exact change_of_renew (f := .notification) hl rfl htype rfl rfl rfl rfl hlocked
  | redrive id =>
    obtain rfl := Option.some.inj hu
    simp only [NotificationRedrive.resetEvent, Bool.and_eq_true, decide_eq_true_eq] at hp
    exact change_of_redrive hl hp.1.2 hp.2
  | exportRenew id claimToken leaseMs =>
    obtain rfl := Option.some.inj hu
    simp only [RoomExportAttempt.renew, Bool.and_eq_true, decide_eq_true_eq] at hp
    obtain ⟨⟨⟨⟨-, htype⟩, -⟩, hlocked⟩, -⟩ := hp
    exact change_of_renew (f := .roomExport) hl rfl htype rfl rfl rfl rfl hlocked
  | exportComplete | exportRetry | exportFail =>
    obtain rfl := Option.some.inj hu
    exact change_of_finishEvent (f := .roomExport) hl rfl rfl rfl rfl rfl rfl hp
  | lifecyclePublished | lifecycleRetry | lifecycleFailed =>
    obtain rfl := Option.some.inj hu
    exact change_of_finish hl rfl rfl rfl rfl rfl rfl hp

end Rows

/-! ### What a claim does -/

/-- A batch was claimed. -/
structure Claimed (rows : List OutboxEvent) (input : OutboxClaimInput) (now : ℕ) (rows' : List OutboxEvent)
    (claims : List OutboxClaim) : Prop where
  table : rows' = (claimUpdate input (claims.map (·.id)) now).run rows
  nodup : (claims.map (·.id)).Nodup
  eligible : ∀ e ∈ rows, e.id ∈ claims.map (·.id) → isExpired input.eventTypes now e = true ∨ isDue input.eventTypes now e = true
  room : ∀ e ∈ rows, e.id ∈ claims.map (·.id) → e.attempts < Table.maxSmallint
  attempt : ∀ c ∈ claims, ∃ e ∈ rows, e.id = c.id ∧ c.attempt = e.attempts + 1

section Claims

variable {rows : List OutboxEvent} {input : OutboxClaimInput} {skipExpired skipDue : String → Bool} {now : ℕ}

theorem mem_selectEligible {p : OutboxEvent → Bool} {skip : String → Bool} {limit : ℕ} {e : OutboxEvent}
    (h : e ∈ selectEligible rows p skip limit) : e ∈ rows ∧ p e = true := by
  have := (List.perm_insertionSort _ _).mem_iff.1 (List.mem_of_mem_take h)
  rw [List.mem_filter, Bool.and_eq_true] at this
  exact ⟨this.1, this.2.1⟩

/-- A select returns a row once. -/
theorem nodup_selectEligible (hn : (rows.map (·.id)).Nodup) (p : OutboxEvent → Bool) (skip : String → Bool) (limit : ℕ) :
    ((selectEligible rows p skip limit).map (·.id)).Nodup := by
  refine List.Nodup.sublist ((List.take_sublist _ _).map _) ?_
  rw [((List.perm_insertionSort _ _).map _).nodup_iff]
  exact hn.sublist ((List.filter_sublist).map _)

theorem mem_eligible {e : OutboxEvent} (h : e ∈ eligible rows input skipExpired skipDue now) :
    e ∈ rows ∧ (isExpired input.eventTypes now e = true ∨ isDue input.eventTypes now e = true) := by
  have := (List.perm_insertionSort _ _).mem_iff.1 h
  rcases List.mem_append.1 this with h | h
  · exact ⟨(mem_selectEligible h).1, .inl (mem_selectEligible h).2⟩
  · split at h
    · exact ⟨(mem_selectEligible h).1, .inr (mem_selectEligible h).2⟩
    · cases h

/-- An abandoned row is not waiting. -/
theorem not_isDue_of_isExpired {eventTypes : List String} {e : OutboxEvent} (h : isExpired eventTypes now e = true) :
    isDue eventTypes now e = false := by
  simp only [isExpired, Bool.and_eq_true, decide_eq_true_eq] at h
  simp [isDue, h.1.2]

/-- A batch names a row once. -/
theorem nodup_eligible (hn : (rows.map (·.id)).Nodup) :
    ((eligible rows input skipExpired skipDue now).map (·.id)).Nodup := by
  rw [eligible, ((List.perm_insertionSort _ _).map _).nodup_iff, List.map_append]
  refine List.Nodup.append (nodup_selectEligible hn _ _ _) ?_ ?_
  · split
    · exact nodup_selectEligible hn _ _ _
    · exact List.nodup_nil
  · intro id h h'
    obtain ⟨e, he, rfl⟩ := List.mem_map.1 h
    obtain ⟨g, hg, hge⟩ := List.mem_map.1 h'
    split at hg
    · obtain rfl := Table.UniqueBy.of_nodup hn g (mem_selectEligible hg).1 e (mem_selectEligible he).1 hge
      have := not_isDue_of_isExpired (mem_selectEligible he).2
      rw [(mem_selectEligible hg).2] at this
      cases this
    · cases hg

theorem claimUpdate_pred {ids : List String} {e : OutboxEvent} : (claimUpdate input ids now).pred e = true ↔
    e.id ∈ ids ∧ e.eventType ∈ input.eventTypes := by
  simp only [claimUpdate, Bool.and_eq_true, decide_eq_true_eq]

theorem type_of_eligible {eventTypes : List String} {e : OutboxEvent}
    (h : isExpired eventTypes now e = true ∨ isDue eventTypes now e = true) : e.eventType ∈ eventTypes := by
  simp only [isExpired, isDue, Bool.and_eq_true, decide_eq_true_eq] at h
  rcases h with h | h <;> exact h.1.1

/-- The row a claim names is one the batch was selected from. -/
theorem eligible_of_mem (hn : (rows.map (·.id)).Nodup) {e : OutboxEvent} (he : e ∈ rows)
    (hid : e.id ∈ (eligible rows input skipExpired skipDue now).map (·.id)) :
    isExpired input.eventTypes now e = true ∨ isDue input.eventTypes now e = true := by
  obtain ⟨g, hg, hge⟩ := List.mem_map.1 hid
  obtain rfl := Table.UniqueBy.of_nodup hn g (mem_eligible hg).1 e he hge
  exact (mem_eligible hg).2

/-- The attempt read back is the attempt written. -/
theorem attempts_claimed (hn : (rows.map (·.id)).Nodup) {ids : List String} {e : OutboxEvent} (he : e ∈ rows)
    (hpred : (claimUpdate input ids now).pred e = true) :
    ((((claimUpdate input ids now).run rows).find? (·.id = e.id)).map (·.attempts)).getD 0 = e.attempts + 1 := by
  have hmem : (claimUpdate input ids now).set e ∈ (claimUpdate input ids now).run rows := Table.mem_update_of_pos he hpred
  have hkeys : ((claimUpdate input ids now).run rows).map (·.id) = rows.map (·.id) := Table.map_update fun _ _ _ => rfl
  have hfind := Table.find?_eq_some (hkeys ▸ hn) hmem
  rw [show ((claimUpdate input ids now).set e).id = e.id from rfl] at hfind
  rw [hfind]
  rfl

theorem claimBatch_ok {rows' : List OutboxEvent} {claims : List OutboxClaim} (hn : (rows.map (·.id)).Nodup)
    (h : claimBatch rows input skipExpired skipDue now = .ok (rows', claims)) : Claimed rows input now rows' claims := by
  unfold claimBatch at h
  split at h
  · cases h
  dsimp only at h
  split at h
  · obtain ⟨rfl, rfl⟩ := Prod.mk.inj (Except.ok.inj h)
    refine ⟨?_, List.nodup_nil, fun _ _ h => absurd h List.not_mem_nil,
      fun _ _ h => absurd h List.not_mem_nil, fun _ h => absurd h List.not_mem_nil⟩
    simp [Update.run, Table.update, claimUpdate]
  split at h
  · cases h
  case isFalse hroom =>
    obtain ⟨rfl, rfl⟩ := Prod.mk.inj (Except.ok.inj h)
    have hmap : ∀ l : List String, ∀ f : String → ℕ, (l.map fun id => (⟨id, f id⟩ : OutboxClaim)).map (·.id) = l :=
      fun l f => by rw [List.map_map]; exact List.map_id _
    refine ⟨by rw [hmap], by rw [hmap]; exact nodup_eligible hn, by rw [hmap]; exact fun e he => eligible_of_mem hn he, ?_, ?_⟩
    · rw [hmap]
      intro e he hid
      by_contra hlt
      refine hroom (List.any_eq_true.2 ⟨e, he, ?_⟩)
      rw [Bool.and_eq_true, decide_eq_true_eq]
      exact ⟨claimUpdate_pred.2 ⟨hid, type_of_eligible (eligible_of_mem hn he hid)⟩, not_lt.1 hlt⟩
    · intro c hc
      obtain ⟨id, hid, rfl⟩ := List.mem_map.1 hc
      obtain ⟨e, he, rfl⟩ := List.mem_map.1 hid
      exact ⟨e, (mem_eligible he).1, rfl, attempts_claimed hn (mem_eligible he).1
        (claimUpdate_pred.2 ⟨hid, type_of_eligible (mem_eligible he).2⟩)⟩

/-- A claim names what was selected. -/
theorem claimBatch_ids {rows' : List OutboxEvent} {claims : List OutboxClaim}
    (h : claimBatch rows input skipExpired skipDue now = .ok (rows', claims)) :
    claims.map (·.id) = (eligible rows input skipExpired skipDue now).map (·.id) := by
  unfold claimBatch at h
  split at h
  · cases h
  dsimp only at h
  split at h
  case isTrue hnone =>
    obtain ⟨rfl, rfl⟩ := Prod.mk.inj (Except.ok.inj h)
    exact hnone.symm
  split at h
  · cases h
  obtain ⟨rfl, rfl⟩ := Prod.mk.inj (Except.ok.inj h)
  rw [List.map_map]
  exact List.map_id _

end Claims

/-! ### The invariant -/

/-- All a statement can do to the outbox. -/
inductive Effect (s : State) (now : ℕ) : Statement → State → Prop where
  | insert {id eventType : String} {payload : Json} {key : String} : (∀ e ∈ s.rows, e.id ≠ id) →
      Effect s now (.insert id eventType payload key) ⟨s.rows ++ [.fresh id eventType payload key now], s.claims⟩
  | claim {family : Family} {batchSize leaseMs : ℕ} {claimToken : String} {skipExpired skipDue : String → Bool}
      {rows : List OutboxEvent} {claims : List OutboxClaim} : (∀ c ∈ s.claims, c.claimToken ≠ claimToken) →
      claimBatch s.rows ⟨family.eventTypes, batchSize, leaseMs, claimToken⟩ skipExpired skipDue now = .ok (rows, claims) →
      Effect s now (.claim family batchSize leaseMs claimToken skipExpired skipDue) ⟨rows, s.claims ++ claimKeys claimToken claims⟩
  | claimFailed {family : Family} {batchSize leaseMs : ℕ} {claimToken : String} {skipExpired skipDue : String → Bool} :
      Effect s now (.claim family batchSize leaseMs claimToken skipExpired skipDue) s
  | update {st : Statement} {u : Update} : st.update now = some u → Effect s now st ⟨u.run s.rows, s.claims⟩

theorem effect_of_exec {s s' : State} {now : ℕ} {st : Statement} (h : s.exec now st = some s') : Effect s now st s' := by
  unfold State.exec at h
  split at h
  case h_1 id eventType payload key =>
    split at h
    · cases h
    case isFalse hnew =>
      obtain rfl := Option.some.inj h
      refine .insert fun e he hid => hnew (List.any_eq_true.2 ⟨e, he, ?_⟩)
      simp [hid]
  case h_2 =>
    split at h
    · cases h
    case isFalse hfresh =>
      split at h
      case h_1 hclaim =>
        obtain rfl := Option.some.inj h
        refine .claim (fun c hc ht => hfresh (List.any_eq_true.2 ⟨c, hc, ?_⟩)) hclaim
        simp [ht]
      case h_2 =>
        obtain rfl := Option.some.inj h
        exact .claimFailed
  case h_3 =>
    obtain ⟨u, hu, rfl⟩ := Option.map_eq_some_iff.1 h
    exact .update hu

/-- A statement that is an update runs as one. -/
theorem exec_of_update {st : Statement} {u : Update} {o : State} (hu : st.update now = some u) :
    o.exec now st = some { o with rows := u.run o.rows } := by
  cases st with
  | insert | claim => cases hu
  | _ =>
    obtain rfl := Option.some.inj hu
    rfl

/-- The invariant of the outbox. -/
structure Inv (s : State) : Prop where
  ids : (s.rows.map (·.id)).Nodup
  lease : ∀ e ∈ s.rows, e.leaseState = true
  /-- A held row is held by a claim that was handed out. -/
  held : ∀ e ∈ s.rows, e.status = .processing → ∃ c ∈ s.claims, c.holds e = true
  /-- A token claims a row once. -/
  unique : (s.claims.map fun c => (c.id, c.claimToken)).Nodup
  positive : ∀ c ∈ s.claims, 1 ≤ c.attempt
  bounded : ∀ e ∈ s.rows, e.attempts ≤ Table.maxSmallint
  counted : ∀ e ∈ s.rows, e.attempts ≤ s.claims.countP (·.id = e.id)

section Inv

variable {s : State} {now : ℕ}

theorem inv_insert {id eventType : String} {payload : Json} {key : String} (hi : Inv s) (hnew : ∀ e ∈ s.rows, e.id ≠ id) :
    Inv ⟨s.rows ++ [.fresh id eventType payload key now], s.claims⟩ where
  ids := by
    rw [List.map_append, List.nodup_append]
    refine ⟨hi.ids, List.nodup_singleton _, fun a ha b hb => ?_⟩
    obtain ⟨e, he, rfl⟩ := List.mem_map.1 ha
    rw [List.mem_singleton.1 hb]
    exact hnew e he
  lease := List.forall_mem_append.2 ⟨hi.lease, List.forall_mem_singleton.2 rfl⟩
  held := List.forall_mem_append.2 ⟨hi.held, List.forall_mem_singleton.2 fun h => by cases h⟩
  unique := hi.unique
  positive := hi.positive
  bounded := List.forall_mem_append.2 ⟨hi.bounded, List.forall_mem_singleton.2 (Nat.zero_le _)⟩
  counted := List.forall_mem_append.2 ⟨hi.counted, List.forall_mem_singleton.2 (Nat.zero_le _)⟩

/-- A row after an update is a row the update changed, or a row it left alone. -/
theorem mem_run {st : Statement} {u : Update} {rows : List OutboxEvent} (hl : ∀ e ∈ rows, e.leaseState = true)
    (hu : st.update now = some u) {e' : OutboxEvent} (h : e' ∈ u.run rows) :
    ∃ e ∈ rows, Change st e e' ∨ e' = e := by
  obtain ⟨e, he, ⟨hp, rfl⟩ | ⟨-, rfl⟩⟩ := Table.mem_update.1 h
  · exact ⟨e, he, .inl (change_of_update hu (hl e he) hp)⟩
  · exact ⟨e, he, .inr rfl⟩

theorem inv_update {st : Statement} {u : Update} (hi : Inv s) (hu : st.update now = some u) :
    Inv ⟨u.run s.rows, s.claims⟩ where
  ids := by
    have : (u.run s.rows).map (·.id) = s.rows.map (·.id) :=
      Table.map_update fun e he hp => (change_of_update hu (hi.lease e he) hp).id
    exact this ▸ hi.ids
  lease e' he' := by
    obtain ⟨e, he, hc | rfl⟩ := mem_run hi.lease hu he'
    · exact hc.lease
    · exact hi.lease _ he
  held e' he' hs := by
    obtain ⟨e, he, hc | rfl⟩ := mem_run hi.lease hu he'
    · obtain ⟨hs', hlocked, hatt⟩ := hc.processing hs
      obtain ⟨c, hcmem, hholds⟩ := hi.held e he hs'
      obtain ⟨hid, -, ht, ha⟩ := ClaimKey.holds_iff.1 hholds
      exact ⟨c, hcmem, ClaimKey.holds_iff.2 ⟨hc.id.trans hid, hs, hlocked.trans ht, hatt.trans ha⟩⟩
    · exact hi.held _ he hs
  unique := hi.unique
  positive := hi.positive
  bounded e' he' := by
    obtain ⟨e, he, hc | rfl⟩ := mem_run hi.lease hu he'
    · exact hc.attempts.trans (hi.bounded e he)
    · exact hi.bounded _ he
  counted e' he' := by
    obtain ⟨e, he, hc | rfl⟩ := mem_run hi.lease hu he'
    · rw [hc.id]
      exact hc.attempts.trans (hi.counted e he)
    · exact hi.counted _ he

/-- A row after a claim is a row it took, with the claim that holds it now, or a row it left alone. -/
theorem Claimed.mem {rows rows' : List OutboxEvent} {input : OutboxClaimInput} {claims : List OutboxClaim}
    (hn : (rows.map (·.id)).Nodup) (h : Claimed rows input now rows' claims) {e' : OutboxEvent} (he' : e' ∈ rows') :
    ∃ e ∈ rows, (e' = (claimUpdate input [] now).set e ∧ e.attempts < Table.maxSmallint ∧ ⟨e.id, e.attempts + 1⟩ ∈ claims ∧
      (isExpired input.eventTypes now e = true ∨ isDue input.eventTypes now e = true)) ∨ e' = e := by
  rw [h.table] at he'
  obtain ⟨e, he, ⟨hp, rfl⟩ | ⟨-, rfl⟩⟩ := Table.mem_update.1 he'
  · have hid := (claimUpdate_pred.1 hp).1
    obtain ⟨c, hc, hce⟩ := List.mem_map.1 hid
    obtain ⟨g, hg, hgc, hatt⟩ := h.attempt c hc
    obtain rfl := Table.UniqueBy.of_nodup hn g hg e he (hgc.trans hce)
    have hc' : (⟨g.id, g.attempts + 1⟩ : OutboxClaim) = c := by rw [hgc, ← hatt]
    exact ⟨g, he, .inl ⟨rfl, h.room g he hid, hc' ▸ hc, h.eligible g he hid⟩⟩
  · exact ⟨_, he, .inr rfl⟩

/-- A claimed row satisfies the lease check. -/
theorem leaseState_claimUpdate {input : OutboxClaimInput} {ids : List String} {eventTypes : List String} {e : OutboxEvent}
    (hl : e.leaseState = true) (h : isExpired eventTypes now e = true ∨ isDue eventTypes now e = true) :
    ((claimUpdate input ids now).set e).leaseState = true := by
  simp only [isExpired, isDue, Bool.and_eq_true, decide_eq_true_eq] at h
  rcases h with h | h
  all_goals
    simp only [OutboxEvent.leaseState, h.1.2, Bool.and_eq_true] at hl
    simp only [OutboxEvent.leaseState, claimUpdate, hl.1.2, hl.2, Option.isSome_some, Bool.and_self]

theorem inv_claim {input : OutboxClaimInput} {rows : List OutboxEvent} {claims : List OutboxClaim} (hi : Inv s)
    (hfresh : ∀ c ∈ s.claims, c.claimToken ≠ input.claimToken) (h : Claimed s.rows input now rows claims) :
    Inv ⟨rows, s.claims ++ claimKeys input.claimToken claims⟩ where
  ids := by
    have : rows.map (·.id) = s.rows.map (·.id) := by
      rw [h.table]
      exact Table.map_update fun _ _ _ => rfl
    exact this ▸ hi.ids
  lease e' he' := by
    obtain ⟨e, he, ⟨rfl, -, -, hel⟩ | rfl⟩ := h.mem hi.ids he'
    · exact leaseState_claimUpdate (hi.lease e he) hel
    · exact hi.lease _ he
  held e' he' hs := by
    obtain ⟨e, he, ⟨rfl, -, hc, -⟩ | rfl⟩ := h.mem hi.ids he'
    · refine ⟨⟨e.id, input.claimToken, e.attempts + 1⟩, List.mem_append_right _ (List.mem_map.2 ⟨_, hc, rfl⟩), ?_⟩
      exact ClaimKey.holds_iff.2 ⟨rfl, rfl, rfl, rfl⟩
    · obtain ⟨c, hc, hholds⟩ := hi.held _ he hs
      exact ⟨c, List.mem_append_left _ hc, hholds⟩
  unique := by
    rw [List.map_append, claimKeys, List.map_map]
    refine List.Nodup.append hi.unique ?_ ?_
    · refine List.Nodup.of_map Prod.fst ?_
      rw [List.map_map]
      exact h.nodup
    · intro k hk hk'
      obtain ⟨c, hc, rfl⟩ := List.mem_map.1 hk
      obtain ⟨d, -, hd⟩ := List.mem_map.1 hk'
      exact hfresh c hc (congrArg Prod.snd hd).symm
  positive := by
    refine List.forall_mem_append.2 ⟨hi.positive, fun k hk => ?_⟩
    obtain ⟨c, hc, rfl⟩ := List.mem_map.1 hk
    obtain ⟨e, -, -, hatt⟩ := h.attempt c hc
    exact hatt ▸ Nat.le_add_left 1 _
  bounded e' he' := by
    obtain ⟨e, he, ⟨rfl, hroom, -⟩ | rfl⟩ := h.mem hi.ids he'
    · exact hroom
    · exact hi.bounded _ he
  counted e' he' := by
    rw [List.countP_append]
    obtain ⟨e, he, ⟨rfl, -, hc, -⟩ | rfl⟩ := h.mem hi.ids he'
    · have hpos : 0 < (claimKeys input.claimToken claims).countP (·.id = e.id) :=
        List.countP_pos_iff.2 ⟨_, List.mem_map.2 ⟨_, hc, rfl⟩, decide_eq_true rfl⟩
      exact Nat.add_le_add (hi.counted e he) hpos
    · exact (hi.counted _ he).trans (Nat.le_add_right _ _)

theorem inv_step {s' : State} {st : Statement} (hi : Inv s) (h : s.exec now st = some s') : Inv s' := by
  cases effect_of_exec h with
  | insert hnew => exact inv_insert hi hnew
  | claim hfresh hclaim => exact inv_claim hi hfresh (claimBatch_ok hi.ids hclaim)
  | claimFailed => exact hi
  | update hu => exact inv_update hi hu

theorem inv_of_reachable (h : outbox.Reachable (fun _ _ => True) s) : Inv s := by
  refine h.invariant ?_ ?_
  · rintro s rfl
    exact ⟨List.nodup_nil, by simp, by simp, List.nodup_nil, by simp, by simp, by simp⟩
  · rintro s ⟨now, st⟩ s' hi - he
    exact inv_step hi he

/-! ### Safety -/

/-- What a statement may do to a row that is there: change it only with the family's right to it. -/
structure Permitted (s : State) (st : Statement) (e e' : OutboxEvent) : Prop where
  id : e'.id = e.id
  /-- The row belongs to the family that runs the statement, and stays there. -/
  family : e'.eventType = e.eventType ∧ ∃ f, st.family = some f ∧ e.eventType ∈ f.eventTypes
  /-- A token is the row's own: the claim it was handed out for matches the row. -/
  token : ∀ t, st.token = some t → ∃ c ∈ s.claims, c.claimToken = t ∧ c.holds e = true
  attempt : ∀ n, st.attempt = some n → e.attempts = n
  /-- Only under a token does a held row stop being held. -/
  finish : e.status = .processing → e'.status ≠ .processing → st.token ≠ none
  processed : e.status ≠ .processed
  failed : e.status = .failed → st.isRedrive = true
  release : st.isRelease = true → e'.attempts + 1 = e.attempts

/-- A claim to a row is unique: it is the one claim of that row under its token. -/
theorem Inv.claim_unique (hi : Inv s) {c d : ClaimKey} (hc : c ∈ s.claims) (hd : d ∈ s.claims) (hid : c.id = d.id)
    (ht : c.claimToken = d.claimToken) : c = d :=
  List.inj_on_of_nodup_map hi.unique hc hd (Prod.ext hid ht)

/-- What an update does to a row is permitted. -/
theorem permitted_of_change {st : Statement} {e e' : OutboxEvent} (hi : Inv s) (he : e ∈ s.rows) (hc : Change st e e') :
    Permitted s st e e' where
  id := hc.id
  family := ⟨hc.eventType, hc.family⟩
  token t ht := by
    rcases hc.held with ⟨t', ht', hs, hlocked⟩ | ⟨hnone, -⟩
    · obtain rfl := Option.some.inj (ht.symm.trans ht')
      obtain ⟨c, hcmem, hholds⟩ := hi.held e he hs
      refine ⟨c, hcmem, ?_, hholds⟩
      exact Option.some.inj ((ClaimKey.holds_iff.1 hholds).2.2.1.symm.trans hlocked)
    · rw [hnone] at ht
      cases ht
  attempt := hc.attempt
  finish hs _ := by
    rcases hc.held with ⟨t, ht, -⟩ | ⟨-, -, hf⟩
    · exact ht ▸ Option.some_ne_none t
    · rw [hs] at hf
      cases hf
  processed h := by
    rcases hc.held with ⟨-, -, hs, -⟩ | ⟨-, -, hs⟩ <;> rw [h] at hs <;> cases hs
  failed h := by
    rcases hc.held with ⟨-, -, hs, -⟩ | ⟨-, hr, -⟩
    · rw [h] at hs
      cases hs
    · exact hr
  release h := by
    rcases hc.held with ⟨-, -, hs, -⟩ | ⟨-, hr, -⟩
    · obtain ⟨c, hcmem, hholds⟩ := hi.held e he hs
      have hpos : 1 ≤ e.attempts := (ClaimKey.holds_iff.1 hholds).2.2.2 ▸ hi.positive c hcmem
      rw [hc.release h, Nat.sub_add_cancel hpos]
    · cases st with
      | release => cases hr
      | _ => cases h

/-- A row a claim takes is waiting or abandoned, and of the family. -/
theorem permitted_of_claim {family : Family} {batchSize leaseMs : ℕ} {claimToken : String} {skipExpired skipDue : String → Bool}
    {input : OutboxClaimInput} {ids : List String} {e : OutboxEvent}
    (hel : isExpired family.eventTypes now e = true ∨ isDue family.eventTypes now e = true) :
    Permitted s (.claim family batchSize leaseMs claimToken skipExpired skipDue) e ((claimUpdate input ids now).set e) where
  id := rfl
  family := ⟨rfl, family, rfl, type_of_eligible hel⟩
  token t ht := by cases ht
  attempt n hn := by cases hn
  finish _ h := absurd rfl h
  processed h := by simp [isExpired, isDue, h] at hel
  failed h := by simp [isExpired, isDue, h] at hel
  release h := by cases h

/-- A statement leaves a row alone, or changes it as it may. -/
theorem permitted_of_exec {s' : State} {st : Statement} (hi : Inv s) (h : s.exec now st = some s') {e : OutboxEvent}
    (he : e ∈ s.rows) : e ∈ s'.rows ∨ ∃ e' ∈ s'.rows, Permitted s st e e' := by
  cases effect_of_exec h with
  | insert => exact .inl (List.mem_append_left _ he)
  | claimFailed => exact .inl he
  | claim _ hclaim =>
    have hcl := claimBatch_ok hi.ids hclaim
    rw [hcl.table]
    cases hp : (claimUpdate _ _ now).pred e
    · exact .inl (Table.mem_update_of_neg he hp)
    · exact .inr ⟨_, Table.mem_update_of_pos he hp, permitted_of_claim (hcl.eligible e he (claimUpdate_pred.1 hp).1)⟩
  | @update _ u hu =>
    cases hp : u.pred e
    · exact .inl (Table.mem_update_of_neg he hp)
    · exact .inr ⟨_, Table.mem_update_of_pos he hp, permitted_of_change hi he (change_of_update hu (hi.lease e he) hp)⟩

/-- A claim that no longer matches its row. -/
def Superseded (s : State) (c : ClaimKey) : Prop := c ∈ s.claims ∧ ∀ e ∈ s.rows, c.holds e = false

/-- A claim once superseded stays so. -/
theorem superseded_step {s' : State} {st : Statement} {c : ClaimKey} (hi : Inv s) (hsup : Superseded s c)
    (h : s.exec now st = some s') : Superseded s' c := by
  obtain ⟨hc, hno⟩ := hsup
  cases effect_of_exec h with
  | insert =>
    refine ⟨hc, List.forall_mem_append.2 ⟨hno, List.forall_mem_singleton.2 ?_⟩⟩
    simp [ClaimKey.holds, OutboxEvent.fresh]
  | claimFailed => exact ⟨hc, hno⟩
  | claim hfresh hclaim =>
    refine ⟨List.mem_append_left _ hc, fun e' he' => ?_⟩
    obtain ⟨e, he, ⟨rfl, -⟩ | rfl⟩ := (claimBatch_ok hi.ids hclaim).mem hi.ids he'
    · refine Bool.eq_false_iff.2 fun hholds => ?_
      have ht := (ClaimKey.holds_iff.1 hholds).2.2.1
      exact hfresh c hc (Option.some.inj ht).symm
    · exact hno _ he
  | update hu =>
    refine ⟨hc, fun e' he' => ?_⟩
    obtain ⟨e, he, hch | rfl⟩ := mem_run hi.lease hu he'
    · refine Bool.eq_false_iff.2 fun hholds => ?_
      obtain ⟨hid, hs, ht, ha⟩ := ClaimKey.holds_iff.1 hholds
      obtain ⟨hs', ht', ha'⟩ := hch.processing hs
      have := hno e he
      rw [ClaimKey.holds_iff.2 ⟨hch.id ▸ hid, hs', ht' ▸ ht, ha' ▸ ha⟩] at this
      cases this
    · exact hno _ he

/-- A claim stays handed out. -/
theorem mem_claims_of_exec {s' : State} {st : Statement} (h : s.exec now st = some s') {c : ClaimKey} (hc : c ∈ s.claims) :
    c ∈ s'.claims := by
  cases effect_of_exec h with
  | claim => exact List.mem_append_left _ hc
  | insert | claimFailed | update => exact hc

/-- A claim that holds a row held it before. -/
theorem holds_of_exec {s' : State} {st : Statement} {c : ClaimKey} (hi : Inv s) (h : s.exec now st = some s') (hc : c ∈ s.claims)
    {e' : OutboxEvent} (he' : e' ∈ s'.rows) (hholds : c.holds e' = true) : ∃ e ∈ s.rows, c.holds e = true := by
  by_contra hno
  have hsup : Superseded s c := ⟨hc, fun e he => Bool.eq_false_iff.2 fun hh => hno ⟨e, he, hh⟩⟩
  have := (superseded_step hi hsup h).2 e' he'
  rw [hholds] at this
  cases this

/-- A row that holds is held by a claim that was handed out. -/
theorem Inv.mem_claims_of_holds (hi : Inv s) {c : ClaimKey} {e : OutboxEvent} (he : e ∈ s.rows) (hholds : c.holds e = true) :
    c ∈ s.claims := by
  obtain ⟨d, hd, hdholds⟩ := hi.held e he (ClaimKey.holds_iff.1 hholds).2.1
  exact ClaimKey.eq_of_holds hholds hdholds ▸ hd

/-! ### Open events -/

/-- Still to be dealt with. -/
def OutboxEventStatus.isOpen : OutboxEventStatus → Bool
  | pending | processing => true
  | processed | failed => false

/-- It ends a claim with an outcome, or opens a failed event again. -/
def Statement.decides : Statement → Bool
  | deliverySent .. | deliveryRetry .. | deliveryFailed .. | redrive .. | exportComplete .. | exportRetry .. | exportFail ..
  | lifecyclePublished .. | lifecycleRetry .. | lifecycleFailed .. => true
  | insert .. | claim .. | release .. | deliveryRenew .. | exportRenew .. => false

/-- A release and a renewal are of an open event, and leave it open. -/
theorem isOpen_of_update {st : Statement} {u : Update} {e : OutboxEvent} (hu : st.update now = some u) (hst : st.decides = false)
    (hl : e.leaseState = true) (hp : u.pred e = true) : e.status.isOpen = true ∧ (u.set e).status.isOpen = true := by
  have hc := change_of_update hu hl hp
  have hs : e.status = .processing := by
    rcases hc.held with ⟨-, -, hs, -⟩ | ⟨-, hr, -⟩
    · exact hs
    · cases st with
      | redrive => cases hst
      | _ => cases hr
  cases st with
  | insert | claim => cases hu
  | release =>
    obtain rfl := Option.some.inj hu
    exact ⟨hs ▸ rfl, rfl⟩
  | deliveryRenew | exportRenew =>
    obtain rfl := Option.some.inj hu
    exact ⟨hs ▸ rfl, show e.status.isOpen = true from hs ▸ rfl⟩
  | _ => cases hst

/-- What does not decide an event of the family keeps it as open, or as closed, as it is. -/
theorem open_step {f : Family} {s' : State} {st : Statement} (hi : Inv s) (h : s.exec now st = some s')
    (hst : st.family = some f → st.decides = false) {e : OutboxEvent} (he : e ∈ s.rows) (htype : e.eventType ∈ f.eventTypes) :
    ∃ e' ∈ s'.rows, e'.id = e.id ∧ e'.eventType = e.eventType ∧
      (e'.status = e.status ∨ (e.status.isOpen = true ∧ e'.status.isOpen = true)) := by
  cases effect_of_exec h with
  | insert => exact ⟨e, List.mem_append_left _ he, rfl, rfl, .inl rfl⟩
  | claimFailed => exact ⟨e, he, rfl, rfl, .inl rfl⟩
  | claim _ hclaim =>
    have hcl := claimBatch_ok hi.ids hclaim
    rw [hcl.table]
    cases hp : (claimUpdate _ _ now).pred e
    · exact ⟨e, Table.mem_update_of_neg he hp, rfl, rfl, .inl rfl⟩
    · refine ⟨_, Table.mem_update_of_pos he hp, rfl, rfl, .inr ⟨?_, rfl⟩⟩
      have hel := hcl.eligible e he (claimUpdate_pred.1 hp).1
      simp only [isExpired, isDue, Bool.and_eq_true, decide_eq_true_eq] at hel
      rcases hel with hel | hel <;> rw [hel.1.2] <;> rfl
  | @update _ u hu =>
    cases hp : u.pred e
    · exact ⟨e, Table.mem_update_of_neg he hp, rfl, rfl, .inl rfl⟩
    · have hc := change_of_update hu (hi.lease e he) hp
      obtain ⟨g, hfam, hg⟩ := hc.family
      obtain rfl := Family.eventTypes_disjoint hg htype
      exact ⟨_, Table.mem_update_of_pos he hp, hc.id, hc.eventType, .inr (isOpen_of_update hu (hst hfam) (hi.lease e he) hp)⟩

/-- Where a row comes from. -/
theorem mem_of_exec {s' : State} {st : Statement} (hi : Inv s) (h : s.exec now st = some s') {e' : OutboxEvent} (he' : e' ∈ s'.rows) :
    (∃ e ∈ s.rows, e.id = e'.id ∧ e.eventType = e'.eventType) ∨ ∃ payload key, st = .insert e'.id e'.eventType payload key := by
  cases effect_of_exec h with
  | insert =>
    rcases List.mem_append.1 he' with he' | he'
    · exact .inl ⟨e', he', rfl, rfl⟩
    · rw [List.mem_singleton.1 he']
      exact .inr ⟨_, _, rfl⟩
  | claimFailed => exact .inl ⟨e', he', rfl, rfl⟩
  | claim _ hclaim =>
    obtain ⟨e, he, ⟨rfl, -⟩ | rfl⟩ := (claimBatch_ok hi.ids hclaim).mem hi.ids he'
    · exact .inl ⟨e, he, rfl, rfl⟩
    · exact .inl ⟨_, he, rfl, rfl⟩
  | update hu =>
    obtain ⟨e, he, hc | rfl⟩ := mem_run hi.lease hu he'
    · exact .inl ⟨e, he, hc.id.symm, hc.eventType.symm⟩
    · exact .inl ⟨_, he, rfl, rfl⟩

/-! ### The lease protocol -/

/-- The lease protocol, in a state and in what can follow it. -/
structure LeaseProtocol (s : State) : Prop where
  /-- An id names one row. -/
  ids : (s.rows.map (·.id)).Nodup
  /-- Every row satisfies the table's check. -/
  lease : ∀ e ∈ s.rows, e.leaseState = true
  /-- At most one claim matches a row. -/
  one : ∀ e ∈ s.rows, (s.claims.filter (·.holds e)).length ≤ 1
  /-- No statement changes a row but as it may. -/
  step : ∀ now st s', s.exec now st = some s' → ∀ e ∈ s.rows, e ∈ s'.rows ∨ ∃ e' ∈ s'.rows, Permitted s st e e'
  /-- A holder whose claim no longer matches its row does not change it. -/
  superseded : ∀ now st s', s.exec now st = some s' → ∀ c ∈ s.claims, st.token = some c.claimToken →
    ∀ e ∈ s.rows, e.id = c.id → c.holds e = false → e ∈ s'.rows
  /-- Nor ever again will it match it. -/
  forever : ∀ as s', outbox.run s as = some s' → ∀ c, Superseded s c → Superseded s' c
  processed : ∀ as s', outbox.run s as = some s' → ∀ e ∈ s.rows, e.status = .processed → e ∈ s'.rows
  /-- A failed row is changed by a redrive only. -/
  failed : ∀ as s', outbox.run s as = some s' → (∀ a ∈ as, a.2.isRedrive = false) →
    ∀ e ∈ s.rows, e.status = .failed → e ∈ s'.rows

/-- At most one claim matches a row. -/
theorem Inv.one (hi : Inv s) (e : OutboxEvent) : (s.claims.filter (·.holds e)).length ≤ 1 := by
  refine Table.length_le_one ((hi.unique.of_map _).sublist List.filter_sublist) fun c hc d hd => ?_
  rw [List.mem_filter] at hc hd
  obtain ⟨hcid, -, hct, -⟩ := ClaimKey.holds_iff.1 hc.2
  obtain ⟨hdid, -, hdt, -⟩ := ClaimKey.holds_iff.1 hd.2
  exact hi.claim_unique hc.1 hd.1 (hcid.symm.trans hdid) (Option.some.inj (hct.symm.trans hdt))

/-- A final row stays as it is over a run without redrives of failed rows. -/
theorem final_run {s' : State} {e : OutboxEvent} {as : List (ℕ × Statement)} (hi : Inv s) (he : e ∈ s.rows)
    (has : ∀ a ∈ as, ∀ _ : State, e.status = .processed ∨ (e.status = .failed ∧ a.2.isRedrive = false))
    (hr : outbox.run s as = some s') : e ∈ s'.rows := by
  refine (Machine.run_induction (M := outbox) (I := fun s => Inv s ∧ e ∈ s.rows) ?_ has ⟨hi, he⟩ hr).2
  rintro s ⟨now, st⟩ s' ⟨hi, he⟩ hfinal hexec
  refine ⟨inv_step hi hexec, ?_⟩
  rcases permitted_of_exec hi hexec he with h | ⟨e', -, hp⟩
  · exact h
  · rcases hfinal with h | ⟨h, hr⟩
    · exact absurd h hp.processed
    · rw [hp.failed h] at hr
      cases hr

/-- **The outbox lease protocol** holds in every reachable state. -/
theorem lease_protocol (s : State) (h : outbox.Reachable (fun _ _ => True) s) : LeaseProtocol s where
  ids := (inv_of_reachable h).ids
  lease := (inv_of_reachable h).lease
  one e _ := (inv_of_reachable h).one e
  step _ _ _ hexec _ he := permitted_of_exec (inv_of_reachable h) hexec he
  superseded now st s' hexec c hc htoken e he hid hno := by
    rcases permitted_of_exec (inv_of_reachable h) hexec he with hmem | ⟨e', -, hp⟩
    · exact hmem
    · obtain ⟨d, hd, hdt, hholds⟩ := hp.token _ htoken
      obtain rfl := (inv_of_reachable h).claim_unique hd hc ((ClaimKey.holds_iff.1 hholds).1.symm.trans hid) hdt
      rw [hno] at hholds
      cases hholds
  forever as s' hr c hsup := by
    refine (Machine.run_induction (M := outbox) (I := fun s => Inv s ∧ Superseded s c) (P := fun _ _ => True) ?_
      (fun _ _ _ => trivial) ⟨inv_of_reachable h, hsup⟩ hr).2
    rintro s ⟨now, st⟩ s' ⟨hi, hsup⟩ - hexec
    exact ⟨inv_step hi hexec, superseded_step hi hsup hexec⟩
  processed as s' hr e he hs := final_run (inv_of_reachable h) he (fun _ _ _ => .inl hs) hr
  failed as s' hr has e he hs := final_run (inv_of_reachable h) he (fun a ha _ => .inr ⟨hs, has a ha⟩) hr

end Inv

/-- A worker dies and its claim is recovered; it comes back too late; the recovered claim is
released, claimed again and finished, next to an event of another family. -/
def crashRecovery : List (ℕ × Statement) :=
  let none : String → Bool := fun _ => false
  [(0, .insert "mail" "booking.confirmed" (.obj []) "mail-key"),
   (0, .insert "stream" bookingLifecycleEventType (.obj []) "stream-key"),
   (10, .claim .notification 10 60 "first" none none),
   (70000, .claim .notification 10 60 "second" none none),
   (70001, .deliverySent ⟨"mail", "first", 1⟩),
   (70002, .release .notification ⟨"mail", "second", 2⟩ 5 "NOTIFICATION_QUEUE_UNAVAILABLE"),
   (80000, .claim .notification 10 60 "third" none none),
   (80001, .deliverySent ⟨"mail", "third", 2⟩)]

theorem crashRecovery_isSome : (outbox.run ⟨[], []⟩ crashRecovery).isSome = true := by decide

theorem lease_protocol_crashRecovery :
    ((outbox.run ⟨[], []⟩ crashRecovery).get crashRecovery_isSome).rows.map (fun e => (e.status, e.attempts)) =
        [(.processed, 2), (.pending, 0)] ∧
      LeaseProtocol ((outbox.run ⟨[], []⟩ crashRecovery).get crashRecovery_isSome) :=
  ⟨by decide, lease_protocol _ (.of_run (.init rfl) (fun _ _ _ => trivial) (Option.some_get crashRecovery_isSome).symm)⟩

end HotelBackend.Outbox
