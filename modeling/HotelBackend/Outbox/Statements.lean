import Mathlib.Data.List.Sort
import HotelBackend.Theory.Tables
import HotelBackend.Outbox.Entity

/-!
# The statements on the outbox table

Every statement the program runs against `outbox_events`: the shared claim protocol
(`OutboxClaimRepository`), and the statements each family finishes its claims with. A
statement other than the claim is an `UPDATE … SET … WHERE …` of one table, `Update`;
`now` is `NOW(6)` in it, in microseconds.
-/

namespace HotelBackend.Outbox

open HotelBackend.Common
open HotelBackend.Theory

/-- `UPDATE outbox_events SET set WHERE pred`. -/
structure Update where
  pred : OutboxEvent → Bool
  set : OutboxEvent → OutboxEvent

/-- The table afterwards. -/
def Update.run (u : Update) (rows : List OutboxEvent) : List OutboxEvent := Table.update rows u.pred u.set

/-- The statement affects a row. -/
def Update.hits (u : Update) (rows : List OutboxEvent) : Bool := rows.any u.pred

/-! ### The claim protocol -/

/-- What a claim is asked for. -/
structure OutboxClaimInput where
  eventTypes : List String
  batchSize : ℕ
  leaseMs : ℕ
  claimToken : String

/-- A claimed row: its id and the attempt it was claimed for. -/
structure OutboxClaim where
  id : String
  attempt : ℕ
  deriving DecidableEq, Repr

/-- Why a claim fails. -/
inductive ClaimError where
  /-- An empty allowlist is refused. -/
  | noEventTypes
  /-- `attempts + 1` does not fit the column (strict SQL mode). -/
  | outOfRange
  deriving DecidableEq, Repr

/-- An abandoned claim of the family. -/
def isExpired (eventTypes : List String) (now : ℕ) (e : OutboxEvent) : Bool :=
  e.eventType ∈ eventTypes && e.status = .processing && e.lockExpiresAt.any (· ≤ now)

/-- A waiting event of the family. -/
def isDue (eventTypes : List String) (now : ℕ) (e : OutboxEvent) : Bool :=
  e.eventType ∈ eventTypes && e.status = .pending && e.availableAt ≤ now

/-- `SELECT … ORDER BY available_at LIMIT limit FOR UPDATE SKIP LOCKED`: `skip` are the ids
other transactions hold. -/
def selectEligible (rows : List OutboxEvent) (p : OutboxEvent → Bool) (skip : String → Bool) (limit : ℕ) :
    List OutboxEvent :=
  ((rows.filter fun e => p e && !skip e.id).insertionSort fun e g => e.availableAt ≤ g.availableAt).take limit

/-- The order of a batch: milliseconds available, milliseconds created, id. -/
def beforeEligible (e g : OutboxEvent) : Prop :=
  e.availableAt / 1000 < g.availableAt / 1000 ∨ (e.availableAt / 1000 = g.availableAt / 1000 ∧
    (e.createdAt / 1000 < g.createdAt / 1000 ∨ (e.createdAt / 1000 = g.createdAt / 1000 ∧ e.id ≤ g.id)))

instance : DecidableRel beforeEligible := fun _ _ => inferInstanceAs (Decidable (_ ∨ _))

/-- The rows a claim takes: abandoned ones first, then as many due ones as fit the batch. The
two reads skip different rows. -/
def eligible (rows : List OutboxEvent) (input : OutboxClaimInput) (skipExpired skipDue : String → Bool) (now : ℕ) :
    List OutboxEvent :=
  let expired := selectEligible rows (isExpired input.eventTypes now) skipExpired input.batchSize
  let remaining := input.batchSize - expired.length
  let due := if 0 < remaining then selectEligible rows (isDue input.eventTypes now) skipDue remaining else []
  (expired ++ due).insertionSort beforeEligible

/-- The claiming `UPDATE`. -/
def claimUpdate (input : OutboxClaimInput) (ids : List String) (now : ℕ) : Update where
  pred e := e.id ∈ ids && e.eventType ∈ input.eventTypes
  set e := { e with status := .processing, lockedAt := some now, lockExpiresAt := some (now + input.leaseMs * 1000),
                    lockedBy := some input.claimToken, attempts := e.attempts + 1 }

/-- `OutboxClaimRepository.claimBatch`: the table and the claims, or the error that rolls the
claim back. -/
def claimBatch (rows : List OutboxEvent) (input : OutboxClaimInput) (skipExpired skipDue : String → Bool) (now : ℕ) :
    Except ClaimError (List OutboxEvent × List OutboxClaim) :=
  if input.eventTypes = [] then .error .noEventTypes
  else
    let ids := (eligible rows input skipExpired skipDue now).map (·.id)
    if ids = [] then .ok (rows, [])
    else
      let u := claimUpdate input ids now
      if rows.any (fun e => u.pred e && Table.maxSmallint ≤ e.attempts) then .error .outOfRange
      else
        let claimed := u.run rows
        .ok (claimed, ids.map fun id => ⟨id, ((claimed.find? (·.id = id)).map (·.attempts)).getD 0⟩)

/-- What a claimant knows of its claim. -/
structure ClaimKey where
  id : String
  claimToken : String
  attempt : ℕ
  deriving DecidableEq, Repr

/-- The claim matches the row: the row is held under its token, for its attempt. -/
def ClaimKey.holds (key : ClaimKey) (e : OutboxEvent) : Bool :=
  e.id = key.id && e.status = .processing && e.lockedBy = some key.claimToken && e.attempts = key.attempt

/-- The row given up by its claimant. -/
def OutboxEvent.unlock (e : OutboxEvent) : OutboxEvent :=
  { e with lockedAt := none, lockExpiresAt := none, lockedBy := none }

/-- `OutboxClaimRepository.release`: the attempt is given back. -/
def release (eventTypes : List String) (key : ClaimKey) (retryInMs : ℕ) (errorCode : String) (now : ℕ) : Update where
  pred e := e.eventType ∈ eventTypes && key.holds e
  set e := { e.unlock with status := .pending, availableAt := now + retryInMs * 1000, lastErrorCode := some errorCode,
                           attempts := e.attempts - 1 }

/-! ### Outcomes -/

/-- How a claimant finishes an event. -/
inductive Outcome where
  /-- Done. -/
  | processed
  /-- Once more, from then on. -/
  | retry (availableAt : OutboxEvent → ℕ) (errorCode : String)
  /-- Given up. -/
  | failed (errorCode : String)

/-- The event is tried again. -/
def Outcome.isRetry : Outcome → Bool
  | retry .. => true
  | _ => false

/-- What the outcome writes. -/
def Outcome.apply (now : ℕ) : Outcome → OutboxEvent → OutboxEvent
  | .processed, e => { e.unlock with status := .processed, processedAt := some now, lastErrorCode := none }
  | .retry availableAt errorCode, e =>
    { e.unlock with status := .pending, availableAt := availableAt e, lastErrorCode := some errorCode }
  | .failed errorCode, e => { e.unlock with status := .failed, failedAt := some now, lastErrorCode := some errorCode }

/-- `finishEvent` of a family whose claims are checked by token and attempt. -/
def finishEvent (eventTypes : List String) (key : ClaimKey) (outcome : Outcome) (now : ℕ) : Update where
  pred e := e.eventType ∈ eventTypes && key.holds e
  set := outcome.apply now

namespace DeliveryResult

/-- `finishEvent` of `markSent`. -/
def markSent (key : ClaimKey) (now : ℕ) : Update := finishEvent notificationEventTypes key .processed now

/-- `finishEvent` of `markRetry`. -/
def markRetry (key : ClaimKey) (retryInMs : ℕ) (errorCode : String) (now : ℕ) : Update :=
  finishEvent notificationEventTypes key (.retry (fun _ => now + retryInMs * 1000) errorCode) now

/-- `finishEvent` of `markFailed`. -/
def markFailed (key : ClaimKey) (errorCode : String) (now : ℕ) : Update :=
  finishEvent notificationEventTypes key (.failed errorCode) now

/-- The renewal in `claimWork`: it names the row, the family and the token only. -/
def renew (id claimToken : String) (claimLeaseMs now : ℕ) : Update where
  pred e := e.id = id && e.eventType ∈ notificationEventTypes && e.lockedBy = some claimToken
  set e := { e with lockExpiresAt := some (now + claimLeaseMs * 1000) }

end DeliveryResult

namespace NotificationRedrive

/-- `resetEvent`: a full attempt budget again. -/
def resetEvent (id : String) (now : ℕ) : Update where
  pred e := e.id = id && e.eventType ∈ notificationEventTypes && e.status = .failed
  set e := { e.unlock with status := .pending, availableAt := now, failedAt := none, attempts := 0 }

end NotificationRedrive

namespace RoomExportAttempt

/-- `renew`: only while the lease lives. -/
def renew (id claimToken : String) (leaseMs now : ℕ) : Update where
  pred e := e.id = id && e.eventType ∈ roomExportEventTypes && e.status = .processing &&
    e.lockedBy = some claimToken && e.lockExpiresAt.any (now < ·)
  set e := { e with lockExpiresAt := some (now + leaseMs * 1000) }

/-- `finishEvent` of `complete`. -/
def complete (key : ClaimKey) (now : ℕ) : Update := finishEvent roomExportEventTypes key .processed now

/-- `finishEvent` of `retry`. -/
def retry (key : ClaimKey) (retryInMs : ℕ) (errorCode : String) (now : ℕ) : Update :=
  finishEvent roomExportEventTypes key (.retry (fun _ => now + retryInMs * 1000) errorCode) now

/-- `finishEvent` of `fail`. -/
def fail (key : ClaimKey) (errorCode : String) (now : ℕ) : Update :=
  finishEvent roomExportEventTypes key (.failed errorCode) now

end RoomExportAttempt

namespace BookingLifecycleRelay

/-- `finish`: a whole batch, under its token. -/
def finish (ids : List String) (claimToken : String) (outcome : Outcome) (now : ℕ) : Update where
  pred e := e.id ∈ ids && e.eventType ∈ bookingLifecycleEventTypes && e.status = .processing && e.lockedBy = some claimToken
  set := outcome.apply now

def markPublished (ids : List String) (claimToken : String) (now : ℕ) : Update := finish ids claimToken .processed now

/-- 2^30 initial delays is far past any ceiling. -/
def maximumBackoffExponent : ℕ := 30

/-- `LEAST(FLOOR(initial * POW(2, …) * (1 + RAND() * 0.2)), max)`, in milliseconds. -/
def backoffMs (initialMs maxMs attempts : ℕ) (rand : ℚ) : ℕ :=
  min (initialMs * 2 ^ min (attempts - 1) maximumBackoffExponent * (1 + rand * (1 / 5) : ℚ)).floor.toNat maxMs

/-- The delay is drawn for each row, from the row's own attempts. -/
def markRetry (ids : List String) (claimToken : String) (backoffInitialMs backoffMaxMs : ℕ) (rand : String → ℚ)
    (errorCode : String) (now : ℕ) : Update :=
  finish ids claimToken
    (.retry (fun e => now + backoffMs backoffInitialMs backoffMaxMs e.attempts (rand e.id) * 1000) errorCode) now

def markFailed (ids : List String) (claimToken errorCode : String) (now : ℕ) : Update :=
  finish ids claimToken (.failed errorCode) now

end BookingLifecycleRelay

end HotelBackend.Outbox
