import Mathlib.Tactic.ByContra
import HotelBackend.Common.Json

/-!
# The outbox table

A row of `outbox_events`, shared by every event family, and the table's lease-state
check. Times are microseconds since 1970, as `datetime(6)` keeps them.
-/

namespace HotelBackend.Outbox

open HotelBackend.Common

/-- The durable lifecycle of an event. -/
inductive OutboxEventStatus where
  | pending
  | processing
  | processed
  | failed
  deriving DecidableEq, Repr

/-- A row of `outbox_events`. -/
structure OutboxEvent where
  id : String
  eventType : String
  payload : Json
  availableAt : ℕ
  status : OutboxEventStatus
  idempotencyKey : String
  lockedAt : Option ℕ
  lockExpiresAt : Option ℕ
  lockedBy : Option String
  processedAt : Option ℕ
  attempts : ℕ
  lastErrorCode : Option String
  failedAt : Option ℕ
  createdAt : ℕ

/-! ### The families that share the table -/

/-- The events the notification family mails about. -/
def notificationEventTypes : List String :=
  ["booking.confirmed", "booking.rejected", "booking.changed", "booking.cancelled_by_admin"]

/-- The events of the room export family. -/
def roomExportEventTypes : List String := ["room-export.requested"]

/-- The event of the lifecycle stream. -/
def bookingLifecycleEventType : String := "booking-lifecycle.recorded"

def bookingLifecycleEventTypes : List String := [bookingLifecycleEventType]

/-- The three families. -/
inductive Family where
  | notification
  | roomExport
  | bookingLifecycle
  deriving DecidableEq, Repr

/-- The allowlist each family passes to every statement. -/
def Family.eventTypes : Family → List String
  | notification => notificationEventTypes
  | roomExport => roomExportEventTypes
  | bookingLifecycle => bookingLifecycleEventTypes

/-- No event type belongs to two families. -/
theorem Family.eventTypes_disjoint {f g : Family} {t : String} (hf : t ∈ f.eventTypes) (hg : t ∈ g.eventTypes) : f = g := by
  have hall : ∀ f g : Family, f ≠ g → ∀ t ∈ f.eventTypes, t ∉ g.eventTypes := by
    intro f g
    cases f <;> cases g <;> decide
  by_contra hne
  exact hall f g hne t hf hg

/-! ### Rows -/

/-- `chk_outbox_events_lease_state`. -/
def OutboxEvent.leaseState (e : OutboxEvent) : Bool :=
  match e.status with
  | .pending => e.lockedAt.isNone && e.lockExpiresAt.isNone && e.lockedBy.isNone && e.processedAt.isNone && e.failedAt.isNone
  | .processing => e.lockedAt.isSome && e.lockExpiresAt.isSome && e.lockedBy.isSome && e.processedAt.isNone && e.failedAt.isNone
  | .processed => e.lockedAt.isNone && e.lockExpiresAt.isNone && e.lockedBy.isNone && e.processedAt.isSome &&
      e.failedAt.isNone && e.lastErrorCode.isNone
  | .failed => e.lockedAt.isNone && e.lockExpiresAt.isNone && e.lockedBy.isNone && e.processedAt.isNone &&
      e.failedAt.isSome && e.lastErrorCode.isSome

/-- A row as every writer inserts it: available from `now`, unclaimed. -/
def OutboxEvent.fresh (id eventType : String) (payload : Json) (idempotencyKey : String) (now : ℕ) : OutboxEvent where
  id := id
  eventType := eventType
  payload := payload
  availableAt := now
  status := .pending
  idempotencyKey := idempotencyKey
  lockedAt := none
  lockExpiresAt := none
  lockedBy := none
  processedAt := none
  attempts := 0
  lastErrorCode := none
  failedAt := none
  createdAt := now

@[simp] theorem OutboxEvent.leaseState_fresh (id eventType : String) (payload : Json) (key : String) (now : ℕ) :
    (fresh id eventType payload key now).leaseState = true := rfl

end HotelBackend.Outbox
