import HotelBackend.Common.Json

/-!
# Bookings and their histories

The rows of `bookings`, `booking_status_history`, `booking_change_history` and
`idempotency_keys`.
-/

namespace HotelBackend.Bookings

open HotelBackend.Common

/-- Where a booking is in its life. -/
inductive BookingStatus where
  | pending
  | confirmed
  | rejected
  | cancelledByUser
  | cancelledByAdmin
  | completed
  deriving DecidableEq, Repr

namespace BookingStatus

/-- The status as the column and the events spell it. -/
def text : BookingStatus → String
  | pending => "PENDING"
  | confirmed => "CONFIRMED"
  | rejected => "REJECTED"
  | cancelledByUser => "CANCELLED_BY_USER"
  | cancelledByAdmin => "CANCELLED_BY_ADMIN"
  | completed => "COMPLETED"

/-- Only these still claim their window. -/
def isActive : BookingStatus → Bool
  | pending | confirmed => true
  | _ => false

end BookingStatus

/-- Who made a change. -/
inductive BookingActorType where
  | user
  | admin
  | system
  deriving DecidableEq, Repr

/-- A row of `bookings`: a stay `[checkIn, checkOut)` in a window of a room. -/
structure Booking where
  id : ℕ
  publicId : String
  userId : ℕ
  roomTimeId : ℕ
  checkIn : String
  checkOut : String
  status : BookingStatus
  priceAmount : ℕ
  currency : String
  rejectionReason : Option String
  version : ℕ
  createdAt : ℕ
  updatedAt : ℕ
  deriving DecidableEq, Repr

/-- A row of `booking_status_history`. -/
structure BookingStatusHistory where
  id : ℕ
  bookingId : ℕ
  fromStatus : Option BookingStatus
  toStatus : BookingStatus
  actorType : BookingActorType
  actorUserId : Option ℕ
  reason : Option String
  createdAt : ℕ
  deriving DecidableEq, Repr

/-- A row of `booking_change_history`. -/
structure BookingChangeHistory where
  id : ℕ
  bookingId : ℕ
  actorUserId : ℕ
  fromRoomTimeId : ℕ
  toRoomTimeId : ℕ
  fromCheckIn : String
  fromCheckOut : String
  toCheckIn : String
  toCheckOut : String
  reason : String
  createdAt : ℕ
  deriving DecidableEq, Repr

/-- Whether the call an idempotency key stands for has succeeded. -/
inductive IdempotencyKeyStatus where
  | pending
  | completed
  deriving DecidableEq, Repr

/-- A row of `idempotency_keys`, unique by actor, operation and key. -/
structure IdempotencyKey where
  id : ℕ
  actorUserId : ℕ
  operation : String
  idempotencyKey : String
  requestFingerprint : String
  status : IdempotencyKeyStatus
  responseStatus : Option ℕ
  responseBody : Option Json
  expiresAt : ℕ

end HotelBackend.Bookings
