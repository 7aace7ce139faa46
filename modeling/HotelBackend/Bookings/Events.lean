import HotelBackend.Bookings.Database

/-!
# The events a booking transaction writes

`insertOutbox` of the booking service (the four mail intents) and the lifecycle
recorder, with the payloads they build. A number that crosses into JSON goes through
`Number(…)`, ids stay decimal strings.
-/

namespace HotelBackend.Bookings

open HotelBackend.Common
open HotelBackend.Theory.Transactions
open HotelBackend.Outbox

/-! ### Mail intents -/

/-- The events the notification family mails about. -/
inductive BookingOutboxEventType where
  | confirmed
  | rejected
  | changed
  | cancelledByAdmin
  deriving DecidableEq, Repr

def BookingOutboxEventType.text : BookingOutboxEventType → String
  | confirmed => "booking.confirmed"
  | rejected => "booking.rejected"
  | changed => "booking.changed"
  | cancelledByAdmin => "booking.cancelled_by_admin"

/-- Where a changed stay was, or is. -/
structure BookingChangeOutboxEndpoint where
  roomId : ℕ
  checkIn : String
  checkOut : String

/-- Both ends of a change. -/
structure BookingChangeOutboxDetail where
  before : BookingChangeOutboxEndpoint
  after : BookingChangeOutboxEndpoint

/-- The room as a mail names it. -/
structure OutboxRoom where
  id : ℕ
  roomNumber : String

def BookingChangeOutboxEndpoint.toJson (e : BookingChangeOutboxEndpoint) : Json :=
  .obj [("roomId", .str (toString e.roomId)), ("checkIn", .str e.checkIn), ("checkOut", .str e.checkOut)]

/-- The payload of a mail intent. -/
def outboxPayload (booking : Booking) (room : OutboxRoom) (reason : Option String)
    (change : Option BookingChangeOutboxDetail) : Json :=
  .obj ([("schemaVersion", .num 1),
      ("bookingId", .str booking.publicId),
      ("ownerUserId", .str (toString booking.userId)),
      ("bookingVersion", .num (jsNumber booking.version)),
      ("booking", .obj ([("room", .obj [("id", .str (toString room.id)), ("roomNumber", .str room.roomNumber)]),
          ("checkIn", .str booking.checkIn),
          ("checkOut", .str booking.checkOut),
          ("status", .str booking.status.text),
          ("price", .obj [("amount", .num (jsNumber booking.priceAmount)), ("currency", .str booking.currency)])] ++
        (reason.map fun r => ("reason", Json.str r)).toList))] ++
    (match change with
      | some c => [("before", c.before.toJson), ("after", c.after.toJson)]
      | none => []))

/-- `<eventType>:<publicId>:<resultingVersion>`. -/
def outboxIdempotencyKey (eventType : String) (booking : Booking) : String :=
  eventType ++ ":" ++ booking.publicId ++ ":" ++ toString booking.version

/-- Write a mail intent. -/
def insertOutbox (booking : Booking) (eventType : BookingOutboxEventType) (room : OutboxRoom) (reason : Option String)
    (change : Option BookingChangeOutboxDetail) : Tx Supply :=
  insertOutboxEvent eventType.text (outboxPayload booking room reason change)
    (outboxIdempotencyKey eventType.text booking)

/-! ### The lifecycle stream -/

/-- Where and when a stay is, without who is staying. -/
structure BookingLifecycleStay where
  roomId : ℕ
  roomTypeId : ℕ
  checkIn : String
  checkOut : String

def BookingLifecycleStay.fields (s : BookingLifecycleStay) : List (String × Json) :=
  [("roomId", .str (toString s.roomId)), ("roomTypeId", .str (toString s.roomTypeId)),
    ("checkIn", .str s.checkIn), ("checkOut", .str s.checkOut)]

/-- The room as the stream names it. -/
structure LifecycleRoom where
  id : ℕ
  roomTypeId : ℕ

/-- What a booking transaction hands the recorder after its own writes. -/
structure BookingLifecycleChange where
  booking : Booking
  room : LifecycleRoom
  fromStatus : Option BookingStatus
  previousStay : Option BookingLifecycleStay := none

/-- The payload of a lifecycle row. -/
def toBookingLifecyclePayload (change : BookingLifecycleChange) : Json :=
  let booking := change.booking
  let stay : BookingLifecycleStay := ⟨change.room.id, change.room.roomTypeId, booking.checkIn, booking.checkOut⟩
  .obj [("schemaVersion", .num 1),
    ("bookingId", .str booking.publicId),
    ("bookingVersion", .num (jsNumber booking.version)),
    ("fromStatus", match change.fromStatus with
      | some status => .str status.text
      | none => .null),
    ("toStatus", .str booking.status.text),
    ("booking", .obj (stay.fields ++
      [("price", .obj [("amount", .num (jsNumber booking.priceAmount)), ("currency", .str booking.currency)])])),
    ("previousStay", match change.previousStay with
      | some previous => .obj previous.fields
      | none => .null)]

/-- Write a lifecycle row, if the stream is enabled. -/
def record (enabled : Bool) (change : BookingLifecycleChange) : Tx Unit :=
  if enabled then do
    let _ ← insertOutboxEvent bookingLifecycleEventType (toBookingLifecyclePayload change)
      (outboxIdempotencyKey bookingLifecycleEventType change.booking)
    pure ()
  else pure ()

end HotelBackend.Bookings
