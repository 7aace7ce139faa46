import HotelBackend.Common.HotelDates
import HotelBackend.Common.Strings
import HotelBackend.Theory.Results
import HotelBackend.Bookings.Entities

/-!
# Notification events

`parseNotificationEvent`: what a delivery worker reads in an event of its family. A check
that fails throws, with the path of the field it checks; the checks stand in the order of
the source, which decides the path of a payload with several faults.
-/

namespace HotelBackend.Notifications

open HotelBackend.Common
open HotelBackend.Theory
open HotelBackend.Bookings

/-! ### Events -/

inductive NotificationEventType where
  | confirmed
  | rejected
  | changed
  | cancelledByAdmin
  deriving DecidableEq, Repr

def NotificationEventType.text : NotificationEventType → String
  | confirmed => "booking.confirmed"
  | rejected => "booking.rejected"
  | changed => "booking.changed"
  | cancelledByAdmin => "booking.cancelled_by_admin"

/-- The types the family reads, in the order of its allowlist. -/
def NotificationEventType.all : List NotificationEventType := [confirmed, rejected, changed, cancelledByAdmin]

inductive NotificationEventErrorCode where
  | invalid
  | unsupportedType
  | unsupportedVersion
  deriving DecidableEq, Repr

def NotificationEventErrorCode.text : NotificationEventErrorCode → String
  | invalid => "NOTIFICATION_EVENT_INVALID"
  | unsupportedType => "NOTIFICATION_EVENT_TYPE_UNSUPPORTED"
  | unsupportedVersion => "NOTIFICATION_EVENT_VERSION_UNSUPPORTED"

/-- A field path may be in the message, a value never. -/
structure NotificationEventError where
  code : NotificationEventErrorCode
  message : String
  deriving DecidableEq, Repr

structure NotificationRoomSnapshot where
  id : String
  roomNumber : String
  deriving DecidableEq, Repr

structure NotificationPriceSnapshot where
  amount : ℕ
  currency : String
  deriving DecidableEq, Repr

structure NotificationBookingSnapshot where
  room : NotificationRoomSnapshot
  checkIn : String
  checkOut : String
  status : BookingStatus
  price : NotificationPriceSnapshot
  deriving DecidableEq, Repr

structure NotificationBookingSnapshotWithReason extends NotificationBookingSnapshot where
  reason : String
  deriving DecidableEq, Repr

structure NotificationChangeEndpoint where
  roomId : String
  checkIn : String
  checkOut : String
  deriving DecidableEq, Repr

/-- What every event carries; the schema version is 1. -/
structure NotificationEventBase where
  bookingId : String
  ownerUserId : String
  bookingVersion : ℕ
  deriving DecidableEq, Repr

inductive NotificationEvent where
  | confirmed (base : NotificationEventBase) (booking : NotificationBookingSnapshot)
  | rejected (base : NotificationEventBase) (booking : NotificationBookingSnapshotWithReason)
  | changed (base : NotificationEventBase) (booking : NotificationBookingSnapshotWithReason)
      (before after : NotificationChangeEndpoint)
  | cancelledByAdmin (base : NotificationEventBase) (booking : NotificationBookingSnapshotWithReason)
  deriving DecidableEq, Repr

namespace NotificationEvent

def type : NotificationEvent → NotificationEventType
  | confirmed .. => .confirmed
  | rejected .. => .rejected
  | changed .. => .changed
  | cancelledByAdmin .. => .cancelledByAdmin

def base : NotificationEvent → NotificationEventBase
  | confirmed base _ | rejected base _ | changed base .. | cancelledByAdmin base _ => base

def booking : NotificationEvent → NotificationBookingSnapshot
  | confirmed _ booking => booking
  | rejected _ booking | changed _ booking .. | cancelledByAdmin _ booking => booking.toNotificationBookingSnapshot

def reason : NotificationEvent → Option String
  | confirmed .. => none
  | rejected _ booking | changed _ booking .. | cancelledByAdmin _ booking => some booking.reason

def change : NotificationEvent → Option (NotificationChangeEndpoint × NotificationChangeEndpoint)
  | changed _ _ before after => some (before, after)
  | _ => none

end NotificationEvent

/-! ### Checks -/

/-- The checks of `class-validator` the family calls. -/
structure ClassValidator where
  isISO4217CurrencyCode : String → Bool
  isEmail : String → Bool

def invalid (path : String) : NotificationEventError := ⟨.invalid, s!"Invalid notification event field: {path}"⟩

/-- `[0-9A-HJKMNP-TV-Z]` -/
def isCrockford (c : Char) : Bool :=
  isDigit c || ('A' ≤ c && c ≤ 'H') || c ∈ ['J', 'K', 'M', 'N'] || ('P' ≤ c && c ≤ 'T') || ('V' ≤ c && c ≤ 'Z')

/-- `/^[0-7][0-9A-HJKMNP-TV-Z]{25}$/` -/
def publicBookingIdPattern (value : String) : Bool :=
  match value.toList with
  | c :: cs => '0' ≤ c && c ≤ '7' && cs.length = 25 && cs.all isCrockford
  | [] => false

/-- `/^[1-9][0-9]{0,19}$/` -/
def decimalIdPattern (value : String) : Bool :=
  match value.toList with
  | c :: cs => '1' ≤ c && c ≤ '9' && cs.length ≤ 19 && cs.all isDigit
  | [] => false

/-- `/^[A-Z]{3}$/` -/
def currencyPattern (value : String) : Bool :=
  value.toList.length = 3 && value.toList.all fun c => 'A' ≤ c && c ≤ 'Z'

/-- `/^[1-9][0-9]{3}-[0-9]{2}-[0-9]{2}$/` -/
def hotelDatePattern (value : String) : Bool :=
  (matchDate value).isSome && value.toList.head?.all fun c => '1' ≤ c

/-- A control character other than a tab, a line feed and a carriage return. -/
def isUnsafeControl (c : Char) : Bool :=
  c.toNat = 127 || (c.toNat < 32 && c.toNat ≠ 9 && c.toNat ≠ 10 && c.toNat ≠ 13)

def hasUnsafeBodyControl (value : String) : Bool := value.toList.any isUnsafeControl

/-- `value.name`, of an object with these fields. -/
def field (fields : List (String × Json)) (name : String) : Option Json := (fields.find? (·.1 = name)).map (·.2)

def requireRecord (input : Option Json) (path : String) : Except NotificationEventError (List (String × Json)) :=
  match input with
  | some (.obj fields) => .ok fields
  | _ => .error (invalid path)

/-- The keys are the expected ones, in any order. -/
def requireExactKeys (fields : List (String × Json)) (expected : List String) (path : String) : Except NotificationEventError Unit :=
  Result.require ((fields.map (·.1)).isPerm expected) (invalid path)

/-- What `requireString` accepts. -/
def isAcceptedString (value : String) (minimum maximum : ℕ) (pattern : String → Bool) (requireTrimmed : Bool) : Bool :=
  minimum ≤ utf16Length value && utf16Length value ≤ maximum && !hasUnsafeBodyControl value &&
    (!requireTrimmed || jsTrim value = value) && pattern value

def requireString (value : Option Json) (path : String) (minimum maximum : ℕ) (pattern : String → Bool) (requireTrimmed : Bool) :
    Except NotificationEventError String :=
  match value with
  | some (.str s) => if isAcceptedString s minimum maximum pattern requireTrimmed then .ok s else .error (invalid path)
  | _ => .error (invalid path)

theorem requireString_eq_ok {value : Option Json} {path : String} {minimum maximum : ℕ} {pattern : String → Bool}
    {requireTrimmed : Bool} {s : String} : requireString value path minimum maximum pattern requireTrimmed = .ok s ↔
      value = some (.str s) ∧ isAcceptedString s minimum maximum pattern requireTrimmed = true := by
  unfold requireString
  split
  · split
    case isTrue h =>
      rw [Except.ok.injEq, Option.some.injEq, Json.str.injEq]
      exact ⟨fun hs => ⟨hs, hs ▸ h⟩, And.left⟩
    case isFalse h =>
      rw [Option.some.injEq, Json.str.injEq]
      refine ⟨fun hs => ?_, fun hs => absurd (hs.1 ▸ hs.2) h⟩
      cases hs
  case h_2 hne =>
    refine ⟨fun hs => ?_, fun hs => absurd hs.1 (hne s)⟩
    cases hs

/-- No pattern. -/
def anyString (_ : String) : Bool := true

def requireSafeInteger (value : Option Json) (path : String) (minimum : ℕ) : Except NotificationEventError ℕ :=
  match value with
  | some (.num q) => if isSafeInteger q && minimum ≤ q then .ok q.num.toNat else .error (invalid path)
  | _ => .error (invalid path)

def requireCurrency (validator : ClassValidator) (value : Option Json) : Except NotificationEventError String := do
  let currency ← requireString value "booking.price.currency" 3 3 currencyPattern false
  Result.require (validator.isISO4217CurrencyCode currency) (invalid "booking.price.currency")
  return currency

def requireEnum (value : Option Json) (path : String) (allowed : List BookingStatus) : Except NotificationEventError BookingStatus :=
  match value with
  | some (.str s) => Result.orThrow (allowed.find? (·.text = s)) (invalid path)
  | _ => .error (invalid path)

def requireHotelDate (value : Option Json) (path : String) : Except NotificationEventError String := do
  let date ← requireString value path 10 10 hotelDatePattern false
  Result.require (parseHotelDate date).isSome (invalid path)
  return date

def bookingKeys : List String := ["room", "checkIn", "checkOut", "status", "price"]

/-- `requireBookingSnapshot`, up to the reason: the snapshot, and the fields it was read from. -/
def requireBookingSnapshot (validator : ClassValidator) (input : Option Json) (expectedStatuses : List BookingStatus)
    (reasonRequired : Bool) : Except NotificationEventError (NotificationBookingSnapshot × List (String × Json)) := do
  let value ← requireRecord input "booking"
  requireExactKeys value (if reasonRequired then bookingKeys ++ ["reason"] else bookingKeys) "booking"
  let room ← requireRecord (field value "room") "booking.room"
  requireExactKeys room ["id", "roomNumber"] "booking.room"
  let price ← requireRecord (field value "price") "booking.price"
  requireExactKeys price ["amount", "currency"] "booking.price"
  let checkIn ← requireHotelDate (field value "checkIn") "booking.checkIn"
  let checkOut ← requireHotelDate (field value "checkOut") "booking.checkOut"
  Result.require (checkIn < checkOut) (invalid "booking.checkOut")
  let status ← requireEnum (field value "status") "booking.status" expectedStatuses
  let id ← requireString (field room "id") "booking.room.id" 1 20 decimalIdPattern false
  let roomNumber ← requireString (field room "roomNumber") "booking.room.roomNumber" 1 50 anyString true
  let amount ← requireSafeInteger (field price "amount") "booking.price.amount" 0
  let currency ← requireCurrency validator (field price "currency")
  return (⟨⟨id, roomNumber⟩, checkIn, checkOut, status, ⟨amount, currency⟩⟩, value)

/-- The same, with the reason. -/
def requireBookingSnapshotWithReason (validator : ClassValidator) (input : Option Json) (expectedStatuses : List BookingStatus) :
    Except NotificationEventError NotificationBookingSnapshotWithReason := do
  let (snapshot, value) ← requireBookingSnapshot validator input expectedStatuses true
  let reason ← requireString (field value "reason") "booking.reason" 1 1000 anyString true
  return { snapshot with reason := reason }

def requireChangeEndpoint (input : Option Json) (path : String) : Except NotificationEventError NotificationChangeEndpoint := do
  let value ← requireRecord input path
  requireExactKeys value ["roomId", "checkIn", "checkOut"] path
  let checkIn ← requireHotelDate (field value "checkIn") s!"{path}.checkIn"
  let checkOut ← requireHotelDate (field value "checkOut") s!"{path}.checkOut"
  Result.require (checkIn < checkOut) (invalid s!"{path}.checkOut")
  let roomId ← requireString (field value "roomId") s!"{path}.roomId" 1 20 decimalIdPattern false
  return ⟨roomId, checkIn, checkOut⟩

/-! ### The parser -/

def basePayloadKeys : List String := ["schemaVersion", "bookingId", "ownerUserId", "bookingVersion", "booking"]

/-- Version 1, of the versions a later writer may use. -/
def requireSchemaVersion (value : Option Json) : Except NotificationEventError Unit := do
  let version ← requireSafeInteger value "schemaVersion" 1
  Result.require (version = 1) ⟨.unsupportedVersion, "Notification event schema version is unsupported."⟩

/-- What every event carries. -/
def requireBase (value : List (String × Json)) : Except NotificationEventError NotificationEventBase := do
  let bookingId ← requireString (field value "bookingId") "bookingId" 26 26 publicBookingIdPattern false
  let ownerUserId ← requireString (field value "ownerUserId") "ownerUserId" 1 20 decimalIdPattern false
  let bookingVersion ← requireSafeInteger (field value "bookingVersion") "bookingVersion" 1
  return ⟨bookingId, ownerUserId, bookingVersion⟩

def parseNotificationEvent (validator : ClassValidator) (eventType : String) (payload : Json) :
    Except NotificationEventError NotificationEvent := do
  let type ← Result.orThrow (NotificationEventType.all.find? (·.text = eventType))
    ⟨.unsupportedType, "Notification event type is unsupported."⟩
  let value ← requireRecord (some payload) "payload"
  requireSchemaVersion (field value "schemaVersion")
  requireExactKeys value (if type = .changed then basePayloadKeys ++ ["before", "after"] else basePayloadKeys) "payload"
  let common ← requireBase value
  match type with
  | .confirmed =>
    let (booking, _) ← requireBookingSnapshot validator (field value "booking") [.confirmed] false
    return .confirmed common booking
  | .rejected => return .rejected common (← requireBookingSnapshotWithReason validator (field value "booking") [.rejected])
  | .cancelledByAdmin =>
    return .cancelledByAdmin common (← requireBookingSnapshotWithReason validator (field value "booking") [.cancelledByAdmin])
  | .changed =>
    let booking ← requireBookingSnapshotWithReason validator (field value "booking") [.pending, .confirmed]
    let before ← requireChangeEndpoint (field value "before") "before"
    let after ← requireChangeEndpoint (field value "after") "after"
    Result.require (after.roomId = booking.room.id && after.checkIn = booking.checkIn && after.checkOut = booking.checkOut)
      (invalid "after")
    Result.require (!(before.roomId = after.roomId && before.checkIn = after.checkIn && before.checkOut = after.checkOut))
      (invalid "before")
    return .changed common booking before after

end HotelBackend.Notifications
