import HotelBackend.Common.JsonText
import HotelBackend.Notifications.NotificationEvent
import HotelBackend.Outbox.Entity

/-!
# The lifecycle contract, read

`parseBookingLifecyclePayload`, the relay's gate on what it publishes, and
`parseBookingLifecycleMessage`, the same contract on the side of a consumer. Both throw on
the first field that breaks it, with its path; the checks stand in the order of the source.
-/

namespace HotelBackend.Bookings

open HotelBackend.Common
open HotelBackend.Theory
open HotelBackend.Outbox
open HotelBackend.Notifications (ClassValidator publicBookingIdPattern decimalIdPattern currencyPattern hotelDatePattern field)

/-- The path of the field that breaks the contract. -/
structure BookingLifecyclePayloadError where
  path : String
  deriving DecidableEq, Repr

def BookingLifecyclePayloadError.message (e : BookingLifecyclePayloadError) : String :=
  s!"Invalid booking lifecycle field: {e.path}"

/-! ### Events -/

/-- A stay, with the ids as the stream spells them. -/
structure ReceivedStay where
  roomId : String
  roomTypeId : String
  checkIn : String
  checkOut : String
  deriving DecidableEq, Repr

/-- A checked payload; its schema version is 1. -/
structure BookingLifecyclePayload where
  bookingId : String
  bookingVersion : ℕ
  fromStatus : Option BookingStatus
  toStatus : BookingStatus
  booking : ReceivedStay
  priceAmount : ℕ
  currency : String
  previousStay : Option ReceivedStay
  deriving DecidableEq, Repr

/-- A checked message. `occurredAt` is in milliseconds. -/
structure ReceivedBookingLifecycleEvent where
  eventId : String
  occurredAt : ℤ
  payload : BookingLifecyclePayload
  deriving DecidableEq, Repr

/-! ### Payloads -/

def payloadKeys : List String :=
  ["schemaVersion", "bookingId", "bookingVersion", "fromStatus", "toStatus", "booking", "previousStay"]

def stayKeys : List String := ["roomId", "roomTypeId", "checkIn", "checkOut"]

/-- The largest value an unsigned `BIGINT` holds. -/
def maxUnsignedBigint : ℕ := 18446744073709551615

/-- Every pair the contract defines. -/
def bookingLifecycleTransitions : List (Option BookingStatus × BookingStatus) :=
  [(none, .pending), (some .pending, .cancelledByUser), (some .pending, .confirmed), (some .pending, .rejected),
    (some .pending, .cancelledByAdmin), (some .confirmed, .cancelledByAdmin), (some .pending, .pending), (some .confirmed, .confirmed)]

instance (transition : Option BookingStatus × BookingStatus) : Decidable (transition ∈ bookingLifecycleTransitions) :=
  List.instDecidableMemOfLawfulBEq transition bookingLifecycleTransitions

/-- The statuses, as the enum lists them. -/
def bookingStatuses : List BookingStatus := [.pending, .confirmed, .rejected, .cancelledByUser, .cancelledByAdmin, .completed]

namespace Lifecycle

def requireRecord (input : Option Json) (path : String) (keys : List String) :
    Except BookingLifecyclePayloadError (List (String × Json)) :=
  match input with
  | some (.obj fields) => if (fields.map (·.1)).isPerm keys then .ok fields else .error ⟨path⟩
  | _ => .error ⟨path⟩

def requireString (value : Option Json) (path : String) (pattern : String → Bool) : Except BookingLifecyclePayloadError String :=
  match value with
  | some (.str s) => if pattern s then .ok s else .error ⟨path⟩
  | _ => .error ⟨path⟩

/-- `value === n`. -/
def isNumber (value : Option Json) (n : ℕ) : Bool :=
  match value with
  | some (.num q) => q = n
  | _ => false

def requireSafeInteger (value : Option Json) (path : String) (minimum : ℕ) : Except BookingLifecyclePayloadError ℕ :=
  match value with
  | some (.num q) => if isSafeInteger q && minimum ≤ q then .ok q.num.toNat else .error ⟨path⟩
  | _ => .error ⟨path⟩

def requireStatus (value : Option Json) (path : String) : Except BookingLifecyclePayloadError BookingStatus :=
  match value with
  | some (.str s) => Result.orThrow (bookingStatuses.find? (·.text = s)) ⟨path⟩
  | _ => .error ⟨path⟩

def requireHotelDate (value : Option Json) (path : String) : Except BookingLifecyclePayloadError String := do
  let date ← requireString value path hotelDatePattern
  Result.require (parseHotelDate date).isSome ⟨path⟩
  return date

/-- A decimal id an unsigned `BIGINT` can hold. -/
def requireStoredId (value : Option Json) (path : String) : Except BookingLifecyclePayloadError String := do
  let id ← requireString value path decimalIdPattern
  Result.require (digitsValue id.toList ≤ maxUnsignedBigint) ⟨path⟩
  return id

/-- `requireStay`, of an object whose keys were checked. -/
def requireStayFields (value : List (String × Json)) (path : String) : Except BookingLifecyclePayloadError ReceivedStay := do
  let checkIn ← requireHotelDate (field value "checkIn") s!"{path}.checkIn"
  let checkOut ← requireHotelDate (field value "checkOut") s!"{path}.checkOut"
  Result.require (checkIn < checkOut) ⟨s!"{path}.checkOut"⟩
  let roomId ← requireStoredId (field value "roomId") s!"{path}.roomId"
  let roomTypeId ← requireStoredId (field value "roomTypeId") s!"{path}.roomTypeId"
  return ⟨roomId, roomTypeId, checkIn, checkOut⟩

def requireStay (input : Option Json) (path : String) : Except BookingLifecyclePayloadError ReceivedStay := do
  requireStayFields (← requireRecord input path stayKeys) path

/-- `value === null ? null : require(value)`. -/
def requireNullable {α : Type} (value : Option Json) (require : Option Json → Except BookingLifecyclePayloadError α) :
    Except BookingLifecyclePayloadError (Option α) :=
  match value with
  | some .null => .ok none
  | value => do return some (← require value)

end Lifecycle

open Lifecycle in
def parseBookingLifecyclePayload (validator : ClassValidator) (input : Json) :
    Except BookingLifecyclePayloadError BookingLifecyclePayload := do
  let value ← requireRecord (some input) "payload" payloadKeys
  Result.require (isNumber (field value "schemaVersion") 1) ⟨"schemaVersion"⟩
  let bookingId ← requireString (field value "bookingId") "bookingId" publicBookingIdPattern
  let bookingVersion ← requireSafeInteger (field value "bookingVersion") "bookingVersion" 1
  let fromStatus ← requireNullable (field value "fromStatus") (requireStatus · "fromStatus")
  let toStatus ← requireStatus (field value "toStatus") "toStatus"
  let booking ← requireRecord (field value "booking") "booking" (stayKeys ++ ["price"])
  let price ← requireRecord (field booking "price") "booking.price" ["amount", "currency"]
  let amount ← requireSafeInteger (field price "amount") "booking.price.amount" 0
  let currency ← requireString (field price "currency") "booking.price.currency" currencyPattern
  Result.require (validator.isISO4217CurrencyCode currency) ⟨"booking.price.currency"⟩
  let previousStay ← requireNullable (field value "previousStay") (requireStay · "previousStay")
  Result.require ((fromStatus, toStatus) ∈ bookingLifecycleTransitions) ⟨"toStatus"⟩
  -- a stay change, the only change that keeps its status, is the only one that says what the stay was
  Result.require (!(previousStay.isSome && fromStatus ≠ some toStatus)) ⟨"previousStay"⟩
  Result.require (!(previousStay.isNone && fromStatus = some toStatus)) ⟨"toStatus"⟩
  let stay ← requireStayFields booking "booking"
  return ⟨bookingId, bookingVersion, fromStatus, toStatus, stay, amount, currency, previousStay⟩

/-! ### Messages -/

def envelopeKeys : List String := ["eventId", "eventType", "occurredAt"]

/-- `toISOString()` of an instant in milliseconds. -/
def isoInstant (ms : ℤ) : List Char :=
  isoDay (ms / 86400000) ++ 'T' :: padDigits 2 (ms / 3600000 % 24).toNat ++ ':' :: padDigits 2 (ms / 60000 % 60).toNat ++
    ':' :: padDigits 2 (ms / 1000 % 60).toNat ++ '.' :: padDigits 3 (ms % 1000).toNat ++ ['Z']

/-- The milliseconds of a day that `THH:mm:ss.sssZ` spells. -/
def matchTime (text : List Char) : Option ℕ :=
  match text with
  | ['T', a, b, ':', c, d, ':', e, f, '.', g, h, i, 'Z'] =>
    if [a, b, c, d, e, f, g, h, i].all isDigit then
      some (3600000 * digitsValue [a, b] + 60000 * digitsValue [c, d] + 1000 * digitsValue [e, f] + digitsValue [g, h, i])
    else none
  | _ => none

/-- `new Date(text)`, of a text that prints back the same: only the format of `toISOString` does. -/
def parseInstant (text : String) : Option ℤ := do
  let (year, month, day) ← matchDate (String.ofList (text.toList.take 10))
  let time ← matchTime (text.toList.drop 10)
  let ms := makeDay year (month - 1) day * 86400000 + time
  if isoInstant ms = text.toList then some ms else none

/-- The years a `DATETIME` accepts. -/
def isStorableYear (year : ℤ) : Bool := 1000 ≤ year && year ≤ 9999

def requireInstant (value : Option Json) : Except BookingLifecyclePayloadError ℤ :=
  match value with
  | some (.str text) =>
    Result.orThrow ((parseInstant text).filter fun ms => isStorableYear (yearFromDay (ms / 86400000))) ⟨"occurredAt"⟩
  | _ => .error ⟨"occurredAt"⟩

/-- What the relay publishes, read back. `isUUID` is of `class-validator`. -/
def parseBookingLifecycleMessage (validator : ClassValidator) (isUUID : String → Bool) (value : Option String) :
    Except BookingLifecyclePayloadError ReceivedBookingLifecycleEvent := do
  let decoded ← Result.orThrow (parseJson (value.getD "")) ⟨"value"⟩
  match decoded with
  | .obj record =>
    let eventId ← Lifecycle.requireString (field record "eventId") "eventId" isUUID
    let _ ← Lifecycle.requireString (field record "eventType") "eventType" (· = bookingLifecycleEventType)
    let occurredAt ← requireInstant (field record "occurredAt")
    let payload ← parseBookingLifecyclePayload validator (.obj (record.filter fun f => f.1 ∉ envelopeKeys))
    return ⟨eventId, occurredAt, payload⟩
  | _ => .error ⟨"value"⟩

end HotelBackend.Bookings
