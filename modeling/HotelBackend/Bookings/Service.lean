import Mathlib.Data.List.Sort
import HotelBackend.Common.HotelDates
import HotelBackend.Bookings.Events
import HotelBackend.Rooms.RoomTimesService

/-!
# The booking service

`BookingsService.create`, `approve`, `reject`, `updateAdmin`, `cancelOwn` and
`cancelAdmin`, statement by statement: what is read before the transaction without a
lock, then the transaction with its locks in the coded order. The answer of a
transition is whether it was a replay; the detail view read afterwards changes nothing
and is left out. `today` is the hotel-local date the call reads.
-/

namespace HotelBackend.Bookings

open HotelBackend.Common
open HotelBackend.Theory
open HotelBackend.Theory.Transactions
open HotelBackend.Rooms
open HotelBackend.Outbox

/-- The configuration the service reads, and the hash it calls. -/
structure Config where
  /-- The lifecycle stream is on. -/
  lifecycleEnabled : Bool
  /-- How long an idempotency key is kept. -/
  retentionHours : ℕ
  /-- `sha256` of a JSON text, in hex. -/
  sha256 : Json → String

/-! ### Shared statements -/

/-- A confirmed booking of another id overlaps the stay in the room (`confirmedOverlapCondition`). -/
def confirmedConflict (db : Db) (roomId bookingId : ℕ) (checkIn checkOut : String) (b : Booking) : Bool :=
  db.roomTimes.any (fun t => t.id = b.roomTimeId ∧ t.roomId = roomId) && b.id ≠ bookingId &&
    b.status = .confirmed && b.checkIn < checkOut && checkIn < b.checkOut

/-- The locking probe for such a booking; it locks every one there is, with its window. -/
def assertNoConfirmedOverlap (roomId bookingId : ℕ) (checkIn checkOut : String) : Tx Unit := do
  let conflict ← .locking
    (fun db => (db.bookings.filter (confirmedConflict db roomId bookingId checkIn checkOut)).flatMap fun b =>
      [.booking b.id, .roomTime b.roomTimeId])
    fun db => db.bookings.find? (confirmedConflict db roomId bookingId checkIn checkOut)
  Txn.require conflict.isNone .roomAlreadyBooked

/-- The booking with a public id, locked. -/
def lockBooking (publicId : String) : Tx Booking := do
  let booking ← findLocked (·.bookings) (fun b => .booking b.id) (·.publicId = publicId)
  Txn.orThrow booking .bookingNotFound

/-- The window of a booking in a room, locked. -/
def lockRoomTime (roomTimeId roomId : ℕ) : Tx (Option RoomTime) :=
  findLocked (·.roomTimes) (fun t => .roomTime t.id) fun t => t.id = roomTimeId ∧ t.roomId = roomId

/-- The active windows of the room that cover the stay. -/
def containingWindows (db : Db) (roomId : ℕ) (checkIn checkOut : String) : List RoomTime :=
  db.roomTimes.filter fun t => t.roomId = roomId ∧ t.status = .active ∧ t.covers checkIn checkOut

/-- The first of them by `availableFrom`, then by id. -/
def containingWindow (db : Db) (roomId : ℕ) (checkIn checkOut : String) : Option RoomTime :=
  ((containingWindows db roomId checkIn checkOut).insertionSort fun t u =>
    t.availableFrom < u.availableFrom ∨ (t.availableFrom = u.availableFrom ∧ t.id ≤ u.id)).head?

/-- The containing-window lookup, locked. -/
def lockContainingWindow (roomId : ℕ) (checkIn checkOut : String) : Tx RoomTime := do
  let roomTime ← .locking (fun db => (containingWindow db roomId checkIn checkOut).toList.map fun t => .roomTime t.id)
    fun db => containingWindow db roomId checkIn checkOut
  Txn.orThrow roomTime .bookingWindowUnavailable

/-- `orderedUniqueRoomIds`. -/
def orderedUniqueRoomIds (roomIds : List ℕ) : List ℕ := roomIds.eraseDups.insertionSort (· ≤ ·)

/-- The window of a booking with its room, a plain read. -/
def findRoomOfWindow (roomTimeId : ℕ) : Tx Room := do
  let roomTime ← findOneOrFail (·.roomTimes) (·.id = roomTimeId)
  findOneOrFail (·.rooms) (·.id = roomTime.roomId)

/-- What a pre-read of a booking keeps: its window, its version, the window's room. -/
structure BookingSnapshot where
  roomTimeId : ℕ
  version : ℕ
  roomId : ℕ

/-- The pre-read, outside any transaction. -/
def bookingSourceSnapshot (publicId : String) : Tx BookingSnapshot := do
  let snapshot ← Txn.peeking fun db =>
    (db.bookings.find? (·.publicId = publicId)).bind fun b =>
      (db.roomTimes.find? (·.id = b.roomTimeId)).map fun t => (⟨b.roomTimeId, b.version, t.roomId⟩ : BookingSnapshot)
  Txn.orThrow snapshot .bookingNotFound

/-- A decision of an administrator on a pending booking, and its two events. -/
def appendTransitionAndOutbox (cfg : Config) (booking : Booking) (actorUserId : ℕ) (reason : Option String)
    (eventType : BookingOutboxEventType) (room : Room) : Tx Unit := do
  let _ ← insertStatusHistory booking.id (some .pending) booking.status .admin (some actorUserId) reason
  record cfg.lifecycleEnabled { booking := booking, room := ⟨room.id, room.roomTypeId⟩, fromStatus := some .pending }
  let _ ← insertOutbox booking eventType ⟨room.id, room.roomNumber⟩ reason none
  pure ()

/-- The lifecycle row of a transition that has not read its room. -/
def recordLifecycleByRoomTime (cfg : Config) (booking : Booking) (fromStatus : BookingStatus) : Tx Unit :=
  if cfg.lifecycleEnabled then do
    let room ← findRoomOfWindow booking.roomTimeId
    record cfg.lifecycleEnabled { booking := booking, room := ⟨room.id, room.roomTypeId⟩, fromStatus := some fromStatus }
  else pure ()

/-! ### Transitions -/

namespace BookingsService

def cancelOwn (cfg : Config) (actorUserId : ℕ) (publicId : String) : Tx Bool := do
  let found ← findLocked (·.bookings) (fun b => .booking b.id) fun b => b.publicId = publicId ∧ b.userId = actorUserId
  let booking ← Txn.orThrow found .bookingNotFound
  if booking.status = .cancelledByUser then pure true
  else do
    Txn.require (booking.status = .pending) .bookingStatusConflict
    let saved ← saveBooking { booking with status := .cancelledByUser }
    let _ ← insertStatusHistory booking.id (some .pending) .cancelledByUser .user (some actorUserId) none
    recordLifecycleByRoomTime cfg saved .pending
    pure false

def approve (cfg : Config) (actorUserId : ℕ) (publicId : String) : Tx Bool := do
  let snapshot ← bookingSourceSnapshot publicId
  let room ← lockRoom snapshot.roomId
  let booking ← lockBooking publicId
  -- an approved booking is a replay even though the approval moved its version
  if booking.status = .confirmed then pure true
  else do
    Txn.require (booking.roomTimeId = snapshot.roomTimeId ∧ booking.version = snapshot.version) .bookingStateChanged
    Txn.require (booking.status = .pending) .bookingStatusConflict
    let found ← lockRoomTime booking.roomTimeId room.id
    let roomTime ← Txn.orThrow found .bookingWindowUnavailable
    Txn.require (roomTime.status = .active ∧ roomTime.covers booking.checkIn booking.checkOut) .bookingWindowUnavailable
    assertNoConfirmedOverlap room.id booking.id booking.checkIn booking.checkOut
    let saved ← saveBooking { booking with status := .confirmed }
    appendTransitionAndOutbox cfg saved actorUserId none .confirmed room
    pure false

def reject (cfg : Config) (actorUserId : ℕ) (publicId reason : String) : Tx Bool := do
  let booking ← lockBooking publicId
  if booking.status = .rejected then do
    Txn.require (booking.rejectionReason = some reason) .bookingStatusConflict
    pure true
  else do
    Txn.require (booking.status = .pending) .bookingStatusConflict
    let saved ← saveBooking { booking with status := .rejected, rejectionReason := some reason }
    let room ← findRoomOfWindow booking.roomTimeId
    appendTransitionAndOutbox cfg saved actorUserId (some reason) .rejected room
    pure false

/-- The body of an administrator's edit. -/
structure UpdateBookingDto where
  roomId : Option ℕ
  checkIn : Option String
  checkOut : Option String
  reason : String

/-- The rooms of an edit, locked in id order. -/
def lockRooms : List ℕ → Tx (List Room)
  | [] => pure []
  | roomId :: roomIds => do
    let room ← lockRoom roomId
    let rooms ← lockRooms roomIds
    pure (room :: rooms)

def updateAdmin (cfg : Config) (today : String) (actorUserId : ℕ) (publicId : String) (expectedVersion : ℕ)
    (body : UpdateBookingDto) : Tx Bool := do
  let snapshot ← bookingSourceSnapshot publicId
  Txn.require (snapshot.version = expectedVersion) .bookingVersionConflict
  let destinationRoomId := body.roomId.getD snapshot.roomId
  let rooms ← lockRooms (orderedUniqueRoomIds [snapshot.roomId, destinationRoomId])
  let booking ← lockBooking publicId
  Txn.require (booking.version = expectedVersion) .bookingVersionConflict
  Txn.require (booking.roomTimeId = snapshot.roomTimeId) .bookingStateChanged
  let sourceWindow ← lockRoomTime booking.roomTimeId snapshot.roomId
  Txn.require sourceWindow.isSome .bookingStateChanged
  Txn.require booking.status.isActive .bookingStatusConflict
  let checkIn := body.checkIn.getD booking.checkIn
  let checkOut := body.checkOut.getD booking.checkOut
  Txn.require (¬ (destinationRoomId = snapshot.roomId ∧ checkIn = booking.checkIn ∧ checkOut = booking.checkOut))
    .bookingChangeEmpty
  Txn.require (assertBookingDates checkIn checkOut today ≠ 0) .bookingStayInvalid
  let destinationRoom ← Txn.orThrow (rooms.find? (·.id = destinationRoomId)) .roomNotFound
  Txn.require (destinationRoom.status = .active) .roomNotFound
  let destinationWindow ← lockContainingWindow destinationRoomId checkIn checkOut
  (assertNoConfirmedOverlap destinationRoomId booking.id checkIn checkOut).when (booking.status = .confirmed)
  let saved ← saveBooking { booking with roomTimeId := destinationWindow.id, checkIn := checkIn, checkOut := checkOut }
  let _ ← insertChangeHistory fun x =>
    ⟨x.id, saved.id, actorUserId, booking.roomTimeId, destinationWindow.id, booking.checkIn, booking.checkOut,
      checkIn, checkOut, body.reason, x.now⟩
  let sourceRoom ← Txn.orThrow (rooms.find? (·.id = snapshot.roomId)) .bookingStateChanged
  record cfg.lifecycleEnabled
    { booking := saved, room := ⟨destinationRoom.id, destinationRoom.roomTypeId⟩, fromStatus := some saved.status,
      previousStay := some ⟨snapshot.roomId, sourceRoom.roomTypeId, booking.checkIn, booking.checkOut⟩ }
  let _ ← insertOutbox saved .changed ⟨destinationRoom.id, destinationRoom.roomNumber⟩ (some body.reason)
    (some ⟨⟨snapshot.roomId, booking.checkIn, booking.checkOut⟩, ⟨destinationRoomId, checkIn, checkOut⟩⟩)
  pure false

/-- The last of a booking's status changes into `toStatus`, by time and then by id. -/
def latestTransition (db : Db) (bookingId : ℕ) (toStatus : BookingStatus) : Option BookingStatusHistory :=
  ((db.statusHistory.filter fun h => h.bookingId = bookingId ∧ h.toStatus = toStatus).insertionSort fun g h =>
    h.createdAt < g.createdAt ∨ (h.createdAt = g.createdAt ∧ h.id ≤ g.id)).head?

def cancelAdmin (cfg : Config) (actorUserId : ℕ) (publicId reason : String) : Tx Bool := do
  let booking ← lockBooking publicId
  if booking.status = .cancelledByAdmin then do
    let latest ← Txn.reading fun db => latestTransition db booking.id .cancelledByAdmin
    Txn.require (latest.bind (·.reason) = some reason) .bookingStatusConflict
    pure true
  else do
    Txn.require booking.status.isActive .bookingStatusConflict
    let saved ← saveBooking { booking with status := .cancelledByAdmin }
    let room ← findRoomOfWindow booking.roomTimeId
    let _ ← insertStatusHistory booking.id (some booking.status) .cancelledByAdmin .admin (some actorUserId) (some reason)
    record cfg.lifecycleEnabled
      { booking := saved, room := ⟨room.id, room.roomTypeId⟩, fromStatus := some booking.status }
    let _ ← insertOutbox saved .cancelledByAdmin ⟨room.id, room.roomNumber⟩ (some reason) none
    pure false

end BookingsService

/-! ### Creation -/

/-- The body of a create. -/
structure BookingCreateInput where
  roomId : ℕ
  checkIn : String
  checkOut : String

/-- `/^[A-Za-z0-9._:-]{8,128}$/` -/
def idempotencyKeyValid (key : String) : Bool :=
  8 ≤ key.toList.length && key.toList.length ≤ 128 &&
    key.toList.all fun c => isDigit c || ('A' ≤ c && c ≤ 'Z') || ('a' ≤ c && c ≤ 'z') || c ∈ ['.', '_', ':', '-']

def bookingCreateOperation : String := "BOOKING_CREATE"

def bookingCreateFingerprint (cfg : Config) (actorUserId : ℕ) (input : BookingCreateInput) : String :=
  cfg.sha256 (.obj [("v", .num 1), ("operation", .str bookingCreateOperation),
    ("actorUserId", .str (toString actorUserId)), ("roomId", .str (toString input.roomId)),
    ("checkIn", .str input.checkIn), ("checkOut", .str input.checkOut)])

/-- The row of an actor, an operation and a key. -/
def isKeyRow (actorUserId : ℕ) (operation key : String) (row : IdempotencyKey) : Bool :=
  row.actorUserId = actorUserId ∧ row.operation = operation ∧ row.idempotencyKey = key

namespace IdempotencyRepository

/-- `INSERT … ON DUPLICATE KEY UPDATE id = LAST_INSERT_ID(id)`: the row exists afterwards, locked. -/
def claim (cfg : Config) (actorUserId : ℕ) (operation key fingerprint : String) : Tx Supply :=
  .writing (fun x _ => [.idempotencyKey actorUserId operation key, .idempotencyRow x.id])
    (fun x db => above db.idempotencyKeys (·.id) x.id)
    fun x db => if db.idempotencyKeys.any (isKeyRow actorUserId operation key) then db
      else { db with idempotencyKeys := db.idempotencyKeys ++
        [⟨x.id, actorUserId, operation, key, fingerprint, .pending, none, none,
          x.now + cfg.retentionHours * 3600000000⟩] }

/-- Claim the row and return it locked; a key used for another request is refused. -/
def lock (cfg : Config) (actorUserId : ℕ) (operation key fingerprint : String) : Tx IdempotencyKey := do
  let _ ← claim cfg actorUserId operation key fingerprint
  let found ← findLocked (·.idempotencyKeys) (fun r => .idempotencyKey r.actorUserId r.operation r.idempotencyKey)
    (isKeyRow actorUserId operation key)
  let row ← Txn.orThrow found .internal
  Txn.require (row.requestFingerprint = fingerprint) .idempotencyKeyReused
  pure row

/-- Store the response a later replay must return. -/
def complete (row : IdempotencyKey) (responseStatus : ℕ) (responseBody : Json) : Tx Supply :=
  .writing (fun _ _ => [.idempotencyKey row.actorUserId row.operation row.idempotencyKey]) (fun _ _ => true)
    fun _ db => { db with idempotencyKeys := Table.update db.idempotencyKeys (·.id = row.id) fun r =>
      { r with status := .completed, responseStatus := some responseStatus, responseBody := some responseBody } }

end IdempotencyRepository

namespace BookingsService

/-- The active room and its window for the stay, locked in that order. -/
def lockBookingTarget (input : BookingCreateInput) : Tx (Room × RoomTime) := do
  let room ← lockRoom input.roomId
  Txn.require (room.status = .active) .roomNotFound
  let roomTime ← lockContainingWindow room.id input.checkIn input.checkOut
  pure (room, roomTime)

/-- A booking as it is created. -/
def newBooking (actorUserId : ℕ) (roomTime : RoomTime) (input : BookingCreateInput) (priceAmount : ℕ)
    (currency : String) (x : Supply) : Booking where
  id := x.id
  publicId := x.publicId
  userId := actorUserId
  roomTimeId := roomTime.id
  checkIn := input.checkIn
  checkOut := input.checkOut
  status := .pending
  priceAmount := priceAmount
  currency := currency
  rejectionReason := none
  version := 1
  createdAt := x.now
  updatedAt := x.now

def createPendingBooking (actorUserId : ℕ) (roomTime : RoomTime) (input : BookingCreateInput) (priceAmount : ℕ)
    (currency : String) : Tx Booking := do
  let booking ← insertBooking (newBooking actorUserId roomTime input priceAmount currency)
  let _ ← insertStatusHistory booking.id none .pending .user (some actorUserId) none
  pure booking

/-- The body of the response, which is stored for replays. -/
def toCreateResponse (booking : Booking) (room : Room) (roomType : RoomType) (nights : ℕ) : Json :=
  .obj [("id", .str booking.publicId),
    ("room", .obj [("id", .str (toString room.id)), ("roomNumber", .str room.roomNumber),
      ("roomType", .obj [("id", .str (toString roomType.id)), ("name", .str roomType.name)])]),
    ("checkIn", .str booking.checkIn),
    ("checkOut", .str booking.checkOut),
    ("nights", .num nights),
    ("status", .str BookingStatus.pending.text),
    ("price", .obj [("amount", .num (jsNumber booking.priceAmount)), ("currency", .str booking.currency)]),
    ("rejectionReason", .null),
    ("version", .num (jsNumber booking.version)),
    ("createdAt", .str (toISOString booking.createdAt)),
    ("updatedAt", .str (toISOString booking.updatedAt))]

def createInTransaction (cfg : Config) (today : String) (actorUserId : ℕ) (key fingerprint : String)
    (input : BookingCreateInput) : Tx Json := do
  let idempotency ← IdempotencyRepository.lock cfg actorUserId bookingCreateOperation key fingerprint
  if idempotency.status = .completed then pure (idempotency.responseBody.getD .null)
  else do
    let nights := assertBookingDates input.checkIn input.checkOut today
    Txn.require (nights ≠ 0) .bookingStayInvalid
    let (room, roomTime) ← lockBookingTarget input
    let priceAmount := room.basePriceAmount * nights
    Txn.require (priceAmount ≤ maxSafeInteger) .bookingPriceOutOfRange
    let booking ← createPendingBooking actorUserId roomTime input priceAmount room.currency
    record cfg.lifecycleEnabled { booking := booking, room := ⟨room.id, room.roomTypeId⟩, fromStatus := none }
    let roomType ← findOneOrFail (·.roomTypes) (·.id = room.roomTypeId)
    let response := toCreateResponse booking room roomType nights
    let _ ← IdempotencyRepository.complete idempotency 201 response
    pure response

def create (cfg : Config) (today : String) (actorUserId : ℕ) (idempotencyKey : Option String)
    (input : BookingCreateInput) : Tx Json := do
  let key ← Txn.orThrow (idempotencyKey.filter idempotencyKeyValid) .idempotencyKeyInvalid
  createInTransaction cfg today actorUserId key (bookingCreateFingerprint cfg actorUserId input) input

end BookingsService

/-! ### The calls of the system -/

/-- A call of the booking service or of room-time administration. -/
inductive Call where
  | create (today : String) (actorUserId : ℕ) (idempotencyKey : Option String) (input : BookingCreateInput)
  | approve (actorUserId : ℕ) (publicId : String)
  | reject (actorUserId : ℕ) (publicId reason : String)
  | updateAdmin (today : String) (actorUserId : ℕ) (publicId : String) (expectedVersion : ℕ)
      (body : BookingsService.UpdateBookingDto)
  | cancelOwn (actorUserId : ℕ) (publicId : String)
  | cancelAdmin (actorUserId : ℕ) (publicId reason : String)
  | createRoomTime (roomId : ℕ) (body : CreateRoomTimeDto)
  | updateRoomTime (roomId roomTimeId : ℕ) (body : UpdateRoomTimeDto)
  | deleteRoomTime (roomId roomTimeId : ℕ)

/-- What a call answers. -/
inductive Answer where
  /-- The created booking. -/
  | created (body : Json)
  /-- A transition, done before or now. -/
  | transition (replayed : Bool)
  /-- A window. -/
  | roomTime (response : AdminRoomTimeResponse)
  /-- Nothing. -/
  | noContent

/-- The transaction of a call. -/
def Call.run (cfg : Config) : Call → Tx Answer
  | .create today actor key input => do
    let body ← BookingsService.create cfg today actor key input
    pure (.created body)
  | .approve actor publicId => do
    let replayed ← BookingsService.approve cfg actor publicId
    pure (.transition replayed)
  | .reject actor publicId reason => do
    let replayed ← BookingsService.reject cfg actor publicId reason
    pure (.transition replayed)
  | .updateAdmin today actor publicId version body => do
    let replayed ← BookingsService.updateAdmin cfg today actor publicId version body
    pure (.transition replayed)
  | .cancelOwn actor publicId => do
    let replayed ← BookingsService.cancelOwn cfg actor publicId
    pure (.transition replayed)
  | .cancelAdmin actor publicId reason => do
    let replayed ← BookingsService.cancelAdmin cfg actor publicId reason
    pure (.transition replayed)
  | .createRoomTime roomId body => do
    let response ← RoomTimesService.create roomId body
    pure (.roomTime response)
  | .updateRoomTime roomId roomTimeId body => do
    let response ← RoomTimesService.update roomId roomTimeId body
    pure (.roomTime response)
  | .deleteRoomTime roomId roomTimeId => do
    let _ ← RoomTimesService.delete roomId roomTimeId
    pure .noContent

/-- Any number of calls, interleaved, from a hotel with rooms and nothing else yet. -/
def bookingSystem (cfg : Config) : Machine (Sys Db Key Supply AppError Answer Call) (Act Supply Call) :=
  machine (Call.run cfg) fun db => ∃ roomTypes rooms, db = Db.opening roomTypes rooms

end HotelBackend.Bookings
