import HotelBackend.Theory.Transactions
import HotelBackend.Theory.Tables
import HotelBackend.Rooms.Entities
import HotelBackend.Bookings.Entities
import HotelBackend.Outbox.Entity

/-!
# The booking database

The tables the booking and room-time transactions touch, the rows they lock, and the
statements they are written in. A locking read of one row (`findOne … FOR UPDATE`)
locks the row it finds; an insert locks the row and the unique entries it writes; ids
are above every id in the table (`AUTO_INCREMENT`), UUIDs and public ids are new or the
insert fails.
-/

namespace HotelBackend.Bookings

open HotelBackend.Common
open HotelBackend.Theory
open HotelBackend.Theory.Transactions
open HotelBackend.Rooms
open HotelBackend.Outbox

/-- The tables. -/
structure Db where
  roomTypes : List RoomType
  rooms : List Room
  roomTimes : List RoomTime
  bookings : List Booking
  statusHistory : List BookingStatusHistory
  changeHistory : List BookingChangeHistory
  idempotencyKeys : List IdempotencyKey
  outboxEvents : List OutboxEvent

/-- A hotel with rooms and nothing else yet. -/
def Db.opening (roomTypes : List RoomType) (rooms : List Room) : Db where
  roomTypes := roomTypes
  rooms := rooms
  roomTimes := []
  bookings := []
  statusHistory := []
  changeHistory := []
  idempotencyKeys := []
  outboxEvents := []

/-- What a transaction can lock: rows by primary key, and unique index entries. -/
inductive Key where
  | room (id : ℕ)
  | roomTime (id : ℕ)
  | booking (id : ℕ)
  | publicId (publicId : String)
  | statusHistory (id : ℕ)
  | changeHistory (id : ℕ)
  | idempotencyKey (actorUserId : ℕ) (operation key : String)
  | idempotencyRow (id : ℕ)
  | outboxEvent (id : String)
  | outboxKey (key : String)
  deriving DecidableEq

/-- What is drawn for a write: an auto-increment id, a UUID, a public booking id, the time. -/
structure Supply where
  id : ℕ
  uuid : String
  publicId : String
  now : ℕ
  deriving DecidableEq

/-- The errors a call can answer with, by their codes. -/
inductive AppError where
  | bookingChangeEmpty
  | bookingNotFound
  | bookingStatusConflict
  | bookingStateChanged
  | roomAlreadyBooked
  | roomNotFound
  | bookingWindowUnavailable
  | bookingVersionConflict
  | bookingStayInvalid
  | bookingPriceOutOfRange
  | roomTimeNotFound
  | roomTimeRangeInvalid
  | roomTimeOverlap
  | roomTimeDatesImmutable
  | roomTimeInUse
  | roomTimeHasHistory
  | emptyUpdate
  | idempotencyKeyInvalid
  | idempotencyKeyReused
  | internal
  deriving DecidableEq, Repr

/-- A transaction of the booking database. -/
abbrev Tx (α : Type) : Type 1 := Txn Db Key Supply AppError α

/-! ### Reads -/

/-- `findOne … FOR UPDATE`: the first row that matches, locked. -/
def findLocked {ρ : Type} (table : Db → List ρ) (key : ρ → Key) (p : ρ → Bool) : Tx (Option ρ) :=
  .locking (fun db => ((table db).find? p).toList.map key) fun db => (table db).find? p

/-- `findOneOrFail`, a plain read. -/
def findOneOrFail {ρ : Type} (table : Db → List ρ) (p : ρ → Bool) : Tx ρ := do
  let row ← Txn.reading fun db => (table db).find? p
  Txn.orThrow row .internal

/-! ### Writes -/

/-- The rows' ids are all below `id`. -/
def above {ρ : Type} (rows : List ρ) (rowId : ρ → ℕ) (id : ℕ) : Bool := rows.all fun r => rowId r < id

/-- An insert into `bookings`, with the version and times the table gives it. -/
def insertBooking (row : Supply → Booking) : Tx Booking := do
  let x ← .writing (fun x _ => [.booking x.id, .publicId x.publicId])
    (fun x db => above db.bookings (·.id) x.id && db.bookings.all fun b => b.publicId ≠ x.publicId)
    fun x db => { db with bookings := db.bookings ++ [row x] }
  pure (row x)

/-- `manager.save` of a loaded booking: the row is read, then the columns that changed are
written and the version goes up by one. The answer is the booking as saved. -/
def saveBooking (b : Booking) : Tx Booking := do
  let _ ← Txn.reading fun db => db.bookings.find? (·.id = b.id)
  let x ← .writing (fun _ _ => [.booking b.id]) (fun _ _ => true)
    fun x db => { db with bookings := Table.update db.bookings (·.id = b.id) fun r =>
      { r with roomTimeId := b.roomTimeId, checkIn := b.checkIn, checkOut := b.checkOut, status := b.status,
               rejectionReason := b.rejectionReason, version := r.version + 1, updatedAt := x.now } }
  pure { b with version := b.version + 1, updatedAt := x.now }

/-- An insert into `booking_status_history`. -/
def insertStatusHistory (bookingId : ℕ) (fromStatus : Option BookingStatus) (toStatus : BookingStatus)
    (actorType : BookingActorType) (actorUserId : Option ℕ) (reason : Option String) : Tx Supply :=
  .writing (fun x _ => [.statusHistory x.id]) (fun x db => above db.statusHistory (·.id) x.id)
    fun x db => { db with statusHistory := db.statusHistory ++
      [⟨x.id, bookingId, fromStatus, toStatus, actorType, actorUserId, reason, x.now⟩] }

/-- An insert into `booking_change_history`. -/
def insertChangeHistory (row : Supply → BookingChangeHistory) : Tx Supply :=
  .writing (fun x _ => [.changeHistory x.id]) (fun x db => above db.changeHistory (·.id) x.id)
    fun x db => { db with changeHistory := db.changeHistory ++ [row x] }

/-- An insert into `outbox_events`: the id is new, and the key not taken. -/
def insertOutboxEvent (eventType : String) (payload : Json) (key : String) : Tx Supply :=
  .writing (fun x _ => [.outboxEvent x.uuid, .outboxKey key])
    (fun x db => db.outboxEvents.all fun e => e.id ≠ x.uuid ∧ e.idempotencyKey ≠ key)
    fun x db => { db with outboxEvents := db.outboxEvents ++ [.fresh x.uuid eventType payload key x.now] }

end HotelBackend.Bookings
