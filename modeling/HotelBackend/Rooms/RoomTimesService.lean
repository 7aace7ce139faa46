import HotelBackend.Bookings.Database

/-!
# Room-time administration

`room-lock.ts`, `room-time-policy.ts`, the usage repository behind it and
`RoomTimesService.create`, `update` and `delete`, each the transaction it runs. Every
one of them locks the physical room first. The usage counts are plain reads, so they
are of the snapshot their transaction takes at the first of them, after its locks.
-/

namespace HotelBackend.Rooms

open HotelBackend.Theory
open HotelBackend.Theory.Transactions
open HotelBackend.Bookings

/-! ### The room lock -/

/-- Lock the physical room. -/
def lockRoom (roomId : ℕ) : Tx Room := do
  let room ← findLocked (·.rooms) (fun r => .room r.id) (·.id = roomId)
  Txn.orThrow room .roomNotFound

/-! ### Policy -/

/-- The editable part of a window. -/
structure RoomTimeState where
  availableFrom : String
  availableTo : String
  status : RoomTimeStatus

/-- What refers to a window. -/
structure RoomTimeUsage where
  bookingCount : ℕ
  activeBookingCount : ℕ
  changeHistoryCount : ℕ
  deriving DecidableEq, Repr

/-- Nothing does. -/
def emptyRoomTimeUsage : RoomTimeUsage := ⟨0, 0, 0⟩

def assertRoomTimeRange (range : RoomTimeState) : Except AppError Unit :=
  if range.availableTo ≤ range.availableFrom then .error .roomTimeRangeInvalid else .ok ()

/-- Dates are frozen once anything refers to the window, and a window is not switched off
under an active booking. -/
def assertRoomTimeUpdateAllowed (current next : RoomTimeState) (usage : RoomTimeUsage) : Except AppError Unit :=
  let datesChanged := current.availableFrom ≠ next.availableFrom ∨ current.availableTo ≠ next.availableTo
  let isDeactivation := current.status = .active ∧ next.status = .inactive
  if next.availableTo ≤ next.availableFrom then .error .roomTimeRangeInvalid
  else if datesChanged ∧ (0 < usage.bookingCount ∨ 0 < usage.changeHistoryCount) then .error .roomTimeDatesImmutable
  else if isDeactivation ∧ 0 < usage.activeBookingCount then .error .roomTimeInUse
  else .ok ()

def assertRoomTimeDeleteAllowed (usage : RoomTimeUsage) : Except AppError Unit :=
  if 0 < usage.bookingCount ∨ 0 < usage.changeHistoryCount then .error .roomTimeHasHistory else .ok ()

/-! ### Usage -/

/-- A row of a grouped count. -/
structure CountRow where
  roomTimeId : ℕ
  total : ℕ
  active : ℕ

/-- The bookings of each window, and how many of them are active; a window without any has no row. -/
def countBookings (db : Db) (ids : List ℕ) : List CountRow :=
  (ids.map fun id => ⟨id, Table.affected db.bookings (·.roomTimeId = id),
    Table.affected db.bookings fun b => b.roomTimeId = id ∧ b.status.isActive⟩).filter (0 < ·.total)

/-- The change rows that match `p`, by the window in `column`. -/
def countChanges (db : Db) (ids : List ℕ) (column : BookingChangeHistory → ℕ) (p : BookingChangeHistory → Bool) :
    List CountRow :=
  (ids.map fun id => ⟨id, Table.affected db.changeHistory fun c => column c = id ∧ p c, 0⟩).filter (0 < ·.total)

/-- The counts entered into a map seeded with zeros. -/
def mergeUsage (ids : List ℕ) (bookingRows fromRows toRows : List CountRow) : List (ℕ × RoomTimeUsage) :=
  let seeded := ids.map fun id => (id, emptyRoomTimeUsage)
  let counted := bookingRows.foldl (fun usage row => usage.map fun entry =>
    if entry.1 = row.roomTimeId then (entry.1, { entry.2 with bookingCount := row.total, activeBookingCount := row.active })
    else entry) seeded
  (fromRows ++ toRows).foldl (fun usage row => usage.map fun entry =>
    if entry.1 = row.roomTimeId then (entry.1, { entry.2 with changeHistoryCount := entry.2.changeHistoryCount + row.total })
    else entry) counted

/-- The usage of each window asked about. A date-only edit names its window in both columns
and is counted once. -/
def findByRoomTimeIds (roomTimeIds : List ℕ) : Tx (List (ℕ × RoomTimeUsage)) :=
  let ids := roomTimeIds.eraseDups
  if ids.isEmpty then pure []
  else do
    let bookingRows ← Txn.reading fun db => countBookings db ids
    let fromRows ← Txn.reading fun db => countChanges db ids (·.fromRoomTimeId) fun _ => true
    let toRows ← Txn.reading fun db => countChanges db ids (·.toRoomTimeId) fun c => c.toRoomTimeId ≠ c.fromRoomTimeId
    pure (mergeUsage ids bookingRows fromRows toRows)

/-- The usage of one window; an absent entry is an error, never zero. -/
def loadUsage (roomTimeId : ℕ) : Tx RoomTimeUsage := do
  let usages ← findByRoomTimeIds [roomTimeId]
  Txn.orThrow (usages.lookup roomTimeId) .internal

/-! ### The service -/

/-- The body of a create. -/
structure CreateRoomTimeDto where
  availableFrom : String
  availableTo : String
  status : Option RoomTimeStatus

/-- The body of an update. -/
structure UpdateRoomTimeDto where
  availableFrom : Option String
  availableTo : Option String
  status : Option RoomTimeStatus

/-- A window as the administration shows it. -/
structure AdminRoomTimeResponse where
  roomTime : RoomTime
  usage : RoomTimeUsage

def findLockedRoomTime (roomId roomTimeId : ℕ) : Tx RoomTime := do
  let roomTime ← findLocked (·.roomTimes) (fun t => .roomTime t.id) fun t => t.id = roomTimeId ∧ t.roomId = roomId
  Txn.orThrow roomTime .roomTimeNotFound

/-- An active window of the room overlaps the candidate's dates. -/
def overlapsCandidate (roomId : ℕ) (candidate : RoomTimeState) (excludedRoomTimeId : Option ℕ) (t : RoomTime) : Bool :=
  t.roomId = roomId ∧ t.status = .active ∧ t.availableFrom < candidate.availableTo ∧
    candidate.availableFrom < t.availableTo ∧ excludedRoomTimeId ≠ some t.id

/-- An active candidate may not overlap an active window of its room. -/
def assertNoActiveOverlap (roomId : ℕ) (candidate : RoomTimeState) (excludedRoomTimeId : Option ℕ) : Tx Unit :=
  if candidate.status ≠ .active then pure ()
  else do
    let other ← findLocked (·.roomTimes) (fun t => .roomTime t.id) (overlapsCandidate roomId candidate excludedRoomTimeId)
    Txn.require other.isNone .roomTimeOverlap

/-- An insert into `room_times`. -/
def insertRoomTime (row : Supply → RoomTime) : Tx RoomTime := do
  let x ← .writing (fun x _ => [.roomTime x.id]) (fun x db => above db.roomTimes (·.id) x.id)
    fun x db => { db with roomTimes := db.roomTimes ++ [row x] }
  pure (row x)

/-- `manager.save` of a loaded window. -/
def saveRoomTime (t : RoomTime) : Tx RoomTime := do
  let _ ← Txn.reading fun db => db.roomTimes.find? (·.id = t.id)
  let _ ← .writing (fun _ _ => [.roomTime t.id]) (fun _ _ => true)
    fun _ db => { db with roomTimes := Table.update db.roomTimes (·.id = t.id) fun r =>
      { r with availableFrom := t.availableFrom, availableTo := t.availableTo, status := t.status } }
  pure t

/-- A foreign key refers to the window. -/
def isReferenced (db : Db) (roomTimeId : ℕ) : Bool :=
  db.bookings.any (·.roomTimeId = roomTimeId) ||
    db.changeHistory.any fun c => c.fromRoomTimeId = roomTimeId ∨ c.toRoomTimeId = roomTimeId

/-- `manager.remove`: the foreign keys refuse to lose a row they refer to
(`ER_ROW_IS_REFERENCED_2`), and the service answers as its own check does. -/
def removeRoomTime (t : RoomTime) : Tx Unit := do
  let referenced ← .locking (fun _ => []) fun db => isReferenced db t.id
  Txn.require (referenced = false) .roomTimeHasHistory
  let _ ← .writing (fun _ _ => [.roomTime t.id]) (fun _ db => !isReferenced db t.id)
    fun _ db => { db with roomTimes := Table.delete db.roomTimes (·.id = t.id) }
  pure ()

namespace RoomTimesService

def create (roomId : ℕ) (body : CreateRoomTimeDto) : Tx AdminRoomTimeResponse := do
  let candidate : RoomTimeState := ⟨body.availableFrom, body.availableTo, body.status.getD .active⟩
  Txn.ofExcept (assertRoomTimeRange candidate)
  let _ ← lockRoom roomId
  assertNoActiveOverlap roomId candidate none
  let roomTime ← insertRoomTime fun x =>
    ⟨x.id, roomId, candidate.availableFrom, candidate.availableTo, candidate.status⟩
  pure ⟨roomTime, emptyRoomTimeUsage⟩

def update (roomId roomTimeId : ℕ) (body : UpdateRoomTimeDto) : Tx AdminRoomTimeResponse := do
  Txn.require (body.availableFrom.isSome ∨ body.availableTo.isSome ∨ body.status.isSome) .emptyUpdate
  let _ ← lockRoom roomId
  let roomTime ← findLockedRoomTime roomId roomTimeId
  let usage ← loadUsage roomTimeId
  let current : RoomTimeState := ⟨roomTime.availableFrom, roomTime.availableTo, roomTime.status⟩
  let next : RoomTimeState := ⟨body.availableFrom.getD roomTime.availableFrom,
    body.availableTo.getD roomTime.availableTo, body.status.getD roomTime.status⟩
  Txn.ofExcept (assertRoomTimeUpdateAllowed current next usage)
  assertNoActiveOverlap roomId next (some roomTime.id)
  let saved ← saveRoomTime { roomTime with
    availableFrom := next.availableFrom, availableTo := next.availableTo, status := next.status }
  pure ⟨saved, usage⟩

def delete (roomId roomTimeId : ℕ) : Tx Unit := do
  let _ ← lockRoom roomId
  let roomTime ← findLockedRoomTime roomId roomTimeId
  let usage ← loadUsage roomTimeId
  Txn.ofExcept (assertRoomTimeDeleteAllowed usage)
  removeRoomTime roomTime

end RoomTimesService

end HotelBackend.Rooms
