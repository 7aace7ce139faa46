import HotelBackend.Theory.SharedLocks
import HotelBackend.Theory.Tables
import HotelBackend.Rooms.Entities
import HotelBackend.Files.Attachments

/-!
# The room catalogue

The tables of the catalogue with the rows they lock, and the statements its services are written in.
The rows of `rooms` and `room_amenities` say which connection wrote them last, as InnoDB keeps the
transaction of every row; no statement reads that column. `roomIds` are the ids that rooms were ever
given: `AUTO_INCREMENT` gives none twice.

Rows below a room (its amenities, windows and images) are changed under the lock of the room, so they
have no locks of their own here; a window has one, for the bookings that refer to it. Foreign keys are
not in the tables: an insert does not ask for the row it refers to. Only the delete of a room relies on
one, and asks (`deleteRoomTimes`).
-/

namespace HotelBackend.Catalog

open HotelBackend.Theory
open HotelBackend.Theory.Transactions
open HotelBackend.Rooms (RoomStatus RoomTime RoomTimeStatus)
open HotelBackend.Files

/-! ### Tables -/

/-- A row of `room_types`. Times are microseconds. -/
structure RoomType where
  id : ℕ
  name : String
  description : Option String
  createdAt : ℕ
  updatedAt : ℕ
  deriving DecidableEq, Repr

/-- A row of `amenities`. -/
structure Amenity where
  id : ℕ
  code : String
  name : String
  createdAt : ℕ
  updatedAt : ℕ
  deriving DecidableEq, Repr

/-- A row of `rooms`. -/
structure Room (n : ℕ) where
  id : ℕ
  roomTypeId : ℕ
  roomNumber : String
  bedCount : ℕ
  viewCode : Option String
  basePriceAmount : ℕ
  currency : String
  status : RoomStatus
  version : ℕ
  createdAt : ℕ
  updatedAt : ℕ
  /-- The connection that wrote it. -/
  trx : Fin n
  deriving DecidableEq, Repr

/-- A row of `room_amenities`. -/
structure RoomAmenity (n : ℕ) where
  roomId : ℕ
  amenityId : ℕ
  /-- The connection that wrote it. -/
  trx : Fin n
  deriving DecidableEq, Repr

/-- A row of `bookings` or `booking_change_history`, by a window it refers to. -/
structure RoomTimeUse where
  id : ℕ
  roomTimeId : ℕ
  deriving DecidableEq, Repr

structure CatalogDb (n : ℕ) where
  roomTypes : List RoomType
  amenities : List Amenity
  rooms : List (Room n)
  /-- The ids that rooms were given. -/
  roomIds : List ℕ
  roomAmenities : List (RoomAmenity n)
  roomTimes : List RoomTime
  roomTimeUses : List RoomTimeUse
  attachments : List Attachment
  tasks : List StorageCleanupTask

/-- A hotel with nothing yet. -/
def CatalogDb.empty (n : ℕ) : CatalogDb n := ⟨[], [], [], [], [], [], [], [], []⟩

/-- The two tables of files. -/
def CatalogDb.files {n : ℕ} (db : CatalogDb n) : FilesTables := ⟨db.attachments, db.tasks⟩

/-- What can be locked, and what can refer to it: rows, and the entries of unique columns. -/
inductive CatalogRow where
  | roomType (id : ℕ)
  | roomTypeName (weight : String)
  | amenity (id : ℕ)
  | amenityCode (weight : String)
  | room (id : ℕ)
  | roomNumber (weight : String)
  | roomAmenity (roomId amenityId : ℕ)
  | roomTime (id : ℕ)
  | roomTimeUse (id : ℕ)
  | attachment (id : String)
  deriving DecidableEq

/-- What is drawn for a write: an auto-increment id, UUIDs, the time. -/
structure CatalogSupply where
  id : ℕ
  uuid : ℕ → String
  now : ℕ

/-- The errors a call can answer with. -/
inductive CatalogError where
  | roomTypeNotFound
  | roomTypeNameConflict
  | roomTypeInUse
  | amenityNotFound
  | amenityCodeConflict
  | amenityInUse
  | roomNotFound
  | roomReferenceNotFound
  | roomNumberConflict
  | roomVersionConflict
  | roomHasHistory
  | roomTimeNotFound
  | roomTimeHasHistory
  | emptyUpdate
  | attachmentPairInvalid
  | files (error : FilesError)
  | internal
  deriving DecidableEq, Repr

/-- What the services are configured with. -/
structure CatalogConfig where
  /-- The weight of a text in the collation of the unique columns. -/
  collate : String → String
  maxAlbumCount : ℕ

/-- A transaction of the catalogue. -/
abbrev CatalogTx (n : ℕ) (α : Type) : Type 1 := Txn (CatalogDb n) (CatalogRow × Fin n) CatalogSupply CatalogError α

section Statements

variable {n : ℕ} (cfg : CatalogConfig)

/-! ### Unique columns -/

/-- A unique column takes the entry of a value, and refuses one that another row has (`ER_DUP_ENTRY`). -/
def takeEntry (entry : CatalogRow) (taken : CatalogDb n → Bool) (conflict : CatalogError) : CatalogTx n Unit := do
  let taken ← .locking (fun _ => exclusive n entry) taken
  Txn.require (taken = false) conflict

/-! ### Room types and amenities -/

def insertRoomType (name : String) (description : Option String) : CatalogTx n RoomType := do
  takeEntry (.roomTypeName (cfg.collate name)) (fun db => db.roomTypes.any fun t => cfg.collate t.name = cfg.collate name) .roomTypeNameConflict
  let x ← .writing (fun x _ => exclusive n (.roomType x.id)) (fun x db => db.roomTypes.all (·.id ≠ x.id))
    fun x db => { db with roomTypes := db.roomTypes ++ [⟨x.id, name, description, x.now, x.now⟩] }
  pure ⟨x.id, name, description, x.now, x.now⟩

/-- `manager.save` of a loaded room type: the row is read, and written if a column changed. -/
def saveRoomType (roomType : RoomType) : CatalogTx n RoomType := do
  let stored ← Txn.reading fun db => db.roomTypes.find? (·.id = roomType.id)
  if stored = some roomType then pure roomType
  else do
    takeEntry (.roomTypeName (cfg.collate roomType.name))
      (fun db => db.roomTypes.any fun t => t.id ≠ roomType.id && cfg.collate t.name = cfg.collate roomType.name) .roomTypeNameConflict
    let x ← .writing (fun _ _ => exclusive n (.roomType roomType.id)) (fun _ _ => true)
      fun x db => { db with roomTypes := Table.update db.roomTypes (·.id = roomType.id) fun t =>
        { t with name := roomType.name, description := roomType.description, updatedAt := x.now } }
    pure { roomType with updatedAt := x.now }

def removeRoomType (id : ℕ) : CatalogTx n Unit := do
  let _ ← .writing (fun _ _ => exclusive n (.roomType id)) (fun _ _ => true)
    fun _ db => { db with roomTypes := Table.delete db.roomTypes (·.id = id) }
  pure ()

def insertAmenity (code name : String) : CatalogTx n Amenity := do
  takeEntry (.amenityCode (cfg.collate code)) (fun db => db.amenities.any fun a => cfg.collate a.code = cfg.collate code) .amenityCodeConflict
  let x ← .writing (fun x _ => exclusive n (.amenity x.id)) (fun x db => db.amenities.all (·.id ≠ x.id))
    fun x db => { db with amenities := db.amenities ++ [⟨x.id, code, name, x.now, x.now⟩] }
  pure ⟨x.id, code, name, x.now, x.now⟩

def saveAmenity (amenity : Amenity) : CatalogTx n Amenity := do
  let stored ← Txn.reading fun db => db.amenities.find? (·.id = amenity.id)
  if stored = some amenity then pure amenity
  else do
    takeEntry (.amenityCode (cfg.collate amenity.code))
      (fun db => db.amenities.any fun a => a.id ≠ amenity.id && cfg.collate a.code = cfg.collate amenity.code) .amenityCodeConflict
    let x ← .writing (fun _ _ => exclusive n (.amenity amenity.id)) (fun _ _ => true)
      fun x db => { db with amenities := Table.update db.amenities (·.id = amenity.id) fun a =>
        { a with code := amenity.code, name := amenity.name, updatedAt := x.now } }
    pure { amenity with updatedAt := x.now }

def removeAmenity (id : ℕ) : CatalogTx n Unit := do
  let _ ← .writing (fun _ _ => exclusive n (.amenity id)) (fun _ _ => true)
    fun _ db => { db with amenities := Table.delete db.amenities (·.id = id) }
  pure ()

/-! ### Rooms -/

/-- An insert into `rooms`: the version is 1. -/
def insertRoom (roomNumber : String) (row : CatalogSupply → Room n) : CatalogTx n (Room n) := do
  takeEntry (.roomNumber (cfg.collate roomNumber)) (fun db => db.rooms.any fun r => cfg.collate r.roomNumber = cfg.collate roomNumber) .roomNumberConflict
  let x ← .writing (fun x _ => exclusive n (.room x.id)) (fun x db => x.id ∉ db.roomIds)
    fun x db => { db with rooms := db.rooms ++ [row x], roomIds := db.roomIds ++ [x.id] }
  pure (row x)

/-- The largest value of a `BIGINT UNSIGNED` column. -/
def maxUnsignedBigint : ℕ := 18446744073709551615

/-- `manager.update(Room, …)` of the columns of a room and `version + 1`, which strict SQL mode keeps in range. -/
def updateRoom (c : Fin n) (room : Room n) : CatalogTx n Unit := do
  takeEntry (.roomNumber (cfg.collate room.roomNumber))
    (fun db => db.rooms.any fun r => r.id ≠ room.id && cfg.collate r.roomNumber = cfg.collate room.roomNumber) .roomNumberConflict
  Txn.require (room.version < maxUnsignedBigint) .internal
  let _ ← .writing (fun _ _ => exclusive n (.room room.id)) (fun _ _ => true)
    fun x db => { db with rooms := Table.update db.rooms (·.id = room.id) fun r =>
      { r with roomNumber := room.roomNumber, roomTypeId := room.roomTypeId, bedCount := room.bedCount, viewCode := room.viewCode,
               basePriceAmount := room.basePriceAmount, currency := room.currency, status := room.status,
               version := r.version + 1, updatedAt := x.now, trx := c } }
  pure ()

def removeRoom (id : ℕ) : CatalogTx n Unit := do
  let _ ← .writing (fun _ _ => exclusive n (.room id)) (fun _ _ => true)
    fun _ db => { db with rooms := Table.delete db.rooms (·.id = id) }
  pure ()

/-! ### Below a room -/

def deleteRoomAmenities (roomId : ℕ) : CatalogTx n Unit := do
  let _ ← .writing (fun _ _ => []) (fun _ _ => true)
    fun _ db => { db with roomAmenities := Table.delete db.roomAmenities (·.roomId = roomId) }
  pure ()

/-- The rows of a room's amenities. -/
def amenityRows (c : Fin n) (roomId : ℕ) (amenityIds : List ℕ) : List (RoomAmenity n) := amenityIds.map (⟨roomId, ·, c⟩)

/-- An insert of many rows. A row that is there already is `ER_DUP_ENTRY`, which every caller takes for a room number. -/
def insertRoomAmenities (c : Fin n) (roomId : ℕ) (amenityIds : List ℕ) : CatalogTx n Unit := do
  let taken ← .locking (fun _ => []) fun db =>
    !decide amenityIds.Nodup || db.roomAmenities.any fun a => a.roomId = roomId && a.amenityId ∈ amenityIds
  Txn.require (taken = false) .roomNumberConflict
  let _ ← .writing (fun _ _ => []) (fun _ _ => true)
    fun _ db => { db with roomAmenities := db.roomAmenities ++ amenityRows c roomId amenityIds }
  pure ()

/-- A foreign key refers to the window. -/
def CatalogDb.isReferenced (db : CatalogDb n) (roomTimeId : ℕ) : Bool := db.roomTimeUses.any (·.roomTimeId = roomTimeId)

/-- The windows of a room. -/
def CatalogDb.windowsOf (db : CatalogDb n) (roomId : ℕ) : List RoomTime := db.roomTimes.filter (·.roomId = roomId)

/-- `manager.delete(RoomTime, { roomId })`: the foreign keys refuse to lose a window they refer to (`ER_ROW_IS_REFERENCED_2`). -/
def deleteRoomTimes (roomId : ℕ) : CatalogTx n Unit := do
  let referenced ← .locking (fun db => (db.windowsOf roomId).flatMap fun t => exclusive n (.roomTime t.id))
    fun db => (db.windowsOf roomId).any fun t => db.isReferenced t.id
  Txn.require (referenced = false) .roomHasHistory
  let _ ← .writing (fun _ _ => []) (fun _ _ => true)
    fun _ db => { db with roomTimes := Table.delete db.roomTimes (·.roomId = roomId) }
  pure ()

/-- `manager.delete(Attachment, …)` of a room's images. -/
def deleteRoomAttachments (roomId : ℕ) : CatalogTx n Unit := do
  let _ ← .writing (fun _ _ => []) (fun _ _ => true)
    fun _ db => { db with attachments := Table.delete db.attachments fun a => a.objectType = .room && a.objectId = roomId }
  pure ()

/-- The cleanup tasks of detached objects. -/
def detachedTasks (x : CatalogSupply) (objectKeys : List String) : List StorageCleanupTask :=
  objectKeys.zipIdx.map fun (objectKey, i) => .fresh (x.uuid i) objectKey .detachedObject x.now

/-- `manager.insert(StorageCleanupTask, …)`; ids and object keys are unique. -/
def insertDetachedTasks (objectKeys : List String) : CatalogTx n Unit := do
  let _ ← .writing (fun _ _ => []) (fun x db => (detachedTasks x objectKeys).all fun t => !isDuplicate db.tasks t.id t.objectKey)
    fun x db => { db with tasks := db.tasks ++ detachedTasks x objectKeys }
  pure ()

/-- The tables of files after an operation of `AttachmentsService`, if it succeeds. -/
def CatalogDb.withFiles (db : CatalogDb n) : Except FilesError (FilesTables × List String) → CatalogDb n
  | .ok (files, _) => { db with attachments := files.attachments, tasks := files.tasks }
  | .error _ => db

/-- An operation of `AttachmentsService` in the transaction of its caller: the keys of the objects it detached. -/
def attachmentsService (f : FilesTables → Except FilesError (FilesTables × List String)) : CatalogTx n (List String) := do
  let outcome ← .locking (fun _ => []) fun db => (f db.files).map (·.2)
  let detached ← Txn.ofExcept (outcome.mapError .files)
  let _ ← .writing (fun _ _ => []) (fun _ db => (f db.files).isOk) fun _ db => db.withFiles (f db.files)
  pure detached

end Statements

end HotelBackend.Catalog
