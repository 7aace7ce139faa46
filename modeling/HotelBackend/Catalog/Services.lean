import HotelBackend.Catalog.Database

/-!
# Room administration

`ReferenceCatalogService`, `RoomsService` and the transactions of `RoomImagesService`, statement by
statement. Beside them stands what the other services do below a room, as far as a room sees it: a
window is added or removed under the lock of its room, a booking refers to a window it has locked, and
the tasks of the object storage change in any way at any time. `c` is the connection a call runs on.

URLs are signed outside of the database; an answer has the images they are signed for.
-/

namespace HotelBackend.Catalog

open HotelBackend.Theory
open HotelBackend.Theory.Transactions
open HotelBackend.Rooms (RoomStatus RoomTime RoomTimeStatus)
open HotelBackend.Files

variable {n : ℕ}

/-! ### Bodies and answers -/

structure CreateRoomTypeDto where
  name : String
  description : Option String

/-- An absent description is none at all, a null one `some none`. -/
structure UpdateRoomTypeDto where
  name : Option String
  description : Option (Option String)

structure CreateAmenityDto where
  code : String
  name : String

structure UpdateAmenityDto where
  code : Option String
  name : Option String

structure CreateRoomDto where
  roomNumber : String
  roomTypeId : ℕ
  bedCount : ℕ
  viewCode : Option String
  basePriceAmount : ℕ
  currency : String
  status : RoomStatus
  amenityIds : List ℕ

structure UpdateRoomDto where
  roomNumber : Option String
  roomTypeId : Option ℕ
  bedCount : Option ℕ
  viewCode : Option (Option String)
  basePriceAmount : Option ℕ
  currency : Option String
  status : Option RoomStatus
  amenityIds : Option (List ℕ)

def UpdateRoomTypeDto.hasDefinedUpdate (body : UpdateRoomTypeDto) : Bool := body.name.isSome || body.description.isSome

def UpdateAmenityDto.hasDefinedUpdate (body : UpdateAmenityDto) : Bool := body.code.isSome || body.name.isSome

def UpdateRoomDto.hasDefinedUpdate (body : UpdateRoomDto) : Bool :=
  body.roomNumber.isSome || body.roomTypeId.isSome || body.bedCount.isSome || body.viewCode.isSome ||
    body.basePriceAmount.isSome || body.currency.isSome || body.status.isSome || body.amenityIds.isSome

/-- `value || null` -/
def orNull (value : Option String) : Option String := value.filter (· ≠ "")

/-- The images of a room. -/
structure RoomImageSet where
  thumbnail : Option Attachment
  album : List Attachment
  deriving DecidableEq, Repr

def emptyImageSet : RoomImageSet := ⟨none, []⟩

structure AdminRoomResponse where
  id : ℕ
  roomNumber : String
  roomType : RoomType
  bedCount : ℕ
  viewCode : Option String
  basePriceAmount : ℕ
  currency : String
  status : RoomStatus
  amenities : List Amenity
  images : RoomImageSet
  version : ℕ
  createdAt : ℕ
  updatedAt : ℕ
  deriving DecidableEq, Repr

def toAdminRoomResponse (room : Room n) (roomType : RoomType) (amenities : List Amenity) (images : RoomImageSet) : AdminRoomResponse where
  id := room.id
  roomNumber := room.roomNumber
  roomType := roomType
  bedCount := room.bedCount
  viewCode := room.viewCode
  basePriceAmount := room.basePriceAmount
  currency := room.currency
  status := room.status
  amenities := amenities
  images := images
  version := room.version
  createdAt := room.createdAt
  updatedAt := room.updatedAt

/-! ### Shared reads -/

/-- The amenities with the ids, in the order of the scan, each shared as the scan comes to it. -/
def lockAmenities (c : Fin n) : List ℕ → CatalogTx n (List Amenity)
  | [] => pure []
  | id :: ids => do
    let met ← Txn.findShared c (·.amenities) (fun a => .amenity a.id) (·.id = id)
    let rest ← lockAmenities c ids
    pure (met.toList ++ rest)

/-- The room type and the amenities a body names, `FOR SHARE`; `IN` meets each id once. -/
def findLockedReferences (c : Fin n) (roomTypeId : ℕ) (amenityIds : List ℕ) : CatalogTx n (RoomType × List Amenity) := do
  let found ← Txn.findShared c (·.roomTypes) (fun t => .roomType t.id) (·.id = roomTypeId)
  let roomType ← Txn.orThrow found .roomReferenceNotFound
  let amenities ← lockAmenities c (amenityIds.dedup.insertionSort (· ≤ ·))
  Txn.require (amenities.length = amenityIds.length) .roomReferenceNotFound
  pure (roomType, amenities)

def lockRoom (roomId : ℕ) : CatalogTx n (Room n) := do
  let room ← Txn.findExclusive (·.rooms) (fun r => .room r.id) (·.id = roomId)
  Txn.orThrow room .roomNotFound

/-- The amenities of a room, by id. A row whose amenity is missing has none. -/
def amenitiesOfRoom (db : CatalogDb n) (roomIds : List ℕ) (roomId : ℕ) : List (Option Amenity) :=
  (((db.roomAmenities.filter fun a => a.roomId ∈ roomIds && a.roomId = roomId).map (·.amenityId)).insertionSort (· ≤ ·)).map
    fun id => db.amenities.find? (·.id = id)

/-- The amenities of each room. -/
def loadAmenitiesByRoom (roomIds : List ℕ) : CatalogTx n (ℕ → List (Option Amenity)) :=
  if roomIds = [] then pure fun _ => []
  else Txn.reading fun db => amenitiesOfRoom db roomIds

/-- The attachments of each target, by position. -/
def findAttachmentsByTargets (attachments : List Attachment) (objectType : AttachmentObjectType) (objectIds : List ℕ)
    (associationType : AttachmentAssociationType) (objectId : ℕ) : List Attachment :=
  if objectId ∈ objectIds then findTargetAttachments attachments ⟨objectType, objectId, associationType⟩ else []

/-- The images of each room. -/
def loadImageSets (roomIds : List ℕ) : CatalogTx n (ℕ → RoomImageSet) := do
  let thumbnails ← Txn.reading fun db => findAttachmentsByTargets db.attachments .room roomIds .thumbnail
  let albums ← Txn.reading fun db => findAttachmentsByTargets db.attachments .room roomIds .album
  pure fun roomId => ⟨(thumbnails roomId).head?, albums roomId⟩

/-! ### Room types and amenities -/

namespace ReferenceCatalogService

variable (cfg : CatalogConfig)

def createRoomType (body : CreateRoomTypeDto) : CatalogTx n RoomType := insertRoomType cfg body.name (orNull body.description)

def updateRoomType (roomTypeId : ℕ) (body : UpdateRoomTypeDto) : CatalogTx n RoomType := do
  Txn.require body.hasDefinedUpdate .emptyUpdate
  let found ← Txn.findExclusive (·.roomTypes) (fun t => .roomType t.id) (·.id = roomTypeId)
  let roomType ← Txn.orThrow found .roomTypeNotFound
  saveRoomType cfg { roomType with
    name := body.name.getD roomType.name, description := (body.description.map orNull).getD roomType.description }

def deleteRoomType (roomTypeId : ℕ) : CatalogTx n Unit := do
  let found ← Txn.findExclusive (·.roomTypes) (fun t => .roomType t.id) (·.id = roomTypeId)
  let roomType ← Txn.orThrow found .roomTypeNotFound
  let used ← Txn.reading fun db => Table.affected db.rooms (·.roomTypeId = roomTypeId)
  Txn.require (used = 0) .roomTypeInUse
  removeRoomType roomType.id

def createAmenity (body : CreateAmenityDto) : CatalogTx n Amenity := insertAmenity cfg body.code body.name

def updateAmenity (amenityId : ℕ) (body : UpdateAmenityDto) : CatalogTx n Amenity := do
  Txn.require body.hasDefinedUpdate .emptyUpdate
  let found ← Txn.findExclusive (·.amenities) (fun a => .amenity a.id) (·.id = amenityId)
  let amenity ← Txn.orThrow found .amenityNotFound
  saveAmenity cfg { amenity with code := body.code.getD amenity.code, name := body.name.getD amenity.name }

def deleteAmenity (amenityId : ℕ) : CatalogTx n Unit := do
  let found ← Txn.findExclusive (·.amenities) (fun a => .amenity a.id) (·.id = amenityId)
  let amenity ← Txn.orThrow found .amenityNotFound
  let used ← Txn.reading fun db => Table.affected db.roomAmenities (·.amenityId = amenityId)
  Txn.require (used = 0) .amenityInUse
  removeAmenity amenity.id

end ReferenceCatalogService

/-! ### Rooms -/

def replaceAmenityAssignments (c : Fin n) (roomId : ℕ) (amenityIds : List ℕ) : CatalogTx n Unit := do
  deleteRoomAmenities roomId
  (insertRoomAmenities c roomId amenityIds).when (amenityIds ≠ [])

/-- The columns of a room after a `PATCH`. -/
def UpdateRoomDto.apply (body : UpdateRoomDto) (room : Room n) : Room n :=
  { room with
    roomNumber := body.roomNumber.getD room.roomNumber
    roomTypeId := body.roomTypeId.getD room.roomTypeId
    bedCount := body.bedCount.getD room.bedCount
    viewCode := body.viewCode.getD room.viewCode
    basePriceAmount := body.basePriceAmount.getD room.basePriceAmount
    currency := body.currency.getD room.currency
    status := body.status.getD room.status }

/-- The amenities are replaced if they are given, and others than the room has. -/
def replaceIfChanged (c : Fin n) (roomId : ℕ) : Option (List ℕ) → CatalogTx n Unit
  | none => pure ()
  | some amenityIds => do
    let assignments ← Txn.reading fun db => db.roomAmenities.filter (·.roomId = roomId)
    let currentIds := (assignments.map (·.amenityId)).dedup
    (replaceAmenityAssignments c roomId amenityIds).when
      (currentIds.length ≠ amenityIds.length ∨ ∃ id ∈ amenityIds, id ∉ currentIds)

namespace RoomsService

variable (cfg : CatalogConfig)

def create (c : Fin n) (body : CreateRoomDto) : CatalogTx n AdminRoomResponse := do
  let references ← findLockedReferences c body.roomTypeId body.amenityIds
  let room ← insertRoom cfg body.roomNumber fun x =>
    { id := x.id, roomTypeId := references.1.id, roomNumber := body.roomNumber, bedCount := body.bedCount, viewCode := body.viewCode,
      basePriceAmount := body.basePriceAmount, currency := body.currency, status := body.status, version := 1,
      createdAt := x.now, updatedAt := x.now, trx := c }
  replaceAmenityAssignments c room.id body.amenityIds
  pure (toAdminRoomResponse room references.1 references.2 emptyImageSet)

def update (c : Fin n) (roomId : ℕ) (expectedVersion : String) (body : UpdateRoomDto) : CatalogTx n AdminRoomResponse := do
  Txn.require body.hasDefinedUpdate .emptyUpdate
  let room ← lockRoom roomId
  Txn.require (toString room.version = expectedVersion) .roomVersionConflict
  let references ← findLockedReferences c (body.roomTypeId.getD room.roomTypeId) (body.amenityIds.getD [])
  replaceIfChanged c roomId body.amenityIds
  updateRoom cfg c (body.apply room)
  let found ← Txn.reading fun db => db.rooms.find? (·.id = room.id)
  let saved ← Txn.orThrow found .internal
  let amenities ← match body.amenityIds with
    | some _ => pure references.2
    | none => do
      let amenitiesByRoom ← loadAmenitiesByRoom [room.id]
      -- `toAmenityResponse` of a missing amenity is a `TypeError`
      Txn.orThrow ((amenitiesByRoom room.id).mapM id) .internal
  let imagesByRoom ← loadImageSets [room.id]
  pure (toAdminRoomResponse saved references.1 amenities (imagesByRoom room.id))

def delete (roomId : ℕ) : CatalogTx n Unit := do
  let room ← lockRoom roomId
  let attachments ← .locking (fun _ => []) fun db => findRoomAttachments db.attachments roomId
  (do
    deleteRoomAttachments roomId
    insertDetachedTasks (attachments.map (·.objectKey)) : CatalogTx n Unit).when (attachments ≠ [])
  deleteRoomTimes roomId
  deleteRoomAmenities roomId
  removeRoom room.id

end RoomsService

/-! ### Images -/

namespace RoomImagesService

/-- The transaction of `upload`, after the object is stored. -/
def upload (roomId : ℕ) (policy : AttachmentPolicy) (objectKey mimeType : String) (sizeBytes uploaderUserId : ℕ) (uuid : ℕ → String) (now : ℕ) :
    CatalogTx n (List String) := do
  let _ ← lockRoom roomId
  attachmentsService (completeUpload · ⟨policy, roomId, objectKey, mimeType, sizeBytes⟩ uploaderUserId uuid now)

def reorder (roomId : ℕ) (attachmentIds : List String) : CatalogTx n (List String) := do
  let _ ← lockRoom roomId
  attachmentsService fun files => (Files.reorder files ⟨.room, roomId, .album⟩ attachmentIds).map (·, [])

def delete (roomId : ℕ) (attachmentId : String) (uuid : ℕ → String) (now : ℕ) : CatalogTx n (List String) := do
  let _ ← lockRoom roomId
  attachmentsService (detach · attachmentId .room roomId uuid now)

end RoomImagesService

/-! ### Windows, bookings and tasks -/

namespace Neighbours

def createRoomTime (roomId : ℕ) (availableFrom availableTo : String) (status : RoomTimeStatus) : CatalogTx n Unit := do
  let _ ← lockRoom roomId
  let _ ← .writing (fun x _ => exclusive n (.roomTime x.id)) (fun x db => db.roomTimes.all (·.id ≠ x.id))
    fun x db => { db with roomTimes := db.roomTimes ++ [⟨x.id, roomId, availableFrom, availableTo, status⟩] }
  pure ()

def deleteRoomTime (roomId roomTimeId : ℕ) : CatalogTx n Unit := do
  let _ ← lockRoom roomId
  let found ← Txn.findExclusive (·.roomTimes) (fun t => .roomTime t.id) fun t => t.id = roomTimeId && t.roomId = roomId
  let roomTime ← Txn.orThrow found .roomTimeNotFound
  let referenced ← .locking (fun _ => []) fun db => db.isReferenced roomTime.id
  Txn.require (referenced = false) .roomTimeHasHistory
  let _ ← .writing (fun _ _ => []) (fun _ _ => true) fun _ db => { db with roomTimes := Table.delete db.roomTimes (·.id = roomTime.id) }
  pure ()

/-- A booking, or a change of one, in a window. -/
def useRoomTime (roomTimeId : ℕ) : CatalogTx n Unit := do
  let found ← Txn.findExclusive (·.roomTimes) (fun t => .roomTime t.id) (·.id = roomTimeId)
  let roomTime ← Txn.orThrow found .roomTimeNotFound
  let _ ← .writing (fun x _ => exclusive n (.roomTimeUse x.id)) (fun _ _ => true)
    fun x db => { db with roomTimeUses := db.roomTimeUses ++ [⟨x.id, roomTime.id⟩] }
  pure ()

/-- What uploads and cleanup workers do to the tasks. -/
def changeTasks (f : List StorageCleanupTask → List StorageCleanupTask) : CatalogTx n Unit := do
  let _ ← .writing (fun _ _ => []) (fun _ _ => true) fun _ db => { db with tasks := f db.tasks }
  pure ()

end Neighbours

/-! ### The calls -/

inductive CatalogRequest where
  | createRoomType (body : CreateRoomTypeDto)
  | updateRoomType (roomTypeId : ℕ) (body : UpdateRoomTypeDto)
  | deleteRoomType (roomTypeId : ℕ)
  | createAmenity (body : CreateAmenityDto)
  | updateAmenity (amenityId : ℕ) (body : UpdateAmenityDto)
  | deleteAmenity (amenityId : ℕ)
  | createRoom (body : CreateRoomDto)
  | updateRoom (roomId : ℕ) (expectedVersion : String) (body : UpdateRoomDto)
  | deleteRoom (roomId : ℕ)
  | uploadImage (roomId : ℕ) (policy : AttachmentPolicy) (objectKey mimeType : String) (sizeBytes uploaderUserId : ℕ) (uuid : ℕ → String) (now : ℕ)
  | reorderImages (roomId : ℕ) (attachmentIds : List String)
  | deleteImage (roomId : ℕ) (attachmentId : String) (uuid : ℕ → String) (now : ℕ)
  | createRoomTime (roomId : ℕ) (availableFrom availableTo : String) (status : RoomTimeStatus)
  | deleteRoomTime (roomId roomTimeId : ℕ)
  | useRoomTime (roomTimeId : ℕ)
  | changeTasks (f : List StorageCleanupTask → List StorageCleanupTask)

inductive CatalogAnswer where
  | roomType (roomType : RoomType)
  | amenity (amenity : Amenity)
  | room (room : AdminRoomResponse)
  | images (detachedObjectKeys : List String)
  | done

/-- The transaction of a request on a connection. -/
def CatalogRequest.run (cfg : CatalogConfig) (c : Fin n) : CatalogRequest → CatalogTx n CatalogAnswer
  | .createRoomType body => do
    let roomType ← ReferenceCatalogService.createRoomType cfg body
    pure (.roomType roomType)
  | .updateRoomType roomTypeId body => do
    let roomType ← ReferenceCatalogService.updateRoomType cfg roomTypeId body
    pure (.roomType roomType)
  | .deleteRoomType roomTypeId => do
    ReferenceCatalogService.deleteRoomType roomTypeId
    pure .done
  | .createAmenity body => do
    let amenity ← ReferenceCatalogService.createAmenity cfg body
    pure (.amenity amenity)
  | .updateAmenity amenityId body => do
    let amenity ← ReferenceCatalogService.updateAmenity cfg amenityId body
    pure (.amenity amenity)
  | .deleteAmenity amenityId => do
    ReferenceCatalogService.deleteAmenity amenityId
    pure .done
  | .createRoom body => do
    let room ← RoomsService.create cfg c body
    pure (.room room)
  | .updateRoom roomId expectedVersion body => do
    let room ← RoomsService.update cfg c roomId expectedVersion body
    pure (.room room)
  | .deleteRoom roomId => do
    RoomsService.delete roomId
    pure .done
  | .uploadImage roomId policy objectKey mimeType sizeBytes uploaderUserId uuid now => do
    -- `resolve` finds the policies of rooms only
    Txn.require (policy ∈ createAttachmentPolicies cfg.maxAlbumCount) .attachmentPairInvalid
    let detached ← RoomImagesService.upload roomId policy objectKey mimeType sizeBytes uploaderUserId uuid now
    pure (.images detached)
  | .reorderImages roomId attachmentIds => do
    let detached ← RoomImagesService.reorder roomId attachmentIds
    pure (.images detached)
  | .deleteImage roomId attachmentId uuid now => do
    let detached ← RoomImagesService.delete roomId attachmentId uuid now
    pure (.images detached)
  | .createRoomTime roomId availableFrom availableTo status => do
    Neighbours.createRoomTime roomId availableFrom availableTo status
    pure .done
  | .deleteRoomTime roomId roomTimeId => do
    Neighbours.deleteRoomTime roomId roomTimeId
    pure .done
  | .useRoomTime roomTimeId => do
    Neighbours.useRoomTime roomTimeId
    pure .done
  | .changeTasks f => do
    Neighbours.changeTasks f
    pure .done

/-- A request and the connection it gets. -/
structure CatalogCall (n : ℕ) where
  connection : Fin n
  request : CatalogRequest

/-- Any number of calls over a pool of `n` connections, interleaved, from an empty hotel. -/
def catalogSystem (cfg : CatalogConfig) (n : ℕ) :
    Machine (Sys (CatalogDb n) (CatalogRow × Fin n) CatalogSupply CatalogError CatalogAnswer (CatalogCall n)) (Act CatalogSupply (CatalogCall n)) :=
  machine (fun call => call.request.run cfg call.connection) fun db => db = .empty n

end HotelBackend.Catalog
