import HotelBackend.Theory.Zooms
import HotelBackend.Reports.RoomExportCreate
import HotelBackend.Reports.RoomExportSnapshot

/-!
# Creation requests

`RoomExportService.create` beside the booking calls, over one store: both creations claim their rows of
`idempotency_keys` through `IdempotencyRepository`, and the retention task removes rows by `expires_at`. A
booking call, which is written for the booking database, runs here on that part of the store. What the JSON
column of a response does to the order of keys is in `RoomExportCreate`, and left out here.
-/

namespace HotelBackend.Reports

open HotelBackend.Common
open HotelBackend.Theory
open HotelBackend.Theory.Transactions
open HotelBackend.Bookings
open HotelBackend.Rooms

/-! ### The store -/

/-- A row of `export_jobs`, with the time the table gives it. -/
structure StoredExportJob extends ExportJob where
  createdAt : ℕ

/-- The booking database and `export_jobs`. -/
structure RequestDb where
  hotel : Bookings.Db
  exportJobs : List StoredExportJob

def RequestDb.opening (roomTypes : List RoomType) (rooms : List Room) : RequestDb where
  hotel := .opening roomTypes rooms
  exportJobs := []

inductive RequestKey where
  | hotel (key : Bookings.Key)
  | exportJob (id : String)
  deriving DecidableEq

inductive RequestError where
  | hotel (error : AppError)
  /-- `roomExportErrors.createDisabled` -/
  | exportCreateDisabled
  deriving DecidableEq, Repr

abbrev RequestTx (α : Type) : Type 1 := Txn RequestDb RequestKey Supply RequestError α

/-- The booking database is a part of the store. -/
def hotelPart : Part RequestDb Bookings.Db where
  get s := s.hotel
  set s hotel := { s with hotel := hotel }
  get_set _ _ := rfl
  set_set _ _ _ := rfl

/-- A program of the booking database. -/
def inHotel {α : Type} (c : Tx α) : RequestTx α := c.zoom hotelPart .hotel .hotel

structure RequestConfig extends Bookings.Config where
  /-- Exports are on. -/
  exportsEnabled : Bool

/-! ### The creation of an export -/

def roomExportCreateOperation : String := "ROOM_EXPORT_CREATE"

/-- The filters as the job keeps them: one that is not given has no key. -/
def RoomExportFilters.toJson (filters : RoomExportFilters) : Json :=
  .obj ((filters.query.map fun query => ("query", Json.str query)).toList ++
    (filters.status.map fun status => ("status", Json.str (statusText status))).toList ++
    (filters.roomTypeId.map fun id => ("roomTypeId", Json.str id)).toList ++
    (filters.beds.map fun beds => ("beds", Json.num (beds : ℕ))).toList ++
    (filters.view.map fun view => ("view", Json.str view)).toList)

/-- `value ?? null` -/
def orNull (value : Option Json) : Json := value.getD .null

def roomExportCreateFingerprint (cfg : RequestConfig) (actorUserId : ℕ) (filters : RoomExportFilters) : String :=
  cfg.sha256 (.obj [("v", .num 1), ("operation", .str roomExportCreateOperation), ("actorUserId", .str (toString actorUserId)),
    ("query", orNull (filters.query.map .str)), ("status", orNull (filters.status.map fun status => .str (statusText status))),
    ("roomTypeId", orNull (filters.roomTypeId.map .str)), ("beds", orNull (filters.beds.map fun beds => .num (beds : ℕ))),
    ("view", orNull (filters.view.map .str))])

namespace ExportJobRepository

/-- `randomUUID()`: nothing is written. -/
def randomUUID : RequestTx String := do
  let x ← .writing (fun _ _ => []) (fun _ _ => true) fun _ db => db
  pure x.uuid

/-- An insert into `export_jobs`: the id is new, and so is the event. -/
def insertJob (job : ExportJob) : RequestTx Supply :=
  .writing (fun _ _ => [.exportJob job.id]) (fun _ db => db.exportJobs.all fun j => j.id ≠ job.id ∧ j.outboxEventId ≠ job.outboxEventId)
    fun x db => { db with exportJobs := db.exportJobs ++ [⟨job, x.now⟩] }

/-- The event, then the job that refers to it. The answer is the job as the table has it. -/
def create (requestedBy : ℕ) (filters : Json) : RequestTx StoredExportJob := do
  let jobId ← randomUUID
  let event ← inHotel (insertOutboxEvent roomExportEventType (roomExportPayload jobId) (roomExportIdempotencyKey jobId))
  let _ ← insertJob (.queued jobId requestedBy event.uuid filters)
  let created ← Txn.reading fun db => db.exportJobs.find? (·.id = jobId)
  Txn.orThrow created (.hotel .internal)

end ExportJobRepository

namespace RoomExportService

def createInTransaction (cfg : RequestConfig) (actorUserId : ℕ) (key fingerprint : String) (filters : RoomExportFilters) :
    RequestTx Json := do
  let idempotency ← inHotel (IdempotencyRepository.lock cfg.toConfig actorUserId roomExportCreateOperation key fingerprint)
  if idempotency.status = .completed then pure (toRoomExportCreateResponse (idempotency.responseBody.getD .null))
  else do
    let job ← ExportJobRepository.create actorUserId filters.toJson
    let response := createdResponse job.id job.createdAt
    let _ ← inHotel (IdempotencyRepository.complete idempotency 202 response)
    pure response

def create (cfg : RequestConfig) (actorUserId : ℕ) (idempotencyKey : Option String) (filters : RoomExportFilters) : RequestTx Json := do
  Txn.require cfg.exportsEnabled .exportCreateDisabled
  let key ← Txn.orThrow (idempotencyKey.filter idempotencyKeyValid) (.hotel .idempotencyKeyInvalid)
  createInTransaction cfg actorUserId key (roomExportCreateFingerprint cfg actorUserId filters) filters

end RoomExportService

/-! ### The retention of keys -/

/-- `expires_at <= NOW(6) ORDER BY expires_at, id LIMIT n` -/
def dueKeys (now batchSize : ℕ) (db : Bookings.Db) : List IdempotencyKey :=
  ((db.idempotencyKeys.filter (·.expiresAt ≤ now)).insertionSort fun r r' =>
    r.expiresAt < r'.expiresAt ∨ (r.expiresAt = r'.expiresAt ∧ r.id ≤ r'.id)).take batchSize

/-- The lock of a row of `idempotency_keys`. -/
def rowLock (row : IdempotencyKey) : Bookings.Key := .idempotencyKey row.actorUserId row.operation row.idempotencyKey

/-- `deleteBatch` of the task `idempotency-keys`: the rows it takes, locked, and removed. -/
def purgeKeys (now batchSize : ℕ) : Tx ℕ := do
  let due ← .locking (fun db => (dueKeys now batchSize db).map rowLock) (dueKeys now batchSize)
  let _ ← .writing (fun _ _ => due.map rowLock) (fun _ _ => true)
    fun _ db => { db with idempotencyKeys := Table.delete db.idempotencyKeys fun r => due.any fun d => d.id = r.id }
  pure due.length

/-! ### The requests of the system -/

inductive Request where
  /-- A call of the booking service or of room-time administration. -/
  | hotel (call : Call)
  | roomExport (actorUserId : ℕ) (idempotencyKey : Option String) (filters : RoomExportFilters)
  /-- A batch of the retention task, at the time `NOW(6)` gives it. -/
  | purge (now batchSize : ℕ)

inductive Response where
  | hotel (answer : Answer)
  | roomExport (body : Json)
  | purged (deleted : ℕ)

/-- The transaction of a request. -/
def Request.run (cfg : RequestConfig) : Request → RequestTx Response
  | .hotel call => do
    let answer ← inHotel (call.run cfg.toConfig)
    pure (.hotel answer)
  | .roomExport actorUserId idempotencyKey filters => do
    let body ← RoomExportService.create cfg actorUserId idempotencyKey filters
    pure (.roomExport body)
  | .purge now batchSize => do
    let deleted ← inHotel (purgeKeys now batchSize)
    pure (.purged deleted)

abbrev RequestSys : Type 1 := Sys RequestDb RequestKey Supply RequestError Response Request

/-- Any number of requests, interleaved, from a hotel with rooms and nothing else yet. -/
def requestSystem (cfg : RequestConfig) : Machine RequestSys (Act Supply Request) :=
  machine (Request.run cfg) fun db => ∃ roomTypes rooms, db = RequestDb.opening roomTypes rooms

end HotelBackend.Reports
