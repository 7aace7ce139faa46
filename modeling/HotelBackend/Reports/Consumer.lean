import HotelBackend.Outbox.Protocol
import HotelBackend.Reports.ExportJobs

/-!
# Export attempts and cleanup together

`RoomExportConsumerService`: an attempt claims its job, reads the snapshot, has the
workbook generated, inserts a safeguard for its object, uploads it and publishes it. Any
number of them, started with any queue job and as often as it is delivered, run next to
the dispatchers and the cleanup workers, a call at a time and in any order; between two
calls an attempt may wait for any time, and it may end at any of them.

`ResultsStored` is what is wanted: a completed job has its object. It holds in every run
whose steps are `Fenced`; the source makes no such check.
-/

namespace HotelBackend.Reports

open HotelBackend.Common
open HotelBackend.Theory
open HotelBackend.Outbox
open HotelBackend.Files

/-! ### The machine -/

/-- The bounds of an attempt. -/
structure ReportsConfig where
  maxAttempts : ℕ
  claimLeaseMs : ℕ
  backoffInitialMs : ℕ
  backoffMaxMs : ℕ
  cleanupGraceMs : ℕ
  maxFileBytes : ℕ
  ttlHours : ℕ

/-- How far an attempt is. -/
inductive ConsumerPhase where
  /-- The claim is committed, `run` has started. -/
  | reading
  /-- The snapshot is read. -/
  | read (rowCount : ℕ)
  /-- The claim is renewed. -/
  | generating (rowCount : ℕ)
  | generated (result : RoomExportGeneratedResult)
  /-- The claim is renewed again. -/
  | staging (result : RoomExportGeneratedResult)
  /-- The safeguard is committed. -/
  | uploading (result : RoomExportGeneratedResult)
  /-- The object is stored. -/
  | publishing (result : RoomExportGeneratedResult)
  /-- Something was thrown. -/
  | failing (error : RoomExportError)

/-- A call of `process`, past its claim. -/
structure Consumer where
  worker : ℕ
  data : ClaimKey
  claim : RoomExportAttemptClaim
  phase : ConsumerPhase

/-- The key of its object. -/
def Consumer.objectKey (c : Consumer) : String := stagingObjectKey c.claim.jobId c.data.claimToken

/-- Past its safeguard: what it has stored by now. -/
def ConsumerPhase.upload : ConsumerPhase → Option (Option Buffer)
  | uploading _ => some none
  | publishing result => some (some result.file)
  | _ => none

/-- The stage a renewal leads to. -/
def ConsumerPhase.renewed : ConsumerPhase → Option ConsumerPhase
  | read rowCount => some (generating rowCount)
  | generated result => some (staging result)
  | _ => none

/-- The dispatchers, the attempts and the workers. -/
structure RoomExports where
  outbox : State
  jobs : List ExportJob
  store : Store Buffer
  consumers : List Consumer
  /-- Writes reported as failed that the provider has yet to carry out. -/
  latePuts : List (String × Buffer)
  /-- The calls of `run` so far. -/
  runs : List ClaimKey

/-- A step of a request, a dispatcher, an attempt, or a cleanup worker. -/
inductive ExportAction where
  /-- `ExportJobRepository.create`. -/
  | create (eventId jobId : String) (requestedBy : ℕ) (filters : Json) (now : ℕ)
  /-- A dispatcher, or another family. -/
  | statement (now : ℕ) (st : Statement)
  /-- `process` claims its job. -/
  | start (worker : ℕ) (data : ClaimKey) (now : ℕ) (outcome : QueryOutcome)
  /-- The snapshot, as many rows as it has. -/
  | read (worker : ℕ) (rows : Except RoomExportError ℕ)
  | renew (worker now : ℕ) (outcome : QueryOutcome)
  | generate (worker : ℕ) (generation : Generation)
  | insertUploadSafeguard (worker : ℕ) (taskId : String) (now : ℕ) (outcome : QueryOutcome)
  | upload (worker : ℕ) (outcome : CallOutcome)
  | latePut (objectKey : String)
  | complete (worker now : ℕ) (outcome : QueryOutcome)
  | recordFailure (worker : ℕ) (random : ℚ) (now : ℕ) (outcome : QueryOutcome)
  | crash (worker : ℕ)
  | cleanup (a : CleanupAction)

/-- The statement is one of an attempt, or of a request: it comes with a change of the job. -/
def isReports : Statement → Bool
  | .insert _ eventType .. => eventType = roomExportEventType
  | .exportRenew .. | .exportComplete .. | .exportRetry .. | .exportFail .. => true
  | _ => false

namespace RoomExports

/-- The tables. -/
def tables (s : RoomExports) : ReportsTables := ⟨s.outbox.rows, s.jobs, s.store.tasks⟩

/-- The tables after a transaction. -/
def commit (s : RoomExports) (db : ReportsTables) : RoomExports :=
  { s with outbox := { s.outbox with rows := db.events }, jobs := db.jobs, store := { s.store with tasks := db.tasks } }

def consumer (s : RoomExports) (worker : ℕ) : Option Consumer := s.consumers.find? (·.worker = worker)

/-- The attempt moves on. -/
def move (s : RoomExports) (worker : ℕ) (phase : ConsumerPhase) : RoomExports :=
  { s with consumers := Table.update s.consumers (·.worker = worker) fun c => { c with phase := phase } }

/-- The attempt is over. -/
def leave (s : RoomExports) (worker : ℕ) : RoomExports := { s with consumers := Table.delete s.consumers (·.worker = worker) }

/-- The object is stored. -/
def put (s : RoomExports) (objectKey : String) (body : Buffer) : RoomExports :=
  { s with store := { s.store with objects := fun k => if k = objectKey then some body else s.store.objects k } }

variable (config : ReportsConfig) (sha256Hex : Buffer → String)

/-- `renew`: a claim that is gone ends the attempt. -/
def renew (s : RoomExports) (c : Consumer) (next : ConsumerPhase) (now : ℕ) : QueryOutcome → RoomExports
  | .failed => s.move c.worker (.failing .unknown)
  | outcome =>
    let u := RoomExportAttempt.renew c.data.id c.data.claimToken config.claimLeaseMs now
    let s' := { s with outbox := { s.outbox with rows := u.run s.outbox.rows } }
    if outcome = .lostReply then s'.move c.worker (.failing .unknown)
    else if u.hits s.outbox.rows then s'.move c.worker next
    else s'.leave c.worker

/-- The safeguard of the attempt's key. -/
def insertUploadSafeguard (s : RoomExports) (c : Consumer) (result : RoomExportGeneratedResult) (taskId : String) (now : ℕ)
    (outcome : QueryOutcome) : RoomExports :=
  match Files.insertUploadSafeguard s.store.tasks taskId c.objectKey (now + config.cleanupGraceMs * 1000), outcome with
  | none, _ | _, .failed => s.move c.worker (.failing .unknown)
  | some tasks, .lostReply => { s with store := { s.store with tasks := tasks } }.move c.worker (.failing .unknown)
  | some tasks, .committed => { s with store := { s.store with tasks := tasks } }.move c.worker (.uploading result)

/-- The upload of the workbook. -/
def upload (s : RoomExports) (c : Consumer) (result : RoomExportGeneratedResult) : CallOutcome → RoomExports
  | .done => (s.put c.objectKey result.file).move c.worker (.publishing result)
  | .lostReply => (s.put c.objectKey result.file).move c.worker (.failing storageUnavailable)
  | .refused => s.move c.worker (.failing storageUnavailable)
  | .late => { s with latePuts := (c.objectKey, result.file) :: s.latePuts }.move c.worker (.failing storageUnavailable)

/-- What the attempt publishes. -/
def completion (c : Consumer) (result : RoomExportGeneratedResult) : RoomExportCompletion where
  data := c.data
  jobId := c.claim.jobId
  objectKey := c.objectKey
  rowCount := result.rowCount
  fileSizeBytes := result.byteLength
  contentSha256 := sha256Hex result.file
  resultTtlHours := config.ttlHours

/-- The completion, in its transaction. -/
def complete (s : RoomExports) (c : Consumer) (result : RoomExportGeneratedResult) (now : ℕ) (outcome : QueryOutcome) : RoomExports :=
  match Reports.complete s.tables (completion config sha256Hex c result) now, outcome with
  | .error e, _ => s.move c.worker (.failing e)
  | _, .failed => s.move c.worker (.failing .unknown)
  | .ok (db, _), .lostReply => (s.commit db).move c.worker (.failing .unknown)
  | .ok (db, _), .committed => (s.commit db).leave c.worker

/-- `recordFailure`: a permanent failure and the last attempt are terminal. -/
def recordFailure (s : RoomExports) (c : Consumer) (error : RoomExportError) (random : ℚ) (now : ℕ) (outcome : QueryOutcome) :
    RoomExports :=
  let failure := classifyRoomExportFailure error
  let terminal := !failure.retryable || decide (config.maxAttempts ≤ c.data.attempt)
  let retryInMs := roomExportBackoffMs c.data.attempt config.backoffInitialMs config.backoffMaxMs random
  match if terminal then fail s.tables c.data c.claim.jobId failure.errorCode now
        else retry s.tables c.data c.claim.jobId retryInMs failure.errorCode now, outcome with
  | .error _, _ | _, .failed => s.leave c.worker
  | .ok (db, _), _ => (s.commit db).leave c.worker

/-- A step; `none` where it is not one of the state. -/
def exec (s : RoomExports) : ExportAction → Option RoomExports
  | .create eventId jobId requestedBy filters now =>
    if s.jobs.any fun j => j.id = jobId || j.outboxEventId = eventId then none
    else (s.outbox.exec now (.insert eventId roomExportEventType (roomExportPayload jobId) (roomExportIdempotencyKey jobId))).map
      fun outbox => { s with outbox := outbox, jobs := s.jobs ++ [.queued jobId requestedBy eventId filters] }
  | .statement now st =>
    if isReports st then none else (s.outbox.exec now st).map fun outbox => { s with outbox := outbox }
  | .start worker data now outcome =>
    if s.consumers.any (·.worker = worker) then none
    else match claim s.tables data now, outcome with
      | none, _ | _, .failed => some s
      | some (db, _), .lostReply => some (s.commit db)
      | some (db, claim), .committed =>
        some { s.commit db with consumers := s.consumers ++ [⟨worker, data, claim, .reading⟩], runs := s.runs ++ [data] }
  | .read worker rows => do
    let c ← s.consumer worker
    match c.phase, rows with
    | .reading, .ok rowCount => return s.move worker (.read rowCount)
    | .reading, .error e => return s.move worker (.failing e)
    | _, _ => none
  | .renew worker now outcome => do
    let c ← s.consumer worker
    let next ← c.phase.renewed
    return s.renew config c next now outcome
  | .generate worker generation => do
    let c ← s.consumer worker
    match c.phase with
    | .generating rowCount =>
      match acceptGenerated ⟨c.claim.jobId, c.data.attempt, config.maxFileBytes, rowCount⟩ generation with
      | .ok result => return s.move worker (.generated result)
      | .error e => return s.move worker (.failing e)
    | _ => none
  | .insertUploadSafeguard worker taskId now outcome => do
    let c ← s.consumer worker
    match c.phase with
    | .staging result => return s.insertUploadSafeguard config c result taskId now outcome
    | _ => none
  | .upload worker outcome => do
    let c ← s.consumer worker
    match c.phase with
    | .uploading result => return s.upload c result outcome
    | _ => none
  | .latePut objectKey => (s.latePuts.find? (·.1 = objectKey)).map fun p =>
    { s.put objectKey p.2 with latePuts := s.latePuts.eraseP (·.1 = objectKey) }
  | .complete worker now outcome => do
    let c ← s.consumer worker
    match c.phase with
    | .publishing result => return s.complete config sha256Hex c result now outcome
    | _ => none
  | .recordFailure worker random now outcome => do
    let c ← s.consumer worker
    match c.phase with
    | .failing error => return s.recordFailure config c error random now outcome
    | _ => none
  | .crash worker => some (s.leave worker)
  | .cleanup a => (s.store.exec a).map fun store => { s with store := store }

end RoomExports

/-- Nothing requested yet. -/
def RoomExports.empty : RoomExports := ⟨⟨[], []⟩, [], ⟨[], fun _ => none, [], [], []⟩, [], [], []⟩

/-- Runs of the exports. -/
def exports (config : ReportsConfig) (sha256Hex : Buffer → String) : Machine RoomExports ExportAction where
  init s := s = .empty
  exec := RoomExports.exec config sha256Hex

end HotelBackend.Reports
