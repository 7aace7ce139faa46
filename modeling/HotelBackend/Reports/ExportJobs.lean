import HotelBackend.Theory.Results
import HotelBackend.Files.Attachments
import HotelBackend.Outbox.Statements

/-!
# Room export jobs

The job table, the statements an attempt runs on its event and its job
(`ExportJobRepository`, `RoomExportAttemptRepository`), the result a worker thread posts,
and how a failure is classified. A function here is what the code does inside one
transaction: it answers with the tables to commit, or with the error that rolls it back.
-/

namespace HotelBackend.Reports

open HotelBackend.Common
open HotelBackend.Theory
open HotelBackend.Outbox
open HotelBackend.Files

/-! ### The table -/

/-- The durable lifecycle of one export job. -/
inductive ExportJobStatus where
  | queued
  | processing
  | completed
  | failed
  deriving DecidableEq, Repr

/-- A row of `export_jobs`. Times are microseconds. -/
structure ExportJob where
  id : String
  requestedBy : ℕ
  outboxEventId : String
  status : ExportJobStatus
  filters : Json
  objectKey : Option String
  rowCount : Option ℕ
  fileSizeBytes : Option ℕ
  contentSha256 : Option String
  startedAt : Option ℕ
  completedAt : Option ℕ
  expiresAt : Option ℕ
  failedAt : Option ℕ
  lastErrorCode : Option String

/-- A job as `ExportJobRepository.create` inserts it. -/
def ExportJob.queued (id : String) (requestedBy : ℕ) (outboxEventId : String) (filters : Json) : ExportJob where
  id := id
  requestedBy := requestedBy
  outboxEventId := outboxEventId
  status := .queued
  filters := filters
  objectKey := none
  rowCount := none
  fileSizeBytes := none
  contentSha256 := none
  startedAt := none
  completedAt := none
  expiresAt := none
  failedAt := none
  lastErrorCode := none

def roomExportEventType : String := "room-export.requested"

/-- The payload of the event of a job. -/
def roomExportPayload (jobId : String) : Json := .obj [("schemaVersion", .num 1), ("jobId", .str jobId)]

/-- One event for each job. -/
def roomExportIdempotencyKey (jobId : String) : String := s!"{roomExportEventType}:{jobId}"

/-- `stagingObjectKey`: one key for each attempt, never for a job. -/
def stagingObjectKey (jobId claimToken : String) : String := s!"exports/rooms/{jobId}/{claimToken}.xlsx"

/-! ### Failures -/

/-- What a thread, or its parent, may say went wrong. -/
inductive RoomExportWorkerErrorCode where
  | versionUnsupported
  | protocolInvalid
  | resourceLimitMismatch
  | rowLimitExceeded
  | snapshotTooLarge
  | timedOut
  | outOfMemory
  | exited
  | outputTooLarge
  | generationFailed
  deriving DecidableEq, Repr

def RoomExportWorkerErrorCode.text : RoomExportWorkerErrorCode → String
  | versionUnsupported => "EXPORT_WORKER_PROTOCOL_VERSION"
  | protocolInvalid => "EXPORT_WORKER_PROTOCOL_INVALID"
  | resourceLimitMismatch => "EXPORT_WORKER_RESOURCE_LIMIT_MISMATCH"
  | rowLimitExceeded => "EXPORT_ROW_LIMIT_EXCEEDED"
  | snapshotTooLarge => "EXPORT_SNAPSHOT_TOO_LARGE"
  | timedOut => "EXPORT_WORKER_TIMEOUT"
  | outOfMemory => "EXPORT_WORKER_OUT_OF_MEMORY"
  | exited => "EXPORT_WORKER_EXITED"
  | outputTooLarge => "EXPORT_OUTPUT_TOO_LARGE"
  | generationFailed => "EXPORT_GENERATION_FAILED"

/-- What an attempt may throw. -/
inductive RoomExportError where
  /-- `RoomExportProtocolError`. -/
  | protocol (code : RoomExportWorkerErrorCode) (message : String)
  /-- `ApplicationException`. -/
  | application (errorCode : String)
  /-- `RoomExportJobStateError`. -/
  | jobState (message : String)
  /-- Anything else: a query that failed, a lost connection. -/
  | unknown
  deriving DecidableEq, Repr

/-- `roomExportErrors.storageUnavailable`. -/
def storageUnavailable : RoomExportError := .application "EXPORT_STORAGE_UNAVAILABLE"

/-- The codes that will never succeed on a second attempt. -/
def permanentCodes : List String :=
  ["EXPORT_ROW_LIMIT_EXCEEDED", "EXPORT_SNAPSHOT_TOO_LARGE", RoomExportWorkerErrorCode.rowLimitExceeded.text,
   RoomExportWorkerErrorCode.snapshotTooLarge.text, RoomExportWorkerErrorCode.protocolInvalid.text,
   RoomExportWorkerErrorCode.resourceLimitMismatch.text, RoomExportWorkerErrorCode.outputTooLarge.text]

/-- Everything the classifier does not recognise. -/
def unknownFailureCode : String := "EXPORT_ATTEMPT_FAILED"

def codeOf : RoomExportError → String
  | .protocol code _ => code.text
  | .application errorCode => errorCode
  | .jobState _ | .unknown => unknownFailureCode

structure RoomExportFailure where
  errorCode : String
  retryable : Bool

/-- `classifyRoomExportFailure`. -/
def classifyRoomExportFailure (error : RoomExportError) : RoomExportFailure where
  errorCode := codeOf error
  retryable := codeOf error ∉ permanentCodes

/-- The exponent is clamped only to keep the shift finite. -/
def maximumExponent : ℕ := 30

/-- `roomExportBackoffMs`, `random` the factor drawn from `[0, 1)`. -/
def roomExportBackoffMs (attempt initialMs maxMs : ℕ) (random : ℚ) : ℕ :=
  let base := min (initialMs * 2 ^ min (attempt - 1) maximumExponent) maxMs
  min (base + (random * base * (1 / 5)).floor.toNat) maxMs

/-! ### The result of a generation -/

/-- A result for the attempt that waits for it. -/
structure RoomExportGeneratedResult where
  file : Buffer
  byteLength : ℕ
  rowCount : ℕ
  /-- The declared length is the file's. -/
  byteLength_eq : byteLength = file.length
  deriving DecidableEq

/-- What the attempt waits for. -/
structure RoomExportResultExpectation where
  jobId : String
  attempt : ℕ
  maxFileBytes : ℕ
  rowCount : ℕ

/-- How a generation ends: a workbook the thread posts, or an error (a message that cannot be read,
a failure it reports, a timeout, an exit). -/
inductive Generation where
  | generated (jobId : String) (attempt : ℕ) (file : Buffer) (byteLength rowCount : ℕ)
  | error (e : RoomExportError)

def invalid (message : String) : RoomExportError := .protocol .protocolInvalid message

/-- `acceptGenerated`, with `parseGeneratedResult`. -/
def acceptGenerated (expectation : RoomExportResultExpectation) :
    Generation → Except RoomExportError RoomExportGeneratedResult
  | .error e => .error e
  | .generated jobId attempt file byteLength rowCount => do
    Result.require (jobId = expectation.jobId && attempt = expectation.attempt)
      (invalid "result belongs to another job or attempt")
    Result.require (rowCount = expectation.rowCount)
      (invalid s!"result.rowCount must be {expectation.rowCount}, received {rowCount}")
    if h : byteLength = file.length then
      Result.require (byteLength ≤ expectation.maxFileBytes) (.protocol .outputTooLarge
        s!"result.byteLength {byteLength} exceeds the limit of {expectation.maxFileBytes}")
      return ⟨file, byteLength, rowCount, h⟩
    else .error (invalid "result.byteLength must match result.file")

/-! ### The statements of an attempt -/

/-- The tables an attempt writes. -/
structure ReportsTables where
  events : List OutboxEvent
  jobs : List ExportJob
  tasks : List StorageCleanupTask

structure RoomExportAttemptClaim where
  jobId : String
  filters : Json

/-- `payload.jobId`, if it is a string. -/
def payloadJobId : Json → Option String
  | .obj fields =>
    match fields.find? (·.1 = "jobId") with
    | some (_, .str jobId) => some jobId
    | _ => none
  | _ => none

/-- What `claim` does to the job. -/
def ExportJob.start (now : ℕ) (job : ExportJob) : ExportJob :=
  { job with status := .processing, startedAt := job.startedAt <|> some now, lastErrorCode := none }

/-- `claim`: the event is read first, then the job, and both while the lease lives. -/
def claim (db : ReportsTables) (data : ClaimKey) (now : ℕ) : Option (ReportsTables × RoomExportAttemptClaim) := do
  let event ← db.events.find? fun e => e.eventType = roomExportEventType && data.holds e && e.lockExpiresAt.any (now < ·)
  let jobId ← payloadJobId event.payload
  let job ← db.jobs.find? fun j => j.id = jobId && j.outboxEventId = data.id && (j.status = .queued || j.status = .processing)
  return ({ db with jobs := Table.update db.jobs (·.id = jobId) (.start now) }, ⟨jobId, job.filters⟩)

/-- `finishEvent`, then `moveJob`: whether the claim was held, or the error that rolls both back. -/
def finishAttempt (db : ReportsTables) (event : Update) (jobId : String) (set : ExportJob → ExportJob) :
    Except RoomExportError (ReportsTables × Bool) :=
  if event.hits db.events then
    if db.jobs.any fun j => j.id = jobId && j.status = .processing then
      .ok ({ db with events := event.run db.events,
                     jobs := Table.update db.jobs (fun j => j.id = jobId && j.status = .processing) set }, true)
    else .error (.jobState s!"export job {jobId} was not PROCESSING when its outbox event finished")
  else .ok (db, false)

structure RoomExportCompletion where
  data : ClaimKey
  jobId : String
  objectKey : String
  rowCount : ℕ
  fileSizeBytes : ℕ
  contentSha256 : String
  resultTtlHours : ℕ

/-- What `complete` does to the job. -/
def RoomExportCompletion.publish (input : RoomExportCompletion) (now : ℕ) (job : ExportJob) : ExportJob :=
  { job with status := .completed, objectKey := some input.objectKey, rowCount := some input.rowCount,
             fileSizeBytes := some input.fileSizeBytes, contentSha256 := some input.contentSha256,
             completedAt := some now, expiresAt := some (now + input.resultTtlHours * 3600000000),
             failedAt := none, lastErrorCode := none }

/-- `complete`: the event, the job, and last the safeguard. -/
def complete (db : ReportsTables) (input : RoomExportCompletion) (now : ℕ) : Except RoomExportError (ReportsTables × Bool) := do
  let (db, held) ← finishAttempt db (RoomExportAttempt.complete input.data now) input.jobId (input.publish now)
  return (if held then { db with tasks := deleteByKey db.tasks input.objectKey .uploadSafeguard } else db, held)

/-- `retry`. -/
def retry (db : ReportsTables) (data : ClaimKey) (jobId : String) (retryInMs : ℕ) (errorCode : String) (now : ℕ) :
    Except RoomExportError (ReportsTables × Bool) :=
  finishAttempt db (RoomExportAttempt.retry data retryInMs errorCode now) jobId fun j =>
    { j with status := .queued, lastErrorCode := some errorCode }

/-- `fail`. -/
def fail (db : ReportsTables) (data : ClaimKey) (jobId errorCode : String) (now : ℕ) :
    Except RoomExportError (ReportsTables × Bool) :=
  finishAttempt db (RoomExportAttempt.fail data errorCode now) jobId fun j =>
    { j with status := .failed, failedAt := some now, lastErrorCode := some errorCode }

/-! ### What they do -/

section Statements

variable {db db' : ReportsTables} {data : ClaimKey} {now : ℕ}

/-- What `claim` finds, and what it commits. -/
theorem claim_eq_some {c : RoomExportAttemptClaim} (h : claim db data now = some (db', c)) :
    (∃ e ∈ db.events, e.eventType = roomExportEventType ∧ data.holds e = true ∧ payloadJobId e.payload = some c.jobId) ∧
      (∃ j ∈ db.jobs, j.id = c.jobId ∧ j.outboxEventId = data.id ∧ (j.status = .queued ∨ j.status = .processing)) ∧
      db' = { db with jobs := Table.update db.jobs (·.id = c.jobId) (.start now) } := by
  simp only [claim, Option.bind_eq_bind, Option.bind_eq_some_iff, Option.pure_def, Option.some.injEq, Prod.mk.injEq] at h
  obtain ⟨e, he, jobId, hpayload, j, hj, rfl, rfl⟩ := h
  have hevent := List.find?_some he
  have hjob := List.find?_some hj
  simp only [Bool.and_eq_true, Bool.or_eq_true, decide_eq_true_eq] at hevent hjob
  exact ⟨⟨e, List.mem_of_find?_eq_some he, hevent.1.1, hevent.1.2, hpayload⟩,
    ⟨j, List.mem_of_find?_eq_some hj, hjob.1.1, hjob.1.2, hjob.2⟩, rfl⟩

/-- The job moves with the event, or neither does. -/
theorem finishAttempt_eq_ok {event : Update} {jobId : String} {set : ExportJob → ExportJob} {held : Bool}
    (h : finishAttempt db event jobId set = .ok (db', held)) :
    (held = false ∧ db' = db ∧ event.hits db.events = false) ∨
      (held = true ∧ event.hits db.events = true ∧ (∃ j ∈ db.jobs, j.id = jobId ∧ j.status = .processing) ∧
        db' = { db with events := event.run db.events,
                        jobs := Table.update db.jobs (fun j => j.id = jobId && j.status = .processing) set }) := by
  unfold finishAttempt at h
  split at h
  case isTrue hhits =>
    split at h
    case isTrue hjob =>
      simp only [Except.ok.injEq, Prod.mk.injEq] at h
      obtain ⟨rfl, rfl⟩ := h
      obtain ⟨j, hj, hp⟩ := List.any_eq_true.1 hjob
      simp only [Bool.and_eq_true, decide_eq_true_eq] at hp
      exact .inr ⟨rfl, hhits, ⟨j, hj, hp⟩, rfl⟩
    case isFalse => cases h
  case isFalse hhits =>
    simp only [Except.ok.injEq, Prod.mk.injEq] at h
    obtain ⟨rfl, rfl⟩ := h
    exact .inl ⟨rfl, rfl, Bool.eq_false_iff.2 hhits⟩

/-- A completion also takes the safeguard with it. -/
theorem complete_eq_ok {input : RoomExportCompletion} {held : Bool} (h : complete db input now = .ok (db', held)) :
    (held = false ∧ db' = db) ∨
      (held = true ∧ (∃ e ∈ db.events, input.data.holds e = true) ∧ db' =
        { events := (RoomExportAttempt.complete input.data now).run db.events
          jobs := Table.update db.jobs (fun j => j.id = input.jobId && j.status = .processing) (input.publish now)
          tasks := deleteByKey db.tasks input.objectKey .uploadSafeguard }) := by
  obtain ⟨⟨db₁, held₁⟩, hfinish, h⟩ := Result.bind_eq_ok.1 h
  simp only [Result.pure_eq_ok, Prod.mk.injEq] at h
  obtain ⟨rfl, rfl⟩ := h
  rcases finishAttempt_eq_ok hfinish with ⟨rfl, rfl, -⟩ | ⟨rfl, hhits, -, rfl⟩
  · exact .inl ⟨rfl, rfl⟩
  · obtain ⟨e, he, hp⟩ := List.any_eq_true.1 hhits
    simp only [RoomExportAttempt.complete, finishEvent, Bool.and_eq_true] at hp
    exact .inr ⟨rfl, ⟨e, he, hp.2⟩, rfl⟩

/-- A failure moves the job back, or ends it. -/
theorem fail_or_retry_eq_ok {jobId errorCode : String} {retryInMs : ℕ} {terminal held : Bool}
    (h : (if terminal then fail db data jobId errorCode now else retry db data jobId retryInMs errorCode now) = .ok (db', held)) :
    db'.tasks = db.tasks ∧ (db' = db ∨ ∃ set : ExportJob → ExportJob, (∀ j, (set j).id = j.id ∧ (set j).status ≠ .completed) ∧
      db'.jobs = Table.update db.jobs (fun j => j.id = jobId && j.status = .processing) set) := by
  split at h
  all_goals
    rcases finishAttempt_eq_ok h with ⟨-, rfl, -⟩ | ⟨-, -, -, rfl⟩
    · exact ⟨rfl, .inl rfl⟩
    · refine ⟨rfl, .inr ⟨_, ?_, rfl⟩⟩
      exact fun j => ⟨rfl, by simp⟩

end Statements

end HotelBackend.Reports
