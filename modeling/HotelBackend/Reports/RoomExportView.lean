import HotelBackend.Reports.Agreement

/-!
# What a requester is told about an export

The projected row and the database's clock come from one query; the driver turns both
into whole milliseconds. `hasExpired` cuts the life of a result one signable second
before its end, so that a lifetime rounded down to whole seconds is never zero and never
outlives the result. The view, the download check and the lifetime read one boundary, and
a result that has crossed it does not come back, whatever the workers do next.
-/

namespace HotelBackend.Reports

open HotelBackend.Common
open HotelBackend.Theory
open HotelBackend.Files

/-! ### The constraints of the table -/

/-- The result columns are all null. -/
structure ExportJob.NoResult (j : ExportJob) : Prop where
  objectKey : j.objectKey = none
  rowCount : j.rowCount = none
  fileSizeBytes : j.fileSizeBytes = none
  contentSha256 : j.contentSha256 = none
  completedAt : j.completedAt = none
  expiresAt : j.expiresAt = none

/-- `chk_export_jobs_state_shape`. -/
def ExportJob.StateShape (j : ExportJob) : Prop :=
  match j.status with
  | .queued | .processing => j.NoResult ∧ j.failedAt = none
  | .completed => j.HasResult ∧ j.startedAt.isSome = true ∧ j.failedAt = none ∧ j.lastErrorCode = none
  | .failed => j.NoResult ∧ j.failedAt.isSome = true ∧ j.lastErrorCode.isSome = true

/-- The check constraints of `export_jobs`. -/
structure ExportJob.Checks (j : ExportJob) : Prop where
  stateShape : j.StateShape
  startedBeforeCompleted : ∀ started ∈ j.startedAt, ∀ completed ∈ j.completedAt, started ≤ completed
  rowCount : ∀ n ∈ j.rowCount, n ≤ 9007199254740991
  fileSizeBytes : ∀ n ∈ j.fileSizeBytes, n ≤ 9007199254740991

/-- A completed row holds its result. -/
theorem ExportJob.Checks.hasResult {j : ExportJob} (h : j.Checks) (hs : j.status = .completed) : j.HasResult := by
  have hshape := h.stateShape
  simp only [StateShape, hs] at hshape
  exact hshape.1

/-! ### The projected row -/

/-- The projected job row, and the database's clock from the same query. Times are the milliseconds
of a `Date`; `createdAt`, which is only copied, is left out. -/
structure RoomExportJobView where
  id : String
  status : ExportJobStatus
  filters : Json
  objectKey : Option String
  rowCount : Option ℕ
  fileSizeBytes : Option ℕ
  lastErrorCode : Option String
  startedAt : Option ℤ
  completedAt : Option ℤ
  expiresAt : Option ℤ
  databaseNow : ℤ

/-- A `DATETIME(6)` as the driver reads it: the microseconds below a millisecond are dropped. -/
def toDate (microseconds : ℕ) : ℤ := (microseconds / 1000 : ℕ)

/-- The columns `findOwned` selects. -/
def ExportJob.project (j : ExportJob) (now : ℕ) : RoomExportJobView where
  id := j.id
  status := j.status
  filters := j.filters
  objectKey := j.objectKey
  rowCount := j.rowCount
  fileSizeBytes := j.fileSizeBytes
  lastErrorCode := j.lastErrorCode
  startedAt := j.startedAt.map toDate
  completedAt := j.completedAt.map toDate
  expiresAt := j.expiresAt.map toDate
  databaseNow := toDate now

/-- `findOwned`: the owner is part of the statement. -/
def findOwned (jobs : List ExportJob) (jobId : String) (requestedBy now : ℕ) : Option RoomExportJobView :=
  (jobs.find? fun j => j.id = jobId && j.requestedBy = requestedBy).map (·.project now)

theorem toDate_mono {t u : ℕ} (h : t ≤ u) : toDate t ≤ toDate u := by
  have hdiv : t / 1000 ≤ u / 1000 := Nat.div_le_div_right h
  simp only [toDate]
  omega

/-- A date is not after what it was read from. -/
theorem toDate_mul_le (t : ℕ) : toDate t * 1000 ≤ t := by
  simp only [toDate]
  omega

/-! ### The policy -/

/-- What a requester sees. -/
inductive RoomExportViewStatus where
  | queued
  | processing
  | completed
  | failed
  | expired
  deriving DecidableEq, Repr

/-- The shortest lifetime an object store will sign. -/
def minimumSignableSeconds : ℤ := 1

def hasExpired (job : RoomExportJobView) : Bool :=
  match job.expiresAt with
  | none => false
  | some expiresAt => expiresAt - job.databaseNow < minimumSignableSeconds * 1000

/-- `EXPIRED` is decided here; the other stored statuses keep their names. -/
def toViewStatus (job : RoomExportJobView) : RoomExportViewStatus :=
  match job.status with
  | .queued => .queued
  | .processing => .processing
  | .failed => .failed
  | .completed => if hasExpired job then .expired else .completed

def isDownloadable (job : RoomExportJobView) : Bool :=
  job.status = .completed && job.objectKey.isSome && job.expiresAt.isSome && !hasExpired job

/-- `RoomExportJobView & { objectKey: string; expiresAt: Date }`. -/
structure DownloadableView where
  job : RoomExportJobView
  objectKey : String
  expiresAt : ℤ
  objectKey_eq : job.objectKey = some objectKey
  expiresAt_eq : job.expiresAt = some expiresAt

theorem isDownloadable_iff {job : RoomExportJobView} : isDownloadable job = true ↔
    job.status = .completed ∧ job.objectKey.isSome = true ∧ job.expiresAt.isSome = true ∧ hasExpired job = false := by
  simp [isDownloadable, and_assoc]

/-- What `isDownloadable` narrows a job to. -/
def RoomExportJobView.narrow (job : RoomExportJobView) (h : isDownloadable job = true) : DownloadableView where
  job := job
  objectKey := job.objectKey.get (isDownloadable_iff.1 h).2.1
  expiresAt := job.expiresAt.get (isDownloadable_iff.1 h).2.2.1
  objectKey_eq := (Option.some_get _).symm
  expiresAt_eq := (Option.some_get _).symm

structure RoomExportDownloadTtl where
  /-- Never longer than what remains of the result's life. -/
  seconds : ℤ
  expiresAt : ℤ
  deriving DecidableEq

/-- `/` on integers rounds down here, as `Math.floor` does. -/
def downloadTtl (job : DownloadableView) (configuredTtlSeconds : ℕ) : RoomExportDownloadTtl :=
  let remainingMs := job.expiresAt - job.job.databaseNow
  let remainingSeconds := remainingMs / 1000
  let seconds := min (configuredTtlSeconds : ℤ) remainingSeconds
  ⟨seconds, job.job.databaseNow + seconds * 1000⟩

/-! ### What it answers -/

section Policy

variable {job : RoomExportJobView}

/-- The other side of the boundary: a signable second is left. -/
theorem hasExpired_eq_false_iff : hasExpired job = false ↔ ∀ expiresAt ∈ job.expiresAt, 1000 ≤ expiresAt - job.databaseNow := by
  cases h : job.expiresAt with
  | none => simp [hasExpired, h]
  | some expiresAt => simp [hasExpired, h, minimumSignableSeconds]

/-- The view and the download check cut a row that holds its result at one instant. -/
theorem toViewStatus_eq_completed_iff (hkey : job.status = .completed → job.objectKey.isSome = true)
    (hexpiry : job.status = .completed → job.expiresAt.isSome = true) :
    toViewStatus job = .completed ↔ isDownloadable job = true := by
  rw [isDownloadable_iff]
  cases hs : job.status with
  | queued | processing | failed => simp [toViewStatus, hs]
  | completed => simp [toViewStatus, hs, hkey hs, hexpiry hs]

/-- The lifetime is at least a second, at most the configured one, and ends with the result at the latest. -/
theorem downloadTtl_spec (h : isDownloadable job = true) {configuredTtlSeconds : ℕ} (hpos : 1 ≤ configuredTtlSeconds) :
    1 ≤ (downloadTtl (job.narrow h) configuredTtlSeconds).seconds ∧
      (downloadTtl (job.narrow h) configuredTtlSeconds).seconds ≤ configuredTtlSeconds ∧
      (downloadTtl (job.narrow h) configuredTtlSeconds).expiresAt ≤ (job.narrow h).expiresAt := by
  have hleft : 1000 ≤ (job.narrow h).expiresAt - job.databaseNow :=
    hasExpired_eq_false_iff.1 (isDownloadable_iff.1 h).2.2.2 _ (job.narrow h).expiresAt_eq
  have hjob : (job.narrow h).job = job := rfl
  simp only [downloadTtl, hjob]
  omega

/-- The row of a completed job at a later time. -/
structure RoomExportJobView.Later (job later : RoomExportJobView) : Prop where
  expiresAt : later.expiresAt = job.expiresAt
  objectKey : later.objectKey = job.objectKey
  status : later.status = job.status
  databaseNow : job.databaseNow ≤ later.databaseNow

/-- What is downloadable later is downloadable now. -/
theorem RoomExportJobView.Later.isDownloadable {later : RoomExportJobView} (h : job.Later later) (hd : isDownloadable later = true) :
    Reports.isDownloadable job = true := by
  rw [isDownloadable_iff, h.status, h.objectKey, h.expiresAt, hasExpired_eq_false_iff] at hd
  rw [isDownloadable_iff, hasExpired_eq_false_iff]
  refine ⟨hd.1, hd.2.1, hd.2.2.1, fun expiresAt he => ?_⟩
  have hleft := hd.2.2.2 expiresAt (h.expiresAt ▸ he)
  have hnow := h.databaseNow
  omega

end Policy

/-! ### The answer -/

structure ExportJobDownloadDto where
  url : String
  expiresAt : ℤ

structure ExportJobResponseDto where
  id : String
  status : RoomExportViewStatus
  filters : Json
  startedAt : Option ℤ
  completedAt : Option ℤ
  expiresAt : Option ℤ
  rowCount : Option ℕ
  fileSizeBytes : Option ℕ
  errorCode : Option String
  download : Option ExportJobDownloadDto

/-- A field is added where the state justifies it; the object key is in none of them. -/
def toExportJobResponse (job : RoomExportJobView) (download : Option ExportJobDownloadDto) : ExportJobResponseDto :=
  let status := toViewStatus job
  let response : ExportJobResponseDto :=
    { id := job.id, status := status, filters := job.filters, startedAt := job.startedAt, completedAt := none, expiresAt := none,
      rowCount := none, fileSizeBytes := none, errorCode := none, download := none }
  if status = .failed then { response with errorCode := job.lastErrorCode.filter (· ≠ "") }
  else
    let response :=
      if status = .completed ∨ status = .expired then
        { response with completedAt := job.completedAt, expiresAt := job.expiresAt, rowCount := job.rowCount,
                        fileSizeBytes := job.fileSizeBytes }
      else response
    { response with download := download }

/-- `roomExportErrors.notFound`. -/
def exportNotFound : RoomExportError := .application "EXPORT_NOT_FOUND"

/-- `getOwned`; `createDownloadUrl` is the storage service, given the object key, the job and the lifetime. -/
def getOwned (createDownloadUrl : String → String → ℤ → Except RoomExportError String) (presignTtlSeconds : ℕ) (jobs : List ExportJob)
    (jobId : String) (requestedBy now : ℕ) : Except RoomExportError ExportJobResponseDto := do
  let job ← Result.orThrow (findOwned jobs jobId requestedBy now) exportNotFound
  if h : isDownloadable job = true then
    let ttl := downloadTtl (job.narrow h) presignTtlSeconds
    let url ← createDownloadUrl (job.narrow h).objectKey job.id ttl.seconds
    return toExportJobResponse job (some ⟨url, ttl.expiresAt⟩)
  else return toExportJobResponse job none

theorem toExportJobResponse_status (job : RoomExportJobView) (download : Option ExportJobDownloadDto) :
    (toExportJobResponse job download).status = toViewStatus job := by
  simp only [toExportJobResponse]
  split
  · rfl
  · split <;> rfl

/-- A job that has failed answers without a download, any other with the one it was given. -/
theorem toExportJobResponse_download {job : RoomExportJobView} (h : toViewStatus job ≠ .failed) (download : Option ExportJobDownloadDto) :
    (toExportJobResponse job download).download = download := by
  simp [toExportJobResponse, h]

/-- An answer carries a URL exactly when it says the job is completed. -/
theorem getOwned_download {createDownloadUrl : String → String → ℤ → Except RoomExportError String} {presignTtlSeconds : ℕ}
    {jobs : List ExportJob} {jobId : String} {requestedBy now : ℕ} {response : ExportJobResponseDto} (hjobs : ∀ j ∈ jobs, j.Checks)
    (h : getOwned createDownloadUrl presignTtlSeconds jobs jobId requestedBy now = .ok response) :
    response.download.isSome = true ↔ response.status = .completed := by
  obtain ⟨view, hview, h⟩ := Result.bind_eq_ok.1 h
  obtain ⟨j, hj, rfl⟩ := Option.map_eq_some_iff.1 (Result.orThrow_eq_ok.1 hview)
  have hresult := (hjobs j (List.mem_of_find?_eq_some hj)).hasResult
  have hiff : toViewStatus (j.project now) = .completed ↔ isDownloadable (j.project now) = true :=
    toViewStatus_eq_completed_iff (fun hs => (hresult hs).objectKey)
      fun hs => by simpa [ExportJob.project] using (hresult hs).expiresAt
  split at h
  case isTrue hd =>
    obtain ⟨url, -, h⟩ := Result.bind_eq_ok.1 h
    have hcompleted := hiff.2 hd
    rw [← Result.pure_eq_ok.1 h, toExportJobResponse_status, toExportJobResponse_download (by simp [hcompleted])]
    simp [hcompleted]
  case isFalse hd =>
    have hcompleted : toViewStatus (j.project now) ≠ .completed := fun hc => hd (hiff.1 hc)
    rw [← Result.pure_eq_ok.1 h, toExportJobResponse_status]
    by_cases hf : toViewStatus (j.project now) = .failed
    · simp [toExportJobResponse, hf]
    · simp [toExportJobResponse_download hf, hcompleted]

/-! ### The download window -/

/-- The window of a row at a time of the database: the view, the lifetime, and that it closes once. -/
structure DownloadWindow (job : ExportJob) (configuredTtlSeconds now : ℕ) : Prop where
  shown : toViewStatus (job.project now) = .completed ↔ isDownloadable (job.project now) = true
  lifetime : ∀ h : isDownloadable (job.project now) = true,
    1 ≤ (downloadTtl ((job.project now).narrow h) configuredTtlSeconds).seconds ∧
      (downloadTtl ((job.project now).narrow h) configuredTtlSeconds).seconds ≤ configuredTtlSeconds
  /-- In milliseconds, as the `Date`s are compared. -/
  expiry : ∀ h : isDownloadable (job.project now) = true,
    (downloadTtl ((job.project now).narrow h) configuredTtlSeconds).expiresAt =
      toDate now + (downloadTtl ((job.project now).narrow h) configuredTtlSeconds).seconds * 1000
  /-- In microseconds, as the column is stored. -/
  notAfter : ∀ h : isDownloadable (job.project now) = true, ∀ expiresAt ∈ job.expiresAt,
    (downloadTtl ((job.project now).narrow h) configuredTtlSeconds).expiresAt * 1000 ≤ expiresAt
  lapsed : job.status = .completed → isDownloadable (job.project now) = false →
    ∀ later, now ≤ later → isDownloadable (job.project later) = false
  /-- Nor do the workers bring it back: it is the row the table still holds. -/
  stays : ∀ config sha256Hex s, (exports config sha256Hex).Reachable (fun _ _ => True) s → job ∈ s.jobs → job.status = .completed →
    isDownloadable (job.project now) = false → ∀ as s', (exports config sha256Hex).run s as = some s' →
      ∀ k ∈ s'.jobs, k.id = job.id → ∀ later, now ≤ later → isDownloadable (k.project later) = false

/-- The same row, read later. -/
theorem ExportJob.project_later (job : ExportJob) {now later : ℕ} (h : now ≤ later) : (job.project now).Later (job.project later) where
  expiresAt := rfl
  objectKey := rfl
  status := rfl
  databaseNow := toDate_mono h

/-- A result that has lapsed does not come back. -/
theorem ExportJob.lapsed (job : ExportJob) {now later : ℕ} (h : now ≤ later) (hd : isDownloadable (job.project now) = false) :
    isDownloadable (job.project later) = false := by
  by_contra hlater
  have hnow := (job.project_later h).isDownloadable (Bool.eq_true_of_not_eq_false hlater)
  exact Bool.false_ne_true (hd.symm.trans hnow)

/-- The row of a completed job is the one a run still holds under its id. -/
theorem RoomExports.Agreed.completed_run {config : ReportsConfig} {sha256Hex : Buffer → String} {s s' : RoomExports} {as : List ExportAction}
    (hi : s.Agreed) (hr : (exports config sha256Hex).run s as = some s') {job k : ExportJob} (hj : job ∈ s.jobs)
    (hs : job.status = .completed) (hk : k ∈ s'.jobs) (hid : k.id = job.id) : k = job := by
  obtain ⟨hi', hj'⟩ := Machine.run_induction (M := exports config sha256Hex) (P := fun _ _ => True)
    (I := fun s => s.Agreed ∧ job ∈ s.jobs) (fun s a s' hi _ he => ⟨hi.1.step he, hi.1.completed_step he hi.2 hs⟩)
    (fun _ _ _ => trivial) ⟨hi, hj⟩ hr
  exact hi'.ids k hk job hj' hid

/-- **The view, the download check and the lifetime cut at one instant**, for every row the table accepts. -/
theorem download_window (job : ExportJob) (hjob : job.Checks) (configuredTtlSeconds now : ℕ) (hpos : 1 ≤ configuredTtlSeconds) :
    DownloadWindow job configuredTtlSeconds now := by
  refine ⟨?_, fun h => ?_, fun h => rfl, fun h expiresAt he => ?_, fun hs hd later hlater => job.lapsed hlater hd, ?_⟩
  · apply toViewStatus_eq_completed_iff
    · exact fun hs => (hjob.hasResult hs).objectKey
    · intro hs
      have hexpiry := (hjob.hasResult hs).expiresAt
      simpa [ExportJob.project] using hexpiry
  · obtain ⟨hone, httl, -⟩ := downloadTtl_spec h hpos
    exact ⟨hone, httl⟩
  · obtain ⟨-, -, hexpiry⟩ := downloadTtl_spec h hpos
    have hdate : ((job.project now).narrow h).expiresAt = toDate expiresAt := by
      have heq := ((job.project now).narrow h).expiresAt_eq
      have hjob : ((job.project now).narrow h).job.expiresAt = job.expiresAt.map toDate := rfl
      rw [hjob, Option.mem_def.1 he] at heq
      exact (Option.some.inj heq).symm
    have hstored := toDate_mul_le expiresAt
    omega
  · intro config sha256Hex s hreach hj hs hd as s' hr k hk hid later hlater
    rw [(RoomExports.agreed_of_reachable hreach).completed_run hr hj hs hk hid]
    exact job.lapsed hlater hd

/-- A workbook that lapses a day after its completion. -/
def lapsingExport : ExportJob where
  id := "job"
  requestedBy := 1
  outboxEventId := "event"
  status := .completed
  filters := .obj []
  objectKey := some "exports/rooms/job/token.xlsx"
  rowCount := some 23
  fileSizeBytes := some 18462
  contentSha256 := some "fcab7fcc2b4cffd9bb45003bfc2e468a04ef6f77ca8200a7341f027631584d25"
  startedAt := some 1000000
  completedAt := some 4000000
  expiresAt := some 86404000000
  failedAt := none
  lastErrorCode := none

theorem lapsingExport_checks : lapsingExport.Checks where
  stateShape := ⟨⟨rfl, rfl, rfl, rfl, rfl, rfl⟩, rfl, rfl, rfl⟩
  startedBeforeCompleted := by simp [lapsingExport]
  rowCount := by simp [lapsingExport]
  fileSizeBytes := by simp [lapsingExport]

/-- A second and a microsecond before its end it is handed out; within its last second no more. -/
theorem download_window_lapsingExport :
    isDownloadable (lapsingExport.project 86402999999) = true ∧ isDownloadable (lapsingExport.project 86403001000) = false ∧
      DownloadWindow lapsingExport 300 86402999999 ∧ DownloadWindow lapsingExport 300 86403001000 :=
  ⟨by decide, by decide, download_window _ lapsingExport_checks _ _ (by decide), download_window _ lapsingExport_checks _ _ (by decide)⟩

end HotelBackend.Reports
