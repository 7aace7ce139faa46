import HotelBackend.Theory.Tallies

/-!
# Scheduled runs

`scheduled_runs` has a row for a window of a task that some replica has claimed. Times
are microseconds of the database clock.
-/

namespace HotelBackend.Retention

open HotelBackend.Theory

/-- The tasks, in the order in which a run takes them. -/
inductive RetentionTaskName where
  | authSessions
  | idempotencyKeys
  | storageTasks
  | notificationEvents
  | exportResults
  | bookingLifecycleEvents
  deriving DecidableEq, Repr

inductive RetentionErrorCode where
  | taskFailed
  | statementTimeout
  | storageUnavailable
  | claimLost
  | runAbandoned
  | budgetSpent
  | storageIncomplete
  | shutdown
  | stopped
  deriving DecidableEq, Repr

/-- The codes of a run that stopped, as opposed to one that went wrong. -/
def retentionContinuationCodes : List RetentionErrorCode := [.budgetSpent, .storageIncomplete, .shutdown]

inductive ScheduledRunStatus where
  | claimed
  | succeeded
  | failed
  deriving DecidableEq, Repr

/-- The rows removed, for each table. -/
abbrev DeletedCounts := Tally String

/-- A row of `scheduled_runs`. -/
structure ScheduledRun where
  id : String
  taskName : RetentionTaskName
  /-- When the local day began: the window. -/
  scheduledFor : ℕ
  status : ScheduledRunStatus
  lockedBy : Option String
  lockExpiresAt : Option ℕ
  attempts : ℕ
  startedAt : ℕ
  finishedAt : Option ℕ
  deletedCounts : Option DeletedCounts
  progressedAt : Option ℕ
  lastErrorCode : Option RetentionErrorCode
  deriving DecidableEq

namespace ScheduledRun

/-- `uq_scheduled_runs_window` -/
def window (r : ScheduledRun) : RetentionTaskName × ℕ := (r.taskName, r.scheduledFor)

/-- `lock_expires_at <= NOW(6)`, which a null does not meet. -/
def expired (now : ℕ) (r : ScheduledRun) : Bool := r.lockExpiresAt.any (· ≤ now)

/-- `lock_expires_at > NOW(6)`, which a null does not meet. -/
def live (now : ℕ) (r : ScheduledRun) : Bool := r.lockExpiresAt.any (now < ·)

/-- The number of rows the window has removed from a table. -/
def removed (r : ScheduledRun) (table : String) : ℕ := (r.deletedCounts.getD ∅).count table

/-- `chk_scheduled_runs_lock_shape` -/
def lockShape (r : ScheduledRun) : Bool := r.lockedBy.isSome = r.lockExpiresAt.isSome

/-- `chk_scheduled_runs_state_shape` -/
def stateShape (r : ScheduledRun) : Bool :=
  match r.status with
  | .claimed => r.lockedBy.isSome && r.finishedAt.isNone
  | .succeeded => r.lockedBy.isNone && r.finishedAt.isSome
  | .failed => r.lockedBy.isNone && r.finishedAt.isSome && r.lastErrorCode.isSome

/-- `chk_scheduled_runs_finished_after_started` -/
def finishedAfterStarted (r : ScheduledRun) : Bool := r.finishedAt.all (r.startedAt ≤ ·)

/-- The largest value of a `TINYINT UNSIGNED` column. -/
def maxTinyint : ℕ := 255

/-- What the table accepts. -/
def checks (r : ScheduledRun) : Bool :=
  r.lockShape && r.stateShape && r.finishedAfterStarted && r.attempts ≤ maxTinyint

end ScheduledRun

/-! ### What is added up -/

/-- `/^[a-z_]+$/` -/
def isUsableKey (table : String) : Bool := table.toList ≠ [] && table.toList.all fun c => ('a' ≤ c && c ≤ 'z') || c = '_'

/-- `deleted_counts` with the counts added; a key that does not fit a JSON path is an error. -/
def accumulateCounts (counts : DeletedCounts) (deletedCounts : Option DeletedCounts) : Option (Option DeletedCounts) :=
  if counts.keys.all isUsableKey then
    some (if counts.keys = [] then deletedCounts else some ((deletedCounts.getD ∅).merge counts))
  else none

/-- `progressed_at` is stamped by a write that removed something. -/
def progressedAtExpression (counts : DeletedCounts) (now : ℕ) (progressedAt : Option ℕ) : Option ℕ :=
  if counts.anyPositive then some now else progressedAt

/-- The counts of the write are added to those of the window. -/
theorem count_accumulateCounts {counts : DeletedCounts} {deletedCounts deletedCounts' : Option DeletedCounts}
    (h : accumulateCounts counts deletedCounts = some deletedCounts') (table : String) :
    (deletedCounts'.getD ∅).count table = (deletedCounts.getD ∅).count table + counts.count table := by
  unfold accumulateCounts at h
  split at h
  case isFalse => cases h
  obtain rfl := Option.some.inj h
  split
  case isFalse => exact Tally.count_merge _ _ _
  case isTrue hnone =>
    have hzero : counts.count table = 0 := Tally.count_of_notMem (hnone ▸ List.not_mem_nil)
    rw [hzero, Nat.add_zero]

end HotelBackend.Retention
