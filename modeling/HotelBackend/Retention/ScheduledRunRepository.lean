import HotelBackend.Retention.Entities
import HotelBackend.Theory.Runs
import HotelBackend.Theory.Tables

/-!
# The ledger of scheduled runs

`ScheduledRunRepository`: no statement shares a transaction with another, so a claim is
up to four steps with other replicas between them, and every step is one statement. A
replica may stop anywhere: its call takes no further step. `heard` says whether the
answer of a statement reached the replica.

`maxAttempts` is a constant of the configuration, the same for every replica.
-/

namespace HotelBackend.Retention

open HotelBackend.Theory

structure ScheduledRunClaim where
  id : String
  taskName : RetentionTaskName
  scheduledFor : ℕ
  claimToken : String
  attempt : ℕ
  deriving DecidableEq

def ScheduledRunClaim.window (c : ScheduledRunClaim) : RetentionTaskName × ℕ := (c.taskName, c.scheduledFor)

inductive ScheduledRunClaimRefusal where
  | taken
  | exhausted
  deriving DecidableEq

inductive ScheduledRunClaimResult where
  | claimed (claim : ScheduledRunClaim)
  | refused (reason : ScheduledRunClaimRefusal)
  deriving DecidableEq

structure ScheduledRunFailure where
  errorCode : RetentionErrorCode
  retryable : Bool

def microsecondsPerMillisecond : ℕ := 1000

/-! ### The statements -/

namespace ScheduledRunRepository

/-- The row of a window's first claim. -/
def insertedRun (taskName : RetentionTaskName) (scheduledFor leaseMs : ℕ) (id claimToken : String) (now : ℕ) : ScheduledRun where
  id := id
  taskName := taskName
  scheduledFor := scheduledFor
  status := .claimed
  lockedBy := some claimToken
  lockExpiresAt := some (now + leaseMs * microsecondsPerMillisecond)
  attempts := 1
  startedAt := now
  finishedAt := none
  deletedCounts := none
  progressedAt := none
  lastErrorCode := none

/-- The last attempt stopped with a continuation code and had removed rows. -/
def continued (r : ScheduledRun) : Bool :=
  r.lastErrorCode.any (· ∈ retentionContinuationCodes) && r.progressedAt.any (r.startedAt ≤ ·)

/-- An open row of the window whose lease has run out. -/
def recoverable (window : RetentionTaskName × ℕ) (now : ℕ) (r : ScheduledRun) : Bool :=
  r.window = window && r.status = .claimed && r.expired now

def recoverSet (claimToken : String) (leaseMs now : ℕ) (r : ScheduledRun) : ScheduledRun :=
  { r with
    lockedBy := some claimToken
    lockExpiresAt := some (now + leaseMs * microsecondsPerMillisecond)
    attempts := r.attempts + if continued r then 0 else 1
    lastErrorCode := none
    startedAt := now }

/-- The row is closed `FAILED`. -/
def closeSet (errorCode : RetentionErrorCode) (now : ℕ) (r : ScheduledRun) : ScheduledRun :=
  { r with
    status := .failed
    lockedBy := none
    lockExpiresAt := none
    finishedAt := some now
    lastErrorCode := some errorCode }

/-- The claim is there and its lease is live. -/
def heldBy (claimToken : String) (now : ℕ) (r : ScheduledRun) : Bool :=
  r.lockedBy = some claimToken && r.status = .claimed && r.live now

/-- The counts of the attempt are added to those of the window. -/
def recordCounts (counts : DeletedCounts) (deletedCounts : Option DeletedCounts) (now : ℕ) (r : ScheduledRun) : ScheduledRun :=
  { r with
    deletedCounts := deletedCounts
    progressedAt := progressedAtExpression counts now r.progressedAt }

def completeSet (now : ℕ) (r : ScheduledRun) : ScheduledRun :=
  { r with
    status := .succeeded
    lockedBy := none
    lockExpiresAt := none
    finishedAt := some now }

def handBackSet (errorCode : RetentionErrorCode) (now : ℕ) (r : ScheduledRun) : ScheduledRun :=
  { r with
    lockExpiresAt := some now
    lastErrorCode := some errorCode }

/-- An `UPDATE` and the number of its rows; a row the table does not accept is an error. -/
def update (rows : List ScheduledRun) (p : ScheduledRun → Bool) (f : ScheduledRun → ScheduledRun) :
    Option (List ScheduledRun × ℕ) :=
  if rows.all fun r => !p r || (f r).checks then some (Table.update rows p f, Table.affected rows p) else none

/-- The write of a finished attempt: `close` is the rest of its `SET`. A key that does not fit is an error
before the statement. -/
def record (rows : List ScheduledRun) (claimToken : String) (counts : DeletedCounts) (now : ℕ)
    (close : ScheduledRun → ScheduledRun) : Option (List ScheduledRun × ℕ) :=
  if counts.keys.all isUsableKey then
    update rows (heldBy claimToken now) fun r =>
      close (recordCounts counts ((accumulateCounts counts r.deletedCounts).getD r.deletedCounts) now r)
  else none

def complete (rows : List ScheduledRun) (claim : ScheduledRunClaim) (counts : DeletedCounts) (now : ℕ) :
    Option (List ScheduledRun × ℕ) :=
  record rows claim.claimToken counts now (completeSet now)

/-- A failure that may be retried hands the window back, as long as the budget is not spent. -/
def handsBack (claim : ScheduledRunClaim) (failure : ScheduledRunFailure) (maxAttempts : ℕ) : Bool :=
  failure.retryable && claim.attempt < maxAttempts

def fail (rows : List ScheduledRun) (claim : ScheduledRunClaim) (failure : ScheduledRunFailure) (counts : DeletedCounts)
    (maxAttempts now : ℕ) : Option (List ScheduledRun × ℕ) :=
  record rows claim.claimToken counts now
    (if handsBack claim failure maxAttempts then handBackSet failure.errorCode now else closeSet failure.errorCode now)

def closeAbandonedBefore (rows : List ScheduledRun) (currentWindow now : ℕ) : Option (List ScheduledRun × ℕ) :=
  update rows (fun r => r.status = .claimed && r.scheduledFor < currentWindow && r.expired now) (closeSet .stopped now)

end ScheduledRunRepository

/-! ### The calls -/

/-- Which statement a call to `claim` is at. -/
inductive ClaimPhase where
  | recovering
  | readingBack
  | abandoning
  | refusing
  | returned (result : ScheduledRunClaimResult)
  | threw
  deriving DecidableEq

/-- A call to `claim`. -/
structure ClaimCall where
  replica : ℕ
  taskName : RetentionTaskName
  scheduledFor : ℕ
  leaseMs : ℕ
  claimToken : String
  phase : ClaimPhase
  deriving DecidableEq

def ClaimCall.window (c : ClaimCall) : RetentionTaskName × ℕ := (c.taskName, c.scheduledFor)

namespace ScheduledRunRepository

/-- The next statement of the call. -/
def claimStep (maxAttempts now : ℕ) (rows : List ScheduledRun) (c : ClaimCall) : Option (List ScheduledRun × ClaimPhase) :=
  match c.phase with
  | .recovering =>
    match update rows (fun r => recoverable c.window now r && r.attempts < maxAttempts) (recoverSet c.claimToken c.leaseMs now) with
    | none => some (rows, .threw)
    | some (rows', taken) => some (rows', if 0 < taken then .readingBack else .abandoning)
  | .readingBack =>
    match rows.find? fun r => r.lockedBy = some c.claimToken with
    | none => some (rows, .returned (.refused .taken))
    | some r => some (rows, .returned (.claimed
        { id := r.id, taskName := c.taskName, scheduledFor := c.scheduledFor, claimToken := c.claimToken, attempt := r.attempts }))
  | .abandoning =>
    match update rows (fun r => recoverable c.window now r && maxAttempts ≤ r.attempts) (closeSet .runAbandoned now) with
    | none => some (rows, .threw)
    | some (rows', abandoned) => some (rows', if 0 < abandoned then .returned (.refused .exhausted) else .refusing)
  | .refusing =>
    some (rows, .returned (.refused (match rows.find? fun r => r.window = c.window with
      | some r => if r.status = .failed then .exhausted else .taken
      | none => .taken)))
  | .returned _ | .threw => none

end ScheduledRunRepository

/-! ### The ledger -/

/-- A write of `complete` (no code) or `fail` that matched its row. -/
structure Recorded where
  claim : ScheduledRunClaim
  errorCode : Option RetentionErrorCode
  counts : DeletedCounts
  /-- The call reported `true`; its replica may have died before. -/
  heard : Bool
  deriving DecidableEq

/-- The table, the calls to `claim`, and what has happened: which token took which window, and what was recorded. -/
structure Ledger where
  rows : List ScheduledRun
  calls : List ClaimCall
  takes : List ((RetentionTaskName × ℕ) × String)
  records : List Recorded
  clock : ℕ

inductive LedgerAction where
  /-- A call to `claim`: its `INSERT`, which may wait for another that is not committed until its time is up. -/
  | claim (replica : ℕ) (taskName : RetentionTaskName) (scheduledFor leaseMs : ℕ) (id claimToken : String) (lockWaitTimeout : Bool)
  | proceed (claimToken : String)
  | complete (claim : ScheduledRunClaim) (counts : DeletedCounts) (heard : Bool)
  | fail (claim : ScheduledRunClaim) (failure : ScheduledRunFailure) (counts : DeletedCounts) (heard : Bool)
  | closeAbandonedBefore (currentWindow : ℕ)

namespace Ledger

open ScheduledRunRepository

/-- The replica was granted the claim. -/
def Granted (s : Ledger) (claim : ScheduledRunClaim) : Prop :=
  ∃ c ∈ s.calls, c.phase = .returned (.claimed claim)

instance (s : Ledger) (claim : ScheduledRunClaim) : Decidable (s.Granted claim) :=
  inferInstanceAs (Decidable (∃ c ∈ s.calls, c.phase = .returned (.claimed claim)))

def insert (s : Ledger) (now : ℕ) (c : ClaimCall) (id : String) : Ledger :=
  if s.rows.any (·.window = c.window) then { s with calls := s.calls ++ [{ c with phase := .recovering }], clock := now }
  else
    { s with
      rows := s.rows ++ [insertedRun c.taskName c.scheduledFor c.leaseMs id c.claimToken now]
      calls := s.calls ++ [{ c with phase := .returned (.claimed
        { id := id, taskName := c.taskName, scheduledFor := c.scheduledFor, claimToken := c.claimToken, attempt := 1 }) }]
      takes := s.takes ++ [(c.window, c.claimToken)]
      clock := now }

/-- The call goes on in a phase; having taken over the window is remembered. -/
def advance (s : Ledger) (now : ℕ) (c : ClaimCall) (rows : List ScheduledRun) (phase : ClaimPhase) : Ledger where
  rows := rows
  calls := s.calls.map fun d => if d.claimToken = c.claimToken then { d with phase := phase } else d
  takes := if phase = .readingBack then s.takes ++ [(c.window, c.claimToken)] else s.takes
  records := s.records
  clock := now

/-- What a `complete` or a `fail` leaves. -/
def recorded (s : Ledger) (now : ℕ) (entry : Recorded) : Option (List ScheduledRun × ℕ) → Ledger
  | none => { s with clock := now }
  | some (rows, affected) =>
    { s with rows := rows, records := if 0 < affected then s.records ++ [entry] else s.records, clock := now }

/-- One statement. Ids and tokens are `randomUUID()`, so they are new. -/
def exec (maxAttempts : ℕ) (s : Ledger) : ℕ × LedgerAction → Option Ledger
  | (now, .claim replica taskName scheduledFor leaseMs id claimToken lockWaitTimeout) =>
    if (∃ c ∈ s.calls, c.claimToken = claimToken) ∨ ∃ r ∈ s.rows, r.id = id then none
    else
      let c : ClaimCall := { replica, taskName, scheduledFor, leaseMs, claimToken, phase := .returned (.refused .taken) }
      some (if lockWaitTimeout then { s with calls := s.calls ++ [c], clock := now } else s.insert now c id)
  | (now, .proceed claimToken) => do
    let c ← s.calls.find? (·.claimToken = claimToken)
    let (rows, phase) ← claimStep maxAttempts now s.rows c
    some (s.advance now c rows phase)
  | (now, .complete claim counts heard) =>
    if s.Granted claim then
      some (s.recorded now { claim, errorCode := none, counts, heard } (complete s.rows claim counts now))
    else none
  | (now, .fail claim failure counts heard) =>
    if s.Granted claim then
      some (s.recorded now { claim, errorCode := some failure.errorCode, counts, heard } (fail s.rows claim failure counts maxAttempts now))
    else none
  | (now, .closeAbandonedBefore currentWindow) =>
    match closeAbandonedBefore s.rows currentWindow now with
    | none => some { s with clock := now }
    | some (rows, _) => some { s with rows := rows, clock := now }

/-- No window has been claimed. -/
def empty : Ledger where
  rows := []
  calls := []
  takes := []
  records := []
  clock := 0

/-- Replicas and their statements, in any order. -/
def machine (maxAttempts : ℕ) : Machine Ledger (ℕ × LedgerAction) where
  init s := s = empty
  exec := exec maxAttempts

end Ledger

end HotelBackend.Retention
