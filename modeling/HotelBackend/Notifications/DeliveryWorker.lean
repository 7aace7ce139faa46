import HotelBackend.Outbox.Protocol
import HotelBackend.Files.StorageCleanup
import HotelBackend.Notifications.Delivery

/-!
# Dispatchers and delivery workers

`OutboxDispatcherService` claims events and hands each claim to the queue as a job;
`DeliveryWorkerService` takes a job, prepares the mail, has the provider send it, and
records what came of it. Any number of both run next to operators who redrive, a call at a
time and in any order. Between two calls a process may wait for any time, and it may end
at any of them; the queue may deliver a job as often as it likes.

The queue ignores an add under the id of a job it holds or retains, and may drop a job at
any time.
-/

namespace HotelBackend.Notifications

open HotelBackend.Common
open HotelBackend.Theory
open HotelBackend.Outbox
open HotelBackend.Files (CallOutcome QueryOutcome)

/-! ### Failures of the provider -/

/-- What is read of an error: a transport code and a response code. -/
structure ProviderError where
  code : Option String
  responseCode : Option ℤ
  deriving DecidableEq, Repr

structure SmtpFailure where
  retryable : Bool
  code : String
  deriving DecidableEq, Repr

def retryableTransportCodes : List String :=
  ["ECONNECTION", "ECONNREFUSED", "ECONNRESET", "EDNS", "EHOSTUNREACH", "ENETUNREACH", "EPIPE", "ESOCKET"]

def timeoutTransportCodes : List String := ["ETIMEDOUT", "ETIME", "EENVELOPE_TIMEOUT"]

/-- `classifySmtpFailure`: what it does not recognise may be tried again. -/
def classifySmtpFailure (error : ProviderError) : SmtpFailure :=
  if error.responseCode.any fun r => 400 ≤ r && r < 500 then
    ⟨true, if error.code = some "EAUTH" then "MAIL_PROVIDER_AUTHENTICATION" else "MAIL_PROVIDER_UNAVAILABLE"⟩
  else if error.code = some "EAUTH" || error.responseCode = some 530 || error.responseCode = some 535 then
    ⟨false, "MAIL_PROVIDER_AUTHENTICATION"⟩
  else if error.code.getD "" ∈ timeoutTransportCodes then ⟨true, "MAIL_PROVIDER_TIMEOUT"⟩
  else if error.code.getD "" ∈ retryableTransportCodes then ⟨true, "MAIL_PROVIDER_UNAVAILABLE"⟩
  else if error.responseCode.any (500 ≤ ·) then
    ⟨false, if error.code = some "EENVELOPE" then "MAIL_RECIPIENT_INVALID" else "MAIL_PROVIDER_REJECTED"⟩
  else ⟨true, "MAIL_PROVIDER_UNAVAILABLE"⟩

/-- The exponent is clamped only to keep the shift finite. -/
def maximumExponent : ℕ := 30

/-- `notificationBackoffMs`, `random` the factor drawn from `[0, 1)`. -/
def notificationBackoffMs (attempt initialMs maxMs : ℕ) (random : ℚ) : ℕ :=
  let base := min (initialMs * 2 ^ min (attempt - 1) maximumExponent) maxMs
  min (base + (random * base * (1 / 5)).floor.toNat) maxMs

def notificationQueueUnavailableCode : String := "NOTIFICATION_QUEUE_UNAVAILABLE"

/-! ### The transactions of a job -/

/-- How a job ends. -/
inductive DeliveryOutcome where
  | sent
  | skipped
  | failed
  | retry
  deriving DecidableEq, Repr

section Transactions

variable (config : NotificationsConfig)

/-- The row a job still holds, while its lease lives. -/
def isHeld (data : ClaimKey) (now : ℕ) (e : OutboxEvent) : Bool :=
  e.eventType ∈ notificationEventTypes && data.holds e && e.lockExpiresAt.any (now < ·)

/-- `claimWork`: nothing if the claim is gone, else the tables and the attempt. -/
def claimWork (db : MailTables) (data : ClaimKey) (directory : Directory) (now : ℕ) :
    Except WorkError (Option (MailTables × PreparedNotification)) :=
  match db.events.find? (isHeld data now) with
  | none => .ok none
  | some event => do
    let (db, prepared) ← prepare config db directory event
    let renew := DeliveryResult.renew data.id data.claimToken config.claimLeaseMs now
    return some ({ db with events := renew.run db.events }, prepared)

/-- The code a failure is recorded under, if it is a verdict about the message. -/
def permanentCode : WorkError → Option String
  | .event error => some error.code.text
  | .preparation code => some code.text
  | .template _ | .query => none

/-- `finishWithoutSending`; what is no verdict is thrown on. -/
def finishWithoutSending (db : MailTables) (data : ClaimKey) (error : WorkError) (now : ℕ) :
    Except WorkError (MailTables × DeliveryOutcome) :=
  if error = .preparation .deliveryNotPending then .ok ((matchResolvedDelivery db data now).1, .skipped)
  else match permanentCode error with
    | some code => .ok ((markFailed db data none code now).1, .failed)
    | none => .error error

/-- `recordProviderFailure`: a permanent failure and the last attempt are terminal. -/
def recordProviderFailure (db : MailTables) (data : ClaimKey) (deliveryId : ℕ) (error : ProviderError) (random : ℚ) (now : ℕ) :
    MailTables × DeliveryOutcome :=
  let failure := classifySmtpFailure error
  if !failure.retryable || decide (config.maxAttempts ≤ data.attempt) then
    let (db, held) := markFailed db data (some deliveryId) failure.code now
    (db, if held then .failed else .skipped)
  else
    let retryInMs := notificationBackoffMs data.attempt config.backoffInitialMs config.backoffMaxMs random
    let (db, held) := markRetry db data deliveryId retryInMs failure.code now
    (db, if held then .retry else .skipped)

/-- `process`, where no call to the database fails: `send` is what the provider answers, and the
result is written at `later`. -/
def process (db : MailTables) (data : ClaimKey) (directory : Directory)
    (send : PreparedEmailMessage → Except ProviderError (Option String)) (random : ℚ) (now later : ℕ) :
    Except WorkError (MailTables × DeliveryOutcome) :=
  match claimWork config db data directory now with
  | .error error => finishWithoutSending db data error later
  | .ok none => .ok (db, .skipped)
  | .ok (some (db, prepared)) =>
    match send prepared.message with
    | .error error => .ok (recordProviderFailure config db data prepared.deliveryId error random later)
    | .ok providerMessageId =>
      let db := recordAccepted db data prepared.templateKey providerMessageId later
      let (db, held) := markSent db data prepared.deliveryId providerMessageId later
      .ok (db, if held then .sent else .skipped)

end Transactions

/-! ### The machine -/

/-- How far a job is. -/
inductive WorkerPhase where
  /-- `claimWork` threw. -/
  | failing (error : WorkError)
  /-- `claimWork` is committed. -/
  | prepared (p : PreparedNotification)
  /-- `send` has started. -/
  | sending (p : PreparedNotification)
  /-- The provider refused the message. -/
  | rejected (p : PreparedNotification) (error : ProviderError)
  /-- The provider took the message. -/
  | accepted (p : PreparedNotification) (providerMessageId : Option String)
  /-- That it did is recorded, or could not be. -/
  | recorded (p : PreparedNotification) (providerMessageId : Option String)

/-- The attempt a job is about. -/
def WorkerPhase.work : WorkerPhase → Option PreparedNotification
  | failing _ => none
  | prepared p | sending p | rejected p _ | accepted p _ | recorded p _ => some p

/-- A job under way. -/
structure Worker where
  worker : ℕ
  data : ClaimKey
  phase : WorkerPhase

/-- What the queue took in, and what it still holds. -/
structure JobQueue where
  /-- The jobs it holds or retains, completed and failed ones among them. -/
  held : List ClaimKey
  /-- Adds reported as failed that have yet to reach it. -/
  late : List ClaimKey
  /-- The adds that reached it. -/
  reached : List ClaimKey
  /-- The jobs it took in. -/
  received : List ClaimKey

/-- One job id for each attempt of an event. -/
def notificationJobId (key : ClaimKey) : String := s!"{key.id}-{key.attempt}"

/-- An add reaches the queue: under the id of a job it holds it is ignored. -/
def JobQueue.add (q : JobQueue) (key : ClaimKey) : JobQueue :=
  if q.held.any (notificationJobId · = notificationJobId key) then { q with reached := q.reached ++ [key] }
  else { q with held := q.held ++ [key], reached := q.reached ++ [key], received := q.received ++ [key] }

/-- The dispatchers, the queue, the workers and the provider. -/
structure Mail where
  outbox : State
  deliveries : List EmailDelivery
  sendAttempts : List EmailSendAttempt
  nextDeliveryId : ℕ
  queue : JobQueue
  /-- The claims handed to the queue, and those it said it took. -/
  tried : List ClaimKey
  acknowledged : List ClaimKey
  /-- The claims given back since. -/
  released : List ClaimKey
  workers : List Worker
  /-- The claims under which a send has started, since the last redrive of the event. -/
  sends : List ClaimKey

/-- A step of a dispatcher, the queue, a worker, the provider, or an operator. -/
inductive MailAction where
  /-- A booking transaction, a dispatcher's claim, or another family. -/
  | statement (now : ℕ) (st : Statement)
  /-- `enqueue`, of a claim. -/
  | enqueue (key : ClaimKey) (outcome : CallOutcome)
  | lateAdd (key : ClaimKey)
  /-- The queue drops a job. -/
  | remove (key : ClaimKey)
  /-- `releaseClaim`, after an add that was reported as failed. -/
  | release (key : ClaimKey) (random : ℚ) (now : ℕ) (outcome : QueryOutcome)
  /-- A job is delivered: `claimWork`. -/
  | start (worker : ℕ) (data : ClaimKey) (directory : Directory) (now : ℕ) (outcome : QueryOutcome)
  | finishWithoutSending (worker now : ℕ) (outcome : QueryOutcome)
  | send (worker : ℕ)
  /-- What the provider answers. -/
  | reply (worker : ℕ) (result : Except ProviderError (Option String))
  | recordAcceptance (worker now : ℕ) (outcome : QueryOutcome)
  | markSent (worker now : ℕ) (outcome : QueryOutcome)
  | recordProviderFailure (worker : ℕ) (random : ℚ) (now : ℕ) (outcome : QueryOutcome)
  | crash (worker : ℕ)
  | redrive (request : RedriveRequest) (now : ℕ)

/-- The statement is one of the family's own: it comes with a step of a dispatcher, a worker or an
operator. -/
def isMail : Statement → Bool
  | .release family .. => family = .notification
  | .deliverySent .. | .deliveryRetry .. | .deliveryFailed .. | .deliveryRenew .. | .redrive .. => true
  | _ => false

namespace Mail

/-- The tables. -/
def tables (s : Mail) : MailTables := ⟨s.outbox.rows, s.deliveries, s.sendAttempts, s.nextDeliveryId⟩

/-- The tables after a transaction. -/
def commit (s : Mail) (db : MailTables) : Mail :=
  { s with outbox := { s.outbox with rows := db.events }, deliveries := db.deliveries, sendAttempts := db.sendAttempts,
           nextDeliveryId := db.nextDeliveryId }

/-- The tables after a query, if it takes effect. -/
def settle (s : Mail) (db : MailTables) : QueryOutcome → Mail
  | .failed => s
  | .committed | .lostReply => s.commit db

def worker (s : Mail) (worker : ℕ) : Option Worker := s.workers.find? (·.worker = worker)

/-- The job moves on. -/
def move (s : Mail) (worker : ℕ) (phase : WorkerPhase) : Mail :=
  { s with workers := Table.update s.workers (·.worker = worker) fun w => { w with phase := phase } }

/-- The job is over. -/
def leave (s : Mail) (worker : ℕ) : Mail := { s with workers := Table.delete s.workers (·.worker = worker) }

/-- A claim of the family was handed out. -/
def isClaim (s : Mail) (key : ClaimKey) : Bool :=
  key ∈ s.outbox.claims && s.outbox.rows.any fun e => e.id = key.id && e.eventType ∈ notificationEventTypes

/-- `enqueue`. -/
def enqueue (s : Mail) (key : ClaimKey) : CallOutcome → Mail
  | .done => { s with tried := s.tried ++ [key], queue := s.queue.add key, acknowledged := s.acknowledged ++ [key] }
  | .lostReply => { s with tried := s.tried ++ [key], queue := s.queue.add key }
  | .refused => { s with tried := s.tried ++ [key] }
  | .late => { s with tried := s.tried ++ [key], queue := { s.queue with late := s.queue.late ++ [key] } }

variable (config : NotificationsConfig)

/-- `releaseClaim`: the statement, if it takes effect. -/
def release (s : Mail) (key : ClaimKey) (random : ℚ) (now : ℕ) (outcome : QueryOutcome) : Mail :=
  let retryInMs := notificationBackoffMs key.attempt config.backoffInitialMs config.backoffMaxMs random
  let u := Outbox.release notificationEventTypes key retryInMs notificationQueueUnavailableCode now
  if outcome = .failed then s
  else { s with outbox := { s.outbox with rows := u.run s.outbox.rows },
                released := if u.hits s.outbox.rows then s.released ++ [key] else s.released }

/-- `claimWork`, by a new job. -/
def start (s : Mail) (worker : ℕ) (data : ClaimKey) (directory : Directory) (now : ℕ) (outcome : QueryOutcome) : Mail :=
  match claimWork config s.tables data directory now, outcome with
  | .ok none, _ | _, .failed => s
  | .error error, _ => { s with workers := s.workers ++ [⟨worker, data, .failing error⟩] }
  | .ok (some (db, _)), .lostReply => s.commit db
  | .ok (some (db, p)), .committed => { s.commit db with workers := s.workers ++ [⟨worker, data, .prepared p⟩] }

/-- A step; `none` where it is not one of the state. -/
def exec (s : Mail) : MailAction → Option Mail
  | .statement now st =>
    if isMail st then none else (s.outbox.exec now st).map fun outbox => { s with outbox := outbox }
  | .enqueue key outcome => if s.isClaim key && key ∉ s.tried then some (s.enqueue key outcome) else none
  | .lateAdd key =>
    if key ∈ s.queue.late then some { s with queue := { s.queue with late := s.queue.late.erase key }.add key } else none
  | .remove key => some { s with queue := { s.queue with held := s.queue.held.erase key } }
  | .release key random now outcome =>
    if key ∈ s.tried && key ∉ s.acknowledged && key ∉ s.released then some (s.release config key random now outcome) else none
  | .start worker data directory now outcome =>
    if s.workers.any (·.worker = worker) || data ∉ s.queue.received then none
    else some (s.start config worker data directory now outcome)
  | .finishWithoutSending worker now outcome => do
    let w ← s.worker worker
    match w.phase with
    | .failing error =>
      match Notifications.finishWithoutSending s.tables w.data error now with
      | .ok (db, _) => return (s.settle db outcome).leave worker
      | .error _ => return s.leave worker
    | _ => none
  | .send worker => do
    let w ← s.worker worker
    match w.phase with
    | .prepared p => return { s.move worker (.sending p) with sends := s.sends ++ [w.data] }
    | _ => none
  | .reply worker result => do
    let w ← s.worker worker
    match w.phase, result with
    | .sending p, .ok providerMessageId => return s.move worker (.accepted p providerMessageId)
    | .sending p, .error error => return s.move worker (.rejected p error)
    | _, _ => none
  | .recordAcceptance worker now outcome => do
    let w ← s.worker worker
    match w.phase with
    | .accepted p providerMessageId =>
      return (s.settle (recordAccepted s.tables w.data p.templateKey providerMessageId now) outcome).move worker
        (.recorded p providerMessageId)
    | _ => none
  | .markSent worker now outcome => do
    let w ← s.worker worker
    match w.phase with
    | .recorded p providerMessageId =>
      return (s.settle (Notifications.markSent s.tables w.data p.deliveryId providerMessageId now).1 outcome).leave worker
    | _ => none
  | .recordProviderFailure worker random now outcome => do
    let w ← s.worker worker
    match w.phase with
    | .rejected p error =>
      return (s.settle (Notifications.recordProviderFailure config s.tables w.data p.deliveryId error random now).1
        outcome).leave worker
    | _ => none
  | .crash worker => some (s.leave worker)
  | .redrive request now =>
    let (db, result) := Notifications.redrive s.tables request now
    some { s.commit db with sends := if result.applied then s.sends.filter (·.id ≠ request.outboxEventId) else s.sends }

end Mail

/-- Nothing written yet. -/
def Mail.empty : Mail := ⟨⟨[], []⟩, [], [], 1, ⟨[], [], [], []⟩, [], [], [], [], []⟩

/-- Runs of the family. -/
def mail (config : NotificationsConfig) : Machine Mail MailAction where
  init s := s = .empty
  exec := Mail.exec config

end HotelBackend.Notifications
