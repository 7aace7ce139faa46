import HotelBackend.Outbox.Statements
import HotelBackend.Notifications.EmailTemplate

/-!
# Deliveries

The delivery of an event (`email_deliveries`), the record of accepted sends, and what is
done to them inside one transaction: the preparation of an attempt, the results of one,
and the redrive of an event that failed.
-/

namespace HotelBackend.Notifications

open HotelBackend.Common
open HotelBackend.Theory
open HotelBackend.Outbox

/-! ### The tables -/

inductive EmailDeliveryStatus where
  | pending
  | sent
  | failed
  deriving DecidableEq, Repr

/-- A row of `email_deliveries`: one for each event and template. Times are microseconds. -/
structure EmailDelivery where
  id : ℕ
  outboxEventId : String
  recipient : String
  templateKey : NotificationTemplateKey
  locale : EmailDeliveryLocale
  status : EmailDeliveryStatus
  attempts : ℕ
  providerMessageId : Option String
  lastErrorCode : Option String
  sentAt : Option ℕ
  failedAt : Option ℕ

/-- A row of `email_send_attempts`: a provider took the message. -/
structure EmailSendAttempt where
  outboxEventId : String
  templateKey : NotificationTemplateKey
  providerMessageId : Option String
  claimToken : String
  attempt : ℕ
  acceptedAt : ℕ

/-- The tables the family writes, and the next `AUTO_INCREMENT`. -/
structure MailTables where
  events : List OutboxEvent
  deliveries : List EmailDelivery
  sendAttempts : List EmailSendAttempt
  nextDeliveryId : ℕ

/-- What a preparation reads of other tables: the address of a user, the number of a room. -/
structure Directory where
  email : String → Option String
  roomNumber : String → Option String

/-- What the dispatchers and the workers are configured with, and what they call. -/
structure NotificationsConfig where
  maxAttempts : ℕ
  claimLeaseMs : ℕ
  backoffInitialMs : ℕ
  backoffMaxMs : ℕ
  sender : MailSender
  defaultLocale : EmailDeliveryLocale
  validator : ClassValidator
  /-- `toLowerCase`, which reads Unicode's tables. -/
  toLowerCase : String → String

/-! ### Preparation -/

inductive DeliveryPreparationErrorCode where
  | ownerNotFound
  | recipientInvalid
  | roomNotFound
  | deliveryNotPending
  deriving DecidableEq, Repr

def DeliveryPreparationErrorCode.text : DeliveryPreparationErrorCode → String
  | ownerNotFound => "NOTIFICATION_OWNER_NOT_FOUND"
  | recipientInvalid => "MAIL_RECIPIENT_INVALID"
  | roomNotFound => "NOTIFICATION_ROOM_NOT_FOUND"
  | deliveryNotPending => "NOTIFICATION_DELIVERY_NOT_PENDING"

/-- What the preparation of an attempt may throw. -/
inductive WorkError where
  /-- `NotificationEventError`. -/
  | event (error : NotificationEventError)
  /-- `DeliveryPreparationError`. -/
  | preparation (code : DeliveryPreparationErrorCode)
  /-- A plain `Error`. -/
  | template (message : String)
  /-- A statement the database refuses. -/
  | query
  deriving DecidableEq, Repr

/-- RFC 5321 mailbox limit. -/
def maximumEmailAddressLength : ℕ := 254

/-- An attempt, as far as the provider is concerned. -/
structure PreparedNotification where
  deliveryId : ℕ
  eventType : NotificationEventType
  templateKey : NotificationTemplateKey
  locale : EmailDeliveryLocale
  recipient : String
  message : PreparedEmailMessage

section Preparation

variable (config : NotificationsConfig)

/-- What `requireRecipient` accepts. -/
def isRecipient (value : String) : Bool :=
  utf16Length value ≤ maximumEmailAddressLength && value = config.toLowerCase (jsTrim value) && config.validator.isEmail value

def requireRecipient (value : String) : Except WorkError String := do
  Result.require (isRecipient config value) (.preparation .recipientInvalid)
  return value

def resolveOwnerEmail (directory : Directory) (ownerUserId : String) : Except WorkError String := do
  let email ← Result.orThrow (directory.email ownerUserId) (.preparation .ownerNotFound)
  requireRecipient config (config.toLowerCase (jsTrim email))

/-- The number of the room a change moved away from. -/
def resolveRenderContext (directory : Directory) (event : NotificationEvent) : Except WorkError NotificationRenderContext :=
  match event.change with
  | none => .ok ⟨none⟩
  | some (before, _) =>
    match directory.roomNumber before.roomId with
    | some roomNumber => if roomNumber = "" then .error (.preparation .roomNotFound) else .ok ⟨some roomNumber⟩
    | none => .error (.preparation .roomNotFound)

/-- A delivery as its first attempt inserts it. -/
def EmailDelivery.first (id : ℕ) (outboxEventId recipient : String) (templateKey : NotificationTemplateKey)
    (locale : EmailDeliveryLocale) : EmailDelivery where
  id := id
  outboxEventId := outboxEventId
  recipient := recipient
  templateKey := templateKey
  locale := locale
  status := .pending
  attempts := 1
  providerMessageId := none
  lastErrorCode := none
  sentAt := none
  failedAt := none

/-- `increment({ id }, 'attempts', 1)`. -/
def EmailDelivery.increment (d : EmailDelivery) : EmailDelivery := { d with attempts := d.attempts + 1 }

/-- The delivery of an event, by its unique key. -/
def findDelivery (deliveries : List EmailDelivery) (outboxEventId : String) (templateKey : NotificationTemplateKey) :
    Option EmailDelivery :=
  deliveries.find? fun d => d.outboxEventId = outboxEventId && d.templateKey = templateKey

/-- The delivery is locked and counted, or created. An increment that does not fit the column is refused. -/
def takeDelivery (db : MailTables) (directory : Directory) (outboxEventId ownerUserId : String)
    (templateKey : NotificationTemplateKey) : Except WorkError (MailTables × EmailDelivery) :=
  match findDelivery db.deliveries outboxEventId templateKey with
  | none => do
    let recipient ← resolveOwnerEmail config directory ownerUserId
    let delivery := EmailDelivery.first db.nextDeliveryId outboxEventId recipient templateKey config.defaultLocale
    return ({ db with deliveries := db.deliveries ++ [delivery], nextDeliveryId := db.nextDeliveryId + 1 }, delivery)
  | some delivery =>
    if delivery.status = .pending then
      if Table.maxSmallint ≤ delivery.attempts then .error .query
      else .ok ({ db with deliveries := Table.update db.deliveries (·.id = delivery.id) .increment }, delivery.increment)
    else .ok (db, delivery)

/-- `prepare`. -/
def prepare (db : MailTables) (directory : Directory) (outboxEvent : OutboxEvent) :
    Except WorkError (MailTables × PreparedNotification) := do
  let event ← (parseNotificationEvent config.validator outboxEvent.eventType outboxEvent.payload).mapError .event
  let templateKey := notificationTemplateRegistry event.type
  let (db, delivery) ← takeDelivery config db directory outboxEvent.id event.base.ownerUserId templateKey
  Result.require (delivery.status = .pending) (.preparation .deliveryNotPending)
  let recipient ← requireRecipient config delivery.recipient
  let context ← resolveRenderContext directory event
  let message ← (buildMessage config.sender outboxEvent.id recipient event templateKey delivery.locale context).mapError .template
  return (db, { deliveryId := delivery.id, eventType := event.type, templateKey := templateKey, locale := delivery.locale,
                recipient := recipient, message := message })

/-- When an attempt can be made. -/
theorem prepare_eq_ok {db db' : MailTables} {directory : Directory} {e : OutboxEvent} {event : NotificationEvent}
    {delivery : EmailDelivery} {context : NotificationRenderContext} {message : PreparedEmailMessage}
    (hevent : parseNotificationEvent config.validator e.eventType e.payload = .ok event)
    (htake : takeDelivery config db directory e.id event.base.ownerUserId (notificationTemplateRegistry event.type) =
      .ok (db', delivery))
    (hpending : delivery.status = .pending) (hrecipient : isRecipient config delivery.recipient = true)
    (hcontext : resolveRenderContext directory event = .ok context)
    (hmessage : buildMessage config.sender e.id delivery.recipient event (notificationTemplateRegistry event.type) delivery.locale
      context = .ok message) :
    prepare config db directory e = .ok (db', ⟨delivery.id, event.type, notificationTemplateRegistry event.type, delivery.locale,
      delivery.recipient, message⟩) :=
  Result.bind_eq_ok.2 ⟨event, Result.mapError_eq_ok.2 hevent, Result.bind_eq_ok.2 ⟨_, htake, Result.bind_eq_ok.2
    ⟨(), Result.require_eq_ok.2 (decide_eq_true hpending), Result.bind_eq_ok.2
      ⟨_, Result.bind_eq_ok.2 ⟨(), Result.require_eq_ok.2 hrecipient, rfl⟩, Result.bind_eq_ok.2
        ⟨context, hcontext, Result.bind_eq_ok.2 ⟨message, Result.mapError_eq_ok.2 hmessage, rfl⟩⟩⟩⟩⟩⟩

end Preparation

/-! ### Results -/

/-- The rows `updateDelivery` names: by their id where an attempt was prepared, else by their event. -/
def addresses (outboxEventId : String) (deliveryId : Option ℕ) (d : EmailDelivery) : Bool :=
  match deliveryId with
  | some id => d.id = id
  | none => d.outboxEventId = outboxEventId

/-- `finishEvent`, then `updateDelivery`: whether the claim was held. -/
def finishDelivery (db : MailTables) (event : Update) (outboxEventId : String) (deliveryId : Option ℕ)
    (set : EmailDelivery → EmailDelivery) : MailTables × Bool :=
  if event.hits db.events then
    ({ db with events := event.run db.events,
               deliveries := Table.update db.deliveries (fun d => addresses outboxEventId deliveryId d && d.status = .pending) set }, true)
  else (db, false)

def markSent (db : MailTables) (data : ClaimKey) (deliveryId : ℕ) (providerMessageId : Option String) (now : ℕ) : MailTables × Bool :=
  finishDelivery db (DeliveryResult.markSent data now) data.id (some deliveryId) fun d =>
    { d with status := .sent, sentAt := some now, providerMessageId := providerMessageId, lastErrorCode := none }

def markRetry (db : MailTables) (data : ClaimKey) (deliveryId : ℕ) (retryInMs : ℕ) (errorCode : String) (now : ℕ) :
    MailTables × Bool :=
  finishDelivery db (DeliveryResult.markRetry data retryInMs errorCode now) data.id (some deliveryId) fun d =>
    { d with lastErrorCode := some errorCode }

def markFailed (db : MailTables) (data : ClaimKey) (deliveryId : Option ℕ) (errorCode : String) (now : ℕ) : MailTables × Bool :=
  finishDelivery db (DeliveryResult.markFailed data errorCode now) data.id deliveryId fun d =>
    { d with status := .failed, failedAt := some now, lastErrorCode := some errorCode }

/-- `matchResolvedDelivery`: the event follows its delivery. -/
def matchResolvedDelivery (db : MailTables) (data : ClaimKey) (now : ℕ) : MailTables × Bool :=
  let finish (event : Update) : MailTables × Bool :=
    if event.hits db.events then ({ db with events := event.run db.events }, true) else (db, false)
  match db.deliveries.find? (·.outboxEventId = data.id) with
  | some d =>
    match d.status with
    | .sent => finish (DeliveryResult.markSent data now)
    | .failed => finish (DeliveryResult.markFailed data (d.lastErrorCode.getD "MAIL_PROVIDER_REJECTED") now)
    | .pending => (db, false)
  | none => (db, false)

/-- `recordAccepted`. -/
def recordAccepted (db : MailTables) (data : ClaimKey) (templateKey : NotificationTemplateKey) (providerMessageId : Option String)
    (now : ℕ) : MailTables :=
  { db with sendAttempts := db.sendAttempts ++ [⟨data.id, templateKey, providerMessageId, data.claimToken, data.attempt, now⟩] }

/-! ### Redrive -/

inductive RedriveOutcomeCode where
  | redriven
  | eventNotFound
  | eventNotFailed
  | deliveryAlreadySent
  | providerAlreadyAccepted
  deriving DecidableEq, Repr

def RedriveOutcomeCode.text : RedriveOutcomeCode → String
  | redriven => "NOTIFICATION_REDRIVE_APPLIED"
  | eventNotFound => "NOTIFICATION_REDRIVE_EVENT_NOT_FOUND"
  | eventNotFailed => "NOTIFICATION_REDRIVE_EVENT_NOT_FAILED"
  | deliveryAlreadySent => "NOTIFICATION_REDRIVE_DELIVERY_ALREADY_SENT"
  | providerAlreadyAccepted => "NOTIFICATION_REDRIVE_PROVIDER_ALREADY_ACCEPTED"

/-- The operator's request; its reason is logged only. -/
structure RedriveRequest where
  outboxEventId : String
  allowDuplicate : Bool
  deriving DecidableEq, Repr

structure RedriveResult where
  applied : Bool
  code : RedriveOutcomeCode
  outboxEventId : String
  observedEventStatus : Option OutboxEventStatus
  deliveriesReset : ℕ
  deriving DecidableEq, Repr

/-- `refuse`. -/
def refuse (request : RedriveRequest) (code : RedriveOutcomeCode) (observed : Option OutboxEventStatus) : RedriveResult :=
  ⟨false, code, request.outboxEventId, observed, 0⟩

/-- `countAccepted`. -/
def countAccepted (sendAttempts : List EmailSendAttempt) (outboxEventId : String) : ℕ :=
  sendAttempts.countP (·.outboxEventId = outboxEventId)

/-- The deliveries `resetDeliveries` resets. -/
def isResettable (outboxEventId : String) (d : EmailDelivery) : Bool := d.outboxEventId = outboxEventId && d.status = .failed

/-- `redrive`: the tables, and what the operator is told. -/
def redrive (db : MailTables) (request : RedriveRequest) (now : ℕ) : MailTables × RedriveResult :=
  match db.events.find? fun e => e.id = request.outboxEventId && e.eventType ∈ notificationEventTypes with
  | none => (db, refuse request .eventNotFound none)
  | some event =>
    if event.status ≠ .failed then (db, refuse request .eventNotFailed (some event.status))
    else if db.deliveries.any fun d => d.outboxEventId = request.outboxEventId && d.status = .sent then
      (db, refuse request .deliveryAlreadySent (some event.status))
    else if !request.allowDuplicate && 0 < countAccepted db.sendAttempts request.outboxEventId then
      (db, refuse request .providerAlreadyAccepted (some event.status))
    else
      let reset := NotificationRedrive.resetEvent request.outboxEventId now
      if reset.hits db.events then
        ({ db with events := reset.run db.events,
                   deliveries := Table.update db.deliveries (isResettable request.outboxEventId) fun d =>
                     { d with status := .pending, failedAt := none, providerMessageId := none } },
         ⟨true, .redriven, request.outboxEventId, some event.status,
           Table.affected db.deliveries (isResettable request.outboxEventId)⟩)
      else (db, refuse request .eventNotFailed (some event.status))

end HotelBackend.Notifications
