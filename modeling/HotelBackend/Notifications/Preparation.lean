import HotelBackend.Bookings.Events
import HotelBackend.Notifications.Agreement

/-!
# When a failed preparation is a verdict

An event a worker cannot prepare is failed for good where the error is a verdict about the
message: the parser's or the preparation's own. `obstacles` is what a preparation can fail
of, in order; `Answerable` says for which events that is verdicts only.
-/

namespace HotelBackend.Notifications

open HotelBackend.Common
open HotelBackend.Theory
open HotelBackend.Outbox

/-! ### The message -/

section Message

variable {validator : ClassValidator} {eventType : String} {payload : Json} {event : NotificationEvent}
  {context : NotificationRenderContext}

/-- What is common to the types is read first. -/
theorem base_of_parse (h : parseNotificationEvent validator eventType payload = .ok event) :
    ∃ fields, payload = .obj fields ∧ requireBase fields = .ok event.base := by
  obtain ⟨type, -, h⟩ := Result.bind_eq_ok.1 h
  obtain ⟨value, hvalue, h⟩ := Result.bind_eq_ok.1 h
  obtain ⟨-, -, h⟩ := Result.bind_eq_ok.1 h
  obtain ⟨-, -, h⟩ := Result.bind_eq_ok.1 h
  obtain ⟨common, hcommon, h⟩ := Result.bind_eq_ok.1 h
  have hpayload : payload = .obj value := by
    unfold requireRecord at hvalue
    split at hvalue
    case h_1 hobj => rw [Option.some.inj hobj, Except.ok.inj hvalue]
    case h_2 => cases hvalue
  refine ⟨value, hpayload, hcommon.trans (congrArg Except.ok ?_)⟩
  cases type with
  | confirmed | rejected | cancelledByAdmin =>
    obtain ⟨booking, -, h⟩ := Result.bind_eq_ok.1 h
    rw [← Result.pure_eq_ok.1 h]
    rfl
  | changed =>
    obtain ⟨booking, -, h⟩ := Result.bind_eq_ok.1 h
    obtain ⟨before, -, h⟩ := Result.bind_eq_ok.1 h
    obtain ⟨after, -, h⟩ := Result.bind_eq_ok.1 h
    obtain ⟨-, -, h⟩ := Result.bind_eq_ok.1 h
    obtain ⟨-, -, h⟩ := Result.bind_eq_ok.1 h
    rw [← Result.pure_eq_ok.1 h]
    rfl

theorem bookingId_of_parse (h : parseNotificationEvent validator eventType payload = .ok event) :
    publicBookingIdPattern event.base.bookingId = true := by
  obtain ⟨fields, -, hbase⟩ := base_of_parse h
  obtain ⟨bookingId, hid, hbase⟩ := Result.bind_eq_ok.1 hbase
  obtain ⟨owner, -, hbase⟩ := Result.bind_eq_ok.1 hbase
  obtain ⟨version, -, hbase⟩ := Result.bind_eq_ok.1 hbase
  rw [← Result.pure_eq_ok.1 hbase]
  have haccepted := (requireString_eq_ok.1 hid).2
  simp only [isAcceptedString, Bool.and_eq_true] at haccepted
  exact haccepted.2

/-- A change is resolved together with its room of before. -/
theorem beforeRoomNumber_of_resolve {directory : Directory} (h : resolveRenderContext directory event = .ok context)
    (hchange : event.change.isSome = true) : context.beforeRoomNumber.isSome = true := by
  obtain ⟨⟨before, after⟩, hchange⟩ := Option.isSome_iff_exists.1 hchange
  unfold resolveRenderContext at h
  rw [hchange] at h
  dsimp only at h
  split at h
  · split at h
    · cases h
    · rw [← Except.ok.inj h]
      rfl
  · cases h

/-- A message can be made under a canonical id, in a supported currency. -/
theorem buildMessage_ok_iff {sender : MailSender} {id recipient : String} {locale : EmailDeliveryLocale}
    (hid : publicBookingIdPattern event.base.bookingId = true)
    (hroom : event.change.isSome = true → context.beforeRoomNumber.isSome = true) :
    (∃ message, buildMessage sender id recipient event (notificationTemplateRegistry event.type) locale context = .ok message) ↔
      canonicalUuidPattern id = true ∧ event.booking.price.currency ∈ zeroDecimalCurrencies := by
  constructor
  · rintro ⟨message, h⟩
    obtain ⟨_, huuid, h⟩ := Result.bind_eq_ok.1 h
    obtain ⟨content, hcontent, -⟩ := Result.bind_eq_ok.1 h
    exact ⟨Result.require_eq_ok.1 huuid, currency_of_render hcontent⟩
  · rintro ⟨huuid, hcurrency⟩
    obtain ⟨content, hcontent⟩ := render_ok hid hcurrency hroom
    exact ⟨_, Result.bind_eq_ok.2 ⟨(), Result.require_eq_ok.2 huuid, Result.bind_eq_ok.2 ⟨content, hcontent, rfl⟩⟩⟩

end Message

/-! ### What a preparation can fail of -/

section Preparation

variable (config : NotificationsConfig) (db : MailTables) (directory : Directory) (e : OutboxEvent) (event : NotificationEvent)

/-- The delivery of a parsed event, if it has one. -/
def deliveryOf : Option EmailDelivery := findDelivery db.deliveries e.id (notificationTemplateRegistry event.type)

/-- The address of an attempt: that of the delivery, or else the owner's. -/
def recipientFor : Except WorkError String :=
  match deliveryOf db e event with
  | some d => requireRecipient config d.recipient
  | none => resolveOwnerEmail config directory event.base.ownerUserId

/-- The counter of the delivery has room for another attempt. -/
def hasRoom : Bool := (deliveryOf db e event).all fun d => d.attempts < Table.maxSmallint

/-- The message of a resolved recipient. -/
def messageFor (locale : EmailDeliveryLocale) (recipient : String) : Except WorkError PreparedEmailMessage := do
  let context ← resolveRenderContext directory event
  (buildMessage config.sender e.id recipient event (notificationTemplateRegistry event.type) locale context).mapError .template

/-- What stands between a parsed event and its message. -/
def obstacles : Except WorkError PreparedEmailMessage := do
  Result.require (hasRoom db e event) .query
  let recipient ← recipientFor config db directory e event
  messageFor config directory e event (((deliveryOf db e event).map (·.locale)).getD config.defaultLocale) recipient

/-- Every event that can be parsed has room for another attempt; and where the recipient and the
room of before are accepted, its message can be made. -/
def Answerable : Prop :=
  ∀ event, parseNotificationEvent config.validator e.eventType e.payload = .ok event → hasRoom db e event = true ∧
    ((recipientFor config db directory e event).isOk = true → (resolveRenderContext directory event).isOk = true →
      canonicalUuidPattern e.id = true ∧ event.booking.price.currency ∈ zeroDecimalCurrencies)

variable {config db directory e event}

theorem resolveOwnerEmail_eq_ok {ownerUserId recipient : String} (h : resolveOwnerEmail config directory ownerUserId = .ok recipient) :
    isRecipient config recipient = true := by
  obtain ⟨email, -, h⟩ := Result.bind_eq_ok.1 h
  obtain ⟨_, hrecipient, h⟩ := Result.bind_eq_ok.1 h
  exact Result.pure_eq_ok.1 h ▸ Result.require_eq_ok.1 hrecipient

/-- What is left once the delivery is taken. -/
theorem prepare_of_takeDelivery {db' : MailTables} {delivery : EmailDelivery} {error : WorkError}
    (hevent : parseNotificationEvent config.validator e.eventType e.payload = .ok event)
    (htake : takeDelivery config db directory e.id event.base.ownerUserId (notificationTemplateRegistry event.type) =
      .ok (db', delivery)) (hpending : delivery.status = .pending) :
    prepare config db directory e = .error error ↔
      (requireRecipient config delivery.recipient >>= messageFor config directory e event delivery.locale) = .error error := by
  have hok : (parseNotificationEvent config.validator e.eventType e.payload).mapError WorkError.event = .ok event :=
    Result.mapError_eq_ok.2 hevent
  simp only [prepare, messageFor, hok, htake, hpending, Result.bind_eq_error, Except.ok.injEq, Result.require_eq_ok, decide_true,
    Result.require_eq_error, reduceCtorEq, false_or, exists_eq_left', Bool.true_eq_false, false_and, exists_const, true_and,
    pure, Except.pure, and_false, exists_false, or_false]

/-- A preparation fails of the obstacles of its event, if a delivery that is there is pending. -/
theorem prepare_eq_error (hevent : parseNotificationEvent config.validator e.eventType e.payload = .ok event)
    (hpending : ∀ d, deliveryOf db e event = some d → d.status = .pending) {error : WorkError} :
    prepare config db directory e = .error error ↔ obstacles config db directory e event = .error error := by
  have hok : (parseNotificationEvent config.validator e.eventType e.payload).mapError WorkError.event = .ok event :=
    Result.mapError_eq_ok.2 hevent
  have hfound : findDelivery db.deliveries e.id (notificationTemplateRegistry event.type) = deliveryOf db e event := rfl
  cases hfind : deliveryOf db e event with
  | none =>
    cases howner : resolveOwnerEmail config directory event.base.ownerUserId with
    | error error' =>
      have htake : takeDelivery config db directory e.id event.base.ownerUserId (notificationTemplateRegistry event.type) =
          .error error' := by simp only [takeDelivery, hfound, hfind, howner, bind, Except.bind]
      simp only [prepare, obstacles, hasRoom, recipientFor, hok, htake, hfind, howner, Option.all_none, Result.require, if_true,
        Except.error.injEq, bind, Except.bind]
    | ok recipient =>
      have htake : ∃ db', takeDelivery config db directory e.id event.base.ownerUserId (notificationTemplateRegistry event.type) =
          .ok (db', .first db.nextDeliveryId e.id recipient (notificationTemplateRegistry event.type) config.defaultLocale) := by
        simp only [takeDelivery, hfound, hfind, howner, bind, Except.bind, pure, Except.pure, Except.ok.injEq, Prod.mk.injEq, and_true,
          exists_eq']
      obtain ⟨db', htake⟩ := htake
      have hrecipient : requireRecipient config recipient = .ok recipient :=
        Result.bind_eq_ok.2 ⟨(), Result.require_eq_ok.2 (resolveOwnerEmail_eq_ok howner), rfl⟩
      rw [prepare_of_takeDelivery hevent htake rfl]
      simp only [EmailDelivery.first, hrecipient, obstacles, hasRoom, recipientFor, hfind, howner, Option.all_none, Result.require,
        if_true, Option.map_none, Option.getD_none, bind, Except.bind]
  | some d =>
    have hs := hpending d hfind
    by_cases hfull : Table.maxSmallint ≤ d.attempts
    · have htake : takeDelivery config db directory e.id event.base.ownerUserId (notificationTemplateRegistry event.type) =
          .error .query := by simp only [takeDelivery, hfound, hfind, hs, if_true, hfull]
      simp only [prepare, obstacles, hasRoom, hok, htake, hfind, Option.all_some, Result.require, Nat.not_lt.2 hfull, decide_false,
        if_neg Bool.false_ne_true, Except.error.injEq, bind, Except.bind]
    · have htake : ∃ db', takeDelivery config db directory e.id event.base.ownerUserId (notificationTemplateRegistry event.type) =
          .ok (db', d.increment) := by
        simp only [takeDelivery, hfound, hfind, hs, if_true, hfull, if_false, Except.ok.injEq, Prod.mk.injEq, and_true, exists_eq']
      obtain ⟨db', htake⟩ := htake
      rw [prepare_of_takeDelivery hevent htake hs]
      simp only [EmailDelivery.increment, obstacles, hasRoom, recipientFor, hfind, Option.all_some, Result.require,
        Nat.lt_of_not_le hfull, decide_true, if_true, Option.map_some, Option.getD_some, bind, Except.bind]

/-- An error is a verdict about the message. -/
def IsVerdict (error : WorkError) : Prop := (permanentCode error).isSome = true ∧ error ≠ .preparation .deliveryNotPending

theorem isVerdict_of_requireRecipient {value : String} {error : WorkError} (h : requireRecipient config value = .error error) :
    IsVerdict error := by
  rcases Result.bind_eq_error.1 h with h | ⟨_, -, h⟩
  · rw [← (Result.require_eq_error.1 h).2]
    exact ⟨rfl, by decide⟩
  · cases h

theorem isVerdict_of_recipientFor {error : WorkError} (h : recipientFor config db directory e event = .error error) : IsVerdict error := by
  unfold recipientFor at h
  split at h
  · exact isVerdict_of_requireRecipient h
  · rcases Result.bind_eq_error.1 h with h | ⟨_, -, h⟩
    · rw [← (Result.orThrow_eq_error.1 h).2]
      exact ⟨rfl, by decide⟩
    · exact isVerdict_of_requireRecipient h

theorem isVerdict_of_resolve {error : WorkError} (h : resolveRenderContext directory event = .error error) : IsVerdict error := by
  unfold resolveRenderContext at h
  split at h
  · cases h
  · split at h
    · split at h
      · rw [← Except.error.inj h]
        exact ⟨rfl, by decide⟩
      · cases h
    · rw [← Except.error.inj h]
      exact ⟨rfl, by decide⟩

/-- The failures of an answerable event are verdicts, and of no other. -/
theorem isVerdict_iff (hpending : ∀ event, ∀ d, deliveryOf db e event = some d → d.status = .pending) :
    (∀ error, prepare config db directory e = .error error → IsVerdict error) ↔ Answerable config db directory e := by
  constructor
  · intro h event hevent
    have hid := bookingId_of_parse hevent
    have hobstacle : ∀ {error}, obstacles config db directory e event = .error error → IsVerdict error :=
      fun herror => h _ ((prepare_eq_error hevent (hpending event)).2 herror)
    have hroom : hasRoom db e event = true := by
      by_contra hfull
      have hquery := hobstacle (Result.bind_eq_error.2 (.inl (Result.require_eq_error.2 ⟨Bool.eq_false_iff.2 hfull, rfl⟩)))
      exact absurd hquery.1 Bool.false_ne_true
    refine ⟨hroom, fun hrecipient hcontext => ?_⟩
    obtain ⟨recipient, hrecipient⟩ := Result.isOk_iff.1 hrecipient
    obtain ⟨context, hcontext⟩ := Result.isOk_iff.1 hcontext
    cases hmessage : buildMessage config.sender e.id recipient event (notificationTemplateRegistry event.type)
        (((deliveryOf db e event).map (·.locale)).getD config.defaultLocale) context with
    | ok message => exact (buildMessage_ok_iff hid (beforeRoomNumber_of_resolve hcontext)).1 ⟨message, hmessage⟩
    | error message =>
      have htemplate := hobstacle (Result.bind_eq_error.2 (.inr ⟨(), Result.require_eq_ok.2 hroom, Result.bind_eq_error.2
        (.inr ⟨recipient, hrecipient, Result.bind_eq_error.2 (.inr ⟨context, hcontext, Result.mapError_eq_error.2 ⟨message, hmessage, rfl⟩⟩)⟩)⟩))
      exact absurd htemplate.1 Bool.false_ne_true
  · intro h error herror
    cases hevent : parseNotificationEvent config.validator e.eventType e.payload with
    | error error' =>
      have hbind : prepare config db directory e = .error (.event error') :=
        Result.bind_eq_error.2 (.inl (Result.mapError_eq_error.2 ⟨_, hevent, rfl⟩))
      rw [hbind] at herror
      rw [← Except.error.inj herror]
      exact ⟨rfl, WorkError.noConfusion⟩
    | ok event =>
      obtain ⟨hroom, hmessage⟩ := h event hevent
      rcases Result.bind_eq_error.1 ((prepare_eq_error hevent (hpending event)).1 herror) with herror | ⟨_, -, herror⟩
      · rw [(Result.require_eq_error.1 herror).1] at hroom
        cases hroom
      rcases Result.bind_eq_error.1 herror with herror | ⟨recipient, hrecipient, herror⟩
      · exact isVerdict_of_recipientFor herror
      rcases Result.bind_eq_error.1 herror with herror | ⟨context, hcontext, herror⟩
      · exact isVerdict_of_resolve herror
      obtain ⟨message, hok⟩ := (buildMessage_ok_iff (bookingId_of_parse hevent) (beforeRoomNumber_of_resolve hcontext)).2
        (hmessage (Result.isOk_iff.2 ⟨_, hrecipient⟩) (Result.isOk_iff.2 ⟨_, hcontext⟩))
      obtain ⟨_, hfailed, -⟩ := Result.mapError_eq_error.1 herror
      rw [hok] at hfailed
      cases hfailed

end Preparation

/-! ### What becomes of the event -/

/-- The job of a held event ends it, whatever the provider answers: a failed preparation fails it. -/
structure Ends (config : NotificationsConfig) (db : MailTables) (data : ClaimKey) (directory : Directory) (now : ℕ) : Prop where
  failed : ∀ error, claimWork config db data directory now = .error error → ∀ send random later,
    ∃ db', process config db data directory send random now later = .ok (db', .failed) ∧
      ∀ e ∈ db'.events, e.id = data.id → e.status = .failed
  /-- It is sent, failed, or tried again within the attempts it has. -/
  left : ∀ send random later, ∃ db' outcome, process config db data directory send random now later = .ok (db', outcome) ∧
    ∀ e ∈ db'.events, e.id = data.id → e.status = .processed ∨ e.status = .failed ∨
      (e.status = .pending ∧ data.attempt < config.maxAttempts)

section Process

variable {config : NotificationsConfig} {db : MailTables} {data : ClaimKey} {directory : Directory} {now : ℕ} {e : OutboxEvent}

/-- A result finds the held row. -/
theorem finishDelivery_held {outcome : Outcome} {deliveryId : Option ℕ} {set : EmailDelivery → EmailDelivery}
    (hids : Table.UniqueBy (·.id) db.events) (he : e ∈ db.events) (htype : e.eventType ∈ notificationEventTypes)
    (hholds : data.holds e = true) :
    (finishDelivery db (finishEvent notificationEventTypes data outcome now) data.id deliveryId set).2 = true ∧
      ∀ g ∈ (finishDelivery db (finishEvent notificationEventTypes data outcome now) data.id deliveryId set).1.events, g.id = data.id →
        g.status = (outcome.apply now e).status := by
  have hp : (finishEvent notificationEventTypes data outcome now).pred e = true := by
    simp only [finishEvent, hholds, htype, decide_true, Bool.and_self]
  have hhits : (finishEvent notificationEventTypes data outcome now).hits db.events = true := List.any_eq_true.2 ⟨e, he, hp⟩
  rw [finishDelivery, if_pos hhits]
  refine ⟨rfl, fun g hg hid => ?_⟩
  obtain ⟨x, hx, ⟨hpx, rfl⟩ | ⟨hpx, rfl⟩⟩ := Table.mem_update.1 hg
  · simp only [finishEvent, Bool.and_eq_true] at hpx
    rw [hids x hx e he ((ClaimKey.holds_iff.1 hpx.2).1.trans (ClaimKey.holds_iff.1 hholds).1.symm)]
    rfl
  · rw [hids x hx e he (hid.trans (ClaimKey.holds_iff.1 hholds).1.symm), hp] at hpx
    cases hpx

/-- A failure is recorded as one, or the event is tried again below its last attempt. -/
theorem recordProviderFailure_held {deliveryId : ℕ} {error : ProviderError} {random : ℚ}
    (hids : Table.UniqueBy (·.id) db.events) (he : e ∈ db.events) (htype : e.eventType ∈ notificationEventTypes)
    (hholds : data.holds e = true) : ∀ g ∈ (recordProviderFailure config db data deliveryId error random now).1.events, g.id = data.id →
      g.status = .failed ∨ (g.status = .pending ∧ data.attempt < config.maxAttempts) := by
  intro g hg hid
  unfold recordProviderFailure at hg
  dsimp only at hg
  split at hg
  case isTrue => exact .inl ((finishDelivery_held hids he htype hholds).2 g hg hid)
  case isFalse h =>
    simp only [Bool.or_eq_true, decide_eq_true_eq, not_or] at h
    exact .inr ⟨(finishDelivery_held hids he htype hholds).2 g hg hid, Nat.lt_of_not_le h.2⟩

/-- A job finds the row it holds. -/
theorem find_isHeld (hids : Table.UniqueBy (·.id) db.events) (he : e ∈ db.events) (hheld : isHeld data now e = true) :
    db.events.find? (isHeld data now) = some e := by
  have hid : ∀ g, isHeld data now g = true → g.id = data.id := by
    intro g hg
    simp only [isHeld, Bool.and_eq_true] at hg
    exact (ClaimKey.holds_iff.1 hg.1.2).1
  exact Table.find?_of_key hids he hheld fun g hg => (hid g hg).trans (hid e hheld).symm

theorem claimWork_error_iff (hids : Table.UniqueBy (·.id) db.events) (he : e ∈ db.events) (hheld : isHeld data now e = true)
    {error : WorkError} : claimWork config db data directory now = .error error ↔ prepare config db directory e = .error error := by
  simp only [claimWork, find_isHeld hids he hheld, Result.bind_eq_error, pure, Except.pure, reduceCtorEq, and_false, exists_false, or_false]

/-- The event of an error that is a verdict is failed. -/
theorem finishWithoutSending_held (hids : Table.UniqueBy (·.id) db.events) (he : e ∈ db.events)
    (htype : e.eventType ∈ notificationEventTypes) (hholds : data.holds e = true) {error : WorkError} (hverdict : IsVerdict error) :
    ∃ db', finishWithoutSending db data error now = .ok (db', .failed) ∧ ∀ g ∈ db'.events, g.id = data.id → g.status = .failed := by
  obtain ⟨code, hcode⟩ := Option.isSome_iff_exists.1 hverdict.1
  rw [finishWithoutSending, if_neg hverdict.2, hcode]
  exact ⟨_, rfl, (finishDelivery_held hids he htype hholds).2⟩

/-- No other error fails the event. -/
theorem isVerdict_of_failed {error : WorkError} {db' : MailTables} (h : finishWithoutSending db data error now = .ok (db', .failed)) :
    IsVerdict error := by
  unfold finishWithoutSending at h
  split at h
  case isTrue => cases h
  case isFalse hne =>
    split at h
    case h_1 code hcode => exact ⟨Option.isSome_iff_exists.2 ⟨code, hcode⟩, hne⟩
    case h_2 => cases h

/-- A prepared message leaves the event sent, failed or waiting, whatever the provider answers. -/
theorem process_prepared (hids : Table.UniqueBy (·.id) db.events) (he : e ∈ db.events) (htype : e.eventType ∈ notificationEventTypes)
    (hheld : isHeld data now e = true) {db' : MailTables} {p : PreparedNotification}
    (hprepare : prepare config db directory e = .ok (db', p)) (send : PreparedEmailMessage → Except ProviderError (Option String))
    (random : ℚ) (later : ℕ) : ∃ db'' outcome, process config db data directory send random now later = .ok (db'', outcome) ∧
      ∀ g ∈ db''.events, g.id = data.id → g.status = .processed ∨ g.status = .failed ∨
        (g.status = .pending ∧ data.attempt < config.maxAttempts) := by
  have hholds : data.holds e = true := by
    simp only [isHeld, Bool.and_eq_true] at hheld
    exact hheld.1.2
  have hevents : db'.events = db.events := by cases prepared_of_prepare hprepare <;> rfl
  have hwork : claimWork config db data directory now =
      .ok (some ({ db' with events := (DeliveryResult.renew data.id data.claimToken config.claimLeaseMs now).run db.events }, p)) := by
    simp only [claimWork, find_isHeld hids he hheld, hprepare, hevents, bind, Except.bind, pure, Except.pure]
  -- the renewed row is still held
  have hids' : Table.UniqueBy (·.id) ((DeliveryResult.renew data.id data.claimToken config.claimLeaseMs now).run db.events) :=
    hids.update fun _ => rfl
  obtain ⟨e', he', htype', hholds'⟩ : ∃ e' ∈ (DeliveryResult.renew data.id data.claimToken config.claimLeaseMs now).run db.events,
      e'.eventType ∈ notificationEventTypes ∧ data.holds e' = true := by
    cases hp : (DeliveryResult.renew data.id data.claimToken config.claimLeaseMs now).pred e
    · exact ⟨e, Table.mem_update_of_neg he hp, htype, hholds⟩
    · exact ⟨_, Table.mem_update_of_pos he hp, htype, hholds⟩
  rw [process, hwork]
  dsimp only
  split
  case h_1 => exact ⟨_, _, rfl, fun g hg hid => .inr (recordProviderFailure_held hids' he' htype' hholds' g hg hid)⟩
  case h_2 => exact ⟨_, _, rfl, fun g hg hid => .inl ((finishDelivery_held hids' he' htype' hholds').2 g hg hid)⟩

/-- A job ends its event exactly if the preparation fails of verdicts only. -/
theorem ends_iff (hids : Table.UniqueBy (·.id) db.events) (he : e ∈ db.events) (htype : e.eventType ∈ notificationEventTypes)
    (hheld : isHeld data now e = true) :
    Ends config db data directory now ↔ ∀ error, prepare config db directory e = .error error → IsVerdict error := by
  have hholds : data.holds e = true := by
    simp only [isHeld, Bool.and_eq_true] at hheld
    exact hheld.1.2
  have hprocess : ∀ {error}, prepare config db directory e = .error error → ∀ send random later,
      process config db data directory send random now later = finishWithoutSending db data error later := by
    intro error herror send random later
    rw [process, (claimWork_error_iff hids he hheld).2 herror]
  constructor
  · intro h error herror
    obtain ⟨db', hfailed, -⟩ := h.failed error ((claimWork_error_iff hids he hheld).2 herror) (fun _ => .ok none) 0 now
    exact isVerdict_of_failed (hprocess herror _ _ _ ▸ hfailed)
  · intro h
    refine ⟨fun error herror send random later => ?_, fun send random later => ?_⟩
    · have herror := (claimWork_error_iff hids he hheld).1 herror
      rw [hprocess herror]
      exact finishWithoutSending_held hids he htype hholds (h error herror)
    · cases hprepare : prepare config db directory e with
      | error error =>
        obtain ⟨db', hdb', hfailed⟩ : ∃ db', finishWithoutSending db data error later = .ok (db', .failed) ∧ _ :=
          finishWithoutSending_held hids he htype hholds (h error hprepare)
        exact ⟨db', .failed, (hprocess hprepare _ _ _).trans hdb', fun g hg hid => .inr (.inl (hfailed g hg hid))⟩
      | ok r => exact process_prepared hids he htype hheld hprepare send random later

end Process

/-! ### The result -/

/-- A held event has no delivery but a pending one. -/
theorem Mail.Inv.pending_of_held {s : Mail} (hi : s.Inv) {e : OutboxEvent} (he : e ∈ s.outbox.rows) (hs : e.status = .processing)
    (event : NotificationEvent) : ∀ d, deliveryOf s.tables e event = some d → d.status = .pending := by
  intro d hd
  have hid : d.outboxEventId = e.id := by
    have := List.find?_some hd
    simp only [Bool.and_eq_true, decide_eq_true_eq] at this
    exact this.1
  rw [hi.status (List.mem_of_find?_eq_some hd) he hid.symm, hs]
  rfl

/-- **A job ends its event** exactly if the event is answerable: in any state, for any event held under a
lease that lives. -/
theorem process_ends_iff (config : NotificationsConfig) (s : Mail) (h : (mail config).Reachable (fun _ _ => True) s) (data : ClaimKey)
    (directory : Directory) (now : ℕ) (e : OutboxEvent) (he : e ∈ s.outbox.rows) (hheld : isHeld data now e = true) :
    Ends config s.tables data directory now ↔ Answerable config s.tables directory e := by
  have hi := Mail.inv_of_reachable h
  have hheld' := hheld
  simp only [isHeld, Bool.and_eq_true, decide_eq_true_eq] at hheld'
  rw [ends_iff (Table.UniqueBy.of_nodup hi.outbox.ids) he hheld'.1.1 hheld,
    isVerdict_iff (hi.pending_of_held he (ClaimKey.holds_iff.1 hheld'.1.2).2.1)]

theorem process_ends_confirmed : Ends notificationsConfig (handedOff "VND").tables firstClaim hotelDirectory 20 := by
  refine (process_ends_iff notificationsConfig _ (.of_run (.init rfl) (fun _ _ _ => trivial) (handOff_run "VND")) firstClaim
    hotelDirectory 20 (handedOffRow "VND") List.mem_cons_self rfl).2 fun event hevent => ?_
  have hparse : parseNotificationEvent notificationsConfig.validator (handedOffRow "VND").eventType (handedOffRow "VND").payload =
    .ok (confirmedEvent "VND") := rfl
  rw [hparse] at hevent
  obtain rfl := Except.ok.inj hevent
  exact ⟨rfl, fun _ _ => ⟨by decide, by decide⟩⟩

/-- A stay priced in a currency a room can carry. -/
def usdBooking : Bookings.Booking where
  id := 1
  publicId := "01J0000000000000000000000A"
  userId := 7
  roomTimeId := 5
  checkIn := "2030-01-01"
  checkOut := "2030-01-03"
  status := .confirmed
  priceAmount := 1500000
  currency := "USD"
  rejectionReason := none
  version := 2
  createdAt := 0
  updatedAt := 0

/-- Its event, written by the booking service, is claimed and prepared, and stays where it is. -/
theorem process_usdBooking : ∃ s e, (mail notificationsConfig).Reachable (fun _ _ => True) s ∧ e ∈ s.outbox.rows ∧
    e.eventType = Bookings.BookingOutboxEventType.confirmed.text ∧ e.payload = Bookings.outboxPayload usdBooking ⟨3, "101"⟩ none none ∧
    isHeld firstClaim 20 e = true ∧
    (∀ send random later, process notificationsConfig s.tables firstClaim hotelDirectory send random 20 later =
      .error (.template "Notification price currency is unsupported.")) ∧
    ¬ Ends notificationsConfig s.tables firstClaim hotelDirectory 20 := by
  have hprocess : ∀ send random later, process notificationsConfig (handedOff "USD").tables firstClaim hotelDirectory send random 20 later =
      .error (.template "Notification price currency is unsupported.") := by
    have hwork : claimWork notificationsConfig (handedOff "USD").tables firstClaim hotelDirectory 20 =
        .error (.template "Notification price currency is unsupported.") := by
      have howner : resolveOwnerEmail notificationsConfig hotelDirectory "7" = .ok "guest@hotel.example" := by decide +kernel
      have htake : takeDelivery notificationsConfig (handedOff "USD").tables hotelDirectory mailId "7" .confirmed =
          .ok (⟨[handedOffRow "USD"], [.first 1 mailId "guest@hotel.example" .confirmed .english], [], 2⟩,
            .first 1 mailId "guest@hotel.example" .confirmed .english) := Result.bind_eq_ok.2 ⟨_, howner, rfl⟩
      have hrecipient : requireRecipient notificationsConfig "guest@hotel.example" = .ok "guest@hotel.example" := by decide +kernel
      have hevent : parseNotificationEvent notificationsConfig.validator (handedOffRow "USD").eventType (handedOffRow "USD").payload =
          .ok (confirmedEvent "USD") := rfl
      have hprepare : prepare notificationsConfig (handedOff "USD").tables hotelDirectory (handedOffRow "USD") =
          .error (.template "Notification price currency is unsupported.") := by
        refine (prepare_of_takeDelivery hevent htake rfl).2 (Result.bind_eq_error.2 (.inr ⟨_, hrecipient, ?_⟩))
        rfl
      refine (claimWork_error_iff (e := handedOffRow "USD") ?_ List.mem_cons_self rfl).2 hprepare
      exact Table.UniqueBy.of_nodup (List.nodup_singleton _)
    intro send random later
    rw [process, hwork]
    rfl
  refine ⟨handedOff "USD", handedOffRow "USD", .of_run (.init rfl) (fun _ _ _ => trivial) (handOff_run "USD"), List.mem_cons_self, rfl,
    by rfl, by rfl, hprocess, fun h => ?_⟩
  obtain ⟨db, outcome, hleft, -⟩ := h.left (fun _ => .ok none) 0 30
  rw [hprocess] at hleft
  cases hleft

end HotelBackend.Notifications
