import HotelBackend.Notifications.DeliveryWorker

/-!
# An event and its delivery agree

`Finishes` and `Prepared` say once what the transactions of a job do, `Mail.Effect` what a
step does to the tables. The invariant `Mail.Inv` reads the status of a delivery off the
status of its event.
-/

namespace HotelBackend.Notifications

open HotelBackend.Common
open HotelBackend.Theory
open HotelBackend.Outbox
open HotelBackend.Files (CallOutcome QueryOutcome)

/-! ### What a result does -/

/-- The status a delivery has while its event has this one. -/
def deliveryStatusOf : OutboxEventStatus → EmailDeliveryStatus
  | .pending | .processing => .pending
  | .processed => .sent
  | .failed => .failed

/-- The status a result statement leaves the delivery with. -/
def resultOf : Statement → Option EmailDeliveryStatus
  | .deliverySent _ => some .sent
  | .deliveryRetry .. => some .pending
  | .deliveryFailed .. => some .failed
  | _ => none

/-- A statement finishes the event of a claim. -/
structure Finishes (config : NotificationsConfig) (events : List OutboxEvent) (data : ClaimKey) (now : ℕ) (st : Statement)
    (u : Update) (status : EmailDeliveryStatus) : Prop where
  update : st.update now = some u
  result : resultOf st = some status
  key : st.key = some data
  hits : u.hits events = true
  retry : st.isRetry = true → data.attempt < config.maxAttempts

/-- A delivery keeps what it is about. -/
structure SameDelivery (d d' : EmailDelivery) : Prop where
  id : d'.id = d.id
  outboxEventId : d'.outboxEventId = d.outboxEventId
  templateKey : d'.templateKey = d.templateKey
  recipient : d'.recipient = d.recipient
  locale : d'.locale = d.locale

theorem SameDelivery.refl (d : EmailDelivery) : SameDelivery d d := ⟨rfl, rfl, rfl, rfl, rfl⟩

/-- What a result transaction of a job commits. -/
inductive Finished (config : NotificationsConfig) (db : MailTables) (data : ClaimKey) (deliveryId : Option ℕ) : MailTables → Prop where
  /-- The claim is gone. -/
  | none : Finished config db data deliveryId db
  /-- The event, and the delivery with it. -/
  | both {now : ℕ} {st : Statement} {u : Update} {status : EmailDeliveryStatus} {set : EmailDelivery → EmailDelivery} :
      Finishes config db.events data now st u status → (deliveryId = .none → status ≠ .sent) →
      (∀ d, SameDelivery d (set d)) → (∀ d, d.status = .pending → (set d).status = status) →
      Finished config db data deliveryId
        { db with events := u.run db.events,
                  deliveries := Table.update db.deliveries (fun d => addresses data.id deliveryId d && d.status = .pending) set }
  /-- The event alone: its delivery is resolved. -/
  | resolved {now : ℕ} (st : Statement) {u : Update} {status : EmailDeliveryStatus} {d : EmailDelivery} :
      Finishes config db.events data now st u status → d ∈ db.deliveries → d.outboxEventId = data.id → d.status ≠ .pending →
      Finished config db data deliveryId { db with events := u.run db.events }

section Results

variable {config : NotificationsConfig} {db : MailTables} {data : ClaimKey} {now : ℕ}

/-- `finishEvent` and `updateDelivery`, of a statement. -/
theorem finished_finishDelivery (st : Statement) {u : Update} {deliveryId : Option ℕ} {status : EmailDeliveryStatus}
    {set : EmailDelivery → EmailDelivery} (hu : st.update now = some u) (hresult : resultOf st = some status)
    (hkey : st.key = some data) (hretry : st.isRetry = true → data.attempt < config.maxAttempts)
    (hsent : deliveryId = none → status ≠ .sent) (hsame : ∀ d, SameDelivery d (set d))
    (hstatus : ∀ d, d.status = .pending → (set d).status = status) :
    Finished config db data deliveryId (finishDelivery db u data.id deliveryId set).1 := by
  unfold finishDelivery
  split
  case isTrue hhits => exact .both ⟨hu, hresult, hkey, hhits, hretry⟩ hsent hsame hstatus
  case isFalse => exact .none

theorem finished_markSent {deliveryId : ℕ} {providerMessageId : Option String} :
    Finished config db data (some deliveryId) (markSent db data deliveryId providerMessageId now).1 :=
  finished_finishDelivery (.deliverySent data) rfl rfl rfl (fun h => by cases h) (fun h => by cases h)
    (fun _ => ⟨rfl, rfl, rfl, rfl, rfl⟩) fun _ _ => rfl

theorem finished_markFailed {deliveryId : Option ℕ} {errorCode : String} :
    Finished config db data deliveryId (markFailed db data deliveryId errorCode now).1 :=
  finished_finishDelivery (.deliveryFailed data errorCode) rfl rfl rfl (fun h => by cases h) (fun _ => by decide)
    (fun _ => ⟨rfl, rfl, rfl, rfl, rfl⟩) fun _ _ => rfl

theorem finished_markRetry {deliveryId retryInMs : ℕ} {errorCode : String} (hattempt : data.attempt < config.maxAttempts) :
    Finished config db data (some deliveryId) (markRetry db data deliveryId retryInMs errorCode now).1 :=
  finished_finishDelivery (.deliveryRetry data retryInMs errorCode) rfl rfl rfl (fun _ => hattempt) (fun h => by cases h)
    (fun _ => ⟨rfl, rfl, rfl, rfl, rfl⟩) fun _ h => h

theorem finished_matchResolvedDelivery : Finished config db data none (matchResolvedDelivery db data now).1 := by
  unfold matchResolvedDelivery
  dsimp only
  split
  case h_2 => exact .none
  case h_1 d hd =>
    have hid : d.outboxEventId = data.id := by simpa using List.find?_some hd
    have hmem := List.mem_of_find?_eq_some hd
    split
    case h_1 hs =>
      split
      · exact .resolved (.deliverySent data) ⟨rfl, rfl, rfl, ‹_›, fun h => by cases h⟩ hmem hid (by rw [hs]; decide)
      · exact .none
    case h_2 hs =>
      split
      · exact .resolved (.deliveryFailed data _) ⟨rfl, rfl, rfl, ‹_›, fun h => by cases h⟩ hmem hid (by rw [hs]; decide)
      · exact .none
    case h_3 => exact .none

theorem finished_finishWithoutSending {error : WorkError} {db' : MailTables} {outcome : DeliveryOutcome}
    (h : finishWithoutSending db data error now = .ok (db', outcome)) : Finished config db data none db' := by
  unfold finishWithoutSending at h
  split at h
  · obtain ⟨rfl, -⟩ := Prod.mk.inj (Except.ok.inj h)
    exact finished_matchResolvedDelivery
  · split at h
    · obtain ⟨rfl, -⟩ := Prod.mk.inj (Except.ok.inj h)
      exact finished_markFailed
    · cases h

theorem finished_recordProviderFailure {deliveryId : ℕ} {error : ProviderError} {random : ℚ} :
    Finished config db data (some deliveryId) (recordProviderFailure config db data deliveryId error random now).1 := by
  unfold recordProviderFailure
  dsimp only
  split
  case isTrue => exact finished_markFailed
  case isFalse h =>
    simp only [Bool.or_eq_true, decide_eq_true_eq, not_or] at h
    exact finished_markRetry (Nat.lt_of_not_le h.2)

end Results

/-! ### What a preparation does -/

/-- The type of a parsed event is the event's. -/
theorem type_of_parse {validator : ClassValidator} {eventType : String} {payload : Json} {event : NotificationEvent}
    (h : parseNotificationEvent validator eventType payload = .ok event) : event.type.text = eventType := by
  obtain ⟨type, htype, h⟩ := Result.bind_eq_ok.1 h
  have htext : type.text = eventType := by simpa using List.find?_some (Result.orThrow_eq_ok.1 htype)
  obtain ⟨value, -, h⟩ := Result.bind_eq_ok.1 h
  obtain ⟨-, -, h⟩ := Result.bind_eq_ok.1 h
  obtain ⟨-, -, h⟩ := Result.bind_eq_ok.1 h
  obtain ⟨common, -, h⟩ := Result.bind_eq_ok.1 h
  rw [← htext]
  cases type with
  | confirmed =>
    obtain ⟨booking, -, h⟩ := Result.bind_eq_ok.1 h
    rw [← Result.pure_eq_ok.1 h]
    rfl
  | rejected | cancelledByAdmin =>
    obtain ⟨booking, -, h⟩ := Result.bind_eq_ok.1 h
    rw [← Result.pure_eq_ok.1 h]
    rfl
  | changed =>
    obtain ⟨booking, -, h⟩ := Result.bind_eq_ok.1 h
    obtain ⟨before, -, h⟩ := Result.bind_eq_ok.1 h
    obtain ⟨after, -, h⟩ := Result.bind_eq_ok.1 h
    obtain ⟨-, -, h⟩ := Result.bind_eq_ok.1 h
    obtain ⟨-, -, h⟩ := Result.bind_eq_ok.1 h
    rw [← Result.pure_eq_ok.1 h]
    rfl

/-- The delivery an attempt is made for. -/
inductive Prepared (db : MailTables) (e : OutboxEvent) (p : PreparedNotification) : MailTables → Prop where
  /-- It is there, and counted. -/
  | counted {d : EmailDelivery} : d ∈ db.deliveries → d.outboxEventId = e.id → d.status = .pending → p.deliveryId = d.id →
      Prepared db e p { db with deliveries := Table.update db.deliveries (·.id = d.id) .increment }
  /-- It is created: the event has none. -/
  | created {type : NotificationEventType} {recipient : String} {locale : EmailDeliveryLocale} : type.text = e.eventType →
      findDelivery db.deliveries e.id (notificationTemplateRegistry type) = none → p.deliveryId = db.nextDeliveryId →
      Prepared db e p { db with
        deliveries := db.deliveries ++ [.first db.nextDeliveryId e.id recipient (notificationTemplateRegistry type) locale],
        nextDeliveryId := db.nextDeliveryId + 1 }

theorem prepared_of_prepare {config : NotificationsConfig} {db db' : MailTables} {directory : Directory} {e : OutboxEvent}
    {p : PreparedNotification} (h : prepare config db directory e = .ok (db', p)) : Prepared db e p db' := by
  obtain ⟨event, hevent, h⟩ := Result.bind_eq_ok.1 h
  have htype := type_of_parse (Result.mapError_eq_ok.1 hevent)
  obtain ⟨⟨db₁, delivery⟩, htake, h⟩ := Result.bind_eq_ok.1 h
  obtain ⟨_, hpending, h⟩ := Result.bind_eq_ok.1 h
  obtain ⟨recipient, -, h⟩ := Result.bind_eq_ok.1 h
  obtain ⟨context, -, h⟩ := Result.bind_eq_ok.1 h
  obtain ⟨message, -, h⟩ := Result.bind_eq_ok.1 h
  obtain ⟨rfl, rfl⟩ := Prod.mk.inj (Result.pure_eq_ok.1 h)
  have hpending := of_decide_eq_true (Result.require_eq_ok.1 hpending)
  unfold takeDelivery at htake
  split at htake
  case h_1 hnone =>
    obtain ⟨recipient, -, htake⟩ := Result.bind_eq_ok.1 htake
    obtain ⟨rfl, rfl⟩ := Prod.mk.inj (Result.pure_eq_ok.1 htake)
    exact .created htype hnone rfl
  case h_2 d hd =>
    have hfound : d.outboxEventId = e.id ∧ d.templateKey = notificationTemplateRegistry event.type := by
      simpa using List.find?_some hd
    split at htake
    case isTrue hs =>
      split at htake
      · cases htake
      obtain ⟨rfl, rfl⟩ := Prod.mk.inj (Except.ok.inj htake)
      exact .counted (List.mem_of_find?_eq_some hd) hfound.1 hs rfl
    case isFalse hs =>
      obtain ⟨rfl, rfl⟩ := Prod.mk.inj (Except.ok.inj htake)
      exact absurd hpending hs

/-! ### What a redrive does -/

theorem redrive_cases (db : MailTables) (request : RedriveRequest) (now : ℕ) :
    ((redrive db request now).2.applied = false ∧ (redrive db request now).1 = db) ∨
      ((redrive db request now).2.applied = true ∧
        (∀ d ∈ db.deliveries, d.outboxEventId = request.outboxEventId → d.status ≠ .sent) ∧
        (NotificationRedrive.resetEvent request.outboxEventId now).hits db.events = true ∧
        (redrive db request now).1 =
          { db with events := (NotificationRedrive.resetEvent request.outboxEventId now).run db.events,
                    deliveries := Table.update db.deliveries (isResettable request.outboxEventId) fun d =>
                      { d with status := .pending, failedAt := none, providerMessageId := none } }) := by
  unfold redrive
  split
  case h_1 => exact .inl ⟨rfl, rfl⟩
  case h_2 e _ =>
    split
    · exact .inl ⟨rfl, rfl⟩
    split
    · exact .inl ⟨rfl, rfl⟩
    case isFalse hsent =>
      split
      · exact .inl ⟨rfl, rfl⟩
      dsimp only
      split
      case isTrue hhits =>
        refine .inr ⟨rfl, fun d hd hid hs => hsent (List.any_eq_true.2 ⟨d, hd, ?_⟩), hhits, rfl⟩
        simp only [hid, hs, decide_true, Bool.and_self]
      case isFalse => exact .inl ⟨rfl, rfl⟩

/-! ### What a step does -/

/-- The jobs after a step are about what they were about. -/
structure Mail.Keeps (s s' : Mail) : Prop where
  unique : Table.UniqueBy (·.worker) s'.workers
  work : ∀ w ∈ s'.workers, ∀ p, w.phase.work = some p → ∃ v ∈ s.workers, v.data = w.data ∧ v.phase.work = some p

/-- The step ends a job with its result. -/
def MailAction.isResult : MailAction → Bool
  | finishWithoutSending .. | markSent .. | recordProviderFailure .. => true
  | _ => false

/-- All a step does to the tables. -/
inductive Mail.Effect (config : NotificationsConfig) (s : Mail) : MailAction → Mail → Prop where
  | idle {a : MailAction} {s' : Mail} : s'.outbox = s.outbox → s'.deliveries = s.deliveries →
      s'.nextDeliveryId = s.nextDeliveryId → s.Keeps s' → Effect config s a s'
  | statement {now : ℕ} {st : Statement} {s' : Mail} : isMail st = false → s.outbox.exec now st = some s'.outbox →
      s'.deliveries = s.deliveries → s'.nextDeliveryId = s.nextDeliveryId → s.Keeps s' → Effect config s (.statement now st) s'
  | release {key : ClaimKey} {random : ℚ} {now retryInMs : ℕ} {errorCode : String} {outcome : QueryOutcome} {s' : Mail} :
      outcome ≠ .failed → s.outbox.exec now (.release .notification key retryInMs errorCode) = some s'.outbox →
      s'.deliveries = s.deliveries → s'.nextDeliveryId = s.nextDeliveryId → s.Keeps s' →
      Effect config s (.release key random now outcome) s'
  | prepared {worker : ℕ} {data : ClaimKey} {directory : Directory} {now : ℕ} {outcome : QueryOutcome} {e : OutboxEvent}
      {p : PreparedNotification} {db : MailTables} {s' : Mail} : e ∈ s.outbox.rows → isHeld data now e = true →
      Prepared s.tables e p db → s.outbox.exec now (.deliveryRenew data.id data.claimToken config.claimLeaseMs) = some s'.outbox →
      s'.deliveries = db.deliveries → s'.nextDeliveryId = db.nextDeliveryId →
      Table.UniqueBy (·.worker) s'.workers → (∀ w ∈ s'.workers, w ∈ s.workers ∨ w = ⟨worker, data, .prepared p⟩) → Effect config s (.start worker data directory now outcome) s'
  | finished {a : MailAction} {w : Worker} {deliveryId : Option ℕ} {db : MailTables} {s' : Mail} :
      a.isResult = true → w ∈ s.workers →
      (∀ id, deliveryId = some id → ∃ p, w.phase.work = some p ∧ p.deliveryId = id) → Finished config s.tables w.data deliveryId db →
      s'.outbox = { s.outbox with rows := db.events } → s'.deliveries = db.deliveries → s'.nextDeliveryId = db.nextDeliveryId →
      s.Keeps s' → Effect config s a s'
  | redriven {request : RedriveRequest} {now : ℕ} {s' : Mail} :
      (∀ d ∈ s.deliveries, d.outboxEventId = request.outboxEventId → d.status ≠ .sent) →
      (NotificationRedrive.resetEvent request.outboxEventId now).hits s.outbox.rows = true →
      s.outbox.exec now (.redrive request.outboxEventId) = some s'.outbox →
      s'.deliveries = Table.update s.deliveries (isResettable request.outboxEventId) (fun d =>
        { d with status := .pending, failedAt := none, providerMessageId := none }) →
      s'.nextDeliveryId = s.nextDeliveryId → s.Keeps s' → Effect config s (.redrive request now) s'

section Effects

variable {config : NotificationsConfig} {s s' : Mail}

theorem Mail.Keeps.refl (hu : Table.UniqueBy (·.worker) s.workers) (hs : s'.workers = s.workers) : s.Keeps s' :=
  ⟨hs ▸ hu, fun w hw _ hp => ⟨w, hs ▸ hw, rfl, hp⟩⟩

/-- A job that moves on stays about the same attempt. -/
theorem Mail.Keeps.move {w : Worker} {old phase : WorkerPhase} (hu : Table.UniqueBy (·.worker) s.workers)
    (hs : s'.workers = s.workers) (hw : w ∈ s.workers) (hold : w.phase = old) (hwork : phase.work = old.work) : s.Keeps (s'.move w.worker phase) where
  unique := (hs ▸ hu : Table.UniqueBy (·.worker) s'.workers).update fun _ => rfl
  work v hv p hp := by
    obtain ⟨u, hmem, ⟨hid, rfl⟩ | ⟨-, rfl⟩⟩ := Table.mem_update.1 hv
    · rw [hs] at hmem
      obtain rfl := hu u hmem w hw (of_decide_eq_true hid)
      exact ⟨u, hmem, rfl, (congrArg WorkerPhase.work hold).trans (hwork.symm.trans hp)⟩
    · exact ⟨u, hs ▸ hmem, rfl, hp⟩

theorem Mail.Keeps.leave {worker : ℕ} (hu : Table.UniqueBy (·.worker) s.workers) (hs : s'.workers = s.workers) :
    s.Keeps (s'.leave worker) where
  unique := (hs ▸ hu : Table.UniqueBy (·.worker) s'.workers).delete
  work v hv _ hp := ⟨v, hs ▸ (Table.mem_delete.1 hv).1, rfl, hp⟩

/-- A new job that has prepared nothing. -/
theorem Mail.Keeps.append {worker : ℕ} {data : ClaimKey} {error : WorkError} (hu : Table.UniqueBy (·.worker) s.workers)
    (hs : s'.workers = s.workers ++ [⟨worker, data, .failing error⟩]) (hnew : ∀ w ∈ s.workers, w.worker ≠ worker) : s.Keeps s' where
  unique := hs ▸ hu.insert hnew
  work v hv p hp := by
    rw [hs, List.mem_append, List.mem_singleton] at hv
    rcases hv with hv | rfl
    · exact ⟨v, hv, rfl, hp⟩
    · cases hp

theorem Mail.worker_eq_some {worker : ℕ} {w : Worker} (h : s.worker worker = some w) : w ∈ s.workers ∧ w.worker = worker :=
  ⟨List.mem_of_find?_eq_some h, by simpa using List.find?_some h⟩

theorem Mail.settle_workers {db : MailTables} {outcome : QueryOutcome} : (s.settle db outcome).workers = s.workers := by
  cases outcome <;> rfl

/-- The end of a job, with what its transaction commits. -/
theorem Mail.Effect.settle {a : MailAction} {w : Worker} {deliveryId : Option ℕ} {db : MailTables} {outcome : QueryOutcome}
    (hu : Table.UniqueBy (·.worker) s.workers) (ha : a.isResult = true) (hw : w ∈ s.workers)
    (hdelivery : ∀ id, deliveryId = some id → ∃ p, w.phase.work = some p ∧ p.deliveryId = id)
    (hf : Finished config s.tables w.data deliveryId db) : Effect config s a ((s.settle db outcome).leave w.worker) := by
  have hkeeps : s.Keeps ((s.settle db outcome).leave w.worker) := .leave hu Mail.settle_workers
  have hnext : db.nextDeliveryId = s.nextDeliveryId := by cases hf <;> rfl
  cases outcome with
  | failed => exact .idle rfl rfl rfl hkeeps
  | committed | lostReply => exact .finished ha hw hdelivery hf rfl rfl rfl hkeeps

/-- What `claimWork` does. -/
theorem Mail.effect_start {worker : ℕ} {data : ClaimKey} {directory : Directory} {now : ℕ} {outcome : QueryOutcome}
    (hu : Table.UniqueBy (·.worker) s.workers) (hnew : ∀ w ∈ s.workers, w.worker ≠ worker) :
    Effect config s (.start worker data directory now outcome) (s.start config worker data directory now outcome) := by
  have hprepared : ∀ {db p}, claimWork config s.tables data directory now = .ok (some (db, p)) → ∃ e db₁, e ∈ s.outbox.rows ∧
      isHeld data now e = true ∧ Prepared s.tables e p db₁ ∧ db = { db₁ with
        events := (DeliveryResult.renew data.id data.claimToken config.claimLeaseMs now).run s.outbox.rows } := by
    intro db p h
    unfold claimWork at h
    split at h
    · cases h
    case h_2 e he =>
      obtain ⟨⟨db₁, p₁⟩, hprepare, h⟩ := Result.bind_eq_ok.1 h
      obtain ⟨rfl, rfl⟩ := Prod.mk.inj (Option.some.inj (Result.pure_eq_ok.1 h))
      have hp := prepared_of_prepare hprepare
      refine ⟨e, db₁, List.mem_of_find?_eq_some he, List.find?_some he, hp, ?_⟩
      have hevents : db₁.events = s.outbox.rows := by cases hp <;> rfl
      rw [hevents]
  unfold Mail.start
  split
  · exact .idle rfl rfl rfl (.refl hu rfl)
  · exact .idle rfl rfl rfl (.refl hu rfl)
  · exact .idle rfl rfl rfl (.append hu rfl hnew)
  case h_4 hwork =>
    obtain ⟨e, db₁, he, hheld, hp, rfl⟩ := hprepared hwork
    exact .prepared he hheld hp rfl rfl rfl hu fun w hw => .inl hw
  case h_5 hwork =>
    obtain ⟨e, db₁, he, hheld, hp, rfl⟩ := hprepared hwork
    refine .prepared he hheld hp rfl rfl rfl (hu.insert hnew) fun w hw => ?_
    exact (List.mem_append.1 hw).imp_right List.mem_singleton.1

theorem Mail.effect_of_exec {a : MailAction} (hu : Table.UniqueBy (·.worker) s.workers) (h : s.exec config a = some s') :
    Effect config s a s' := by
  cases a with
  | statement now st =>
    simp only [exec] at h
    split at h
    · cases h
    case isFalse hst =>
      obtain ⟨outbox, hexec, rfl⟩ := Option.map_eq_some_iff.1 h
      exact .statement (Bool.eq_false_iff.2 hst) hexec rfl rfl (.refl hu rfl)
  | enqueue key outcome =>
    simp only [exec] at h
    split at h
    case isTrue =>
      obtain rfl := Option.some.inj h
      cases outcome <;> exact .idle rfl rfl rfl (.refl hu rfl)
    case isFalse => cases h
  | lateAdd key =>
    simp only [exec] at h
    split at h
    case isTrue => exact Option.some.inj h ▸ .idle rfl rfl rfl (.refl hu rfl)
    case isFalse => cases h
  | remove key => exact Option.some.inj h ▸ .idle rfl rfl rfl (.refl hu rfl)
  | release key random now outcome =>
    simp only [exec] at h
    split at h
    case isFalse => cases h
    obtain rfl := Option.some.inj h
    unfold Mail.release
    dsimp only
    split
    · exact .idle rfl rfl rfl (.refl hu rfl)
    case isFalse houtcome => exact .release houtcome rfl rfl rfl (.refl hu rfl)
  | start worker data directory now outcome =>
    simp only [exec] at h
    split at h
    · cases h
    case isFalse hnew =>
      simp only [Bool.or_eq_true, not_or, List.any_eq_true, decide_eq_true_eq, not_exists, not_and] at hnew
      exact Option.some.inj h ▸ Mail.effect_start hu hnew.1
  | finishWithoutSending worker now outcome =>
    simp only [exec, Option.bind_eq_bind, Option.bind_eq_some_iff] at h
    obtain ⟨w, hw, h⟩ := h
    obtain ⟨hmem, rfl⟩ := Mail.worker_eq_some hw
    split at h
    case h_2 => cases h
    split at h
    case h_1 hfinish =>
      obtain rfl := Option.some.inj h
      exact .settle hu rfl hmem (fun id hid => by cases hid) (finished_finishWithoutSending hfinish)
    case h_2 => exact Option.some.inj h ▸ .idle rfl rfl rfl (.leave hu rfl)
  | send worker =>
    simp only [exec, Option.bind_eq_bind, Option.bind_eq_some_iff] at h
    obtain ⟨w, hw, h⟩ := h
    obtain ⟨hmem, rfl⟩ := Mail.worker_eq_some hw
    split at h
    case h_2 => cases h
    case h_1 hphase =>
      obtain rfl := Option.some.inj h
      have hkeeps : s.Keeps (s.move w.worker (.sending _)) := .move hu rfl hmem hphase rfl
      exact .idle rfl rfl rfl ⟨hkeeps.unique, hkeeps.work⟩
  | reply worker result =>
    simp only [exec, Option.bind_eq_bind, Option.bind_eq_some_iff] at h
    obtain ⟨w, hw, h⟩ := h
    obtain ⟨hmem, rfl⟩ := Mail.worker_eq_some hw
    split at h
    case h_3 => cases h
    all_goals
      rename_i hphase
      obtain rfl := Option.some.inj h
      exact .idle rfl rfl rfl (.move hu rfl hmem hphase rfl)
  | recordAcceptance worker now outcome =>
    simp only [exec, Option.bind_eq_bind, Option.bind_eq_some_iff] at h
    obtain ⟨w, hw, h⟩ := h
    obtain ⟨hmem, rfl⟩ := Mail.worker_eq_some hw
    split at h
    case h_2 => cases h
    case h_1 hphase =>
      obtain rfl := Option.some.inj h
      cases outcome <;> exact .idle rfl rfl rfl (.move hu rfl hmem hphase rfl)
  | markSent worker now outcome =>
    simp only [exec, Option.bind_eq_bind, Option.bind_eq_some_iff] at h
    obtain ⟨w, hw, h⟩ := h
    obtain ⟨hmem, rfl⟩ := Mail.worker_eq_some hw
    split at h
    case h_2 => cases h
    case h_1 p _ hphase =>
      obtain rfl := Option.some.inj h
      exact .settle hu rfl hmem (fun id hid => ⟨p, hphase ▸ rfl, Option.some.inj hid⟩) finished_markSent
  | recordProviderFailure worker random now outcome =>
    simp only [exec, Option.bind_eq_bind, Option.bind_eq_some_iff] at h
    obtain ⟨w, hw, h⟩ := h
    obtain ⟨hmem, rfl⟩ := Mail.worker_eq_some hw
    split at h
    case h_2 => cases h
    case h_1 p _ hphase =>
      obtain rfl := Option.some.inj h
      exact .settle hu rfl hmem (fun id hid => ⟨p, hphase ▸ rfl, Option.some.inj hid⟩) finished_recordProviderFailure
  | crash worker => exact Option.some.inj h ▸ .idle rfl rfl rfl (.leave hu rfl)
  | redrive request now =>
    have hdone : ∀ sends, Effect config s (.redrive request now)
        { s.commit (Notifications.redrive s.tables request now).1 with sends := sends } := by
      intro sends
      rcases redrive_cases s.tables request now with ⟨-, hdb⟩ | ⟨-, hsent, hhits, hdb⟩
      · rw [hdb]
        exact .idle rfl rfl rfl (.refl hu rfl)
      · rw [hdb]
        exact .redriven hsent hhits rfl rfl rfl (.refl hu rfl)
    exact Option.some.inj h ▸ hdone _

end Effects

/-! ### The invariant -/

/-- The invariant of the family. -/
structure Mail.Inv (s : Mail) : Prop where
  outbox : Outbox.Inv s.outbox
  jobs : Table.UniqueBy (·.worker) s.workers
  ids : (s.deliveries.map (·.id)).Nodup
  fresh : ∀ d ∈ s.deliveries, d.id < s.nextDeliveryId
  one : Table.UniqueBy (·.outboxEventId) s.deliveries
  /-- The event of a delivery has its status, and its template. -/
  events : ∀ d ∈ s.deliveries, ∃ e ∈ s.outbox.rows, e.id = d.outboxEventId ∧ d.status = deliveryStatusOf e.status ∧
    ∃ type : NotificationEventType, type.text = e.eventType ∧ d.templateKey = notificationTemplateRegistry type
  sent : ∀ e ∈ s.outbox.rows, e.eventType ∈ notificationEventTypes → e.status = .processed → ∃ d ∈ s.deliveries, d.outboxEventId = e.id
  /-- A job is about the delivery of its event. -/
  work : ∀ w ∈ s.workers, ∀ p, w.phase.work = some p → ∃ d ∈ s.deliveries, d.id = p.deliveryId ∧ d.outboxEventId = w.data.id

section Inv

variable {config : NotificationsConfig} {s s' : Mail} {now : ℕ}

theorem NotificationEventType.text_mem (type : NotificationEventType) : type.text ∈ notificationEventTypes := by
  cases type <;> decide

theorem NotificationEventType.text_injective {type type' : NotificationEventType} (h : type.text = type'.text) : type = type' := by
  cases type <;> cases type' <;> first | rfl | exact absurd h (by decide)

/-- The delivery of an event has the status of the event. -/
theorem Mail.Inv.status (hi : s.Inv) {d : EmailDelivery} (hd : d ∈ s.deliveries) {e : OutboxEvent} (he : e ∈ s.outbox.rows)
    (hid : e.id = d.outboxEventId) : d.status = deliveryStatusOf e.status := by
  obtain ⟨g, hg, hgd, hstatus, -⟩ := hi.events d hd
  obtain rfl := Table.UniqueBy.of_nodup hi.outbox.ids g hg e he (hgd.trans hid.symm)
  exact hstatus

/-- The invariant is carried over an update of the deliveries, if each goes with its event. -/
theorem Mail.Inv.carry (hi : s.Inv) {p : EmailDelivery → Bool} {set : EmailDelivery → EmailDelivery}
    (hout : Outbox.Inv s'.outbox) (hdeliveries : s'.deliveries = Table.update s.deliveries p set)
    (hsame : ∀ d, SameDelivery d (set d)) (hnext : s'.nextDeliveryId = s.nextDeliveryId) (hkeeps : s.Keeps s')
    (hrow : ∀ d ∈ s.deliveries, ∀ e ∈ s.outbox.rows, e.id = d.outboxEventId → e.eventType ∈ notificationEventTypes →
      ∃ e' ∈ s'.outbox.rows, e'.id = e.id ∧ e'.eventType = e.eventType ∧
        (if p d then set d else d).status = deliveryStatusOf e'.status)
    (hsent : ∀ e' ∈ s'.outbox.rows, e'.eventType ∈ notificationEventTypes → e'.status = .processed →
      ∃ d ∈ s.deliveries, d.outboxEventId = e'.id) : s'.Inv := by
  have hmem : ∀ d' ∈ s'.deliveries, ∃ d ∈ s.deliveries, d' = (if p d then set d else d) ∧ SameDelivery d d' := by
    intro d' hd'
    rw [hdeliveries] at hd'
    obtain ⟨d, hd, ⟨hp, rfl⟩ | ⟨hp, rfl⟩⟩ := Table.mem_update.1 hd'
    · exact ⟨d, hd, by rw [if_pos hp], hsame d⟩
    · exact ⟨d, hd, by rw [hp, if_neg Bool.false_ne_true], .refl d⟩
  have hback : ∀ d ∈ s.deliveries, ∃ d' ∈ s'.deliveries, SameDelivery d d' := by
    intro d hd
    rw [hdeliveries]
    cases hp : p d
    · exact ⟨d, Table.mem_update_of_neg hd hp, .refl d⟩
    · exact ⟨set d, Table.mem_update_of_pos hd hp, hsame d⟩
  refine ⟨hout, hkeeps.unique, ?_, ?_, ?_, ?_, ?_, ?_⟩
  · rw [hdeliveries, Table.map_update fun d _ _ => (hsame d).id]
    exact hi.ids
  · intro d' hd'
    obtain ⟨d, hd, -, hs⟩ := hmem d' hd'
    rw [hs.id, hnext]
    exact hi.fresh d hd
  · exact hdeliveries ▸ hi.one.update fun d => (hsame d).outboxEventId
  · intro d' hd'
    obtain ⟨d, hd, hset, hs⟩ := hmem d' hd'
    obtain ⟨e, he, hid, -, type, htype, hkey⟩ := hi.events d hd
    obtain ⟨e', he', hid', htype', hstatus⟩ := hrow d hd e he hid (htype ▸ type.text_mem)
    refine ⟨e', he', hid'.trans (hid.trans hs.outboxEventId.symm), hset ▸ hstatus, type, htype.trans htype'.symm, ?_⟩
    exact hs.templateKey.trans hkey
  · intro e' he' htype hprocessed
    obtain ⟨d, hd, hid⟩ := hsent e' he' htype hprocessed
    obtain ⟨d', hd', hs⟩ := hback d hd
    exact ⟨d', hd', hs.outboxEventId.trans hid⟩
  · intro w hw q hq
    obtain ⟨v, hv, hdata, hwork⟩ := hkeeps.work w hw q hq
    obtain ⟨d, hd, hid, hevent⟩ := hi.work v hv q hwork
    obtain ⟨d', hd', hs⟩ := hback d hd
    exact ⟨d', hd', hs.id.trans hid, hs.outboxEventId.trans (hevent.trans (congrArg ClaimKey.id hdata))⟩

/-- A statement that is no result and no redrive leaves a mail event what it is to its delivery. -/
theorem status_of_quiet {st : Statement} {u : Update} {e : OutboxEvent} (hu : st.update now = some u) (hresult : resultOf st = none)
    (hredrive : st.isRedrive = false) (hl : e.leaseState = true) (htype : e.eventType ∈ notificationEventTypes)
    (hp : u.pred e = true) : deliveryStatusOf (u.set e).status = deliveryStatusOf e.status := by
  have hc := change_of_update hu hl hp
  obtain ⟨f, hfam, hf⟩ := hc.family
  obtain rfl := Family.eventTypes_disjoint (g := .notification) hf htype
  cases st with
  | release family key =>
    obtain ⟨-, hs, -⟩ := ClaimKey.holds_iff.1 (hc.holds key rfl)
    obtain rfl := Option.some.inj hu
    rw [hs]
    rfl
  | deliveryRenew =>
    obtain rfl := Option.some.inj hu
    rfl
  | insert | claim => cases hu
  | redrive => cases hredrive
  | deliverySent | deliveryRetry | deliveryFailed => cases hresult
  | exportRenew | exportComplete | exportRetry | exportFail | lifecyclePublished | lifecycleRetry | lifecycleFailed => cases hfam

/-- What such a statement does to the mail events. -/
theorem quiet_step {st : Statement} {o o' : State} (hi : Outbox.Inv o) (h : o.exec now st = some o') (hresult : resultOf st = none)
    (hredrive : st.isRedrive = false) :
    (∀ e ∈ o.rows, e.eventType ∈ notificationEventTypes → ∃ e' ∈ o'.rows, e'.id = e.id ∧ e'.eventType = e.eventType ∧
      deliveryStatusOf e'.status = deliveryStatusOf e.status) ∧
    (∀ e' ∈ o'.rows, e'.eventType ∈ notificationEventTypes → e'.status = .processed → e' ∈ o.rows) := by
  cases effect_of_exec h with
  | insert =>
    refine ⟨fun e he _ => ⟨e, List.mem_append_left _ he, rfl, rfl, rfl⟩, fun e' he' _ hs => ?_⟩
    rcases List.mem_append.1 he' with he' | he'
    · exact he'
    · rw [List.mem_singleton.1 he'] at hs
      cases hs
  | claimFailed => exact ⟨fun e he _ => ⟨e, he, rfl, rfl, rfl⟩, fun e' he' _ _ => he'⟩
  | claim _ hclaim =>
    have hcl := claimBatch_ok hi.ids hclaim
    constructor
    · intro e he _
      rw [hcl.table]
      cases hp : (claimUpdate _ _ now).pred e
      · exact ⟨e, Table.mem_update_of_neg he hp, rfl, rfl, rfl⟩
      · refine ⟨_, Table.mem_update_of_pos he hp, rfl, rfl, ?_⟩
        have hel := hcl.eligible e he (claimUpdate_pred.1 hp).1
        simp only [isExpired, isDue, Bool.and_eq_true, decide_eq_true_eq] at hel
        rcases hel with hel | hel <;> rw [hel.1.2] <;> rfl
    · intro e' he' _ hs
      obtain ⟨e, he, ⟨rfl, -⟩ | rfl⟩ := hcl.mem hi.ids he'
      · cases hs
      · exact he
  | @update _ u hu =>
    constructor
    · intro e he htype
      cases hp : u.pred e
      · exact ⟨e, Table.mem_update_of_neg he hp, rfl, rfl, rfl⟩
      · have hc := change_of_update hu (hi.lease e he) hp
        exact ⟨_, Table.mem_update_of_pos he hp, hc.id, hc.eventType, status_of_quiet hu hresult hredrive (hi.lease e he) htype hp⟩
    · intro e' he' htype hs
      obtain ⟨e, he, ⟨hp, rfl⟩ | ⟨-, rfl⟩⟩ := Table.mem_update.1 he'
      · have hc := change_of_update hu (hi.lease e he) hp
        have hstatus := status_of_quiet hu hresult hredrive (hi.lease e he) (hc.eventType ▸ htype) hp
        rw [hs] at hstatus
        rcases hc.held with ⟨-, -, hs', -⟩ | ⟨-, hr, -⟩
        · rw [hs'] at hstatus
          cases hstatus
        · rw [hredrive] at hr
          cases hr
      · exact he

/-- A step that leaves the deliveries alone. -/
theorem Mail.Inv.quiet {st : Statement} (hi : s.Inv) (h : s.outbox.exec now st = some s'.outbox) (hresult : resultOf st = none)
    (hredrive : st.isRedrive = false) (hdeliveries : s'.deliveries = s.deliveries) (hnext : s'.nextDeliveryId = s.nextDeliveryId)
    (hkeeps : s.Keeps s') : s'.Inv := by
  obtain ⟨hrows, hprocessed⟩ := quiet_step hi.outbox h hresult hredrive
  refine hi.carry (inv_step hi.outbox h) (hdeliveries.trans Table.update_none.symm) .refl hnext hkeeps ?_ fun e' he' htype hs => ?_
  · intro d hd e he hid htype
    obtain ⟨e', he', hid', htype', hstatus⟩ := hrows e he htype
    exact ⟨e', he', hid', htype', (hi.status hd he hid).trans hstatus.symm⟩
  · exact hi.sent e' (hprocessed e' he' htype hs) htype hs

/-- What the result statements leave. -/
theorem status_of_result {st : Statement} {u : Update} {status : EmailDeliveryStatus} (hu : st.update now = some u)
    (hresult : resultOf st = some status) (e : OutboxEvent) : deliveryStatusOf (u.set e).status = status := by
  cases st with
  | deliverySent | deliveryRetry | deliveryFailed =>
    obtain rfl := Option.some.inj hu
    exact Option.some.inj hresult
  | _ => cases hresult

/-- The end of a job. -/
theorem Mail.Inv.finish {w : Worker} {deliveryId : Option ℕ} {db : MailTables} (hi : s.Inv) (hw : w ∈ s.workers)
    (hdelivery : ∀ id, deliveryId = some id → ∃ p, w.phase.work = some p ∧ p.deliveryId = id)
    (hf : Finished config s.tables w.data deliveryId db) (hout : s'.outbox = { s.outbox with rows := db.events })
    (hdeliveries : s'.deliveries = db.deliveries) (hnext : s'.nextDeliveryId = db.nextDeliveryId) (hkeeps : s.Keeps s') : s'.Inv := by
  -- the delivery a job has prepared
  have hown : ∀ id, deliveryId = some id → ∃ d ∈ s.deliveries, d.id = id ∧ d.outboxEventId = w.data.id := by
    intro id hid
    obtain ⟨p, hp, rfl⟩ := hdelivery id hid
    exact hi.work w hw p hp
  -- the row a statement matches is the held row of the job
  have hheld : ∀ {now st u status}, Finishes config s.outbox.rows w.data now st u status → ∀ e ∈ s.outbox.rows, u.pred e = true →
      e.id = w.data.id ∧ e.status = .processing := by
    intro now st u status hfin e he hp
    have hholds := (change_of_update hfin.update (hi.outbox.lease e he) hp).holds _ hfin.key
    exact ⟨(ClaimKey.holds_iff.1 hholds).1, (ClaimKey.holds_iff.1 hholds).2.1⟩
  cases hf with
  | none =>
    have hrows : s'.outbox = s.outbox := hout
    refine hi.carry (hrows ▸ hi.outbox) (hdeliveries.trans Table.update_none.symm) .refl hnext hkeeps ?_ fun e' he' htype hs => hi.sent e' (hrows ▸ he') htype hs
    exact fun d hd e he hid _ => ⟨e, hrows ▸ he, rfl, rfl, hi.status hd he hid⟩
  | @resolved now st u status d hfin hd hid hpending =>
    obtain ⟨e, he, hp⟩ := List.any_eq_true.1 hfin.hits
    obtain ⟨heid, hs⟩ := hheld hfin e he hp
    refine absurd ?_ hpending
    rw [hi.status hd he (heid.trans hid.symm), hs]
    rfl
  | @both now st u status set hfin hsent hsame hset =>
    have hexec : s.outbox.exec now st = some s'.outbox := hout ▸ exec_of_update hfin.update
    obtain ⟨e₀, he₀, hp₀⟩ := List.any_eq_true.1 hfin.hits
    obtain ⟨hid₀, hs₀⟩ := hheld hfin e₀ he₀ hp₀
    refine hi.carry (inv_step hi.outbox hexec) hdeliveries hsame hnext hkeeps ?_ ?_
    · intro d hd e he hid htype
      cases hp : u.pred e
      · -- the delivery of another event is not addressed
        refine ⟨e, ?_, rfl, rfl, ?_⟩
        · rw [hout]
          exact Table.mem_update_of_neg he hp
        · have hne : d.outboxEventId ≠ w.data.id := by
            intro h
            obtain rfl := Table.UniqueBy.of_nodup hi.outbox.ids e he e₀ he₀ (hid.trans (h.trans hid₀.symm))
            rw [hp₀] at hp
            cases hp
          have hnot : addresses w.data.id deliveryId d = false := by
            cases hdel : deliveryId with
            | none => exact decide_eq_false hne
            | some id =>
              obtain ⟨d₁, hd₁, hid₁, hevent⟩ := hown id hdel
              refine decide_eq_false fun h => hne ?_
              rw [Table.UniqueBy.of_nodup hi.ids d hd d₁ hd₁ (h.trans hid₁.symm)]
              exact hevent
          rw [hnot, Bool.false_and, if_neg Bool.false_ne_true]
          exact hi.status hd he hid
      · -- the delivery of the event is
        obtain ⟨heid, hs⟩ := hheld hfin e he hp
        have hc := change_of_update hfin.update (hi.outbox.lease e he) hp
        refine ⟨_, ?_, hc.id, hc.eventType, ?_⟩
        · rw [hout]
          exact Table.mem_update_of_pos he hp
        · have hdpending : d.status = .pending := by
            rw [hi.status hd he hid, hs]
            rfl
          have hyes : addresses w.data.id deliveryId d = true := by
            cases hdel : deliveryId with
            | none => exact decide_eq_true (hid.symm.trans heid)
            | some id =>
              obtain ⟨d₁, hd₁, hid₁, hevent⟩ := hown id hdel
              obtain rfl := hi.one d₁ hd₁ d hd (hevent.trans (heid.symm.trans hid))
              exact decide_eq_true hid₁
          rw [if_pos (by rw [hyes, hdpending]; rfl), hset d hdpending]
          exact (status_of_result hfin.update hfin.result e).symm
    · intro e' he' htype hprocessed
      rw [hout] at he'
      obtain ⟨e, he, ⟨hp, rfl⟩ | ⟨-, rfl⟩⟩ := Table.mem_update.1 he'
      · have hstatus := status_of_result hfin.update hfin.result e
        rw [hprocessed] at hstatus
        have hc := change_of_update hfin.update (hi.outbox.lease e he) hp
        cases hdel : deliveryId with
        | none => exact absurd hstatus.symm (hsent hdel)
        | some id =>
          obtain ⟨d₁, hd₁, -, hevent⟩ := hown id hdel
          exact ⟨d₁, hd₁, hevent.trans ((hheld hfin e he hp).1.symm.trans hc.id.symm)⟩
      · exact hi.sent _ he htype hprocessed

/-- A redrive. -/
theorem Mail.Inv.redrive {id : String} (hi : s.Inv)
    (hhits : (NotificationRedrive.resetEvent id now).hits s.outbox.rows = true)
    (hexec : s.outbox.exec now (.redrive id) = some s'.outbox)
    (hdeliveries : s'.deliveries = Table.update s.deliveries (isResettable id) fun d =>
      { d with status := .pending, failedAt := none, providerMessageId := none })
    (hnext : s'.nextDeliveryId = s.nextDeliveryId) (hkeeps : s.Keeps s') : s'.Inv := by
  have hrows : s'.outbox.rows = (NotificationRedrive.resetEvent id now).run s.outbox.rows :=
    congrArg State.rows (Option.some.inj hexec).symm
  obtain ⟨e₀, he₀, hp₀⟩ := List.any_eq_true.1 hhits
  have hpred : ∀ e : OutboxEvent, (NotificationRedrive.resetEvent id now).pred e = true ↔
      (e.id = id ∧ e.eventType ∈ notificationEventTypes) ∧ e.status = .failed := by
    intro e
    simp only [NotificationRedrive.resetEvent, Bool.and_eq_true, decide_eq_true_eq]
  refine hi.carry (inv_step hi.outbox hexec) hdeliveries (fun _ => ⟨rfl, rfl, rfl, rfl, rfl⟩) hnext hkeeps ?_ ?_
  · intro d hd e he hid htype
    rw [hrows]
    cases hp : (NotificationRedrive.resetEvent id now).pred e
    · refine ⟨e, Table.mem_update_of_neg he hp, rfl, rfl, ?_⟩
      have hnot : isResettable id d = false := by
        refine Bool.eq_false_iff.2 fun h => ?_
        simp only [isResettable, Bool.and_eq_true, decide_eq_true_eq] at h
        obtain rfl := Table.UniqueBy.of_nodup hi.outbox.ids e he e₀ he₀ (hid.trans (h.1.trans ((hpred e₀).1 hp₀).1.1.symm))
        rw [hp₀] at hp
        cases hp
      rw [hnot, if_neg Bool.false_ne_true]
      exact hi.status hd he hid
    · obtain ⟨⟨heid, -⟩, hs⟩ := (hpred e).1 hp
      refine ⟨_, Table.mem_update_of_pos he hp, rfl, rfl, ?_⟩
      have hfailed : d.status = .failed := by
        rw [hi.status hd he hid, hs]
        rfl
      rw [if_pos]
      · rfl
      · simp only [isResettable, hfailed, hid.symm.trans heid, decide_true, Bool.and_self]
  · intro e' he' htype hs
    rw [hrows] at he'
    obtain ⟨e, he, ⟨-, rfl⟩ | ⟨-, rfl⟩⟩ := Table.mem_update.1 he'
    · cases hs
    · exact hi.sent _ he htype hs

/-- A new job. -/
theorem Mail.Inv.prepare {worker : ℕ} {data : ClaimKey} {leaseMs : ℕ} {e : OutboxEvent} {p : PreparedNotification} {db : MailTables}
    (hi : s.Inv) (he : e ∈ s.outbox.rows) (hheld : isHeld data now e = true) (hp : Prepared s.tables e p db)
    (hexec : s.outbox.exec now (.deliveryRenew data.id data.claimToken leaseMs) = some s'.outbox)
    (hdeliveries : s'.deliveries = db.deliveries) (hnext : s'.nextDeliveryId = db.nextDeliveryId)
    (hjobs : Table.UniqueBy (·.worker) s'.workers) (hworkers : ∀ w ∈ s'.workers, w ∈ s.workers ∨ w = ⟨worker, data, .prepared p⟩) :
    s'.Inv := by
  simp only [isHeld, Bool.and_eq_true, decide_eq_true_eq] at hheld
  obtain ⟨hid, hs, -⟩ := ClaimKey.holds_iff.1 hheld.1.2
  obtain ⟨hrows, hprocessed⟩ := quiet_step hi.outbox hexec rfl rfl
  -- the jobs that were there, then the new one
  have hold : (⟨s'.outbox, s'.deliveries, s'.sendAttempts, s'.nextDeliveryId, s'.queue, s'.tried, s'.acknowledged, s'.released,
      s.workers, s'.sends⟩ : Mail).Inv ∧ ∃ d ∈ s'.deliveries, d.id = p.deliveryId ∧ d.outboxEventId = data.id := by
    cases hp with
    | @counted d hd hevent hpending hdelivery =>
      constructor
      · refine hi.carry (inv_step hi.outbox hexec) hdeliveries (fun _ => ⟨rfl, rfl, rfl, rfl, rfl⟩) hnext (.refl hi.jobs rfl) ?_
          fun e' he' htype hs => hi.sent e' (hprocessed e' he' htype hs) htype hs
        intro d₁ hd₁ e₁ he₁ hid₁ htype
        obtain ⟨e', he', hid', htype', hstatus⟩ := hrows e₁ he₁ htype
        refine ⟨e', he', hid', htype', ?_⟩
        rw [hstatus, ← hi.status hd₁ he₁ hid₁]
        split <;> rfl
      · refine ⟨d.increment, ?_, hdelivery.symm, hevent.trans hid⟩
        rw [hdeliveries]
        exact Table.mem_update_of_pos hd (decide_eq_true rfl)
    | @created type recipient locale htype hnone hdelivery =>
      have hnew : ∀ d ∈ s.deliveries, d.outboxEventId ≠ e.id := by
        intro d hd hevent
        obtain ⟨g, hg, hgid, -, type', htype', hkey⟩ := hi.events d hd
        obtain rfl := Table.UniqueBy.of_nodup hi.outbox.ids g hg e he (hgid.trans hevent)
        obtain rfl := NotificationEventType.text_injective (htype'.trans htype.symm)
        have := List.find?_eq_none.1 hnone d hd
        simp [hevent, hkey] at this
      constructor
      · refine ⟨inv_step hi.outbox hexec, hi.jobs, ?_, ?_, ?_, ?_, ?_, ?_⟩
        · show (s'.deliveries.map (·.id)).Nodup
          rw [hdeliveries, List.map_append]
          refine List.Nodup.append hi.ids (List.nodup_singleton _) fun id hid hid' => ?_
          obtain ⟨d, hd, rfl⟩ := List.mem_map.1 hid
          exact (hi.fresh d hd).ne (List.mem_singleton.1 hid')
        · show ∀ d ∈ s'.deliveries, d.id < s'.nextDeliveryId
          rw [hdeliveries, hnext]
          exact List.forall_mem_append.2 ⟨fun d hd => Nat.lt_succ_of_lt (hi.fresh d hd), List.forall_mem_singleton.2 (Nat.lt_succ_self _)⟩
        · exact hdeliveries ▸ hi.one.insert hnew
        · show ∀ d ∈ s'.deliveries, _
          rw [hdeliveries]
          refine List.forall_mem_append.2 ⟨fun d hd => ?_, List.forall_mem_singleton.2 ?_⟩
          · obtain ⟨g, hg, hgid, hgs, type', htype', hkey⟩ := hi.events d hd
            obtain ⟨e', he', hid', het', hstatus⟩ := hrows g hg (htype' ▸ type'.text_mem)
            exact ⟨e', he', hid'.trans hgid, hgs.trans hstatus.symm, type', htype'.trans het'.symm, hkey⟩
          · obtain ⟨e', he', hid', het', hstatus⟩ := hrows e he hheld.1.1
            refine ⟨e', he', hid', ?_, type, htype.trans het'.symm, rfl⟩
            rw [hstatus, hs]
            rfl
        · intro e' he' htype' hs'
          obtain ⟨d, hd, hevent⟩ := hi.sent e' (hprocessed e' he' htype' hs') htype' hs'
          exact ⟨d, hdeliveries ▸ List.mem_append_left _ hd, hevent⟩
        · intro w hw q hq
          obtain ⟨d, hd, hdelivery, hevent⟩ := hi.work w hw q hq
          exact ⟨d, hdeliveries ▸ List.mem_append_left _ hd, hdelivery, hevent⟩
      · refine ⟨.first s.nextDeliveryId e.id recipient (notificationTemplateRegistry type) locale, ?_, hdelivery.symm, hid⟩
        rw [hdeliveries]
        exact List.mem_append_right _ List.mem_cons_self
  obtain ⟨hinv, hdelivery⟩ := hold
  refine ⟨hinv.outbox, hjobs, hinv.ids, hinv.fresh, hinv.one, hinv.events, hinv.sent, fun w hw q hq => ?_⟩
  rcases hworkers w hw with hw | rfl
  · exact hinv.work w hw q hq
  · obtain rfl := Option.some.inj hq
    exact hdelivery

/-- Every step keeps the invariant. -/
theorem Mail.Inv.step {a : MailAction} (hi : s.Inv) (h : s.exec config a = some s') : s'.Inv := by
  cases Mail.effect_of_exec hi.jobs h with
  | idle hout hdeliveries hnext hkeeps =>
    refine hi.carry (hout ▸ hi.outbox) (hdeliveries.trans Table.update_none.symm) .refl hnext hkeeps ?_ ?_
    · exact fun d hd e he hid _ => ⟨e, hout ▸ he, rfl, rfl, hi.status hd he hid⟩
    · exact fun e' he' htype hs => hi.sent e' (hout ▸ he') htype hs
  | @statement _ st _ hst hexec hdeliveries hnext hkeeps =>
    refine hi.quiet hexec ?_ ?_ hdeliveries hnext hkeeps
    · cases st <;> first | rfl | cases hst
    · cases st <;> first | rfl | cases hst
  | release _ hexec hdeliveries hnext hkeeps => exact hi.quiet hexec rfl rfl hdeliveries hnext hkeeps
  | prepared he hheld hp hexec hdeliveries hnext hjobs hworkers =>
    exact hi.prepare he hheld hp hexec hdeliveries hnext hjobs hworkers
  | finished _ hw hdelivery hf hout hdeliveries hnext hkeeps => exact hi.finish hw hdelivery hf hout hdeliveries hnext hkeeps
  | redriven _ hhits hexec hdeliveries hnext hkeeps => exact hi.redrive hhits hexec hdeliveries hnext hkeeps

theorem Mail.inv_of_reachable {C : Mail → MailAction → Prop} (h : (mail config).Reachable C s) : s.Inv := by
  refine h.invariant ?_ fun s a s' hi _ he => hi.step he
  rintro s rfl
  have hnil : ∀ {α : Type} {P : α → Prop}, ∀ x ∈ ([] : List α), P x := fun _ hx => absurd hx List.not_mem_nil
  exact ⟨Outbox.inv_of_reachable (.init rfl), hnil, List.nodup_nil, hnil, hnil, hnil, hnil, hnil⟩

end Inv

/-! ### The statements of a step -/

/-- The statements of a job. -/
inductive JobStatement (config : NotificationsConfig) : Statement → Prop where
  | renew (id claimToken : String) : JobStatement config (.deliveryRenew id claimToken config.claimLeaseMs)
  | sent (key : ClaimKey) : JobStatement config (.deliverySent key)
  | retry {key : ClaimKey} (retryInMs : ℕ) (errorCode : String) : key.attempt < config.maxAttempts →
      JobStatement config (.deliveryRetry key retryInMs errorCode)
  | failed (key : ClaimKey) (errorCode : String) : JobStatement config (.deliveryFailed key errorCode)

/-- The statement an action runs, if it runs one. -/
def Owns (config : NotificationsConfig) : MailAction → Statement → Prop
  | .statement _ st, st' => st' = st ∧ isMail st = false
  | .release key _ _ outcome, st => outcome ≠ .failed ∧ ∃ retryInMs errorCode, st = .release .notification key retryInMs errorCode
  | .redrive request _, st => st = .redrive request.outboxEventId
  | _, st => JobStatement config st

section Statements

variable {config : NotificationsConfig} {s s' : Mail}

theorem Finishes.jobStatement {events : List OutboxEvent} {data : ClaimKey} {now : ℕ} {st : Statement} {u : Update}
    {status : EmailDeliveryStatus} (h : Finishes config events data now st u status) : JobStatement config st := by
  cases st with
  | deliverySent key => exact .sent key
  | deliveryRetry key => exact .retry _ _ (Option.some.inj h.key ▸ h.retry rfl)
  | deliveryFailed key errorCode => exact .failed key errorCode
  | _ => cases h.result

/-- A step leaves the outbox alone, or runs a statement of its own. -/
theorem Mail.outbox_of_exec {a : MailAction} (hu : Table.UniqueBy (·.worker) s.workers) (h : s.exec config a = some s') :
    s'.outbox = s.outbox ∨ ∃ now st, s.outbox.exec now st = some s'.outbox ∧ Owns config a st := by
  have hjob : ∀ {w : Worker} {deliveryId : Option ℕ} {db : MailTables}, Finished config s.tables w.data deliveryId db →
      s'.outbox = { s.outbox with rows := db.events } →
      s'.outbox = s.outbox ∨ ∃ now st, s.outbox.exec now st = some s'.outbox ∧ JobStatement config st := by
    intro w deliveryId db hf hout
    cases hf with
    | none => exact .inl hout
    | both hfin => exact .inr ⟨_, _, hout ▸ exec_of_update hfin.update, hfin.jobStatement⟩
    | resolved _ hfin => exact .inr ⟨_, _, hout ▸ exec_of_update hfin.update, hfin.jobStatement⟩
  cases Mail.effect_of_exec hu h with
  | idle hout => exact .inl hout
  | statement hst hexec => exact .inr ⟨_, _, hexec, rfl, hst⟩
  | release houtcome hexec => exact .inr ⟨_, _, hexec, houtcome, _, _, rfl⟩
  | prepared _ _ _ hexec => exact .inr ⟨_, _, hexec, .renew _ _⟩
  | redriven _ _ hexec => exact .inr ⟨_, _, hexec, rfl⟩
  | finished ha _ _ hf hout =>
    cases a with
    | finishWithoutSending | markSent | recordProviderFailure => exact hjob hf hout
    | _ => cases ha

/-- A statement of another process, or a step of a job other than its send. -/
def MailAction.isFramed : MailAction → Bool
  | enqueue .. | lateAdd .. | remove .. | release .. | send .. | redrive .. => false
  | _ => true

/-- Such a step changes the tables and the jobs only. -/
theorem Mail.frame_of_exec {β : Type} (f : Mail → β) (hf : ∀ (s : Mail) outbox deliveries sendAttempts nextDeliveryId workers,
      f { s with outbox := outbox, deliveries := deliveries, sendAttempts := sendAttempts, nextDeliveryId := nextDeliveryId,
                 workers := workers } = f s)
    {a : MailAction} (ha : a.isFramed = true) (h : s.exec config a = some s') : f s' = f s := by
  have hsettle : ∀ db outcome worker, f ((s.settle db outcome).leave worker) = f s := by
    intro db outcome worker
    cases outcome with
    | failed => exact hf s s.outbox s.deliveries s.sendAttempts s.nextDeliveryId _
    | committed | lostReply => exact hf s { s.outbox with rows := db.events } db.deliveries db.sendAttempts db.nextDeliveryId _
  have hworkers : ∀ workers, f { s with workers := workers } = f s :=
    fun workers => hf s s.outbox s.deliveries s.sendAttempts s.nextDeliveryId workers
  cases a with
  | enqueue | lateAdd | remove | release | send | redrive => cases ha
  | statement now st =>
    simp only [exec] at h
    split at h
    · cases h
    · obtain ⟨outbox, -, rfl⟩ := Option.map_eq_some_iff.1 h
      exact hf s outbox s.deliveries s.sendAttempts s.nextDeliveryId s.workers
  | start worker data directory now outcome =>
    simp only [exec] at h
    split at h
    · cases h
    obtain rfl := Option.some.inj h
    unfold Mail.start
    split
    · rfl
    · rfl
    · exact hworkers _
    case h_4 db _ _ => exact hf s { s.outbox with rows := db.events } db.deliveries db.sendAttempts db.nextDeliveryId s.workers
    case h_5 db _ _ => exact hf s { s.outbox with rows := db.events } db.deliveries db.sendAttempts db.nextDeliveryId _
  | finishWithoutSending worker now outcome =>
    simp only [exec, Option.bind_eq_bind, Option.bind_eq_some_iff] at h
    obtain ⟨w, -, h⟩ := h
    split at h
    · split at h
      · exact Option.some.inj h ▸ hsettle _ _ _
      · exact Option.some.inj h ▸ hworkers _
    · cases h
  | reply worker result =>
    simp only [exec, Option.bind_eq_bind, Option.bind_eq_some_iff] at h
    obtain ⟨w, -, h⟩ := h
    split at h
    · exact Option.some.inj h ▸ hworkers _
    · exact Option.some.inj h ▸ hworkers _
    · cases h
  | recordAcceptance worker now outcome =>
    simp only [exec, Option.bind_eq_bind, Option.bind_eq_some_iff] at h
    obtain ⟨w, -, h⟩ := h
    split at h
    · obtain rfl := Option.some.inj h
      cases outcome with
      | failed => exact hworkers _
      | committed | lostReply => exact hf s _ _ _ _ _
    · cases h
  | markSent worker now outcome | recordProviderFailure worker random now outcome =>
    simp only [exec, Option.bind_eq_bind, Option.bind_eq_some_iff] at h
    obtain ⟨w, -, h⟩ := h
    split at h
    · exact Option.some.inj h ▸ hsettle _ _ _
    · cases h
  | crash worker => exact Option.some.inj h ▸ hworkers _

end Statements

/-! ### The results -/

/-- An event and its delivery agree, in a state and in what can follow it. -/
structure Agreement (config : NotificationsConfig) (s : Mail) : Prop where
  /-- An event has at most one delivery. -/
  one : ∀ e ∈ s.outbox.rows, (s.deliveries.filter (·.outboxEventId = e.id)).length ≤ 1
  processed : ∀ e ∈ s.outbox.rows, e.eventType ∈ notificationEventTypes →
    (e.status = .processed ↔ ∃ d ∈ s.deliveries, d.outboxEventId = e.id ∧ d.status = .sent)
  failed : ∀ e ∈ s.outbox.rows, e.status = .failed → ∀ d ∈ s.deliveries, d.outboxEventId = e.id → d.status = .failed
  waiting : ∀ e ∈ s.outbox.rows, e.status = .pending ∨ e.status = .processing →
    ∀ d ∈ s.deliveries, d.outboxEventId = e.id → d.status = .pending
  /-- What a delivery is about never changes. -/
  snapshot : ∀ as s', (mail config).run s as = some s' → ∀ d ∈ s.deliveries, ∃ d' ∈ s'.deliveries, SameDelivery d d'
  /-- A job that has a message to send for a processed event committed its `claimWork` before. -/
  sends : ∀ as s', (mail config).run s as = some s' → ∀ e ∈ s.outbox.rows, e.status = .processed →
    ∀ w ∈ s'.workers, w.data.id = e.id → ∀ p, w.phase.work = some p → ∃ v ∈ s.workers, v.data = w.data ∧ v.phase.work = some p

section Agreement

variable {config : NotificationsConfig} {s s' : Mail}

theorem SameDelivery.trans {d d' d'' : EmailDelivery} (h : SameDelivery d d') (h' : SameDelivery d' d'') : SameDelivery d d'' :=
  ⟨h'.id.trans h.id, h'.outboxEventId.trans h.outboxEventId, h'.templateKey.trans h.templateKey,
    h'.recipient.trans h.recipient, h'.locale.trans h.locale⟩

/-- Deliveries stay, and are about what they were about. -/
theorem Mail.sameDelivery_step {a : MailAction} (hu : Table.UniqueBy (·.worker) s.workers) (h : s.exec config a = some s')
    {d : EmailDelivery} (hd : d ∈ s.deliveries) : ∃ d' ∈ s'.deliveries, SameDelivery d d' := by
  have hupdate : ∀ {p set}, s'.deliveries = Table.update s.deliveries p set → (∀ d, SameDelivery d (set d)) →
      ∃ d' ∈ s'.deliveries, SameDelivery d d' := by
    intro p set hdeliveries hset
    rw [hdeliveries]
    cases hp : p d
    · exact ⟨d, Table.mem_update_of_neg hd hp, .refl d⟩
    · exact ⟨set d, Table.mem_update_of_pos hd hp, hset d⟩
  cases Mail.effect_of_exec hu h with
  | idle _ hdeliveries | statement _ _ hdeliveries | release _ _ hdeliveries => exact ⟨d, hdeliveries ▸ hd, .refl d⟩
  | prepared _ _ hp _ hdeliveries =>
    cases hp with
    | counted => exact hupdate hdeliveries fun _ => ⟨rfl, rfl, rfl, rfl, rfl⟩
    | created => exact ⟨d, hdeliveries ▸ List.mem_append_left _ hd, .refl d⟩
  | finished _ _ _ hf _ hdeliveries =>
    cases hf with
    | none | resolved => exact ⟨d, hdeliveries ▸ hd, .refl d⟩
    | both _ _ hsame => exact hupdate hdeliveries hsame
  | redriven _ _ _ hdeliveries => exact hupdate hdeliveries fun _ => ⟨rfl, rfl, rfl, rfl, rfl⟩

/-- A processed event stays as it is. -/
theorem Mail.processed_step {a : MailAction} (hi : s.Inv) (h : s.exec config a = some s') {e : OutboxEvent} (he : e ∈ s.outbox.rows)
    (hs : e.status = .processed) : e ∈ s'.outbox.rows := by
  rcases Mail.outbox_of_exec hi.jobs h with hout | ⟨now, st, hexec, -⟩
  · exact hout ▸ he
  · rcases permitted_of_exec hi.outbox hexec he with hmem | ⟨e', -, hp⟩
    · exact hmem
    · exact absurd hs hp.processed

/-- A job that prepares a message holds the event. -/
theorem Mail.work_step {a : MailAction} (hi : s.Inv) (h : s.exec config a = some s') {e : OutboxEvent} (he : e ∈ s.outbox.rows)
    (hs : e.status = .processed) {w : Worker} (hw : w ∈ s'.workers) (hid : w.data.id = e.id) {p : PreparedNotification}
    (hp : w.phase.work = some p) : ∃ v ∈ s.workers, v.data = w.data ∧ v.phase.work = some p := by
  cases Mail.effect_of_exec hi.jobs h with
  | idle _ _ _ hkeeps | statement _ _ _ _ hkeeps | release _ _ _ _ hkeeps | finished _ _ _ _ _ _ _ hkeeps
  | redriven _ _ _ _ _ hkeeps => exact hkeeps.work w hw p hp
  | prepared hg hheld _ _ _ _ _ hworkers =>
    rcases hworkers w hw with hw | rfl
    · exact ⟨w, hw, rfl, hp⟩
    · simp only [isHeld, Bool.and_eq_true] at hheld
      obtain ⟨hgid, hgs, -⟩ := ClaimKey.holds_iff.1 hheld.1.2
      obtain rfl := Table.UniqueBy.of_nodup hi.outbox.ids _ hg e he (hgid.trans hid)
      rw [hs] at hgs
      cases hgs

/-- **An event and its delivery agree** in every reachable state. -/
theorem mail_agreement (config : NotificationsConfig) (s : Mail) (h : (mail config).Reachable (fun _ _ => True) s) :
    Agreement config s where
  one e he := by
    have hi := Mail.inv_of_reachable h
    refine Table.length_le_one ((hi.ids.of_map _).sublist List.filter_sublist) fun d hd d' hd' => ?_
    rw [List.mem_filter, decide_eq_true_eq] at hd hd'
    exact hi.one d hd.1 d' hd'.1 (hd.2.trans hd'.2.symm)
  processed e he htype := by
    have hi := Mail.inv_of_reachable h
    constructor
    · intro hs
      obtain ⟨d, hd, hid⟩ := hi.sent e he htype hs
      refine ⟨d, hd, hid, ?_⟩
      rw [hi.status hd he hid.symm, hs]
      rfl
    · rintro ⟨d, hd, hid, hs⟩
      rw [hi.status hd he hid.symm] at hs
      cases hes : e.status <;> rw [hes] at hs <;> first | rfl | cases hs
  failed e he hs d hd hid := by
    rw [(Mail.inv_of_reachable h).status hd he hid.symm, hs]
    rfl
  waiting e he hs d hd hid := by
    rw [(Mail.inv_of_reachable h).status hd he hid.symm]
    rcases hs with hs | hs <;> rw [hs] <;> rfl
  snapshot as s' hr d hd := by
    refine (Machine.run_induction (M := mail config) (I := fun s' => s'.Inv ∧ ∃ d' ∈ s'.deliveries, SameDelivery d d')
      (P := fun _ _ => True) ?_ (fun _ _ _ => trivial) ⟨Mail.inv_of_reachable h, d, hd, .refl d⟩ hr).2
    rintro s a s' ⟨hi, d', hd', hsame⟩ - he
    obtain ⟨d'', hd'', hsame'⟩ := Mail.sameDelivery_step hi.jobs he hd'
    exact ⟨hi.step he, d'', hd'', hsame.trans hsame'⟩
  sends as s' hr e he hs := by
    refine (Machine.run_induction (M := mail config) (P := fun _ _ => True) (I := fun s' => s'.Inv ∧ e ∈ s'.outbox.rows ∧
      ∀ w ∈ s'.workers, w.data.id = e.id → ∀ p, w.phase.work = some p → ∃ v ∈ s.workers, v.data = w.data ∧ v.phase.work = some p)
      ?_ (fun _ _ _ => trivial) ⟨Mail.inv_of_reachable h, he, fun w hw _ p hp => ⟨w, hw, rfl, hp⟩⟩ hr).2.2
    rintro t a t' ⟨hi, hmem, hworkers⟩ - hexec
    refine ⟨hi.step hexec, Mail.processed_step hi hexec hmem hs, fun w hw hid p hp => ?_⟩
    obtain ⟨v, hv, hdata, hwork⟩ := Mail.work_step hi hexec hmem hs hw hid hp
    obtain ⟨u, hu, hdata', hwork'⟩ := hworkers v hv (hdata ▸ hid) p hwork
    exact ⟨u, hu, hdata'.trans hdata, hwork'⟩

end Agreement

/-- The accepted settings. -/
def notificationsConfig : NotificationsConfig where
  maxAttempts := 5
  claimLeaseMs := 120000
  backoffInitialMs := 30000
  backoffMaxMs := 3600000
  sender := ⟨"Hotel", "no-reply@hotel.example", "hotel.example"⟩
  defaultLocale := .english
  validator := ⟨(· ∈ ["USD", "VND"]), (· = "guest@hotel.example")⟩
  toLowerCase := fun value => String.ofList (value.toList.map Char.toLower)

/-- A confirmed stay, as its event tells of it. -/
def confirmedEvent (currency : String) : NotificationEvent := .confirmed ⟨"01J0000000000000000000000A", "7", 2⟩
  ⟨⟨"3", "101"⟩, "2030-01-01", "2030-01-03", .confirmed, ⟨1500000, currency⟩⟩

/-- And as its writer writes it. -/
def confirmedPayload (currency : String) : Json :=
  .obj [("schemaVersion", .num 1), ("bookingId", .str "01J0000000000000000000000A"), ("ownerUserId", .str "7"),
    ("bookingVersion", .num 2), ("booking", .obj [("room", .obj [("id", .str "3"), ("roomNumber", .str "101")]),
      ("checkIn", .str "2030-01-01"), ("checkOut", .str "2030-01-03"), ("status", .str "CONFIRMED"),
      ("price", .obj [("amount", .num 1500000), ("currency", .str currency)])])]

/-- The guest and the room. -/
def hotelDirectory : Directory := ⟨fun _ => some "guest@hotel.example", fun _ => some "101"⟩

/-- A claim of the family. -/
def claimMail (claimToken : String) : Statement := .claim .notification 10 120000 claimToken (fun _ => false) fun _ => false

def mailId : String := "3f1c0a52-8d3e-4b6a-9c57-2f10e6a7b841"

def firstClaim : ClaimKey := ⟨mailId, "first", 1⟩

/-- The event is written, claimed and handed to the queue. -/
def handOff (currency : String) : List MailAction :=
  [.statement 0 (.insert mailId "booking.confirmed" (confirmedPayload currency) "booking.confirmed:1"),
   .statement 10 (claimMail "first"), .enqueue firstClaim .done]

/-- The event, claimed. -/
def handedOffRow (currency : String) : OutboxEvent :=
  { OutboxEvent.fresh mailId "booking.confirmed" (confirmedPayload currency) "booking.confirmed:1" 0 with
    status := .processing, lockedAt := some 10, lockExpiresAt := some 120000010, lockedBy := some "first", attempts := 1 }

/-- Where that leads. -/
def handedOff (currency : String) : Mail where
  outbox := ⟨[handedOffRow currency], [firstClaim]⟩
  deliveries := []
  sendAttempts := []
  nextDeliveryId := 1
  queue := ⟨[firstClaim], [], [firstClaim], [firstClaim]⟩
  tried := [firstClaim]
  acknowledged := [firstClaim]
  released := []
  workers := []
  sends := []

theorem handOff_run (currency : String) : (mail notificationsConfig).run .empty (handOff currency) = some (handedOff currency) := by
  rfl

/-- The job has a message to send. -/
def readyToSend (message : PreparedEmailMessage) : Mail :=
  { handedOff "VND" with
    outbox := ⟨(DeliveryResult.renew mailId "first" 120000 20).run (handedOff "VND").outbox.rows, [firstClaim]⟩
    deliveries := [.first 1 mailId "guest@hotel.example" .confirmed .english]
    nextDeliveryId := 2
    workers := [⟨0, firstClaim, .prepared ⟨1, .confirmed, .confirmed, .english, "guest@hotel.example", message⟩⟩] }

/-- The mail can be made. -/
theorem message_ok : ∃ message, buildMessage notificationsConfig.sender mailId "guest@hotel.example" (confirmedEvent "VND") .confirmed
    .english ⟨none⟩ = .ok message := by
  obtain ⟨content, hcontent⟩ : ∃ content, render catalogs (confirmedEvent "VND") .confirmed .english ⟨none⟩ = .ok content :=
    render_ok (by decide) (by decide) fun h => by cases h
  exact ⟨_, Result.bind_eq_ok.2 ⟨(), Result.require_eq_ok.2 (by decide), Result.bind_eq_ok.2 ⟨content, hcontent, rfl⟩⟩⟩

/-- A job whose message is prepared, when the answer arrives. -/
theorem start_of_claimWork {config : NotificationsConfig} {s : Mail} {worker : ℕ} {data : ClaimKey} {directory : Directory} {now : ℕ}
    {db : MailTables} {prepared : PreparedNotification} (h : claimWork config s.tables data directory now = .ok (some (db, prepared))) :
    Mail.start config s worker data directory now .committed =
      { s.commit db with workers := s.workers ++ [⟨worker, data, .prepared prepared⟩] } := by
  simp only [Mail.start, h]

theorem start_run : ∃ message, (mail notificationsConfig).exec (handedOff "VND") (.start 0 firstClaim hotelDirectory 20 .committed) =
    some (readyToSend message) := by
  obtain ⟨message, hmessage⟩ := message_ok
  refine ⟨message, ?_⟩
  have hwork : claimWork notificationsConfig (handedOff "VND").tables firstClaim hotelDirectory 20 =
      .ok (some ((readyToSend message).tables, ⟨1, .confirmed, .confirmed, .english, "guest@hotel.example", message⟩)) := by
    have hrow : (handedOff "VND").tables.events.find? (isHeld firstClaim 20) = some (handedOffRow "VND") := rfl
    have hprepare : prepare notificationsConfig (handedOff "VND").tables hotelDirectory (handedOffRow "VND") =
        .ok (⟨[handedOffRow "VND"], [.first 1 mailId "guest@hotel.example" .confirmed .english], [], 2⟩,
          ⟨1, .confirmed, .confirmed, .english, "guest@hotel.example", message⟩) := by
      have hevent : parseNotificationEvent notificationsConfig.validator (handedOffRow "VND").eventType (handedOffRow "VND").payload =
        .ok (confirmedEvent "VND") := rfl
      have howner : resolveOwnerEmail notificationsConfig hotelDirectory "7" = .ok "guest@hotel.example" := by decide +kernel
      have htake : takeDelivery notificationsConfig (handedOff "VND").tables hotelDirectory mailId "7" .confirmed =
          .ok (⟨[handedOffRow "VND"], [.first 1 mailId "guest@hotel.example" .confirmed .english], [], 2⟩,
            .first 1 mailId "guest@hotel.example" .confirmed .english) := Result.bind_eq_ok.2 ⟨_, howner, rfl⟩
      exact prepare_eq_ok _ hevent htake rfl (by decide +kernel) rfl hmessage
    rw [claimWork, hrow]
    simp only [hprepare]
    rfl
  have hexec : (mail notificationsConfig).exec (handedOff "VND") (.start 0 firstClaim hotelDirectory 20 .committed) =
      some (Mail.start notificationsConfig (handedOff "VND") 0 firstClaim hotelDirectory 20 .committed) := by rfl
  rw [hexec, start_of_claimWork hwork]
  rfl

/-- Then it is sent, and the event is processed. -/
def sentMail : List MailAction := handOff "VND" ++ [.start 0 firstClaim hotelDirectory 20 .committed, .send 0, .reply 0 (.ok none),
  .recordAcceptance 0 30 .committed, .markSent 0 40 .committed]

/-- What becomes of the message does not depend on its text. -/
theorem readyToSend_run (message : PreparedEmailMessage) :
    ((mail notificationsConfig).run (readyToSend message) [.send 0, .reply 0 (.ok none), .recordAcceptance 0 30 .committed,
      .markSent 0 40 .committed]).map (fun s => (s.outbox.rows.map (·.status), s.deliveries.map fun d => (d.status, d.recipient))) =
    some ([.processed], [(.sent, "guest@hotel.example")]) := by
  rfl

theorem mail_agreement_sentMail : ∃ s, (mail notificationsConfig).run .empty sentMail = some s ∧
    s.outbox.rows.map (·.status) = [.processed] ∧
    (s.deliveries.map fun d => (d.status, d.recipient)) = [(.sent, "guest@hotel.example")] ∧ Agreement notificationsConfig s := by
  obtain ⟨message, hstart⟩ := start_run
  obtain ⟨s, hs, hview⟩ := Option.map_eq_some_iff.1 (readyToSend_run message)
  obtain ⟨hevents, hdeliveries⟩ := Prod.mk.inj hview
  have hrun : (mail notificationsConfig).run .empty sentMail = some s := by
    rw [sentMail, Machine.run_append, handOff_run, Option.bind_some, Machine.run_cons]
    exact Option.bind_eq_some_iff.2 ⟨_, hstart, hs⟩
  exact ⟨s, hrun, hevents, hdeliveries, mail_agreement notificationsConfig s (.of_run (.init rfl) (fun _ _ _ => trivial) hrun)⟩

end HotelBackend.Notifications
