import HotelBackend.Notifications.Agreement

/-!
# Operators who redrive

`NotificationRedriveRepository.redrive` a statement at a time, by any number of operators next to the dispatchers
and the workers of `Mail`: the event is locked and then its deliveries, acceptances are counted without a lock, the
event is reset and then the deliveries. A redrive of an event that another redrive holds waits.

The statements of the others are let through as they come. A lock would stop them no more than the status does:
nobody but a redrive writes to a failed event or its delivery (`Operators.Inv.mailStep`), so what a redrive has read
of them is so when it commits.
-/

namespace HotelBackend.Notifications

open HotelBackend.Common
open HotelBackend.Theory
open HotelBackend.Outbox

/-! ### The transaction -/

/-- How far a redrive is. -/
inductive RedrivePhase where
  /-- `lockEvent` found it failed. -/
  | eventLocked
  /-- `lockDeliveries` found none that is sent. -/
  | deliveriesLocked
  /-- `countAccepted` found nothing, or was not asked. -/
  | checked
  /-- `resetEvent`, at `now`. -/
  | eventReset (now : ℕ)
  | ended (result : RedriveResult)
  /-- The connection is lost, and the transaction rolled back. -/
  | lost
  deriving DecidableEq, Repr

/-- The locks are held. -/
def RedrivePhase.isRunning : RedrivePhase → Bool
  | ended _ | lost => false
  | _ => true

/-- A redrive, and what it has read. -/
structure RedriveTransaction where
  operator : ℕ
  request : RedriveRequest
  event : Option OutboxEventStatus
  deliveries : List EmailDeliveryStatus
  accepted : ℕ
  phase : RedrivePhase
  deriving DecidableEq, Repr

/-- `lockEvent`, and what is made of it. -/
def lockEvent (rows : List OutboxEvent) (operator : ℕ) (request : RedriveRequest) : RedriveTransaction :=
  match rows.find? fun e => e.id = request.outboxEventId && e.eventType ∈ notificationEventTypes with
  | none => ⟨operator, request, none, [], 0, .ended (refuse request .eventNotFound none)⟩
  | some event =>
    if event.status ≠ .failed then
      ⟨operator, request, some event.status, [], 0, .ended (refuse request .eventNotFailed (some event.status))⟩
    else ⟨operator, request, some event.status, [], 0, .eventLocked⟩

/-- The mail and its operators. -/
structure Operators where
  mail : Mail
  transactions : List RedriveTransaction

inductive OperatorAction where
  /-- A step of a dispatcher, the queue, a worker or the provider. -/
  | mail (a : MailAction)
  | lockEvent (operator : ℕ) (request : RedriveRequest)
  | lockDeliveries (operator : ℕ)
  | countAccepted (operator : ℕ)
  | resetEvent (operator now : ℕ)
  /-- `resetDeliveries`, and the commit. -/
  | resetDeliveries (operator : ℕ)
  | lose (operator : ℕ)

/-- The redrives of `Mail` are whole transactions; here they are not. -/
def MailAction.isRedrive : MailAction → Bool
  | redrive .. => true
  | _ => false

/-- What `resetDeliveries` writes. -/
def EmailDelivery.reset (d : EmailDelivery) : EmailDelivery := { d with status := .pending, failedAt := none, providerMessageId := none }

/-- The mail once a redrive is committed. -/
def Mail.redriven (mail : Mail) (id : String) (now : ℕ) : Mail :=
  { mail with
    outbox := { mail.outbox with rows := (NotificationRedrive.resetEvent id now).run mail.outbox.rows }
    deliveries := Table.update mail.deliveries (isResettable id) .reset
    sends := mail.sends.filter (·.id ≠ id) }

namespace Operators

def transaction (s : Operators) (operator : ℕ) : Option RedriveTransaction := s.transactions.find? (·.operator = operator)

/-- The row of the event is locked. -/
def holds (s : Operators) (outboxEventId : String) : Bool :=
  s.transactions.any fun t => t.request.outboxEventId = outboxEventId && t.phase.isRunning

/-- The transaction goes on as `t`. -/
def set (s : Operators) (t : RedriveTransaction) : Operators :=
  { s with transactions := Table.update s.transactions (·.operator = t.operator) fun _ => t }

def exec (config : NotificationsConfig) (s : Operators) : OperatorAction → Option Operators
  | .mail a => if a.isRedrive then none else (s.mail.exec config a).map fun mail => { s with mail := mail }
  | .lockEvent operator request =>
    if s.transactions.any (·.operator = operator) || s.holds request.outboxEventId then none
    else some { s with transactions := s.transactions ++ [Notifications.lockEvent s.mail.outbox.rows operator request] }
  | .lockDeliveries operator => do
    let t ← s.transaction operator
    match t.phase with
    | .eventLocked =>
      let deliveries := (s.mail.deliveries.filter (·.outboxEventId = t.request.outboxEventId)).map (·.status)
      let phase := if .sent ∈ deliveries then .ended (refuse t.request .deliveryAlreadySent t.event) else .deliveriesLocked
      some (s.set { t with deliveries := deliveries, phase := phase })
    | _ => none
  | .countAccepted operator => do
    let t ← s.transaction operator
    match t.phase with
    | .deliveriesLocked =>
      if t.request.allowDuplicate then some (s.set { t with phase := .checked })
      else
        let accepted := Notifications.countAccepted s.mail.sendAttempts t.request.outboxEventId
        let phase := if 0 < accepted then .ended (refuse t.request .providerAlreadyAccepted t.event) else .checked
        some (s.set { t with accepted := accepted, phase := phase })
    | _ => none
  | .resetEvent operator now => do
    let t ← s.transaction operator
    match t.phase with
    | .checked =>
      let reset := NotificationRedrive.resetEvent t.request.outboxEventId now
      let phase := if reset.hits s.mail.outbox.rows then .eventReset now else .ended (refuse t.request .eventNotFailed t.event)
      some (s.set { t with phase := phase })
    | _ => none
  | .resetDeliveries operator => do
    let t ← s.transaction operator
    match t.phase with
    | .eventReset now =>
      let id := t.request.outboxEventId
      let result := ⟨true, .redriven, id, t.event, Table.affected s.mail.deliveries (isResettable id)⟩
      some ({ s with mail := s.mail.redriven id now }.set { t with phase := .ended result })
    | _ => none
  | .lose operator => do
    let t ← s.transaction operator
    if t.phase.isRunning then some (s.set { t with phase := .lost }) else none

end Operators

/-- Runs of the mail and its operators. -/
def operators (config : NotificationsConfig) : Machine Operators OperatorAction where
  init s := s = ⟨.empty, []⟩
  exec := Operators.exec config

/-! ### What a redrive may rely on -/

/-- What a redrive has read allows it. -/
def RedriveTransaction.MayRedrive (t : RedriveTransaction) : Prop :=
  t.event = some .failed ∧ .sent ∉ t.deliveries ∧ (t.request.allowDuplicate = true ∨ t.accepted = 0)

instance (t : RedriveTransaction) : Decidable t.MayRedrive := inferInstanceAs (Decidable (_ ∧ _))

/-- It goes on as long as it may, and ends accordingly. -/
structure RedriveTransaction.Decides (t : RedriveTransaction) : Prop where
  running : t.phase.isRunning = true → t.MayRedrive
  ended : ∀ result, t.phase = .ended result → (result.applied = true ↔ t.MayRedrive)

/-- A mail event that failed. -/
def Mail.Failed (mail : Mail) (id : String) : Prop :=
  ∃ e ∈ mail.outbox.rows, e.id = id ∧ e.eventType ∈ notificationEventTypes ∧ e.status = .failed

/-- What the redrives keep to. -/
structure Operators.Inv (s : Operators) : Prop where
  mail : s.mail.Inv
  unique : Table.UniqueBy (·.operator) s.transactions
  decides : ∀ t ∈ s.transactions, t.Decides
  /-- While a redrive runs, its event stays failed. -/
  current : ∀ t ∈ s.transactions, t.phase.isRunning = true → s.mail.Failed t.request.outboxEventId
  /-- An event has one redrive at a time. -/
  alone : ∀ t ∈ s.transactions, ∀ t' ∈ s.transactions, t.phase.isRunning = true → t'.phase.isRunning = true →
    t.request.outboxEventId = t'.request.outboxEventId → t = t'

section Steps

variable {config : NotificationsConfig} {s s' : Operators} {mail mail' : Mail} {id : String} {now : ℕ}

/-- No step but a redrive runs the statement of one. -/
theorem isRedrive_of_owns {a : MailAction} {st : Statement} (ha : a.isRedrive = false) (h : Owns config a st) : st.isRedrive = false := by
  have hjob : JobStatement config st → st.isRedrive = false := by
    rintro (_ | _ | _ | _) <;> rfl
  cases a with
  | statement now st' =>
    obtain ⟨rfl, hmail⟩ := h
    cases st with
    | redrive => cases hmail
    | _ => rfl
  | release key random now outcome =>
    obtain ⟨-, retryInMs, errorCode, rfl⟩ := h
    rfl
  | redrive => cases ha
  | _ => exact hjob h

/-- **Nobody but a redrive writes to a failed event.** -/
theorem Mail.Failed.step {a : MailAction} (hi : mail.Inv) (h : mail.Failed id) (ha : a.isRedrive = false)
    (he : mail.exec config a = some mail') : mail'.Failed id := by
  obtain ⟨e, hmem, hid, htype, hs⟩ := h
  rcases Mail.outbox_of_exec hi.jobs he with hout | ⟨now, st, hexec, howns⟩
  · exact ⟨e, hout ▸ hmem, hid, htype, hs⟩
  · rcases permitted_of_exec hi.outbox hexec hmem with hkept | ⟨e', -, hp⟩
    · exact ⟨e, hkept, hid, htype, hs⟩
    · have hredrive := hp.failed hs
      rw [isRedrive_of_owns ha howns] at hredrive
      cases hredrive

/-- The delivery of a failed event is not sent. -/
theorem Mail.Failed.delivery (hi : mail.Inv) (h : mail.Failed id) {d : EmailDelivery} (hd : d ∈ mail.deliveries)
    (hid : d.outboxEventId = id) : d.status = .failed := by
  obtain ⟨e, he, heid, -, hs⟩ := h
  rw [hi.status hd he (heid.trans hid.symm), hs]
  rfl

theorem resetEvent_pred {e : OutboxEvent} : (NotificationRedrive.resetEvent id now).pred e = true ↔
    (e.id = id ∧ e.eventType ∈ notificationEventTypes) ∧ e.status = .failed := by
  simp only [NotificationRedrive.resetEvent, Bool.and_eq_true, decide_eq_true_eq]

theorem Mail.Failed.hits (h : mail.Failed id) : (NotificationRedrive.resetEvent id now).hits mail.outbox.rows = true := by
  obtain ⟨e, he, hid, htype, hs⟩ := h
  exact List.any_eq_true.2 ⟨e, he, resetEvent_pred.2 ⟨⟨hid, htype⟩, hs⟩⟩

/-- A redrive that commits is a redrive with the override, at once. -/
theorem exec_redrive (hi : mail.Inv) (h : mail.Failed id) : mail.exec config (.redrive ⟨id, true⟩ now) = some (mail.redriven id now) := by
  have hhits : (NotificationRedrive.resetEvent id now).hits mail.outbox.rows = true := h.hits
  have hsent : (mail.deliveries.any fun d => d.outboxEventId = id && d.status = .sent) = false := by
    refine List.any_eq_false.2 fun d hd hsent => ?_
    rw [Bool.and_eq_true, decide_eq_true_eq, decide_eq_true_eq] at hsent
    rw [h.delivery hi hd hsent.1] at hsent
    cases hsent.2
  obtain ⟨e, he, hid, htype, hs⟩ := h
  have hfind : mail.outbox.rows.find? (fun e => e.id = id && e.eventType ∈ notificationEventTypes) = some e := by
    refine Table.find?_of_key (Table.UniqueBy.of_nodup hi.outbox.ids) he ?_ fun y hy => ?_
    · rw [Bool.and_eq_true, decide_eq_true_eq, decide_eq_true_eq]
      exact ⟨hid, htype⟩
    · rw [Bool.and_eq_true, decide_eq_true_eq] at hy
      exact hy.1.trans hid.symm
  have hredrive : Notifications.redrive mail.tables ⟨id, true⟩ now =
      (⟨(NotificationRedrive.resetEvent id now).run mail.outbox.rows, Table.update mail.deliveries (isResettable id) .reset, mail.sendAttempts,
        mail.nextDeliveryId⟩, ⟨true, .redriven, id, some e.status, Table.affected mail.deliveries (isResettable id)⟩) := by
    simp only [Notifications.redrive, Mail.tables, hfind, hs, ne_eq, not_true_eq_false, if_false, hsent, hhits, Bool.not_true, Bool.false_and,
      Bool.false_eq_true, if_true]
    rfl
  rw [Mail.exec, hredrive]
  rfl

/-- A committed redrive leaves the events of the others as they are. -/
theorem Mail.Failed.redriven {other : String} (h : mail.Failed other) (hne : other ≠ id) : (mail.redriven id now).Failed other := by
  obtain ⟨e, he, heid, htype, hs⟩ := h
  refine ⟨e, Table.mem_update_of_neg he (Bool.eq_false_iff.2 fun hp => hne ?_), heid, htype, hs⟩
  exact heid.symm.trans (resetEvent_pred.1 hp).1.1

theorem transaction_eq_some {operator : ℕ} {t : RedriveTransaction} (h : s.transaction operator = some t) :
    t ∈ s.transactions ∧ t.operator = operator :=
  ⟨List.mem_of_find?_eq_some h, by simpa using List.find?_some h⟩

theorem mem_set {t u : RedriveTransaction} (h : u ∈ (s.set t).transactions) : u = t ∨ (u ∈ s.transactions ∧ u.operator ≠ t.operator) := by
  obtain ⟨v, hv, ⟨-, rfl⟩ | ⟨hother, rfl⟩⟩ := Table.mem_update.1 h
  · exact .inl rfl
  · exact .inr ⟨hv, of_decide_eq_false hother⟩

/-- A redrive that has read more, in the mail as it is. -/
theorem Operators.Inv.set {t t' : RedriveTransaction} (hi : s.Inv) (ht : t ∈ s.transactions) (hoperator : t'.operator = t.operator)
    (hrequest : t'.request = t.request) (hrunning : t.phase.isRunning = true) (hdecides : t'.Decides) : (s.set t').Inv where
  mail := hi.mail
  unique := by
    intro u hu v hv huv
    rcases mem_set hu with rfl | ⟨hu, hune⟩ <;> rcases mem_set hv with rfl | ⟨hv, hvne⟩
    · rfl
    · exact absurd huv.symm hvne
    · exact absurd huv hune
    · exact hi.unique u hu v hv huv
  decides u hu := by
    rcases mem_set hu with rfl | ⟨hu, -⟩
    · exact hdecides
    · exact hi.decides u hu
  current u hu hrun := by
    rcases mem_set hu with rfl | ⟨hu, -⟩
    · rw [hrequest]
      exact hi.current t ht hrunning
    · exact hi.current u hu hrun
  alone u hu v hv hurun hvrun hid := by
    rcases mem_set hu with rfl | ⟨hu', hune⟩ <;> rcases mem_set hv with rfl | ⟨hv', hvne⟩
    · rfl
    · rw [hrequest] at hid
      have hsame : t = v := hi.alone t ht v hv' hrunning hvrun hid
      exact absurd ((congrArg _ hsame.symm).trans hoperator.symm) hvne
    · rw [hrequest] at hid
      have hsame : u = t := hi.alone u hu' t ht hurun hrunning hid
      exact absurd ((congrArg _ hsame).trans hoperator.symm) hune
    · exact hi.alone u hu' v hv' hurun hvrun hid

/-- The transaction ends with a commit. -/
theorem Operators.Inv.commit {t t' : RedriveTransaction} (hi : s.Inv) (ht : t ∈ s.transactions) (hoperator : t'.operator = t.operator)
    (hrequest : t'.request = t.request) (hrunning : t.phase.isRunning = true) (hdecides : t'.Decides) (hended : t'.phase.isRunning = false) :
    ({ s with mail := s.mail.redriven t.request.outboxEventId now }.set t').Inv := by
  have hset := hi.set ht hoperator hrequest hrunning hdecides
  have hfailed := hi.current t ht hrunning
  refine ⟨hi.mail.step (@exec_redrive notificationsConfig _ _ _ hi.mail hfailed), hset.unique, hset.decides, fun u hu hrun => ?_, hset.alone⟩
  rcases mem_set hu with rfl | ⟨hu, hune⟩
  · rw [hended] at hrun
    cases hrun
  · refine (hi.current u hu hrun).redriven fun hid => hune ?_
    rw [hi.alone u hu t ht hrun hrunning hid, hoperator]

theorem decides_ended {t : RedriveTransaction} {result : RedriveResult} (hphase : t.phase = .ended result)
    (h : result.applied = true ↔ t.MayRedrive) : t.Decides where
  running hrun := by
    rw [hphase] at hrun
    cases hrun
  ended result' hended := by
    rw [hphase] at hended
    cases hended
    exact h

theorem decides_running {t : RedriveTransaction} (hrun : t.phase.isRunning = true) (h : t.MayRedrive) : t.Decides where
  running _ := h
  ended result hended := by
    rw [hended] at hrun
    cases hrun

/-- A refusal says that the redrive may not. -/
theorem decides_refused {t : RedriveTransaction} {request : RedriveRequest} {code : RedriveOutcomeCode} {observed : Option OutboxEventStatus}
    (hphase : t.phase = .ended (refuse request code observed)) (h : ¬ t.MayRedrive) : t.Decides :=
  decides_ended hphase (iff_of_false Bool.false_ne_true h)

theorem lockEvent_cases (rows : List OutboxEvent) (operator : ℕ) (request : RedriveRequest) :
    (lockEvent rows operator request).operator = operator ∧ (lockEvent rows operator request).request = request ∧
      (lockEvent rows operator request).Decides ∧
      ((lockEvent rows operator request).phase.isRunning = true → ∃ e ∈ rows, e.id = request.outboxEventId ∧
        e.eventType ∈ notificationEventTypes ∧ e.status = .failed) := by
  unfold lockEvent
  split
  · exact ⟨rfl, rfl, decides_refused rfl fun h => absurd h.1 (by simp), fun h => absurd h Bool.false_ne_true⟩
  · next e hfind =>
    have hpred := List.find?_some hfind
    rw [Bool.and_eq_true, decide_eq_true_eq, decide_eq_true_eq] at hpred
    split
    · next hs => exact ⟨rfl, rfl, decides_refused rfl fun h => hs (Option.some.inj h.1), fun h => absurd h Bool.false_ne_true⟩
    · next hs =>
      have hfailed : e.status = .failed := not_not.1 hs
      refine ⟨rfl, rfl, decides_running rfl ⟨congrArg some hfailed, List.not_mem_nil, .inr rfl⟩, fun _ => ?_⟩
      exact ⟨e, List.mem_of_find?_eq_some hfind, hpred.1, hpred.2, hfailed⟩

end Steps

/-! ### What a step is -/

/-- A redrive of the event may be applied. -/
structure Mail.Redrivable (mail : Mail) (id : String) : Prop where
  failed : mail.Failed id
  unsent : ∀ d ∈ mail.deliveries, d.outboxEventId = id → d.status ≠ .sent

/-- And no acceptance is in its way. -/
def Mail.Allows (mail : Mail) (request : RedriveRequest) : Prop :=
  mail.Redrivable request.outboxEventId ∧ (request.allowDuplicate = true ∨ countAccepted mail.sendAttempts request.outboxEventId = 0)

/-- What a redrive that ends with a refusal has seen. -/
def RedriveTransaction.Refused (mail : Mail) (t : RedriveTransaction) : Prop :=
  ∀ result, t.phase = .ended result → result.applied = false ∧ ¬ mail.Allows t.request

/-- All a step does. -/
inductive Operators.Turn (config : NotificationsConfig) (s : Operators) : OperatorAction → Operators → Prop where
  | mail {a : MailAction} {mail : Mail} : a.isRedrive = false → s.mail.exec config a = some mail → Turn config s (.mail a) { s with mail := mail }
  | began {operator : ℕ} {request : RedriveRequest} : (∀ t ∈ s.transactions, t.operator ≠ operator) → s.holds request.outboxEventId = false →
      (lockEvent s.mail.outbox.rows operator request).Refused s.mail →
      Turn config s (.lockEvent operator request) { s with transactions := s.transactions ++ [lockEvent s.mail.outbox.rows operator request] }
  | went {a : OperatorAction} {t t' : RedriveTransaction} : (∀ a', a ≠ .mail a') → t ∈ s.transactions → t.phase.isRunning = true →
      t'.operator = t.operator → t'.request = t.request → t'.Decides → t'.Refused s.mail → Turn config s a (s.set t')
  | committed {t : RedriveTransaction} {now : ℕ} {result : RedriveResult} : t ∈ s.transactions → t.phase = .eventReset now → result.applied = true →
      Turn config s (.resetDeliveries t.operator)
        ({ s with mail := s.mail.redriven t.request.outboxEventId now }.set { t with phase := .ended result })

section Turns

variable {config : NotificationsConfig} {s s' : Operators} {a : OperatorAction}

theorem lockEvent_refused {mail : Mail} (hi : mail.Inv) (operator : ℕ) (request : RedriveRequest) :
    (lockEvent mail.outbox.rows operator request).Refused mail := by
  intro result hended
  rw [(lockEvent_cases mail.outbox.rows operator request).2.1]
  unfold lockEvent at hended
  split at hended
  · next hfind =>
    obtain rfl := RedrivePhase.ended.inj hended
    refine ⟨rfl, fun hallows => ?_⟩
    obtain ⟨e, he, hid, htype, -⟩ := hallows.1.failed
    have hnone := List.find?_eq_none.1 hfind e he
    simp [hid, htype] at hnone
  · next e hfind =>
    split at hended
    · next hs =>
      obtain rfl := RedrivePhase.ended.inj hended
      refine ⟨rfl, fun hallows => hs ?_⟩
      have hpred := List.find?_some hfind
      rw [Bool.and_eq_true, decide_eq_true_eq] at hpred
      obtain ⟨g, hg, hgid, -, hgs⟩ := hallows.1.failed
      rwa [← Table.UniqueBy.of_nodup hi.outbox.ids g hg e (List.mem_of_find?_eq_some hfind) (hgid.trans hpred.1.symm)]
    · cases hended

/-- A statement after which the redrive goes on. -/
theorem turn_on {t t' : RedriveTransaction} (ha : ∀ a', a ≠ .mail a') (hmem : t ∈ s.transactions) (hrun : t.phase.isRunning = true)
    (hoperator : t'.operator = t.operator) (hrequest : t'.request = t.request) (hrun' : t'.phase.isRunning = true) (hmay : t'.MayRedrive) :
    Operators.Turn config s a (s.set t') := by
  refine .went ha hmem hrun hoperator hrequest (decides_running hrun' hmay) fun result hended => ?_
  rw [hended] at hrun'
  cases hrun'

/-- A statement that ends it with a refusal. -/
theorem turn_refused {t t' : RedriveTransaction} {request : RedriveRequest} {code : RedriveOutcomeCode} {observed : Option OutboxEventStatus}
    (ha : ∀ a', a ≠ .mail a') (hmem : t ∈ s.transactions) (hrun : t.phase.isRunning = true) (hoperator : t'.operator = t.operator)
    (hrequest : t'.request = t.request) (hphase : t'.phase = .ended (refuse request code observed)) (hmay : ¬ t'.MayRedrive)
    (hallows : ¬ s.mail.Allows t'.request) : Operators.Turn config s a (s.set t') := by
  refine .went ha hmem hrun hoperator hrequest (decides_refused hphase hmay) fun result hended => ?_
  obtain rfl := RedrivePhase.ended.inj (hphase.symm.trans hended)
  exact ⟨rfl, hallows⟩

theorem turn_of_exec (hi : s.Inv) (h : s.exec config a = some s') : Operators.Turn config s a s' := by
  cases a with
  | mail a =>
    simp only [Operators.exec] at h
    split at h
    · cases h
    · next ha =>
      obtain ⟨mail, hmail, rfl⟩ := Option.map_eq_some_iff.1 h
      exact .mail (Bool.eq_false_iff.2 ha) hmail
  | lockEvent operator request =>
    simp only [Operators.exec] at h
    split at h
    · cases h
    · next hfree =>
      obtain rfl := Option.some.inj h
      rw [Bool.or_eq_true, not_or] at hfree
      refine .began (fun t ht hoperator => hfree.1 (List.any_eq_true.2 ⟨t, ht, decide_eq_true hoperator⟩)) (Bool.eq_false_iff.2 hfree.2) ?_
      exact lockEvent_refused hi.mail operator request
  | lockDeliveries operator =>
    simp only [Operators.exec, Option.bind_eq_bind, Option.bind_eq_some_iff] at h
    obtain ⟨t, ht, h⟩ := h
    obtain ⟨hmem, rfl⟩ := transaction_eq_some ht
    split at h
    · next hphase =>
      obtain rfl := Option.some.inj h
      have hrun : t.phase.isRunning = true := by rw [hphase]; rfl
      have hmay := (hi.decides t hmem).running hrun
      by_cases hsent : .sent ∈ (s.mail.deliveries.filter (·.outboxEventId = t.request.outboxEventId)).map (·.status)
      · rw [if_pos hsent]
        refine turn_refused (fun _ => by simp) hmem hrun rfl rfl rfl (fun hmay' => hmay'.2.1 hsent) fun hallows => ?_
        obtain ⟨d, hd, hs⟩ := List.mem_map.1 hsent
        rw [List.mem_filter, decide_eq_true_eq] at hd
        exact hallows.1.unsent d hd.1 hd.2 hs
      · rw [if_neg hsent]
        exact turn_on (fun _ => by simp) hmem hrun rfl rfl rfl ⟨hmay.1, hsent, hmay.2.2⟩
    · cases h
  | countAccepted operator =>
    simp only [Operators.exec, Option.bind_eq_bind, Option.bind_eq_some_iff] at h
    obtain ⟨t, ht, h⟩ := h
    obtain ⟨hmem, rfl⟩ := transaction_eq_some ht
    split at h
    · next hphase =>
      have hrun : t.phase.isRunning = true := by rw [hphase]; rfl
      have hmay := (hi.decides t hmem).running hrun
      split at h
      · next hoverride =>
        obtain rfl := Option.some.inj h
        exact turn_on (fun _ => by simp) hmem hrun rfl rfl rfl ⟨hmay.1, hmay.2.1, .inl hoverride⟩
      · next hoverride =>
        obtain rfl := Option.some.inj h
        by_cases haccepted : 0 < countAccepted s.mail.sendAttempts t.request.outboxEventId
        · rw [if_pos haccepted]
          have hnot : ¬ (t.request.allowDuplicate = true ∨ countAccepted s.mail.sendAttempts t.request.outboxEventId = 0) := by
            rintro (hallow | hnone)
            · exact hoverride hallow
            · omega
          exact turn_refused (fun _ => by simp) hmem hrun rfl rfl rfl (fun hmay' => hnot hmay'.2.2) fun hallows => hnot hallows.2
        · rw [if_neg haccepted]
          exact turn_on (fun _ => by simp) hmem hrun rfl rfl rfl ⟨hmay.1, hmay.2.1, .inr (Nat.eq_zero_of_not_pos haccepted)⟩
    · cases h
  | resetEvent operator now =>
    simp only [Operators.exec, Option.bind_eq_bind, Option.bind_eq_some_iff] at h
    obtain ⟨t, ht, h⟩ := h
    obtain ⟨hmem, rfl⟩ := transaction_eq_some ht
    split at h
    · next hphase =>
      have hrun : t.phase.isRunning = true := by rw [hphase]; rfl
      -- the row is locked, so the statement reports it
      rw [(hi.current t hmem hrun).hits, if_pos rfl] at h
      obtain rfl := Option.some.inj h
      exact turn_on (fun _ => by simp) hmem hrun rfl rfl rfl ((hi.decides t hmem).running hrun)
    · cases h
  | resetDeliveries operator =>
    simp only [Operators.exec, Option.bind_eq_bind, Option.bind_eq_some_iff] at h
    obtain ⟨t, ht, h⟩ := h
    obtain ⟨hmem, rfl⟩ := transaction_eq_some ht
    split at h
    · next hphase =>
      obtain rfl := Option.some.inj h
      exact .committed hmem hphase rfl
    · cases h
  | lose operator =>
    simp only [Operators.exec, Option.bind_eq_bind, Option.bind_eq_some_iff] at h
    obtain ⟨t, ht, h⟩ := h
    obtain ⟨hmem, rfl⟩ := transaction_eq_some ht
    split at h
    · next hrun =>
      obtain rfl := Option.some.inj h
      have hdecides : RedriveTransaction.Decides { t with phase := .lost } :=
        ⟨fun hlost => absurd hlost Bool.false_ne_true, fun _ hended => absurd hended (by simp)⟩
      exact .went (fun _ => by simp) hmem hrun rfl rfl hdecides fun result hended => by cases hended
    · cases h

theorem Operators.Inv.step (hi : s.Inv) (h : s.exec config a = some s') : s'.Inv := by
  cases turn_of_exec hi h with
  | mail ha hmail =>
    exact ⟨hi.mail.step hmail, hi.unique, hi.decides, fun t ht hrun => (hi.current t ht hrun).step hi.mail ha hmail, hi.alone⟩
  | @began operator request hnew hfree _ =>
    obtain ⟨hoperator, hrequest, hdecides, hfailed⟩ := lockEvent_cases s.mail.outbox.rows operator request
    have hholds : ∀ t ∈ s.transactions, t.phase.isRunning = true → t.request.outboxEventId ≠ request.outboxEventId := by
      intro t ht hrun hid
      have hnot := List.any_eq_false.1 hfree t ht
      simp [hid, hrun] at hnot
    refine ⟨hi.mail, hi.unique.insert fun t ht => hoperator.symm ▸ hnew t ht, fun t ht => ?_, fun t ht hrun => ?_, fun t ht u hu htrun hurun hid => ?_⟩
    · rcases List.mem_append.1 ht with ht | ht
      · exact hi.decides t ht
      · exact List.mem_singleton.1 ht ▸ hdecides
    · rcases List.mem_append.1 ht with ht | ht
      · exact hi.current t ht hrun
      · obtain rfl := List.mem_singleton.1 ht
        rw [hrequest]
        exact hfailed hrun
    · rcases List.mem_append.1 ht with ht | ht <;> rcases List.mem_append.1 hu with hu | hu
      · exact hi.alone t ht u hu htrun hurun hid
      · obtain rfl := List.mem_singleton.1 hu
        exact absurd (hid.trans (congrArg _ hrequest)) (hholds t ht htrun)
      · obtain rfl := List.mem_singleton.1 ht
        exact absurd (hid.symm.trans (congrArg _ hrequest)) (hholds u hu hurun)
      · exact (List.mem_singleton.1 ht).trans (List.mem_singleton.1 hu).symm
  | went _ hmem hrun hoperator hrequest hdecides _ => exact hi.set hmem hoperator hrequest hrun hdecides
  | @committed t now result hmem hphase happlied =>
    have hrun : t.phase.isRunning = true := by rw [hphase]; rfl
    exact hi.commit hmem rfl rfl hrun (decides_ended rfl (iff_of_true happlied ((hi.decides t hmem).running hrun))) rfl

theorem Operators.inv_of_reachable (h : (operators config).Reachable (fun _ _ => True) s) : s.Inv := by
  apply h.invariant
  · rintro s rfl
    have hnil : ∀ {P : RedriveTransaction → Prop}, ∀ t ∈ ([] : List RedriveTransaction), P t := fun _ ht => absurd ht List.not_mem_nil
    have hempty : (Notifications.mail config).Reachable (fun _ _ => True) .empty := .init rfl
    exact ⟨Mail.inv_of_reachable hempty, hnil, hnil, hnil, hnil⟩
  · exact fun s a s' hi _ he => hi.step he

end Turns

/-! ### The results -/

/-- What an applied redrive does: the event is due at once, with all its attempts, and its delivery is pending again. -/
structure Redriven (mail mail' : Mail) (id : String) (now : ℕ) : Prop where
  event : ∃ e ∈ mail.outbox.rows, e.id = id ∧ e.status = .failed ∧ ∃ e' ∈ mail'.outbox.rows, e'.id = id ∧
    e'.eventType = e.eventType ∧ e'.payload = e.payload ∧ e'.lastErrorCode = e.lastErrorCode ∧ e'.attempts = 0 ∧
    ∀ later ≥ now, isDue notificationEventTypes later e' = true
  otherEvents : ∀ e, e.id ≠ id → (e ∈ mail'.outbox.rows ↔ e ∈ mail.outbox.rows)
  delivery : ∀ d ∈ mail.deliveries, d.outboxEventId = id → ∃ d' ∈ mail'.deliveries, d'.status = .pending ∧ SameDelivery d d' ∧
    d'.attempts = d.attempts
  pending : ∀ d' ∈ mail'.deliveries, d'.outboxEventId = id → d'.status = .pending ∧ ∃ d ∈ mail.deliveries, SameDelivery d d' ∧
    d'.attempts = d.attempts
  otherDeliveries : ∀ d, d.outboxEventId ≠ id → (d ∈ mail'.deliveries ↔ d ∈ mail.deliveries)
  sendAttempts : mail'.sendAttempts = mail.sendAttempts

/-- The statement a redrive comes to next. -/
def RedriveTransaction.next (t : RedriveTransaction) (now : ℕ) : OperatorAction :=
  match t.phase with
  | .eventLocked => .lockDeliveries t.operator
  | .deliveriesLocked => .countAccepted t.operator
  | .checked => .resetEvent t.operator now
  | .eventReset _ => .resetDeliveries t.operator
  | .ended _ | .lost => .lose t.operator

/-- Redrives are guarded and complete, in a state and in the next step. -/
structure GuardedRedrive (config : NotificationsConfig) (s : Operators) : Prop where
  /-- A redrive is applied exactly if what it read allows it. -/
  decision : ∀ t ∈ s.transactions, ∀ result, t.phase = .ended result → (result.applied = true ↔ t.MayRedrive)
  /-- While it runs its event stays failed, and no delivery is sent. -/
  current : ∀ t ∈ s.transactions, t.phase.isRunning = true → t.MayRedrive ∧ s.mail.Redrivable t.request.outboxEventId
  /-- It is never stuck. -/
  progress : ∀ t ∈ s.transactions, t.phase.isRunning = true → ∀ now, ∃ s', s.exec config (t.next now) = some s'
  /-- A refusal finds what stands in the way, and changes nothing. -/
  refused : ∀ a s', s.exec config a = some s' → ∀ t ∈ s'.transactions, t ∉ s.transactions → ∀ result, t.phase = .ended result →
    result.applied = false → s'.mail = s.mail ∧ ¬ s.mail.Allows t.request
  /-- An application finds nothing in the way, and changes the event and its delivery. -/
  applied : ∀ a s', s.exec config a = some s' → ∀ t ∈ s'.transactions, t ∉ s.transactions → ∀ result, t.phase = .ended result →
    result.applied = true → s.mail.Redrivable t.request.outboxEventId ∧ t.MayRedrive ∧
      ∃ now, Redriven s.mail s'.mail t.request.outboxEventId now
  /-- Before that a redrive writes nothing. -/
  unchanged : ∀ a s', s.exec config a = some s' → (∀ a', a ≠ .mail a') → (∀ operator, a ≠ .resetDeliveries operator) → s'.mail = s.mail

section Results

variable {config : NotificationsConfig} {s s' : Operators} {mail : Mail} {id : String} {now : ℕ}

theorem Mail.Failed.redrivable (hi : mail.Inv) (h : mail.Failed id) : mail.Redrivable id where
  failed := h
  unsent d hd hid hs := by
    rw [h.delivery hi hd hid] at hs
    cases hs

theorem isResettable_iff {d : EmailDelivery} : isResettable id d = true ↔ d.outboxEventId = id ∧ d.status = .failed := by
  rw [isResettable, Bool.and_eq_true, decide_eq_true_eq, decide_eq_true_eq]

theorem redriven_of_failed (hi : mail.Inv) (h : mail.Failed id) : Redriven mail (mail.redriven id now) id now where
  event := by
    obtain ⟨e, he, hid, htype, hs⟩ := h
    refine ⟨e, he, hid, hs, _, Table.mem_update_of_pos he (resetEvent_pred.2 ⟨⟨hid, htype⟩, hs⟩), hid, rfl, rfl, rfl, rfl, fun later hlater => ?_⟩
    have hdue : decide (now ≤ later) = true := decide_eq_true hlater
    have hmail : decide (e.eventType ∈ notificationEventTypes) = true := decide_eq_true htype
    show (decide (e.eventType ∈ notificationEventTypes) && true && decide (now ≤ later)) = true
    rw [hmail, hdue]
    rfl
  otherEvents e hne := by
    have hpred : ∀ g : OutboxEvent, g.id ≠ id → (NotificationRedrive.resetEvent id now).pred g = false := fun g hg =>
      Bool.eq_false_iff.2 fun hp => hg (resetEvent_pred.1 hp).1.1
    constructor
    · intro he
      obtain ⟨g, hg, ⟨hp, rfl⟩ | ⟨-, rfl⟩⟩ := Table.mem_update.1 he
      · exact absurd (resetEvent_pred.1 hp).1.1 hne
      · exact hg
    · exact fun he => Table.mem_update_of_neg he (hpred e hne)
  delivery d hd hid := by
    have hreset : isResettable id d = true := isResettable_iff.2 ⟨hid, h.delivery hi hd hid⟩
    exact ⟨d.reset, Table.mem_update_of_pos hd hreset, rfl, ⟨rfl, rfl, rfl, rfl, rfl⟩, rfl⟩
  pending d' hd' hid := by
    obtain ⟨d, hd, ⟨-, rfl⟩ | ⟨hp, rfl⟩⟩ := Table.mem_update.1 hd'
    · exact ⟨rfl, d, hd, ⟨rfl, rfl, rfl, rfl, rfl⟩, rfl⟩
    · rw [isResettable_iff.2 ⟨hid, h.delivery hi hd hid⟩] at hp
      cases hp
  otherDeliveries d hne := by
    constructor
    · intro hd
      obtain ⟨g, hg, ⟨hp, rfl⟩ | ⟨-, rfl⟩⟩ := Table.mem_update.1 hd
      · exact absurd (isResettable_iff.1 hp).1 hne
      · exact hg
    · exact fun hd => Table.mem_update_of_neg hd (Bool.eq_false_iff.2 fun hp => hne (isResettable_iff.1 hp).1)
  sendAttempts := rfl

theorem transaction_of_mem (hi : s.Inv) {t : RedriveTransaction} (ht : t ∈ s.transactions) : s.transaction t.operator = some t :=
  Table.find?_of_key hi.unique ht (decide_eq_true rfl) fun _ h => of_decide_eq_true h

theorem exec_next (hi : s.Inv) {t : RedriveTransaction} (ht : t ∈ s.transactions) (hrun : t.phase.isRunning = true) (now : ℕ) :
    ∃ s', s.exec config (t.next now) = some s' := by
  have hfind := transaction_of_mem hi ht
  unfold RedriveTransaction.next
  cases hphase : t.phase with
  | eventLocked | checked | eventReset =>
    simp only [Operators.exec, hfind, Option.bind_eq_bind, Option.bind_some, hphase]
    exact ⟨_, rfl⟩
  | deliveriesLocked =>
    simp only [Operators.exec, hfind, Option.bind_eq_bind, Option.bind_some, hphase]
    split <;> exact ⟨_, rfl⟩
  | ended | lost =>
    rw [hphase] at hrun
    cases hrun

/-- **Redrives are guarded and complete**, in every reachable state: one is applied exactly if the event it locked is
a failed mail event without a sent delivery and either the override was given or it saw no acceptance. -/
theorem redrive_guarded (config : NotificationsConfig) (s : Operators) (h : (operators config).Reachable (fun _ _ => True) s) :
    GuardedRedrive config s := by
  have hi := Operators.inv_of_reachable h
  refine ⟨fun t ht result hended => (hi.decides t ht).ended result hended, fun t ht hrun => ?_, fun t ht hrun => exec_next hi ht hrun,
    fun a s' he t ht hnew result hended happlied => ?_, fun a s' he t ht hnew result hended happlied => ?_, fun a s' he hmail hreset => ?_⟩
  · exact ⟨(hi.decides t ht).running hrun, (hi.current t ht hrun).redrivable hi.mail⟩
  · cases turn_of_exec hi he with
    | mail => exact absurd ht hnew
    | began _ _ hrefused =>
      rcases List.mem_append.1 ht with ht | ht
      · exact absurd ht hnew
      · obtain rfl := List.mem_singleton.1 ht
        exact ⟨rfl, (hrefused result hended).2⟩
    | went _ _ _ _ _ _ hrefused =>
      rcases mem_set ht with rfl | ⟨ht, -⟩
      · exact ⟨rfl, (hrefused result hended).2⟩
      · exact absurd ht hnew
    | committed _ _ hresult =>
      rcases mem_set ht with rfl | ⟨ht, -⟩
      · obtain rfl := RedrivePhase.ended.inj hended
        rw [hresult] at happlied
        cases happlied
      · exact absurd ht hnew
  · cases turn_of_exec hi he with
    | mail => exact absurd ht hnew
    | began _ _ hrefused =>
      rcases List.mem_append.1 ht with ht | ht
      · exact absurd ht hnew
      · obtain rfl := List.mem_singleton.1 ht
        rw [(hrefused result hended).1] at happlied
        cases happlied
    | went _ _ _ _ _ _ hrefused =>
      rcases mem_set ht with rfl | ⟨ht, -⟩
      · rw [(hrefused result hended).1] at happlied
        cases happlied
      · exact absurd ht hnew
    | @committed t₀ now result₀ hmem hphase _ =>
      rcases mem_set ht with rfl | ⟨ht, -⟩
      · have hrun : t₀.phase.isRunning = true := by rw [hphase]; rfl
        have hfailed := hi.current t₀ hmem hrun
        exact ⟨hfailed.redrivable hi.mail, (hi.decides t₀ hmem).running hrun, now, redriven_of_failed hi.mail hfailed⟩
      · exact absurd ht hnew
  · cases turn_of_exec hi he with
    | mail => exact absurd rfl (hmail _)
    | began | went => rfl
    | committed => exact absurd rfl (hreset _)

end Results

/-- An event that cannot be prepared fails, and one operator redrives it while another comes too late. -/
def twoOperators : List OperatorAction :=
  (handOff "XTS").map .mail ++
    [.mail (.start 0 firstClaim hotelDirectory 20 .committed), .mail (.finishWithoutSending 0 30 .committed), .lockEvent 1 ⟨mailId, false⟩, .lockDeliveries 1, .countAccepted 1, .resetEvent 1 40, .resetDeliveries 1, .lockEvent 2 ⟨mailId, true⟩]

theorem twoOperators_isSome : ((operators notificationsConfig).run ⟨.empty, []⟩ twoOperators).isSome = true := by decide +kernel

theorem redrive_guarded_twoOperators :
    let s := ((operators notificationsConfig).run ⟨.empty, []⟩ twoOperators).get twoOperators_isSome
    s.transactions.map (·.phase) = [.ended ⟨true, .redriven, mailId, some .failed, 0⟩, .ended ⟨false, .eventNotFailed, mailId, some .pending, 0⟩] ∧
      GuardedRedrive notificationsConfig s := by
  exact ⟨by decide +kernel, redrive_guarded notificationsConfig _
    (.of_run (.init rfl) (fun _ _ _ => trivial) (Option.some_get twoOperators_isSome).symm)⟩

end HotelBackend.Notifications
