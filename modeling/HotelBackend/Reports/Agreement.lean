import HotelBackend.Reports.Publication

/-!
# An export event and its job agree

The dispatchers move the event, the attempts both: `RoomExports.Effect` says once what a
step does to either. The invariant `RoomExports.Agreed` reads the status of a job off the
status of its event, and says that the job of a held event is being processed once an
attempt of the claim has started; so the second update of an attempt's transaction matches
whenever the first one does.
-/

namespace HotelBackend.Reports

open HotelBackend.Common
open HotelBackend.Theory
open HotelBackend.Outbox
open HotelBackend.Files

/-! ### What an outcome does -/

/-- The statuses a job has while its event has this one. -/
def jobStatusesOf : OutboxEventStatus → List ExportJobStatus
  | .pending | .processing => [.queued, .processing]
  | .processed => [.completed]
  | .failed => [.failed]

theorem jobStatusesOf_of_isOpen {status : OutboxEventStatus} (h : status.isOpen = true) : jobStatusesOf status = [.queued, .processing] := by
  cases status with
  | pending | processing => rfl
  | processed | failed => exact absurd h Bool.false_ne_true

/-- Such a status tells the status of the event, as far as it matters. -/
theorem agree_of_mem_jobStatusesOf {status : OutboxEventStatus} {job : ExportJobStatus} (h : job ∈ jobStatusesOf status) :
    ((status = .pending ∨ status = .processing) ↔ (job = .queued ∨ job = .processing)) ∧ (status = .processed ↔ job = .completed) ∧
      (status = .failed ↔ job = .failed) := by
  revert h
  cases status <;> cases job <;> decide

/-- Every result column is set. -/
structure ExportJob.HasResult (j : ExportJob) : Prop where
  objectKey : j.objectKey.isSome = true
  rowCount : j.rowCount.isSome = true
  fileSizeBytes : j.fileSizeBytes.isSome = true
  contentSha256 : j.contentSha256.isSome = true
  completedAt : j.completedAt.isSome = true
  expiresAt : j.expiresAt.isSome = true

/-- A statement, and an update of the job, end the claim of an attempt. -/
structure Decides (config : ReportsConfig) (data : ClaimKey) (now : ℕ) (st : Statement) (u : Update) (set : ExportJob → ExportJob) : Prop where
  update : st.update now = some u
  key : st.key = some data
  release : st.isRelease = false
  retry : st.isRetry = true → data.attempt < config.maxAttempts
  ended : ∀ e, (u.set e).status ≠ .processing
  status : ∀ e j, (set j).status ∈ jobStatusesOf (u.set e).status
  id : ∀ j, (set j).id = j.id
  outboxEventId : ∀ j, (set j).outboxEventId = j.outboxEventId
  result : ∀ j, (set j).status = .completed → (set j).HasResult

section Outcomes

variable {config : ReportsConfig} {data : ClaimKey} {now : ℕ}

theorem decides_complete (input : RoomExportCompletion) :
    Decides config input.data now (.exportComplete input.data) (RoomExportAttempt.complete input.data now) (input.publish now) where
  update := rfl
  key := rfl
  release := rfl
  retry h := by cases h
  ended _ h := by cases h
  status _ _ := List.mem_cons_self
  id _ := rfl
  outboxEventId _ := rfl
  result _ _ := ⟨rfl, rfl, rfl, rfl, rfl, rfl⟩

theorem decides_retry {retryInMs : ℕ} {errorCode : String} (hattempt : data.attempt < config.maxAttempts) :
    Decides config data now (.exportRetry data retryInMs errorCode) (RoomExportAttempt.retry data retryInMs errorCode now)
      (fun j => { j with status := .queued, lastErrorCode := some errorCode }) where
  update := rfl
  key := rfl
  release := rfl
  retry _ := hattempt
  ended _ h := by cases h
  status _ _ := List.mem_cons_self
  id _ := rfl
  outboxEventId _ := rfl
  result _ h := by cases h

theorem decides_fail {errorCode : String} :
    Decides config data now (.exportFail data errorCode) (RoomExportAttempt.fail data errorCode now)
      (fun j => { j with status := .failed, failedAt := some now, lastErrorCode := some errorCode }) where
  update := rfl
  key := rfl
  release := rfl
  retry h := by cases h
  ended _ h := by cases h
  status _ _ := List.mem_cons_self
  id _ := rfl
  outboxEventId _ := rfl
  result _ h := by cases h

end Outcomes

/-! ### What a step does -/

/-- The attempts after a step are those before it, further on. -/
def RoomExports.Keeps (s s' : RoomExports) : Prop :=
  ∀ c ∈ s'.consumers, ∃ d ∈ s.consumers, d.data = c.data ∧ d.claim = c.claim

/-- All a step does to the events and the jobs. -/
inductive RoomExports.Effect (config : ReportsConfig) (s : RoomExports) : ExportAction → RoomExports → Prop where
  | idle {a : ExportAction} {s' : RoomExports} : s'.outbox = s.outbox → s'.jobs = s.jobs → s.Keeps s' → Effect config s a s'
  | created {eventId jobId : String} {requestedBy : ℕ} {filters : Json} {now : ℕ} {s' : RoomExports} :
      (∀ j ∈ s.jobs, j.id ≠ jobId ∧ j.outboxEventId ≠ eventId) →
      s.outbox.exec now (.insert eventId roomExportEventType (roomExportPayload jobId) (roomExportIdempotencyKey jobId)) = some s'.outbox →
      s'.jobs = s.jobs ++ [.queued jobId requestedBy eventId filters] → s.Keeps s' →
      Effect config s (.create eventId jobId requestedBy filters now) s'
  | statement {now : ℕ} {st : Statement} {s' : RoomExports} : isReports st = false → s.outbox.exec now st = some s'.outbox →
      s'.jobs = s.jobs → s.Keeps s' → Effect config s (.statement now st) s'
  | started {worker : ℕ} {data : ClaimKey} {claim : RoomExportAttemptClaim} {now : ℕ} {outcome : QueryOutcome} {e : OutboxEvent}
      {j : ExportJob} {s' : RoomExports} : e ∈ s.outbox.rows → e.eventType = roomExportEventType → data.holds e = true → j ∈ s.jobs →
      j.id = claim.jobId → j.outboxEventId = data.id → (j.status = .queued ∨ j.status = .processing) → s'.outbox = s.outbox →
      s'.jobs = Table.update s.jobs (·.id = claim.jobId) (.start now) →
      (∀ c ∈ s'.consumers, c ∈ s.consumers ∨ (c.data = data ∧ c.claim = claim)) → Effect config s (.start worker data now outcome) s'
  | renewed {worker now : ℕ} {outcome : QueryOutcome} {id claimToken : String} {s' : RoomExports} :
      s.outbox.exec now (.exportRenew id claimToken config.claimLeaseMs) = some s'.outbox → s'.jobs = s.jobs → s.Keeps s' →
      Effect config s (.renew worker now outcome) s'
  | decided {a : ExportAction} {c : Consumer} {now : ℕ} {st : Statement} {u : Update} {set : ExportJob → ExportJob} {s' : RoomExports} :
      c ∈ s.consumers → Decides config c.data now st u set → u.hits s.outbox.rows = true →
      s'.outbox = { s.outbox with rows := u.run s.outbox.rows } →
      s'.jobs = Table.update s.jobs (fun j => j.id = c.claim.jobId && j.status = .processing) set → s.Keeps s' → Effect config s a s'

section Effects

variable {config : ReportsConfig} {sha256Hex : Buffer → String} {s s' : RoomExports}

namespace RoomExports

theorem Keeps.refl (h : s'.consumers = s.consumers) : s.Keeps s' := fun c hc => ⟨c, h ▸ hc, rfl, rfl⟩

theorem Keeps.move {worker : ℕ} {phase : ConsumerPhase} (h : s'.consumers = s.consumers) : s.Keeps (s'.move worker phase) := by
  intro c hc
  obtain ⟨d, hd, ⟨-, rfl⟩ | ⟨-, rfl⟩⟩ := mem_move hc
  · exact ⟨d, h ▸ hd, rfl, rfl⟩
  · exact ⟨c, h ▸ hd, rfl, rfl⟩

theorem Keeps.leave {worker : ℕ} (h : s'.consumers = s.consumers) : s.Keeps (s'.leave worker) :=
  fun c hc => ⟨c, h ▸ (mem_leave hc).1, rfl, rfl⟩

/-- The end of an attempt, if its transaction commits. -/
theorem effect_of_finishAttempt {a : ExportAction} {c : Consumer} {now : ℕ} {st : Statement} {u : Update} {set : ExportJob → ExportJob}
    {db : ReportsTables} {held : Bool} (hc : c ∈ s.consumers) (hd : Decides config c.data now st u set)
    (h : finishAttempt s.tables u c.claim.jobId set = .ok (db, held)) (hout : s'.outbox = { s.outbox with rows := db.events })
    (hjobs : s'.jobs = db.jobs) (hkeeps : s.Keeps s') : Effect config s a s' := by
  rcases finishAttempt_eq_ok h with ⟨-, rfl, -⟩ | ⟨-, hhits, -, rfl⟩
  · exact .idle hout hjobs hkeeps
  · exact .decided hc hd hhits hout hjobs hkeeps

theorem effect_renew {worker now : ℕ} {outcome : QueryOutcome} {c : Consumer} {next : ConsumerPhase} :
    Effect config s (.renew worker now outcome) (s.renew config c next now outcome) := by
  unfold RoomExports.renew
  cases outcome with
  | failed => exact .idle rfl rfl (.move rfl)
  | lostReply => exact .renewed rfl rfl (.move rfl)
  | committed =>
    dsimp only
    split
    case isTrue h => cases h
    split
    · exact .renewed rfl rfl (.move rfl)
    · exact .renewed rfl rfl (.leave rfl)

theorem effect_complete {worker now : ℕ} {outcome : QueryOutcome} {c : Consumer} {result : RoomExportGeneratedResult}
    (hc : c ∈ s.consumers) : Effect config s (.complete worker now outcome) (s.complete config sha256Hex c result now outcome) := by
  have hfinish : ∀ {db held}, Reports.complete s.tables (completion config sha256Hex c result) now = .ok (db, held) →
      ∃ db₁, finishAttempt s.tables (RoomExportAttempt.complete c.data now) c.claim.jobId
        ((completion config sha256Hex c result).publish now) = .ok (db₁, held) ∧ db.events = db₁.events ∧ db.jobs = db₁.jobs := by
    intro db held h
    obtain ⟨⟨db₁, held₁⟩, hfinish, h⟩ := Result.bind_eq_ok.1 h
    simp only [Result.pure_eq_ok, Prod.mk.injEq] at h
    obtain ⟨rfl, rfl⟩ := h
    refine ⟨db₁, hfinish, ?_, ?_⟩ <;> split <;> rfl
  have hdecides : Decides config c.data now (.exportComplete c.data) (RoomExportAttempt.complete c.data now)
      ((completion config sha256Hex c result).publish now) := decides_complete (completion config sha256Hex c result)
  unfold RoomExports.complete
  split
  · exact .idle rfl rfl (.move rfl)
  · exact .idle rfl rfl (.move rfl)
  case h_3 db held hcomplete =>
    obtain ⟨db₁, hdb₁, hevents, hjobs⟩ := hfinish hcomplete
    exact effect_of_finishAttempt hc hdecides hdb₁ (by rw [← hevents]; rfl) hjobs (.move rfl)
  case h_4 db held hcomplete =>
    obtain ⟨db₁, hdb₁, hevents, hjobs⟩ := hfinish hcomplete
    exact effect_of_finishAttempt hc hdecides hdb₁ (by rw [← hevents]; rfl) hjobs (.leave rfl)

theorem effect_recordFailure {worker now : ℕ} {outcome : QueryOutcome} {c : Consumer} {error : RoomExportError} {random : ℚ}
    (hc : c ∈ s.consumers) :
    Effect config s (.recordFailure worker random now outcome) (s.recordFailure config c error random now outcome) := by
  unfold RoomExports.recordFailure
  dsimp only
  split
  · exact .idle rfl rfl (.leave rfl)
  · exact .idle rfl rfl (.leave rfl)
  case h_3 db held hfinish _ =>
    split at hfinish
    · exact effect_of_finishAttempt hc decides_fail hfinish rfl rfl (.leave rfl)
    case isFalse hterminal =>
      simp only [Bool.or_eq_true, decide_eq_true_eq, not_or] at hterminal
      exact effect_of_finishAttempt hc (decides_retry (Nat.lt_of_not_le hterminal.2)) hfinish rfl rfl (.leave rfl)

theorem effect_of_exec {a : ExportAction} (h : s.exec config sha256Hex a = some s') : Effect config s a s' := by
  cases a with
  | create eventId jobId requestedBy filters now =>
    simp only [exec] at h
    split at h
    · cases h
    case isFalse hnew =>
      obtain ⟨outbox, hexec, rfl⟩ := Option.map_eq_some_iff.1 h
      refine .created (fun j hj => ?_) hexec rfl (.refl rfl)
      simp only [List.any_eq_true, Bool.or_eq_true, decide_eq_true_eq, not_exists, not_and, not_or] at hnew
      exact hnew j hj
  | statement now st =>
    simp only [exec] at h
    split at h
    · cases h
    case isFalse hst =>
      obtain ⟨outbox, hexec, rfl⟩ := Option.map_eq_some_iff.1 h
      exact .statement (Bool.eq_false_iff.2 hst) hexec rfl (.refl rfl)
  | start worker data now outcome =>
    simp only [exec] at h
    split at h
    · cases h
    split at h
    · exact Option.some.inj h ▸ .idle rfl rfl (.refl rfl)
    · exact Option.some.inj h ▸ .idle rfl rfl (.refl rfl)
    case h_3 hclaim =>
      obtain ⟨⟨e, he, htype, hholds, -⟩, ⟨j, hj, hid, hevent, hs⟩, rfl⟩ := claim_eq_some hclaim
      exact Option.some.inj h ▸ .started he htype hholds hj hid hevent hs rfl rfl fun c hc => .inl hc
    case h_4 hclaim =>
      obtain ⟨⟨e, he, htype, hholds, -⟩, ⟨j, hj, hid, hevent, hs⟩, rfl⟩ := claim_eq_some hclaim
      refine Option.some.inj h ▸ .started he htype hholds hj hid hevent hs rfl rfl fun c hc => ?_
      refine (List.mem_append.1 hc).imp_right fun hc => ?_
      rw [List.mem_singleton.1 hc]
      exact ⟨rfl, rfl⟩
  | read worker rows =>
    simp only [exec, Option.bind_eq_bind, Option.bind_eq_some_iff] at h
    obtain ⟨c, -, h⟩ := h
    split at h
    · exact Option.some.inj h ▸ .idle rfl rfl (.move rfl)
    · exact Option.some.inj h ▸ .idle rfl rfl (.move rfl)
    · cases h
  | renew worker now outcome =>
    simp only [exec, Option.bind_eq_bind, Option.bind_eq_some_iff] at h
    obtain ⟨c, -, next, -, h⟩ := h
    exact Option.some.inj h ▸ effect_renew
  | generate worker generation =>
    simp only [exec, Option.bind_eq_bind, Option.bind_eq_some_iff] at h
    obtain ⟨c, -, h⟩ := h
    split at h
    case h_2 => cases h
    split at h <;> exact Option.some.inj h ▸ .idle rfl rfl (.move rfl)
  | insertUploadSafeguard worker taskId now outcome =>
    simp only [exec, Option.bind_eq_bind, Option.bind_eq_some_iff] at h
    obtain ⟨c, -, h⟩ := h
    split at h
    case h_2 => cases h
    obtain rfl := Option.some.inj h
    unfold RoomExports.insertUploadSafeguard
    split <;> exact .idle rfl rfl (.move rfl)
  | upload worker outcome =>
    simp only [exec, Option.bind_eq_bind, Option.bind_eq_some_iff] at h
    obtain ⟨c, -, h⟩ := h
    split at h
    case h_2 => cases h
    obtain rfl := Option.some.inj h
    cases outcome <;> exact .idle rfl rfl (.move rfl)
  | latePut objectKey =>
    obtain ⟨p, -, rfl⟩ := Option.map_eq_some_iff.1 h
    exact .idle rfl rfl (.refl rfl)
  | complete worker now outcome =>
    simp only [exec, Option.bind_eq_bind, Option.bind_eq_some_iff] at h
    obtain ⟨c, hc, h⟩ := h
    split at h
    case h_2 => cases h
    exact Option.some.inj h ▸ effect_complete (consumer_eq_some hc).1
  | recordFailure worker random now outcome =>
    simp only [exec, Option.bind_eq_bind, Option.bind_eq_some_iff] at h
    obtain ⟨c, hc, h⟩ := h
    split at h
    case h_2 => cases h
    exact Option.some.inj h ▸ effect_recordFailure (consumer_eq_some hc).1
  | crash worker => exact Option.some.inj h ▸ .idle rfl rfl (.leave rfl)
  | cleanup a =>
    obtain ⟨store, -, rfl⟩ := Option.map_eq_some_iff.1 h
    exact .idle rfl rfl (.refl rfl)

end RoomExports

end Effects

/-! ### The invariant -/

/-- The invariant of the exports. -/
structure RoomExports.Agreed (s : RoomExports) : Prop where
  outbox : Outbox.Inv s.outbox
  ids : Table.UniqueBy (·.id) s.jobs
  one : Table.UniqueBy (·.outboxEventId) s.jobs
  /-- An event has its job, and a job its event. -/
  jobs : ∀ e ∈ s.outbox.rows, e.eventType = roomExportEventType → ∃ j ∈ s.jobs, j.outboxEventId = e.id
  events : ∀ j ∈ s.jobs, ∃ e ∈ s.outbox.rows, e.id = j.outboxEventId ∧ e.eventType = roomExportEventType ∧ j.status ∈ jobStatusesOf e.status
  result : ∀ j ∈ s.jobs, j.status = .completed → j.HasResult
  claims : ∀ c ∈ s.consumers, c.data ∈ s.outbox.claims
  /-- An attempt is about the job of its event. -/
  attempts : ∀ c ∈ s.consumers, ∃ j ∈ s.jobs, j.id = c.claim.jobId ∧ j.outboxEventId = c.data.id
  /-- While its claim holds the event, the job is being processed. -/
  processing : ∀ c ∈ s.consumers, ∀ e ∈ s.outbox.rows, c.data.holds e = true → ∀ j ∈ s.jobs, j.outboxEventId = e.id → j.status = .processing

namespace RoomExports

section Inv

variable {config : ReportsConfig} {sha256Hex : Buffer → String} {s s' : RoomExports} {now : ℕ}

/-- The status of a job is one its event has. -/
theorem Agreed.status (hi : s.Agreed) {j : ExportJob} (hj : j ∈ s.jobs) {e : OutboxEvent} (he : e ∈ s.outbox.rows)
    (hid : e.id = j.outboxEventId) : j.status ∈ jobStatusesOf e.status := by
  obtain ⟨g, hg, hgj, -, hs⟩ := hi.events j hj
  obtain rfl := Table.UniqueBy.of_nodup hi.outbox.ids g hg e he (hgj.trans hid.symm)
  exact hs

/-- The invariant is carried over an update of the jobs, if each goes with its event. -/
theorem Agreed.carry (hi : s.Agreed) {p : ExportJob → Bool} {set : ExportJob → ExportJob} (hout : Outbox.Inv s'.outbox)
    (hjobs : s'.jobs = Table.update s.jobs p set) (hsame : ∀ j, (set j).id = j.id ∧ (set j).outboxEventId = j.outboxEventId)
    (hfrom : ∀ e' ∈ s'.outbox.rows, e'.eventType = roomExportEventType →
      ∃ e ∈ s.outbox.rows, e.id = e'.id ∧ e.eventType = roomExportEventType)
    (hevents : ∀ j ∈ s.jobs, ∀ e ∈ s.outbox.rows, e.id = j.outboxEventId → e.eventType = roomExportEventType →
      ∃ e' ∈ s'.outbox.rows, e'.id = e.id ∧ e'.eventType = roomExportEventType ∧
        (if p j then set j else j).status ∈ jobStatusesOf e'.status)
    (hresult : ∀ j, (j.status = .completed → j.HasResult) → (set j).status = .completed → (set j).HasResult)
    (hclaims : ∀ c ∈ s'.consumers, c.data ∈ s'.outbox.claims)
    (hattempts : ∀ c ∈ s'.consumers, ∃ j ∈ s.jobs, j.id = c.claim.jobId ∧ j.outboxEventId = c.data.id)
    (hprocessing : ∀ c ∈ s'.consumers, ∀ e' ∈ s'.outbox.rows, c.data.holds e' = true → ∀ j ∈ s.jobs, j.outboxEventId = e'.id →
      (if p j then set j else j).status = .processing) : s'.Agreed := by
  have hmem : ∀ j' ∈ s'.jobs, ∃ j ∈ s.jobs, j' = (if p j then set j else j) ∧ j'.id = j.id ∧ j'.outboxEventId = j.outboxEventId := by
    intro j' hj'
    rw [hjobs] at hj'
    obtain ⟨j, hj, ⟨hp, rfl⟩ | ⟨hp, rfl⟩⟩ := Table.mem_update.1 hj'
    · exact ⟨j, hj, by rw [if_pos hp], hsame j⟩
    · exact ⟨j, hj, by rw [hp, if_neg Bool.false_ne_true], rfl, rfl⟩
  have hback : ∀ j ∈ s.jobs, ∃ j' ∈ s'.jobs, j'.id = j.id ∧ j'.outboxEventId = j.outboxEventId := by
    intro j hj
    rw [hjobs]
    cases hp : p j
    · exact ⟨j, Table.mem_update_of_neg hj hp, rfl, rfl⟩
    · exact ⟨set j, Table.mem_update_of_pos hj hp, hsame j⟩
  refine ⟨hout, hjobs ▸ hi.ids.update fun j => (hsame j).1, hjobs ▸ hi.one.update fun j => (hsame j).2, ?_, ?_, ?_, hclaims, ?_, ?_⟩
  · intro e' he' htype
    obtain ⟨e, he, hid, htype'⟩ := hfrom e' he' htype
    obtain ⟨j, hj, hje⟩ := hi.jobs e he htype'
    obtain ⟨j', hj', -, hevent⟩ := hback j hj
    exact ⟨j', hj', hevent.trans (hje.trans hid)⟩
  · intro j' hj'
    obtain ⟨j, hj, hset, -, hevent⟩ := hmem j' hj'
    obtain ⟨e, he, hid, htype, -⟩ := hi.events j hj
    obtain ⟨e', he', hid', htype', hs⟩ := hevents j hj e he hid htype
    exact ⟨e', he', hid'.trans (hid.trans hevent.symm), htype', hset ▸ hs⟩
  · intro j' hj' hs
    rw [hjobs] at hj'
    obtain ⟨j, hj, ⟨-, rfl⟩ | ⟨-, rfl⟩⟩ := Table.mem_update.1 hj'
    · exact hresult j (hi.result j hj) hs
    · exact hi.result _ hj hs
  · intro c hc
    obtain ⟨j, hj, hid, hevent⟩ := hattempts c hc
    obtain ⟨j', hj', hid', hevent'⟩ := hback j hj
    exact ⟨j', hj', hid'.trans hid, hevent'.trans hevent⟩
  · intro c hc e' he' hholds j' hj' hje
    obtain ⟨j, hj, rfl, -, hevent⟩ := hmem j' hj'
    exact hprocessing c hc e' he' hholds j hj (hevent.symm.trans hje)

/-- A step that leaves the jobs alone, and decides no export. -/
theorem Agreed.quiet {st : Statement} (hi : s.Agreed) (h : s.outbox.exec now st = some s'.outbox)
    (hst : st.family = some .roomExport → st.decides = false)
    (hinsert : ∀ id payload key, st ≠ .insert id roomExportEventType payload key) (hjobs : s'.jobs = s.jobs) (hkeeps : s.Keeps s') :
    s'.Agreed := by
  refine hi.carry (inv_step hi.outbox h) (hjobs.trans Table.update_none.symm) (fun _ => ⟨rfl, rfl⟩) ?_ ?_ (fun _ hr => hr) ?_ ?_ ?_
  · intro e' he' htype
    rcases mem_of_exec hi.outbox h he' with ⟨e, he, hid, htype'⟩ | ⟨payload, key, hst⟩
    · exact ⟨e, he, hid, htype'.trans htype⟩
    · exact absurd (htype ▸ hst) (hinsert _ _ _)
  · intro j hj e he hid htype
    obtain ⟨e', he', hid', htype', hs⟩ := open_step hi.outbox h hst he (htype ▸ List.mem_cons_self)
    refine ⟨e', he', hid', htype'.trans htype, ?_⟩
    have hstatus := hi.status hj he hid
    rcases hs with hs | ⟨ho, ho'⟩
    · exact hs ▸ hstatus
    · rw [jobStatusesOf_of_isOpen ho] at hstatus
      rw [jobStatusesOf_of_isOpen ho']
      exact hstatus
  · intro c hc
    obtain ⟨d, hd, hdata, -⟩ := hkeeps c hc
    exact mem_claims_of_exec h (hdata ▸ hi.claims d hd)
  · intro c hc
    obtain ⟨d, hd, hdata, hclaim⟩ := hkeeps c hc
    exact hdata ▸ hclaim ▸ hi.attempts d hd
  · intro c hc e' he' hholds j hj hje
    obtain ⟨d, hd, hdata, -⟩ := hkeeps c hc
    obtain ⟨e, he, hold⟩ := holds_of_exec hi.outbox h (hdata ▸ hi.claims d hd) he' hholds
    have hid : e.id = e'.id := (ClaimKey.holds_iff.1 hold).1.trans (ClaimKey.holds_iff.1 hholds).1.symm
    exact hi.processing d hd e he (hdata ▸ hold) j hj (hje.trans hid.symm)

/-- A request writes the event and its job. -/
theorem Agreed.create {eventId jobId key : String} {requestedBy : ℕ} {filters payload : Json} (hi : s.Agreed)
    (hnew : ∀ j ∈ s.jobs, j.id ≠ jobId ∧ j.outboxEventId ≠ eventId)
    (h : s.outbox.exec now (.insert eventId roomExportEventType payload key) = some s'.outbox)
    (hjobs : s'.jobs = s.jobs ++ [.queued jobId requestedBy eventId filters]) (hkeeps : s.Keeps s') : s'.Agreed := by
  have hout : s'.outbox.rows = s.outbox.rows ++ [.fresh eventId roomExportEventType payload key now] ∧ s'.outbox.claims = s.outbox.claims := by
    simp only [State.exec] at h
    split at h
    · cases h
    · exact Option.some.inj h ▸ ⟨rfl, rfl⟩
  refine ⟨inv_step hi.outbox h, ?_, ?_, ?_, ?_, ?_, ?_, ?_, ?_⟩
  · exact hjobs ▸ hi.ids.insert fun j hj => (hnew j hj).1
  · exact hjobs ▸ hi.one.insert fun j hj => (hnew j hj).2
  · rw [hout.1, hjobs]
    refine List.forall_mem_append.2 ⟨fun e he htype => ?_, List.forall_mem_singleton.2 fun _ => ?_⟩
    · obtain ⟨j, hj, hje⟩ := hi.jobs e he htype
      exact ⟨j, List.mem_append_left _ hj, hje⟩
    · exact ⟨_, List.mem_append_right _ List.mem_cons_self, rfl⟩
  · rw [hout.1, hjobs]
    refine List.forall_mem_append.2 ⟨fun j hj => ?_, List.forall_mem_singleton.2 ?_⟩
    · obtain ⟨e, he, hej⟩ := hi.events j hj
      exact ⟨e, List.mem_append_left _ he, hej⟩
    · exact ⟨_, List.mem_append_right _ List.mem_cons_self, rfl, rfl, List.mem_cons_self⟩
  · rw [hjobs]
    exact List.forall_mem_append.2 ⟨hi.result, List.forall_mem_singleton.2 fun hs => by cases hs⟩
  · intro c hc
    obtain ⟨d, hd, hdata, -⟩ := hkeeps c hc
    exact hout.2 ▸ hdata ▸ hi.claims d hd
  · intro c hc
    obtain ⟨d, hd, hdata, hclaim⟩ := hkeeps c hc
    obtain ⟨j, hj, hid, hevent⟩ := hi.attempts d hd
    exact ⟨j, hjobs ▸ List.mem_append_left _ hj, hid.trans (congrArg _ hclaim), hevent.trans (congrArg _ hdata)⟩
  · intro c hc e he hholds j hj hje
    obtain ⟨d, hd, hdata, -⟩ := hkeeps c hc
    rw [hout.1] at he
    rcases List.mem_append.1 he with he | he
    · rw [hjobs] at hj
      rcases List.mem_append.1 hj with hj | hj
      · exact hi.processing d hd e he (hdata ▸ hholds) j hj hje
      · -- the event of the new job is new
        obtain ⟨k, hk, -, hkd⟩ := hi.attempts d hd
        rw [List.mem_singleton.1 hj] at hje
        have hke : k.outboxEventId = eventId := by
          rw [hkd, hdata, ← (ClaimKey.holds_iff.1 hholds).1]
          exact hje.symm
        exact absurd hke (hnew k hk).2
    · rw [List.mem_singleton.1 he] at hholds
      exact absurd (ClaimKey.holds_iff.1 hholds).2.1 (by simp [OutboxEvent.fresh])

/-- An attempt starts. -/
theorem Agreed.start {data : ClaimKey} {claim : RoomExportAttemptClaim} {e₀ : OutboxEvent} {j₀ : ExportJob} (hi : s.Agreed)
    (he₀ : e₀ ∈ s.outbox.rows) (hholds₀ : data.holds e₀ = true) (hj₀ : j₀ ∈ s.jobs) (hid₀ : j₀.id = claim.jobId)
    (hevent₀ : j₀.outboxEventId = data.id) (hout : s'.outbox = s.outbox)
    (hjobs : s'.jobs = Table.update s.jobs (·.id = claim.jobId) (.start now))
    (hconsumers : ∀ c ∈ s'.consumers, c ∈ s.consumers ∨ (c.data = data ∧ c.claim = claim)) : s'.Agreed := by
  refine hi.carry (hout ▸ hi.outbox) hjobs (fun _ => ⟨rfl, rfl⟩) ?_ ?_ ?_ ?_ ?_ ?_
  · exact fun e he htype => ⟨e, hout ▸ he, rfl, htype⟩
  · intro j hj e he hid htype
    refine ⟨e, hout ▸ he, rfl, htype, ?_⟩
    split
    case isTrue hp =>
      obtain rfl := hi.ids j hj j₀ hj₀ ((of_decide_eq_true hp).trans hid₀.symm)
      obtain rfl := Table.UniqueBy.of_nodup hi.outbox.ids e he e₀ he₀
        (hid.trans (hevent₀.trans (ClaimKey.holds_iff.1 hholds₀).1.symm))
      rw [(ClaimKey.holds_iff.1 hholds₀).2.1]
      exact List.mem_cons_of_mem _ List.mem_cons_self
    case isFalse => exact hi.status hj he hid
  · intro j _ hs
    cases hs
  · intro c hc
    rw [hout]
    rcases hconsumers c hc with hc | ⟨hdata, -⟩
    · exact hi.claims c hc
    · exact hi.outbox.mem_claims_of_holds he₀ (hdata ▸ hholds₀)
  · intro c hc
    rcases hconsumers c hc with hc | ⟨hdata, hclaim⟩
    · exact hi.attempts c hc
    · exact ⟨j₀, hj₀, hclaim ▸ hid₀, hdata ▸ hevent₀⟩
  · intro c hc e he hholds j hj hje
    split
    case isTrue => rfl
    case isFalse hp =>
      rcases hconsumers c hc with hc | ⟨rfl, -⟩
      · exact hi.processing c hc e (hout ▸ he) hholds j hj hje
      · obtain rfl := hi.one j hj j₀ hj₀ (hje.trans ((ClaimKey.holds_iff.1 hholds).1.trans hevent₀.symm))
        exact absurd (decide_eq_true hid₀) hp

/-- An attempt ends with its event. -/
theorem Agreed.finish {c₀ : Consumer} {st : Statement} {u : Update} {set : ExportJob → ExportJob} (hi : s.Agreed) (hc₀ : c₀ ∈ s.consumers)
    (hd : Decides config c₀.data now st u set) (hhits : u.hits s.outbox.rows = true)
    (hout : s'.outbox = { s.outbox with rows := u.run s.outbox.rows })
    (hjobs : s'.jobs = Table.update s.jobs (fun j => j.id = c₀.claim.jobId && j.status = .processing) set) (hkeeps : s.Keeps s') :
    s'.Agreed := by
  obtain ⟨e₀, he₀, hp₀⟩ := List.any_eq_true.1 hhits
  have hheld : ∀ e ∈ s.outbox.rows, u.pred e = true → c₀.data.holds e = true :=
    fun e he hp => (change_of_update hd.update (hi.outbox.lease e he) hp).holds _ hd.key
  have hid₀ := (ClaimKey.holds_iff.1 (hheld e₀ he₀ hp₀)).1
  obtain ⟨j₀, hj₀, hjob₀, hevent₀⟩ := hi.attempts c₀ hc₀
  have hexec : s.outbox.exec now st = some s'.outbox := hout ▸ exec_of_update hd.update
  -- the rows the statement matches, and the jobs the update does, are those of the attempt
  have hrow : ∀ e ∈ s.outbox.rows, e.id = c₀.data.id → e = e₀ := fun e he hid =>
    Table.UniqueBy.of_nodup hi.outbox.ids e he e₀ he₀ (hid.trans hid₀.symm)
  have hjob : ∀ j ∈ s.jobs, j.id = c₀.claim.jobId → j = j₀ := fun j hj hid => hi.ids j hj j₀ hj₀ (hid.trans hjob₀.symm)
  refine hi.carry (inv_step hi.outbox hexec) hjobs (fun j => ⟨hd.id j, hd.outboxEventId j⟩) ?_ ?_ (fun j _ => hd.result j) ?_ ?_ ?_
  · intro e' he' htype
    rw [hout] at he'
    obtain ⟨e, he, hc | rfl⟩ := mem_run hi.outbox.lease hd.update he'
    · exact ⟨e, he, hc.id.symm, hc.eventType.symm.trans htype⟩
    · exact ⟨_, he, rfl, htype⟩
  · intro j hj e he hid htype
    cases hp : u.pred e with
    | false =>
      refine ⟨e, hout ▸ Table.mem_update_of_neg he hp, rfl, htype, ?_⟩
      split
      case isTrue hpj =>
        simp only [Bool.and_eq_true, decide_eq_true_eq] at hpj
        obtain rfl := hjob j hj hpj.1
        rw [hrow e he (hid.trans hevent₀), hp₀] at hp
        cases hp
      case isFalse => exact hi.status hj he hid
    | true =>
      have hc := change_of_update hd.update (hi.outbox.lease e he) hp
      refine ⟨u.set e, hout ▸ Table.mem_update_of_pos he hp, hc.id, hc.eventType.trans htype, ?_⟩
      obtain rfl := hi.one j hj j₀ hj₀ (hid.symm.trans ((ClaimKey.holds_iff.1 (hheld e he hp)).1.trans hevent₀.symm))
      have hs := hi.processing c₀ hc₀ e he (hheld e he hp) j hj hid.symm
      rw [if_pos (by simp [hjob₀, hs])]
      exact hd.status e j
  · intro c hc
    obtain ⟨d, hd', hdata, -⟩ := hkeeps c hc
    rw [hout]
    exact hdata ▸ hi.claims d hd'
  · intro c hc
    obtain ⟨d, hd', hdata, hclaim⟩ := hkeeps c hc
    exact hdata ▸ hclaim ▸ hi.attempts d hd'
  · intro c hc e' he' hholds j hj hje
    obtain ⟨d, hd', hdata, -⟩ := hkeeps c hc
    obtain ⟨e, he, hold⟩ := holds_of_exec hi.outbox hexec (hdata ▸ hi.claims d hd') he' hholds
    have hid : e.id = e'.id := (ClaimKey.holds_iff.1 hold).1.trans (ClaimKey.holds_iff.1 hholds).1.symm
    split
    case isFalse => exact hi.processing d hd' e he (hdata ▸ hold) j hj (hje.trans hid.symm)
    case isTrue hpj =>
      simp only [Bool.and_eq_true, decide_eq_true_eq] at hpj
      obtain rfl := hjob j hj hpj.1
      -- the row the statement matched is held no more
      rw [hout] at he'
      obtain ⟨x, hx, ⟨hp, rfl⟩ | ⟨hp, rfl⟩⟩ := Table.mem_update.1 he'
      · exact absurd (ClaimKey.holds_iff.1 hholds).2.1 (hd.ended x)
      · rw [hrow x hx (hje.symm.trans hevent₀), hp₀] at hp
        cases hp

theorem Agreed.step {a : ExportAction} (hi : s.Agreed) (h : s.exec config sha256Hex a = some s') : s'.Agreed := by
  cases effect_of_exec h with
  | idle hout hjobs hkeeps =>
    refine hi.carry (hout ▸ hi.outbox) (hjobs.trans Table.update_none.symm) (fun _ => ⟨rfl, rfl⟩) ?_ ?_ (fun _ hr => hr) ?_ ?_ ?_
    · exact fun e he htype => ⟨e, hout ▸ he, rfl, htype⟩
    · exact fun j hj e he hid htype => ⟨e, hout ▸ he, rfl, htype, hi.status hj he hid⟩
    · intro c hc
      obtain ⟨d, hd, hdata, -⟩ := hkeeps c hc
      exact hout ▸ hdata ▸ hi.claims d hd
    · intro c hc
      obtain ⟨d, hd, hdata, hclaim⟩ := hkeeps c hc
      exact hdata ▸ hclaim ▸ hi.attempts d hd
    · intro c hc e he hholds j hj hje
      obtain ⟨d, hd, hdata, -⟩ := hkeeps c hc
      exact hi.processing d hd e (hout ▸ he) (hdata ▸ hholds) j hj hje
  | created hnew hexec hjobs hkeeps => exact hi.create hnew hexec hjobs hkeeps
  | @statement _ st _ hst hexec hjobs hkeeps =>
    refine hi.quiet hexec (fun hfam => ?_) ?_ hjobs hkeeps
    · cases st with
      | exportComplete | exportRetry | exportFail => cases hst
      | deliverySent | deliveryRetry | deliveryFailed | redrive | lifecyclePublished | lifecycleRetry | lifecycleFailed => cases hfam
      | _ => rfl
    · rintro id payload key rfl
      exact absurd hst (by simp [isReports])
  | renewed hexec hjobs hkeeps => exact hi.quiet hexec (fun _ => rfl) (fun _ _ _ => Statement.noConfusion) hjobs hkeeps
  | started he htype hholds hj hid hevent _ hout hjobs hconsumers => exact hi.start he hholds hj hid hevent hout hjobs hconsumers
  | decided hc hd hhits hout hjobs hkeeps => exact hi.finish hc hd hhits hout hjobs hkeeps

theorem agreed_of_reachable {C : RoomExports → ExportAction → Prop} (h : (exports config sha256Hex).Reachable C s) : s.Agreed := by
  refine h.invariant ?_ fun s a s' hi _ he => hi.step he
  rintro s rfl
  have hnil : ∀ {α : Type} {P : α → Prop}, ∀ x ∈ ([] : List α), P x := fun _ hx => absurd hx List.not_mem_nil
  exact ⟨Outbox.inv_of_reachable (.init rfl), hnil, hnil, hnil, hnil, hnil, hnil, hnil, hnil⟩

end Inv

end RoomExports

/-! ### The results -/

/-- The step commits the completion of a job. -/
def Commits (config : ReportsConfig) (sha256Hex : Buffer → String) (s : RoomExports) (a : ExportAction) (jobId : String) : Prop :=
  ∃ worker now outcome c result db, a = .complete worker now outcome ∧ s.consumer worker = some c ∧ c.phase = .publishing result ∧
    c.claim.jobId = jobId ∧ complete s.tables (RoomExports.completion config sha256Hex c result) now = .ok (db, true) ∧ outcome ≠ .failed

/-- An event and its job agree, in a state and in what can follow it. -/
structure Agreement (config : ReportsConfig) (sha256Hex : Buffer → String) (s : RoomExports) : Prop where
  /-- An event has one job. -/
  job : ∀ e ∈ s.outbox.rows, e.eventType = roomExportEventType →
    ∃ j ∈ s.jobs, j.outboxEventId = e.id ∧ ∀ k ∈ s.jobs, k.outboxEventId = e.id → k = j
  waiting : ∀ e ∈ s.outbox.rows, e.eventType = roomExportEventType → ∀ j ∈ s.jobs, j.outboxEventId = e.id →
    ((e.status = .pending ∨ e.status = .processing) ↔ (j.status = .queued ∨ j.status = .processing))
  processed : ∀ e ∈ s.outbox.rows, e.eventType = roomExportEventType → ∀ j ∈ s.jobs, j.outboxEventId = e.id →
    (e.status = .processed ↔ j.status = .completed)
  failed : ∀ e ∈ s.outbox.rows, e.eventType = roomExportEventType → ∀ j ∈ s.jobs, j.outboxEventId = e.id →
    (e.status = .failed ↔ j.status = .failed)
  result : ∀ j ∈ s.jobs, j.status = .completed → j.HasResult
  /-- Where the update of the event matches, that of the job does. -/
  matched : ∀ c ∈ s.consumers, ∀ e ∈ s.outbox.rows, c.data.holds e = true →
    ∃ j ∈ s.jobs, j.id = c.claim.jobId ∧ j.status = .processing
  /-- So `RoomExportJobStateError` is never thrown. -/
  returns : ∀ c ∈ s.consumers, ∀ now,
    (∀ result, ∃ r, complete s.tables (RoomExports.completion config sha256Hex c result) now = .ok r) ∧
    (∀ retryInMs errorCode, ∃ r, retry s.tables c.data c.claim.jobId retryInMs errorCode now = .ok r) ∧
    (∀ errorCode, ∃ r, fail s.tables c.data c.claim.jobId errorCode now = .ok r)
  /-- After the completion of a job is committed, none is again. -/
  once : ∀ jobId a, Commits config sha256Hex s a jobId → ∀ as s', (exports config sha256Hex).run s (a :: as) = some s' →
    ∀ b, ¬ Commits config sha256Hex s' b jobId

namespace RoomExports

section Results

variable {config : ReportsConfig} {sha256Hex : Buffer → String} {s s' : RoomExports} {now : ℕ}

theorem Agreed.matched (hi : s.Agreed) {c : Consumer} (hc : c ∈ s.consumers) {e : OutboxEvent} (he : e ∈ s.outbox.rows)
    (hholds : c.data.holds e = true) : ∃ j ∈ s.jobs, j.id = c.claim.jobId ∧ j.status = .processing := by
  obtain ⟨j, hj, hid, hevent⟩ := hi.attempts c hc
  exact ⟨j, hj, hid, hi.processing c hc e he hholds j hj (hevent.trans (ClaimKey.holds_iff.1 hholds).1.symm)⟩

/-- The end of an attempt is not refused. -/
theorem Agreed.finishAttempt_ok (hi : s.Agreed) {c : Consumer} (hc : c ∈ s.consumers) (outcome : Outcome) (set : ExportJob → ExportJob) :
    ∃ r, finishAttempt s.tables (finishEvent roomExportEventTypes c.data outcome now) c.claim.jobId set = .ok r := by
  unfold finishAttempt
  split
  case isTrue hhits =>
    obtain ⟨e, he, hp⟩ := List.any_eq_true.1 hhits
    simp only [finishEvent, Bool.and_eq_true] at hp
    obtain ⟨j, hj, hid, hs⟩ := hi.matched hc he hp.2
    have hjob : (s.tables.jobs.any fun j => j.id = c.claim.jobId && j.status = .processing) = true :=
      List.any_eq_true.2 ⟨j, hj, by simp [hid, hs]⟩
    rw [if_pos hjob]
    exact ⟨_, rfl⟩
  case isFalse => exact ⟨_, rfl⟩

/-- A completed job stays as it is. -/
theorem Agreed.completed_step {a : ExportAction} (hi : s.Agreed) (h : s.exec config sha256Hex a = some s') {j : ExportJob} (hj : j ∈ s.jobs)
    (hs : j.status = .completed) : j ∈ s'.jobs := by
  cases effect_of_exec h with
  | idle _ hjobs | statement _ _ hjobs | renewed _ hjobs => exact hjobs ▸ hj
  | created _ _ hjobs => exact hjobs ▸ List.mem_append_left _ hj
  | started _ _ _ hk hid _ hks _ hjobs =>
    refine hjobs ▸ Table.mem_update_of_neg hj (decide_eq_false fun hjid => ?_)
    obtain rfl := hi.ids j hj _ hk (hjid.trans hid.symm)
    rw [hs] at hks
    rcases hks with hks | hks <;> cases hks
  | decided _ _ _ _ hjobs =>
    refine hjobs ▸ Table.mem_update_of_neg hj ?_
    rw [hs]
    exact Bool.and_false _

/-- A completion that is committed completes its job. -/
theorem completed_of_commits {a : ExportAction} {jobId : String} (hc : Commits config sha256Hex s a jobId)
    (h : s.exec config sha256Hex a = some s') : ∃ j ∈ s'.jobs, j.id = jobId ∧ j.status = .completed := by
  obtain ⟨worker, now, outcome, c, result, db, rfl, hconsumer, hphase, rfl, hcomplete, houtcome⟩ := hc
  have hdb : ∃ j ∈ db.jobs, j.id = c.claim.jobId ∧ j.status = .completed := by
    obtain ⟨⟨db₁, held⟩, hfinish, hdb⟩ := Result.bind_eq_ok.1 hcomplete
    simp only [Result.pure_eq_ok, Prod.mk.injEq] at hdb
    obtain ⟨rfl, rfl⟩ := hdb
    rcases finishAttempt_eq_ok hfinish with ⟨hheld, -⟩ | ⟨-, -, ⟨j, hj, hid, hs⟩, rfl⟩
    · cases hheld
    · have hid : j.id = c.claim.jobId := hid
      have hp : (decide (j.id = c.claim.jobId) && decide (j.status = .processing)) = true := by simp [hid, hs]
      exact ⟨_, Table.mem_update_of_pos hj hp, hid, rfl⟩
  simp only [exec, hconsumer, hphase, Option.bind_eq_bind, Option.bind_some, RoomExports.complete, hcomplete] at h
  cases outcome with
  | failed => exact absurd rfl houtcome
  | committed | lostReply => exact Option.some.inj h ▸ hdb

/-- A completion is committed while the job is being processed. -/
theorem processing_of_commits {a : ExportAction} {jobId : String} (hc : Commits config sha256Hex s a jobId) :
    ∃ j ∈ s.jobs, j.id = jobId ∧ j.status = .processing := by
  obtain ⟨worker, now, outcome, c, result, db, -, -, -, rfl, hcomplete, -⟩ := hc
  obtain ⟨⟨db₁, held⟩, hfinish, hdb⟩ := Result.bind_eq_ok.1 hcomplete
  simp only [Result.pure_eq_ok, Prod.mk.injEq] at hdb
  obtain ⟨-, rfl⟩ := hdb
  rcases finishAttempt_eq_ok hfinish with ⟨hheld, -⟩ | ⟨-, -, hjob, -⟩
  · cases hheld
  · exact hjob

end Results

end RoomExports

open RoomExports in
/-- **An export event and its job agree** in every reachable state. -/
theorem export_agreement (config : ReportsConfig) (sha256Hex : Buffer → String) (s : RoomExports)
    (h : (exports config sha256Hex).Reachable (fun _ _ => True) s) : Agreement config sha256Hex s := by
  have hi := agreed_of_reachable h
  have hstatus : ∀ e ∈ s.outbox.rows, ∀ j ∈ s.jobs, j.outboxEventId = e.id → _ :=
    fun e he j hj hje => agree_of_mem_jobStatusesOf (hi.status hj he hje.symm)
  refine ⟨fun e he htype => ?_, fun e he _ j hj hje => (hstatus e he j hj hje).1, fun e he _ j hj hje => (hstatus e he j hj hje).2.1,
    fun e he _ j hj hje => (hstatus e he j hj hje).2.2, hi.result, fun c hc e he hholds => hi.matched hc he hholds,
    fun c hc now => ⟨fun result => ?_, fun _ _ => hi.finishAttempt_ok hc _ _, fun _ => hi.finishAttempt_ok hc _ _⟩,
    fun jobId a ha as s' hr b hb => ?_⟩
  · obtain ⟨j, hj, hje⟩ := hi.jobs e he htype
    exact ⟨j, hj, hje, fun k hk hke => hi.one k hk j hj (hke.trans hje.symm)⟩
  · obtain ⟨r, hr⟩ : ∃ r, finishAttempt s.tables (RoomExportAttempt.complete c.data now) c.claim.jobId
        ((RoomExports.completion config sha256Hex c result).publish now) = .ok r := hi.finishAttempt_ok hc _ _
    exact ⟨_, Result.bind_eq_ok.2 ⟨r, hr, rfl⟩⟩
  · rw [Machine.run_cons, Option.bind_eq_some_iff] at hr
    obtain ⟨t, ht, hr⟩ := hr
    obtain ⟨j, hj, hid, hs⟩ := completed_of_commits ha ht
    obtain ⟨hi', hj'⟩ := Machine.run_induction (M := exports config sha256Hex) (P := fun _ _ => True)
      (I := fun s => s.Agreed ∧ j ∈ s.jobs) (fun s a s' hi _ he => ⟨hi.1.step he, hi.1.completed_step he hi.2 hs⟩)
      (fun _ _ _ => trivial) ⟨hi.step ht, hj⟩ hr
    obtain ⟨k, hk, hkid, hks⟩ := processing_of_commits hb
    obtain rfl := hi'.ids k hk j hj' (hkid.trans hid.symm)
    rw [hs] at hks
    cases hks

theorem export_agreement_recoveredExport : ∃ s, (exports reportsConfig workbookSha256).run .empty recoveredExport = some s ∧
    s.outbox.rows.map (·.status) = [.processed] ∧ s.jobs.map (·.status) = [.completed] ∧
    Agreement reportsConfig workbookSha256 s := by
  have hview : ((exports reportsConfig workbookSha256).run .empty recoveredExport).map
      (fun s => (s.outbox.rows.map (·.status), s.jobs.map (·.status))) = some ([.processed], [.completed]) := by decide +kernel
  obtain ⟨s, hs, hview⟩ := Option.map_eq_some_iff.1 hview
  obtain ⟨hevents, hjobs⟩ := Prod.mk.inj hview
  exact ⟨s, hs, hevents, hjobs, export_agreement _ _ s (.of_run (.init rfl) (fun _ _ _ => trivial) hs)⟩

end HotelBackend.Reports
