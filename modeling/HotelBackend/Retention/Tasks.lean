import HotelBackend.Retention.Entities

/-!
# The batches of the tasks

`RetentionTasksService.runBatch`: one bounded pass of a task. What the pass meets is in a
`BatchWorld`: what is due when the batch reads it, what the stores answer, and what the
stop flag and the process clock say each time they are asked.
-/

namespace HotelBackend.Retention

open HotelBackend.Theory

/-! ### What a batch meets -/

/-- What a batch may throw. -/
inductive BatchError where
  /-- MySQL's 3024. -/
  | statementTimeout
  | other
  deriving DecidableEq

/-- What the stop flag and the process clock say when they are asked. -/
structure Reading where
  shouldStop : Bool
  now : ℕ
  deriving DecidableEq

def Reading.interrupted (deadline : ℕ) (x : Reading) : Bool := x.shouldStop || deadline ≤ x.now

/-- `StorageCleanupService.run` with one task: there was none to claim, or its object was deleted or refused. -/
inductive CleanupRun where
  | nothing
  | deleted
  | retryable
  deriving DecidableEq

namespace CleanupRun

/-- `result.claimed` -/
def claimedCount : CleanupRun → ℕ
  | nothing => 0
  | deleted | retryable => 1

/-- `result.deleted` -/
def deletedCount : CleanupRun → ℕ
  | deleted => 1
  | nothing | retryable => 0

/-- `result.retryable` -/
def retryableCount : CleanupRun → ℕ
  | retryable => 1
  | nothing | deleted => 0

end CleanupRun

/-- A job of a `RetentionExportBatch`. -/
structure ExportBatchJob where
  id : String
  objectKey : Option String
  outboxEventId : String
  deriving DecidableEq

/-- What a batch of any task meets. Due rows are in the order of their anchor column and id. -/
structure BatchWorld where
  /-- The rows a single-table purge would delete without its `LIMIT`. -/
  dueRows : Except BatchError ℕ
  /-- Before the calls of a drain, and what they answer. -/
  beforeCleanup : ℕ → Reading
  cleanup : ℕ → Except BatchError CleanupRun
  beforeEvents : Reading
  dueEvents : Except BatchError (List String)
  /-- The rows the transaction deletes: attempts, deliveries, events. -/
  deletedEvents : Except BatchError (ℕ × ℕ × ℕ)
  dueJobs : Except BatchError (List ExportBatchJob)
  beforeObject : ℕ → Reading
  refuses : ExportBatchJob → Bool
  /-- The rows the transaction deletes: jobs, events. -/
  deletedJobs : Except BatchError (ℕ × ℕ)
  /-- What the run finds after the batch. -/
  after : Reading

structure RetentionBatchOutcome where
  counts : DeletedCounts
  moreWaiting : Bool
  retryableFailures : ℕ

/-- The entries that are not zero. -/
def positiveCounts (entries : List (String × ℕ)) : DeletedCounts :=
  entries.foldl (fun counts e => if 0 < e.2 then counts.insert e.1 e.2 else counts) ∅

/-! ### The batches -/

/-- The table a single-table purge deletes from. -/
def purgedTable : RetentionTaskName → String
  | .authSessions => "auth_sessions"
  | .idempotencyKeys => "idempotency_keys"
  | _ => "outbox_events"

def purge (taskName : RetentionTaskName) (batchSize : ℕ) (w : BatchWorld) : Except BatchError RetentionBatchOutcome := do
  let due ← w.dueRows
  let deleted := min due batchSize
  return { counts := positiveCounts [(purgedTable taskName, deleted)], moreWaiting := deleted = batchSize, retryableFailures := 0 }

/-- Provider calls per batch of the drain. -/
def storageDrainBatchSize : ℕ := 25

/-- What a drain has done. -/
structure Drain where
  deleted : ℕ
  claimed : ℕ
  retryable : ℕ
  truncated : Bool

/-- The loop of `drainStorageTasks`, with some calls left. -/
def drainFrom (deadline : ℕ) (w : BatchWorld) : ℕ → Drain → Except BatchError Drain
  | 0, d => return d
  | left + 1, d =>
    let call := storageDrainBatchSize - (left + 1)
    if (w.beforeCleanup call).interrupted deadline then return { d with truncated := true }
    else do
      let result ← w.cleanup call
      if result.claimedCount = 0 then return d
      else
        drainFrom deadline w left
          { d with
            deleted := d.deleted + result.deletedCount
            claimed := d.claimed + result.claimedCount
            retryable := d.retryable + result.retryableCount }

def drain (deadline : ℕ) (w : BatchWorld) : Except BatchError Drain :=
  drainFrom deadline w storageDrainBatchSize { deleted := 0, claimed := 0, retryable := 0, truncated := false }

def drainStorageTasks (deadline : ℕ) (w : BatchWorld) : Except BatchError RetentionBatchOutcome := do
  let d ← drain deadline w
  return { counts := positiveCounts [("storage_cleanup_tasks", d.deleted)],
           moreWaiting := d.truncated || d.claimed = storageDrainBatchSize,
           retryableFailures := d.retryable }

def collectNotificationEvents (batchSize deadline : ℕ) (w : BatchWorld) : Except BatchError RetentionBatchOutcome :=
  if w.beforeEvents.interrupted deadline then return { counts := ∅, moreWaiting := true, retryableFailures := 0 }
  else do
    let due ← w.dueEvents
    let eventIds := due.take batchSize
    if eventIds = [] then return { counts := ∅, moreWaiting := false, retryableFailures := 0 }
    else
      let (attempts, deliveries, events) ← w.deletedEvents
      return { counts := positiveCounts [("email_send_attempts", attempts), ("email_deliveries", deliveries), ("outbox_events", events)],
               moreWaiting := eventIds.length = batchSize,
               retryableFailures := 0 }

/-- What came of the objects of a batch. -/
structure Removal where
  removable : List ExportBatchJob
  objectsDeleted : ℕ
  retryableFailures : ℕ
  truncated : Bool

/-- The loop of `collectExportResults`, from a job on. -/
def removeObjects (interrupted : ℕ → Bool) (refuses : ExportBatchJob → Bool) : ℕ → List ExportBatchJob → Removal
  | _, [] => { removable := [], objectsDeleted := 0, retryableFailures := 0, truncated := false }
  | i, job :: jobs =>
    if interrupted i then { removable := [], objectsDeleted := 0, retryableFailures := 0, truncated := true }
    else
      let rest := removeObjects interrupted refuses (i + 1) jobs
      if job.objectKey = none then { rest with removable := job :: rest.removable }
      else if refuses job then { rest with retryableFailures := rest.retryableFailures + 1 }
      else { rest with removable := job :: rest.removable, objectsDeleted := rest.objectsDeleted + 1 }

/-- The outcome of a batch of exports, once its objects are dealt with. -/
def exportOutcome (batchSize : ℕ) (jobs : List ExportBatchJob) (removal : Removal) (deletedJobs : Except BatchError (ℕ × ℕ)) :
    Except BatchError RetentionBatchOutcome :=
  if jobs = [] then return { counts := ∅, moreWaiting := false, retryableFailures := 0 }
  else if removal.removable = [] then
    return { counts := ∅, moreWaiting := removal.truncated || 0 < removal.retryableFailures,
             retryableFailures := removal.retryableFailures }
  else do
    let (deleted, events) ← deletedJobs
    return { counts := positiveCounts [("export_objects", removal.objectsDeleted), ("export_jobs", deleted), ("outbox_events", events)],
             moreWaiting := removal.truncated || jobs.length = batchSize,
             retryableFailures := removal.retryableFailures }

def collectExportResults (batchSize deadline : ℕ) (w : BatchWorld) : Except BatchError RetentionBatchOutcome := do
  let due ← w.dueJobs
  let jobs := due.take batchSize
  exportOutcome batchSize jobs (removeObjects (fun i => (w.beforeObject i).interrupted deadline) w.refuses 0 jobs) w.deletedJobs

def runBatch (taskName : RetentionTaskName) (batchSize deadline : ℕ) (w : BatchWorld) : Except BatchError RetentionBatchOutcome :=
  match taskName with
  | .authSessions | .idempotencyKeys | .bookingLifecycleEvents => purge taskName batchSize w
  | .storageTasks => drainStorageTasks deadline w
  | .notificationEvents => collectNotificationEvents batchSize deadline w
  | .exportResults => collectExportResults batchSize deadline w

/-! ### What a batch leaves -/

/-- The batch was cut short by the stop flag or the deadline. -/
def CutShort (taskName : RetentionTaskName) (batchSize deadline : ℕ) (w : BatchWorld) : Prop :=
  match taskName with
  | .authSessions | .idempotencyKeys | .bookingLifecycleEvents => False
  | .storageTasks => ∃ d, drain deadline w = .ok d ∧ d.truncated = true
  | .notificationEvents => w.beforeEvents.interrupted deadline = true
  | .exportResults => ∃ due, w.dueJobs = .ok due ∧
      (removeObjects (fun i => (w.beforeObject i).interrupted deadline) w.refuses 0 (due.take batchSize)).truncated = true

/-- The batch dealt with all that was due: it deleted every row, or met a drain with nothing to claim. -/
def TookAll (taskName : RetentionTaskName) (batchSize deadline : ℕ) (w : BatchWorld) : Prop :=
  match taskName with
  | .authSessions | .idempotencyKeys | .bookingLifecycleEvents => ∃ due, w.dueRows = .ok due ∧ min due batchSize = due
  | .storageTasks => ∃ call < storageDrainBatchSize, w.cleanup call = .ok .nothing
  | .notificationEvents => ∃ due, w.dueEvents = .ok due ∧ due.take batchSize = due
  | .exportResults => ∃ due, w.dueJobs = .ok due ∧
      (removeObjects (fun i => (w.beforeObject i).interrupted deadline) w.refuses 0 (due.take batchSize)).removable = due

/-! ### Counts -/

theorem keys_positiveCounts {entries : List (String × ℕ)} {table : String} (h : table ∈ (positiveCounts entries).keys) :
    table ∈ entries.map Prod.fst := by
  have key : ∀ (es : List (String × ℕ)) (counts : DeletedCounts),
      table ∈ es.foldl (fun counts e => if 0 < e.2 then counts.insert e.1 e.2 else counts) counts →
      table ∈ counts ∨ table ∈ es.map Prod.fst := by
    intro es
    induction es with
    | nil => exact fun counts h => .inl h
    | cons e es ih =>
      intro counts h
      rw [List.foldl_cons] at h
      rcases ih _ h with hc | hes
      · split at hc
        · rcases (AList.mem_insert _).1 hc with rfl | hc
          · exact .inr List.mem_cons_self
          · exact .inl hc
        · exact .inl hc
      · exact .inr (List.mem_cons_of_mem _ hes)
  exact (key entries ∅ h).resolve_left (AList.notMem_empty _)

/-- The tables the tasks count. -/
def countedTables : List String :=
  ["auth_sessions", "idempotency_keys", "outbox_events", "storage_cleanup_tasks", "email_send_attempts", "email_deliveries",
    "export_objects", "export_jobs"]

theorem countedTables_usable : countedTables.all isUsableKey = true := by
  rfl

/-! ### What an outcome tells -/

section Outcomes

variable {taskName : RetentionTaskName} {batchSize deadline : ℕ} {w : BatchWorld} {o : RetentionBatchOutcome}

/-- What the run can rely on. -/
structure RetentionBatchOutcome.Tells (taskName : RetentionTaskName) (batchSize deadline : ℕ) (w : BatchWorld) (o : RetentionBatchOutcome) :
    Prop where
  tookAll : o.moreWaiting = false → o.retryableFailures = 0 → TookAll taskName batchSize deadline w
  cutShort : CutShort taskName batchSize deadline w → o.moreWaiting = true
  keys : ∀ table ∈ o.counts.keys, table ∈ countedTables

theorem bind_ok {α β : Type} {x : Except BatchError α} {f : α → Except BatchError β} {b : β} (h : (x >>= f) = .ok b) :
    ∃ a, x = .ok a ∧ f a = .ok b := by
  cases x with
  | error e => cases h
  | ok a => exact ⟨a, rfl, h⟩

theorem tables_of_keys {entries : List (String × ℕ)} (h : ∀ table ∈ entries.map Prod.fst, table ∈ countedTables) :
    ∀ table ∈ (positiveCounts entries).keys, table ∈ countedTables :=
  fun table ht => h table (keys_positiveCounts ht)

theorem no_keys : ∀ table ∈ (∅ : DeletedCounts).keys, table ∈ countedTables := fun _ h => absurd h List.not_mem_nil

theorem purgedTable_counted (taskName : RetentionTaskName) : purgedTable taskName ∈ countedTables := by
  cases taskName <;> decide

theorem purge_tells (h : purge taskName batchSize w = .ok o) :
    (o.moreWaiting = false → ∃ due, w.dueRows = .ok due ∧ min due batchSize = due) ∧ ∀ table ∈ o.counts.keys, table ∈ countedTables := by
  obtain ⟨due, hdue, h⟩ := bind_ok h
  obtain rfl := Except.ok.inj h
  refine ⟨fun hmore => ⟨due, hdue, min_eq_left ?_⟩, tables_of_keys (List.forall_mem_singleton.2 (purgedTable_counted taskName))⟩
  have hne : min due batchSize ≠ batchSize := of_decide_eq_false hmore
  omega

/-- A drain that is not cut short and does not fill its batch met nothing to claim. -/
theorem drainFrom_ok {left : ℕ} {d d' : Drain} (hd : d.claimed + left = storageDrainBatchSize)
    (h : drainFrom deadline w left d = .ok d') :
    d'.truncated = true ∨ d'.claimed = storageDrainBatchSize ∨ ∃ call < storageDrainBatchSize, w.cleanup call = .ok .nothing := by
  induction left generalizing d with
  | zero =>
    obtain rfl := Except.ok.inj h
    exact .inr (.inl hd)
  | succ left ih =>
    unfold drainFrom at h
    dsimp only at h
    split at h
    case isTrue =>
      obtain rfl := Except.ok.inj h
      exact .inl rfl
    case isFalse =>
      obtain ⟨result, hresult, h⟩ := bind_ok h
      have hcall : storageDrainBatchSize - (left + 1) < storageDrainBatchSize :=
        Nat.sub_lt (by decide) (Nat.succ_pos left)
      cases result with
      | nothing => exact .inr (.inr ⟨_, hcall, hresult⟩)
      | deleted | retryable => exact ih (by simp only [CleanupRun.claimedCount]; omega) h

/-- A drain that is cut short was told so. -/
theorem interrupted_of_drainFrom {left : ℕ} {d d' : Drain} (hd : d.truncated = false) (h : drainFrom deadline w left d = .ok d')
    (ht : d'.truncated = true) : ∃ call, (w.beforeCleanup call).interrupted deadline = true := by
  induction left generalizing d with
  | zero =>
    obtain rfl := Except.ok.inj h
    rw [hd] at ht
    cases ht
  | succ left ih =>
    unfold drainFrom at h
    dsimp only at h
    split at h
    case isTrue hint => exact ⟨_, hint⟩
    case isFalse =>
      obtain ⟨result, -, h⟩ := bind_ok h
      split at h
      case isTrue =>
        obtain rfl := Except.ok.inj h
        rw [hd] at ht
        cases ht
      case isFalse => exact ih (by exact hd) h

theorem drainStorageTasks_tells (h : drainStorageTasks deadline w = .ok o) : o.Tells .storageTasks batchSize deadline w := by
  obtain ⟨d, hd, h⟩ := bind_ok h
  obtain rfl := Except.ok.inj h
  refine ⟨fun hmore _ => ?_, ?_, tables_of_keys (by simp [countedTables])⟩
  · obtain ⟨htruncated, hfull⟩ := Bool.or_eq_false_iff.1 hmore
    rcases drainFrom_ok (Nat.zero_add _) hd with ht | hclaimed | hcall
    · rw [htruncated] at ht
      cases ht
    · exact absurd hclaimed (of_decide_eq_false hfull)
    · exact hcall
  · rintro ⟨d', hd', ht⟩
    obtain rfl := Except.ok.inj (hd.symm.trans hd')
    rw [ht, Bool.true_or]

theorem take_eq_self_of_length_ne {α : Type} {l : List α} {n : ℕ} (h : (l.take n).length ≠ n) : l.take n = l := by
  refine List.take_of_length_le ?_
  rw [List.length_take] at h
  omega

theorem eq_nil_of_take_eq_nil {α : Type} {l : List α} {n : ℕ} (hn : 1 ≤ n) (h : l.take n = []) : l = [] :=
  (List.take_eq_nil_iff.1 h).resolve_left (by omega)

theorem collectNotificationEvents_tells (hsize : 1 ≤ batchSize) (h : collectNotificationEvents batchSize deadline w = .ok o) :
    o.Tells .notificationEvents batchSize deadline w := by
  unfold collectNotificationEvents at h
  split at h
  case isTrue hint =>
    obtain rfl := Except.ok.inj h
    exact ⟨fun hmore => (nomatch hmore), fun _ => rfl, no_keys⟩
  case isFalse hint =>
    obtain ⟨due, hdue, h⟩ := bind_ok h
    dsimp only at h
    split at h
    case isTrue hnil =>
      obtain rfl := Except.ok.inj h
      exact ⟨fun _ _ => ⟨due, hdue, by rw [hnil, eq_nil_of_take_eq_nil hsize hnil]⟩, fun hcut => absurd hcut hint, no_keys⟩
    case isFalse =>
      obtain ⟨⟨attempts, deliveries, events⟩, -, h⟩ := bind_ok h
      obtain rfl := Except.ok.inj h
      exact ⟨fun hmore _ => ⟨due, hdue, take_eq_self_of_length_ne (of_decide_eq_false hmore)⟩, fun hcut => absurd hcut hint,
        tables_of_keys (by simp [countedTables])⟩

/-- A batch of exports that was not cut short or refused deals with each of its jobs. -/
theorem removable_eq {interrupted : ℕ → Bool} {refuses : ExportBatchJob → Bool} {i : ℕ} {jobs : List ExportBatchJob}
    (ht : (removeObjects interrupted refuses i jobs).truncated = false)
    (hr : (removeObjects interrupted refuses i jobs).retryableFailures = 0) : (removeObjects interrupted refuses i jobs).removable = jobs := by
  induction jobs generalizing i with
  | nil => rfl
  | cons job jobs ih =>
    unfold removeObjects at ht hr ⊢
    split at ht
    case isTrue => cases ht
    case isFalse hint =>
      rw [if_neg hint] at hr ⊢
      dsimp only at ht hr ⊢
      split at ht
      case isTrue hkey =>
        rw [if_pos hkey] at hr ⊢
        exact congrArg _ (ih ht hr)
      case isFalse hkey =>
        rw [if_neg hkey] at hr ⊢
        split at ht
        case isTrue href =>
          rw [if_pos href] at hr
          cases hr
        case isFalse href =>
          rw [if_neg href] at hr ⊢
          exact congrArg _ (ih ht hr)

theorem interrupted_of_removeObjects {interrupted : ℕ → Bool} {refuses : ExportBatchJob → Bool} {i : ℕ} {jobs : List ExportBatchJob}
    (ht : (removeObjects interrupted refuses i jobs).truncated = true) : ∃ i, interrupted i = true := by
  induction jobs generalizing i with
  | nil => cases ht
  | cons job jobs ih =>
    unfold removeObjects at ht
    split at ht
    case isTrue hint => exact ⟨i, hint⟩
    case isFalse =>
      dsimp only at ht
      split at ht
      · exact ih ht
      · split at ht <;> exact ih ht

theorem collectExportResults_tells (hsize : 1 ≤ batchSize) (h : collectExportResults batchSize deadline w = .ok o) :
    o.Tells .exportResults batchSize deadline w := by
  obtain ⟨due, hdue, h⟩ := bind_ok h
  dsimp only at h
  generalize hremoval : removeObjects (fun i => (w.beforeObject i).interrupted deadline) w.refuses 0 (due.take batchSize) = removal at h
  have hcut : CutShort .exportResults batchSize deadline w → removal.truncated = true := by
    rintro ⟨due', hdue', ht⟩
    obtain rfl := Except.ok.inj (hdue.symm.trans hdue')
    exact hremoval ▸ ht
  have htook : removal.truncated = false → removal.retryableFailures = 0 → due.take batchSize = due →
      TookAll .exportResults batchSize deadline w :=
    fun ht hr htake => ⟨due, hdue, by rw [removable_eq (hremoval ▸ ht) (hremoval ▸ hr), htake]⟩
  unfold exportOutcome at h
  split at h
  case isTrue hnil =>
    obtain rfl := Except.ok.inj h
    rw [hnil] at hremoval
    subst hremoval
    refine ⟨fun _ _ => htook rfl rfl ?_, fun hc => (nomatch hcut hc), no_keys⟩
    rw [hnil, eq_nil_of_take_eq_nil hsize hnil]
  case isFalse hjobs =>
    split at h
    case isTrue hnone =>
      obtain rfl := Except.ok.inj h
      refine ⟨fun hmore hr => ?_, fun hc => ?_, no_keys⟩
      · obtain ⟨ht, -⟩ := Bool.or_eq_false_iff.1 hmore
        subst hremoval
        exact absurd ((removable_eq ht hr).symm.trans hnone) hjobs
      · simp only [hcut hc, Bool.true_or]
    case isFalse =>
      obtain ⟨⟨deleted, events⟩, -, h⟩ := bind_ok h
      obtain rfl := Except.ok.inj h
      refine ⟨fun hmore hr => ?_, fun hc => ?_, tables_of_keys (by simp [countedTables])⟩
      · obtain ⟨ht, hlength⟩ := Bool.or_eq_false_iff.1 hmore
        exact htook ht hr (take_eq_self_of_length_ne (of_decide_eq_false hlength))
      · simp only [hcut hc, Bool.true_or]

/-- What a batch reports of its task. -/
theorem runBatch_tells (hsize : 1 ≤ batchSize) (h : runBatch taskName batchSize deadline w = .ok o) :
    o.Tells taskName batchSize deadline w := by
  cases taskName with
  | authSessions | idempotencyKeys | bookingLifecycleEvents =>
    obtain ⟨htook, hkeys⟩ := purge_tells h
    exact ⟨fun hmore _ => htook hmore, False.elim, hkeys⟩
  | storageTasks => exact drainStorageTasks_tells h
  | notificationEvents => exact collectNotificationEvents_tells hsize h
  | exportResults => exact collectExportResults_tells hsize h

/-- What is asked before a step of the batch still holds after it. -/
structure BatchWorld.Steady (w : BatchWorld) : Prop where
  cleanup : ∀ call, ((w.beforeCleanup call).shouldStop = true → w.after.shouldStop = true) ∧ (w.beforeCleanup call).now ≤ w.after.now
  events : (w.beforeEvents.shouldStop = true → w.after.shouldStop = true) ∧ w.beforeEvents.now ≤ w.after.now
  object : ∀ i, ((w.beforeObject i).shouldStop = true → w.after.shouldStop = true) ∧ (w.beforeObject i).now ≤ w.after.now

theorem interrupted_mono {x y : Reading} (h : (x.shouldStop = true → y.shouldStop = true) ∧ x.now ≤ y.now)
    (hx : x.interrupted deadline = true) : y.interrupted deadline = true := by
  simp only [Reading.interrupted, Bool.or_eq_true, decide_eq_true_eq] at hx ⊢
  exact hx.imp h.1 fun hnow => hnow.trans h.2

/-- A batch that is cut short leaves the reason to the run. -/
theorem after_interrupted (hw : w.Steady) (h : CutShort taskName batchSize deadline w) : w.after.interrupted deadline = true := by
  cases taskName with
  | authSessions | idempotencyKeys | bookingLifecycleEvents => exact h.elim
  | storageTasks =>
    obtain ⟨d, hd, ht⟩ := h
    obtain ⟨call, hint⟩ := interrupted_of_drainFrom rfl hd ht
    exact interrupted_mono (hw.cleanup call) hint
  | notificationEvents => exact interrupted_mono hw.events h
  | exportResults =>
    obtain ⟨due, -, ht⟩ := h
    obtain ⟨i, hint⟩ := interrupted_of_removeObjects ht
    exact interrupted_mono (hw.object i) hint

end Outcomes

end HotelBackend.Retention
