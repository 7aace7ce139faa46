import HotelBackend.Retention.Continuations
import HotelBackend.Retention.Tasks

/-!
# The run of a task

`RetentionRunService.runTask` once it was granted a window: batch after batch, until one
reports that nothing is waiting, the stop flag is set, the budget is spent, or a batch
throws. Then it makes one call to the ledger, which this module follows to the row.
-/

namespace HotelBackend.Retention

open HotelBackend.Theory
open ScheduledRunRepository

/-! ### The loop -/

def classify : BatchError → RetentionErrorCode
  | .statementTimeout => .statementTimeout
  | .other => .taskFailed

/-- The locals of `runTask`. -/
structure TaskRun where
  counts : DeletedCounts
  batches : ℕ
  retryableFailures : ℕ

def TaskRun.start : TaskRun where
  counts := ∅
  batches := 0
  retryableFailures := 0

def TaskRun.add (t : TaskRun) (o : RetentionBatchOutcome) : TaskRun where
  counts := t.counts.addAll o.counts
  batches := t.batches + 1
  retryableFailures := t.retryableFailures + o.retryableFailures

/-- Why the loop ended. -/
inductive Ending where
  | noMore
  | interrupted
  | budgetSpent
  | threw (error : BatchError)
  deriving DecidableEq

/-- The loop over the batches; `none` while it runs. -/
def runBatches (taskName : RetentionTaskName) (batchSize deadline : ℕ) : TaskRun → List BatchWorld → Option (TaskRun × Ending)
  | _, [] => none
  | t, w :: ws =>
    match runBatch taskName batchSize deadline w with
    | .error error => some (t, .threw error)
    | .ok o =>
      if !o.moreWaiting then some (t.add o, .noMore)
      else if w.after.shouldStop then some (t.add o, .interrupted)
      else if deadline ≤ w.after.now then some (t.add o, .budgetSpent)
      else runBatches taskName batchSize deadline (t.add o) ws

/-- The code of a run that stopped short, if it did. -/
def incompleteCode (t : TaskRun) : Ending → Option RetentionErrorCode
  | .interrupted => some .shutdown
  | .budgetSpent => some .budgetSpent
  | .noMore => if 0 < t.retryableFailures then some .storageIncomplete else none
  | .threw error => some (classify error)

/-- The call the run makes to the ledger. -/
def finish (claim : ScheduledRunClaim) (heard : Bool) (t : TaskRun) (ending : Ending) : LedgerAction :=
  match incompleteCode t ending with
  | some errorCode => .fail claim { errorCode := errorCode, retryable := true } t.counts heard
  | none => .complete claim t.counts heard

/-- It is one of the calls the ledger was studied under. -/
theorem ofRunTask_finish (claim : ScheduledRunClaim) (heard : Bool) (t : TaskRun) (ending : Ending) :
    (finish claim heard t ending).ofRunTask = true := by
  unfold finish
  cases ending with
  | interrupted | budgetSpent => rfl
  | noMore =>
    simp only [incompleteCode]
    by_cases h : 0 < t.retryableFailures
    · simp [h, LedgerAction.ofRunTask, runTaskCodes]
    · simp [h, LedgerAction.ofRunTask]
  | threw error => cases error <;> rfl

/-! ### What the loop has seen -/

/-- The outcome of a batch that did not throw. -/
def outcome? (taskName : RetentionTaskName) (batchSize deadline : ℕ) (w : BatchWorld) : Option RetentionBatchOutcome :=
  (runBatch taskName batchSize deadline w).toOption

/-- What the batches that returned removed from a table. -/
def removedBy (taskName : RetentionTaskName) (batchSize deadline : ℕ) (ws : List BatchWorld) (table : String) : ℕ :=
  ((ws.filterMap (outcome? taskName batchSize deadline)).map (·.counts.count table)).sum

/-- What the stores refused in the batches that returned. -/
def refusedBy (taskName : RetentionTaskName) (batchSize deadline : ℕ) (ws : List BatchWorld) : ℕ :=
  ((ws.filterMap (outcome? taskName batchSize deadline)).map (·.retryableFailures)).sum

/-- A loop that ended: the batches before the last, and the last one. -/
structure Ran (taskName : RetentionTaskName) (batchSize deadline : ℕ) (t : TaskRun) (ran : List BatchWorld) (last : BatchWorld)
    (t' : TaskRun) (ending : Ending) : Prop where
  before : ∀ w ∈ ran, ∃ o, runBatch taskName batchSize deadline w = .ok o ∧ w.after.interrupted deadline = false
  noMore : ending = .noMore → ∃ o, runBatch taskName batchSize deadline last = .ok o ∧ o.moreWaiting = false
  counts : ∀ table, t'.counts.count table = t.counts.count table + removedBy taskName batchSize deadline (ran ++ [last]) table
  refused : t'.retryableFailures = t.retryableFailures + refusedBy taskName batchSize deadline (ran ++ [last])
  keys : (∀ table ∈ t.counts.keys, table ∈ countedTables) → ∀ table ∈ t'.counts.keys, table ∈ countedTables

section Loop

variable {taskName : RetentionTaskName} {batchSize deadline : ℕ} {t t' : TaskRun} {ws ran : List BatchWorld} {w last : BatchWorld}
  {ending : Ending} {o : RetentionBatchOutcome} {error : BatchError}

theorem outcome?_ok (h : runBatch taskName batchSize deadline w = .ok o) : outcome? taskName batchSize deadline w = some o := by
  rw [outcome?, h, Except.toOption]

theorem outcome?_error (h : runBatch taskName batchSize deadline w = .error error) : outcome? taskName batchSize deadline w = none := by
  rw [outcome?, h, Except.toOption]

theorem removedBy_cons_ok (h : runBatch taskName batchSize deadline w = .ok o) (table : String) :
    removedBy taskName batchSize deadline (w :: ws) table = o.counts.count table + removedBy taskName batchSize deadline ws table := by
  rw [removedBy, List.filterMap_cons_some (outcome?_ok h), List.map_cons, List.sum_cons, removedBy]

theorem refusedBy_cons_ok (h : runBatch taskName batchSize deadline w = .ok o) :
    refusedBy taskName batchSize deadline (w :: ws) = o.retryableFailures + refusedBy taskName batchSize deadline ws := by
  rw [refusedBy, List.filterMap_cons_some (outcome?_ok h), List.map_cons, List.sum_cons, refusedBy]

theorem mem_keys_addAll {t u : DeletedCounts} {table : String} (h : table ∈ (t.addAll u).keys) : table ∈ t.keys ∨ table ∈ u.keys := by
  have key : ∀ (es : List (Sigma fun _ : String => ℕ)) (t : DeletedCounts),
      table ∈ es.foldl (fun r e => r.bump e.1 e.2) t → table ∈ t ∨ table ∈ es.keys := by
    intro es
    induction es with
    | nil => exact fun t h => .inl h
    | cons e es ih =>
      intro t h
      rcases ih _ h with ht | hes
      · rcases (AList.mem_insert _).1 ht with rfl | ht
        · exact .inr List.mem_cons_self
        · exact .inl ht
      · exact .inr (List.mem_cons_of_mem _ hes)
  exact key _ _ h

theorem keys_add (hsize : 1 ≤ batchSize) (h : runBatch taskName batchSize deadline w = .ok o)
    (ht : ∀ table ∈ t.counts.keys, table ∈ countedTables) : ∀ table ∈ (t.add o).counts.keys, table ∈ countedTables :=
  fun table hmem => (mem_keys_addAll hmem).elim (ht table) ((runBatch_tells hsize h).keys table)

/-- The loop ends with the batch that returned. -/
theorem Ran.of_last (hsize : 1 ≤ batchSize) (h : runBatch taskName batchSize deadline w = .ok o)
    (hmore : ending = .noMore → o.moreWaiting = false) : Ran taskName batchSize deadline t [] w (t.add o) ending where
  before := fun _ hw => absurd hw List.not_mem_nil
  noMore hending := ⟨o, h, hmore hending⟩
  counts table := by
    rw [List.nil_append, removedBy_cons_ok h, TaskRun.add, Tally.count_addAll]
    rfl
  refused := by
    rw [List.nil_append, refusedBy_cons_ok h]
    rfl
  keys := keys_add hsize h

/-- The loop ends with the batch that threw. -/
theorem Ran.of_throw (h : runBatch taskName batchSize deadline w = .error error) :
    Ran taskName batchSize deadline t [] w t (.threw error) where
  before := fun _ hw => absurd hw List.not_mem_nil
  noMore hending := by cases hending
  counts table := by simp [removedBy, outcome?_error h]
  refused := by simp [refusedBy, outcome?_error h]
  keys := id

/-- One more batch before. -/
theorem Ran.cons (hsize : 1 ≤ batchSize) (h : runBatch taskName batchSize deadline w = .ok o)
    (hafter : w.after.interrupted deadline = false) (hran : Ran taskName batchSize deadline (t.add o) ran last t' ending) :
    Ran taskName batchSize deadline t (w :: ran) last t' ending where
  before := List.forall_mem_cons.2 ⟨⟨o, h, hafter⟩, hran.before⟩
  noMore := hran.noMore
  counts table := by
    rw [hran.counts, TaskRun.add, Tally.count_addAll, List.cons_append, removedBy_cons_ok h, Nat.add_assoc]
  refused := by
    rw [hran.refused, TaskRun.add, List.cons_append, refusedBy_cons_ok h, Nat.add_assoc]
  keys ht := hran.keys (keys_add hsize h ht)

/-- What a loop that ended has seen. -/
theorem ran_of_runBatches (hsize : 1 ≤ batchSize) (h : runBatches taskName batchSize deadline t ws = some (t', ending)) :
    ∃ ran last rest, ws = ran ++ last :: rest ∧ Ran taskName batchSize deadline t ran last t' ending := by
  induction ws generalizing t with
  | nil => cases h
  | cons w ws ih =>
    unfold runBatches at h
    split at h
    case h_1 error herror =>
      obtain ⟨rfl, rfl⟩ := Prod.mk.inj (Option.some.inj h)
      exact ⟨[], w, ws, rfl, .of_throw herror⟩
    case h_2 o ho =>
      by_cases hmore : o.moreWaiting = true
      · simp only [hmore, Bool.not_true, Bool.false_eq_true, if_false] at h
        by_cases hstop : w.after.shouldStop = true
        · rw [if_pos hstop] at h
          obtain ⟨rfl, rfl⟩ := Prod.mk.inj (Option.some.inj h)
          exact ⟨[], w, ws, rfl, .of_last hsize ho nofun⟩
        · rw [if_neg hstop] at h
          by_cases hdeadline : deadline ≤ w.after.now
          · rw [if_pos hdeadline] at h
            obtain ⟨rfl, rfl⟩ := Prod.mk.inj (Option.some.inj h)
            exact ⟨[], w, ws, rfl, .of_last hsize ho nofun⟩
          · rw [if_neg hdeadline] at h
            obtain ⟨ran, last, rest, rfl, hran⟩ := ih h
            exact ⟨w :: ran, last, rest, rfl, hran.cons hsize ho (by simp [Reading.interrupted, hstop, hdeadline])⟩
      · simp only [Bool.not_eq_true] at hmore
        simp only [hmore, Bool.not_false, if_true] at h
        obtain ⟨rfl, rfl⟩ := Prod.mk.inj (Option.some.inj h)
        exact ⟨[], w, ws, rfl, .of_last hsize ho fun _ => hmore⟩

/-- A loop that is recorded as complete took all that was due in its last batch, and nothing was refused in any. -/
theorem Ran.complete (hsize : 1 ≤ batchSize) (h : Ran taskName batchSize deadline .start ran last t ending)
    (hcode : incompleteCode t ending = none) :
    TookAll taskName batchSize deadline last ∧ ¬ CutShort taskName batchSize deadline last ∧
    (∀ w ∈ ran ++ [last], ∃ o, runBatch taskName batchSize deadline w = .ok o ∧ o.retryableFailures = 0) ∧
    ((∀ w ∈ ran, w.Steady) → ∀ w ∈ ran, ¬ CutShort taskName batchSize deadline w) := by
  cases ending with
  | interrupted | budgetSpent | threw => cases hcode
  | noMore =>
    have hzero : t.retryableFailures = 0 := by
      by_contra hpos
      simp [incompleteCode, Nat.pos_of_ne_zero hpos] at hcode
    have hnone : ∀ w ∈ ran ++ [last], ∀ o, runBatch taskName batchSize deadline w = .ok o → o.retryableFailures = 0 := by
      intro w hw o ho
      have hsum : refusedBy taskName batchSize deadline (ran ++ [last]) = 0 := by
        have := h.refused
        omega
      refine List.sum_eq_zero_iff_forall_eq_nat.1 hsum _ (List.mem_map.2 ⟨o, ?_, rfl⟩)
      exact List.mem_filterMap.2 ⟨w, hw, outcome?_ok ho⟩
    obtain ⟨o, ho, hmore⟩ := h.noMore rfl
    have htells := runBatch_tells hsize ho
    refine ⟨htells.tookAll hmore (hnone last (by simp) o ho), fun hcut => ?_, fun w hw => ?_, fun hsteady w hw hcut => ?_⟩
    · rw [htells.cutShort hcut] at hmore
      cases hmore
    · rcases List.mem_append.1 hw with hw' | hw'
      · obtain ⟨o', ho', -⟩ := h.before w hw'
        exact ⟨o', ho', hnone w hw o' ho'⟩
      · obtain rfl := List.mem_singleton.1 hw'
        exact ⟨o, ho, hnone w hw o ho⟩
    · obtain ⟨-, -, hafter⟩ := h.before w hw
      rw [after_interrupted (hsteady w hw) hcut] at hafter
      cases hafter

end Loop

/-! ### The call to the ledger -/

section Record

variable {maxAttempts now : ℕ} {s s' : Ledger} {a : LedgerAction}

open Ledger

/-- Only `complete` makes an open row a succeeded one. -/
theorem complete_of_succeeded (h : s.Agreed maxAttempts) (he : Effect maxAttempts now s a s') {r r' : ScheduledRun} (hr : r ∈ s.rows)
    (hopen : r.status = .claimed) (hr' : r' ∈ s'.rows) (hwindow : r'.window = r.window) (hdone : r'.status = .succeeded) :
    ∃ claim counts heard, a = .complete claim counts heard := by
  have hsame : r' ∈ s.rows → False := fun hmem => by
    rw [h.rows.windows r' hmem r hr hwindow, hopen] at hdone
    cases hdone
  have hupdate : ∀ {p : ScheduledRun → Bool} {f : ScheduledRun → ScheduledRun}, r' ∈ Table.update s.rows p f →
      (∀ y, (f y).window = y.window) → (∀ y, y.status = .claimed → (f y).status ≠ .succeeded) → False := by
    intro p f hmem hf hstatus
    obtain ⟨y, hy, ⟨-, rfl⟩ | ⟨-, rfl⟩⟩ := Table.mem_update.1 hmem
    · obtain rfl := h.rows.windows y hy r hr ((hf y).symm.trans hwindow)
      exact hstatus y hopen hdone
    · exact hsame hy
  cases he with
  | lose | grant | pass | nothing => exact (hsame hr').elim
  | win _ hnone =>
    rcases List.mem_append.1 hr' with hold | hnew
    · exact (hsame hold).elim
    · rw [List.mem_singleton.1 hnew] at hdone
      cases hdone
  | recover => exact (hupdate hr' (fun _ => rfl) fun y hy hs => by simp [recoverSet, hy] at hs).elim
  | abandon | rollOver => exact (hupdate hr' (fun _ => rfl) fun _ _ hs => by cases hs).elim
  | record ha =>
    cases a with
    | complete claim counts heard => exact ⟨claim, counts, heard, rfl⟩
    | fail claim failure counts heard =>
      refine (hupdate hr' (fun _ => window_close _ _) fun y hy hs => ?_).elim
      simp only [LedgerAction.close] at hs
      by_cases hback : handsBack claim failure maxAttempts = true
      · simp [hback, handBackSet, counted, recordCounts, hy] at hs
      · simp [hback, closeSet] at hs
    | claim | proceed | closeAbandonedBefore => cases ha

/-- A failure that may be retried, of a claim that holds its window with attempts left, hands the window back. -/
theorem handed_back_of_fail (hagreed : s.Agreed maxAttempts) (hchecks : ∀ r ∈ s.rows, r.checks = true) {claim : ScheduledRunClaim}
    {errorCode : RetentionErrorCode} {counts : DeletedCounts} {heard : Bool} (hkeys : counts.keys.all isUsableKey = true)
    (he : exec maxAttempts s (now, .fail claim { errorCode := errorCode, retryable := true } counts heard) = some s')
    (hheld : ∃ r ∈ s.rows, heldBy claim.claimToken now r = true) (hleft : claim.attempt < maxAttempts) :
    ∃ r ∈ s'.rows, r.window = claim.window ∧ r.status = .claimed ∧ r.expired now = true := by
  simp only [exec] at he
  split at he
  case isFalse => cases he
  case isTrue hgranted =>
    obtain rfl := Option.some.inj he
    obtain ⟨r, hr, hp⟩ := hheld
    have hback : handsBack claim { errorCode := errorCode, retryable := true } maxAttempts = true := by simp [handsBack, hleft]
    have hwindow := hagreed.window_of_heldBy hgranted hr hp
    simp only [fail, record, hkeys, hback, if_true]
    set f : ScheduledRun → ScheduledRun := fun r =>
      handBackSet errorCode now (recordCounts counts ((accumulateCounts counts r.deletedCounts).getD r.deletedCounts) now r) with hf
    have haccepted : (s.rows.all fun r => !heldBy claim.claimToken now r || (f r).checks) = true := by
      refine List.all_eq_true.2 fun y hy => ?_
      by_cases hyp : heldBy claim.claimToken now y = true
      · have hold := hchecks y hy
        simp only [heldBy, Bool.and_eq_true, decide_eq_true_eq] at hyp
        simp only [ScheduledRun.checks, ScheduledRun.lockShape, ScheduledRun.stateShape, ScheduledRun.finishedAfterStarted, hyp.1.1,
          hyp.1.2, Bool.and_eq_true, decide_eq_true_eq] at hold
        obtain ⟨⟨⟨-, -, hfinished⟩, hstarted⟩, hattempts⟩ := hold
        simp [hf, ScheduledRun.checks, ScheduledRun.lockShape, ScheduledRun.stateShape, ScheduledRun.finishedAfterStarted, handBackSet,
          recordCounts, hyp.1.1, hyp.1.2, hfinished, hstarted, hattempts]
      · simp [hyp]
    rw [update, if_pos haccepted, recorded]
    refine ⟨f r, Table.mem_update_of_pos hr hp, hwindow, ?_, ?_⟩
    · simp only [heldBy, Bool.and_eq_true, decide_eq_true_eq] at hp
      exact hp.1.2
    · simp [hf, ScheduledRun.expired, handBackSet]

/-- What is recorded is what the run counted. -/
theorem counts_of_finish {claim : ScheduledRunClaim} {heard : Bool} {t : TaskRun} {ending : Ending} {x : Recorded}
    (hx : (finish claim heard t ending).written = some x) : x.counts = t.counts ∧ x.claim = claim := by
  unfold finish at hx
  split at hx <;> exact Option.some.inj hx ▸ ⟨rfl, rfl⟩

/-- What a run leaves of its window. It is recorded as succeeded only if the last batch took all that was due and was
not cut short, and no batch was refused anything (nor cut short, if what the batches are told still holds after them);
otherwise a claim that holds its window below the last attempt hands it back. What is recorded as removed is what the
batches that returned have removed. -/
theorem succeeded_tookAll (hmax : 1 ≤ maxAttempts) {taskName : RetentionTaskName} {batchSize deadline : ℕ} (hsize : 1 ≤ batchSize)
    (h : (machine maxAttempts).Reachable (fun _ _ => True) s) {ws : List BatchWorld} {t : TaskRun} {ending : Ending}
    (hrun : runBatches taskName batchSize deadline .start ws = some (t, ending)) {claim : ScheduledRunClaim} {heard : Bool}
    (he : exec maxAttempts s (now, finish claim heard t ending) = some s') :
    ∃ ran last rest, ws = ran ++ last :: rest ∧
      ((∃ r ∈ s.rows, r.status = .claimed ∧ ∃ r' ∈ s'.rows, r'.window = r.window ∧ r'.status = .succeeded) →
        TookAll taskName batchSize deadline last ∧ ¬ CutShort taskName batchSize deadline last ∧
        (∀ w ∈ ran ++ [last], ∃ o, runBatch taskName batchSize deadline w = .ok o ∧ o.retryableFailures = 0) ∧
        ((∀ w ∈ ran, w.Steady) → ∀ w ∈ ran, ¬ CutShort taskName batchSize deadline w)) ∧
      (¬ (TookAll taskName batchSize deadline last ∧ ¬ CutShort taskName batchSize deadline last ∧
          ∀ w ∈ ran ++ [last], ∃ o, runBatch taskName batchSize deadline w = .ok o ∧ o.retryableFailures = 0) →
        (∃ r ∈ s.rows, heldBy claim.claimToken now r = true) → claim.attempt < maxAttempts →
        ∃ r ∈ s'.rows, r.window = claim.window ∧ r.status = .claimed ∧ r.expired now = true) ∧
      ∀ x, s'.records = s.records ++ [x] → ∀ table, x.counts.count table = removedBy taskName batchSize deadline (ran ++ [last]) table := by
  have hagreed := agreed_of_reachable hmax h
  have heffect := effect_of_exec he
  obtain ⟨ran, last, rest, hws, hran⟩ := ran_of_runBatches hsize hrun
  have hkeys : t.counts.keys.all isUsableKey = true :=
    List.all_eq_true.2 fun table ht => List.all_eq_true.1 countedTables_usable table (hran.keys no_keys table ht)
  refine ⟨ran, last, rest, hws, ?_, fun hnot hheld hleft => ?_, fun x hx table => ?_⟩
  · rintro ⟨r, hr, hopen, r', hr', hwindow, hdone⟩
    obtain ⟨claim', counts', heard', hcomplete⟩ := complete_of_succeeded hagreed heffect hr hopen hr' hwindow hdone
    refine hran.complete hsize ?_
    unfold finish at hcomplete
    split at hcomplete
    case h_1 => cases hcomplete
    case h_2 hnone => exact hnone
  · cases hcode : incompleteCode t ending with
    | none =>
      obtain ⟨htook, hcut, hrefused, -⟩ := hran.complete hsize hcode
      exact absurd ⟨htook, hcut, hrefused⟩ hnot
    | some errorCode =>
      rw [finish, hcode] at he
      exact handed_back_of_fail hagreed (checks_of_reachable h) hkeys he hheld hleft
  · have hentry : ∃ y, (finish claim heard t ending).written = some y := by
      unfold finish
      split <;> exact ⟨_, rfl⟩
    obtain ⟨y, hy⟩ := hentry
    have hrecords := heffect.records_eq hy (by rw [hx, List.length_append, List.length_singleton])
    obtain rfl : x = y := by simpa using hx.symm.trans hrecords
    rw [(counts_of_finish hy).1, hran.counts, TaskRun.start, Tally.count_empty, Nat.zero_add]

end Record

/-- A batch that finds the stop flag set. -/
def stoppedWorld : BatchWorld where
  dueRows := .ok 3
  beforeCleanup _ := ⟨true, 0⟩
  cleanup _ := .ok .nothing
  beforeEvents := ⟨true, 0⟩
  dueEvents := .ok []
  deletedEvents := .ok (0, 0, 0)
  dueJobs := .ok []
  beforeObject _ := ⟨true, 0⟩
  refuses _ := false
  deletedJobs := .ok (0, 0)
  after := ⟨true, 0⟩

/-- A batch takes the three sessions that are due, and the window is closed. -/
theorem succeeded_tookAll_sessions : ∃ s s', (Ledger.machine 3).run .empty Ledger.firstAttempt = some s ∧
    Ledger.exec 3 s (5, finish ⟨"run-1", .authSessions, 0, "token-1", 1⟩ true (TaskRun.start.add
      { counts := positiveCounts [("auth_sessions", 3)], moreWaiting := false, retryableFailures := 0 }) .noMore) = some s' ∧
    ∃ ran last rest, [stoppedWorld] = ran ++ last :: rest ∧
      ∀ x, s'.records = s.records ++ [x] → ∀ table, x.counts.count table = removedBy .authSessions 500 300000 (ran ++ [last]) table := by
  have hsome : (((Ledger.machine 3).run .empty Ledger.firstAttempt).bind fun s =>
      Ledger.exec 3 s (5, finish ⟨"run-1", .authSessions, 0, "token-1", 1⟩ true (TaskRun.start.add
        { counts := positiveCounts [("auth_sessions", 3)], moreWaiting := false, retryableFailures := 0 }) .noMore)).isSome = true := by
    rfl
  obtain ⟨s', hs'⟩ := Option.isSome_iff_exists.1 hsome
  obtain ⟨s, hs, hs'⟩ := Option.bind_eq_some_iff.1 hs'
  obtain ⟨ran, last, rest, hws, -, -, hcounts⟩ := succeeded_tookAll (by decide : 1 ≤ 3) (by decide : 1 ≤ 500)
    (Ledger.reachable_of_run hs) (rfl : runBatches .authSessions 500 300000 .start [stoppedWorld] = some (_, .noMore)) hs'
  exact ⟨s, s', hs, hs', ran, last, rest, hws, hcounts⟩

/-- A replica is stopped after another has taken its window over. -/
def overtaken : List (ℕ × LedgerAction) :=
  [(0, .claim 1 .notificationEvents 0 600000 "run-1" "token-1" false),
    (600000000, .claim 2 .notificationEvents 0 600000 "run-2" "token-2" false),
    (600000000, .proceed "token-2")]

theorem overtaken_rows : ((Ledger.machine 3).run .empty overtaken).bind (fun s =>
    (Ledger.exec 3 s (600000001, finish ⟨"run-1", .notificationEvents, 0, "token-1", 1⟩ true
      (TaskRun.start.add { counts := ∅, moreWaiting := true, retryableFailures := 0 }) .interrupted)).map fun s' =>
        s'.rows.all fun r => !r.expired 600000001) = some true := by
  rfl

/-- A run that stops short does not hand back a window it no longer holds. -/
theorem not_handed_back : ¬ ∀ s s' now t ending claim heard, (Ledger.machine 3).Reachable (fun _ _ => True) s →
    runBatches claim.taskName 500 300000 .start [stoppedWorld] = some (t, ending) → (∀ error, ending ≠ .threw error) →
    incompleteCode t ending ≠ none → Ledger.exec 3 s (now, finish claim heard t ending) = some s' →
    ∃ r ∈ s'.rows, r.window = claim.window ∧ r.status = .claimed ∧ r.expired now = true := by
  intro hall
  obtain ⟨s, hs, hstop⟩ := Option.bind_eq_some_iff.1 overtaken_rows
  obtain ⟨s', hs', hrows⟩ := Option.map_eq_some_iff.1 hstop
  obtain ⟨r, hr, -, -, hexpired⟩ := hall s s' _ _ _ ⟨"run-1", .notificationEvents, 0, "token-1", 1⟩ true (Ledger.reachable_of_run hs) rfl
    (fun _ => nofun) nofun hs'
  have hlive := List.all_eq_true.1 hrows r hr
  rw [hexpired] at hlive
  cases hlive

end HotelBackend.Retention
