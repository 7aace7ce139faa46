import HotelBackend.Retention.Tasks
import HotelBackend.Theory.Sweeps

/-!
# Exports whose objects are refused

The batches of `export-results` in one run, with budget left and no shutdown, against a
store that refuses to delete the objects under some keys. A job whose object is refused
stays due, and where it is in the order; so a batch is a sweep.
-/

namespace HotelBackend.Retention

open HotelBackend.Theory

/-- The due rows of `export_jobs`, in the order of `updated_at` and `id`, which is the primary key. -/
structure DueExports where
  jobs : List ExportBatchJob
  ids : (jobs.map (·.id)).Nodup

/-- The store refuses the object of the job. -/
def refusedBy? (refuses : String → Bool) (job : ExportBatchJob) : Bool := job.objectKey.any refuses

/-- What a batch meets: nothing that stops it, and a transaction that deletes the rows it is given. -/
def exportWorld (batchSize : ℕ) (refuses : String → Bool) (due : List ExportBatchJob) : BatchWorld where
  dueRows := .ok 0
  beforeCleanup _ := ⟨false, 0⟩
  cleanup _ := .ok .nothing
  beforeEvents := ⟨false, 0⟩
  dueEvents := .ok []
  deletedEvents := .ok (0, 0, 0)
  dueJobs := .ok due
  beforeObject _ := ⟨false, 0⟩
  refuses := refusedBy? refuses
  deletedJobs :=
    let removable := (removeObjects (fun _ => false) (refusedBy? refuses) 0 (due.take batchSize)).removable
    .ok (removable.length, removable.length)
  after := ⟨false, 0⟩

/-- The rows that are left once `DELETE … WHERE id IN (…)` has taken those of the batch. -/
def afterBatch (batchSize : ℕ) (refuses : String → Bool) (due : List ExportBatchJob) : List ExportBatchJob :=
  let removable := (removeObjects (fun _ => false) (refusedBy? refuses) 0 (due.take batchSize)).removable
  due.filter fun job => job.id ∉ removable.map (·.id)

/-- The rows that are left after so many batches of one run. -/
def exportRun (batchSize : ℕ) (refuses : String → Bool) : ℕ → List ExportBatchJob → List ExportBatchJob
  | 0, due => due
  | batches + 1, due =>
    match collectExportResults batchSize 1 (exportWorld batchSize refuses due) with
    | .error _ => due
    | .ok o =>
      if o.moreWaiting then exportRun batchSize refuses batches (afterBatch batchSize refuses due)
      else afterBatch batchSize refuses due

section Batches

variable {batchSize : ℕ} {refuses : String → Bool} {due : List ExportBatchJob}

/-- What an uninterrupted batch does with its jobs. -/
theorem removeObjects_uninterrupted (refuses : String → Bool) (i : ℕ) (jobs : List ExportBatchJob) :
    (removeObjects (fun _ => false) (refusedBy? refuses) i jobs).removable = jobs.filter (fun job => !refusedBy? refuses job) ∧
    (removeObjects (fun _ => false) (refusedBy? refuses) i jobs).retryableFailures = jobs.countP (refusedBy? refuses) ∧
    (removeObjects (fun _ => false) (refusedBy? refuses) i jobs).truncated = false := by
  induction jobs generalizing i with
  | nil => simp [removeObjects]
  | cons job jobs ih =>
    obtain ⟨hremovable, hrefused, htruncated⟩ := ih (i + 1)
    unfold removeObjects
    by_cases hkey : job.objectKey = none
    · have hstays : refusedBy? refuses job = false := by simp [refusedBy?, hkey]
      simp [hkey, hstays, hremovable, hrefused, htruncated]
    · by_cases href : refusedBy? refuses job = true
      · simp [hkey, href, hremovable, hrefused, htruncated]
      · simp [hkey, href, hremovable, hrefused, htruncated]

/-- A batch sweeps over the oldest due jobs. -/
theorem afterBatch_eq_sweep (hids : (due.map (·.id)).Nodup) :
    afterBatch batchSize refuses due = sweep (refusedBy? refuses) batchSize due := by
  have hsplit : due = due.take batchSize ++ due.drop batchSize := (List.take_append_drop _ _).symm
  have hinj : ∀ x ∈ due, ∀ y ∈ due, x.id = y.id → x = y := fun x hx y hy hxy => List.inj_on_of_nodup_map hids hx hy hxy
  unfold afterBatch
  dsimp only
  rw [(removeObjects_uninterrupted refuses 0 _).1, sweep]
  conv_lhs => arg 2; rw [hsplit]
  rw [List.filter_append]
  congr 1
  · refine List.filter_congr fun x hx => ?_
    have hmem : x.id ∈ ((due.take batchSize).filter fun job => !refusedBy? refuses job).map (·.id) ↔ refusedBy? refuses x = false := by
      constructor
      · intro h
        obtain ⟨y, hy, hyx⟩ := List.mem_map.1 h
        obtain ⟨hy, href⟩ := List.mem_filter.1 hy
        obtain rfl := hinj y (List.mem_of_mem_take hy) x (List.mem_of_mem_take hx) hyx
        simpa using href
      · exact fun h => List.mem_map.2 ⟨x, List.mem_filter.2 ⟨hx, by simp [h]⟩, rfl⟩
    cases href : refusedBy? refuses x <;> simp only [hmem, href, decide_not] <;> decide
  · refine List.filter_eq_self.2 fun x hx => ?_
    refine decide_eq_true fun h => ?_
    obtain ⟨y, hy, hyx⟩ := List.mem_map.1 h
    have hy := List.mem_of_mem_filter hy
    obtain rfl := hinj y (List.mem_of_mem_take hy) x (List.mem_of_mem_drop hx) hyx
    have hnodup := List.Nodup.of_map _ hids
    exact List.disjoint_of_nodup_append (hsplit ▸ hnodup) hy hx

/-- Nothing stops the batch. -/
theorem collectExportResults_eq : collectExportResults batchSize 1 (exportWorld batchSize refuses due) =
    exportOutcome batchSize (due.take batchSize) (removeObjects (fun _ => false) (refusedBy? refuses) 0 (due.take batchSize))
      (exportWorld batchSize refuses due).deletedJobs := rfl

/-- A batch after which the run stops has left only refused jobs. -/
theorem sweep_of_noMore (hsize : 1 ≤ batchSize) {o : RetentionBatchOutcome}
    (ho : collectExportResults batchSize 1 (exportWorld batchSize refuses due) = .ok o) (hmore : o.moreWaiting = false) :
    ∀ job ∈ sweep (refusedBy? refuses) batchSize due, refusedBy? refuses job = true := by
  obtain ⟨hremovable, hrefused, htruncated⟩ := removeObjects_uninterrupted refuses 0 (due.take batchSize)
  rw [collectExportResults_eq, exportOutcome] at ho
  have hall : due.take batchSize = due → ∀ job ∈ sweep (refusedBy? refuses) batchSize due, refusedBy? refuses job = true := by
    intro htake job hjob
    have hdrop : due.drop batchSize = [] := by
      have hlength := congrArg List.length htake
      rw [List.length_take] at hlength
      exact List.drop_eq_nil_of_le (by omega)
    rw [sweep, hdrop, List.append_nil] at hjob
    exact (List.mem_filter.1 hjob).2
  split at ho
  case isTrue hnil =>
    refine hall ?_
    rw [hnil, eq_nil_of_take_eq_nil hsize hnil]
  case isFalse hjobs =>
    split at ho
    case isTrue hnone =>
      -- all of the batch was refused, and the batch says that more is waiting
      obtain rfl := Except.ok.inj ho
      have hcount : (due.take batchSize).countP (refusedBy? refuses) = 0 := by
        simpa [hrefused, htruncated] using hmore
      rw [hremovable, List.filter_eq_nil_iff] at hnone
      obtain ⟨job, rest, hcons⟩ := List.exists_cons_of_ne_nil hjobs
      have hjob : job ∈ due.take batchSize := hcons ▸ List.mem_cons_self
      exact absurd (by simpa using List.countP_eq_zero.1 hcount job hjob) (hnone job hjob)
    case isFalse =>
      obtain rfl := Except.ok.inj ho
      simp only [htruncated, Bool.false_or] at hmore
      exact hall (take_eq_self_of_length_ne (of_decide_eq_false hmore))

theorem collectExportResults_ok (batchSize : ℕ) (refuses : String → Bool) (due : List ExportBatchJob) : ∃ o, collectExportResults batchSize 1 (exportWorld batchSize refuses due) = .ok o := by
  rw [collectExportResults_eq, exportOutcome]
  by_cases hnil : due.take batchSize = []
  · exact ⟨_, if_pos hnil⟩
  · rw [if_neg hnil]
    split
    · exact ⟨_, rfl⟩
    · exact ⟨_, rfl⟩

/-- The batches of a run are sweeps, one after the other. -/
theorem exportRun_eq_iterate (hsize : 1 ≤ batchSize) (hids : (due.map (·.id)).Nodup) (batches : ℕ) :
    exportRun batchSize refuses batches due = (sweep (refusedBy? refuses) batchSize)^[batches] due := by
  induction batches generalizing due with
  | zero => rfl
  | succ batches ih =>
    obtain ⟨o, ho⟩ := collectExportResults_ok batchSize refuses due
    have hids' : ((sweep (refusedBy? refuses) batchSize due).map (·.id)).Nodup := hids.sublist (sweep_sublist.map _)
    rw [Function.iterate_succ_apply, exportRun, ho]
    dsimp only
    rw [afterBatch_eq_sweep hids]
    by_cases hmore : o.moreWaiting = true
    · rw [if_pos hmore, ih hids']
    · rw [if_neg hmore]
      -- the run has stopped, and further sweeps would change nothing
      have hdone := sweep_of_noMore hsize ho (Bool.not_eq_true _ ▸ hmore)
      exact (iterate_eq_self (sweep_eq_self fun job hjob => hdone job (List.mem_of_mem_take hjob)) batches).symm

end Batches

/-- A run keeps every job whose object is refused. It gets to all others just if fewer refused jobs than a batch takes are
before the last of them, and to any of them just if fewer are before the first. -/
theorem exportRun_progress (batchSize : ℕ) (hsize : 1 ≤ batchSize) (refuses : String → Bool) (due : DueExports) :
    (∀ batches, ∀ job ∈ due.jobs, refusedBy? refuses job = true → job ∈ exportRun batchSize refuses batches due.jobs) ∧
    ((∃ batches, ∀ job ∈ exportRun batchSize refuses batches due.jobs, refusedBy? refuses job = true) ↔
      aheadOfLast (refusedBy? refuses) due.jobs < batchSize) ∧
    ((∃ job ∈ due.jobs, refusedBy? refuses job = false) →
      ((∃ batches, ∃ job ∈ due.jobs, refusedBy? refuses job = false ∧ job ∉ exportRun batchSize refuses batches due.jobs) ↔
        (due.jobs.takeWhile (refusedBy? refuses)).length < batchSize)) := by
  simp only [exportRun_eq_iterate hsize due.ids]
  exact ⟨fun batches job hjob href => mem_iterate hjob href batches, exists_cleared_iff hsize,
    fun hsome => exists_moved_iff hsome (List.Nodup.of_map _ due.ids)⟩

/-- A refused job that is older than one whose object can be deleted. -/
def refusedFirst : DueExports where
  jobs := [⟨"job-1", some "exports/job-1.xlsx", "event-1"⟩, ⟨"job-2", some "exports/job-2.xlsx", "event-2"⟩]
  ids := by decide

/-- With batches of one, a run never gets past it. -/
theorem exportRun_blocked : ¬ ∃ batches, ∃ job ∈ refusedFirst.jobs, refusedBy? (· = "exports/job-1.xlsx") job = false ∧
    job ∉ exportRun 1 (· = "exports/job-1.xlsx") batches refusedFirst.jobs := by
  intro hmoved
  have hself : sweep (refusedBy? (· = "exports/job-1.xlsx")) 1 refusedFirst.jobs = refusedFirst.jobs := by rfl
  obtain ⟨batches, job, hjob, -, hgone⟩ := hmoved
  rw [exportRun_eq_iterate (Nat.le_refl 1) refusedFirst.ids, iterate_eq_self hself] at hgone
  exact hgone hjob

theorem exportRun_progress_two : (∃ job ∈ refusedFirst.jobs, refusedBy? (· = "exports/job-1.xlsx") job = false) ∧
    ∃ batches, ∀ job ∈ exportRun 2 (· = "exports/job-1.xlsx") batches refusedFirst.jobs,
      refusedBy? (· = "exports/job-1.xlsx") job = true :=
  ⟨by decide, (exportRun_progress 2 (by decide) (· = "exports/job-1.xlsx") refusedFirst).2.1.2 (by decide)⟩

end HotelBackend.Retention
