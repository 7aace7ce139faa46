import Mathlib.Data.List.Sort
import HotelBackend.Theory.Runs
import HotelBackend.Theory.Tables

/-!
# Storage cleanup

`StorageCleanupService`: a worker claims a due task, deletes the task's object, deletes
the task, and releases the task if either call failed. `Store` is what the workers share:
the table, the object storage, and the workers that are between a claim and its end.

A storage call may carry out its request or not, may report a success or not, and a
request given up on may be carried out later (`late`). A query may commit or not, and a
commit may be reported as a failure. Any worker may stop at any time, and every clock is
its own: `now` is given with each action.
-/

namespace HotelBackend.Files

open HotelBackend.Theory

/-! ### The table -/

/-- Why an object is to be deleted. -/
inductive StorageCleanupReason where
  | uploadSafeguard
  | detachedObject
  deriving DecidableEq, Repr

/-- A row of `storage_cleanup_tasks`. Times are microseconds. -/
structure StorageCleanupTask where
  id : String
  objectKey : String
  reason : StorageCleanupReason
  availableAt : ℕ
  lockedAt : Option ℕ
  lockExpiresAt : Option ℕ
  lockedBy : Option String
  attempts : ℕ
  deriving DecidableEq, Repr

/-- A task as every writer inserts it. -/
def StorageCleanupTask.fresh (id objectKey : String) (reason : StorageCleanupReason) (availableAt : ℕ) : StorageCleanupTask where
  id := id
  objectKey := objectKey
  reason := reason
  availableAt := availableAt
  lockedAt := none
  lockExpiresAt := none
  lockedBy := none
  attempts := 0

/-- The insert is refused: its id or its object key is taken. -/
def isDuplicate (tasks : List StorageCleanupTask) (id objectKey : String) : Bool :=
  tasks.any fun t => t.id = id || t.objectKey = objectKey

/-- `insertUploadSafeguard`, of an attachment and of an export. -/
def insertUploadSafeguard (tasks : List StorageCleanupTask) (id objectKey : String) (availableAt : ℕ) :
    Option (List StorageCleanupTask) :=
  if isDuplicate tasks id objectKey then none else some (tasks ++ [.fresh id objectKey .uploadSafeguard availableAt])

/-- `scheduleDetachedCleanup`: a task for each key, each under its own id, or none at all. -/
def scheduleDetachedCleanup (tasks : List StorageCleanupTask) (availableAt : ℕ) :
    List (String × String) → Option (List StorageCleanupTask)
  | [] => some tasks
  | (id, objectKey) :: rest =>
    if isDuplicate tasks id objectKey then none
    else scheduleDetachedCleanup (tasks ++ [.fresh id objectKey .detachedObject availableAt]) availableAt rest

/-- `lockUploadSafeguard`. -/
def lockUploadSafeguard (tasks : List StorageCleanupTask) (objectKey : String) : Option StorageCleanupTask :=
  tasks.find? fun t => t.objectKey = objectKey && t.reason = .uploadSafeguard

/-- `DELETE FROM storage_cleanup_tasks WHERE object_key = ? AND reason = ?`. -/
def deleteByKey (tasks : List StorageCleanupTask) (objectKey : String) (reason : StorageCleanupReason) :
    List StorageCleanupTask :=
  Table.delete tasks fun t => t.objectKey = objectKey && t.reason = reason

/-- Due, and not leased. -/
def isClaimable (now : ℕ) (t : StorageCleanupTask) : Bool :=
  t.availableAt ≤ now && t.lockExpiresAt.all (· ≤ now)

/-- `ORDER BY available_at ASC, id ASC`. -/
def beforeTask (t u : StorageCleanupTask) : Prop :=
  t.availableAt < u.availableAt ∨ (t.availableAt = u.availableAt ∧ t.id ≤ u.id)

instance : DecidableRel beforeTask := fun _ _ => inferInstanceAs (Decidable (_ ∨ _))

/-- The task a claim takes; `skip` are the ids other transactions hold. -/
def candidate (tasks : List StorageCleanupTask) (skip : String → Bool) (now : ℕ) : Option StorageCleanupTask :=
  ((tasks.filter fun t => isClaimable now t && !skip t.id).insertionSort beforeTask).head?

/-- A claimed task. -/
def StorageCleanupTask.lease (workerId : String) (graceMs now : ℕ) (t : StorageCleanupTask) : StorageCleanupTask :=
  { t with lockedAt := some now, lockExpiresAt := some (now + graceMs * 1000), lockedBy := some workerId,
           attempts := t.attempts + 1 }

/-- `claimOne`: the table and the task taken. It fails if the row's `attempts + 1` does not fit the
column (strict SQL mode). -/
def claimOne (tasks : List StorageCleanupTask) (workerId : String) (graceMs : ℕ) (skip : String → Bool) (now : ℕ) :
    Option (List StorageCleanupTask × Option StorageCleanupTask) :=
  match candidate tasks skip now with
  | none => some (tasks, none)
  | some t =>
    if tasks.any (fun u => u.id = t.id && Table.maxSmallint ≤ u.attempts) then none
    else some (Table.update tasks (·.id = t.id) (.lease workerId graceMs now), some t)

/-- `release`: whoever holds the task by now. -/
def release (tasks : List StorageCleanupTask) (taskId : String) (graceMs now : ℕ) : List StorageCleanupTask :=
  Table.update tasks (·.id = taskId) fun t =>
    { t with lockedAt := none, lockExpiresAt := none, lockedBy := none, availableAt := now + graceMs * 1000 }

/-- The delete after a deletion of the object. -/
def deleteTask (tasks : List StorageCleanupTask) (taskId : String) : List StorageCleanupTask :=
  Table.delete tasks (·.id = taskId)

/-! ### The workers -/

/-- How far a worker is with its task. -/
inductive CleanerPhase where
  /-- The task is claimed, the object not asked for. -/
  | claimed
  /-- The object is gone. -/
  | deleted
  /-- A call failed. -/
  | failing
  deriving DecidableEq, Repr

/-- A run of the service, at a task. -/
structure Cleaner where
  run : ℕ
  taskId : String
  objectKey : String
  phase : CleanerPhase
  deriving DecidableEq, Repr

/-- What becomes of a storage call. -/
inductive CallOutcome where
  /-- Carried out and answered. -/
  | done
  /-- Carried out, and reported as failed. -/
  | lostReply
  /-- Not carried out. -/
  | refused
  /-- Reported as failed, and carried out later if at all. -/
  | late
  deriving DecidableEq, Repr

/-- What becomes of a query. -/
inductive QueryOutcome where
  | committed
  /-- Committed, and reported as failed. -/
  | lostReply
  | failed
  deriving DecidableEq, Repr

/-- What the workers share. -/
structure Store (Body : Type) where
  tasks : List StorageCleanupTask
  objects : String → Option Body
  /-- Deletes the provider has yet to carry out. -/
  late : List String
  cleaners : List Cleaner
  /-- The tasks claimed so far, a claim at a time. -/
  claims : List String

/-- A step of the workers, or of the provider. -/
inductive CleanupAction where
  | claim (run : ℕ) (workerId : String) (graceMs : ℕ) (skip : String → Bool) (now : ℕ)
  | deleteObject (run : ℕ) (outcome : CallOutcome)
  | deleteTask (run : ℕ) (outcome : QueryOutcome)
  | release (run : ℕ) (graceMs now : ℕ) (outcome : QueryOutcome)
  | crash (run : ℕ)
  | lateDelete (objectKey : String)

namespace Store

variable {Body : Type}

/-- The task a run is at. -/
def cleaner (s : Store Body) (run : ℕ) (phase : CleanerPhase) : Option Cleaner :=
  s.cleaners.find? fun c => c.run = run && c.phase = phase

/-- The run moves on. -/
def setPhase (s : Store Body) (run : ℕ) (phase : CleanerPhase) : List Cleaner :=
  Table.update s.cleaners (·.run = run) fun c => { c with phase := phase }

/-- The run is done with its task. -/
def leave (s : Store Body) (run : ℕ) : List Cleaner := Table.delete s.cleaners (·.run = run)

/-- The object is gone. -/
def without (objects : String → Option Body) (objectKey : String) : String → Option Body :=
  fun k => if k = objectKey then none else objects k

/-- `StorageCleanupService.run`, a call at a time. -/
def exec (s : Store Body) : CleanupAction → Option (Store Body)
  | .claim run workerId graceMs skip now =>
    if s.cleaners.any (·.run = run) then none
    else match claimOne s.tasks workerId graceMs skip now with
      | some (tasks, some t) =>
        some { s with tasks := tasks, cleaners := s.cleaners ++ [⟨run, t.id, t.objectKey, .claimed⟩],
                      claims := s.claims ++ [t.id] }
      | _ => some s
  | .deleteObject run outcome => (s.cleaner run .claimed).map fun c =>
    match outcome with
    | .done => { s with objects := without s.objects c.objectKey, cleaners := s.setPhase run .deleted }
    | .lostReply => { s with objects := without s.objects c.objectKey, cleaners := s.setPhase run .failing }
    | .refused => { s with cleaners := s.setPhase run .failing }
    | .late => { s with late := c.objectKey :: s.late, cleaners := s.setPhase run .failing }
  | .deleteTask run outcome => (s.cleaner run .deleted).map fun c =>
    match outcome with
    | .committed => { s with tasks := Files.deleteTask s.tasks c.taskId, cleaners := s.leave run }
    | .lostReply => { s with tasks := Files.deleteTask s.tasks c.taskId, cleaners := s.setPhase run .failing }
    | .failed => { s with cleaners := s.setPhase run .failing }
  | .release run graceMs now outcome => (s.cleaner run .failing).map fun c =>
    match outcome with
    | .committed | .lostReply => { s with tasks := Files.release s.tasks c.taskId graceMs now, cleaners := s.leave run }
    | .failed => { s with cleaners := s.leave run }
  | .crash run => some { s with cleaners := s.leave run }
  | .lateDelete objectKey =>
    if objectKey ∈ s.late then some { s with objects := without s.objects objectKey, late := s.late.erase objectKey }
    else none

/-! ### What a step of the workers does -/

/-- A delete of the object is to come: a worker has its task claimed, or the provider owes it. -/
def Condemned (s : Store Body) (objectKey : String) : Prop :=
  (∃ c ∈ s.cleaners, c.phase = .claimed ∧ c.objectKey = objectKey) ∨ objectKey ∈ s.late

/-- The id and the key of each task. -/
def keys (tasks : List StorageCleanupTask) : List (String × String) := tasks.map fun t => (t.id, t.objectKey)

/-- The task is released. -/
def Releases (s : Store Body) (a : CleanupAction) (taskId : String) : Prop :=
  ∃ run graceMs now outcome c, a = .release run graceMs now outcome ∧ outcome ≠ .failed ∧
    s.cleaner run .failing = some c ∧ c.taskId = taskId

instance (s : Store Body) (objectKey : String) : Decidable (s.Condemned objectKey) :=
  inferInstanceAs (Decidable ((∃ c ∈ s.cleaners, c.phase = .claimed ∧ c.objectKey = objectKey) ∨ objectKey ∈ s.late))

theorem releases_release {s : Store Body} {run graceMs now : ℕ} {outcome : QueryOutcome} {taskId : String} :
    s.Releases (.release run graceMs now outcome) taskId ↔
      outcome ≠ .failed ∧ ∃ c ∈ s.cleaner run .failing, c.taskId = taskId := by
  constructor
  · rintro ⟨run, graceMs, now, outcome, c, ⟨⟩, houtcome, hc, hid⟩
    exact ⟨houtcome, c, hc, hid⟩
  · rintro ⟨houtcome, c, hc, hid⟩
    exact ⟨run, graceMs, now, outcome, c, rfl, houtcome, hc, hid⟩

instance (s : Store Body) (a : CleanupAction) (taskId : String) : Decidable (s.Releases a taskId) :=
  match a with
  | .release .. => decidable_of_iff _ releases_release.symm
  | .claim .. | .deleteObject .. | .deleteTask .. | .crash .. | .lateDelete .. =>
    isFalse fun ⟨_, _, _, _, _, ha, _⟩ => by cases ha

/-- The counter of a task fits its column, and counts claims. -/
def Counted (claims : List String) (t : StorageCleanupTask) : Prop :=
  t.attempts ≤ Table.maxSmallint ∧ t.attempts ≤ claims.count t.id

/-- What a step of the workers can do. -/
structure Effect (s : Store Body) (a : CleanupAction) (s' : Store Body) : Prop where
  /-- An object goes only if its delete was to come. -/
  objects : ∀ k, s'.objects k = s.objects k ∨ s.Condemned k
  /-- A delete comes to be due only through a claim, which leases the task. -/
  condemned : ∀ k, s'.Condemned k → s.Condemned k ∨
    ∃ t ∈ s.tasks, t.objectKey = k ∧ ∀ t' ∈ s'.tasks, t'.id = t.id → t'.lockExpiresAt ≠ none
  /-- A task was there before, and lost its lease only by a release. -/
  tasks : ∀ t' ∈ s'.tasks, ∃ t ∈ s.tasks, t'.id = t.id ∧ t'.objectKey = t.objectKey ∧ t'.reason = t.reason ∧
    (t'.lockExpiresAt = none → t.lockExpiresAt = none ∨ s.Releases a t.id) ∧ (Counted s.claims t → Counted s'.claims t')
  keys : (keys s'.tasks).Sublist (keys s.tasks)

section Effects

variable {s s' : Store Body} {a : CleanupAction} {tasks : List StorageCleanupTask} {cleaners : List Cleaner}

theorem cleaner_eq_some {run : ℕ} {phase : CleanerPhase} {c : Cleaner} (h : s.cleaner run phase = some c) :
    c ∈ s.cleaners ∧ c.run = run ∧ c.phase = phase := by
  have hp := List.find?_some h
  simp only [Bool.and_eq_true, decide_eq_true_eq] at hp
  exact ⟨List.mem_of_find?_eq_some h, hp⟩

/-- A worker that has moved on is no threat. -/
theorem mem_setPhase {run : ℕ} {phase : CleanerPhase} (hphase : phase ≠ .claimed) {c : Cleaner}
    (hc : c ∈ s.setPhase run phase) (hclaimed : c.phase = .claimed) : c ∈ s.cleaners := by
  obtain ⟨d, hd, ⟨-, rfl⟩ | ⟨-, rfl⟩⟩ := Table.mem_update.1 hc
  · exact absurd hclaimed hphase
  · exact hd

theorem mem_leave {run : ℕ} {c : Cleaner} (hc : c ∈ s.leave run) : c ∈ s.cleaners := (Table.mem_delete.1 hc).1

/-- Fewer workers threaten less. -/
theorem Condemned.of_subset {objects : String → Option Body} {late : List String} {claims : List String} {k : String}
    (hcleaners : ∀ c ∈ cleaners, c.phase = .claimed → c ∈ s.cleaners) (hlate : late ⊆ s.late)
    (h : Condemned ⟨tasks, objects, late, cleaners, claims⟩ k) : s.Condemned k := by
  rcases h with ⟨c, hc, hclaimed, hk⟩ | h
  · exact .inl ⟨c, hcleaners c hc hclaimed, hclaimed, hk⟩
  · exact .inr (hlate h)

theorem without_eq {objects : String → Option Body} {objectKey k : String} (h : k ≠ objectKey) :
    without objects objectKey k = objects k := if_neg h

/-- The task a claim takes. -/
theorem claimOne_eq_some {workerId : String} {graceMs now : ℕ} {skip : String → Bool} {tasks' : List StorageCleanupTask}
    {t : StorageCleanupTask} (h : claimOne tasks workerId graceMs skip now = some (tasks', some t)) :
    t ∈ tasks ∧ isClaimable now t = true ∧ (∀ u ∈ tasks, u.id = t.id → u.attempts < Table.maxSmallint) ∧
      tasks' = Table.update tasks (·.id = t.id) (.lease workerId graceMs now) := by
  unfold claimOne at h
  split at h
  · cases h
  case h_2 u hu =>
    split at h
    · cases h
    case isFalse hroom =>
      obtain ⟨rfl, ht⟩ := Prod.mk.inj (Option.some.inj h)
      obtain rfl := Option.some.inj ht
      have hmem := (List.perm_insertionSort _ _).mem_iff.1 (List.mem_of_mem_head? hu)
      rw [List.mem_filter, Bool.and_eq_true] at hmem
      refine ⟨hmem.1, hmem.2.1, fun u hu hid => not_le.1 fun hle => hroom (List.any_eq_true.2 ⟨u, hu, ?_⟩), rfl⟩
      rw [Bool.and_eq_true, decide_eq_true_eq, decide_eq_true_eq]
      exact ⟨hid, hle⟩

theorem keys_update {p : StorageCleanupTask → Bool} {f : StorageCleanupTask → StorageCleanupTask}
    (hf : ∀ t, (f t).id = t.id ∧ (f t).objectKey = t.objectKey) : (keys (Table.update tasks p f)).Sublist (keys tasks) := by
  rw [keys, Table.map_update fun t _ _ => Prod.ext (hf t).1 (hf t).2]
  exact List.Sublist.refl _

theorem keys_delete (p : StorageCleanupTask → Bool) : (keys (Table.delete tasks p)).Sublist (keys tasks) :=
  List.filter_sublist.map _

/-- A step that leaves the table and the objects alone. -/
theorem Effect.of_cleaners {late : List String} (hcleaners : ∀ c ∈ cleaners, c.phase = .claimed → c ∈ s.cleaners)
    (hlate : ∀ k ∈ late, s.Condemned k) : Effect s a ⟨s.tasks, s.objects, late, cleaners, s.claims⟩ where
  objects _ := .inl rfl
  condemned k h := by
    rcases h with ⟨c, hc, hclaimed, hk⟩ | h
    · exact .inl (.inl ⟨c, hcleaners c hc hclaimed, hclaimed, hk⟩)
    · exact .inl (hlate k h)
  tasks t ht := ⟨t, ht, rfl, rfl, rfl, .inl, id⟩
  keys := List.Sublist.refl _

/-- A step that carries a delete out. -/
theorem Effect.of_delete {k : String} {late : List String} (hcleaners : ∀ c ∈ cleaners, c.phase = .claimed → c ∈ s.cleaners)
    (hlate : late ⊆ s.late) (hk : s.Condemned k) : Effect s a ⟨s.tasks, without s.objects k, late, cleaners, s.claims⟩ where
  objects k' := by
    by_cases h : k' = k
    · exact .inr (h ▸ hk)
    · exact .inl (without_eq h)
  condemned _ h := .inl (Condemned.of_subset hcleaners hlate h)
  tasks t ht := ⟨t, ht, rfl, rfl, rfl, .inl, id⟩
  keys := List.Sublist.refl _

/-- A step that deletes a task. -/
theorem Effect.of_deleteTask {taskId : String} (hcleaners : ∀ c ∈ cleaners, c.phase = .claimed → c ∈ s.cleaners) :
    Effect s a ⟨Files.deleteTask s.tasks taskId, s.objects, s.late, cleaners, s.claims⟩ where
  objects _ := .inl rfl
  condemned _ h := .inl (Condemned.of_subset hcleaners (List.Subset.refl _) h)
  tasks t ht := ⟨t, (Table.mem_delete.1 ht).1, rfl, rfl, rfl, .inl, id⟩
  keys := keys_delete _

theorem Effect.of_release {run graceMs now : ℕ} {outcome : QueryOutcome} {c : Cleaner} (houtcome : outcome ≠ .failed)
    (hc : s.cleaner run .failing = some c) : Effect s (.release run graceMs now outcome)
      ⟨Files.release s.tasks c.taskId graceMs now, s.objects, s.late, s.leave run, s.claims⟩ where
  objects _ := .inl rfl
  condemned _ h := .inl (Condemned.of_subset (fun _ hd _ => mem_leave hd) (List.Subset.refl _) h)
  tasks t' ht' := by
    obtain ⟨t, ht, ⟨hp, rfl⟩ | ⟨-, rfl⟩⟩ := Table.mem_update.1 ht'
    · exact ⟨t, ht, rfl, rfl, rfl,
        fun _ => .inr ⟨run, graceMs, now, outcome, c, rfl, houtcome, hc, (of_decide_eq_true hp).symm⟩, id⟩
    · exact ⟨t, ht, rfl, rfl, rfl, .inl, id⟩
  keys := keys_update fun _ => ⟨rfl, rfl⟩

theorem Effect.of_claim {run graceMs now : ℕ} {workerId : String} {skip : String → Bool} {t : StorageCleanupTask}
    (h : claimOne s.tasks workerId graceMs skip now = some (tasks, some t)) : Effect s a
      ⟨tasks, s.objects, s.late, s.cleaners ++ [⟨run, t.id, t.objectKey, .claimed⟩], s.claims ++ [t.id]⟩ := by
  obtain ⟨ht, -, hroom, rfl⟩ := claimOne_eq_some h
  refine ⟨fun _ => .inl rfl, ?_, ?_, ?_⟩
  · rintro k (⟨c, hc, hclaimed, rfl⟩ | hk)
    · rcases List.mem_append.1 hc with hc | hc
      · exact .inl (.inl ⟨c, hc, hclaimed, rfl⟩)
      · obtain rfl := List.mem_singleton.1 hc
        refine .inr ⟨t, ht, rfl, fun t' ht' hid => ?_⟩
        obtain ⟨u, -, ⟨-, rfl⟩ | ⟨hp, rfl⟩⟩ := Table.mem_update.1 ht'
        · exact Option.some_ne_none _
        · simp [hid] at hp
    · exact .inl (.inr hk)
  · intro t' ht'
    obtain ⟨u, hu, ⟨hp, rfl⟩ | ⟨-, rfl⟩⟩ := Table.mem_update.1 ht'
    · refine ⟨u, hu, rfl, rfl, rfl, fun h => absurd h (Option.some_ne_none _), fun hcount => ?_⟩
      have hid : u.id = t.id := of_decide_eq_true hp
      refine ⟨hroom u hu hid, ?_⟩
      rw [List.count_append, show (StorageCleanupTask.lease workerId graceMs now u).id = t.id from hid, List.count_singleton_self]
      exact Nat.add_le_add_right (hid ▸ hcount.2) 1
    · refine ⟨_, hu, rfl, rfl, rfl, .inl, fun hcount => ⟨hcount.1, hcount.2.trans ?_⟩⟩
      exact (List.sublist_append_left _ _).count_le _
  · exact keys_update fun _ => ⟨rfl, rfl⟩

theorem effect_of_exec (h : s.exec a = some s') : Effect s a s' := by
  have hsame : Effect s a s := .of_cleaners (fun _ hc _ => hc) fun _ hk => .inr hk
  cases a with
  | claim run workerId graceMs skip now =>
    simp only [exec] at h
    split at h
    · cases h
    split at h
    case h_1 hclaim => exact Option.some.inj h ▸ .of_claim hclaim
    case h_2 => exact Option.some.inj h ▸ hsame
  | deleteObject run outcome =>
    obtain ⟨c, hc, rfl⟩ := Option.map_eq_some_iff.1 h
    obtain ⟨hmem, -, hphase⟩ := cleaner_eq_some hc
    have hk : s.Condemned c.objectKey := .inl ⟨c, hmem, hphase, rfl⟩
    cases outcome with
    | done => exact .of_delete (fun _ => mem_setPhase (by decide)) (List.Subset.refl _) hk
    | lostReply => exact .of_delete (fun _ => mem_setPhase (by decide)) (List.Subset.refl _) hk
    | refused => exact .of_cleaners (fun _ => mem_setPhase (by decide)) fun _ hl => .inr hl
    | late =>
      refine .of_cleaners (fun _ => mem_setPhase (by decide)) fun k hl => ?_
      rcases List.mem_cons.1 hl with rfl | hl
      · exact hk
      · exact .inr hl
  | deleteTask run outcome =>
    obtain ⟨c, hc, rfl⟩ := Option.map_eq_some_iff.1 h
    cases outcome with
    | committed => exact .of_deleteTask fun _ hd _ => mem_leave hd
    | lostReply => exact .of_deleteTask fun _ => mem_setPhase (by decide)
    | failed => exact .of_cleaners (fun _ => mem_setPhase (by decide)) fun _ hl => .inr hl
  | release run graceMs now outcome =>
    obtain ⟨c, hc, rfl⟩ := Option.map_eq_some_iff.1 h
    cases outcome with
    | committed => exact .of_release (by decide) hc
    | lostReply => exact .of_release (by decide) hc
    | failed => exact .of_cleaners (fun _ hd _ => mem_leave hd) fun _ hl => .inr hl
  | crash run => exact Option.some.inj h ▸ .of_cleaners (fun _ hd _ => mem_leave hd) fun _ hl => .inr hl
  | lateDelete objectKey =>
    simp only [exec] at h
    split at h
    case isTrue hl => exact Option.some.inj h ▸ .of_delete (fun _ hd _ => hd) List.erase_subset (.inr hl)
    case isFalse => cases h

/-- A step of the workers adds no key. -/
theorem Effect.taskKeys (he : Effect s a s') (hkeys : (s.tasks.map (·.objectKey)).Nodup) :
    (s'.tasks.map (·.objectKey)).Nodup := by
  have h2 : ∀ tasks : List StorageCleanupTask, (Store.keys tasks).map (·.2) = tasks.map (·.objectKey) :=
    fun tasks => by rw [Store.keys, List.map_map]; rfl
  have := he.keys.map (·.2)
  rw [h2, h2] at this
  exact hkeys.sublist this

/-! ### The hand-off of an object -/

/-- The object is in place, and nothing is left that could delete it. -/
structure Published (s : Store Body) (k : String) (b : Body) : Prop where
  object : s.objects k = some b
  spared : ¬ s.Condemned k
  unnamed : ∀ t ∈ s.tasks, t.objectKey ≠ k

/-- The workers leave a published object alone. -/
theorem Published.step {k : String} {b : Body} (h : Published s k b) (he : Effect s a s') : Published s' k b where
  object := by
    rcases he.objects k with hk | hk
    · exact hk.trans h.object
    · exact absurd hk h.spared
  spared hk := by
    rcases he.condemned k hk with hk | ⟨t, ht, htk, -⟩
    · exact h.spared hk
    · exact h.unnamed t ht htk
  unnamed t' ht' := by
    obtain ⟨t, ht, -, hk, -⟩ := he.tasks t' ht'
    exact hk ▸ h.unnamed t ht

/-- No delete of the object is to come, and what was stored under its key is in place. -/
def Safe (s : Store Body) (k : String) (stored : Option Body) : Prop :=
  ¬ s.Condemned k ∧ ∀ b, stored = some b → s.objects k = some b

instance [DecidableEq Body] (s : Store Body) (k : String) (stored : Option Body) : Decidable (s.Safe k stored) :=
  inferInstanceAs (Decidable (_ ∧ ∀ b ∈ stored, s.objects k = some b))

/-- The object is safe as long as its task is not leased. -/
def Guarded (s : Store Body) (k : String) (stored : Option Body) : Prop :=
  ∀ t ∈ s.tasks, t.objectKey = k → t.lockExpiresAt = none → s.Safe k stored

/-- The workers keep an object guarded, if its task is released only while the object is safe. -/
theorem Guarded.step {k : String} {stored : Option Body} (h : Guarded s k stored) (hkeys : (s.tasks.map (·.objectKey)).Nodup)
    (hrelease : ∀ t ∈ s.tasks, t.objectKey = k → s.Releases a t.id → s.Safe k stored) (he : Effect s a s') :
    Guarded s' k stored := by
  intro t' ht' hk' hfree
  obtain ⟨t, ht, hid, hk, -, hlock, -⟩ := he.tasks t' ht'
  rw [hk'] at hk
  have hsafe : s.Safe k stored := by
    rcases hlock hfree with hfree | hrel
    · exact h t ht hk.symm hfree
    · exact hrelease t ht hk.symm hrel
  refine ⟨fun hc => ?_, fun b hb => ?_⟩
  · rcases he.condemned k hc with hc | ⟨u, hu, huk, hleased⟩
    · exact hsafe.1 hc
    · obtain rfl := Table.UniqueBy.of_nodup hkeys u hu t ht (huk.trans hk)
      exact hleased t' ht' hid hfree
  · rcases he.objects k with hobj | hc
    · exact hobj.trans (hsafe.2 b hb)
    · exact absurd hc hsafe.1

end Effects

/-! ### The table by itself -/

/-- What happens to the table: the inserts and the deletes of the uploads, and the workers. -/
inductive TableAction where
  | insertUploadSafeguard (id objectKey : String) (availableAt : ℕ)
  | scheduleDetachedCleanup (rows : List (String × String)) (availableAt : ℕ)
  | deleteByKey (objectKey : String) (reason : StorageCleanupReason)
  | worker (a : CleanupAction)

/-- A statement of an upload, or a step of the workers. -/
def execTable (s : Store Unit) : TableAction → Option (Store Unit)
  | .insertUploadSafeguard id objectKey availableAt =>
    (Files.insertUploadSafeguard s.tasks id objectKey availableAt).map fun tasks => { s with tasks := tasks }
  | .scheduleDetachedCleanup rows availableAt =>
    (Files.scheduleDetachedCleanup s.tasks availableAt rows).map fun tasks => { s with tasks := tasks }
  | .deleteByKey objectKey reason => some { s with tasks := Files.deleteByKey s.tasks objectKey reason }
  | .worker a => s.exec a

/-- Runs of the table, from an empty one. -/
def table : Machine (Store Unit) TableAction where
  init s := s = ⟨[], fun _ => none, [], [], []⟩
  exec := execTable

/-- A new task counts from zero. -/
theorem counted_fresh (claims : List String) (id objectKey : String) (reason : StorageCleanupReason) (availableAt : ℕ) :
    Counted claims (.fresh id objectKey reason availableAt) := ⟨Nat.zero_le _, Nat.zero_le _⟩

theorem counted_insert {tasks tasks' : List StorageCleanupTask} {claims : List String} {id objectKey : String} {availableAt : ℕ}
    (hc : ∀ t ∈ tasks, Counted claims t) (h : Files.insertUploadSafeguard tasks id objectKey availableAt = some tasks') :
    ∀ t ∈ tasks', Counted claims t := by
  unfold Files.insertUploadSafeguard at h
  split at h
  · cases h
  · obtain rfl := Option.some.inj h
    exact List.forall_mem_append.2 ⟨hc, List.forall_mem_singleton.2 (counted_fresh ..)⟩

theorem counted_schedule {tasks tasks' : List StorageCleanupTask} {claims : List String} {rows : List (String × String)}
    {availableAt : ℕ} (hc : ∀ t ∈ tasks, Counted claims t)
    (h : Files.scheduleDetachedCleanup tasks availableAt rows = some tasks') : ∀ t ∈ tasks', Counted claims t := by
  induction rows generalizing tasks with
  | nil => exact Option.some.inj h ▸ hc
  | cons row rows ih =>
    rw [Files.scheduleDetachedCleanup] at h
    split at h
    · cases h
    · exact ih (List.forall_mem_append.2 ⟨hc, List.forall_mem_singleton.2 (counted_fresh ..)⟩) h

/-- The counters count claims, and fit their column. -/
theorem counted_of_reachable {s : Store Unit} (h : table.Reachable (fun _ _ => True) s) : ∀ t ∈ s.tasks, Counted s.claims t := by
  refine h.invariant (I := fun s => ∀ t ∈ s.tasks, Counted s.claims t) ?_ ?_
  · rintro s rfl t ht
    cases ht
  · rintro s a s' hc - he
    cases a with
    | insertUploadSafeguard id objectKey availableAt =>
      obtain ⟨tasks, htasks, rfl⟩ := Option.map_eq_some_iff.1 he
      exact counted_insert hc htasks
    | scheduleDetachedCleanup rows availableAt =>
      obtain ⟨tasks, htasks, rfl⟩ := Option.map_eq_some_iff.1 he
      exact counted_schedule hc htasks
    | deleteByKey objectKey reason =>
      obtain rfl := Option.some.inj he
      exact fun t ht => hc t (Table.mem_delete.1 ht).1
    | worker a =>
      intro t' ht'
      obtain ⟨t, ht, -, -, -, -, hcount⟩ := (effect_of_exec he).tasks t' ht'
      exact hcount (hc t ht)

end Store

/-- A claim fails exactly if the counter of the task it is to take is full. -/
theorem claimOne_eq_none {tasks : List StorageCleanupTask} {workerId : String} {graceMs now : ℕ} {skip : String → Bool} :
    claimOne tasks workerId graceMs skip now = none ↔
      ∃ t, candidate tasks skip now = some t ∧ ∃ u ∈ tasks, u.id = t.id ∧ Table.maxSmallint ≤ u.attempts := by
  unfold claimOne
  cases candidate tasks skip now with
  | none => simp
  | some t => simp

end HotelBackend.Files
