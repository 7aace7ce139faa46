import HotelBackend.Reports.Consumer

/-!
# A completed export keeps its object

`ResultsStored`: the object of a completed job is there, with the bytes whose size and
checksum the job records, and no cleanup task names it. The invariant `Inv` of `Fenced`
runs says it of completed jobs, and of an attempt past its safeguard that its object is
safe as long as its safeguard is there and free (`Store.Guarded`); nobody else is at its
key.

Without the condition it fails (`lostResult`): the completion does not look at the
safeguard it deletes.
-/

namespace HotelBackend.Reports

open HotelBackend.Common
open HotelBackend.Theory
open HotelBackend.Outbox
open HotelBackend.Files

/-! ### The property and the condition -/

/-- The result of a job, as the job records it, is in place. -/
structure Stored (sha256Hex : Buffer → String) (s : RoomExports) (j : ExportJob) (key : String) (body : Buffer) : Prop where
  objectKey : j.objectKey = some key
  object : s.store.objects key = some body
  size : j.fileSizeBytes = some body.length
  checksum : j.contentSha256 = some (sha256Hex body)
  unnamed : ∀ t ∈ s.store.tasks, t.objectKey ≠ key

/-- Every completed job has its object. -/
def ResultsStored (sha256Hex : Buffer → String) (s : RoomExports) : Prop :=
  ∀ j ∈ s.jobs, j.status = .completed → ∃ key body, Stored sha256Hex s j key body

/-- Nothing of an earlier delivery of the same claim is left under its key. -/
structure RoomExports.Unused (s : RoomExports) (key : String) : Prop where
  unpublished : ∀ j ∈ s.jobs, j.status = .completed → j.objectKey ≠ some key
  idle : ∀ c ∈ s.consumers, c.phase.upload ≠ none → c.objectKey ≠ key
  settled : key ∉ s.latePuts.map (·.1)
  spared : ¬ s.store.Condemned key

/-- What the attempts and the workers would have to make sure of: a safeguard is inserted only for
an unused key, a result is published only while its safeguard is there and not leased (what
`completeUpload` of an attachment checks), and the safeguard of an attempt under way is released
only if its object is safe. -/
def Fenced (s : RoomExports) : ExportAction → Prop
  | .insertUploadSafeguard worker taskId _ outcome => outcome ≠ .failed → ∀ c ∈ s.consumer worker,
      isDuplicate s.store.tasks taskId c.objectKey = false → s.Unused c.objectKey
  | .complete worker _ outcome => outcome ≠ .failed → ∀ c ∈ s.consumer worker,
      (∃ e ∈ s.outbox.rows, c.data.holds e = true) → ∃ t ∈ s.store.tasks, t.objectKey = c.objectKey ∧ t.lockExpiresAt = none
  | .cleanup a => ∀ c ∈ s.consumers, ∀ stored ∈ c.phase.upload, ∀ t ∈ s.store.tasks, t.objectKey = c.objectKey →
      s.store.Releases a t.id → s.store.Safe c.objectKey stored
  | _ => True

instance (s : RoomExports) (key : String) : Decidable (s.Unused key) :=
  decidable_of_iff ((∀ j ∈ s.jobs, j.status = .completed → j.objectKey ≠ some key) ∧
      (∀ c ∈ s.consumers, c.phase.upload ≠ none → c.objectKey ≠ key) ∧ key ∉ s.latePuts.map (·.1) ∧ ¬ s.store.Condemned key)
    ⟨fun ⟨hjobs, hidle, hlate, hspared⟩ => ⟨hjobs, hidle, hlate, hspared⟩, fun h => ⟨h.unpublished, h.idle, h.settled, h.spared⟩⟩

instance (s : RoomExports) (a : ExportAction) : Decidable (Fenced s a) :=
  match a with
  | .insertUploadSafeguard worker .. => inferInstanceAs (Decidable (_ → ∀ c ∈ s.consumer worker, _ → s.Unused c.objectKey))
  | .complete worker .. => inferInstanceAs (Decidable (_ → ∀ c ∈ s.consumer worker, _ → ∃ t ∈ s.store.tasks, _ ∧ t.lockExpiresAt = none))
  | .cleanup a => inferInstanceAs (Decidable (∀ c ∈ s.consumers, ∀ stored ∈ c.phase.upload, ∀ t ∈ s.store.tasks, _ →
      s.store.Releases a t.id → s.store.Safe c.objectKey stored))
  | .create .. | .statement .. | .start .. | .read .. | .renew .. | .generate .. | .upload .. | .latePut .. | .recordFailure ..
  | .crash .. => isTrue trivial

/-! ### The invariant -/

/-- Nobody is to write to the key any more. -/
def RoomExports.Quiet (s : RoomExports) (key : String) : Prop :=
  key ∉ s.latePuts.map (·.1) ∧ ∀ c ∈ s.consumers, c.phase.upload ≠ none → c.objectKey ≠ key

/-- The invariant of fenced runs. -/
structure RoomExports.Inv (sha256Hex : Buffer → String) (s : RoomExports) : Prop where
  taskKeys : (s.store.tasks.map (·.objectKey)).Nodup
  safeguards : ∀ t ∈ s.store.tasks, t.reason = .uploadSafeguard
  workers : (s.consumers.map (·.worker)).Nodup
  /-- A result is published. -/
  completed : ∀ j ∈ s.jobs, j.status = .completed → ∃ key body, j.objectKey = some key ∧ j.fileSizeBytes = some body.length ∧
    j.contentSha256 = some (sha256Hex body) ∧ s.store.Published key body ∧ s.Quiet key
  /-- A result on its way is guarded by its safeguard, and is the only one of its key. -/
  underWay : ∀ c ∈ s.consumers, ∀ stored, c.phase.upload = some stored → s.store.Guarded c.objectKey stored ∧
    c.objectKey ∉ s.latePuts.map (·.1) ∧
    ∀ d ∈ s.consumers, d.phase.upload ≠ none → d.objectKey = c.objectKey → d.worker = c.worker

section Steps

variable {config : ReportsConfig} {sha256Hex : Buffer → String} {s : RoomExports}

theorem consumer_eq_some {worker : ℕ} {c : Consumer} (h : s.consumer worker = some c) : c ∈ s.consumers ∧ c.worker = worker :=
  ⟨List.mem_of_find?_eq_some h, by simpa using List.find?_some h⟩

/-- An attempt after one has moved on. -/
theorem mem_move {worker : ℕ} {phase : ConsumerPhase} {d : Consumer} (hd : d ∈ (s.move worker phase).consumers) :
    ∃ c ∈ s.consumers, (c.worker = worker ∧ d = { c with phase := phase }) ∨ (c.worker ≠ worker ∧ d = c) := by
  obtain ⟨c, hc, ⟨hp, rfl⟩ | ⟨hp, rfl⟩⟩ := Table.mem_update.1 hd
  · exact ⟨c, hc, .inl ⟨of_decide_eq_true hp, rfl⟩⟩
  · exact ⟨c, hc, .inr ⟨of_decide_eq_false hp, rfl⟩⟩

/-- Past its safeguard after another has moved to a phase that is not, an attempt was so before. -/
theorem mem_move_of_upload {worker : ℕ} {phase : ConsumerPhase} (hphase : phase.upload = none) {d : Consumer}
    (hd : d ∈ (s.move worker phase).consumers) (hup : d.phase.upload ≠ none) : d ∈ s.consumers ∧ d.worker ≠ worker := by
  obtain ⟨c, hc, ⟨-, rfl⟩ | ⟨hne, rfl⟩⟩ := mem_move hd
  · exact absurd hphase hup
  · exact ⟨hc, hne⟩

theorem mem_leave {worker : ℕ} {d : Consumer} (hd : d ∈ (s.leave worker).consumers) : d ∈ s.consumers ∧ d.worker ≠ worker := by
  obtain ⟨hd, hp⟩ := Table.mem_delete.1 hd
  exact ⟨hd, of_decide_eq_false hp⟩

theorem workers_move (worker : ℕ) (phase : ConsumerPhase) :
    (s.move worker phase).consumers.map (·.worker) = s.consumers.map (·.worker) := by
  refine Table.map_update ?_
  exact fun _ _ _ => rfl

namespace RoomExports

theorem Inv.workers_move (hi : s.Inv sha256Hex) (worker : ℕ) (phase : ConsumerPhase) :
    ((s.move worker phase).consumers.map (·.worker)).Nodup := (Reports.workers_move worker phase).symm ▸ hi.workers

theorem Inv.workers_leave (hi : s.Inv sha256Hex) (worker : ℕ) : ((s.leave worker).consumers.map (·.worker)).Nodup :=
  hi.workers.sublist (List.filter_sublist.map _)

/-- The one attempt of a worker. -/
theorem Inv.eq_of_worker (hi : s.Inv sha256Hex) {c d : Consumer} (hc : c ∈ s.consumers) (hd : d ∈ s.consumers)
    (h : c.worker = d.worker) : c = d := Table.UniqueBy.of_nodup hi.workers c hc d hd h

/-- An attempt under way is not at the key of a result. -/
theorem Inv.not_completed (hi : s.Inv sha256Hex) {c : Consumer} (hc : c ∈ s.consumers) (hup : c.phase.upload ≠ none)
    {j : ExportJob} (hj : j ∈ s.jobs) (hs : j.status = .completed) : j.objectKey ≠ some c.objectKey := by
  intro hk
  obtain ⟨key, body, hkey, -, -, -, hquiet⟩ := hi.completed j hj hs
  exact hquiet.2 c hc hup (Option.some.inj (hk.symm.trans hkey))

/-- The keys `K` are those of no attempt under way and of no result: what happens to their objects
does not matter. -/
theorem Inv.frame {s' : RoomExports} (hi : s.Inv sha256Hex) (K : String → Prop)
    (hjobs : ∀ j ∈ s'.jobs, j.status = .completed → j ∈ s.jobs) (hstore : s'.store = { s.store with objects := s'.store.objects })
    (hobjects : ∀ k, ¬ K k → s'.store.objects k = s.store.objects k) (hworkers : (s'.consumers.map (·.worker)).Nodup)
    (hphase : ∀ c ∈ s'.consumers, c.phase.upload ≠ none → c ∈ s.consumers ∧ ¬ K c.objectKey)
    (hlate : ∀ k ∈ s'.latePuts.map (·.1), k ∈ s.latePuts.map (·.1) ∨ K k)
    (hK : ∀ j ∈ s.jobs, j.status = .completed → ∀ key, j.objectKey = some key → ¬ K key) : s'.Inv sha256Hex := by
  have htasks : s'.store.tasks = s.store.tasks := by rw [hstore]
  have hcondemned : ∀ k, s'.store.Condemned k → s.store.Condemned k := fun k h => by rw [hstore] at h; exact h
  refine ⟨htasks ▸ hi.taskKeys, htasks ▸ hi.safeguards, hworkers, fun j hj hs => ?_, fun c hc stored hup => ?_⟩
  · obtain ⟨key, body, hkey, hsize, hsum, hpub, hlate', hidle⟩ := hi.completed j (hjobs j hj hs) hs
    have hnot := hK j (hjobs j hj hs) hs key hkey
    refine ⟨key, body, hkey, hsize, hsum, ⟨(hobjects key hnot).trans hpub.object, fun h => hpub.spared (hcondemned key h),
      htasks ▸ hpub.unnamed⟩, fun h => (hlate key h).elim hlate' hnot, fun c hc hup => ?_⟩
    exact hidle c (hphase c hc hup).1 hup
  · obtain ⟨hmem, hnot⟩ := hphase c hc (hup ▸ Option.some_ne_none _)
    obtain ⟨hguard, hlate', hone⟩ := hi.underWay c hmem stored hup
    refine ⟨fun t ht hk hfree => ?_, fun h => (hlate _ h).elim hlate' hnot, fun d hd hup => hone d (hphase d hd hup).1 hup⟩
    obtain ⟨hspared, hstored⟩ := hguard t (htasks ▸ ht) hk hfree
    exact ⟨fun h => hspared (hcondemned _ h), fun b hb => (hobjects _ hnot).trans (hstored b hb)⟩

/-- Jobs that are not completed, and attempts that are not past their safeguard, do not matter. -/
theorem Inv.idle {s' : RoomExports} (hi : s.Inv sha256Hex) (hjobs : ∀ j ∈ s'.jobs, j.status = .completed → j ∈ s.jobs)
    (hstore : s'.store = s.store) (hworkers : (s'.consumers.map (·.worker)).Nodup)
    (hphase : ∀ c ∈ s'.consumers, c.phase.upload ≠ none → c ∈ s.consumers) (hlate : s'.latePuts = s.latePuts) :
    s'.Inv sha256Hex :=
  hi.frame (fun _ => False) hjobs (hstore ▸ rfl) (fun _ _ => hstore ▸ rfl) hworkers (fun c hc hup => ⟨hphase c hc hup, id⟩)
    (fun _ hk => .inl (hlate ▸ hk)) fun _ _ _ _ _ => id

/-- An attempt fails, or goes on before its safeguard. -/
theorem Inv.moveOn (hi : s.Inv sha256Hex) (worker : ℕ) {phase : ConsumerPhase} (hphase : phase.upload = none) :
    (s.move worker phase).Inv sha256Hex :=
  hi.idle (fun _ hj _ => hj) rfl (hi.workers_move _ _) (fun _ hc hup => (mem_move_of_upload hphase hc hup).1) rfl

theorem Inv.leaveOff (hi : s.Inv sha256Hex) (worker : ℕ) : (s.leave worker).Inv sha256Hex :=
  hi.idle (fun _ hj _ => hj) rfl (hi.workers_leave _) (fun _ hc _ => (mem_leave hc).1) rfl

/-- A transaction that completes no job and touches no task. -/
theorem Inv.commit {db : ReportsTables} (hi : s.Inv sha256Hex) (htasks : db.tasks = s.store.tasks)
    (hjobs : ∀ j ∈ db.jobs, j.status = .completed → j ∈ s.jobs) : (s.commit db).Inv sha256Hex := by
  refine hi.idle hjobs ?_ hi.workers (fun _ hc _ => hc) rfl
  rw [RoomExports.commit, htasks]

/-- The keys of the attempts under way are not those of the others. -/
theorem Inv.other (hi : s.Inv sha256Hex) {c d : Consumer} {stored : Option Buffer} (hc : c ∈ s.consumers)
    (hup : c.phase.upload = some stored) (hd : d ∈ s.consumers ∧ d.worker ≠ c.worker) (hdup : d.phase.upload ≠ none) :
    d.objectKey ≠ c.objectKey :=
  fun h => hd.2 ((hi.underWay c hc stored hup).2.2 d hd.1 hdup h)

/-- A safeguard is inserted for an unused key, and its attempt goes on or fails. -/
theorem Inv.safeguard {c : Consumer} {tasks : List StorageCleanupTask} {taskId : String} {availableAt : ℕ} {phase : ConsumerPhase}
    (hi : s.Inv sha256Hex) (hc : c ∈ s.consumers) (hunused : s.Unused c.objectKey)
    (hphase : phase.upload = none ∨ phase.upload = some none)
    (hinsert : Files.insertUploadSafeguard s.store.tasks taskId c.objectKey availableAt = some tasks) :
    (({ s with store := { s.store with tasks := tasks } } : RoomExports).move c.worker phase).Inv sha256Hex := by
  unfold Files.insertUploadSafeguard at hinsert
  split at hinsert
  · cases hinsert
  case isFalse hdup =>
  obtain rfl := Option.some.inj hinsert
  have hmem : ∀ t ∈ s.store.tasks ++ [.fresh taskId c.objectKey .uploadSafeguard availableAt],
      t ∈ s.store.tasks ∨ t.objectKey = c.objectKey := by
    intro t ht
    rcases List.mem_append.1 ht with ht | ht
    · exact .inl ht
    · exact .inr (by rw [List.mem_singleton.1 ht]; rfl)
  -- a moved attempt is the one that inserted, or an old one at another key
  have hold : ∀ d ∈ (s.move c.worker phase).consumers, d.phase.upload ≠ none →
      (d.worker = c.worker ∧ d.objectKey = c.objectKey ∧ d.phase.upload = some none) ∨
        (d ∈ s.consumers ∧ d.objectKey ≠ c.objectKey) := by
    intro d hd hup
    obtain ⟨e, he, ⟨hw, rfl⟩ | ⟨-, rfl⟩⟩ := mem_move hd
    · obtain rfl := hi.eq_of_worker he hc hw
      exact .inl ⟨rfl, rfl, hphase.resolve_left hup⟩
    · exact .inr ⟨he, hunused.idle _ he hup⟩
  refine ⟨nodup_append_task hi.taskKeys (Bool.eq_false_iff.2 hdup), fun t ht => ?_, hi.workers_move _ _, fun j hj hs => ?_,
    fun d hd stored hup => ?_⟩
  · rcases List.mem_append.1 ht with ht | ht
    · exact hi.safeguards t ht
    · rw [List.mem_singleton.1 ht]
      rfl
  · obtain ⟨key, body, hkey, hsize, hsum, hpub, hlate, hidle⟩ := hi.completed j hj hs
    have hne : key ≠ c.objectKey := fun h => hunused.unpublished j hj hs (h ▸ hkey)
    refine ⟨key, body, hkey, hsize, hsum, ⟨hpub.object, hpub.spared, fun t ht => ?_⟩, hlate, fun d hd hup => ?_⟩
    · rcases hmem t ht with ht | ht
      · exact hpub.unnamed t ht
      · exact ht ▸ hne.symm
    · rcases hold d hd hup with ⟨-, hk, -⟩ | ⟨hd, -⟩
      · exact hk ▸ hne.symm
      · exact hidle d hd hup
  · rcases hold d hd (hup ▸ Option.some_ne_none _) with ⟨hw, hk, hnone⟩ | ⟨hd, hne⟩
    · obtain rfl := Option.some.inj (hup.symm.trans hnone)
      refine ⟨fun _ _ _ _ => ⟨hk ▸ hunused.spared, fun b hb => absurd hb.symm (Option.some_ne_none b)⟩, hk ▸ hunused.settled, ?_⟩
      intro e he heup hek
      rcases hold e he heup with ⟨hew, -⟩ | ⟨-, hne⟩
      · exact hew.trans hw.symm
      · exact absurd (hek.trans hk) hne
    · obtain ⟨hguard, hlate, hone⟩ := hi.underWay d hd stored hup
      refine ⟨fun t ht hk => ?_, hlate, fun e he heup hek => ?_⟩
      · rcases hmem t ht with ht | ht
        · exact hguard t ht hk
        · exact absurd (hk.symm.trans ht) hne
      · rcases hold e he heup with ⟨-, hk, -⟩ | ⟨he, -⟩
        · exact absurd (hek.symm.trans hk) hne
        · exact hone e he heup hek

/-- The object of an attempt is stored. -/
theorem Inv.put {c : Consumer} {result : RoomExportGeneratedResult} (hi : s.Inv sha256Hex) (hc : c ∈ s.consumers)
    (hphase : c.phase = .uploading result) :
    ((s.put c.objectKey result.file).move c.worker (.publishing result)).Inv sha256Hex := by
  have hup : c.phase.upload = some none := hphase ▸ rfl
  have hobject : (s.put c.objectKey result.file).store.objects c.objectKey = some result.file := if_pos rfl
  have hother : ∀ k, k ≠ c.objectKey → (s.put c.objectKey result.file).store.objects k = s.store.objects k := fun k hk => if_neg hk
  -- nobody comes to be past its safeguard, and nobody changes its key
  have hold : ∀ d ∈ (s.move c.worker (.publishing result)).consumers, d.phase.upload ≠ none →
      ∃ e ∈ s.consumers, e.phase.upload ≠ none ∧ e.worker = d.worker ∧ e.objectKey = d.objectKey ∧
        ((e = c ∧ d.phase.upload = some (some result.file)) ∨ (e.worker ≠ c.worker ∧ e = d)) := by
    intro d hd hdup
    obtain ⟨e, he, ⟨hw, rfl⟩ | ⟨hw, rfl⟩⟩ := mem_move hd
    · obtain rfl := hi.eq_of_worker he hc hw
      exact ⟨e, he, hup ▸ Option.some_ne_none _, rfl, rfl, .inl ⟨rfl, rfl⟩⟩
    · exact ⟨_, he, hdup, rfl, rfl, .inr ⟨hw, rfl⟩⟩
  refine ⟨hi.taskKeys, hi.safeguards, hi.workers_move _ _, fun j hj hs => ?_, fun d hd stored hdup => ?_⟩
  · obtain ⟨key, body, hkey, hsize, hsum, hpub, hlate, hidle⟩ := hi.completed j hj hs
    have hne : key ≠ c.objectKey := (hidle c hc (hup ▸ Option.some_ne_none _)).symm
    refine ⟨key, body, hkey, hsize, hsum, ⟨(hother key hne).trans hpub.object, hpub.spared, hpub.unnamed⟩, hlate,
      fun d hd hdup => ?_⟩
    obtain ⟨e, he, heup, -, hk, -⟩ := hold d hd hdup
    exact hk ▸ hidle e he heup
  · obtain ⟨e, he, heup, hw, hk, hcase⟩ := hold d hd (hdup ▸ Option.some_ne_none _)
    obtain ⟨stored', hstored'⟩ := Option.ne_none_iff_exists'.1 heup
    obtain ⟨hguard, hlate, hone⟩ := hi.underWay e he stored' hstored'
    refine ⟨fun t ht htk hfree => ?_, hk ▸ hlate, fun d' hd' hup' hk' => ?_⟩
    · obtain ⟨hspared, hstored⟩ := hguard t ht (htk.trans hk.symm) hfree
      rw [← hk]
      refine ⟨hspared, fun b hb => ?_⟩
      rcases hcase with ⟨rfl, hnew⟩ | ⟨hne, rfl⟩
      · obtain rfl := Option.some.inj (hdup.symm.trans hnew)
        exact hobject.trans hb
      · obtain rfl := Option.some.inj (hdup.symm.trans hstored')
        exact (hother _ (hi.other hc hup ⟨he, hne⟩ heup)).trans (hstored b hb)
    · obtain ⟨e', he', heup', hw', hke', -⟩ := hold d' hd' hup'
      exact hw'.symm.trans ((hone e' he' heup' (hke'.trans (hk'.trans hk.symm))).trans hw)

/-- A result is published while its safeguard is there and free. -/
theorem Inv.publish {c : Consumer} {result : RoomExportGeneratedResult} {events : List OutboxEvent} {now : ℕ} (hi : s.Inv sha256Hex)
    (hc : c ∈ s.consumers) (hphase : c.phase = .publishing result)
    (hfree : ∃ t ∈ s.store.tasks, t.objectKey = c.objectKey ∧ t.lockExpiresAt = none) {s' : RoomExports}
    (hs' : ∀ d ∈ s'.consumers, d.phase.upload ≠ none → d ∈ s.consumers ∧ d.worker ≠ c.worker)
    (hworkers : (s'.consumers.map (·.worker)).Nodup) (hlate : s'.latePuts = s.latePuts)
    (hdb : s'.tables = { events := events
                         jobs := Table.update s.jobs (fun j => j.id = c.claim.jobId && j.status = .processing)
                           ((completion config sha256Hex c result).publish now)
                         tasks := deleteByKey s.store.tasks c.objectKey .uploadSafeguard })
    (hstore : s'.store = { s.store with tasks := s'.store.tasks }) : s'.Inv sha256Hex := by
  have hup : c.phase.upload = some (some result.file) := hphase ▸ rfl
  have hjobs : s'.jobs = _ := congrArg ReportsTables.jobs hdb
  have htasks : s'.store.tasks = _ := congrArg ReportsTables.tasks hdb
  have hcondemned : ∀ k, s'.store.Condemned k → s.store.Condemned k := fun k h => by rw [hstore] at h; exact h
  have hobjects : s'.store.objects = s.store.objects := by rw [hstore]
  have hsub : ∀ t ∈ s'.store.tasks, t ∈ s.store.tasks ∧ t.objectKey ≠ c.objectKey := by
    intro t ht
    rw [htasks] at ht
    obtain ⟨ht, hp⟩ := Table.mem_delete.1 ht
    refine ⟨ht, fun hk => ?_⟩
    simp [hk, hi.safeguards t ht] at hp
  obtain ⟨t, ht, htk, hfree⟩ := hfree
  obtain ⟨hguard, hput, hone⟩ := hi.underWay c hc _ hup
  obtain ⟨hspared, hobject⟩ := hguard t ht htk hfree
  refine ⟨?_, fun t ht => hi.safeguards t (hsub t ht).1, hworkers, fun j hj hs => ?_, fun d hd stored hdup => ?_⟩
  · rw [htasks]
    exact hi.taskKeys.sublist (List.filter_sublist.map _)
  · rw [hjobs] at hj
    obtain ⟨i, hmem, ⟨-, rfl⟩ | ⟨-, rfl⟩⟩ := Table.mem_update.1 hj
    · refine ⟨c.objectKey, result.file, rfl, congrArg some result.byteLength_eq, rfl,
        ⟨(congrFun hobjects _).trans (hobject _ rfl), fun h => hspared (hcondemned _ h), fun t ht => (hsub t ht).2⟩,
        hlate ▸ hput, fun d hd hdup => ?_⟩
      exact hi.other hc hup (hs' d hd hdup) hdup
    · obtain ⟨key, body, hkey, hsize, hsum, hpub, hquiet, hidle⟩ := hi.completed _ hmem hs
      exact ⟨key, body, hkey, hsize, hsum, ⟨(congrFun hobjects _).trans hpub.object, fun h => hpub.spared (hcondemned _ h),
        fun t ht => hpub.unnamed t (hsub t ht).1⟩, hlate ▸ hquiet, fun d hd hdup => hidle d (hs' d hd hdup).1 hdup⟩
  · obtain ⟨hguard, hput, hone⟩ := hi.underWay d (hs' d hd (hdup ▸ Option.some_ne_none _)).1 stored hdup
    refine ⟨fun t ht hk hfree => ?_, hlate ▸ hput, fun e he heup => hone e (hs' e he heup).1 heup⟩
    obtain ⟨hspared, hstored⟩ := hguard t (hsub t ht).1 hk hfree
    exact ⟨fun h => hspared (hcondemned _ h), fun b hb => (congrFun hobjects _).trans (hstored b hb)⟩

/-- A step of the workers, if its release is safe. -/
theorem Inv.cleanup {store : Store Buffer} {a : CleanupAction} (hi : s.Inv sha256Hex) (hsafe : Fenced s (.cleanup a))
    (he : Store.Effect s.store a store) : ({ s with store := store } : RoomExports).Inv sha256Hex where
  taskKeys := he.taskKeys hi.taskKeys
  safeguards t' ht' := by
    obtain ⟨t, ht, -, -, hr, -⟩ := he.tasks t' ht'
    exact hr.trans (hi.safeguards t ht)
  workers := hi.workers
  completed j hj hs := by
    obtain ⟨key, body, hkey, hsize, hsum, hpub, hquiet⟩ := hi.completed j hj hs
    exact ⟨key, body, hkey, hsize, hsum, hpub.step he, hquiet⟩
  underWay c hc stored hup := by
    obtain ⟨hguard, hrest⟩ := hi.underWay c hc stored hup
    exact ⟨hguard.step hi.taskKeys (hsafe c hc stored hup) he, hrest⟩

/-- The transactions that end a failed attempt complete no job. -/
theorem Inv.recordFailure {c : Consumer} {error : RoomExportError} {random : ℚ} {now : ℕ} {outcome : QueryOutcome}
    (hi : s.Inv sha256Hex) : (s.recordFailure config c error random now outcome).Inv sha256Hex := by
  unfold RoomExports.recordFailure
  dsimp only
  split
  · exact hi.leaveOff _
  · exact hi.leaveOff _
  case h_3 db held _ hdb _ =>
    obtain ⟨htasks, hjobs⟩ := fail_or_retry_eq_ok hdb
    refine Inv.leaveOff (hi.commit htasks fun j hj hs => ?_) _
    rcases hjobs with rfl | ⟨set, hset, hjobs⟩
    · exact hj
    · rw [hjobs] at hj
      obtain ⟨i, hmem, ⟨-, rfl⟩ | ⟨-, rfl⟩⟩ := Table.mem_update.1 hj
      · exact absurd hs (hset i).2
      · exact hmem

/-- A renewal does not matter. -/
theorem Inv.renew {c : Consumer} {next : ConsumerPhase} {now : ℕ} {outcome : QueryOutcome} (hi : s.Inv sha256Hex)
    (hnext : next.upload = none) : (s.renew config c next now outcome).Inv sha256Hex := by
  have hrows : ∀ rows, ({ s with outbox := { s.outbox with rows := rows } } : RoomExports).Inv sha256Hex :=
    fun rows => hi.idle (fun _ hj _ => hj) rfl hi.workers (fun _ hc _ => hc) rfl
  unfold RoomExports.renew
  split
  · exact hi.moveOn _ rfl
  · dsimp only
    split
    · exact Inv.moveOn (hrows _) _ rfl
    · split
      · exact Inv.moveOn (hrows _) _ hnext
      · exact Inv.leaveOff (hrows _) _

/-- The completion, if its safeguard is there and free where it takes effect. -/
theorem Inv.complete {c : Consumer} {result : RoomExportGeneratedResult} {now : ℕ} {outcome : QueryOutcome} (hi : s.Inv sha256Hex)
    (hc : c ∈ s.consumers) (hphase : c.phase = .publishing result)
    (hfree : outcome ≠ .failed → (∃ e ∈ s.outbox.rows, c.data.holds e = true) →
      ∃ t ∈ s.store.tasks, t.objectKey = c.objectKey ∧ t.lockExpiresAt = none) :
    (s.complete config sha256Hex c result now outcome).Inv sha256Hex := by
  have hsame : (s.commit s.tables).Inv sha256Hex := hi.commit rfl fun _ hj _ => hj
  unfold RoomExports.complete
  split
  · exact hi.moveOn _ rfl
  · exact hi.moveOn _ rfl
  case h_3 db _ hok =>
    rcases complete_eq_ok hok with ⟨-, rfl⟩ | ⟨-, hheld, rfl⟩
    · exact Inv.moveOn hsame _ rfl
    · exact hi.publish hc hphase (hfree (by decide) hheld) (fun d hd hup => mem_move_of_upload rfl hd hup)
        (hi.workers_move _ _) rfl rfl rfl
  case h_4 db _ hok =>
    rcases complete_eq_ok hok with ⟨-, rfl⟩ | ⟨-, hheld, rfl⟩
    · exact Inv.leaveOff hsame _
    · exact hi.publish hc hphase (hfree (by decide) hheld) (fun d hd _ => mem_leave hd) (hi.workers_leave _) rfl rfl rfl

/-- The upload, however it ends. -/
theorem Inv.upload {c : Consumer} {result : RoomExportGeneratedResult} {outcome : CallOutcome} (hi : s.Inv sha256Hex)
    (hc : c ∈ s.consumers) (hphase : c.phase = .uploading result) : (s.upload c result outcome).Inv sha256Hex := by
  have hup : c.phase.upload = some none := hphase ▸ rfl
  have hmoved : ∀ d ∈ (s.move c.worker (.failing storageUnavailable)).consumers, d.phase.upload ≠ none →
      d ∈ s.consumers ∧ d.objectKey ≠ c.objectKey := by
    intro d hd hdup
    have hd := mem_move_of_upload rfl hd hdup
    exact ⟨hd.1, hi.other hc hup hd hdup⟩
  have hK : ∀ j ∈ s.jobs, j.status = .completed → ∀ key, j.objectKey = some key → key ≠ c.objectKey := by
    rintro j hj hs key hkey rfl
    exact hi.not_completed hc (hup ▸ Option.some_ne_none _) hj hs hkey
  cases outcome with
  | done => exact hi.put hc hphase
  | lostReply =>
    exact hi.frame (· = c.objectKey) (fun _ hj _ => hj) rfl (fun _ hk => if_neg hk) (hi.workers_move _ _) hmoved (fun _ => .inl) hK
  | refused => exact hi.moveOn _ rfl
  | late =>
    refine hi.frame (· = c.objectKey) (fun _ hj _ => hj) rfl (fun _ _ => rfl) (hi.workers_move _ _) hmoved (fun k hk => ?_) hK
    exact (List.mem_cons.1 hk).symm

/-- Every fenced step keeps the invariant. -/
theorem Inv.step {s' : RoomExports} {a : ExportAction} (hi : s.Inv sha256Hex) (hfence : Fenced s a)
    (h : s.exec config sha256Hex a = some s') : s'.Inv sha256Hex := by
  cases a with
  | create eventId jobId requestedBy filters now =>
    simp only [exec] at h
    split at h
    · cases h
    · obtain ⟨outbox, -, rfl⟩ := Option.map_eq_some_iff.1 h
      refine hi.idle (fun j hj hs => ?_) rfl hi.workers (fun _ hc _ => hc) rfl
      rcases List.mem_append.1 hj with hj | hj
      · exact hj
      · rw [List.mem_singleton.1 hj] at hs
        cases hs
  | statement now st =>
    simp only [exec] at h
    split at h
    · cases h
    · obtain ⟨outbox, -, rfl⟩ := Option.map_eq_some_iff.1 h
      exact hi.idle (fun _ hj _ => hj) rfl hi.workers (fun _ hc _ => hc) rfl
  | start worker data now outcome =>
    simp only [exec] at h
    split at h
    · cases h
    case isFalse hnew =>
    have hclaim : ∀ {db : ReportsTables} {c : RoomExportAttemptClaim}, claim s.tables data now = some (db, c) →
        (s.commit db).Inv sha256Hex := by
      intro db c hdb
      obtain ⟨-, -, rfl⟩ := claim_eq_some hdb
      refine hi.commit rfl fun j hj hs => ?_
      obtain ⟨i, hmem, ⟨-, rfl⟩ | ⟨-, rfl⟩⟩ := Table.mem_update.1 hj
      · cases hs
      · exact hmem
    split at h
    · exact Option.some.inj h ▸ hi
    · exact Option.some.inj h ▸ hi
    case h_3 hdb => exact Option.some.inj h ▸ hclaim hdb
    case h_4 hdb =>
      obtain rfl := Option.some.inj h
      refine (hclaim hdb).idle (fun _ hj _ => hj) rfl ?_ (fun c hc hup => ?_) rfl
      · rw [List.map_append]
        refine List.Nodup.append hi.workers (List.nodup_singleton _) fun w hw hw' => hnew ?_
        obtain ⟨c, hc, rfl⟩ := List.mem_map.1 hw
        exact List.any_eq_true.2 ⟨c, hc, decide_eq_true (List.mem_singleton.1 hw')⟩
      · rcases List.mem_append.1 hc with hc | hc
        · exact hc
        · rw [List.mem_singleton.1 hc] at hup
          exact absurd rfl hup
  | read worker rows =>
    simp only [exec, Option.bind_eq_bind, Option.bind_eq_some_iff] at h
    obtain ⟨c, -, h⟩ := h
    split at h
    · exact Option.some.inj h ▸ hi.moveOn _ rfl
    · exact Option.some.inj h ▸ hi.moveOn _ rfl
    · cases h
  | renew worker now outcome =>
    simp only [exec, Option.bind_eq_bind, Option.bind_eq_some_iff] at h
    obtain ⟨c, -, next, hnext, h⟩ := h
    refine Option.some.inj h ▸ hi.renew ?_
    cases hphase : c.phase with
    | read | generated =>
      rw [hphase] at hnext
      rw [← Option.some.inj hnext]
      rfl
    | _ =>
      rw [hphase] at hnext
      cases hnext
  | generate worker generation =>
    simp only [exec, Option.bind_eq_bind, Option.bind_eq_some_iff] at h
    obtain ⟨c, -, h⟩ := h
    split at h
    · split at h
      · exact Option.some.inj h ▸ hi.moveOn _ rfl
      · exact Option.some.inj h ▸ hi.moveOn _ rfl
    · cases h
  | insertUploadSafeguard worker taskId now outcome =>
    simp only [exec, Option.bind_eq_bind, Option.bind_eq_some_iff] at h
    obtain ⟨c, hc, h⟩ := h
    obtain ⟨hmem, rfl⟩ := consumer_eq_some hc
    split at h
    case h_2 => cases h
    obtain rfl := Option.some.inj h
    unfold RoomExports.insertUploadSafeguard
    have hunused : ∀ {tasks availableAt}, Files.insertUploadSafeguard s.store.tasks taskId c.objectKey availableAt = some tasks →
        outcome ≠ .failed → s.Unused c.objectKey := by
      intro tasks availableAt hinsert houtcome
      refine hfence houtcome c hc (Bool.eq_false_iff.2 fun hdup => ?_)
      rw [Files.insertUploadSafeguard, if_pos hdup] at hinsert
      cases hinsert
    split
    · exact hi.moveOn _ rfl
    · exact hi.moveOn _ rfl
    case h_3 hinsert => exact hi.safeguard hmem (hunused hinsert (by decide)) (.inl rfl) hinsert
    case h_4 hinsert => exact hi.safeguard hmem (hunused hinsert (by decide)) (.inr rfl) hinsert
  | upload worker outcome =>
    simp only [exec, Option.bind_eq_bind, Option.bind_eq_some_iff] at h
    obtain ⟨c, hc, h⟩ := h
    obtain ⟨hmem, rfl⟩ := consumer_eq_some hc
    split at h
    case h_2 => cases h
    case h_1 hphase => exact Option.some.inj h ▸ hi.upload hmem hphase
  | latePut objectKey =>
    obtain ⟨p, hp, rfl⟩ := Option.map_eq_some_iff.1 h
    have hmem : objectKey ∈ s.latePuts.map (·.1) :=
      List.mem_map.2 ⟨p, List.mem_of_find?_eq_some hp, by simpa using List.find?_some hp⟩
    refine hi.frame (· = objectKey) (fun _ hj _ => hj) rfl (fun _ hk => if_neg hk) hi.workers (fun c hc hup => ⟨hc, ?_⟩)
      (fun k hk => .inl ((List.eraseP_sublist.map _).subset hk)) fun j hj hs key hkey => ?_
    · obtain ⟨stored, hstored⟩ := Option.ne_none_iff_exists'.1 hup
      rintro rfl
      exact (hi.underWay c hc stored hstored).2.1 hmem
    · obtain ⟨key', body, hkey', -, -, -, hquiet⟩ := hi.completed j hj hs
      obtain rfl := Option.some.inj (hkey.symm.trans hkey')
      rintro rfl
      exact hquiet.1 hmem
  | complete worker now outcome =>
    simp only [exec, Option.bind_eq_bind, Option.bind_eq_some_iff] at h
    obtain ⟨c, hc, h⟩ := h
    obtain ⟨hmem, rfl⟩ := consumer_eq_some hc
    split at h
    case h_2 => cases h
    case h_1 hphase => exact Option.some.inj h ▸ hi.complete hmem hphase fun houtcome => hfence houtcome c hc
  | recordFailure worker random now outcome =>
    simp only [exec, Option.bind_eq_bind, Option.bind_eq_some_iff] at h
    obtain ⟨c, -, h⟩ := h
    split at h
    case h_2 => cases h
    case h_1 => exact Option.some.inj h ▸ hi.recordFailure
  | crash worker => exact Option.some.inj h ▸ hi.leaveOff _
  | cleanup a =>
    obtain ⟨store, hstore, rfl⟩ := Option.map_eq_some_iff.1 h
    exact hi.cleanup hfence (Store.effect_of_exec hstore)

end RoomExports

end Steps

/-! ### The results -/

/-- **A completed export keeps its object** in every fenced run. -/
theorem results_stored (config : ReportsConfig) (sha256Hex : Buffer → String) (s : RoomExports)
    (h : (exports config sha256Hex).Reachable Fenced s) : ResultsStored sha256Hex s := by
  have hi : s.Inv sha256Hex := by
    refine h.invariant ?_ fun s a s' hi hfence he => hi.step hfence he
    rintro s rfl
    exact ⟨List.nodup_nil, fun _ h => absurd h List.not_mem_nil, List.nodup_nil, fun _ h => absurd h List.not_mem_nil,
      fun _ h => absurd h List.not_mem_nil⟩
  intro j hj hs
  obtain ⟨key, body, hkey, hsize, hsum, hpub, -⟩ := hi.completed j hj hs
  exact ⟨key, body, hkey, hpub.object, hsize, hsum, hpub.unnamed⟩

/-- The accepted bounds. -/
def reportsConfig : ReportsConfig where
  maxAttempts := 3
  claimLeaseMs := 180000
  backoffInitialMs := 30000
  backoffMaxMs := 900000
  cleanupGraceMs := 120000
  maxFileBytes := 26214400
  ttlHours := 24

/-- A workbook, as far as it matters. -/
def workbook : Buffer := [80, 75]

/-- Its digest. -/
def workbookSha256 (body : Buffer) : String :=
  if body = workbook then "fcab7fcc2b4cffd9bb45003bfc2e468a04ef6f77ca8200a7341f027631584d25" else ""

/-- An attempt of the job, up to its upload. -/
def attempt (worker : ℕ) (claimToken : String) (attempt now : ℕ) (taskId : String) : List ExportAction :=
  [.statement now (.claim .roomExport 10 180000 claimToken (fun _ => false) fun _ => false),
   .start worker ⟨"event", claimToken, attempt⟩ (now + 10) .committed, .read worker (.ok 1), .renew worker (now + 20) .committed,
   .generate worker (.generated "job" attempt workbook 2 1), .renew worker (now + 30) .committed,
   .insertUploadSafeguard worker taskId (now + 40) .committed, .upload worker .done]

/-- An attempt dies after its upload, and another one after its lease completes the job; a worker
removes what the first one left. -/
def recoveredExport : List ExportAction :=
  .create "event" "job" 1 (.obj []) 0 :: attempt 0 "first" 1 100 "task-1" ++ .crash 0 ::
    attempt 1 "second" 2 180000200 "task-2" ++ [.cleanup (.claim 0 "cleaner" 60 (fun _ => false) 180000300),
      .cleanup (.deleteObject 0 .done), .complete 1 180000400 .committed, .cleanup (.deleteTask 0 .committed)]

theorem recoveredExport_isSome : ((exports reportsConfig workbookSha256).check Fenced .empty recoveredExport).isSome = true := by
  decide

theorem results_stored_recoveredExport :
    (((exports reportsConfig workbookSha256).check Fenced .empty recoveredExport).get recoveredExport_isSome).jobs.map
        (fun j => (j.status, j.objectKey)) = [(.completed, some "exports/rooms/job/second.xlsx")] ∧
      ResultsStored workbookSha256
        (((exports reportsConfig workbookSha256).check Fenced .empty recoveredExport).get recoveredExport_isSome) :=
  ⟨by decide, results_stored _ _ _ (.of_check (.init rfl) (Option.some_get recoveredExport_isSome).symm)⟩

/-- An attempt waits past the grace of its safeguard, within its lease. A worker claims the
safeguard, the attempt completes, and the worker goes on to delete the object. -/
def lostResult : List ExportAction :=
  .create "event" "job" 1 (.obj []) 0 :: attempt 0 "token" 1 100 "task" ++
    [.cleanup (.claim 0 "cleaner" 60 (fun _ => false) 120000200), .complete 0 120000300 .committed,
      .cleanup (.deleteObject 0 .done)]

theorem lostResult_isSome : ((exports reportsConfig workbookSha256).run .empty lostResult).isSome = true := by decide

/-- The job is completed, and its object is not there. -/
theorem lostResult_not_resultsStored :
    ¬ ∀ s, (exports reportsConfig workbookSha256).Reachable (fun _ _ => True) s → ResultsStored workbookSha256 s := by
  intro h
  have hall := h _ (.of_run (.init rfl) (fun _ _ _ => trivial) (Option.some_get lostResult_isSome).symm)
  have hjobs : ∀ j ∈ (((exports reportsConfig workbookSha256).run .empty lostResult).get lostResult_isSome).jobs,
      j.status = .completed ∧ j.objectKey = some "exports/rooms/job/token.xlsx" := by decide
  have hnone : (((exports reportsConfig workbookSha256).run .empty lostResult).get lostResult_isSome).store.objects
      "exports/rooms/job/token.xlsx" = none := by decide
  have hone : (((exports reportsConfig workbookSha256).run .empty lostResult).get lostResult_isSome).jobs ≠ [] := by
    intro hnil
    exact absurd (congrArg List.length hnil) (by decide)
  obtain ⟨j, hj⟩ := List.exists_mem_of_ne_nil _ hone
  obtain ⟨key, body, hstored⟩ := hall j hj (hjobs j hj).1
  obtain rfl := Option.some.inj (hstored.objectKey.symm.trans (hjobs j hj).2)
  exact absurd (hstored.object.symm.trans hnone) (Option.some_ne_none body)

end HotelBackend.Reports
