import HotelBackend.Files.Attachments

/-!
# Uploads, detaches and cleanup together

The requests that change attachments (`RoomImagesService`, `RoomsService.delete`), the
best-effort deletion after them, and the cleanup workers, a call at a time and in any
order. An upload commits its safeguard, stores its object and completes; between these it
may wait for any time, and it may end at any of them.

`AllStored` is what is wanted: an attachment has its object. It holds in every run whose
releases are `SafeRelease`; the workers of the source make no such check.
-/

namespace HotelBackend.Files

open HotelBackend.Theory

/-! ### The machine -/

/-- How far an upload is. -/
inductive UploadPhase where
  /-- The safeguard is committed. -/
  | safeguarded
  /-- The object is stored. -/
  | staged
  /-- Completed, refused or given up. -/
  | over
  deriving DecidableEq, Repr

/-- An upload, by the key of its object. -/
structure Upload where
  staged : StagedUpload
  uploaderUserId : ℕ
  body : Buffer
  phase : UploadPhase

/-- The key of its object. -/
def Upload.objectKey (u : Upload) : String := u.staged.objectKey

/-- What it has stored. -/
def Upload.stored (u : Upload) : Option Buffer := if u.phase = .staged then some u.body else none

/-- The requests, the deletions after them, and the workers. -/
structure Uploads where
  store : Store Buffer
  rooms : List ℕ
  attachments : List Attachment
  uploads : List Upload
  /-- Writes reported as failed that the provider has yet to carry out. -/
  latePuts : List (String × Buffer)
  /-- `deleteDetachedObjects`, at an object. -/
  detached : List String
  /-- `deleteDetachedObjects`, at the task of an object that is gone. -/
  deleted : List String

/-- A step of a request, of a deletion after one, or of the workers. -/
inductive UploadAction where
  | createRoom (roomId : ℕ)
  /-- `stageUpload` commits the safeguard of a new key. -/
  | safeguard (policy : AttachmentPolicy) (roomId uploaderUserId : ℕ) (objectKey mimeType : String) (body : Buffer)
      (taskId : String) (graceMs now : ℕ) (outcome : QueryOutcome)
  /-- `stageUpload` stores the object. -/
  | putObject (objectKey : String) (outcome : CallOutcome)
  | latePut (objectKey : String)
  /-- The process of an upload dies. -/
  | abandon (objectKey : String)
  /-- `completeUpload`, in its transaction. -/
  | complete (objectKey : String) (uuid : ℕ → String) (now : ℕ) (outcome : QueryOutcome)
  /-- `RoomImagesService.delete`. -/
  | detach (roomId : ℕ) (attachmentId : String) (uuid : ℕ → String) (now : ℕ) (outcome : QueryOutcome)
  /-- `RoomImagesService.reorder`. -/
  | reorder (roomId : ℕ) (attachmentIds : List String) (outcome : QueryOutcome)
  /-- `RoomsService.delete`. -/
  | deleteRoom (roomId : ℕ) (uuid : ℕ → String) (now : ℕ) (outcome : QueryOutcome)
  /-- `deleteDetachedObjects`, its storage call. -/
  | deleteDetached (objectKey : String) (outcome : CallOutcome)
  /-- `deleteDetachedObjects`, its query. -/
  | deleteDetachedTask (objectKey : String) (outcome : QueryOutcome)
  | cleanup (a : CleanupAction)

namespace Uploads

/-- The tables. -/
def tables (s : Uploads) : FilesTables := ⟨s.attachments, s.store.tasks⟩

/-- The tables after a transaction. -/
def commit (s : Uploads) (db : FilesTables) : Uploads :=
  { s with attachments := db.attachments, store := { s.store with tasks := db.tasks } }

/-- The upload of a key, in a phase. -/
def upload (s : Uploads) (objectKey : String) (phase : UploadPhase) : Option Upload :=
  s.uploads.find? fun u => u.objectKey = objectKey && u.phase = phase

/-- The upload moves on. -/
def setPhase (s : Uploads) (objectKey : String) (phase : UploadPhase) : List Upload :=
  Table.update s.uploads (·.objectKey = objectKey) fun u => { u with phase := phase }

/-- The object is stored. -/
def put (s : Uploads) (objectKey : String) (body : Buffer) : Store Buffer :=
  { s.store with objects := fun k => if k = objectKey then some body else s.store.objects k }

/-- A transaction of a request: its result is committed or not, and its request goes on only if
it hears of the commit. -/
def transact (s : Uploads) (outcome : QueryOutcome) (result : Except FilesError (FilesTables × List String)) : Uploads :=
  match outcome, result with
  | .failed, _ | _, .error _ => s
  | .lostReply, .ok (db, _) => s.commit db
  | .committed, .ok (db, objectKeys) => { s.commit db with detached := s.detached ++ objectKeys }

/-- `lockRoom`. -/
def lockRoom (s : Uploads) (roomId : ℕ) : Except FilesError Unit := Result.require (roomId ∈ s.rooms) .roomNotFound

def exec (s : Uploads) : UploadAction → Option Uploads
  | .createRoom roomId => if roomId ∈ s.rooms then none else some { s with rooms := s.rooms ++ [roomId] }
  | .safeguard policy roomId uploaderUserId objectKey mimeType body taskId graceMs now outcome =>
    if s.uploads.any (·.objectKey = objectKey) || roomId ∉ s.rooms then none
    else match insertUploadSafeguard s.store.tasks taskId objectKey (now + graceMs * 1000), outcome with
      | none, _ | _, .failed => some s
      | some tasks, outcome =>
        let phase := if outcome = .committed then .safeguarded else .over
        some { s with store := { s.store with tasks := tasks },
                      uploads := s.uploads ++ [⟨⟨policy, roomId, objectKey, mimeType, body.length⟩, uploaderUserId, body, phase⟩] }
  | .putObject objectKey outcome => (s.upload objectKey .safeguarded).map fun u =>
    match outcome with
    | .done => { s with store := s.put objectKey u.body, uploads := s.setPhase objectKey .staged }
    | .lostReply => { s with store := s.put objectKey u.body, uploads := s.setPhase objectKey .over }
    | .refused => { s with uploads := s.setPhase objectKey .over }
    | .late => { s with uploads := s.setPhase objectKey .over, latePuts := (objectKey, u.body) :: s.latePuts }
  | .latePut objectKey => (s.latePuts.find? (·.1 = objectKey)).map fun p =>
    { s with store := s.put objectKey p.2, latePuts := s.latePuts.eraseP (·.1 = objectKey) }
  | .abandon objectKey => some { s with uploads := s.setPhase objectKey .over }
  | .complete objectKey uuid now outcome => (s.upload objectKey .staged).map fun u =>
    { s.transact outcome (do s.lockRoom u.staged.objectId; completeUpload s.tables u.staged u.uploaderUserId uuid now) with
      uploads := s.setPhase objectKey .over }
  | .detach roomId attachmentId uuid now outcome =>
    some (s.transact outcome (do s.lockRoom roomId; detach s.tables attachmentId .room roomId uuid now))
  | .reorder roomId attachmentIds outcome =>
    some (s.transact outcome (do s.lockRoom roomId; return (← reorder s.tables ⟨.room, roomId, .album⟩ attachmentIds, [])))
  | .deleteRoom roomId uuid now outcome =>
    match outcome, (do s.lockRoom roomId; detachRoom s.tables roomId uuid now : Except FilesError FilesTables) with
    | .failed, _ | _, .error _ => some s
    | _, .ok db => some { s.commit db with rooms := s.rooms.erase roomId }
  | .deleteDetached objectKey outcome =>
    if objectKey ∉ s.detached then none
    else
      let s := { s with detached := s.detached.erase objectKey }
      match outcome with
      | .done => some { s with store := { s.store with objects := Store.without s.store.objects objectKey },
                               deleted := objectKey :: s.deleted }
      | .lostReply => some { s with store := { s.store with objects := Store.without s.store.objects objectKey } }
      | .refused => some s
      | .late => some { s with store := { s.store with late := objectKey :: s.store.late } }
  | .deleteDetachedTask objectKey outcome =>
    if objectKey ∉ s.deleted then none
    else
      let s := { s with deleted := s.deleted.erase objectKey }
      if outcome = .failed then some s
      else some { s with store := { s.store with tasks := deleteByKey s.store.tasks objectKey .detachedObject } }
  | .cleanup a => (s.store.exec a).map fun store => { s with store := store }

end Uploads

/-- Nothing uploaded yet. -/
def Uploads.empty : Uploads := ⟨⟨[], fun _ => none, [], [], []⟩, [], [], [], [], [], []⟩

/-- Runs of the requests and the workers. -/
def uploads : Machine Uploads UploadAction where
  init s := s = .empty
  exec := Uploads.exec

/-- Every attachment has its object. -/
def AllStored (s : Uploads) : Prop := ∀ a ∈ s.attachments, ∃ body, s.store.objects a.objectKey = some body

/-- While its upload is under way, a safeguard is released only if the object is safe: what was
stored is still there, and no delete of it is to come. -/
def SafeRelease (s : Uploads) : UploadAction → Prop
  | .cleanup a => ∀ u ∈ s.uploads, u.phase ≠ .over → ∀ t ∈ s.store.tasks, t.objectKey = u.objectKey →
      s.store.Releases a t.id → s.store.Safe u.objectKey u.stored
  | _ => True

/-- The step is a release. -/
def UploadAction.isRelease : UploadAction → Bool
  | .cleanup (.release ..) => true
  | _ => false

/-- What is no release is safe. -/
theorem safeRelease_of_not_isRelease {s : Uploads} {a : UploadAction} (h : a.isRelease = false) : SafeRelease s a := by
  cases a with
  | cleanup a =>
    rintro u - - t - - ⟨run, graceMs, now, outcome, c, rfl, -⟩
    cases h
  | _ => trivial

/-! ### The invariant -/

/-- The invariant of runs whose releases are safe. -/
structure Uploads.Inv (s : Uploads) : Prop where
  uploadKeys : (s.uploads.map (·.objectKey)).Nodup
  taskKeys : (s.store.tasks.map (·.objectKey)).Nodup
  attachmentKeys : (s.attachments.map (·.objectKey)).Nodup
  /-- A key in use is the key of an upload. -/
  known : ∀ k, (∃ t ∈ s.store.tasks, t.objectKey = k) ∨ (∃ a ∈ s.attachments, a.objectKey = k) ∨ s.store.Condemned k ∨
    k ∈ s.detached ∨ k ∈ s.latePuts.map (·.1) → k ∈ s.uploads.map (·.objectKey)
  /-- A live object is published. -/
  live : ∀ a ∈ s.attachments, a.objectKey ∉ s.detached ∧ ∃ body, s.store.Published a.objectKey body
  /-- An object on its way is guarded by its safeguard. -/
  underWay : ∀ u ∈ s.uploads, u.phase ≠ .over → s.store.Guarded u.objectKey u.stored ∧
    (∀ t ∈ s.store.tasks, t.objectKey = u.objectKey → t.reason = .uploadSafeguard) ∧
    (∀ a ∈ s.attachments, a.objectKey ≠ u.objectKey) ∧ u.objectKey ∉ s.detached ∧ u.objectKey ∉ s.latePuts.map (·.1)

section Steps

variable {s : Uploads}

theorem upload_eq_some {objectKey : String} {phase : UploadPhase} {u : Upload} (h : s.upload objectKey phase = some u) :
    u ∈ s.uploads ∧ u.objectKey = objectKey ∧ u.phase = phase := by
  have hp := List.find?_some h
  simp only [Bool.and_eq_true, decide_eq_true_eq] at hp
  exact ⟨List.mem_of_find?_eq_some h, hp⟩

theorem map_setPhase (objectKey : String) (phase : UploadPhase) :
    (s.setPhase objectKey phase).map (·.objectKey) = s.uploads.map (·.objectKey) := by
  refine Table.map_update ?_
  exact fun _ _ _ => rfl

/-- An upload still under way after another is over was so before. -/
theorem mem_setPhase_over {objectKey : String} {u : Upload} (hu : u ∈ s.setPhase objectKey .over) (hphase : u.phase ≠ .over) :
    u ∈ s.uploads ∧ u.objectKey ≠ objectKey := by
  obtain ⟨v, hv, ⟨-, rfl⟩ | ⟨hp, rfl⟩⟩ := Table.mem_update.1 hu
  · exact absurd rfl hphase
  · exact ⟨hv, of_decide_eq_false hp⟩

/-- The keys `K` are those of no upload under way: what happens to them does not matter, as long as
a live object of them is there and spared. -/
theorem Uploads.Inv.frame {s' : Uploads} (hi : s.Inv) (K : String → Prop)
    (htasks : s'.store.tasks.Sublist s.store.tasks) (hatt : s'.attachments = s.attachments)
    (hkeys : s'.uploads.map (·.objectKey) = s.uploads.map (·.objectKey))
    (hphase : ∀ u ∈ s'.uploads, u.phase ≠ .over → u ∈ s.uploads ∧ ¬ K u.objectKey)
    (hdetached : s'.detached ⊆ s.detached)
    (hlate : ∀ k ∈ s'.latePuts.map (·.1), k ∈ s.latePuts.map (·.1) ∨ (K k ∧ k ∈ s.uploads.map (·.objectKey)))
    (hcondemned : ∀ k, s'.store.Condemned k → s.store.Condemned k ∨ (K k ∧ k ∈ s.uploads.map (·.objectKey)))
    (hobjects : ∀ k, ¬ K k → s'.store.objects k = s.store.objects k)
    (hlive : ∀ a ∈ s.attachments, K a.objectKey →
      ¬ s'.store.Condemned a.objectKey ∧ ∃ body, s'.store.objects a.objectKey = some body) : s'.Inv where
  uploadKeys := hkeys ▸ hi.uploadKeys
  taskKeys := hi.taskKeys.sublist (htasks.map _)
  attachmentKeys := hatt ▸ hi.attachmentKeys
  known k hk := by
    rw [hkeys]
    rcases hk with ⟨t, ht, rfl⟩ | ⟨a, ha, rfl⟩ | hk | hk | hk
    · exact hi.known _ (.inl ⟨t, htasks.subset ht, rfl⟩)
    · exact hi.known _ (.inr (.inl ⟨a, hatt ▸ ha, rfl⟩))
    · exact (hcondemned k hk).elim (fun hk => hi.known _ (.inr (.inr (.inl hk)))) And.right
    · exact hi.known _ (.inr (.inr (.inr (.inl (hdetached hk)))))
    · exact (hlate k hk).elim (fun hk => hi.known _ (.inr (.inr (.inr (.inr hk))))) And.right
  live a ha := by
    rw [hatt] at ha
    obtain ⟨hnot, body, hpub⟩ := hi.live a ha
    refine ⟨fun h => hnot (hdetached h), ?_⟩
    by_cases hK : K a.objectKey
    · obtain ⟨hspared, body', hbody⟩ := hlive a ha hK
      exact ⟨body', hbody, hspared, fun t ht => hpub.unnamed t (htasks.subset ht)⟩
    · refine ⟨body, (hobjects _ hK).trans hpub.object, fun hc => ?_, fun t ht => hpub.unnamed t (htasks.subset ht)⟩
      exact (hcondemned _ hc).elim hpub.spared fun h => hK h.1
  underWay u hu hover := by
    obtain ⟨hu, hK⟩ := hphase u hu hover
    obtain ⟨hguard, hreason, hnot, hdet, hput⟩ := hi.underWay u hu hover
    refine ⟨fun t ht hk hfree => ?_, fun t ht => hreason t (htasks.subset ht), hatt ▸ hnot, fun h => hdet (hdetached h),
      fun h => (hlate _ h).elim hput fun h => hK h.1⟩
    obtain ⟨hspared, hstored⟩ := hguard t (htasks.subset ht) hk hfree
    exact ⟨fun hc => (hcondemned _ hc).elim hspared fun h => hK h.1, fun b hb => (hobjects _ hK).trans (hstored b hb)⟩

/-- A transaction of a request keeps the invariant, if what it adds is a safe object of its own. -/
theorem Uploads.Inv.change {s' : Uploads} {added removed : List String} (hi : s.Inv) (hc : Change s.tables s'.tables added removed)
    (hadded : ∀ k ∈ added, k ∈ s.uploads.map (·.objectKey) ∧ ¬ s.store.Condemned k ∧ (∃ body, s.store.objects k = some body) ∧
      (∀ t ∈ s.store.tasks, t.objectKey = k → t.reason = .uploadSafeguard) ∧ (∀ a ∈ s.attachments, a.objectKey ≠ k) ∧
      k ∉ s.detached)
    (hstore : s'.store = { s.store with tasks := s'.store.tasks })
    (hkeys : s'.uploads.map (·.objectKey) = s.uploads.map (·.objectKey))
    (hphase : ∀ u ∈ s'.uploads, u.phase ≠ .over → u ∈ s.uploads ∧ u.objectKey ∉ added)
    (hdetached : ∀ k ∈ s'.detached, k ∈ s.detached ∨ k ∈ removed) (hputs : s'.latePuts = s.latePuts) : s'.Inv := by
  have hcondemned : ∀ k, s'.store.Condemned k → s.store.Condemned k := fun k h => by rw [hstore] at h; exact h
  have hobjects : s'.store.objects = s.store.objects := by rw [hstore]
  have hold : ∀ k ∈ removed, ∃ a ∈ s.attachments, a.objectKey = k := hc.removed
  refine ⟨hkeys ▸ hi.uploadKeys, hc.taskKeys, hc.attachmentKeys, fun k hk => ?_, fun a ha => ?_, fun u hu hover => ?_⟩
  · rw [hkeys]
    rcases hk with ⟨t, ht, rfl⟩ | ⟨a, ha, rfl⟩ | hk | hk | hk
    · rcases hc.tasks t ht with ⟨ht, -⟩ | ⟨hr, -⟩
      · exact hi.known _ (.inl ⟨t, ht, rfl⟩)
      · exact hi.known _ (.inr (.inl (hold _ hr)))
    · rcases hc.attachments a ha with hadd | ⟨-, hb⟩
      · exact (hadded _ hadd).1
      · exact hi.known _ (.inr (.inl hb))
    · exact hi.known _ (.inr (.inr (.inl (hcondemned k hk))))
    · rcases hdetached k hk with hk | hk
      · exact hi.known _ (.inr (.inr (.inr (.inl hk))))
      · exact hi.known _ (.inr (.inl (hold _ hk)))
    · exact hi.known _ (.inr (.inr (.inr (.inr (hputs ▸ hk)))))
  · rcases hc.attachments a ha with hadd | ⟨hkept, b, hb, hbk⟩
    · obtain ⟨-, hspared, ⟨body, hbody⟩, hreason, hnew, hdet⟩ := hadded _ hadd
      have hnot : a.objectKey ∉ removed := fun hr => by
        obtain ⟨b, hb, hbk⟩ := hold _ hr
        exact hnew b hb hbk
      refine ⟨fun h => (hdetached _ h).elim hdet hnot, body, hobjects ▸ hbody, fun h => hspared (hcondemned _ h), ?_⟩
      intro t ht hk
      rcases hc.tasks t ht with ⟨ht, hr⟩ | ⟨hr, -⟩
      · have := hr (hk ▸ hadd)
        rw [hreason t ht hk] at this
        cases this
      · exact hnot (hk ▸ hr)
    · obtain ⟨hdet, body, hpub⟩ := hi.live b hb
      rw [hbk] at hdet hpub
      refine ⟨fun h => (hdetached _ h).elim hdet hkept, body, hobjects ▸ hpub.object, fun h => hpub.spared (hcondemned _ h), ?_⟩
      intro t ht hk
      rcases hc.tasks t ht with ⟨ht, -⟩ | ⟨hr, -⟩
      · exact hpub.unnamed t ht hk
      · exact hkept (hk ▸ hr)
  · obtain ⟨hu, hnew⟩ := hphase u hu hover
    obtain ⟨hguard, hreason, hnot, hdet, hput⟩ := hi.underWay u hu hover
    have hkept : u.objectKey ∉ removed := fun hr => by
      obtain ⟨a, ha, hak⟩ := hold _ hr
      exact hnot a ha hak
    have htask : ∀ t ∈ s'.store.tasks, t.objectKey = u.objectKey → t ∈ s.store.tasks := by
      intro t ht hk
      rcases hc.tasks t ht with ⟨ht, -⟩ | ⟨hr, -⟩
      · exact ht
      · exact absurd (hk ▸ hr) hkept
    refine ⟨fun t ht hk hfree => ?_, fun t ht hk => hreason t (htask t ht hk) hk, fun a ha hk => ?_,
      fun h => (hdetached _ h).elim hdet hkept, hputs ▸ hput⟩
    · obtain ⟨hspared, hstored⟩ := hguard t (htask t ht hk) hk hfree
      exact ⟨fun h => hspared (hcondemned _ h), fun b hb => hobjects ▸ hstored b hb⟩
    · rcases hc.attachments a ha with hadd | ⟨-, b, hb, hbk⟩
      · exact hnew (hk ▸ hadd)
      · exact hnot b hb (hbk.trans hk)

/-- A transaction of a request, committed or not, with the uploads `us` after it. -/
theorem Uploads.Inv.transact {us : List Upload} {outcome : QueryOutcome}
    {result : Except FilesError (FilesTables × List String)} (hi : s.Inv) (added : List String)
    (hresult : ∀ db removed, result = .ok (db, removed) → Change s.tables db added removed ∧
      ∀ k ∈ added, k ∈ s.uploads.map (·.objectKey) ∧ ¬ s.store.Condemned k ∧ (∃ body, s.store.objects k = some body) ∧
        (∀ t ∈ s.store.tasks, t.objectKey = k → t.reason = .uploadSafeguard) ∧ (∀ a ∈ s.attachments, a.objectKey ≠ k) ∧
        k ∉ s.detached)
    (hkeys : us.map (·.objectKey) = s.uploads.map (·.objectKey))
    (hphase : ∀ u ∈ us, u.phase ≠ .over → u ∈ s.uploads ∧ u.objectKey ∉ added) :
    Uploads.Inv { s.transact outcome result with uploads := us } := by
  have hsame : Uploads.Inv { s with uploads := us } :=
    hi.frame (· ∈ added) (List.Sublist.refl _) rfl hkeys hphase (List.Subset.refl _) (fun _ => .inl) (fun _ => .inl)
      (fun _ _ => rfl) fun a ha _ => by
        obtain ⟨-, body, hpub⟩ := hi.live a ha
        exact ⟨hpub.spared, body, hpub.object⟩
  cases result with
  | error e => cases outcome <;> exact hsame
  | ok r =>
    obtain ⟨db, removed⟩ := r
    obtain ⟨hc, hadded⟩ := hresult db removed rfl
    cases outcome with
    | failed => exact hsame
    | lostReply => exact hi.change hc hadded rfl hkeys hphase (fun _ => .inl) rfl
    | committed => exact hi.change hc hadded rfl hkeys hphase (fun _ => List.mem_append.1) rfl

/-- A transaction that adds no object. -/
theorem Uploads.Inv.transact_nil {outcome : QueryOutcome} {result : Except FilesError (FilesTables × List String)} (hi : s.Inv)
    (hresult : ∀ db removed, result = .ok (db, removed) → Change s.tables db [] removed) :
    (s.transact outcome result).Inv := by
  have huploads : s.uploads = (s.transact outcome result).uploads := by
    cases result with
    | error => cases outcome <;> rfl
    | ok r => obtain ⟨db, removed⟩ := r; cases outcome <;> rfl
  have h : Uploads.Inv { s.transact outcome result with uploads := s.uploads } :=
    hi.transact [] (fun db removed h => ⟨hresult db removed h, fun k hk => absurd hk List.not_mem_nil⟩) rfl
      fun u hu _ => ⟨hu, List.not_mem_nil⟩
  rwa [huploads] at h

theorem lockRoom_eq_ok {roomId : ℕ} {db : FilesTables} {keys : List String} {f : Except FilesError (FilesTables × List String)}
    (h : (do s.lockRoom roomId; f) = .ok (db, keys)) : f = .ok (db, keys) := by
  obtain ⟨-, -, h⟩ := Result.bind_eq_ok.1 h
  exact h

/-- Two uploads of one key are one upload. -/
theorem Uploads.Inv.upload_unique (hi : s.Inv) {u v : Upload} (hu : u ∈ s.uploads) (hv : v ∈ s.uploads)
    (h : u.objectKey = v.objectKey) : u = v := Table.UniqueBy.of_nodup hi.uploadKeys u hu v hv h

/-- A safeguard is committed for a new key. -/
theorem Uploads.Inv.safeguard {staged : StagedUpload} {uploaderUserId : ℕ} {body : Buffer} {phase : UploadPhase}
    {tasks : List StorageCleanupTask} {taskId : String} {availableAt : ℕ} (hi : s.Inv)
    (hnew : staged.objectKey ∉ s.uploads.map (·.objectKey)) (hphase : phase ≠ .staged)
    (htasks : insertUploadSafeguard s.store.tasks taskId staged.objectKey availableAt = some tasks) :
    Uploads.Inv { s with store := { s.store with tasks := tasks },
                         uploads := s.uploads ++ [⟨staged, uploaderUserId, body, phase⟩] } := by
  unfold insertUploadSafeguard at htasks
  split at htasks
  · cases htasks
  case isFalse hdup =>
  obtain rfl := Option.some.inj htasks
  have hknown : ∀ k ∈ s.uploads.map (·.objectKey),
      k ∈ (s.uploads ++ [(⟨staged, uploaderUserId, body, phase⟩ : Upload)]).map (·.objectKey) := by
    intro k hk
    rw [List.map_append]
    exact List.mem_append_left _ hk
  refine ⟨?_, nodup_append_task hi.taskKeys (Bool.eq_false_iff.2 hdup), hi.attachmentKeys, fun k hk => ?_, fun a ha => ?_,
    fun u hu hover => ?_⟩
  · rw [List.map_append, List.nodup_append]
    refine ⟨hi.uploadKeys, List.nodup_singleton _, fun a ha b hb => ?_⟩
    rw [List.mem_singleton.1 hb]
    rintro rfl
    exact hnew ha
  · rcases hk with ⟨t, ht, rfl⟩ | hk
    · rcases List.mem_append.1 ht with ht | ht
      · exact hknown _ (hi.known _ (.inl ⟨t, ht, rfl⟩))
      · rw [List.mem_singleton.1 ht, List.map_append]
        exact List.mem_append_right _ List.mem_cons_self
    · exact hknown _ (hi.known k (.inr hk))
  · obtain ⟨hdet, body', hpub⟩ := hi.live a ha
    refine ⟨hdet, body', hpub.object, hpub.spared, fun t ht hk => ?_⟩
    rcases List.mem_append.1 ht with ht | ht
    · exact hpub.unnamed t ht hk
    · rw [List.mem_singleton.1 ht] at hk
      exact hnew (hi.known _ (.inr (.inl ⟨a, ha, hk.symm⟩)))
  · rcases List.mem_append.1 hu with hu | hu
    · obtain ⟨hguard, hreason, hrest⟩ := hi.underWay u hu hover
      have hne : staged.objectKey ≠ u.objectKey := fun h => hnew (h ▸ List.mem_map_of_mem hu)
      have htask : ∀ t ∈ s.store.tasks ++ [StorageCleanupTask.fresh taskId staged.objectKey .uploadSafeguard availableAt],
          t.objectKey = u.objectKey → t ∈ s.store.tasks := by
        intro t ht hk
        rcases List.mem_append.1 ht with ht | ht
        · exact ht
        · rw [List.mem_singleton.1 ht] at hk
          exact absurd hk hne
      exact ⟨fun t ht hk => hguard t (htask t ht hk) hk, fun t ht hk => hreason t (htask t ht hk) hk, hrest⟩
    · obtain rfl := List.mem_singleton.1 hu
      have hfree : ∀ k, k = staged.objectKey → ¬ s.store.Condemned k := by
        rintro k rfl hc
        exact hnew (hi.known _ (.inr (.inr (.inl hc))))
      refine ⟨fun t _ _ _ => ⟨hfree _ rfl, fun b hb => ?_⟩, fun t ht hk => ?_,
        fun a ha hk => hnew (hi.known _ (.inr (.inl ⟨a, ha, hk⟩))), fun h => hnew (hi.known _ (.inr (.inr (.inr (.inl h))))),
        fun h => hnew (hi.known _ (.inr (.inr (.inr (.inr h)))))⟩
      · rw [Upload.stored, if_neg hphase] at hb
        cases hb
      · rcases List.mem_append.1 ht with ht | ht
        · exact absurd (hi.known _ (.inl ⟨t, ht, hk⟩)) hnew
        · rw [List.mem_singleton.1 ht]
          rfl

/-- The object of an upload is stored. -/
theorem Uploads.Inv.put {objectKey : String} {u : Upload} (hi : s.Inv) (hu : s.upload objectKey .safeguarded = some u) :
    Uploads.Inv { s with store := s.put objectKey u.body, uploads := s.setPhase objectKey .staged } := by
  obtain ⟨hmem, rfl, hphase⟩ := upload_eq_some hu
  have hover : u.phase ≠ .over := hphase ▸ by decide
  obtain ⟨hguard, hreason, hnot, hdet, hput⟩ := hi.underWay u hmem hover
  have hother : ∀ k, k ≠ u.objectKey → (s.put u.objectKey u.body).objects k = s.store.objects k := fun k hk => if_neg hk
  have hkeys := map_setPhase (s := s) u.objectKey .staged
  refine ⟨hkeys ▸ hi.uploadKeys, hi.taskKeys, hi.attachmentKeys, fun k hk => ?_, fun a ha => ?_,
    fun v hv hover => ?_⟩
  · rw [hkeys]
    exact hi.known k hk
  · obtain ⟨hdet, body, hpub⟩ := hi.live a ha
    exact ⟨hdet, body, (hother _ (hnot a ha)).trans hpub.object, hpub.spared, hpub.unnamed⟩
  · obtain ⟨w, hw, ⟨hp, rfl⟩ | ⟨hp, rfl⟩⟩ := Table.mem_update.1 hv
    · obtain rfl := hi.upload_unique hw hmem (of_decide_eq_true hp)
      refine ⟨fun t ht hk hfree => ⟨(hguard t ht hk hfree).1, fun b hb => ?_⟩, hreason, hnot, hdet, hput⟩
      rw [← hb]
      exact if_pos rfl
    · obtain ⟨hguard, hrest⟩ := hi.underWay w hw hover
      refine ⟨fun t ht hk hfree => ⟨(hguard t ht hk hfree).1, fun b hb => ?_⟩, hrest⟩
      exact (hother _ (of_decide_eq_false hp)).trans ((hguard t ht hk hfree).2 b hb)

/-- A step of the workers, if its release is safe. -/
theorem Uploads.Inv.cleanup {store : Store Buffer} {a : CleanupAction} (hi : s.Inv) (hsafe : SafeRelease s (.cleanup a))
    (he : Store.Effect s.store a store) : Uploads.Inv { s with store := store } where
  uploadKeys := hi.uploadKeys
  taskKeys := he.taskKeys hi.taskKeys
  attachmentKeys := hi.attachmentKeys
  known k hk := by
    rcases hk with ⟨t', ht', rfl⟩ | hk | hk | hk
    · obtain ⟨t, ht, -, hk, -⟩ := he.tasks t' ht'
      exact hi.known _ (.inl ⟨t, ht, hk.symm⟩)
    · exact hi.known k (.inr (.inl hk))
    · rcases he.condemned k hk with hk | ⟨t, ht, hk, -⟩
      · exact hi.known k (.inr (.inr (.inl hk)))
      · exact hi.known k (.inl ⟨t, ht, hk⟩)
    · exact hi.known k (.inr (.inr (.inr hk)))
  live a ha := by
    obtain ⟨hdet, body, hpub⟩ := hi.live a ha
    exact ⟨hdet, body, hpub.step he⟩
  underWay u hu hover := by
    obtain ⟨hguard, hreason, hrest⟩ := hi.underWay u hu hover
    refine ⟨hguard.step hi.taskKeys (hsafe u hu hover) he, fun t' ht' hk => ?_, hrest⟩
    obtain ⟨t, ht, -, hk', hr, -⟩ := he.tasks t' ht'
    exact hr.trans (hreason t ht (hk'.symm.trans hk))

/-- What the provider is given up on, it may still delete. -/
theorem condemned_cons {store : Store Buffer} {objectKey k : String}
    (h : Store.Condemned { store with late := objectKey :: store.late } k) : store.Condemned k ∨ k = objectKey := by
  rcases h with h | h
  · exact .inl (.inl h)
  · exact (List.mem_cons.1 h).elim .inr fun h => .inl (.inr h)

/-- Every step keeps the invariant, if its release is safe. -/
theorem Uploads.Inv.step {s' : Uploads} {a : UploadAction} (hi : s.Inv) (hsafe : SafeRelease s a) (h : s.exec a = some s') :
    s'.Inv := by
  cases a with
  | createRoom roomId =>
    simp only [Uploads.exec] at h
    split at h
    · cases h
    · obtain rfl := Option.some.inj h
      exact ⟨hi.uploadKeys, hi.taskKeys, hi.attachmentKeys, hi.known, hi.live, hi.underWay⟩
  | safeguard policy roomId uploaderUserId objectKey mimeType body taskId graceMs now outcome =>
    simp only [Uploads.exec] at h
    split at h
    · cases h
    case isFalse hnew =>
    have hnew : objectKey ∉ s.uploads.map (·.objectKey) := by
      intro hk
      obtain ⟨u, hu, rfl⟩ := List.mem_map.1 hk
      refine hnew ?_
      rw [Bool.or_eq_true]
      exact .inl (List.any_eq_true.2 ⟨u, hu, decide_eq_true rfl⟩)
    split at h
    · exact Option.some.inj h ▸ hi
    · exact Option.some.inj h ▸ hi
    case h_3 htasks _ =>
      obtain rfl := Option.some.inj h
      refine hi.safeguard hnew ?_ htasks
      split <;> decide
  | putObject objectKey outcome =>
    obtain ⟨u, hu, rfl⟩ := Option.map_eq_some_iff.1 h
    obtain ⟨hmem, rfl, hphase⟩ := upload_eq_some hu
    have hover : u.phase ≠ .over := hphase ▸ by decide
    obtain ⟨-, -, hnot, -⟩ := hi.underWay u hmem hover
    have hlive : ∀ (store : Store Buffer), ∀ a ∈ s.attachments, a.objectKey = u.objectKey →
        ¬ store.Condemned a.objectKey ∧ ∃ body, store.objects a.objectKey = some body :=
      fun _ a ha hk => absurd hk (hnot a ha)
    cases outcome with
    | done => exact hi.put hu
    | lostReply =>
      exact hi.frame (· = u.objectKey) (List.Sublist.refl _) rfl (map_setPhase _ _) (fun _ => mem_setPhase_over)
        (List.Subset.refl _) (fun _ => .inl) (fun _ => .inl) (fun _ hk => if_neg hk) (hlive _)
    | refused =>
      exact hi.frame (· = u.objectKey) (List.Sublist.refl _) rfl (map_setPhase _ _) (fun _ => mem_setPhase_over)
        (List.Subset.refl _) (fun _ => .inl) (fun _ => .inl) (fun _ _ => rfl) (hlive _)
    | late =>
      refine hi.frame (· = u.objectKey) (List.Sublist.refl _) rfl (map_setPhase _ _) (fun _ => mem_setPhase_over)
        (List.Subset.refl _) (fun k hk => ?_) (fun _ => .inl) (fun _ _ => rfl) (hlive _)
      rcases List.mem_cons.1 hk with rfl | hk
      · exact .inr ⟨rfl, List.mem_map_of_mem hmem⟩
      · exact .inl hk
  | latePut objectKey =>
    obtain ⟨p, hp, rfl⟩ := Option.map_eq_some_iff.1 h
    have hmem : objectKey ∈ s.latePuts.map (·.1) :=
      List.mem_map.2 ⟨p, List.mem_of_find?_eq_some hp, by simpa using List.find?_some hp⟩
    refine hi.frame (· = objectKey) (List.Sublist.refl _) rfl rfl (fun u hu hover => ⟨hu, ?_⟩) (List.Subset.refl _)
      (fun k hk => .inl ((List.eraseP_sublist.map _).subset hk)) (fun _ => .inl) (fun _ hk => if_neg hk)
      (fun a ha hk => ⟨?_, p.2, if_pos hk⟩)
    · rintro rfl
      exact (hi.underWay u hu hover).2.2.2.2 hmem
    · obtain ⟨-, body, hpub⟩ := hi.live a ha
      exact hpub.spared
  | abandon objectKey =>
    obtain rfl := Option.some.inj h
    refine hi.frame (· = objectKey) (List.Sublist.refl _) rfl (map_setPhase _ _) (fun _ => mem_setPhase_over)
      (List.Subset.refl _) (fun _ => .inl) (fun _ => .inl) (fun _ _ => rfl) fun a ha _ => ?_
    obtain ⟨-, body, hpub⟩ := hi.live a ha
    exact ⟨hpub.spared, body, hpub.object⟩
  | complete objectKey uuid now outcome =>
    obtain ⟨u, hu, rfl⟩ := Option.map_eq_some_iff.1 h
    obtain ⟨hmem, rfl, hphase⟩ := upload_eq_some hu
    have hover : u.phase ≠ .over := hphase ▸ by decide
    obtain ⟨hguard, hreason, hnot, hdet, -⟩ := hi.underWay u hmem hover
    refine hi.transact [u.objectKey] (fun db removed hr => ?_) (map_setPhase _ _) fun v hv hover => ?_
    · obtain ⟨⟨t, ht, hk, hfree⟩, hc⟩ := completeUpload_ok hi.attachmentKeys hi.taskKeys (lockRoom_eq_ok hr)
      refine ⟨hc, fun k hk' => ?_⟩
      obtain rfl := List.mem_singleton.1 hk'
      obtain ⟨hspared, hstored⟩ := hguard t ht hk hfree
      exact ⟨List.mem_map_of_mem hmem, hspared, ⟨u.body, hstored _ (if_pos hphase)⟩, hreason, hnot, hdet⟩
    · obtain ⟨hv, hne⟩ := mem_setPhase_over hv hover
      exact ⟨hv, fun h => hne (List.mem_singleton.1 h)⟩
  | detach roomId attachmentId uuid now outcome =>
    obtain rfl := Option.some.inj h
    exact hi.transact_nil fun db removed hr => detach_ok hi.attachmentKeys hi.taskKeys (lockRoom_eq_ok hr)
  | reorder roomId attachmentIds outcome =>
    obtain rfl := Option.some.inj h
    refine hi.transact_nil fun db removed hr => ?_
    obtain ⟨db', hdb, hr⟩ := Result.bind_eq_ok.1 (lockRoom_eq_ok hr)
    obtain ⟨rfl, rfl⟩ := Prod.mk.inj (Result.pure_eq_ok.1 hr)
    exact reorder_ok hi.attachmentKeys hi.taskKeys hdb
  | deleteRoom roomId uuid now outcome =>
    simp only [Uploads.exec] at h
    split at h
    · exact Option.some.inj h ▸ hi
    · exact Option.some.inj h ▸ hi
    case h_3 hr =>
      obtain rfl := Option.some.inj h
      obtain ⟨-, -, hr⟩ := Result.bind_eq_ok.1 hr
      exact hi.change (detachRoom_ok hi.attachmentKeys hi.taskKeys hr) (fun k hk => absurd hk List.not_mem_nil) rfl rfl
        (fun u hu _ => ⟨hu, List.not_mem_nil⟩) (fun _ => .inl) rfl
  | deleteDetached objectKey outcome =>
    simp only [Uploads.exec] at h
    split at h
    · cases h
    case isFalse hmem =>
    have hmem : objectKey ∈ s.detached := not_not.1 hmem
    have hphase : ∀ u ∈ s.uploads, u.phase ≠ .over → u ∈ s.uploads ∧ u.objectKey ≠ objectKey := by
      intro u hu hover
      refine ⟨hu, ?_⟩
      rintro rfl
      exact (hi.underWay u hu hover).2.2.2.1 hmem
    have hlive : ∀ (store : Store Buffer), ∀ a ∈ s.attachments, a.objectKey = objectKey →
        ¬ store.Condemned a.objectKey ∧ ∃ body, store.objects a.objectKey = some body :=
      fun _ a ha hk => absurd (hk ▸ hmem) (hi.live a ha).1
    cases outcome with
    | done =>
      obtain rfl := Option.some.inj h
      exact hi.frame (· = objectKey) (List.Sublist.refl _) rfl rfl hphase List.erase_subset (fun _ => .inl) (fun _ => .inl)
        (fun _ hk => if_neg hk) (hlive _)
    | lostReply =>
      obtain rfl := Option.some.inj h
      exact hi.frame (· = objectKey) (List.Sublist.refl _) rfl rfl hphase List.erase_subset (fun _ => .inl) (fun _ => .inl)
        (fun _ hk => if_neg hk) (hlive _)
    | refused =>
      obtain rfl := Option.some.inj h
      exact hi.frame (· = objectKey) (List.Sublist.refl _) rfl rfl hphase List.erase_subset (fun _ => .inl) (fun _ => .inl)
        (fun _ _ => rfl) (hlive _)
    | late =>
      obtain rfl := Option.some.inj h
      refine hi.frame (· = objectKey) (List.Sublist.refl _) rfl rfl hphase List.erase_subset (fun _ => .inl)
        (fun k hk => (condemned_cons hk).imp_right ?_) (fun _ _ => rfl) (hlive _)
      rintro rfl
      exact ⟨rfl, hi.known _ (.inr (.inr (.inr (.inl hmem))))⟩
  | deleteDetachedTask objectKey outcome =>
    simp only [Uploads.exec] at h
    split at h
    · cases h
    split at h
    · exact Option.some.inj h ▸ hi.frame (fun _ => False) (List.Sublist.refl _) rfl rfl (fun u hu _ => ⟨hu, id⟩) (List.Subset.refl _)
        (fun _ => .inl) (fun _ => .inl) (fun _ _ => rfl) fun _ _ h => h.elim
    · exact Option.some.inj h ▸ hi.frame (fun _ => False) List.filter_sublist rfl rfl (fun u hu _ => ⟨hu, id⟩) (List.Subset.refl _)
        (fun _ => .inl) (fun _ => .inl) (fun _ _ => rfl) fun _ _ h => h.elim
  | cleanup a =>
    obtain ⟨store, hstore, rfl⟩ := Option.map_eq_some_iff.1 h
    exact hi.cleanup hsafe (Store.effect_of_exec hstore)

end Steps

/-! ### The results -/

/-- **Every attachment has its object** in every run whose releases are safe. -/
theorem all_stored (s : Uploads) (h : uploads.Reachable SafeRelease s) : AllStored s := by
  have hi : s.Inv := by
    refine h.invariant ?_ fun s a s' hi hsafe he => hi.step hsafe he
    rintro s rfl
    refine ⟨List.nodup_nil, List.nodup_nil, List.nodup_nil, fun k hk => ?_, fun _ h => absurd h List.not_mem_nil,
      fun _ h => absurd h List.not_mem_nil⟩
    simp [Uploads.empty, Store.Condemned] at hk
  intro a ha
  obtain ⟨-, body, hpub⟩ := hi.live a ha
  exact ⟨body, hpub.object⟩

/-- The safeguard and the object of a thumbnail. -/
def thumbnail (key taskId : String) (now : ℕ) : List UploadAction :=
  [.safeguard ⟨.room, .thumbnail, 1⟩ 7 1 key "image/png" [137, 80, 78, 71] taskId 60 now .committed, .putObject key .done]

/-- A thumbnail replaces another; an upload in between is given up, and a worker cleans up after it. -/
def replacement : List UploadAction :=
  .createRoom 7 :: thumbnail "a" "task-a" 0 ++ .complete "a" (fun _ => "attachment-a") 10 .committed ::
    thumbnail "b" "task-b" 20 ++ .abandon "b" :: .cleanup (.claim 0 "worker" 60 (fun _ => false) 70000) ::
    .cleanup (.deleteObject 0 .done) :: .cleanup (.deleteTask 0 .committed) ::
    thumbnail "c" "task-c" 80000 ++ [.complete "c" (fun i => if i = 0 then "attachment-c" else "task-a") 80010 .committed,
      .deleteDetached "a" .done, .deleteDetachedTask "a" .committed]

theorem replacement_isSome : (uploads.run .empty replacement).isSome = true := by decide

theorem all_stored_replacement :
    ((uploads.run .empty replacement).get replacement_isSome).attachments.map (·.objectKey) = ["c"] ∧
      AllStored ((uploads.run .empty replacement).get replacement_isSome) := by
  have hquiet : ∀ a ∈ replacement, a.isRelease = false := by decide
  exact ⟨by decide, all_stored _ (.of_run (.init rfl) (fun a ha _ => safeRelease_of_not_isRelease (hquiet a ha))
    (Option.some_get replacement_isSome).symm)⟩

/-- An upload waits past its grace before it completes. A worker deletes its object, fails to delete
the safeguard and releases it, and the completion finds it there and free. -/
def lostObject : List UploadAction :=
  .createRoom 7 :: thumbnail "a" "task-a" 0 ++ [.cleanup (.claim 0 "worker" 60 (fun _ => false) 70000),
    .cleanup (.deleteObject 0 .done), .cleanup (.deleteTask 0 .failed), .cleanup (.release 0 60 70010 .committed),
    .complete "a" (fun _ => "attachment-a") 70020 .committed]

theorem lostObject_isSome : (uploads.run .empty lostObject).isSome = true := by decide

/-- The attachment is there, and its object is not. -/
theorem lostObject_not_allStored : ¬ ∀ s, uploads.Reachable (fun _ _ => True) s → AllStored s := by
  intro h
  have hall := h _ (.of_run (.init rfl) (fun _ _ _ => trivial) (Option.some_get lostObject_isSome).symm)
  have hnone : ∀ a ∈ ((uploads.run .empty lostObject).get lostObject_isSome).attachments,
      ((uploads.run .empty lostObject).get lostObject_isSome).store.objects a.objectKey = none := by decide
  have hone : ((uploads.run .empty lostObject).get lostObject_isSome).attachments ≠ [] := by decide
  obtain ⟨a, ha⟩ := List.exists_mem_of_ne_nil _ hone
  obtain ⟨body, hbody⟩ := hall a ha
  rw [hnone a ha] at hbody
  cases hbody

end HotelBackend.Files
