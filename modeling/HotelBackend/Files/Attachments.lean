import HotelBackend.Theory.Results
import HotelBackend.Files.StorageCleanup

/-!
# Attachments

`AttachmentsService` and the metadata statements under it. Each function is what it does
inside its caller's transaction, on the two tables it writes: it answers with an error,
and the transaction rolls back, or with the tables to commit. `uuid` are the ids it draws.

The verification of the bytes and the rate limit come before any of this and change
nothing, so an upload starts here with its verified MIME type.
-/

namespace HotelBackend.Files

open HotelBackend.Theory

/-! ### The tables -/

inductive AttachmentObjectType where
  | room
  | user
  deriving DecidableEq, Repr

inductive AttachmentAssociationType where
  | thumbnail
  | album
  | avatar
  deriving DecidableEq, Repr

/-- What an attachment is attached to. -/
structure AttachmentTarget where
  objectType : AttachmentObjectType
  objectId : ℕ
  associationType : AttachmentAssociationType
  deriving DecidableEq, Repr

/-- A registered pair, and how many attachments a target may have of it. -/
structure AttachmentPolicy where
  objectType : AttachmentObjectType
  associationType : AttachmentAssociationType
  maxCount : ℕ
  deriving DecidableEq, Repr

/-- `singletonAttachmentCount`. -/
def singletonAttachmentCount : ℕ := 1

/-- `createAttachmentPolicies`. -/
def createAttachmentPolicies (maxAlbumCount : ℕ) : List AttachmentPolicy :=
  [⟨.room, .thumbnail, singletonAttachmentCount⟩, ⟨.room, .album, maxAlbumCount⟩]

/-- The bytes of a file. -/
abbrev Buffer := List UInt8

/-- A row of `attachments`. -/
structure Attachment where
  id : String
  uploaderUserId : ℕ
  objectType : AttachmentObjectType
  objectId : ℕ
  associationType : AttachmentAssociationType
  position : ℕ
  objectKey : String
  mimeType : String
  sizeBytes : ℕ
  deriving DecidableEq, Repr

/-- What the row is attached to. -/
def Attachment.target (a : Attachment) : AttachmentTarget := ⟨a.objectType, a.objectId, a.associationType⟩

/-- An upload between its stages. -/
structure StagedUpload where
  policy : AttachmentPolicy
  objectId : ℕ
  objectKey : String
  mimeType : String
  sizeBytes : ℕ
  deriving DecidableEq, Repr

/-- `targetOf`. -/
def StagedUpload.targetOf (staged : StagedUpload) : AttachmentTarget :=
  ⟨staged.policy.objectType, staged.objectId, staged.policy.associationType⟩

/-- Why a transaction rolls back. -/
inductive FilesError where
  | roomNotFound
  | storageUnavailable
  | attachmentLimitExceeded
  | attachmentNotFound
  | attachmentOrderInvalid
  /-- A unique key refuses a row. -/
  | duplicateEntry
  deriving DecidableEq, Repr

/-! ### The statements -/

/-- `ORDER BY position ASC, id ASC`. -/
def beforeAttachment (a b : Attachment) : Prop := a.position < b.position ∨ (a.position = b.position ∧ a.id ≤ b.id)

instance : DecidableRel beforeAttachment := fun _ _ => inferInstanceAs (Decidable (_ ∨ _))

/-- `findTargetAttachments`. -/
def findTargetAttachments (attachments : List Attachment) (target : AttachmentTarget) : List Attachment :=
  (attachments.filter (·.target = target)).insertionSort beforeAttachment

/-- `findTargetAttachment`: matched by its id and by the target it must belong to. -/
def findTargetAttachment (attachments : List Attachment) (attachmentId : String) (objectType : AttachmentObjectType)
    (objectId : ℕ) : Option Attachment :=
  attachments.find? fun a => a.id = attachmentId && a.objectType = objectType && a.objectId = objectId

/-- `insertAttachment`, under the table's three unique keys. -/
def insertAttachment (attachments : List Attachment) (attachment : Attachment) : Except FilesError (List Attachment) :=
  if attachments.any fun a => a.id = attachment.id || a.objectKey = attachment.objectKey ||
      (a.target = attachment.target && a.position = attachment.position)
  then .error .duplicateEntry
  else .ok (attachments ++ [attachment])

/-- `positionRewriteOffset`. -/
def positionRewriteOffset : ℕ := 1000

/-- `rewriteAttachmentPositions`: first every row of the target is shifted out of the way, then
the listed ones take their places. -/
def rewriteAttachmentPositions (attachments : List Attachment) (target : AttachmentTarget)
    (orderedAttachmentIds : List String) : List Attachment :=
  if orderedAttachmentIds = [] then attachments
  else
    let shifted := Table.update attachments (·.target = target) fun a => { a with position := a.position + positionRewriteOffset }
    Table.update shifted (fun a => a.target = target && a.id ∈ orderedAttachmentIds) fun a =>
      { a with position := orderedAttachmentIds.idxOf a.id }

/-- The ids a transaction draws for the tasks of the objects it detaches. -/
def taskRows (uuid : ℕ → String) (objectKeys : List String) : List (String × String) :=
  objectKeys.zipIdx.map fun (objectKey, i) => (uuid (i + 1), objectKey)

/-! ### The service -/

/-- The two tables, as a transaction leaves them. -/
structure FilesTables where
  attachments : List Attachment
  tasks : List StorageCleanupTask

/-- `prepareUploadTarget`: a full target refuses, a singleton gives up what it has. -/
def prepareUploadTarget (attachments existing : List Attachment) (policy : AttachmentPolicy) :
    Except FilesError (List Attachment × List String × ℕ) :=
  if policy.maxCount ≠ 1 then
    if policy.maxCount ≤ existing.length then .error .attachmentLimitExceeded
    else .ok (attachments, [], existing.length)
  else .ok (Table.delete attachments (fun a => a.id ∈ existing.map (·.id)), existing.map (·.objectKey), 0)

/-- `completeUpload`: the tables, and the keys of the objects it detached. -/
def completeUpload (db : FilesTables) (staged : StagedUpload) (uploaderUserId : ℕ) (uuid : ℕ → String) (now : ℕ) :
    Except FilesError (FilesTables × List String) := do
  let safeguard ← Result.orThrow (lockUploadSafeguard db.tasks staged.objectKey) .storageUnavailable
  Result.require (safeguard.lockExpiresAt = none) .storageUnavailable
  let existing := findTargetAttachments db.attachments staged.targetOf
  let (attachments, detachedObjectKeys, position) ← prepareUploadTarget db.attachments existing staged.policy
  let attachments ← insertAttachment attachments
    { id := uuid 0, uploaderUserId := uploaderUserId, objectType := staged.policy.objectType, objectId := staged.objectId,
      associationType := staged.policy.associationType, position := position, objectKey := staged.objectKey,
      mimeType := staged.mimeType, sizeBytes := staged.sizeBytes }
  let tasks ← Result.orThrow (scheduleDetachedCleanup db.tasks now (taskRows uuid detachedObjectKeys)) .duplicateEntry
  return (⟨attachments, deleteByKey tasks staged.objectKey .uploadSafeguard⟩, detachedObjectKeys)

/-- `detach`. -/
def detach (db : FilesTables) (attachmentId : String) (objectType : AttachmentObjectType) (objectId : ℕ) (uuid : ℕ → String)
    (now : ℕ) : Except FilesError (FilesTables × List String) := do
  let attachment ← Result.orThrow (findTargetAttachment db.attachments attachmentId objectType objectId) .attachmentNotFound
  let attachments := Table.delete db.attachments (·.id = attachment.id)
  let remaining := findTargetAttachments attachments attachment.target
  let attachments := rewriteAttachmentPositions attachments attachment.target (remaining.map (·.id))
  let tasks ← Result.orThrow (scheduleDetachedCleanup db.tasks now (taskRows uuid [attachment.objectKey])) .duplicateEntry
  return (⟨attachments, tasks⟩, [attachment.objectKey])

/-- `reorder`: the request lists the current set once, each. -/
def reorder (db : FilesTables) (target : AttachmentTarget) (attachmentIds : List String) : Except FilesError FilesTables :=
  let current := findTargetAttachments db.attachments target
  if attachmentIds.dedup.length ≠ attachmentIds.length || attachmentIds.dedup.length ≠ current.length ||
      current.any (fun a => a.id ∉ attachmentIds)
  then .error .attachmentOrderInvalid
  else .ok { db with attachments := rewriteAttachmentPositions db.attachments target attachmentIds }

/-- The images of a room. -/
def findRoomAttachments (attachments : List Attachment) (roomId : ℕ) : List Attachment :=
  attachments.filter fun a => a.objectType = .room && a.objectId = roomId

/-- The part of `RoomsService.delete` that concerns files: every image of the room is detached. -/
def detachRoom (db : FilesTables) (roomId : ℕ) (uuid : ℕ → String) (now : ℕ) : Except FilesError FilesTables := do
  let attachments := findRoomAttachments db.attachments roomId
  let tasks ← Result.orThrow (scheduleDetachedCleanup db.tasks now (taskRows uuid (attachments.map (·.objectKey)))) .duplicateEntry
  return ⟨Table.delete db.attachments fun a => a.objectType = .room && a.objectId = roomId, tasks⟩

/-! ### What a transaction does -/

/-- A transaction on the two tables: the rows under the keys `added` are new, those under the keys
`removed` are gone and have a task instead. -/
structure Change (db db' : FilesTables) (added removed : List String) : Prop where
  attachments : ∀ a ∈ db'.attachments, a.objectKey ∈ added ∨
    (a.objectKey ∉ removed ∧ ∃ b ∈ db.attachments, b.objectKey = a.objectKey)
  tasks : ∀ t ∈ db'.tasks, (t ∈ db.tasks ∧ (t.objectKey ∈ added → t.reason = .detachedObject)) ∨
    (t.objectKey ∈ removed ∧ t.reason = .detachedObject)
  removed : ∀ k ∈ removed, ∃ a ∈ db.attachments, a.objectKey = k
  attachmentKeys : (db'.attachments.map (·.objectKey)).Nodup
  taskKeys : (db'.tasks.map (·.objectKey)).Nodup

section Changes

variable {attachments : List Attachment} {tasks tasks' : List StorageCleanupTask} {db db' : FilesTables}
  {uuid : ℕ → String} {now : ℕ} {keys : List String}

theorem isDuplicate_eq_false {id objectKey : String} :
    isDuplicate tasks id objectKey = false ↔ ∀ t ∈ tasks, t.id ≠ id ∧ t.objectKey ≠ objectKey := by
  simp only [isDuplicate, List.any_eq_false, Bool.or_eq_true, decide_eq_true_eq, not_or]

/-- A task under a new key may be added. -/
theorem nodup_append_task {t : StorageCleanupTask} (h : (tasks.map (·.objectKey)).Nodup)
    (ht : isDuplicate tasks t.id t.objectKey = false) : ((tasks ++ [t]).map (·.objectKey)).Nodup := by
  rw [List.map_append, List.nodup_append]
  refine ⟨h, List.nodup_singleton _, fun a ha b hb => ?_⟩
  obtain ⟨u, hu, rfl⟩ := List.mem_map.1 ha
  rw [List.mem_singleton.1 hb]
  exact (isDuplicate_eq_false.1 ht u hu).2

/-- The tasks after detaching, a key at a time. -/
theorem scheduleDetachedCleanup_eq_some {rows : List (String × String)} (hn : (tasks.map (·.objectKey)).Nodup)
    (h : scheduleDetachedCleanup tasks now rows = some tasks') :
    (∀ t ∈ tasks', t ∈ tasks ∨ (t.objectKey ∈ rows.map (·.2) ∧ t.reason = .detachedObject)) ∧
      (tasks'.map (·.objectKey)).Nodup := by
  induction rows generalizing tasks with
  | nil =>
    obtain rfl := Option.some.inj h
    exact ⟨fun _ => .inl, hn⟩
  | cons row rows ih =>
    rw [scheduleDetachedCleanup] at h
    split at h
    · cases h
    case isFalse hnew =>
      obtain ⟨hmem, hn'⟩ := ih (nodup_append_task hn (Bool.eq_false_iff.2 hnew)) h
      refine ⟨fun t ht => ?_, hn'⟩
      rcases hmem t ht with ht | ⟨ht, hr⟩
      · rcases List.mem_append.1 ht with ht | ht
        · exact .inl ht
        · obtain rfl := List.mem_singleton.1 ht
          exact .inr ⟨List.mem_cons_self, rfl⟩
      · exact .inr ⟨List.mem_cons_of_mem _ ht, hr⟩

theorem map_taskRows : (taskRows uuid keys).map (·.2) = keys := by
  rw [taskRows, List.map_map]
  exact List.zipIdx_map_fst 0 keys

theorem schedule_eq_some (hn : (tasks.map (·.objectKey)).Nodup)
    (h : scheduleDetachedCleanup tasks now (taskRows uuid keys) = some tasks') :
    (∀ t ∈ tasks', t ∈ tasks ∨ (t.objectKey ∈ keys ∧ t.reason = .detachedObject)) ∧ (tasks'.map (·.objectKey)).Nodup := by
  have := scheduleDetachedCleanup_eq_some hn h
  rwa [map_taskRows] at this

theorem mem_findTargetAttachments {target : AttachmentTarget} {a : Attachment} :
    a ∈ findTargetAttachments attachments target ↔ a ∈ attachments ∧ a.target = target := by
  rw [findTargetAttachments, (List.perm_insertionSort _ _).mem_iff, List.mem_filter, decide_eq_true_eq]

/-- Rewriting positions leaves the keys alone. -/
theorem map_rewriteAttachmentPositions (attachments : List Attachment) (target : AttachmentTarget) (ids : List String) :
    (rewriteAttachmentPositions attachments target ids).map (·.objectKey) = attachments.map (·.objectKey) := by
  unfold rewriteAttachmentPositions
  split
  · rfl
  · refine (Table.map_update ?_).trans (Table.map_update ?_)
    · exact fun _ _ _ => rfl
    · exact fun _ _ _ => rfl

/-- The rows removed by their ids are gone, keys and all. -/
theorem key_ne_of_delete (hn : (attachments.map (·.objectKey)).Nodup) {p : Attachment → Bool} {a b : Attachment}
    (ha : a ∈ Table.delete attachments p) (hb : b ∈ attachments) (hp : p b = true) : a.objectKey ≠ b.objectKey := by
  intro heq
  obtain ⟨ha, hpa⟩ := Table.mem_delete.1 ha
  obtain rfl := Table.UniqueBy.of_nodup hn a ha b hb heq
  rw [hp] at hpa
  cases hpa

theorem insertAttachment_ok {attachments' : List Attachment} {a : Attachment} (hn : (attachments.map (·.objectKey)).Nodup)
    (h : insertAttachment attachments a = .ok attachments') :
    attachments' = attachments ++ [a] ∧ (attachments'.map (·.objectKey)).Nodup := by
  unfold insertAttachment at h
  split at h
  · cases h
  case isFalse hnew =>
    obtain rfl := Except.ok.inj h
    refine ⟨rfl, ?_⟩
    rw [List.map_append, List.nodup_append]
    refine ⟨hn, List.nodup_singleton _, fun x hx y hy => ?_⟩
    obtain ⟨b, hb, rfl⟩ := List.mem_map.1 hx
    rw [List.mem_singleton.1 hy]
    intro heq
    refine hnew (List.any_eq_true.2 ⟨b, hb, ?_⟩)
    rw [Bool.or_eq_true, Bool.or_eq_true, decide_eq_true_eq, decide_eq_true_eq]
    exact .inl (.inr heq)

/-- What an upload's target gives up. -/
theorem prepareUploadTarget_ok {target : AttachmentTarget} {policy : AttachmentPolicy} {attachments' : List Attachment}
    {position : ℕ} (hn : (attachments.map (·.objectKey)).Nodup)
    (h : prepareUploadTarget attachments (findTargetAttachments attachments target) policy = .ok (attachments', keys, position)) :
    (∀ a ∈ attachments', a ∈ attachments ∧ a.objectKey ∉ keys) ∧ (∀ k ∈ keys, ∃ a ∈ attachments, a.objectKey = k) ∧
      (attachments'.map (·.objectKey)).Nodup := by
  unfold prepareUploadTarget at h
  split at h
  · split at h
    · cases h
    · simp only [Except.ok.injEq, Prod.mk.injEq] at h
      obtain ⟨rfl, rfl, -⟩ := h
      exact ⟨fun a ha => ⟨ha, List.not_mem_nil⟩, fun k hk => absurd hk List.not_mem_nil, hn⟩
  · simp only [Except.ok.injEq, Prod.mk.injEq] at h
    obtain ⟨rfl, rfl, -⟩ := h
    refine ⟨fun a ha => ⟨(Table.mem_delete.1 ha).1, fun hk => ?_⟩, fun k hk => ?_, hn.sublist (List.filter_sublist.map _)⟩
    · obtain ⟨b, hb, hbk⟩ := List.mem_map.1 hk
      refine key_ne_of_delete hn ha (mem_findTargetAttachments.1 hb).1 ?_ hbk.symm
      exact decide_eq_true (List.mem_map_of_mem hb)
    · obtain ⟨b, hb, rfl⟩ := List.mem_map.1 hk
      exact ⟨b, (mem_findTargetAttachments.1 hb).1, rfl⟩

theorem completeUpload_ok {staged : StagedUpload} {uploaderUserId : ℕ} (ha : (db.attachments.map (·.objectKey)).Nodup)
    (ht : (db.tasks.map (·.objectKey)).Nodup) (h : completeUpload db staged uploaderUserId uuid now = .ok (db', keys)) :
    (∃ t ∈ db.tasks, t.objectKey = staged.objectKey ∧ t.lockExpiresAt = none) ∧ Change db db' [staged.objectKey] keys := by
  simp only [completeUpload, Result.bind_eq_ok, Result.orThrow_eq_ok, Result.require_eq_ok, Result.pure_eq_ok,
    decide_eq_true_eq] at h
  obtain ⟨safeguard, hlock, -, hfree, ⟨attachments, keys', position⟩, hprepare, attachments', hinsert, tasks, htasks, h⟩ := h
  obtain ⟨rfl, rfl⟩ := Prod.mk.inj h
  have hsafe := List.find?_some hlock
  simp only [Bool.and_eq_true, decide_eq_true_eq] at hsafe
  refine ⟨⟨safeguard, List.mem_of_find?_eq_some hlock, hsafe.1, hfree⟩, ?_⟩
  obtain ⟨hkept, hremoved, hn⟩ := prepareUploadTarget_ok ha hprepare
  obtain ⟨rfl, hn'⟩ := insertAttachment_ok hn hinsert
  obtain ⟨hmem, htn⟩ := schedule_eq_some ht htasks
  refine ⟨fun a ha => ?_, fun t ht => ?_, hremoved, hn', htn.sublist (List.filter_sublist.map _)⟩
  · rcases List.mem_append.1 ha with ha | ha
    · exact .inr ⟨(hkept a ha).2, a, (hkept a ha).1, rfl⟩
    · exact .inl (List.mem_singleton.2 (by rw [List.mem_singleton.1 ha]))
  · obtain ⟨ht, hother⟩ := Table.mem_delete.1 ht
    rcases hmem t ht with ht | ht
    · refine .inl ⟨ht, fun hk => ?_⟩
      cases hr : t.reason with
      | detachedObject => rfl
      | uploadSafeguard =>
        rw [List.mem_singleton.1 hk, hr] at hother
        simp at hother
    · exact .inr ht

theorem detach_ok {attachmentId : String} {objectType : AttachmentObjectType} {objectId : ℕ}
    (ha : (db.attachments.map (·.objectKey)).Nodup) (ht : (db.tasks.map (·.objectKey)).Nodup)
    (h : detach db attachmentId objectType objectId uuid now = .ok (db', keys)) : Change db db' [] keys := by
  simp only [detach, Result.bind_eq_ok, Result.orThrow_eq_ok, Result.pure_eq_ok] at h
  obtain ⟨attachment, hfind, tasks, htasks, h⟩ := h
  obtain ⟨rfl, rfl⟩ := Prod.mk.inj h
  have hmem := List.mem_of_find?_eq_some hfind
  obtain ⟨htmem, htn⟩ := schedule_eq_some ht htasks
  have hkeys := map_rewriteAttachmentPositions (Table.delete db.attachments (·.id = attachment.id)) attachment.target
    ((findTargetAttachments (Table.delete db.attachments (·.id = attachment.id)) attachment.target).map (·.id))
  refine ⟨fun a ha' => .inr ?_, fun t ht => ?_, fun k hk => ⟨attachment, hmem, (List.mem_singleton.1 hk).symm⟩, ?_, htn⟩
  · have hk : a.objectKey ∈ (Table.delete db.attachments (·.id = attachment.id)).map (·.objectKey) :=
      hkeys ▸ List.mem_map_of_mem ha'
    obtain ⟨b, hb, hbk⟩ := List.mem_map.1 hk
    refine ⟨fun hk => ?_, b, (Table.mem_delete.1 hb).1, hbk⟩
    exact key_ne_of_delete ha hb hmem (decide_eq_true rfl) (hbk.trans (List.mem_singleton.1 hk))
  · rcases htmem t ht with ht | ht
    · exact .inl ⟨ht, fun hk => absurd hk List.not_mem_nil⟩
    · exact .inr ht
  · rw [hkeys]
    exact ha.sublist (List.filter_sublist.map _)

theorem reorder_ok {target : AttachmentTarget} {ids : List String} (ha : (db.attachments.map (·.objectKey)).Nodup)
    (ht : (db.tasks.map (·.objectKey)).Nodup) (h : reorder db target ids = .ok db') : Change db db' [] [] := by
  unfold reorder at h
  dsimp only at h
  split at h
  · cases h
  · obtain rfl := Except.ok.inj h
    have hkeys := map_rewriteAttachmentPositions db.attachments target ids
    refine ⟨fun a ha' => .inr ⟨List.not_mem_nil, ?_⟩, fun t ht => .inl ⟨ht, fun hk => absurd hk List.not_mem_nil⟩,
      fun k hk => absurd hk List.not_mem_nil, hkeys ▸ ha, ht⟩
    have hk : a.objectKey ∈ db.attachments.map (·.objectKey) := hkeys ▸ List.mem_map_of_mem ha'
    exact List.mem_map.1 hk

theorem detachRoom_ok {roomId : ℕ} (ha : (db.attachments.map (·.objectKey)).Nodup)
    (ht : (db.tasks.map (·.objectKey)).Nodup) (h : detachRoom db roomId uuid now = .ok db') :
    Change db db' [] ((findRoomAttachments db.attachments roomId).map (·.objectKey)) := by
  simp only [detachRoom, Result.bind_eq_ok, Result.orThrow_eq_ok, Result.pure_eq_ok] at h
  obtain ⟨tasks, htasks, rfl⟩ := h
  obtain ⟨htmem, htn⟩ := schedule_eq_some ht htasks
  refine ⟨fun a ha' => .inr ⟨fun hk => ?_, a, (Table.mem_delete.1 ha').1, rfl⟩, fun t ht => ?_, fun k hk => ?_,
    ha.sublist (List.filter_sublist.map _), htn⟩
  · obtain ⟨b, hb, hbk⟩ := List.mem_map.1 hk
    obtain ⟨hb, hp⟩ := List.mem_filter.1 hb
    exact key_ne_of_delete ha ha' hb hp hbk.symm
  · rcases htmem t ht with ht | ht
    · exact .inl ⟨ht, fun hk => absurd hk List.not_mem_nil⟩
    · exact .inr ht
  · obtain ⟨b, hb, rfl⟩ := List.mem_map.1 hk
    exact ⟨b, (List.mem_filter.1 hb).1, rfl⟩

end Changes

end HotelBackend.Files
