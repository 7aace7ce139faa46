import HotelBackend.Files.AttachmentPositions
import HotelBackend.Catalog.Changes

/-!
# The images of a room

`AttachmentsService` works on the table of all attachments. What it does for a room leaves the images of
the other rooms as they are (`ImagesOnly`): the rows it deletes by id are rows of the room, as ids are
unique, and it moves rows of one target only.
-/

namespace HotelBackend.Catalog

open HotelBackend.Theory
open HotelBackend.Files

/-- The images of one room were changed, at most. -/
structure ImagesOnly (roomId : ℕ) (a b : List Attachment) : Prop where
  ids : (b.map (·.id)).Nodup
  others : ∀ i, i ≠ roomId → findRoomAttachments b i = findRoomAttachments a i

section Statements

variable {roomId : ℕ} {a b c : List Attachment}

theorem ImagesOnly.trans (hab : ImagesOnly roomId a b) (hbc : ImagesOnly roomId b c) : ImagesOnly roomId a c :=
  ⟨hbc.ids, fun i hi => (hbc.others i hi).trans (hab.others i hi)⟩

theorem ImagesOnly.delete (hids : (a.map (·.id)).Nodup) {p : Attachment → Bool} (hp : ∀ x ∈ a, p x = true → x.objectId = roomId) :
    ImagesOnly roomId a (Table.delete a p) := by
  refine ⟨hids.sublist (List.filter_sublist.map _), fun i hi => Table.filter_delete fun x hx hroom => ?_⟩
  rw [Bool.and_eq_true, decide_eq_true_eq, decide_eq_true_eq] at hroom
  cases hpx : p x with
  | false => rfl
  | true => exact absurd (hroom.2.symm.trans (hp x hx hpx)) hi

theorem ImagesOnly.insert {x : Attachment} (hids : (a.map (·.id)).Nodup) (hid : x.id ∉ a.map (·.id)) (hx : x.objectId = roomId) :
    ImagesOnly roomId a (a ++ [x]) := by
  refine ⟨Table.nodup_map_concat hids fun y hy hyx => hid (hyx ▸ List.mem_map_of_mem hy), fun i hi => ?_⟩
  have hother : ¬ x.objectId = i := fun h => hi (h.symm.trans hx)
  rw [findRoomAttachments, List.filter_append, findRoomAttachments]
  simp [hother]

/-- Rows of one target are moved. -/
theorem ImagesOnly.rewrite {target : AttachmentTarget} (ids : List String) (hids : (a.map (·.id)).Nodup) (htarget : target.objectId = roomId) :
    ImagesOnly roomId a (rewriteAttachmentPositions a target ids) := by
  have hother : ∀ i, i ≠ roomId → ∀ x : Attachment, x.target = target → (decide (x.objectType = .room) && decide (x.objectId = i)) = false := by
    rintro i hi x rfl
    have hne : ¬ x.objectId = i := fun h => hi (h.symm.trans htarget)
    simp [hne]
  unfold rewriteAttachmentPositions
  split
  · exact ⟨hids, fun _ _ => rfl⟩
  · refine ⟨?_, fun i hi => (Table.filter_update fun x hx => ?_).trans (Table.filter_update fun x hx => ?_)⟩
    · rw [Table.map_update, Table.map_update]
      · exact hids
      · exact fun _ _ _ => rfl
      · exact fun _ _ _ => rfl
    · rw [Bool.and_eq_true, decide_eq_true_eq] at hx
      exact ⟨hother i hi x hx.1, hother i hi _ hx.1⟩
    · exact ⟨hother i hi x (of_decide_eq_true hx), hother i hi _ (of_decide_eq_true hx)⟩

end Statements

section Operations

variable {db db' : FilesTables} {keys : List String} {uuid : ℕ → String} {now roomId : ℕ}

/-- What an upload to a target takes away is the target's. -/
theorem imagesOnly_prepareUploadTarget {attachments attachments' : List Attachment} {target : AttachmentTarget} {policy : AttachmentPolicy}
    {position : ℕ} (hids : (attachments.map (·.id)).Nodup)
    (h : prepareUploadTarget attachments (findTargetAttachments attachments target) policy = .ok (attachments', keys, position)) :
    ImagesOnly target.objectId attachments attachments' := by
  unfold prepareUploadTarget at h
  split at h
  · split at h
    · cases h
    · simp only [Except.ok.injEq, Prod.mk.injEq] at h
      obtain ⟨rfl, -⟩ := h
      exact ⟨hids, fun _ _ => rfl⟩
  · simp only [Except.ok.injEq, Prod.mk.injEq] at h
    obtain ⟨rfl, -⟩ := h
    refine .delete hids fun x hx hid => ?_
    obtain ⟨y, hy, hyx⟩ := List.mem_map.1 (of_decide_eq_true hid)
    obtain ⟨hy, htarget⟩ := mem_findTargetAttachments.1 hy
    rw [List.inj_on_of_nodup_map hids hy hx hyx] at htarget
    exact congrArg AttachmentTarget.objectId htarget

theorem imagesOnly_completeUpload {staged : StagedUpload} {uploaderUserId : ℕ} (hids : (db.attachments.map (·.id)).Nodup)
    (h : completeUpload db staged uploaderUserId uuid now = .ok (db', keys)) : ImagesOnly staged.objectId db.attachments db'.attachments := by
  simp only [completeUpload, Result.bind_eq_ok, Result.orThrow_eq_ok, Result.require_eq_ok, Result.pure_eq_ok] at h
  obtain ⟨_, -, -, -, ⟨attachments, keys', position⟩, hprepare, attachments', hinsert, _, -, h⟩ := h
  obtain ⟨rfl, -⟩ := Prod.mk.inj h
  have hprepared := imagesOnly_prepareUploadTarget hids hprepare
  obtain ⟨rfl, hid⟩ := insertAttachment_eq_ok hinsert
  exact hprepared.trans (.insert hprepared.ids hid rfl)

theorem imagesOnly_detach {attachmentId : String} {objectType : AttachmentObjectType} (hids : (db.attachments.map (·.id)).Nodup)
    (h : detach db attachmentId objectType roomId uuid now = .ok (db', keys)) : ImagesOnly roomId db.attachments db'.attachments := by
  simp only [detach, Result.bind_eq_ok, Result.orThrow_eq_ok, Result.pure_eq_ok] at h
  obtain ⟨attachment, hfind, _, -, h⟩ := h
  obtain ⟨rfl, -⟩ := Prod.mk.inj h
  have hroom : attachment.objectId = roomId := by
    have hmatch := List.find?_some hfind
    simp only [Bool.and_eq_true, decide_eq_true_eq] at hmatch
    exact hmatch.2
  have hdeleted : ImagesOnly roomId db.attachments (Table.delete db.attachments (·.id = attachment.id)) := by
    refine .delete hids fun x hx hid => ?_
    rw [List.inj_on_of_nodup_map hids hx (List.mem_of_find?_eq_some hfind) (of_decide_eq_true hid)]
    exact hroom
  exact hdeleted.trans (.rewrite _ hdeleted.ids hroom)

theorem imagesOnly_reorder {target : AttachmentTarget} {attachmentIds : List String} (hids : (db.attachments.map (·.id)).Nodup)
    (h : reorder db target attachmentIds = .ok db') : ImagesOnly target.objectId db.attachments db'.attachments := by
  rw [reorder_eq db hids] at h
  split at h
  · obtain rfl := Except.ok.inj h
    exact .rewrite _ hids rfl
  · cases h

end Operations

end HotelBackend.Catalog
