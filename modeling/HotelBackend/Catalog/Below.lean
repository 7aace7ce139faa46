import HotelBackend.Catalog.Images
import HotelBackend.Catalog.Promises

/-!
# What happens below a room

The calls that write below a room run under its lock: its images, its windows, and the delete of all of
it. `HoldsRoom` is what the lock is worth: the room is there, and whatever the call reads of it, in its
snapshot too, is as it is.
-/

namespace HotelBackend.Catalog

open HotelBackend.Theory
open HotelBackend.Theory.Transactions
open HotelBackend.Rooms (RoomStatus RoomTime RoomTimeStatus)
open HotelBackend.Files

variable {n : ℕ} {l l' : CatalogMid n} {α : Type}

/-! ### The lock of a room -/

/-- The room is held, and read as it is. -/
structure HoldsRoom (room : Room n) (l : CatalogMid n) : Prop where
  own : Owns l.held (.room room.id)
  mem : room ∈ l.db.rooms
  reads : ∀ v, l.view = some v → KeepsRoom room.id v l.db

/-- It stays so. -/
theorem HoldsRoom.later {room : Room n} (h : HoldsRoom room l) (hl : (catalogDiscipline n).Later l l') (c : Fin n) : HoldsRoom room l' where
  own := h.own.mono hl.held
  mem := ((keepsRoom_of_rely hl.rely (h.own c)).row room rfl).2 h.mem
  reads v hv := by
    rcases hl.view v hv with hold | ⟨-, hway⟩
    · exact (h.reads v hold).trans (keepsRoom_of_rely hl.rely (h.own c))
    · exact keepsRoom_of_rely hway (h.own c)

/-- It is there at the commit. -/
theorem HoldsRoom.has {room : Room n} (h : HoldsRoom room l) (c : Fin n) {db : CatalogDb n}
    (hr : (catalogDiscipline n).Rely l.held l.db db) : db.Has (.room room.id) :=
  (has_iff_of_rely hr (h.own c)).2 (List.mem_map_of_mem h.mem)

theorem wp_lockRoom {roomId : ℕ} {Q : Room n → CatalogMid n → Prop} (hpend : l.pend = id) (hview : l.view = none)
    (h : ∀ l' room, (catalogDiscipline n).Later l l' → l'.pend = id → l'.view = none → HoldsRoom room l' → room.id = roomId → Q room l') :
    (lockRoom roomId).wp (catalogDiscipline n) Q l := by
  rw [lockRoom, Txn.wp_bind]
  refine Txn.wp_findExclusive (fun _ _ _ => ?_) fun db hr room hmem hid => ?_
  · rw [Txn.wp_orThrow]
    exact fun _ h => by cases h
  · rw [Txn.wp_orThrow]
    rintro _ ⟨⟩
    rw [hpend] at hmem
    refine h _ room (.step hr Set.subset_union_left) hpend hview ⟨owns_union, hmem, fun v hv => ?_⟩ (of_decide_eq_true hid)
    rw [hview] at hv
    cases hv

section Calls

/-! ### Images -/

/-- An operation of the files service on a room whose lock is held. -/
theorem wp_attachmentsService {f : FilesTables → Except FilesError (FilesTables × List String)}
    {Q : List String → CatalogMid n → Prop} (hpend : l.pend = id)
    (hQ : ∀ l' keys, (catalogDiscipline n).Later l l' → l'.held = l.held → l'.pend = (fun db => db.withFiles (f db.files)) → Q keys l') :
    (attachmentsService f).wp (catalogDiscipline n) Q l := by
  rw [attachmentsService, Txn.wp_bind, Txn.wp_locking]
  intro db hr
  rw [Txn.wp_bind, Txn.wp_ofExcept]
  intro detached _
  rw [Txn.wp_bind, Txn.wp_writing]
  intro db' hr' x _
  refine hQ _ detached ⟨hr.trans hr' Set.subset_union_left, ?_, fun _ => .inl⟩ ?_ ?_
  · exact Set.subset_union_left.trans Set.subset_union_left
  · simp
  · rw [hpend]
    rfl

theorem rooms_withFiles (db : CatalogDb n) (r : Except FilesError (FilesTables × List String)) :
    (db.withFiles r).rooms = db.rooms ∧ (db.withFiles r).roomIds = db.roomIds := by
  cases r with
  | error e => exact ⟨rfl, rfl⟩
  | ok r => exact ⟨rfl, rfl⟩

/-- What a call does to the images of a room is a change, and leaves the rooms as they are. -/
theorem images_promises (c : Fin n) (roomId : ℕ) {f : FilesTables → Except FilesError (FilesTables × List String)}
    (hf : ∀ db files keys, (db.attachments.map (·.id)).Nodup → f db = .ok (files, keys) → ImagesOnly roomId db.attachments files.attachments)
    {db₀ : CatalogDb n} :
    (do
      let _ ← lockRoom roomId
      attachmentsService f : CatalogTx n (List String)).wp (catalogDiscipline n)
      ((catalogDiscipline n).Ensures fun _ db db' => db'.rooms = db.rooms ∧ db'.roomIds = db.roomIds) ⟨∅, id, none, db₀⟩ := by
  rw [Txn.wp_bind]
  refine wp_lockRoom rfl rfl fun l₁ room hl₁ hpend₁ _ hroom hid => ?_
  subst hid
  refine wp_attachmentsService hpend₁ fun l₂ keys hl₂ hheld₂ hpend₂ => ?_
  have hroom₂ := hroom.later hl₂ c
  refine ensures_of_change (fun db hr => ?_) fun db hr => ?_
  · rw [hpend₂]
    show Change _ db (db.withFiles (f db.files))
    cases hfiles : f db.files with
    | error e => exact .refl hr.1.2
    | ok r =>
      obtain ⟨files, keys⟩ := r
      have honly := hf db.files files keys hr.1.2.images hfiles
      exact .setImages hr.1.2 hroom₂.own (hroom₂.has c hr) honly.ids honly.others
  · rw [hpend₂]
    exact rooms_withFiles db (f db.files)

variable (cfg : CatalogConfig) (c : Fin n)

theorem uploadImage_promises (roomId : ℕ) (policy : AttachmentPolicy) (objectKey mimeType : String) (sizeBytes uploaderUserId : ℕ)
    (uuid : ℕ → String) (now : ℕ) :
    Promises cfg ⟨c, .uploadImage roomId policy objectKey mimeType sizeBytes uploaderUserId uuid now⟩ := by
  intro db₀ hinv
  rw [CatalogRequest.run, Txn.wp_bind, Txn.wp_require]
  intro _
  rw [Txn.wp_bind]
  exact images_promises c roomId fun db files keys hids h => imagesOnly_completeUpload hids h

theorem reorderImages_promises (roomId : ℕ) (attachmentIds : List String) : Promises cfg ⟨c, .reorderImages roomId attachmentIds⟩ := by
  intro db₀ hinv
  rw [CatalogRequest.run, Txn.wp_bind]
  refine images_promises c roomId fun db files keys hids h => ?_
  cases hreorder : Files.reorder db ⟨.room, roomId, .album⟩ attachmentIds with
  | error e =>
    rw [hreorder] at h
    cases h
  | ok files' =>
    rw [hreorder] at h
    cases h
    exact imagesOnly_reorder hids hreorder

theorem deleteImage_promises (roomId : ℕ) (attachmentId : String) (uuid : ℕ → String) (now : ℕ) :
    Promises cfg ⟨c, .deleteImage roomId attachmentId uuid now⟩ := by
  intro db₀ hinv
  rw [CatalogRequest.run, Txn.wp_bind]
  exact images_promises c roomId fun db files keys hids h => imagesOnly_detach hids h

/-! ### Windows, bookings and tasks -/

theorem createRoomTime_promises (roomId : ℕ) (availableFrom availableTo : String) (status : RoomTimeStatus) :
    Promises cfg ⟨c, .createRoomTime roomId availableFrom availableTo status⟩ := by
  intro db₀ hinv
  rw [CatalogRequest.run, Txn.wp_bind, Neighbours.createRoomTime, Txn.wp_bind]
  refine wp_lockRoom rfl rfl fun l₁ room hl₁ hpend₁ _ hroom hid => ?_
  subst hid
  rw [Txn.wp_bind, Txn.wp_writing, hpend₁]
  intro db hr x _
  have hl₂ : (catalogDiscipline n).Later l₁ ⟨l₁.held ∪ {k | k ∈ exclusive n (.roomTime x.id)}, id, l₁.view, db⟩ := .step hr Set.subset_union_left
  have hroom₂ := hroom.later hl₂ c
  refine ensures_of_change (fun db' hr' => ?_) fun _ _ => ⟨rfl, rfl⟩
  exact Change.addRoomTime (t := ⟨x.id, room.id, availableFrom, availableTo, status⟩) hr'.1.2 (fun c => .inr (mem_exclusive.2 rfl)) hroom₂.own
    (hroom₂.has c hr')

/-- A window to which no booking refers as its holder looks is one to which none refers at its commit. -/
theorem deleteRoomTime_promises (roomId roomTimeId : ℕ) : Promises cfg ⟨c, .deleteRoomTime roomId roomTimeId⟩ := by
  intro db₀ hinv
  rw [CatalogRequest.run, Txn.wp_bind, Neighbours.deleteRoomTime, Txn.wp_bind]
  refine wp_lockRoom rfl rfl fun l₁ room hl₁ hpend₁ _ hroom hid => ?_
  rw [Txn.wp_bind]
  refine Txn.wp_findExclusive (fun _ _ _ => ?_) fun db₂ hr₂ roomTime hmem _ => ?_
  · rw [Txn.wp_bind, Txn.wp_orThrow]
    exact fun _ h => by cases h
  · rw [Txn.wp_bind, Txn.wp_orThrow]
    rintro _ ⟨⟩
    rw [Txn.wp_bind, Txn.wp_locking, hpend₁]
    intro db₃ hr₃
    rw [Txn.wp_bind, Txn.wp_require]
    intro hunused
    rw [Txn.wp_bind, Txn.wp_writing]
    intro db₄ hr₄ x _
    refine ensures_of_change (fun db₅ hr₅ => ?_) fun _ _ => ⟨rfl, rfl⟩
    refine Change.removeRoomTime hr₅.1.2 (fun c => .inl (.inl (.inr rfl))) fun u hu hid => ?_
    have hrely := hr₄.trans hr₅ Set.subset_union_left
    have hrefers := refers_of_rely hrely c (e := ⟨.roomTime u.roomTimeId, .roomTimeUse u.id, none⟩)
      (fun c => .inl (.inr (congrArg CatalogRow.roomTime hid))) (.roomTimeUse hu)
    obtain ⟨u', hu', hid'⟩ := hrefers.of_roomTime (congrArg CatalogRow.roomTime hid)
    exact List.any_eq_false.1 hunused u' hu' (decide_eq_true hid')

theorem useRoomTime_promises (roomTimeId : ℕ) : Promises cfg ⟨c, .useRoomTime roomTimeId⟩ := by
  intro db₀ hinv
  rw [CatalogRequest.run, Txn.wp_bind, Neighbours.useRoomTime, Txn.wp_bind]
  refine Txn.wp_findExclusive (fun _ _ _ => ?_) fun db₁ hr₁ roomTime hmem _ => ?_
  · rw [Txn.wp_bind, Txn.wp_orThrow]
    exact fun _ h => by cases h
  · rw [Txn.wp_bind, Txn.wp_orThrow]
    rintro _ ⟨⟩
    rw [Txn.wp_bind, Txn.wp_writing]
    intro db₂ hr₂ x _
    refine ensures_of_change (fun db₃ hr₃ => ?_) fun _ _ => ⟨rfl, rfl⟩
    have hthere : db₃.Has (.roomTime roomTime.id) :=
      (has_iff_of_rely (c := c) (hr₂.trans hr₃ Set.subset_union_left) (.inr rfl)).2 (List.mem_map_of_mem hmem)
    exact Change.addRoomTimeUse (u := ⟨x.id, roomTime.id⟩) hr₃.1.2 (fun c => .inl (.inr rfl)) hthere

theorem changeTasks_promises (f : List StorageCleanupTask → List StorageCleanupTask) : Promises cfg ⟨c, .changeTasks f⟩ := by
  intro db₀ hinv
  rw [CatalogRequest.run, Txn.wp_bind, Neighbours.changeTasks, Txn.wp_bind, Txn.wp_writing]
  intro db hr x _
  exact ensures_of_change (fun db' hr' => .setTasks hr'.1.2 _) fun _ _ => ⟨rfl, rfl⟩

/-! ### The delete of a room -/

/-- The images of the room are deleted, and have tasks. -/
def Detached (roomId : ℕ) (db db' : CatalogDb n) : Prop :=
  ∃ tasks, db' = { db with attachments := Table.delete db.attachments fun x => x.objectType = .room && x.objectId = roomId, tasks := tasks } ∧
    db.tasks ⊆ tasks ∧ ∀ x ∈ db.imagesOf roomId, ∃ t ∈ tasks, t.objectKey = x.objectKey ∧ t.reason = .detachedObject

theorem exists_detachedTask {x : CatalogSupply} {objectKeys : List String} {objectKey : String} (h : objectKey ∈ objectKeys) :
    ∃ t ∈ detachedTasks x objectKeys, t.objectKey = objectKey ∧ t.reason = .detachedObject := by
  obtain ⟨i, hi, rfl⟩ := List.mem_iff_getElem.1 h
  exact ⟨_, List.mem_map.2 ⟨(objectKeys[i], i), List.mem_zipIdx_iff_getElem?.2 (List.getElem?_eq_getElem hi), rfl⟩, rfl, rfl⟩

theorem wp_detachImages (c : Fin n) {room : Room n} {attachments : List Attachment} {Q : Unit → CatalogMid n → Prop} (hinv : (catalogDiscipline n).Inv l.db)
    (hpend : l.pend = id) (hroom : HoldsRoom room l) (hattachments : attachments = l.db.imagesOf room.id)
    (h : ∀ l', (catalogDiscipline n).Later l l' → (∀ db, (catalogDiscipline n).Rely l'.held l'.db db → Detached room.id db (l'.pend db)) → Q () l') :
    ((do
      deleteRoomAttachments room.id
      insertDetachedTasks (attachments.map (·.objectKey)) : CatalogTx n Unit).when (attachments ≠ [])).wp (catalogDiscipline n) Q l := by
  have hsame : ∀ {l'}, (catalogDiscipline n).Later l l' → ∀ db, (catalogDiscipline n).Rely l'.held l'.db db → db.imagesOf room.id = attachments := by
    intro l' hl' db hr
    rw [hattachments]
    exact (keepsRoom_of_rely (hl'.rely.trans hr hl'.held) (hroom.own c)).images
  rw [Txn.wp_when]
  refine ⟨fun _ => ?_, fun hnone => ?_⟩
  · rw [Txn.wp_bind, deleteRoomAttachments, Txn.wp_bind]
    refine Txn.wp_writing_later fun l₁ _ hl₁ hpend₁ _ _ _ => ?_
    rw [Txn.wp_pure, insertDetachedTasks, Txn.wp_bind]
    refine Txn.wp_writing_later fun l₂ x hl₂ hpend₂ _ _ _ => ?_
    refine h l₂ (hl₁.trans hl₂) fun db hr => ⟨db.tasks ++ detachedTasks x (attachments.map (·.objectKey)), ?_, List.subset_append_left _ _, fun y hy => ?_⟩
    · rw [hpend₂, hpend₁, hpend]
      rfl
    · rw [hsame (hl₁.trans hl₂) db hr] at hy
      obtain ⟨t, ht, hkey⟩ := exists_detachedTask (x := x) (List.mem_map_of_mem (f := (·.objectKey)) hy)
      exact ⟨t, List.mem_append_right _ ht, hkey⟩
  · refine h l (.refl hinv) fun db hr => ?_
    have hempty : db.imagesOf room.id = [] := (hsame (.refl hinv) db hr).trans (not_not.1 hnone)
    refine ⟨db.tasks, ?_, List.Subset.refl _, fun y hy => ?_⟩
    · rw [Table.delete_eq_self hempty, hpend]
      rfl
    · rw [hempty] at hy
      exact absurd hy List.not_mem_nil

/-- The windows of the room are held, and no booking refers to them. -/
def FreeWindows (roomId : ℕ) (held : Set (CatalogRow × Fin n)) (db : CatalogDb n) : Prop :=
  ∀ t ∈ db.windowsOf roomId, Owns held (.roomTime t.id) ∧ ∀ u ∈ db.roomTimeUses, u.roomTimeId ≠ t.id

/-- It stays so: who adds a window holds its room, and who refers to one holds it. -/
theorem FreeWindows.rely {roomId : ℕ} {held : Set (CatalogRow × Fin n)} {a b : CatalogDb n} (h : FreeWindows roomId held a)
    (hown : Owns held (.room roomId)) (hr : (catalogDiscipline n).Rely held a b) (c : Fin n) : FreeWindows roomId held b := by
  intro t ht
  obtain ⟨ht, hid⟩ := List.mem_filter.1 ht
  have hroom : CatalogRow.room t.roomId = .room roomId := congrArg CatalogRow.room (of_decide_eq_true hid)
  obtain ⟨t', ht', hid', hroom'⟩ := (refers_of_rely hr c (e := ⟨.room t.roomId, .roomTime t.id, none⟩) (hroom ▸ hown) (.roomTime ht)).of_window
  have hmem : t' ∈ a.windowsOf roomId := by
    refine List.mem_filter.2 ⟨ht', decide_eq_true ?_⟩
    injection hroom'.symm.trans hroom
  obtain ⟨howned, hunused⟩ := h t' hmem
  rw [hid'] at howned hunused
  refine ⟨howned, fun u hu hused => ?_⟩
  have hrefers := refers_of_rely hr c (e := ⟨.roomTime u.roomTimeId, .roomTimeUse u.id, none⟩) (hused ▸ howned) (.roomTimeUse hu)
  obtain ⟨u', hu', hused'⟩ := hrefers.of_roomTime (congrArg CatalogRow.roomTime hused)
  exact hunused u' hu' hused'

/-- A room none of whose windows a booking refers to as its holder looks is one at its commit. -/
theorem deleteRoom_promises (roomId : ℕ) : Promises cfg ⟨c, .deleteRoom roomId⟩ := by
  intro db₀ hinv
  rw [CatalogRequest.run, Txn.wp_bind, RoomsService.delete, Txn.wp_bind]
  refine wp_lockRoom rfl rfl fun l₁ room hl₁ hpend₁ _ hroom₁ hid => ?_
  subst hid
  rw [Txn.wp_bind]
  refine Txn.wp_locking_later fun l₂ hl₂ hpend₂ _ _ => ?_
  have hroom₂ := hroom₁.later hl₂ c
  rw [Txn.wp_bind]
  refine wp_detachImages c hl₂.rely.1 (hpend₂.trans hpend₁) hroom₂ (by rw [hpend₁]; rfl) fun l₃ hl₃ hdetached => ?_
  have hroom₃ := hroom₂.later hl₃ c
  rw [Txn.wp_bind, deleteRoomTimes, Txn.wp_bind]
  refine Txn.wp_locking_later fun l₄ hl₄ hpend₄ _ hlocked => ?_
  rw [Txn.wp_bind, Txn.wp_require]
  intro hunused
  rw [Txn.wp_bind]
  refine Txn.wp_writing_later fun l₅ _ hl₅ hpend₅ _ _ _ => ?_
  rw [Txn.wp_pure, Txn.wp_bind, deleteRoomAmenities, Txn.wp_bind]
  refine Txn.wp_writing_later fun l₆ _ hl₆ hpend₆ _ _ _ => ?_
  rw [Txn.wp_pure, removeRoom, Txn.wp_bind]
  refine Txn.wp_writing_later fun l₇ _ hl₇ hpend₇ _ _ _ => ?_
  have hl := (hl₅.trans hl₆).trans hl₇
  have hroom₄ := hroom₃.later hl₄ c
  have hroom₇ := hroom₄.later hl c
  obtain ⟨tasks₄, hdb₄, -⟩ := hdetached l₄.db hl₄.rely
  rw [hdb₄] at hlocked hunused
  have hwindows₄ : FreeWindows room.id l₄.held l₄.db := by
    refine fun t ht => ⟨fun c => hlocked _ (List.mem_flatMap.2 ⟨t, ht, mem_exclusive.2 rfl⟩), fun u hu hused => ?_⟩
    exact List.any_eq_false.1 hunused t ht (List.any_eq_true.2 ⟨u, hu, decide_eq_true hused⟩)
  have hwindows : ∀ db, (catalogDiscipline n).Rely l₇.held l₇.db db → FreeWindows room.id l₇.held db := by
    intro db hr t ht
    have hfree := hwindows₄.rely hroom₄.own (hl.rely.trans hr hl.held) c t ht
    exact ⟨hfree.1.mono hl.held, hfree.2⟩
  have hpend : ∀ db, (catalogDiscipline n).Rely l₇.held l₇.db db → ∃ tasks, l₇.pend db = db.withoutRoom room.id tasks ∧ db.tasks ⊆ tasks ∧
      ∀ x ∈ db.imagesOf room.id, ∃ t ∈ tasks, t.objectKey = x.objectKey ∧ t.reason = .detachedObject := by
    intro db hr
    obtain ⟨tasks, hdb, htasks⟩ := hdetached db (hl₄.rely.trans (hl.rely.trans hr hl.held) hl₄.held)
    refine ⟨tasks, ?_, htasks⟩
    rw [hpend₇, hpend₆, hpend₅, hpend₄]
    simp only [Function.comp_apply]
    rw [hdb]
    rfl
  refine ensures_of_change (fun db hr => ?_) fun db hr => ?_
  · obtain ⟨tasks, hdb, -⟩ := hpend db hr
    rw [hdb]
    exact .removeRoom hr.1.2 tasks hroom₇.own (hwindows db hr)
  · refine ⟨⟨room, ?_, rfl⟩, fun t ht => (hwindows db hr t ht).2, hpend db hr⟩
    exact ((keepsRoom_of_rely hr (hroom₇.own c)).row room rfl).2 hroom₇.mem

end Calls

end HotelBackend.Catalog
