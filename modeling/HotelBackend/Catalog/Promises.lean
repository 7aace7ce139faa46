import HotelBackend.Catalog.Changes

/-!
# What each call of the catalogue does

Every call follows the discipline of the catalogue, and does what its answer says (`catalogCall_promises`).
The proof of a call walks through its statements: what a locking read has found is carried to the commit
by its lock (`HoldsRoom`, `SharesType`, `SharesAmenities`), and the writes are then one `Change`.
-/

namespace HotelBackend.Catalog

open HotelBackend.Theory
open HotelBackend.Theory.Transactions
open HotelBackend.Rooms (RoomStatus RoomTime RoomTimeStatus)
open HotelBackend.Files

variable {n : ℕ}

/-! ### Effects -/

/-- The images of a room as they are shown. -/
def CatalogDb.imageSetOf (db : CatalogDb n) (roomId : ℕ) : RoomImageSet :=
  ⟨(findTargetAttachments db.attachments ⟨.room, roomId, .thumbnail⟩).head?, findTargetAttachments db.attachments ⟨.room, roomId, .album⟩⟩

/-- The answer shows the room as it is committed: its columns, its type, its amenities and its images. -/
structure Shows (shown : AdminRoomResponse) (room : Room n) (db : CatalogDb n) : Prop where
  mem : room ∈ db.rooms
  columns : shown = toAdminRoomResponse room shown.roomType shown.amenities (db.imageSetOf room.id)
  roomType : shown.roomType ∈ db.roomTypes ∧ shown.roomType.id = room.roomTypeId
  amenities : (shown.amenities.map (·.id)).Perm (db.amenityIdsOf room.id)

/-- A room as a body asks for it. -/
structure Created (body : CreateRoomDto) (room : Room n) : Prop where
  roomTypeId : room.roomTypeId = body.roomTypeId
  roomNumber : room.roomNumber = body.roomNumber
  bedCount : room.bedCount = body.bedCount
  viewCode : room.viewCode = body.viewCode
  basePriceAmount : room.basePriceAmount = body.basePriceAmount
  currency : room.currency = body.currency
  status : room.status = body.status
  version : room.version = 1

/-- A room after a body was applied to it: one version on. -/
def Patched (body : UpdateRoomDto) (room saved : Room n) : Prop :=
  saved = { body.apply room with version := room.version + 1, updatedAt := saved.updatedAt, trx := saved.trx }

/-- A room is added with its amenities, and shown. -/
def CreatesRoom (body : CreateRoomDto) (shown : AdminRoomResponse) (db db' : CatalogDb n) : Prop :=
  ∃ room : Room n, Created body room ∧ room.id ∉ db.roomIds ∧ db'.rooms = db.rooms ++ [room] ∧ db'.roomIds = db.roomIds ++ [room.id] ∧
    Shows shown room db' ∧ (db'.amenityIdsOf room.id).Perm body.amenityIds

/-- The room that had the version is saved, and shown; its amenities are those given, or as before. -/
def UpdatesRoom (roomId : ℕ) (expectedVersion : String) (body : UpdateRoomDto) (shown : AdminRoomResponse) (db db' : CatalogDb n) : Prop :=
  ∃ room ∈ db.rooms, ∃ saved, room.id = roomId ∧ toString room.version = expectedVersion ∧ Patched body room saved ∧
    db'.rooms = Table.update db.rooms (·.id = roomId) (fun _ => saved) ∧ db'.roomIds = db.roomIds ∧
    Shows shown saved db' ∧ (db'.amenityIdsOf roomId).Perm (body.amenityIds.getD (db.amenityIdsOf roomId)) ∧
    ∀ id, id ≠ roomId → KeepsRoom id db db'

/-- A room that no booking refers to is gone with everything below it, and each of its images has a cleanup task. -/
def DeletesRoom (roomId : ℕ) (db db' : CatalogDb n) : Prop :=
  (∃ room ∈ db.rooms, room.id = roomId) ∧ (∀ t ∈ db.windowsOf roomId, ∀ u ∈ db.roomTimeUses, u.roomTimeId ≠ t.id) ∧
    ∃ tasks, db' = db.withoutRoom roomId tasks ∧ db.tasks ⊆ tasks ∧
      ∀ x ∈ db.imagesOf roomId, ∃ t ∈ tasks, t.objectKey = x.objectKey ∧ t.reason = .detachedObject

/-- What a call does to the rooms, by its answer. -/
def CatalogRequest.Effect : CatalogRequest → CatalogAnswer → CatalogDb n → CatalogDb n → Prop
  | .createRoom body, .room shown, db, db' => CreatesRoom body shown db db'
  | .updateRoom roomId expectedVersion body, .room shown, db, db' => UpdatesRoom roomId expectedVersion body shown db db'
  | .deleteRoom roomId, .done, db, db' => DeletesRoom roomId db db'
  | .createRoom _, _, _, _ => False
  | .updateRoom _ _ _, _, _, _ => False
  | .deleteRoom _, _, _, _ => False
  | _, _, db, db' => db'.rooms = db.rooms ∧ db'.roomIds = db.roomIds

/-- The call follows the discipline, and does what its answer says. -/
def Promises (cfg : CatalogConfig) (call : CatalogCall n) : Prop := ∀ db, (catalogDiscipline n).Inv db →
  (call.request.run cfg call.connection).wp (catalogDiscipline n) ((catalogDiscipline n).Ensures call.request.Effect) ⟨∅, id, none, db⟩

/-! ### Statements -/

section Statements

variable {l l' : CatalogMid n} {α : Type}

theorem wp_takeEntry {entry : CatalogRow} {taken : CatalogDb n → Bool} {conflict : CatalogError} {Q : Unit → CatalogMid n → Prop}
    (h : ∀ db, (catalogDiscipline n).Rely l.held l.db db → Q () { l with db := db, held := l.held ∪ {k | k.1 = entry} }) :
    (takeEntry entry taken conflict).wp (catalogDiscipline n) Q l := by
  rw [takeEntry, Txn.wp_bind, Txn.wp_locking]
  intro db hr
  rw [Txn.wp_require]
  intro _
  simpa using h db hr

theorem wp_takeEntry_later {entry : CatalogRow} {taken : CatalogDb n → Bool} {conflict : CatalogError} {Q : Unit → CatalogMid n → Prop}
    (h : ∀ l', (catalogDiscipline n).Later l l' → l'.pend = l.pend → l'.view = l.view → Q () l') :
    (takeEntry entry taken conflict).wp (catalogDiscipline n) Q l :=
  wp_takeEntry fun _ hr => h _ (.step hr Set.subset_union_left) rfl rfl

/-- What was just locked is held. -/
theorem owns_union {held : Set (CatalogRow × Fin n)} {row : CatalogRow} : Owns (held ∪ {k | k.1 = row}) row := fun _ => .inr rfl

/-! ### Room types and amenities -/

variable (cfg : CatalogConfig) (c : Fin n)

theorem createRoomType_promises (body : CreateRoomTypeDto) : Promises cfg ⟨c, .createRoomType body⟩ := by
  intro db₀ hinv
  rw [CatalogRequest.run, Txn.wp_bind, ReferenceCatalogService.createRoomType, insertRoomType, Txn.wp_bind]
  refine wp_takeEntry fun db hr => ?_
  rw [Txn.wp_bind, Txn.wp_writing]
  intro db' hr' x _
  refine ensures_of_change (fun db'' hr'' => ?_) fun _ _ => ⟨rfl, rfl⟩
  refine Change.setRoomTypes x.id hr''.1.2 (fun c => .inr (mem_exclusive.2 rfl)) (fun t ht => ?_) fun _ => .inl ?_
  · refine List.mem_append.trans (or_iff_left fun hnew => ht ?_)
    rw [List.mem_singleton.1 hnew]
  · simp

theorem createAmenity_promises (body : CreateAmenityDto) : Promises cfg ⟨c, .createAmenity body⟩ := by
  intro db₀ hinv
  rw [CatalogRequest.run, Txn.wp_bind, ReferenceCatalogService.createAmenity, insertAmenity, Txn.wp_bind]
  refine wp_takeEntry fun db hr => ?_
  rw [Txn.wp_bind, Txn.wp_writing]
  intro db' hr' x _
  refine ensures_of_change (fun db'' hr'' => ?_) fun _ _ => ⟨rfl, rfl⟩
  refine Change.setAmenities x.id hr''.1.2 (fun c => .inr (mem_exclusive.2 rfl)) (fun m hm => ?_) fun _ => .inl ?_
  · refine List.mem_append.trans (or_iff_left fun hnew => hm ?_)
    rw [List.mem_singleton.1 hnew]
  · simp

/-- Nothing was written: the rooms are as they were. -/
theorem ensures_of_id {request : CatalogRequest} {x : CatalogAnswer} (hpend : l.pend = id) (heffect : ∀ db : CatalogDb n, request.Effect x db db) :
    (catalogDiscipline n).Ensures request.Effect x l := by
  refine ensures_of_change (fun db hr => ?_) fun db hr => ?_
  · rw [hpend]
    exact .refl hr.1.2
  · rw [hpend]
    exact heffect db

theorem updateRoomType_promises (roomTypeId : ℕ) (body : UpdateRoomTypeDto) : Promises cfg ⟨c, .updateRoomType roomTypeId body⟩ := by
  intro db₀ hinv
  rw [CatalogRequest.run, Txn.wp_bind, ReferenceCatalogService.updateRoomType, Txn.wp_bind, Txn.wp_require]
  intro _
  rw [Txn.wp_bind]
  refine Txn.wp_findExclusive (fun _ _ _ => ?_) fun db hr roomType hmem hid => ?_
  · rw [Txn.wp_bind, Txn.wp_orThrow]
    exact fun _ h => by cases h
  · rw [Txn.wp_bind, Txn.wp_orThrow]
    rintro _ ⟨⟩
    rw [saveRoomType, Txn.wp_bind, Txn.wp_reading]
    intro db₁ hr₁
    split
    · exact ensures_of_id rfl fun _ => ⟨rfl, rfl⟩
    · rw [Txn.wp_bind]
      refine wp_takeEntry fun db₂ hr₂ => ?_
      rw [Txn.wp_bind, Txn.wp_writing]
      intro db₃ hr₃ x _
      refine ensures_of_change (fun db₄ hr₄ => ?_) fun _ _ => ⟨rfl, rfl⟩
      refine Change.setRoomTypes roomType.id hr₄.1.2 (fun c => .inr (mem_exclusive.2 rfl)) (fun t ht => ?_) fun hthere => .inl ?_
      · exact Table.mem_update_of_ne (fun _ => of_decide_eq_true) (fun _ => rfl) ht
      · refine (Table.mem_keys_update ?_).2 hthere
        exact fun _ => rfl

theorem updateAmenity_promises (amenityId : ℕ) (body : UpdateAmenityDto) : Promises cfg ⟨c, .updateAmenity amenityId body⟩ := by
  intro db₀ hinv
  rw [CatalogRequest.run, Txn.wp_bind, ReferenceCatalogService.updateAmenity, Txn.wp_bind, Txn.wp_require]
  intro _
  rw [Txn.wp_bind]
  refine Txn.wp_findExclusive (fun _ _ _ => ?_) fun db hr amenity hmem hid => ?_
  · rw [Txn.wp_bind, Txn.wp_orThrow]
    exact fun _ h => by cases h
  · rw [Txn.wp_bind, Txn.wp_orThrow]
    rintro _ ⟨⟩
    rw [saveAmenity, Txn.wp_bind, Txn.wp_reading]
    intro db₁ hr₁
    split
    · exact ensures_of_id rfl fun _ => ⟨rfl, rfl⟩
    · rw [Txn.wp_bind]
      refine wp_takeEntry fun db₂ hr₂ => ?_
      rw [Txn.wp_bind, Txn.wp_writing]
      intro db₃ hr₃ x _
      refine ensures_of_change (fun db₄ hr₄ => ?_) fun _ _ => ⟨rfl, rfl⟩
      refine Change.setAmenities amenity.id hr₄.1.2 (fun c => .inr (mem_exclusive.2 rfl)) (fun m hm => ?_) fun hthere => .inl ?_
      · exact Table.mem_update_of_ne (fun _ => of_decide_eq_true) (fun _ => rfl) hm
      · refine (Table.mem_keys_update ?_).2 hthere
        exact fun _ => rfl

/-- A room type that no room has as its holder looks is one that no room has at its commit. -/
theorem deleteRoomType_promises (roomTypeId : ℕ) : Promises cfg ⟨c, .deleteRoomType roomTypeId⟩ := by
  intro db₀ hinv
  rw [CatalogRequest.run, Txn.wp_bind, ReferenceCatalogService.deleteRoomType, Txn.wp_bind]
  refine Txn.wp_findExclusive (fun _ _ _ => ?_) fun db hr roomType hmem hid => ?_
  · rw [Txn.wp_bind, Txn.wp_orThrow]
    exact fun _ h => by cases h
  · obtain rfl := of_decide_eq_true hid
    rw [Txn.wp_bind, Txn.wp_orThrow]
    rintro _ ⟨⟩
    rw [Txn.wp_bind, Txn.wp_reading]
    intro db₁ hr₁
    rw [Txn.wp_bind, Txn.wp_require]
    intro hused
    rw [removeRoomType, Txn.wp_bind, Txn.wp_writing]
    intro db₂ hr₂ x _
    refine ensures_of_change (fun db₃ hr₃ => ?_) fun _ _ => ⟨rfl, rfl⟩
    refine Change.setRoomTypes roomType.id hr₃.1.2 (fun c => .inr (mem_exclusive.2 rfl)) (fun t ht => ?_) fun _ => .inr fun r hr hroom => ?_
    · exact Table.mem_delete.trans (and_iff_left (decide_eq_false ht))
    · have hrely := hr₂.trans hr₃ Set.subset_union_left
      have hrefers := refers_of_rely hrely c (e := ⟨.roomType r.roomTypeId, .room r.id, some r.trx⟩)
        (fun c => .inr (congrArg CatalogRow.roomType hroom)) (.roomType hr)
      obtain ⟨r', hr', hid'⟩ := hrefers.of_roomType (congrArg CatalogRow.roomType hroom)
      exact of_decide_eq_false (Table.affected_eq_zero.1 hused r' hr') hid'

theorem deleteAmenity_promises (amenityId : ℕ) : Promises cfg ⟨c, .deleteAmenity amenityId⟩ := by
  intro db₀ hinv
  rw [CatalogRequest.run, Txn.wp_bind, ReferenceCatalogService.deleteAmenity, Txn.wp_bind]
  refine Txn.wp_findExclusive (fun _ _ _ => ?_) fun db hr amenity hmem hid => ?_
  · rw [Txn.wp_bind, Txn.wp_orThrow]
    exact fun _ h => by cases h
  · obtain rfl := of_decide_eq_true hid
    rw [Txn.wp_bind, Txn.wp_orThrow]
    rintro _ ⟨⟩
    rw [Txn.wp_bind, Txn.wp_reading]
    intro db₁ hr₁
    rw [Txn.wp_bind, Txn.wp_require]
    intro hused
    rw [removeAmenity, Txn.wp_bind, Txn.wp_writing]
    intro db₂ hr₂ x _
    refine ensures_of_change (fun db₃ hr₃ => ?_) fun _ _ => ⟨rfl, rfl⟩
    refine Change.setAmenities amenity.id hr₃.1.2 (fun c => .inr (mem_exclusive.2 rfl)) (fun m hm => ?_) fun _ => .inr fun y hy hassigned => ?_
    · exact Table.mem_delete.trans (and_iff_left (decide_eq_false hm))
    · have hrely := hr₂.trans hr₃ Set.subset_union_left
      have hrefers := refers_of_rely hrely c (e := ⟨.amenity y.amenityId, .roomAmenity y.roomId y.amenityId, some y.trx⟩)
        (fun c => .inr (congrArg CatalogRow.amenity hassigned)) (.amenity hy)
      obtain ⟨y', hy', hid'⟩ := hrefers.of_amenity (congrArg CatalogRow.amenity hassigned)
      exact of_decide_eq_false (Table.affected_eq_zero.1 hused y' hy') hid'

end Statements

end HotelBackend.Catalog
