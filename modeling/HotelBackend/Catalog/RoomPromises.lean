import HotelBackend.Catalog.Below

/-!
# Rooms are created and saved as they are shown

A `POST` or `PATCH` of a room shares the rows it refers to, writes the room with its amenities, and shows
it. The proofs carry what was shared to the commit (`SharesType`, `SharesAmenities`), together with what
becomes of the amenities (`Assigns`); there the writes are one change, and what the call has read of the
room is what it commits.
-/

namespace HotelBackend.Catalog

open HotelBackend.Theory
open HotelBackend.Theory.Transactions
open HotelBackend.Rooms (RoomStatus RoomTime RoomTimeStatus)
open HotelBackend.Files

variable {n : ℕ} {c : Fin n} {l l' : CatalogMid n}

/-! ### Shared references -/

/-- The room type is shared, as it was found. -/
structure SharesType (c : Fin n) (t : RoomType) (l : CatalogMid n) : Prop where
  held : (.roomType t.id, c) ∈ l.held
  mem : t ∈ l.db.roomTypes

/-- The amenities are shared, as they were found. -/
def SharesAmenities (c : Fin n) (amenities : List Amenity) (l : CatalogMid n) : Prop :=
  ∀ m ∈ amenities, (.amenity m.id, c) ∈ l.held ∧ m ∈ l.db.amenities

theorem SharesType.later {t : RoomType} (h : SharesType c t l) (hl : (catalogDiscipline n).Later l l') : SharesType c t l' :=
  ⟨hl.held h.held, (roomType_iff_of_rely hl.rely h.held).2 h.mem⟩

theorem SharesAmenities.later {amenities : List Amenity} (h : SharesAmenities c amenities l) (hl : (catalogDiscipline n).Later l l') :
    SharesAmenities c amenities l' := fun m hm => ⟨hl.held (h m hm).1, (amenity_iff_of_rely hl.rely (h m hm).1).2 (h m hm).2⟩

/-- It is there at the commit. -/
theorem SharesType.rely {t : RoomType} (h : SharesType c t l) {db : CatalogDb n} (hr : (catalogDiscipline n).Rely l.held l.db db) :
    t ∈ db.roomTypes := (roomType_iff_of_rely hr h.held).2 h.mem

/-- They are held, and there at the commit. -/
theorem SharesAmenities.rely {amenities : List Amenity} (h : SharesAmenities c amenities l) {db : CatalogDb n}
    (hr : (catalogDiscipline n).Rely l.held l.db db) {id : ℕ} (hid : id ∈ amenities.map (·.id)) :
    (.amenity id, c) ∈ l.held ∧ db.Has (.amenity id) := by
  obtain ⟨m, hm, rfl⟩ := List.mem_map.1 hid
  exact ⟨(h m hm).1, List.mem_map_of_mem ((amenity_iff_of_rely hr (h m hm).1).2 (h m hm).2)⟩

/-- It finds some of the amenities, in the order of the ids. -/
theorem wp_lockAmenities {ids : List ℕ} {Q : List Amenity → CatalogMid n → Prop} (hinv : (catalogDiscipline n).Inv l.db) (hpend : l.pend = id)
    (h : ∀ l' amenities, (catalogDiscipline n).Later l l' → l'.pend = id → l'.view = l.view → SharesAmenities c amenities l' →
      (amenities.map (·.id)).Sublist ids → Q amenities l') :
    (lockAmenities c ids).wp (catalogDiscipline n) Q l := by
  induction ids generalizing l Q with
  | nil => exact h l [] (.refl hinv) hpend rfl (fun m hm => absurd hm List.not_mem_nil) .slnil
  | cons id ids ih =>
    rw [lockAmenities, Txn.wp_bind]
    refine Txn.wp_findShared (fun db hr _ => ?_) fun db hr m hm hid => ?_
    · have hl₁ : (catalogDiscipline n).Later l ⟨l.held, l.pend, l.view, db⟩ := .step hr (subset_refl l.held)
      rw [Txn.wp_bind]
      exact ih hr.1 hpend fun l₂ amenities hl₂ hpend₂ hview₂ hshares hsub =>
        h l₂ amenities (hl₁.trans hl₂) hpend₂ hview₂ hshares (hsub.cons id)
    · have hl₁ : (catalogDiscipline n).Later l ⟨l.held ∪ {(.amenity m.id, c)}, l.pend, l.view, db⟩ := .step hr Set.subset_union_left
      rw [hpend] at hm
      rw [Txn.wp_bind]
      refine ih hr.1 hpend fun l₂ amenities hl₂ hpend₂ hview₂ hshares hsub =>
        h l₂ (m :: amenities) (hl₁.trans hl₂) hpend₂ hview₂ (fun m' hm' => ?_) ?_
      · rcases List.mem_cons.1 hm' with rfl | hm'
        · exact ⟨hl₂.held (.inr rfl), (amenity_iff_of_rely hl₂.rely (.inr rfl)).2 hm⟩
        · exact hshares m' hm'
      · rw [List.map_cons, of_decide_eq_true hid]
        exact hsub.cons_cons id

/-- All of them, once each. -/
theorem wp_findLockedReferences {roomTypeId : ℕ} {amenityIds : List ℕ} {Q : RoomType × List Amenity → CatalogMid n → Prop} (hpend : l.pend = id)
    (h : ∀ l' roomType amenities, (catalogDiscipline n).Later l l' → l'.pend = id → l'.view = l.view → SharesType c roomType l' →
      roomType.id = roomTypeId → SharesAmenities c amenities l' → (amenities.map (·.id)).Perm amenityIds → amenityIds.Nodup →
      Q (roomType, amenities) l') :
    (findLockedReferences c roomTypeId amenityIds).wp (catalogDiscipline n) Q l := by
  rw [findLockedReferences, Txn.wp_bind]
  refine Txn.wp_findShared (fun _ _ _ => ?_) fun db hr roomType hmem hid => ?_
  · rw [Txn.wp_bind, Txn.wp_orThrow]
    exact fun _ h => by cases h
  · rw [Txn.wp_bind, Txn.wp_orThrow]
    rintro _ ⟨⟩
    rw [Txn.wp_bind]
    rw [hpend] at hmem
    have hl₁ : (catalogDiscipline n).Later l ⟨l.held ∪ {(.roomType roomType.id, c)}, l.pend, l.view, db⟩ := .step hr Set.subset_union_left
    have hshares₁ : SharesType c roomType ⟨l.held ∪ {(.roomType roomType.id, c)}, l.pend, l.view, db⟩ := ⟨.inr rfl, hmem⟩
    refine wp_lockAmenities hr.1 hpend fun l₂ amenities hl₂ hpend₂ hview₂ hamenities hsub => ?_
    rw [Txn.wp_bind, Txn.wp_require]
    intro hlength
    have hsorted : (amenityIds.dedup.insertionSort (· ≤ ·)).Perm amenityIds.dedup := List.perm_insertionSort _ _
    have hdedup : amenityIds.dedup.length = amenityIds.length := by
      refine le_antisymm (List.dedup_sublist amenityIds).length_le ?_
      rw [← hlength, ← hsorted.length_eq, ← List.length_map (·.id)]
      exact hsub.length_le
    have hnodup : amenityIds.dedup = amenityIds := (List.dedup_sublist amenityIds).eq_of_length hdedup
    have hall : amenities.map (·.id) = amenityIds.dedup.insertionSort (· ≤ ·) := by
      refine hsub.eq_of_length ?_
      rw [List.length_map, hsorted.length_eq, hdedup, hlength]
    refine h l₂ roomType amenities (hl₁.trans hl₂) hpend₂ hview₂ (hshares₁.later hl₂) (of_decide_eq_true hid) hamenities ?_ ?_
    · rw [hall, hnodup] at *
      exact List.perm_insertionSort _ _
    · rw [← hnodup]
      exact List.nodup_dedup amenityIds

/-! ### Amenities of a room -/

/-- The rows of the amenities, as they are written for a room: those given, or as they were. -/
structure Assigns (c : Fin n) (roomId : ℕ) (given : Option (List ℕ)) (a : CatalogDb n) (rows : List (RoomAmenity n)) : Prop where
  others : ∀ i, i ≠ roomId → rows.filter (·.roomId = i) = a.roomAmenities.filter (·.roomId = i)
  written : ∀ x ∈ rows, x.roomId = roomId → x ∈ a.roomAmenities ∨ x.trx = c ∧ x.amenityId ∈ given.getD []
  ids : ((rows.filter (·.roomId = roomId)).map (·.amenityId)).Perm (given.getD (a.amenityIdsOf roomId))

theorem assigns_reassigned {roomId : ℕ} {amenityIds : List ℕ} {a : CatalogDb n} :
    Assigns c roomId (some amenityIds) a (reassigned a.roomAmenities c roomId amenityIds) where
  others _ hi := filter_reassigned_of_ne hi
  written x hx hroom := by
    rcases List.mem_append.1 hx with hx | hx
    · exact absurd hroom (of_decide_eq_false (Table.mem_delete.1 hx).2)
    · obtain ⟨-, htrx, hid⟩ := mem_amenityRows.1 hx
      exact .inr ⟨htrx, hid⟩
  ids := by
    rw [filter_reassigned_self, map_amenityRows]
    rfl

theorem assigns_self {roomId : ℕ} {given : Option (List ℕ)} {a : CatalogDb n} (h : (a.amenityIdsOf roomId).Perm (given.getD (a.amenityIdsOf roomId))) :
    Assigns c roomId given a a.roomAmenities :=
  ⟨fun _ _ => rfl, fun _ hx _ => .inl hx, h⟩

theorem wp_replaceAmenityAssignments {roomId : ℕ} {amenityIds : List ℕ} {Q : Unit → CatalogMid n → Prop}
    (h : ∀ l', (catalogDiscipline n).Later l l' →
      l'.pend = (fun db => { db with roomAmenities := reassigned db.roomAmenities c roomId amenityIds }) ∘ l.pend → l'.view = l.view → Q () l') :
    (replaceAmenityAssignments c roomId amenityIds).wp (catalogDiscipline n) Q l := by
  rw [replaceAmenityAssignments, Txn.wp_bind, deleteRoomAmenities, Txn.wp_bind]
  refine Txn.wp_writing_later fun l₁ _ hl₁ hpend₁ hview₁ _ _ => ?_
  rw [Txn.wp_pure, Txn.wp_when]
  refine ⟨fun _ => ?_, fun hnone => ?_⟩
  · rw [insertRoomAmenities, Txn.wp_bind]
    refine Txn.wp_locking_later fun l₂ hl₂ hpend₂ hview₂ _ => ?_
    rw [Txn.wp_bind, Txn.wp_require]
    intro _
    rw [Txn.wp_bind]
    refine Txn.wp_writing_later fun l₃ _ hl₃ hpend₃ hview₃ _ _ => ?_
    refine h l₃ ((hl₁.trans hl₂).trans hl₃) ?_ (hview₃.trans (hview₂.trans hview₁))
    rw [hpend₃, hpend₂, hpend₁]
    rfl
  · refine h l₁ hl₁ ?_ hview₁
    rw [hpend₁, not_not.1 hnone]
    funext db
    simp [reassigned, amenityRows]

/-- The amenities are not replaced when they are those that are given already. -/
theorem wp_replaceIfChanged {room : Room n} {given : Option (List ℕ)} {Q : Unit → CatalogMid n → Prop} (hinv : (catalogDiscipline n).Inv l.db)
    (hpend : l.pend = id) (hroom : HoldsRoom room l) (hnodup : (given.getD []).Nodup)
    (h : ∀ l' (rows : CatalogDb n → List (RoomAmenity n)), (catalogDiscipline n).Later l l' → l'.pend = (fun db => { db with roomAmenities := rows db }) →
      (given = none → ∀ db, rows db = db.roomAmenities) →
      (∀ db, (catalogDiscipline n).Rely l'.held l'.db db → Assigns c room.id given db (rows db)) → Q () l') :
    (replaceIfChanged c room.id given).wp (catalogDiscipline n) Q l := by
  cases given with
  | none => exact h l (·.roomAmenities) (.refl hinv) hpend (fun _ _ => rfl) fun db hr => assigns_self (.refl _)
  | some amenityIds =>
    rw [replaceIfChanged, Txn.wp_bind]
    refine Txn.wp_reading_later fun l₁ v hl₁ hheld₁ hpend₁ hview₁ => ?_
    have hroom₁ := hroom.later hl₁ c
    rw [Txn.wp_when]
    refine ⟨fun _ => ?_, fun hsame => ?_⟩
    · refine wp_replaceAmenityAssignments fun l₂ hl₂ hpend₂ _ => ?_
      refine h l₂ (fun db => reassigned db.roomAmenities c room.id amenityIds) (hl₁.trans hl₂) ?_ (by simp) fun db _ => assigns_reassigned
      rw [hpend₂, hpend₁, hpend]
      rfl
    · refine h l₁ (·.roomAmenities) hl₁ (hpend₁.trans hpend) (by simp) fun db hr => assigns_self ?_
      -- what was read in the snapshot is what the room has
      have hkeeps : KeepsRoom room.id v db := (hroom₁.reads v hview₁).trans (keepsRoom_of_rely hr (hroom₁.own c))
      have hids : (v.amenityIdsOf room.id).Nodup := hkeeps.amenities ▸ hr.1.2.amenities room.id
      rw [hpend] at hsame
      have hread : (((id v : CatalogDb n).roomAmenities.filter (·.roomId = room.id)).map (·.amenityId)).dedup = v.amenityIdsOf room.id :=
        List.dedup_eq_self.2 hids
      rw [hread] at hsame
      simp only [not_or, not_not, not_exists, not_and] at hsame
      rw [hkeeps.amenities]
      exact ((List.subperm_of_subset hnodup hsame.2).perm_of_length_le hsame.1.le).symm

/-- The amenities of each room are still different. -/
theorem Assigns.nodup {roomId : ℕ} {given : Option (List ℕ)} {a : CatalogDb n} {rows : List (RoomAmenity n)} (h : Assigns c roomId given a rows)
    (hinv : RoomsInv a) (hnodup : (given.getD []).Nodup) (i : ℕ) : ((rows.filter (·.roomId = i)).map (·.amenityId)).Nodup := by
  by_cases hi : i = roomId
  · subst hi
    refine h.ids.nodup_iff.2 ?_
    cases given with
    | none => exact hinv.amenities i
    | some amenityIds => exact hnodup
  · rw [h.others i hi]
    exact hinv.amenities i

/-! ### Images of a room -/

theorem findTargetAttachments_room (attachments : List Attachment) (roomId : ℕ) (associationType : AttachmentAssociationType) :
    findTargetAttachments attachments ⟨.room, roomId, associationType⟩ =
      ((findRoomAttachments attachments roomId).filter (·.associationType = associationType)).insertionSort beforeAttachment := by
  rw [findTargetAttachments, findRoomAttachments, List.filter_filter]
  congr 1
  refine List.filter_congr fun x _ => ?_
  simp [Attachment.target, Bool.and_comm, Bool.and_left_comm, Bool.and_assoc]

/-- The image set of a room is a matter of its images. -/
theorem imageSetOf_congr {a b : CatalogDb n} {roomId : ℕ} (h : b.imagesOf roomId = a.imagesOf roomId) : b.imageSetOf roomId = a.imageSetOf roomId := by
  simp only [CatalogDb.imagesOf] at h
  simp only [CatalogDb.imageSetOf, findTargetAttachments_room, h]

/-- A room that is not there has no images. -/
theorem imageSetOf_of_not_has {db : CatalogDb n} {roomId : ℕ} (hinv : (catalogDiscipline n).Inv db) (h : ¬ db.Has (.room roomId)) :
    db.imageSetOf roomId = emptyImageSet := by
  have hnone : db.imagesOf roomId = [] := by
    refine List.filter_eq_nil_iff.2 fun x hx hroom => h ?_
    rw [Bool.and_eq_true, decide_eq_true_eq, decide_eq_true_eq] at hroom
    have hthere := has_of_refers hinv (.image hx hroom.1)
    rwa [hroom.2] at hthere
  have hempty : db.imageSetOf roomId = (CatalogDb.empty n).imageSetOf roomId := imageSetOf_congr hnone
  exact hempty

/-! ### Create -/

/-- A room with an id that no room was given, and its amenities. -/
theorem RoomsInv.create {a : CatalogDb n} {room : Room n} {given : Option (List ℕ)} {rows : List (RoomAmenity n)} (h : RoomsInv a)
    (hnew : room.id ∉ a.roomIds) (hassigns : Assigns c room.id given a rows) (hnodup : (given.getD []).Nodup) :
    RoomsInv { a with rooms := a.rooms ++ [room], roomIds := a.roomIds ++ [room.id], roomAmenities := rows } where
  ids := Table.nodup_map_concat h.ids fun r hr hid => hnew (hid ▸ h.given r hr)
  given r hr := by
    rcases List.mem_append.1 hr with hr | hr
    · exact List.mem_append_left _ (h.given r hr)
    · rw [List.mem_singleton.1 hr]
      exact List.mem_append_right _ (List.mem_singleton.2 rfl)
  amenities := hassigns.nodup h hnodup
  images := h.images

theorem createRoom_promises (cfg : CatalogConfig) (c : Fin n) (body : CreateRoomDto) : Promises cfg ⟨c, .createRoom body⟩ := by
  intro db₀ hinv
  rw [CatalogRequest.run, Txn.wp_bind, RoomsService.create, Txn.wp_bind]
  refine wp_findLockedReferences rfl fun l₁ roomType amenities hl₁ hpend₁ _ htype₁ htypeId hamenities₁ hids hnodup => ?_
  rw [Txn.wp_bind, insertRoom, Txn.wp_bind]
  refine wp_takeEntry_later fun l₂ hl₂ hpend₂ _ => ?_
  rw [Txn.wp_bind]
  refine Txn.wp_writing_later fun l₃ x hl₃ hpend₃ _ hheld₃ hnew => ?_
  rw [Txn.wp_pure, Txn.wp_bind]
  refine wp_replaceAmenityAssignments fun l₄ hl₄ hpend₄ _ => ?_
  rw [Txn.wp_pure, Txn.wp_pure]
  set room : Room n :=
    { id := x.id, roomTypeId := roomType.id, roomNumber := body.roomNumber, bedCount := body.bedCount, viewCode := body.viewCode,
      basePriceAmount := body.basePriceAmount, currency := body.currency, status := body.status, version := 1,
      createdAt := x.now, updatedAt := x.now, trx := c } with hroom
  have htype := ((htype₁.later hl₂).later hl₃).later hl₄
  have hamenities := ((hamenities₁.later hl₂).later hl₃).later hl₄
  have hown : Owns l₃.held (.room x.id) := fun c => hheld₃ _ (mem_exclusive.2 rfl)
  rw [hpend₂, hpend₁] at hnew
  have hnew' : ∀ db, (catalogDiscipline n).Rely l₄.held l₄.db db → x.id ∉ db.roomIds := by
    intro db hr hgiven
    refine of_decide_eq_true hnew ?_
    exact (keepsRoom_of_rely (hl₄.rely.trans hr hl₄.held) (hown c)).given.1 hgiven
  have hpend : l₄.pend = fun db => { db with
      rooms := db.rooms ++ [room], roomIds := db.roomIds ++ [x.id], roomAmenities := reassigned db.roomAmenities c x.id body.amenityIds } := by
    rw [hpend₄, hpend₃, hpend₂, hpend₁]
    rfl
  have hassigns : ∀ db : CatalogDb n, Assigns c x.id (some body.amenityIds) db (reassigned db.roomAmenities c x.id body.amenityIds) :=
    fun db => assigns_reassigned
  have hmem : ∀ db : CatalogDb n, room ∈ db.rooms ++ [room] := fun db => List.mem_append_right _ (List.mem_singleton.2 rfl)
  refine ensures_of_change (fun db hr' => ?_) fun db hr => ?_
  · rw [hpend]
    refine Change.setRoom x.id (hr'.1.2.create (hnew' db hr') (hassigns db) hnodup) (hown.mono hl₄.held) (fun r hr => ?_) (fun i hi => ?_)
      (hassigns db).others (List.mem_map_of_mem (hmem db)) (fun r hr hid => ?_) fun y hy hid => ?_
    · refine List.mem_append.trans (or_iff_left fun h => hr ?_)
      rw [List.mem_singleton.1 h]
    · exact List.mem_append.trans (or_iff_left fun h => hi (List.mem_singleton.1 h))
    · rcases List.mem_append.1 hr with hold | hsame
      · exact absurd (hid ▸ hr'.1.2.given r hold) (hnew' db hr')
      · obtain rfl := List.mem_singleton.1 hsame
        exact ⟨htype.held, List.mem_map_of_mem (htype.rely hr')⟩
    · rcases (hassigns db).written y hy hid with hold | ⟨htrx, hgiven⟩
      · exact .inl hold
      · rw [htrx]
        exact .inr (hamenities.rely hr' (hids.mem_iff.2 hgiven))
  · have hthere : roomType ∈ db.roomTypes := htype.rely hr
    rw [hpend]
    refine ⟨room, ⟨htypeId, rfl, rfl, rfl, rfl, rfl, rfl, rfl⟩, hnew' db hr, rfl, rfl, ⟨hmem db, ?_, ⟨hthere, rfl⟩, ?_⟩, (hassigns db).ids⟩
    · have hnone : ¬ db.Has (.room x.id) := fun hthere => by
        obtain ⟨r, hr', hid⟩ := List.mem_map.1 hthere
        exact hnew' db hr (hid ▸ hr.1.2.given r hr')
      have hempty := imageSetOf_of_not_has hr.1 hnone
      show toAdminRoomResponse room roomType amenities emptyImageSet = toAdminRoomResponse room roomType amenities (db.imageSetOf x.id)
      rw [hempty]
    · exact hids.trans (hassigns db).ids.symm

/-! ### Update -/

/-- What a save makes of the row of a room. -/
def savedRow (c : Fin n) (room : Room n) (now : ℕ) (r : Room n) : Room n :=
  { r with roomNumber := room.roomNumber, roomTypeId := room.roomTypeId, bedCount := room.bedCount, viewCode := room.viewCode,
           basePriceAmount := room.basePriceAmount, currency := room.currency, status := room.status,
           version := r.version + 1, updatedAt := now, trx := c }

/-- A room with its amenities after its save. -/
def CatalogDb.save (a : CatalogDb n) (saved : Room n) (rows : List (RoomAmenity n)) : CatalogDb n :=
  { a with rooms := Table.update a.rooms (·.id = saved.id) fun _ => saved, roomAmenities := rows }

/-- The save of a room as the one row that is written. -/
theorem update_savedRow {a : CatalogDb n} {room : Room n} (hinv : RoomsInv a) (hmem : room ∈ a.rooms) {f : Room n → Room n} :
    Table.update a.rooms (·.id = room.id) f = Table.update a.rooms (·.id = room.id) fun _ => f room := by
  refine List.map_congr_left fun r hr => ?_
  by_cases hid : r.id = room.id
  · rw [List.inj_on_of_nodup_map hinv.ids hr hmem hid]
  · simp [hid]

section Save

variable {a : CatalogDb n} {saved : Room n} {given : Option (List ℕ)} {rows : List (RoomAmenity n)}

theorem mem_save_of_ne {rooms : List (Room n)} {r : Room n} (h : r.id ≠ saved.id) :
    r ∈ Table.update rooms (·.id = saved.id) (fun _ => saved) ↔ r ∈ rooms := by
  constructor
  · intro hr
    obtain ⟨r', hr', ⟨-, rfl⟩ | ⟨-, rfl⟩⟩ := Table.mem_update.1 hr
    · exact absurd rfl h
    · exact hr'
  · exact fun hr => Table.mem_update_of_neg hr (decide_eq_false h)

theorem eq_of_mem_save {rooms : List (Room n)} {r : Room n} (hr : r ∈ Table.update rooms (·.id = saved.id) fun _ => saved)
    (hid : r.id = saved.id) : r = saved := by
  obtain ⟨r', -, ⟨-, rfl⟩ | ⟨hne, rfl⟩⟩ := Table.mem_update.1 hr
  · rfl
  · exact absurd hid (of_decide_eq_false hne)

theorem mem_save_self (h : a.Has (.room saved.id)) : saved ∈ Table.update a.rooms (·.id = saved.id) fun _ => saved := by
  obtain ⟨r, hr, hid⟩ := List.mem_map.1 h
  exact Table.mem_update.2 ⟨r, hr, .inl ⟨decide_eq_true hid, rfl⟩⟩

theorem KeepsRoom.save (hassigns : Assigns c saved.id given a rows) {i : ℕ} (hi : i ≠ saved.id) : KeepsRoom i a (a.save saved rows) :=
  ⟨fun _ hr => mem_save_of_ne (hr ▸ hi), Iff.rfl, CatalogDb.amenityIdsOf_congr (hassigns.others i hi), rfl⟩

theorem RoomsInv.save (h : RoomsInv a) (hthere : a.Has (.room saved.id)) (hassigns : Assigns c saved.id given a rows)
    (hnodup : (given.getD []).Nodup) : RoomsInv (a.save saved rows) where
  ids := by
    rw [CatalogDb.save, Table.map_update fun r _ hid => (of_decide_eq_true hid).symm]
    exact h.ids
  given r hr := by
    by_cases hid : r.id = saved.id
    · obtain ⟨r', hr', hid'⟩ := List.mem_map.1 hthere
      rw [hid, ← hid']
      exact h.given r' hr'
    · exact h.given r ((mem_save_of_ne hid).1 hr)
  amenities := hassigns.nodup h hnodup
  images := h.images

/-- A room is saved by who holds it and shares what it refers to. -/
theorem Change.save {held : Set (CatalogRow × Fin n)} (hinv : RoomsInv a) (hown : Owns held (.room saved.id)) (hthere : a.Has (.room saved.id))
    (htype : (.roomType saved.roomTypeId, saved.trx) ∈ held ∧ a.Has (.roomType saved.roomTypeId)) (hassigns : Assigns c saved.id given a rows)
    (hnodup : (given.getD []).Nodup) (hamenities : ∀ id ∈ given.getD [], (.amenity id, c) ∈ held ∧ a.Has (.amenity id)) :
    Change held a (a.save saved rows) := by
  refine Change.setRoom saved.id (hinv.save hthere hassigns hnodup) hown (fun r hr => mem_save_of_ne hr) (fun _ _ => Iff.rfl)
    hassigns.others (List.mem_map_of_mem (mem_save_self hthere)) (fun r hr hid => ?_) fun y hy hid => ?_
  · rw [eq_of_mem_save hr hid]
    exact htype
  · rcases hassigns.written y hy hid with hold | ⟨htrx, hgiven⟩
    · exact .inl hold
    · rw [htrx]
      exact .inr (hamenities _ hgiven)

end Save

theorem wp_updateRoom {cfg : CatalogConfig} {room : Room n} {Q : Unit → CatalogMid n → Prop}
    (h : ∀ l' (x : CatalogSupply), (catalogDiscipline n).Later l l' →
      l'.pend = (fun db => { db with rooms := Table.update db.rooms (·.id = room.id) (savedRow c room x.now) }) ∘ l.pend → Q () l') :
    (updateRoom cfg c room).wp (catalogDiscipline n) Q l := by
  rw [updateRoom, Txn.wp_bind]
  refine wp_takeEntry_later fun l₁ hl₁ hpend₁ _ => ?_
  rw [Txn.wp_bind, Txn.wp_require]
  intro _
  rw [Txn.wp_bind]
  refine Txn.wp_writing_later fun l₂ x hl₂ hpend₂ _ _ _ => ?_
  refine h l₂ x (hl₁.trans hl₂) ?_
  rw [hpend₂, hpend₁]
  rfl

/-- The amenities that were found are those that were looked for. -/
theorem map_id_of_mapM {ids : List ℕ} {find : ℕ → Option Amenity} (hfind : ∀ i m, find i = some m → m.id = i) {amenities : List Amenity}
    (h : (ids.map find).mapM id = some amenities) : amenities.map (·.id) = ids := by
  induction ids generalizing amenities with
  | nil =>
    cases h
    rfl
  | cons i ids ih =>
    rw [List.map_cons, List.mapM_cons, Option.bind_eq_bind, Option.bind_eq_some_iff] at h
    obtain ⟨m, hm, h⟩ := h
    obtain ⟨rest, hrest, h⟩ := Option.bind_eq_some_iff.1 h
    cases h
    rw [List.map_cons, hfind i m hm, ih hrest]

theorem wp_loadAmenitiesByRoom {room : Room n} {Q : (ℕ → List (Option Amenity)) → CatalogMid n → Prop} (hroom : HoldsRoom room l)
    (hpend : ∀ db, (l.pend db).roomAmenities = db.roomAmenities) (c : Fin n)
    (h : ∀ l' amenitiesByRoom, (catalogDiscipline n).Later l l' → l'.pend = l.pend →
      (∀ amenities, (amenitiesByRoom room.id).mapM id = some amenities → (amenities.map (·.id)).Perm (l'.db.amenityIdsOf room.id)) →
      Q amenitiesByRoom l') :
    (loadAmenitiesByRoom [room.id]).wp (catalogDiscipline n) Q l := by
  rw [loadAmenitiesByRoom, if_neg (List.cons_ne_nil _ _)]
  refine Txn.wp_reading_later fun l₁ v hl₁ _ hpend₁ hview₁ => ?_
  have hroom₁ := hroom.later hl₁ c
  refine h l₁ _ hl₁ hpend₁ fun amenities hall => ?_
  have hids := map_id_of_mapM (fun i m hm => by simpa using List.find?_some hm) hall
  rw [hids, (hroom₁.reads v hview₁).amenities]
  refine (List.perm_insertionSort _ _).trans ?_
  simp [CatalogDb.amenityIdsOf, hpend]

theorem findAttachmentsByTargets_self (attachments : List Attachment) (roomId : ℕ) (associationType : AttachmentAssociationType) :
    findAttachmentsByTargets attachments .room [roomId] associationType roomId =
      ((findRoomAttachments attachments roomId).filter (·.associationType = associationType)).insertionSort beforeAttachment :=
  (if_pos (List.mem_singleton.2 rfl)).trans (findTargetAttachments_room attachments roomId associationType)

theorem wp_loadImageSets {room : Room n} {Q : (ℕ → RoomImageSet) → CatalogMid n → Prop} (hroom : HoldsRoom room l)
    (hpend : ∀ db, (l.pend db).attachments = db.attachments) (c : Fin n)
    (h : ∀ l' images, (catalogDiscipline n).Later l l' → l'.pend = l.pend → images room.id = l'.db.imageSetOf room.id → Q images l') :
    (loadImageSets [room.id]).wp (catalogDiscipline n) Q l := by
  rw [loadImageSets, Txn.wp_bind]
  refine Txn.wp_reading_later fun l₁ v₁ hl₁ _ hpend₁ hview₁ => ?_
  have hroom₁ := hroom.later hl₁ c
  rw [Txn.wp_bind]
  refine Txn.wp_reading_later fun l₂ v₂ hl₂ _ hpend₂ hview₂ => ?_
  have hroom₂ := hroom₁.later hl₂ c
  rw [Txn.wp_pure]
  refine h l₂ _ (hl₁.trans hl₂) (hpend₂.trans hpend₁) ?_
  have himages₁ : findRoomAttachments v₁.attachments room.id = findRoomAttachments l₂.db.attachments room.id :=
    (hroom₁.reads v₁ hview₁).images.symm.trans (keepsRoom_of_rely hl₂.rely (hroom₁.own c)).images.symm
  have himages₂ : findRoomAttachments v₂.attachments room.id = findRoomAttachments l₂.db.attachments room.id := (hroom₂.reads v₂ hview₂).images.symm
  simp only [findAttachmentsByTargets_self, hpend₁, hpend, himages₁, himages₂, CatalogDb.imageSetOf, findTargetAttachments_room]

/-- The room as it is read back after its save. -/
theorem find?_saved {rooms rooms' : List (Room n)} {room saved : Room n} {f : Room n → Room n} (hrows : ∀ r : Room n, r.id = room.id → (r ∈ rooms ↔ r ∈ rooms'))
    (hn : (rooms'.map (·.id)).Nodup) (hmem : room ∈ rooms') (hf : ∀ r, (f r).id = r.id)
    (h : (Table.update rooms (·.id = room.id) f).find? (·.id = room.id) = some saved) : saved = f room := by
  have hid : saved.id = room.id := by simpa using List.find?_some h
  obtain ⟨r, hr, ⟨-, rfl⟩ | ⟨hne, rfl⟩⟩ := Table.mem_update.1 (List.mem_of_find?_eq_some h)
  · rw [hf] at hid
    rw [List.inj_on_of_nodup_map hn ((hrows r hid).1 hr) hmem hid]
  · exact absurd hid (of_decide_eq_false hne)

/-- A call that has saved a room, before it has shown it. -/
structure SavesRoom (c : Fin n) (body : UpdateRoomDto) (room saved : Room n) (roomType : RoomType) (rows : CatalogDb n → List (RoomAmenity n))
    (l : CatalogMid n) : Prop where
  holds : HoldsRoom room l
  row : ∃ now, saved = savedRow c (body.apply room) now room
  type : SharesType c roomType l
  typeId : roomType.id = saved.roomTypeId
  amenities : ∀ db, (catalogDiscipline n).Rely l.held l.db db → ∀ id ∈ body.amenityIds.getD [], (.amenity id, c) ∈ l.held ∧ db.Has (.amenity id)
  nodup : (body.amenityIds.getD []).Nodup
  assigns : ∀ db, (catalogDiscipline n).Rely l.held l.db db → Assigns c room.id body.amenityIds db (rows db)
  pend : ∀ db, (catalogDiscipline n).Rely l.held l.db db → l.pend db = db.save saved (rows db)

section SavesRoom

variable {body : UpdateRoomDto} {room saved : Room n} {roomType : RoomType} {rows : CatalogDb n → List (RoomAmenity n)}

/-- Only reads follow. -/
theorem SavesRoom.later (h : SavesRoom c body room saved roomType rows l) (hl : (catalogDiscipline n).Later l l') (hpend : l'.pend = l.pend) :
    SavesRoom c body room saved roomType rows l' where
  holds := h.holds.later hl c
  row := h.row
  type := h.type.later hl
  typeId := h.typeId
  amenities db hr id hid := ⟨hl.held (h.amenities db (hl.rely.trans hr hl.held) id hid).1, (h.amenities db (hl.rely.trans hr hl.held) id hid).2⟩
  nodup := h.nodup
  assigns db hr := h.assigns db (hl.rely.trans hr hl.held)
  pend db hr := hpend ▸ h.pend db (hl.rely.trans hr hl.held)

/-- It commits what it shows. -/
theorem SavesRoom.ensures (h : SavesRoom c body room saved roomType rows l) {shown : List Amenity} {images : RoomImageSet}
    (hshown : ∀ db, (catalogDiscipline n).Rely l.held l.db db → (shown.map (·.id)).Perm (body.amenityIds.getD (db.amenityIdsOf room.id)))
    (himages : images = l.db.imageSetOf room.id) :
    (catalogDiscipline n).Ensures (UpdatesRoom room.id (toString room.version) body) (toAdminRoomResponse saved roomType shown images) l := by
  obtain ⟨now, hsaved⟩ := h.row
  have hid : saved.id = room.id := hsaved ▸ rfl
  refine ensures_of_change (fun db hr => ?_) fun db hr => ?_
  · have hassigns : Assigns c saved.id body.amenityIds db (rows db) := hid ▸ h.assigns db hr
    rw [h.pend db hr]
    refine .save hr.1.2 (hid ▸ h.holds.own) (hid ▸ h.holds.has c hr) ?_ hassigns h.nodup (h.amenities db hr)
    have htrx : saved.trx = c := hsaved ▸ rfl
    rw [htrx, ← h.typeId]
    exact ⟨h.type.held, List.mem_map_of_mem (h.type.rely hr)⟩
  · have hassigns : Assigns c saved.id body.amenityIds db (rows db) := hid ▸ h.assigns db hr
    have hkeeps := keepsRoom_of_rely hr (h.holds.own c)
    have htype : roomType ∈ db.roomTypes := h.type.rely hr
    rw [h.pend db hr]
    refine ⟨room, (hkeeps.row room rfl).2 h.holds.mem, saved, rfl, rfl, ?_, ?_, rfl, ⟨mem_save_self (hid ▸ h.holds.has c hr), ?_, ⟨htype, h.typeId⟩, ?_⟩,
      ?_, fun i hi => ?_⟩
    · rw [hsaved]
      rfl
    · rw [← hid]
      rfl
    · show toAdminRoomResponse saved roomType shown images = toAdminRoomResponse saved roomType shown (db.imageSetOf saved.id)
      rw [himages, hid, imageSetOf_congr hkeeps.images]
    · refine (hshown db hr).trans ?_
      rw [← hid]
      exact hassigns.ids.symm
    · rw [← hid]
      exact hassigns.ids
    · exact KeepsRoom.save hassigns (hid ▸ hi)

/-- The images are read, and the room is shown. -/
theorem SavesRoom.wp_show (h : SavesRoom c body room saved roomType rows l) (hpend : ∀ db, (l.pend db).attachments = db.attachments)
    {shown : List Amenity}
    (hshown : ∀ db, (catalogDiscipline n).Rely l.held l.db db → (shown.map (·.id)).Perm (body.amenityIds.getD (db.amenityIdsOf room.id))) :
    (do
      let imagesByRoom ← loadImageSets [room.id]
      pure (toAdminRoomResponse saved roomType shown (imagesByRoom room.id)) : CatalogTx n AdminRoomResponse).wp (catalogDiscipline n)
      ((catalogDiscipline n).Ensures (UpdatesRoom room.id (toString room.version) body)) l := by
  rw [Txn.wp_bind]
  refine wp_loadImageSets h.holds hpend c fun l₁ images hl₁ hpend₁ himages => ?_
  rw [Txn.wp_pure]
  exact (h.later hl₁ hpend₁).ensures (fun db hr => hshown db (hl₁.rely.trans hr hl₁.held)) himages

end SavesRoom

theorem updateRoom_promises (cfg : CatalogConfig) (c : Fin n) (roomId : ℕ) (expectedVersion : String) (body : UpdateRoomDto) :
    Promises cfg ⟨c, .updateRoom roomId expectedVersion body⟩ := by
  intro db₀ hinv
  rw [CatalogRequest.run, Txn.wp_bind, RoomsService.update, Txn.wp_bind, Txn.wp_require]
  intro _
  rw [Txn.wp_bind]
  refine wp_lockRoom rfl rfl fun l₁ room hl₁ hpend₁ hview₁ hroom₁ hid => ?_
  subst hid
  rw [Txn.wp_bind, Txn.wp_require]
  intro hversion
  subst hversion
  rw [Txn.wp_bind]
  refine wp_findLockedReferences hpend₁ fun l₂ roomType amenities hl₂ hpend₂ hview₂ htype₂ htypeId hamenities₂ hids hnodup => ?_
  have hroom₂ := hroom₁.later hl₂ c
  rw [Txn.wp_bind]
  refine wp_replaceIfChanged hl₂.rely.1 hpend₂ hroom₂ hnodup fun l₃ rows hl₃ hpend₃ huntouched hassigns₃ => ?_
  have hroom₃ := hroom₂.later hl₃ c
  rw [Txn.wp_bind]
  refine wp_updateRoom fun l₄ x hl₄ hpend₄ => ?_
  have hroom₄ := hroom₃.later hl₄ c
  have hpend : ∀ db, l₄.pend db = { db with
      rooms := Table.update db.rooms (·.id = room.id) (savedRow c (body.apply room) x.now), roomAmenities := rows db } := by
    intro db
    rw [hpend₄, hpend₃]
    rfl
  rw [Txn.wp_bind]
  refine Txn.wp_reading_later fun l₅ v hl₅ _ hpend₅ hview₅ => ?_
  have hroom₅ := hroom₄.later hl₅ c
  rw [Txn.wp_bind, Txn.wp_orThrow]
  intro saved hfound
  have hsaved : saved = savedRow c (body.apply room) x.now room := by
    have hkeeps := hroom₅.reads v hview₅
    rw [hpend] at hfound
    refine find?_saved (fun r hr => (hkeeps.row r hr).symm) hl₅.rely.1.2.ids hroom₅.mem (fun r => ?_) hfound
    rfl
  have hsaves : SavesRoom c body room saved roomType rows l₅ := by
    have hl := hl₄.trans hl₅
    have hamenities := (hamenities₂.later hl₃).later hl
    refine ⟨hroom₅, ⟨x.now, hsaved⟩, (htype₂.later hl₃).later hl, hsaved ▸ htypeId, fun db hr i hi => hamenities.rely hr (hids.mem_iff.2 hi), hnodup,
      fun db hr => hassigns₃ db (hl.rely.trans hr hl.held), fun db hr => ?_⟩
    have hid : saved.id = room.id := hsaved ▸ rfl
    have hmem : room ∈ db.rooms := ((keepsRoom_of_rely hr (hroom₅.own c)).row room rfl).2 hroom₅.mem
    rw [hpend₅, hpend, CatalogDb.save, hid, hsaved, ← update_savedRow hr.1.2 hmem]
  have hattachments : ∀ db, (l₅.pend db).attachments = db.attachments := fun db => by rw [hpend₅, hpend]
  cases hgiven : body.amenityIds with
  | some amenityIds =>
    dsimp only
    rw [Txn.wp_bind, Txn.wp_pure]
    refine hsaves.wp_show hattachments fun db hr => ?_
    rw [hgiven] at hids ⊢
    exact hids
  | none =>
    dsimp only
    rw [Txn.wp_bind]
    refine wp_loadAmenitiesByRoom hroom₅ (fun db => ?_) c fun l₆ amenitiesByRoom hl₆ hpend₆ hread => ?_
    · rw [hpend₅, hpend]
      exact huntouched hgiven db
    · rw [Txn.wp_bind, Txn.wp_orThrow]
      intro shown hall
      refine (hsaves.later hl₆ hpend₆).wp_show (fun db => by rw [hpend₆, hattachments]) fun db hr => ?_
      have hsame := (keepsRoom_of_rely hr ((hroom₅.later hl₆ c).own c)).amenities
      rw [hgiven, Option.getD_none, hsame]
      exact hread shown hall

/-! ### All calls -/

/-- **Every call of the catalogue does what its answer says.** -/
theorem catalogCall_promises (cfg : CatalogConfig) (call : CatalogCall n) : Promises cfg call := by
  obtain ⟨c, request⟩ := call
  cases request with
  | createRoomType body => exact createRoomType_promises cfg c body
  | updateRoomType roomTypeId body => exact updateRoomType_promises cfg c roomTypeId body
  | deleteRoomType roomTypeId => exact deleteRoomType_promises cfg c roomTypeId
  | createAmenity body => exact createAmenity_promises cfg c body
  | updateAmenity amenityId body => exact updateAmenity_promises cfg c amenityId body
  | deleteAmenity amenityId => exact deleteAmenity_promises cfg c amenityId
  | createRoom body => exact createRoom_promises cfg c body
  | updateRoom roomId expectedVersion body => exact updateRoom_promises cfg c roomId expectedVersion body
  | deleteRoom roomId => exact deleteRoom_promises cfg c roomId
  | uploadImage roomId policy objectKey mimeType sizeBytes uploaderUserId uuid now =>
    exact uploadImage_promises cfg c roomId policy objectKey mimeType sizeBytes uploaderUserId uuid now
  | reorderImages roomId attachmentIds => exact reorderImages_promises cfg c roomId attachmentIds
  | deleteImage roomId attachmentId uuid now => exact deleteImage_promises cfg c roomId attachmentId uuid now
  | createRoomTime roomId availableFrom availableTo status => exact createRoomTime_promises cfg c roomId availableFrom availableTo status
  | deleteRoomTime roomId roomTimeId => exact deleteRoomTime_promises cfg c roomId roomTimeId
  | useRoomTime roomTimeId => exact useRoomTime_promises cfg c roomTimeId
  | changeTasks f => exact changeTasks_promises cfg c f

end HotelBackend.Catalog
