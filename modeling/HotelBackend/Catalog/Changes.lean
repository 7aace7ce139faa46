import HotelBackend.Catalog.Discipline

/-!
# The writes of the catalogue are changes

For each kind of write: under the locks its service takes, it is a `Change`. Room types and amenities are
added, saved, and removed where nothing refers to them; a room is added with its amenities, saved, and
removed with everything below it; windows, bookings and images come and go under their room or window.
-/

namespace HotelBackend.Catalog

open HotelBackend.Theory
open HotelBackend.Theory.Transactions
open HotelBackend.Rooms (RoomStatus RoomTime RoomTimeStatus)
open HotelBackend.Files

variable {n : ℕ} {held : Set (CatalogRow × Fin n)} {a : CatalogDb n}

/-- Nothing is written. -/
theorem Change.refl (hinv : RoomsInv a) : Change held a a :=
  ⟨fun _ => .inl, fun _ => .inl, fun _ => .inl, hinv, fun _ => .inl Iff.rfl, fun _ => .inl Iff.rfl, fun id => .inl (.refl id a)⟩

/-- The tasks of the object storage are no part of it. -/
theorem Change.setTasks (hinv : RoomsInv a) (tasks : List StorageCleanupTask) : Change held a { a with tasks := tasks } where
  added _ := .inl
  removed _ := .inl
  written _ he := .inl (he.of_subset (List.Subset.refl _) (List.Subset.refl _) (List.Subset.refl _) (List.Subset.refl _) (List.Subset.refl _))
  inv := ⟨hinv.ids, hinv.given, hinv.amenities, hinv.images⟩
  roomTypes _ := .inl Iff.rfl
  amenities _ := .inl Iff.rfl
  rooms _ := .inl ⟨fun _ _ => Iff.rfl, Iff.rfl, rfl, rfl⟩

/-! ### Room types and amenities -/

/-- A row that rooms refer to is changed by who holds it, and removed where nothing refers to it. -/
theorem Change.setReference {roomTypes : List RoomType} {amenities : List Amenity} {row : CatalogRow} (hinv : RoomsInv a) (hown : Owns held row)
    (hhas : ∀ r, r ≠ row → (CatalogDb.Has { a with roomTypes := roomTypes, amenities := amenities } r ↔ a.Has r))
    (hunused : a.Has row → CatalogDb.Has { a with roomTypes := roomTypes, amenities := amenities } row ∨ ∀ e, a.Refers e → e.target ≠ row)
    (hroomTypes : ∀ t : RoomType, (t ∈ roomTypes ↔ t ∈ a.roomTypes) ∨ Owns held (.roomType t.id))
    (hamenities : ∀ m : Amenity, (m ∈ amenities ↔ m ∈ a.amenities) ∨ Owns held (.amenity m.id)) :
    Change held a { a with roomTypes := roomTypes, amenities := amenities } := by
  have hrefers : ∀ e, CatalogDb.Refers { a with roomTypes := roomTypes, amenities := amenities } e → a.Refers e := fun e he =>
    he.of_subset (List.Subset.refl _) (List.Subset.refl _) (List.Subset.refl _) (List.Subset.refl _) (List.Subset.refl _)
  refine ⟨fun r hr => ?_, fun r hr => ?_, fun e he => .inl (hrefers e he), ⟨hinv.ids, hinv.given, hinv.amenities, hinv.images⟩, hroomTypes, hamenities,
    fun _ => .inl ⟨fun _ _ => Iff.rfl, Iff.rfl, rfl, rfl⟩⟩
  · by_cases hrow : r = row
    · exact .inr (hrow ▸ hown)
    · exact .inl ((hhas r hrow).1 hr)
  · by_cases hrow : r = row
    · subst hrow
      exact (hunused hr).imp_right fun hnone => ⟨hown, fun e he => hnone e (hrefers e he)⟩
    · exact .inl ((hhas r hrow).2 hr)

/-- A room type is changed by who holds it, and removed where no room has it. -/
theorem Change.setRoomTypes {roomTypes : List RoomType} (id : ℕ) (hinv : RoomsInv a) (hown : Owns held (.roomType id))
    (hrows : ∀ t : RoomType, t.id ≠ id → (t ∈ roomTypes ↔ t ∈ a.roomTypes))
    (hunused : id ∈ a.roomTypes.map (·.id) → id ∈ roomTypes.map (·.id) ∨ ∀ r ∈ a.rooms, r.roomTypeId ≠ id) :
    Change held a { a with roomTypes := roomTypes } := by
  refine .setReference hinv hown (fun r hr => ?_) (fun hthere => (hunused hthere).imp_right fun hnone e he htarget => ?_) (fun t => ?_)
    fun _ => .inl Iff.rfl
  · cases r with
    | roomType id' => exact Table.mem_keys_iff hrows fun hid => hr (congrArg _ hid)
    | _ => exact Iff.rfl
  · obtain ⟨r, hr, hid⟩ := he.of_roomType htarget
    exact hnone r hr hid
  · by_cases hid : t.id = id
    · exact .inr (hid ▸ hown)
    · exact .inl (hrows t hid)

/-- An amenity is changed by who holds it, and removed where no room has it. -/
theorem Change.setAmenities {amenities : List Amenity} (id : ℕ) (hinv : RoomsInv a) (hown : Owns held (.amenity id))
    (hrows : ∀ m : Amenity, m.id ≠ id → (m ∈ amenities ↔ m ∈ a.amenities))
    (hunused : id ∈ a.amenities.map (·.id) → id ∈ amenities.map (·.id) ∨ ∀ x ∈ a.roomAmenities, x.amenityId ≠ id) :
    Change held a { a with amenities := amenities } := by
  refine .setReference hinv hown (fun r hr => ?_) (fun hthere => (hunused hthere).imp_right fun hnone e he htarget => ?_) (fun _ => .inl Iff.rfl)
    fun m => ?_
  · cases r with
    | amenity id' => exact Table.mem_keys_iff hrows fun hid => hr (congrArg _ hid)
    | _ => exact Iff.rfl
  · obtain ⟨x, hx, hid⟩ := he.of_amenity htarget
    exact hnone x hx hid
  · by_cases hid : m.id = id
    · exact .inr (hid ▸ hown)
    · exact .inl (hrows m hid)

/-! ### Rooms -/

/-- A room is added or saved, with its amenities, by who holds it and shares what it refers to. -/
theorem Change.setRoom {rooms : List (Room n)} {roomIds : List ℕ} {roomAmenities : List (RoomAmenity n)} (id : ℕ)
    (hinv : RoomsInv { a with rooms := rooms, roomIds := roomIds, roomAmenities := roomAmenities }) (hown : Owns held (.room id))
    (hrows : ∀ r : Room n, r.id ≠ id → (r ∈ rooms ↔ r ∈ a.rooms)) (hgiven : ∀ id', id' ≠ id → (id' ∈ roomIds ↔ id' ∈ a.roomIds))
    (hothers : ∀ id', id' ≠ id → roomAmenities.filter (·.roomId = id') = a.roomAmenities.filter (·.roomId = id'))
    (hthere : id ∈ rooms.map (·.id))
    (htype : ∀ r ∈ rooms, r.id = id → (.roomType r.roomTypeId, r.trx) ∈ held ∧ a.Has (.roomType r.roomTypeId))
    (hassigned : ∀ x ∈ roomAmenities, x.roomId = id → x ∈ a.roomAmenities ∨ (.amenity x.amenityId, x.trx) ∈ held ∧ a.Has (.amenity x.amenityId)) :
    Change held a { a with rooms := rooms, roomIds := roomIds, roomAmenities := roomAmenities } := by
  have hother : ∀ x ∈ roomAmenities, x.roomId ≠ id → x ∈ a.roomAmenities := by
    intro x hx hne
    have hmem : x ∈ roomAmenities.filter (·.roomId = x.roomId) := List.mem_filter.2 ⟨hx, decide_eq_true rfl⟩
    rw [hothers _ hne] at hmem
    exact (List.mem_filter.1 hmem).1
  refine ⟨fun row hrow => ?_, fun row hrow => ?_, fun e he => ?_, hinv, fun _ => .inl Iff.rfl, fun _ => .inl Iff.rfl, fun id' => ?_⟩
  · cases row with
    | room id' =>
      by_cases hid : id' = id
      · exact .inr (hid ▸ hown)
      · exact .inl ((Table.mem_keys_iff hrows hid).1 hrow)
    | _ => exact .inl hrow
  · cases row with
    | room id' =>
      by_cases hid : id' = id
      · exact .inl (hid ▸ hthere)
      · exact .inl ((Table.mem_keys_iff hrows hid).2 hrow)
    | _ => exact .inl hrow
  · cases he with
    | @roomType r hr =>
      by_cases hid : r.id = id
      · obtain ⟨hheld, hhas⟩ := htype r hr hid
        exact .inr ⟨Reference.writtenBy_of_shared hheld, hhas⟩
      · exact .inl (.roomType ((hrows r hid).1 hr))
    | @amenity x hx =>
      by_cases hid : x.roomId = id
      · rcases hassigned x hx hid with hold | ⟨hheld, hhas⟩
        · exact .inl (.amenity hold)
        · exact .inr ⟨Reference.writtenBy_of_shared hheld, hhas⟩
      · exact .inl (.amenity (hother x hx hid))
    | @assigned x hx =>
      by_cases hid : x.roomId = id
      · exact .inr ⟨Reference.writtenBy_of_owns (hid ▸ hown), (hid ▸ hthere : x.roomId ∈ rooms.map (·.id))⟩
      · exact .inl (.assigned (hother x hx hid))
    | roomTime ht => exact .inl (.roomTime ht)
    | roomTimeUse hu => exact .inl (.roomTimeUse hu)
    | image ha hroom => exact .inl (.image ha hroom)
  · by_cases hid : id' = id
    · exact .inr (hid ▸ hown)
    · exact .inl ⟨fun r hr => hrows r (hr ▸ hid), hgiven id' hid, CatalogDb.amenityIdsOf_congr (hothers id' hid), rfl⟩

/-- The rows of a room's amenities are replaced. -/
def reassigned (rows : List (RoomAmenity n)) (c : Fin n) (roomId : ℕ) (amenityIds : List ℕ) : List (RoomAmenity n) :=
  Table.delete rows (·.roomId = roomId) ++ amenityRows c roomId amenityIds

section Reassigned

variable {rows : List (RoomAmenity n)} {c : Fin n} {roomId : ℕ} {amenityIds : List ℕ}

theorem filter_reassigned_of_ne {id : ℕ} (h : id ≠ roomId) :
    (reassigned rows c roomId amenityIds).filter (·.roomId = id) = rows.filter (·.roomId = id) := by
  have hnone : (amenityRows c roomId amenityIds).filter (·.roomId = id) = [] := by
    simp [amenityRows, List.filter_map, Function.comp_def, h.symm]
  rw [reassigned, List.filter_append, hnone, List.append_nil]
  refine Table.filter_delete fun x _ hx => ?_
  rw [of_decide_eq_true hx]
  exact decide_eq_false h

theorem filter_reassigned_self : (reassigned rows c roomId amenityIds).filter (·.roomId = roomId) = amenityRows c roomId amenityIds := by
  have hall : (amenityRows c roomId amenityIds).filter (·.roomId = roomId) = amenityRows c roomId amenityIds := by
    simp [amenityRows, List.filter_map, Function.comp_def]
  rw [reassigned, List.filter_append, hall, Table.filter_delete_eq_nil fun _ => id, List.nil_append]

theorem map_amenityRows : (amenityRows c roomId amenityIds).map (·.amenityId) = amenityIds := by
  simp [amenityRows, Function.comp_def]

theorem mem_amenityRows {x : RoomAmenity n} : x ∈ amenityRows c roomId amenityIds ↔ x.roomId = roomId ∧ x.trx = c ∧ x.amenityId ∈ amenityIds := by
  obtain ⟨r, i, t⟩ := x
  simp only [amenityRows, List.mem_map, RoomAmenity.mk.injEq]
  constructor
  · rintro ⟨i, hi, rfl, rfl, rfl⟩
    exact ⟨rfl, rfl, hi⟩
  · rintro ⟨rfl, rfl, hi⟩
    exact ⟨i, hi, rfl, rfl, rfl⟩

end Reassigned

/-- Nothing is left of a room that is removed. -/
def CatalogDb.withoutRoom (a : CatalogDb n) (id : ℕ) (tasks : List StorageCleanupTask) : CatalogDb n :=
  { a with rooms := Table.delete a.rooms (·.id = id), roomAmenities := Table.delete a.roomAmenities (·.roomId = id),
           roomTimes := Table.delete a.roomTimes (·.roomId = id),
           attachments := Table.delete a.attachments (fun x => x.objectType = .room && x.objectId = id), tasks := tasks }

/-- A room is removed by who holds it and its windows, to none of which a booking refers. -/
theorem Change.removeRoom {id : ℕ} (hinv : RoomsInv a) (tasks : List StorageCleanupTask) (hown : Owns held (.room id))
    (hwindows : ∀ t ∈ a.windowsOf id, Owns held (.roomTime t.id) ∧ ∀ u ∈ a.roomTimeUses, u.roomTimeId ≠ t.id) :
    Change held a (a.withoutRoom id tasks) := by
  have hrefers : ∀ e, (a.withoutRoom id tasks).Refers e → a.Refers e := fun e he =>
    he.of_subset Table.delete_subset Table.delete_subset Table.delete_subset (List.Subset.refl _) Table.delete_subset
  refine ⟨fun row hrow => .inl ?_, fun row hrow => ?_, fun e he => .inl (hrefers e he), ⟨?_, fun r hr => hinv.given r (Table.delete_subset hr), fun i => ?_,
    hinv.images.sublist (List.filter_sublist.map _)⟩,
    fun _ => .inl Iff.rfl, fun _ => .inl Iff.rfl, fun i => ?_⟩
  · cases row with
    | room _ => exact List.map_subset _ Table.delete_subset hrow
    | roomTime _ => exact List.map_subset _ Table.delete_subset hrow
    | _ => exact hrow
  · cases row with
    | room i =>
      by_cases hid : i = id
      · subst hid
        refine .inr ⟨hown, fun e he htarget => ?_⟩
        -- everything below the room is deleted
        rcases he.of_room htarget with ⟨x, hx, hid⟩ | ⟨t, ht, hid⟩ | ⟨x, hx, hroom, hid⟩
        · exact of_decide_eq_false (Table.mem_delete.1 hx).2 hid
        · exact of_decide_eq_false (Table.mem_delete.1 ht).2 hid
        · have hnot := (Table.mem_delete.1 hx).2
          rw [hroom, hid] at hnot
          simp at hnot
      · refine .inl ?_
        obtain ⟨r, hr, rfl⟩ := List.mem_map.1 hrow
        exact List.mem_map.2 ⟨r, Table.mem_delete.2 ⟨hr, decide_eq_false hid⟩, rfl⟩
    | roomTime i =>
      obtain ⟨t, ht, rfl⟩ := List.mem_map.1 hrow
      by_cases hid : t.roomId = id
      · obtain ⟨howned, hunused⟩ := hwindows t (List.mem_filter.2 ⟨ht, decide_eq_true hid⟩)
        refine .inr ⟨howned, fun e he htarget => ?_⟩
        obtain ⟨u, hu, hid⟩ := he.of_roomTime htarget
        exact hunused u hu hid
      · exact .inl (List.mem_map.2 ⟨t, Table.mem_delete.2 ⟨ht, decide_eq_false hid⟩, rfl⟩)
    | _ => exact .inl hrow
  · exact hinv.ids.sublist (List.filter_sublist.map _)
  · exact (hinv.amenities i).sublist ((List.filter_sublist.filter _).map _)
  · by_cases hid : i = id
    · exact .inr (hid ▸ hown)
    · refine .inl ⟨fun r hr => ?_, Iff.rfl, CatalogDb.amenityIdsOf_congr (Table.filter_delete fun x _ hx => ?_), Table.filter_delete fun x _ hx => ?_⟩
      · rw [CatalogDb.withoutRoom, Table.mem_delete, and_iff_left (decide_eq_false (hr ▸ hid))]
      · exact decide_eq_false (of_decide_eq_true hx ▸ hid)
      · simp only [Bool.and_eq_true, decide_eq_true_eq] at hx
        simp [hx.2, hid]

/-! ### Below a room -/

/-- The images of a room are changed by who holds it. -/
theorem Change.setImages {files : FilesTables} {id : ℕ} (hinv : RoomsInv a) (hown : Owns held (.room id)) (hthere : a.Has (.room id))
    (hids : (files.attachments.map (·.id)).Nodup)
    (hothers : ∀ i, i ≠ id → findRoomAttachments files.attachments i = findRoomAttachments a.attachments i) :
    Change held a { a with attachments := files.attachments, tasks := files.tasks } := by
  refine ⟨fun _ => .inl, fun _ => .inl, fun e he => ?_, ⟨hinv.ids, hinv.given, hinv.amenities, hids⟩, fun _ => .inl Iff.rfl, fun _ => .inl Iff.rfl, fun i => ?_⟩
  · cases he with
    | @image x hx hroom =>
      by_cases hid : x.objectId = id
      · exact .inr ⟨Reference.writtenBy_of_owns (hid ▸ hown), hid ▸ hthere⟩
      · have hmem : x ∈ findRoomAttachments files.attachments x.objectId := List.mem_filter.2 ⟨hx, by simp [hroom]⟩
        rw [hothers _ hid] at hmem
        exact .inl (.image (List.mem_filter.1 hmem).1 hroom)
    | roomType hr => exact .inl (.roomType hr)
    | amenity hx => exact .inl (.amenity hx)
    | assigned hx => exact .inl (.assigned hx)
    | roomTime ht => exact .inl (.roomTime ht)
    | roomTimeUse hu => exact .inl (.roomTimeUse hu)
  · by_cases hid : i = id
    · exact .inr (hid ▸ hown)
    · exact .inl ⟨fun _ _ => Iff.rfl, Iff.rfl, rfl, hothers i hid⟩

/-- A window is added by who holds it and its room. -/
theorem Change.addRoomTime {t : RoomTime} (hinv : RoomsInv a) (hown : Owns held (.roomTime t.id)) (hroom : Owns held (.room t.roomId))
    (hthere : a.Has (.room t.roomId)) : Change held a { a with roomTimes := a.roomTimes ++ [t] } := by
  refine ⟨fun row hrow => ?_, fun row hrow => .inl ?_, fun e he => ?_, ⟨hinv.ids, hinv.given, hinv.amenities, hinv.images⟩, fun _ => .inl Iff.rfl,
    fun _ => .inl Iff.rfl, fun _ => .inl ⟨fun _ _ => Iff.rfl, Iff.rfl, rfl, rfl⟩⟩
  · cases row with
    | roomTime id =>
      have hmem : id ∈ (a.roomTimes ++ [t]).map (·.id) := hrow
      rw [List.map_append, List.mem_append, List.map_singleton, List.mem_singleton] at hmem
      rcases hmem with hmem | rfl
      · exact .inl hmem
      · exact .inr hown
    | _ => exact .inl hrow
  · cases row with
    | roomTime id => exact List.map_subset _ (List.subset_append_left _ _) hrow
    | _ => exact hrow
  · cases he with
    | @roomTime u hu =>
      rcases List.mem_append.1 hu with hu | hu
      · exact .inl (.roomTime hu)
      · obtain rfl := List.mem_singleton.1 hu
        exact .inr ⟨Reference.writtenBy_of_owns hroom, hthere⟩
    | roomType hr => exact .inl (.roomType hr)
    | amenity hx => exact .inl (.amenity hx)
    | assigned hx => exact .inl (.assigned hx)
    | roomTimeUse hu => exact .inl (.roomTimeUse hu)
    | image hx h => exact .inl (.image hx h)

/-- A window to which no booking refers is removed by who holds it. -/
theorem Change.removeRoomTime {id : ℕ} (hinv : RoomsInv a) (hown : Owns held (.roomTime id)) (hunused : ∀ u ∈ a.roomTimeUses, u.roomTimeId ≠ id) :
    Change held a { a with roomTimes := Table.delete a.roomTimes (·.id = id) } := by
  refine ⟨fun row hrow => .inl ?_, fun row hrow => ?_, fun e he => .inl ?_, ⟨hinv.ids, hinv.given, hinv.amenities, hinv.images⟩, fun _ => .inl Iff.rfl,
    fun _ => .inl Iff.rfl, fun _ => .inl ⟨fun _ _ => Iff.rfl, Iff.rfl, rfl, rfl⟩⟩
  · cases row with
    | roomTime _ => exact List.map_subset _ Table.delete_subset hrow
    | _ => exact hrow
  · cases row with
    | roomTime i =>
      by_cases hid : i = id
      · subst hid
        refine .inr ⟨hown, fun e he htarget => ?_⟩
        obtain ⟨u, hu, hid⟩ := he.of_roomTime htarget
        exact hunused u hu hid
      · obtain ⟨t, ht, rfl⟩ := List.mem_map.1 hrow
        exact .inl (List.mem_map.2 ⟨t, Table.mem_delete.2 ⟨ht, decide_eq_false hid⟩, rfl⟩)
    | _ => exact .inl hrow
  · exact he.of_subset (List.Subset.refl _) (List.Subset.refl _) Table.delete_subset (List.Subset.refl _) (List.Subset.refl _)

/-- A booking refers to a window that it holds. -/
theorem Change.addRoomTimeUse {u : RoomTimeUse} (hinv : RoomsInv a) (hown : Owns held (.roomTime u.roomTimeId)) (hthere : a.Has (.roomTime u.roomTimeId)) :
    Change held a { a with roomTimeUses := a.roomTimeUses ++ [u] } := by
  refine ⟨fun _ => .inl, fun _ => .inl, fun e he => ?_, ⟨hinv.ids, hinv.given, hinv.amenities, hinv.images⟩, fun _ => .inl Iff.rfl, fun _ => .inl Iff.rfl,
    fun _ => .inl ⟨fun _ _ => Iff.rfl, Iff.rfl, rfl, rfl⟩⟩
  cases he with
  | @roomTimeUse v hv =>
    rcases List.mem_append.1 hv with hv | hv
    · exact .inl (.roomTimeUse hv)
    · obtain rfl := List.mem_singleton.1 hv
      exact .inr ⟨Reference.writtenBy_of_owns hown, hthere⟩
  | roomType hr => exact .inl (.roomType hr)
  | amenity hx => exact .inl (.amenity hx)
  | assigned hx => exact .inl (.assigned hx)
  | roomTime ht => exact .inl (.roomTime ht)
  | image hx h => exact .inl (.image hx h)

end HotelBackend.Catalog
