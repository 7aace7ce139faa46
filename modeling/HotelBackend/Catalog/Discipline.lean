import HotelBackend.Theory.Views
import HotelBackend.Catalog.Services

/-!
# What the transactions of the catalogue agree on

Two disciplines at once. Under `references`, whatever refers to a row of the catalogue has it: a room its
type, an assignment its room and its amenity, a window or an image its room, a booking its window. No
foreign key is behind that except the one that a delete of a room asks; the rest are the locks of the
services. Under `rowsDiscipline` a room that is held stays as it is, with everything below it, and so do
room types and amenities.

`Change` is what both allow a transaction to commit. What each kind of write does is shown to be one.
-/

namespace HotelBackend.Catalog

open HotelBackend.Theory
open HotelBackend.Theory.Transactions
open HotelBackend.Rooms (RoomStatus RoomTime RoomTimeStatus)
open HotelBackend.Files

variable {n : ℕ}

/-! ### References -/

/-- The row is there. -/
def CatalogDb.Has (db : CatalogDb n) : CatalogRow → Prop
  | .roomType id => id ∈ db.roomTypes.map (·.id)
  | .amenity id => id ∈ db.amenities.map (·.id)
  | .room id => id ∈ db.rooms.map (·.id)
  | .roomTime id => id ∈ db.roomTimes.map (·.id)
  | _ => False

/-- What refers to what. -/
inductive CatalogDb.Refers (db : CatalogDb n) : Reference CatalogRow n → Prop where
  | roomType {r : Room n} : r ∈ db.rooms → Refers db ⟨.roomType r.roomTypeId, .room r.id, some r.trx⟩
  | amenity {a : RoomAmenity n} : a ∈ db.roomAmenities → Refers db ⟨.amenity a.amenityId, .roomAmenity a.roomId a.amenityId, some a.trx⟩
  | assigned {a : RoomAmenity n} : a ∈ db.roomAmenities → Refers db ⟨.room a.roomId, .roomAmenity a.roomId a.amenityId, none⟩
  | roomTime {t : RoomTime} : t ∈ db.roomTimes → Refers db ⟨.room t.roomId, .roomTime t.id, none⟩
  | roomTimeUse {u : RoomTimeUse} : u ∈ db.roomTimeUses → Refers db ⟨.roomTime u.roomTimeId, .roomTimeUse u.id, none⟩
  | image {a : Attachment} : a ∈ db.attachments → a.objectType = .room → Refers db ⟨.room a.objectId, .attachment a.id, none⟩

/-- The rows of the catalogue, and the references to them. -/
def CatalogDb.referring (db : CatalogDb n) : Referring CatalogRow n := ⟨{r | db.Has r}, {e | db.Refers e}⟩

/-- Where nothing new refers. -/
theorem CatalogDb.Refers.of_subset {a b : CatalogDb n} {e : Reference CatalogRow n} (h : b.Refers e) (hrooms : b.rooms ⊆ a.rooms)
    (hassigned : b.roomAmenities ⊆ a.roomAmenities) (htimes : b.roomTimes ⊆ a.roomTimes) (huses : b.roomTimeUses ⊆ a.roomTimeUses)
    (himages : b.attachments ⊆ a.attachments) : a.Refers e := by
  cases h with
  | roomType hr => exact .roomType (hrooms hr)
  | amenity ha => exact .amenity (hassigned ha)
  | assigned ha => exact .assigned (hassigned ha)
  | roomTime ht => exact .roomTime (htimes ht)
  | roomTimeUse hu => exact .roomTimeUse (huses hu)
  | image ha hroom => exact .image (himages ha) hroom

/-- A room refers to a room type. -/
theorem CatalogDb.Refers.of_roomType {a : CatalogDb n} {e : Reference CatalogRow n} (h : a.Refers e) {id : ℕ} (he : e.target = .roomType id) :
    ∃ r ∈ a.rooms, r.roomTypeId = id := by
  cases h with
  | roomType hr =>
    injection he with he
    exact ⟨_, hr, he⟩
  | _ => cases he

/-- An assignment refers to an amenity. -/
theorem CatalogDb.Refers.of_amenity {a : CatalogDb n} {e : Reference CatalogRow n} (h : a.Refers e) {id : ℕ} (he : e.target = .amenity id) :
    ∃ x ∈ a.roomAmenities, x.amenityId = id := by
  cases h with
  | amenity hx =>
    injection he with he
    exact ⟨_, hx, he⟩
  | _ => cases he

/-- A booking refers to a window. -/
theorem CatalogDb.Refers.of_roomTime {a : CatalogDb n} {e : Reference CatalogRow n} (h : a.Refers e) {id : ℕ} (he : e.target = .roomTime id) :
    ∃ u ∈ a.roomTimeUses, u.roomTimeId = id := by
  cases h with
  | roomTimeUse hu =>
    injection he with he
    exact ⟨_, hu, he⟩
  | _ => cases he

/-- A window refers to its room. -/
theorem CatalogDb.Refers.of_window {a : CatalogDb n} {row : CatalogRow} {id : ℕ} (h : a.Refers ⟨row, .roomTime id, none⟩) :
    ∃ t ∈ a.roomTimes, t.id = id ∧ row = .room t.roomId := by
  cases h with
  | roomTime ht => exact ⟨_, ht, rfl, rfl⟩

/-- An assignment, a window or an image refers to a room. -/
theorem CatalogDb.Refers.of_room {a : CatalogDb n} {e : Reference CatalogRow n} (h : a.Refers e) {id : ℕ} (he : e.target = .room id) :
    (∃ x ∈ a.roomAmenities, x.roomId = id) ∨ (∃ t ∈ a.roomTimes, t.roomId = id) ∨ ∃ x ∈ a.attachments, x.objectType = .room ∧ x.objectId = id := by
  cases h with
  | assigned hx =>
    injection he with he
    exact .inl ⟨_, hx, he⟩
  | roomTime ht =>
    injection he with he
    exact .inr (.inl ⟨_, ht, he⟩)
  | image hx hroom =>
    injection he with he
    exact .inr (.inr ⟨_, hx, hroom, he⟩)
  | _ => cases he

/-! ### Rows -/

/-- The amenities of a room, by id. -/
def CatalogDb.amenityIdsOf (db : CatalogDb n) (roomId : ℕ) : List ℕ := (db.roomAmenities.filter (·.roomId = roomId)).map (·.amenityId)

theorem CatalogDb.amenityIdsOf_congr {a b : CatalogDb n} {roomId : ℕ}
    (h : b.roomAmenities.filter (·.roomId = roomId) = a.roomAmenities.filter (·.roomId = roomId)) : b.amenityIdsOf roomId = a.amenityIdsOf roomId := by
  rw [amenityIdsOf, amenityIdsOf, h]

/-- The images of a room. -/
def CatalogDb.imagesOf (db : CatalogDb n) (roomId : ℕ) : List Attachment := findRoomAttachments db.attachments roomId

/-- The rooms have different ids, which were given to them, and an amenity at most once; the images have different ids. -/
structure RoomsInv (db : CatalogDb n) : Prop where
  ids : (db.rooms.map (·.id)).Nodup
  given : ∀ r ∈ db.rooms, r.id ∈ db.roomIds
  amenities : ∀ roomId, (db.amenityIdsOf roomId).Nodup
  images : (db.attachments.map (·.id)).Nodup

/-- What a transaction that does not hold the room leaves as it is. -/
structure KeepsRoom (id : ℕ) (a b : CatalogDb n) : Prop where
  row : ∀ r : Room n, r.id = id → (r ∈ b.rooms ↔ r ∈ a.rooms)
  given : id ∈ b.roomIds ↔ id ∈ a.roomIds
  amenities : b.amenityIdsOf id = a.amenityIdsOf id
  images : b.imagesOf id = a.imagesOf id

theorem KeepsRoom.refl (id : ℕ) (a : CatalogDb n) : KeepsRoom id a a := ⟨fun _ _ => Iff.rfl, Iff.rfl, rfl, rfl⟩

theorem KeepsRoom.trans {id : ℕ} {a b c : CatalogDb n} (hab : KeepsRoom id a b) (hbc : KeepsRoom id b c) : KeepsRoom id a c :=
  ⟨fun r hr => (hbc.row r hr).trans (hab.row r hr), hbc.given.trans hab.given, hbc.amenities.trans hab.amenities, hbc.images.trans hab.images⟩

/-- Room types, amenities and rooms that are held stay as they are. -/
def rowsDiscipline (n : ℕ) : Discipline (CatalogDb n) (CatalogRow × Fin n) where
  Inv := RoomsInv
  Keeps
    | (.roomType id, _), a, b => ∀ t : RoomType, t.id = id → (t ∈ b.roomTypes ↔ t ∈ a.roomTypes)
    | (.amenity id, _), a, b => ∀ m : Amenity, m.id = id → (m ∈ b.amenities ↔ m ∈ a.amenities)
    | (.room id, _), a, b => KeepsRoom id a b
    | _, _, _ => True
  refl k db := by
    obtain ⟨row, _⟩ := k
    cases row with
    | roomType id => exact fun _ _ => Iff.rfl
    | amenity id => exact fun _ _ => Iff.rfl
    | room id => exact .refl id db
    | _ => trivial
  trans k a b c hab hbc := by
    obtain ⟨row, _⟩ := k
    cases row with
    | roomType id => exact fun t ht => (hbc t ht).trans (hab t ht)
    | amenity id => exact fun m hm => (hbc m hm).trans (hab m hm)
    | room id => exact KeepsRoom.trans hab hbc
    | _ => trivial

/-- What the transactions of the catalogue agree on. -/
def catalogDiscipline (n : ℕ) : Discipline (CatalogDb n) (CatalogRow × Fin n) :=
  ((references CatalogRow n).comap CatalogDb.referring).both (rowsDiscipline n)

/-- A transaction of the catalogue in the middle of its run. -/
abbrev CatalogMid (n : ℕ) := Local (CatalogDb n) (CatalogRow × Fin n)

section Rely

variable {held : Set (CatalogRow × Fin n)} {a b : CatalogDb n}

theorem has_of_refers (h : (catalogDiscipline n).Inv a) {e : Reference CatalogRow n} (he : a.Refers e) : a.Has e.target := h.1 e he

theorem has_iff_of_rely (h : (catalogDiscipline n).Rely held a b) {row : CatalogRow} {c : Fin n} (hk : (row, c) ∈ held) :
    b.Has row ↔ a.Has row :=
  (h.2 _ hk).1.1

theorem refers_of_rely (h : (catalogDiscipline n).Rely held a b) (c : Fin n) {e : Reference CatalogRow n} (hown : Owns held e.target)
    (he : b.Refers e) : a.Refers e :=
  reference_of_rely (a := a.referring) (b := b.referring) h.fst c hown he

theorem roomType_iff_of_rely (h : (catalogDiscipline n).Rely held a b) {t : RoomType} {c : Fin n} (hk : (.roomType t.id, c) ∈ held) :
    t ∈ b.roomTypes ↔ t ∈ a.roomTypes :=
  (h.2 _ hk).2 t rfl

theorem amenity_iff_of_rely (h : (catalogDiscipline n).Rely held a b) {m : Amenity} {c : Fin n} (hk : (.amenity m.id, c) ∈ held) :
    m ∈ b.amenities ↔ m ∈ a.amenities :=
  (h.2 _ hk).2 m rfl

theorem keepsRoom_of_rely (h : (catalogDiscipline n).Rely held a b) {id : ℕ} {c : Fin n} (hk : (.room id, c) ∈ held) : KeepsRoom id a b :=
  (h.2 _ hk).2

end Rely

/-! ### Changes -/

/-- What a transaction that holds `held` may commit. -/
structure Change (held : Set (CatalogRow × Fin n)) (a b : CatalogDb n) : Prop where
  added : ∀ row, b.Has row → a.Has row ∨ Owns held row
  removed : ∀ row, a.Has row → b.Has row ∨ Owns held row ∧ ∀ e, b.Refers e → e.target ≠ row
  written : ∀ e, b.Refers e → a.Refers e ∨ e.WrittenBy held ∧ b.Has e.target
  inv : RoomsInv b
  roomTypes : ∀ t : RoomType, (t ∈ b.roomTypes ↔ t ∈ a.roomTypes) ∨ Owns held (.roomType t.id)
  amenities : ∀ m : Amenity, (m ∈ b.amenities ↔ m ∈ a.amenities) ∨ Owns held (.amenity m.id)
  rooms : ∀ id, KeepsRoom id a b ∨ Owns held (.room id)

/-- A transaction may commit a change, and what it promises of it. -/
theorem ensures_of_change {α : Type} {G : α → CatalogDb n → CatalogDb n → Prop} {x : α} {l : CatalogMid n}
    (hchange : ∀ db, (catalogDiscipline n).Rely l.held l.db db → Change l.held db (l.pend db))
    (hG : ∀ db, (catalogDiscipline n).Rely l.held l.db db → G x db (l.pend db)) : (catalogDiscipline n).Ensures G x l := by
  refine Discipline.ensures_both (fun db hr => ?_) (fun db hr => ⟨(hchange db hr).inv, fun k hk => ?_⟩) hG
  · have h := hchange db hr
    exact commit_references (a := db.referring) (b := (l.pend db).referring) hr.1.1 h.added h.removed h.written
  · have h := hchange db hr
    obtain ⟨row, c⟩ := k
    cases row with
    | roomType id =>
      rintro t rfl
      exact (h.roomTypes t).resolve_right fun hown => hk (hown c)
    | amenity id =>
      rintro m rfl
      exact (h.amenities m).resolve_right fun hown => hk (hown c)
    | room id => exact (h.rooms id).resolve_right fun hown => hk (hown c)
    | _ => trivial

end HotelBackend.Catalog
