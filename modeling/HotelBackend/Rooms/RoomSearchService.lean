import Mathlib.Data.List.Sort
import HotelBackend.Bookings.Database

/-!
# Public room search

`RoomSearchService.search` and `get`, each a read of one snapshot: the stay range
(`room-search-policy.ts`), the filters, and availability. A room is available for a stay when one
of its active windows contains the stay and no confirmed booking in the room overlaps it; the list
asks that of the column `room.id`, the detail of a bound id. The filters by beds, view and amenity,
and what else a response shows of a room, read columns and tables that no booking reads, and are
left out.
-/

namespace HotelBackend.Rooms

open HotelBackend.Bookings

/-! ### The stay -/

/-- The dates of a public query. -/
structure RoomStayQuery where
  checkIn : Option String
  checkOut : Option String

/-- A stay `[checkIn, checkOut)`. -/
structure StayRange where
  checkIn : String
  checkOut : String
  deriving DecidableEq, Repr

/-- The errors of a public read, by their codes. -/
inductive RoomSearchError where
  | stayDateRangeIncomplete
  | stayRangeInvalid
  | priceRangeInvalid
  | roomNotFound
  | internal
  deriving DecidableEq, Repr

/-- Both dates or none; with both, the stay has a night. -/
def resolveStayRange (query : RoomStayQuery) : Except RoomSearchError (Option StayRange) :=
  match query.checkIn, query.checkOut with
  | none, none => .ok none
  | some checkIn, some checkOut => if checkOut ≤ checkIn then .error .stayRangeInvalid else .ok (some ⟨checkIn, checkOut⟩)
  | _, _ => .error .stayDateRangeIncomplete

def assertPriceRange (minPrice maxPrice : Option ℕ) : Except RoomSearchError Unit :=
  match minPrice, maxPrice with
  | some least, some most => if most < least then .error .priceRangeInvalid else .ok ()
  | _, _ => .ok ()

/-! ### Availability -/

/-- `booking-overlap.ts`: a confirmed booking shares a night with the stay. -/
def confirmedOverlapCondition (b : Booking) (stay : StayRange) : Bool :=
  b.status = .confirmed && b.checkIn < stay.checkOut && stay.checkIn < b.checkOut

/-- No confirmed booking in a window of the room overlaps the stay. -/
def confirmedOverlapExclusion (db : Db) (roomId : ℕ) (stay : StayRange) : Bool :=
  !db.bookings.any fun blocking =>
    db.roomTimes.any (fun blockingWindow => blockingWindow.id = blocking.roomTimeId ∧ blockingWindow.roomId = roomId) &&
      confirmedOverlapCondition blocking stay

def stayContainmentCondition (window : RoomTime) (stay : StayRange) : Bool :=
  window.status = .active && window.availableFrom ≤ stay.checkIn && stay.checkOut ≤ window.availableTo

/-- The filter of the list. -/
def applyStayContainment (db : Db) (stay : StayRange) (rooms : List Room) : List Room :=
  (rooms.filter fun room => db.roomTimes.any fun window => window.roomId = room.id && stayContainmentCondition window stay).filter
    fun room => confirmedOverlapExclusion db room.id stay

/-- The question of the detail: a row that matches all conditions exists. -/
def isAvailableForStay (db : Db) (roomId : ℕ) (stay : StayRange) : Bool :=
  db.roomTimes.any fun window =>
    window.roomId = roomId && stayContainmentCondition window stay && confirmedOverlapExclusion db roomId stay

/-! ### Responses -/

/-- A room as the public sees it. -/
structure PublicRoomResponse where
  id : ℕ
  roomType : RoomType
  basePriceAmount : ℕ
  currency : String
  available : Option Bool
  deriving DecidableEq, Repr

def toPublicRoomResponse (room : Room) (roomType : RoomType) (available : Option Bool) : PublicRoomResponse :=
  ⟨room.id, roomType, room.basePriceAmount, room.currency, available⟩

/-- The page of a list. -/
structure PaginatedPublicRooms where
  items : List PublicRoomResponse
  page : ℕ
  pageSize : ℕ
  total : ℕ
  deriving DecidableEq, Repr

/-! ### The service -/

/-- The query of the list. -/
structure SearchRoomsQuery extends RoomStayQuery where
  roomTypeId : Option ℕ := none
  currency : Option String := none
  minPrice : Option ℕ := none
  maxPrice : Option ℕ := none
  page : ℕ
  pageSize : ℕ

namespace RoomSearchService

def applyRoomAttributeFilters (query : SearchRoomsQuery) (rooms : List Room) : List Room :=
  match query.roomTypeId with
  | some roomTypeId => rooms.filter (·.roomTypeId = roomTypeId)
  | none => rooms

def applyPriceFilters (query : SearchRoomsQuery) (rooms : List Room) : List Room :=
  rooms.filter fun room => query.currency.all (room.currency = ·) && query.minPrice.all (· ≤ room.basePriceAmount) &&
    query.maxPrice.all (room.basePriceAmount ≤ ·)

/-- The rooms a query selects, each with its type (an inner join). -/
def buildSearchQuery (db : Db) (query : SearchRoomsQuery) (stay : Option StayRange) : List (Room × RoomType) :=
  let active := db.rooms.filter (·.status = .active)
  let filtered := applyPriceFilters query (applyRoomAttributeFilters query active)
  let rooms := match stay with
    | some stay => applyStayContainment db stay filtered
    | none => filtered
  rooms.filterMap fun room => (db.roomTypes.find? (·.id = room.roomTypeId)).map fun roomType => (room, roomType)

/-- One page, by id, and the number of rooms selected. -/
def search (db : Db) (query : SearchRoomsQuery) : Except RoomSearchError PaginatedPublicRooms := do
  let stay ← resolveStayRange query.toRoomStayQuery
  assertPriceRange query.minPrice query.maxPrice
  let rows := (buildSearchQuery db query stay).insertionSort fun r r' => r.1.id ≤ r'.1.id
  let page := (rows.drop ((query.page - 1) * query.pageSize)).take query.pageSize
  -- a room that is returned satisfies the filter already
  pure ⟨page.map fun row => toPublicRoomResponse row.1 row.2 (stay.map fun _ => true), query.page, query.pageSize, rows.length⟩

def get (db : Db) (roomId : ℕ) (query : RoomStayQuery) : Except RoomSearchError PublicRoomResponse := do
  let stay ← resolveStayRange query
  match db.rooms.find? fun room => room.id = roomId ∧ room.status = .active with
  | none => .error .roomNotFound
  | some room =>
    match db.roomTypes.find? (·.id = room.roomTypeId) with
    | none => .error .internal
    | some roomType => pure (toPublicRoomResponse room roomType (stay.map fun stay => isAvailableForStay db room.id stay))

end RoomSearchService

/-! ### The list and the detail agree -/

section Agreement

variable {db : Db} {stay : StayRange}

/-- An active window of the room contains the stay. -/
def HasWindow (db : Db) (roomId : ℕ) (stay : StayRange) : Prop :=
  ∃ t ∈ db.roomTimes, t.roomId = roomId ∧ t.status = .active ∧ t.covers stay.checkIn stay.checkOut

/-- No confirmed booking in the room overlaps the stay. -/
def NotTaken (db : Db) (roomId : ℕ) (stay : StayRange) : Prop :=
  ∀ b ∈ db.bookings, b.status = .confirmed → (∃ t ∈ db.roomTimes, t.id = b.roomTimeId ∧ t.roomId = roomId) →
    ¬ overlaps b.checkIn b.checkOut stay.checkIn stay.checkOut

theorem confirmedOverlapExclusion_iff {roomId : ℕ} : confirmedOverlapExclusion db roomId stay = true ↔ NotTaken db roomId stay := by
  simp only [confirmedOverlapExclusion, confirmedOverlapCondition, NotTaken, overlaps, Bool.not_eq_true', List.any_eq_false,
    Bool.and_eq_true, List.any_eq_true, decide_eq_true_eq]
  constructor
  · rintro h b hb hconf hroom ⟨hin, hout⟩
    exact h b hb ⟨hroom, ⟨hconf, hin⟩, hout⟩
  · rintro h b hb ⟨hroom, ⟨hconf, hin⟩, hout⟩
    exact h b hb hconf hroom ⟨hin, hout⟩

theorem stayContainmentCondition_iff {t : RoomTime} :
    stayContainmentCondition t stay = true ↔ t.status = .active ∧ t.covers stay.checkIn stay.checkOut := by
  simp only [stayContainmentCondition, RoomTime.covers, Bool.and_eq_true, decide_eq_true_eq, and_assoc]

theorem isAvailableForStay_iff {roomId : ℕ} :
    isAvailableForStay db roomId stay = true ↔ HasWindow db roomId stay ∧ NotTaken db roomId stay := by
  simp only [isAvailableForStay, List.any_eq_true, Bool.and_eq_true, decide_eq_true_eq, stayContainmentCondition_iff,
    confirmedOverlapExclusion_iff, HasWindow]
  constructor
  · rintro ⟨t, ht, ⟨hroom, hcontains⟩, hfree⟩
    exact ⟨⟨t, ht, hroom, hcontains⟩, hfree⟩
  · rintro ⟨⟨t, ht, hroom, hcontains⟩, hfree⟩
    exact ⟨t, ht, ⟨hroom, hcontains⟩, hfree⟩

theorem mem_applyStayContainment {rooms : List Room} {room : Room} :
    room ∈ applyStayContainment db stay rooms ↔ room ∈ rooms ∧ isAvailableForStay db room.id stay = true := by
  simp only [applyStayContainment, List.mem_filter, List.any_eq_true, Bool.and_eq_true, decide_eq_true_eq, stayContainmentCondition_iff,
    confirmedOverlapExclusion_iff, isAvailableForStay_iff, HasWindow, and_assoc]

end Agreement

end HotelBackend.Rooms
