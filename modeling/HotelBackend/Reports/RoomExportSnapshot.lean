import HotelBackend.Bookings.LifecyclePayload
import HotelBackend.Common.JsonStringify
import HotelBackend.Common.Strings
import HotelBackend.Reports.ExportJobs
import HotelBackend.Rooms.Entities
import HotelBackend.Theory.Keyset

/-!
# The snapshot of a room export

`RoomExportSnapshotRepository.readPages`: one consistent read of the rooms that pass the filters, in pages by
room id, each joined with its amenities, under a cap on the rows and one on their characters. It reads what
one query without a limit would, or throws (`readPages_unpaged`).
-/

namespace HotelBackend.Reports

open HotelBackend.Common
open HotelBackend.Theory
open HotelBackend.Rooms
open HotelBackend.Bookings (isStorableYear)

/-! ### The catalogue -/

/-- How the database and the engine compare texts. -/
structure Collation where
  /-- `value LIKE pattern ESCAPE '\\'` -/
  like : String → String → Bool
  equal : String → String → Bool
  /-- `LOWER(value)` -/
  lower : String → String
  /-- `value.toLowerCase()` -/
  toLowerCase : String → String
  /-- The order of `ORDER BY`. -/
  le : String → String → Bool
  le_total : ∀ a b, le a b = true ∨ le b a = true
  le_trans : ∀ a b c, le a b = true → le b c = true → le a c = true

/-- A row of `rooms`. The instants are in milliseconds. -/
structure CatalogueRoom where
  id : ℕ
  roomTypeId : ℕ
  roomNumber : String
  bedCount : ℕ
  viewCode : Option String
  basePriceAmount : ℕ
  currency : String
  status : RoomStatus
  version : ℕ
  createdAt : ℤ
  updatedAt : ℤ

structure Amenity where
  id : ℕ
  code : String
  name : String
  deriving DecidableEq, Repr

structure RoomAmenity where
  roomId : ℕ
  amenityId : ℕ

/-- The tables a snapshot reads, with the keys and checks it depends on. -/
structure RoomCatalogue (sql : Collation) where
  rooms : List CatalogueRoom
  roomTypes : List RoomType
  amenities : List Amenity
  roomAmenities : List RoomAmenity
  roomIds : (rooms.map (·.id)).Nodup
  roomTypeIds : (roomTypes.map (·.id)).Nodup
  /-- `uq_amenities_code` -/
  amenityCodes : ∀ a ∈ amenities, ∀ b ∈ amenities, sql.le a.code b.code = true → sql.le b.code a.code = true → a = b
  /-- `chk_rooms_bed_count` -/
  bedCounts : ∀ room ∈ rooms, 1 ≤ room.bedCount ∧ room.bedCount ≤ 20
  /-- The years of a `DATETIME`. -/
  instants : ∀ room ∈ rooms, isStorableYear (yearFromDay (room.createdAt / 86400000)) = true ∧
    isStorableYear (yearFromDay (room.updatedAt / 86400000)) = true

structure RoomExportFilters where
  query : Option String
  status : Option RoomStatus
  roomTypeId : Option String
  beds : Option ℕ
  view : Option String

/-- `value.replace(/[\\%_]/g, '\\$&')` -/
def escapeLike (value : String) : String := String.ofList (value.toList.flatMap fun c => if c ∈ ['\\', '%', '_'] then ['\\', c] else [c])

/-- A condition that is left out where its filter is. -/
def whenGiven {α : Type} (filter : Option α) (condition : α → Bool) : Bool := filter.all condition

/-- An empty text is no filter. -/
def truthy (text : Option String) : Option String := text.filter (· ≠ "")

def applyRoomAttributeFilters (sql : Collation) (filters : RoomExportFilters) (room : CatalogueRoom) : Bool :=
  whenGiven (truthy filters.roomTypeId) (fun id => digitsValue id.toList = room.roomTypeId) &&
    whenGiven filters.beds (fun beds => room.bedCount = beds) &&
    whenGiven (truthy filters.view) (fun view => room.viewCode.any fun code => sql.equal code view)

def applyRoomCatalogFilters (sql : Collation) (filters : RoomExportFilters) (room : CatalogueRoom) (roomType : RoomType) : Bool :=
  whenGiven (truthy (filters.query.map jsTrim)) (fun term =>
      let pattern := "%" ++ escapeLike (sql.toLowerCase term) ++ "%"
      sql.like (sql.lower room.roomNumber) pattern || sql.like (sql.lower roomType.name) pattern) &&
    whenGiven filters.status (fun status => room.status = status) &&
    applyRoomAttributeFilters sql filters room

/-! ### The read -/

structure SnapshotAmenity where
  code : String
  name : String
  deriving DecidableEq, Repr

/-- A row of the snapshot. -/
structure RoomSnapshotRow where
  id : String
  roomNumber : String
  roomTypeName : String
  bedCount : ℕ
  viewCode : Option String
  basePriceAmount : String
  currency : String
  status : String
  version : String
  createdAt : ℤ
  updatedAt : ℤ
  amenities : List SnapshotAmenity
  deriving DecidableEq, Repr

structure RoomExportSnapshot where
  rows : List RoomSnapshotRow
  characters : ℕ
  deriving DecidableEq, Repr

structure SnapshotLimits where
  maxRows : ℕ
  maxSnapshotChars : ℕ
  queryPageSize : ℕ

/-- `roomExportErrors.rowLimitExceeded` -/
def rowLimitExceeded : RoomExportError := .application "EXPORT_ROW_LIMIT_EXCEEDED"

/-- `roomExportErrors.snapshotTooLarge` -/
def snapshotTooLarge : RoomExportError := .application "EXPORT_SNAPSHOT_TOO_LARGE"

def statusText : RoomStatus → String
  | .active => "ACTIVE"
  | .inactive => "INACTIVE"
  | .maintenance => "MAINTENANCE"

/-- `2026-09-17T08:00:00.000Z` -/
def isoTimestampLength : ℕ := 24

/-- `CODE - Name` plus the `; ` that joins it to the next entry. -/
def amenitySeparatorLength : ℕ := 5

/-- The characters this row will put in cells, counted before it becomes one. -/
def countRowCharacters (row : RoomSnapshotRow) : ℕ :=
  utf16Length row.id + utf16Length row.roomNumber + utf16Length row.roomTypeName + utf16Length (row.viewCode.getD "") +
    utf16Length row.basePriceAmount + utf16Length row.currency + utf16Length row.status + utf16Length row.version +
    isoTimestampLength * 2 +
    (row.amenities.map fun amenity => utf16Length amenity.code + utf16Length amenity.name + amenitySeparatorLength).sum

section Read

variable {sql : Collation} (catalogue : RoomCatalogue sql)

/-- Rooms with their types. -/
def joinRoomType : List (CatalogueRoom × RoomType) :=
  catalogue.rooms.flatMap fun room => (catalogue.roomTypes.filter (·.id = room.roomTypeId)).map fun roomType => (room, roomType)

/-- The rows that pass the filters. -/
def matching (filters : RoomExportFilters) : List (CatalogueRoom × RoomType) :=
  (joinRoomType catalogue).filter fun row => applyRoomCatalogFilters sql filters row.1 row.2

/-- The columns of a row that are selected; its amenities come later. -/
def selectRow (row : CatalogueRoom × RoomType) : RoomSnapshotRow where
  id := toString row.1.id
  roomNumber := row.1.roomNumber
  roomTypeName := row.2.name
  bedCount := row.1.bedCount
  viewCode := row.1.viewCode
  basePriceAmount := toString row.1.basePriceAmount
  currency := row.1.currency
  status := statusText row.1.status
  version := toString row.1.version
  createdAt := row.1.createdAt
  updatedAt := row.1.updatedAt
  amenities := []

def readPage (filters : RoomExportFilters) (queryPageSize : ℕ) (after : Option String) : List RoomSnapshotRow :=
  (Keyset.page (·.1.id) (matching catalogue filters) queryPageSize (after.map (digitsValue ·.toList))).map selectRow

/-- Entries of rooms, joined with their amenities. -/
def joinAmenities (entries : List RoomAmenity) : List (ℕ × Amenity) :=
  entries.flatMap fun entry => (catalogue.amenities.filter (·.id = entry.amenityId)).map fun amenity => (entry.roomId, amenity)

/-- `ORDER BY ra.room_id ASC, a.code ASC` -/
def byRoomAndCode (sql : Collation) (a b : ℕ × Amenity) : Prop := a.1 < b.1 ∨ (a.1 = b.1 ∧ sql.le a.2.code b.2.code = true)

instance (a b : ℕ × Amenity) : Decidable (byRoomAndCode sql a b) := inferInstanceAs (Decidable (_ ∨ _))

/-- `byRoom.set(roomId, […(byRoom.get(roomId) ?? []), amenity])` -/
def pushAmenity (byRoom : String → Option (List SnapshotAmenity)) (row : ℕ × Amenity) : String → Option (List SnapshotAmenity) :=
  Function.update byRoom (toString row.1) (some ((byRoom (toString row.1)).getD [] ++ [⟨row.2.code, row.2.name⟩]))

def readAmenities (roomIds : List String) : String → Option (List SnapshotAmenity) :=
  let entries := catalogue.roomAmenities.filter fun entry => roomIds.any fun id => digitsValue id.toList = entry.roomId
  ((joinAmenities catalogue entries).insertionSort (byRoomAndCode sql)).foldl pushAmenity fun _ => none

/-- A room of the page, with both caps. -/
def addRow (limits : SnapshotLimits) (amenities : String → Option (List SnapshotAmenity)) (snapshot : RoomExportSnapshot) (room : RoomSnapshotRow) :
    Except RoomExportError RoomExportSnapshot :=
  let row := { room with amenities := (amenities room.id).getD [] }
  let rows := snapshot.rows ++ [row]
  let characters := snapshot.characters + countRowCharacters row
  if limits.maxRows < rows.length then .error rowLimitExceeded
  else if limits.maxSnapshotChars < characters then .error snapshotTooLarge
  else .ok ⟨rows, characters⟩

/-- The loop; `none` is a read that is not over yet. -/
def readPages (limits : SnapshotLimits) (filters : RoomExportFilters) : ℕ → Option String → RoomExportSnapshot →
    Option (Except RoomExportError RoomExportSnapshot)
  | 0, _, _ => none
  | fuel + 1, after, snapshot =>
    let page := readPage catalogue filters limits.queryPageSize after
    match page.getLast? with
    | none => some (.ok snapshot)
    | some last =>
      match page.foldlM (addRow limits (readAmenities catalogue (page.map (·.id)))) snapshot with
      | .error e => some (.error e)
      | .ok snapshot =>
        if page.length < limits.queryPageSize then some (.ok snapshot) else readPages limits filters fuel (some last.id) snapshot

end Read

/-! ### Amenities -/

section Amenities

variable {sql : Collation} (catalogue : RoomCatalogue sql)

/-- The amenities of a room, in the order of their codes. -/
def ownAmenities (roomId : ℕ) : List SnapshotAmenity :=
  (((joinAmenities catalogue (catalogue.roomAmenities.filter (·.roomId = roomId))).map (·.2)).insertionSort
    fun a b => sql.le a.code b.code = true).map fun amenity => ⟨amenity.code, amenity.name⟩

/-- The row of a room, read by itself. -/
def snapshotRow (row : CatalogueRoom × RoomType) : RoomSnapshotRow :=
  { selectRow row with amenities := ownAmenities catalogue row.1.id }

variable {catalogue} {ids : List String} {roomId : ℕ}

theorem digitsValue_toString (n : ℕ) : digitsValue (toString n).toList = n := by
  rw [Nat.toString_eq_repr, Nat.toList_repr, digitsValue_toDigits]

/-- What the map holds of a room: its rows, in the order they were pushed. -/
theorem foldl_pushAmenity (rows : List (ℕ × Amenity)) (byRoom : String → Option (List SnapshotAmenity)) (roomId : ℕ) :
    ((rows.foldl pushAmenity byRoom) (toString roomId)).getD [] =
      (byRoom (toString roomId)).getD [] ++ (rows.filter (·.1 = roomId)).map fun row => ⟨row.2.code, row.2.name⟩ := by
  induction rows generalizing byRoom with
  | nil => simp
  | cons row rows ih =>
    rw [List.foldl_cons, ih, pushAmenity, List.filter_cons]
    by_cases hroom : row.1 = roomId
    · rw [hroom, Function.update_self, if_pos (decide_eq_true rfl)]
      simp
    · have hne : toString roomId ≠ toString row.1 := fun heq => hroom (toString_injective heq).symm
      rw [Function.update_of_ne hne, if_neg (by simpa using hroom)]

/-- The entries of a room among those of a page. -/
theorem joinAmenities_filter (hid : toString roomId ∈ ids) :
    (joinAmenities catalogue (catalogue.roomAmenities.filter fun entry => ids.any fun id => digitsValue id.toList = entry.roomId)).filter
      (·.1 = roomId) = joinAmenities catalogue (catalogue.roomAmenities.filter (·.roomId = roomId)) := by
  unfold joinAmenities
  induction catalogue.roomAmenities with
  | nil => rfl
  | cons entry entries ih =>
    by_cases hroom : entry.roomId = roomId
    · have hany : (ids.any fun id => digitsValue id.toList = entry.roomId) = true :=
        List.any_eq_true.2 ⟨_, hid, decide_eq_true (hroom ▸ digitsValue_toString roomId)⟩
      rw [List.filter_cons, if_pos hany, List.filter_cons, if_pos (decide_eq_true hroom), List.flatMap_cons, List.flatMap_cons,
        List.filter_append, ih, List.filter_eq_self.2]
      intro row hrow
      obtain ⟨amenity, -, rfl⟩ := List.mem_map.1 hrow
      exact decide_eq_true hroom
    · have hother : ¬ decide (entry.roomId = roomId) = true := by simpa using hroom
      rw [List.filter_cons (p := fun entry : RoomAmenity => decide (entry.roomId = roomId)), if_neg hother, List.filter_cons]
      split
      · rw [List.flatMap_cons, List.filter_append, ih, List.filter_eq_nil_iff.2, List.nil_append]
        intro row hrow
        obtain ⟨amenity, -, rfl⟩ := List.mem_map.1 hrow
        simpa using hroom
      · exact ih

theorem byRoomAndCode_total (sql : Collation) : Std.Total (byRoomAndCode sql) := by
  refine ⟨fun a b => ?_⟩
  unfold byRoomAndCode
  rcases lt_trichotomy a.1 b.1 with h | h | h
  · exact .inl (.inl h)
  · rcases sql.le_total a.2.code b.2.code with hle | hle
    · exact .inl (.inr ⟨h, hle⟩)
    · exact .inr (.inr ⟨h.symm, hle⟩)
  · exact .inr (.inl h)

theorem byRoomAndCode_trans (sql : Collation) : IsTrans (ℕ × Amenity) (byRoomAndCode sql) := by
  refine ⟨fun a b c hab hbc => ?_⟩
  rcases hab with hab | ⟨hab, hle⟩
  · rcases hbc with hbc | ⟨hbc, -⟩
    · exact .inl (hab.trans hbc)
    · exact .inl (hbc ▸ hab)
  · rcases hbc with hbc | ⟨hbc, hle'⟩
    · exact .inl (hab ▸ hbc)
    · exact .inr ⟨hab.trans hbc, sql.le_trans _ _ _ hle hle'⟩

theorem amenity_of_join {entries : List RoomAmenity} {row : ℕ × Amenity} (h : row ∈ joinAmenities catalogue entries) :
    row.2 ∈ catalogue.amenities := by
  obtain ⟨entry, -, hrow⟩ := List.mem_flatMap.1 h
  obtain ⟨amenity, hamenity, rfl⟩ := List.mem_map.1 hrow
  exact (List.mem_filter.1 hamenity).1

/-- The amenities of a room are those its entries name. -/
theorem mem_ownAmenities {amenity : SnapshotAmenity} : amenity ∈ ownAmenities catalogue roomId ↔
    ∃ entry ∈ catalogue.roomAmenities, entry.roomId = roomId ∧ ∃ a ∈ catalogue.amenities, a.id = entry.amenityId ∧ amenity = ⟨a.code, a.name⟩ := by
  simp only [ownAmenities, joinAmenities, List.mem_map, List.mem_insertionSort, List.mem_flatMap, List.mem_filter, decide_eq_true_eq]
  constructor
  · rintro ⟨_, ⟨_, ⟨entry, ⟨hentry, hroom⟩, a, ⟨ha, hid⟩, rfl⟩, rfl⟩, rfl⟩
    exact ⟨entry, hentry, hroom, a, ha, hid, rfl⟩
  · rintro ⟨entry, hentry, hroom, a, ha, hid, rfl⟩
    exact ⟨a, ⟨_, ⟨entry, ⟨hentry, hroom⟩, a, ⟨ha, hid⟩, rfl⟩, rfl⟩, rfl⟩

/-- Amenities in the order of their codes are in one order, since no two share a code. -/
theorem amenities_eq {l l' : List Amenity} (hperm : l.Perm l') (hmem : ∀ a ∈ l, a ∈ catalogue.amenities)
    (hl : l.Pairwise fun a b => sql.le a.code b.code = true) (hl' : l'.Pairwise fun a b => sql.le a.code b.code = true) : l = l' :=
  hperm.eq_of_pairwise (fun a b ha hb => catalogue.amenityCodes a (hmem a ha) b (hmem b (hperm.mem_iff.2 hb))) hl hl'

/-- **A page's amenities** are those of each of its rooms, as a query of that room alone would return them. -/
theorem readAmenities_getD (hid : toString roomId ∈ ids) : (readAmenities catalogue ids (toString roomId)).getD [] = ownAmenities catalogue roomId := by
  have := byRoomAndCode_total sql
  have := byRoomAndCode_trans sql
  have : Std.Total (α := Amenity) fun a b => sql.le a.code b.code = true := ⟨fun a b => sql.le_total a.code b.code⟩
  have : IsTrans Amenity fun a b => sql.le a.code b.code = true := ⟨fun a b c => sql.le_trans a.code b.code c.code⟩
  set entries := catalogue.roomAmenities.filter fun entry => ids.any fun id => digitsValue id.toList = entry.roomId with hentries
  set sorted := (joinAmenities catalogue entries).insertionSort (byRoomAndCode sql) with hsorted
  have hget : (readAmenities catalogue ids (toString roomId)).getD [] = ((sorted.filter (·.1 = roomId)).map (·.2)).map fun a => ⟨a.code, a.name⟩ := by
    rw [readAmenities, foldl_pushAmenity, List.map_map]
    rfl
  have hperm : ((sorted.filter (·.1 = roomId)).map (·.2)).Perm
      ((joinAmenities catalogue (catalogue.roomAmenities.filter (·.roomId = roomId))).map (·.2)) := by
    rw [← joinAmenities_filter hid]
    exact ((List.perm_insertionSort _ _).filter _).map _
  have hordered : ((sorted.filter (·.1 = roomId)).map (·.2)).Pairwise fun a b => sql.le a.code b.code = true := by
    rw [List.pairwise_map]
    refine List.Pairwise.imp_of_mem (fun {a b} ha hb hab => ?_) ((List.pairwise_insertionSort (byRoomAndCode sql) _).filter _)
    have hroom : a.1 = b.1 := (of_decide_eq_true (List.mem_filter.1 ha).2).trans (of_decide_eq_true (List.mem_filter.1 hb).2).symm
    rcases hab with hlt | ⟨-, hle⟩
    · exact absurd hroom hlt.ne
    · exact hle
  rw [hget, ownAmenities]
  congr 1
  refine @amenities_eq _ catalogue _ _ (hperm.trans (List.perm_insertionSort _ _).symm) (fun a ha => ?_) hordered
    (List.pairwise_insertionSort _ _)
  obtain ⟨row, hrow, rfl⟩ := List.mem_map.1 ha
  exact amenity_of_join ((List.mem_insertionSort _).1 (List.mem_filter.1 hrow).1)

end Amenities

/-! ### Caps -/

section Caps

variable {sql : Collation} (catalogue : RoomCatalogue sql) (limits : SnapshotLimits)

/-- The step of a read without pages. -/
def addOwnRow (snapshot : RoomExportSnapshot) (row : CatalogueRoom × RoomType) : Except RoomExportError RoomExportSnapshot :=
  addRow limits (fun _ => some (ownAmenities catalogue row.1.id)) snapshot (selectRow row)

/-- The characters of rows. -/
def totalCharacters (rows : List (CatalogueRoom × RoomType)) : ℕ := (rows.map fun row => countRowCharacters (snapshotRow catalogue row)).sum

variable {catalogue limits}

/-- Rows and characters only grow, so a cap is exceeded somewhere exactly if it is at the end. -/
theorem foldlM_addOwnRow (rows : List (CatalogueRoom × RoomType)) (snapshot : RoomExportSnapshot)
    (hrows : snapshot.rows.length ≤ limits.maxRows) (hchars : snapshot.characters ≤ limits.maxSnapshotChars) :
    (snapshot.rows.length + rows.length ≤ limits.maxRows ∧ snapshot.characters + totalCharacters catalogue rows ≤ limits.maxSnapshotChars →
      rows.foldlM (addOwnRow catalogue limits) snapshot =
        .ok ⟨snapshot.rows ++ rows.map (snapshotRow catalogue), snapshot.characters + totalCharacters catalogue rows⟩) ∧
    (¬ (snapshot.rows.length + rows.length ≤ limits.maxRows ∧ snapshot.characters + totalCharacters catalogue rows ≤ limits.maxSnapshotChars) →
      rows.foldlM (addOwnRow catalogue limits) snapshot = .error rowLimitExceeded ∨
      rows.foldlM (addOwnRow catalogue limits) snapshot = .error snapshotTooLarge) := by
  induction rows generalizing snapshot with
  | nil =>
    refine ⟨fun _ => ?_, fun h => absurd ⟨hrows, hchars⟩ h⟩
    rw [List.map_nil, List.append_nil]
    rfl
  | cons row rows ih =>
    have htotal : totalCharacters catalogue (row :: rows) = countRowCharacters (snapshotRow catalogue row) + totalCharacters catalogue rows := rfl
    have hlength : (snapshot.rows ++ [snapshotRow catalogue row]).length = snapshot.rows.length + 1 := List.length_append
    have hstep : addOwnRow catalogue limits snapshot row =
        if limits.maxRows < (snapshot.rows ++ [snapshotRow catalogue row]).length then .error rowLimitExceeded
        else if limits.maxSnapshotChars < snapshot.characters + countRowCharacters (snapshotRow catalogue row) then .error snapshotTooLarge
        else .ok ⟨snapshot.rows ++ [snapshotRow catalogue row], snapshot.characters + countRowCharacters (snapshotRow catalogue row)⟩ := rfl
    rw [List.foldlM_cons, hstep, htotal, List.length_cons]
    by_cases hr : limits.maxRows < (snapshot.rows ++ [snapshotRow catalogue row]).length
    · rw [if_pos hr]
      rw [hlength] at hr
      exact ⟨fun h => by omega, fun _ => .inl rfl⟩
    · rw [if_neg hr]
      by_cases hc : limits.maxSnapshotChars < snapshot.characters + countRowCharacters (snapshotRow catalogue row)
      · rw [if_pos hc]
        exact ⟨fun h => by omega, fun _ => .inr rfl⟩
      · rw [if_neg hc]
        have hih := ih ⟨snapshot.rows ++ [snapshotRow catalogue row], snapshot.characters + countRowCharacters (snapshotRow catalogue row)⟩
          (not_lt.1 hr) (not_lt.1 hc)
        dsimp only at hih
        rw [hlength] at hih
        refine ⟨fun h => (hih.1 (by omega)).trans ?_, fun h => hih.2 (by omega)⟩
        rw [List.map_cons, List.append_assoc, List.singleton_append, Nat.add_assoc]

/-- The rooms of a page are added with their own amenities. -/
theorem foldlM_addRow (rows : List (CatalogueRoom × RoomType)) (snapshot : RoomExportSnapshot) :
    (rows.map selectRow).foldlM (addRow limits (readAmenities catalogue ((rows.map selectRow).map (·.id)))) snapshot =
      rows.foldlM (addOwnRow catalogue limits) snapshot := by
  have hids : ∀ row ∈ rows, toString row.1.id ∈ (rows.map selectRow).map (·.id) := fun row hrow =>
    List.mem_map.2 ⟨_, List.mem_map_of_mem hrow, rfl⟩
  generalize (rows.map selectRow).map (·.id) = ids at hids
  induction rows generalizing snapshot with
  | nil => rfl
  | cons row rows ih =>
    have hown : addRow limits (readAmenities catalogue ids) snapshot (selectRow row) = addOwnRow catalogue limits snapshot row := by
      have hamenities : (readAmenities catalogue ids (selectRow row).id).getD [] = ownAmenities catalogue row.1.id :=
        readAmenities_getD (hids row List.mem_cons_self)
      simp only [addOwnRow, addRow, hamenities, Option.getD_some]
    rw [List.map_cons, List.foldlM_cons, List.foldlM_cons, hown]
    congr 1
    funext next
    exact ih next fun r hr => hids r (List.mem_cons_of_mem _ hr)

end Caps

/-! ### The read is one query -/

section Unpaged

variable {sql : Collation} {catalogue : RoomCatalogue sql} {limits : SnapshotLimits} {filters : RoomExportFilters}

/-- A room is joined with one type. -/
theorem joinRoomType_ids : ((joinRoomType catalogue).map (·.1.id)).Nodup := by
  rw [joinRoomType, List.map_flatMap, List.nodup_flatMap]
  constructor
  · intro room _
    rw [List.map_map]
    have hone : ((catalogue.roomTypes.filter (·.id = room.roomTypeId)).map (·.id)).Nodup := catalogue.roomTypeIds.sublist (List.filter_sublist.map _)
    -- types of one id are one type
    refine List.Nodup.map_on (fun a ha b hb _ => ?_) (List.Nodup.of_map _ hone)
    have hid : a.id = b.id := (of_decide_eq_true (List.mem_filter.1 ha).2).trans (of_decide_eq_true (List.mem_filter.1 hb).2).symm
    exact List.inj_on_of_nodup_map hone ha hb hid
  · have hrooms := catalogue.roomIds
    rw [List.Nodup, List.pairwise_map] at hrooms
    refine hrooms.imp fun {a b} hne => ?_
    intro id ha hb
    simp only [List.map_map, List.mem_map, Function.comp] at ha hb
    obtain ⟨_, -, rfl⟩ := ha
    obtain ⟨_, -, hid⟩ := hb
    exact hne hid.symm

theorem matching_ids : ((matching catalogue filters).map (·.1.id)).Nodup := joinRoomType_ids.sublist (List.filter_sublist.map _)

/-- The loop of the source is a walk by room id. -/
theorem readPages_eq_walk (fuel : ℕ) (after : Option ℕ) (snapshot : RoomExportSnapshot) :
    readPages catalogue limits filters fuel (after.map toString) snapshot =
      Keyset.walk (·.1.id) (Keyset.page (·.1.id) (matching catalogue filters) limits.queryPageSize)
        (fun snapshot rows => (rows.map selectRow).foldlM (addRow limits (readAmenities catalogue ((rows.map selectRow).map (·.id)))) snapshot)
        limits.queryPageSize fuel after snapshot := by
  induction fuel generalizing after snapshot with
  | zero => rfl
  | succ fuel ih =>
    have hafter : (after.map toString).map (fun id => digitsValue id.toList) = after := by
      cases after with
      | none => rfl
      | some id => exact congrArg some (digitsValue_toString id)
    rw [readPages, Keyset.walk]
    simp only [readPage, hafter, List.getLast?_map]
    cases hlast : (Keyset.page (·.1.id) (matching catalogue filters) limits.queryPageSize after).getLast? with
    | none => rfl
    | some last =>
      simp only [Option.map_some, List.length_map]
      split
      · next hfold => rw [hfold]
      · next next hfold =>
        rw [hfold]
        dsimp only
        split
        · rfl
        · exact ih (some last.1.id) next

theorem totalCharacters_perm {rows rows' : List (CatalogueRoom × RoomType)} (h : rows.Perm rows') :
    totalCharacters catalogue rows = totalCharacters catalogue rows' := (h.map _).sum_nat

/-- The read, as a fold over the rooms in order. -/
theorem readPages_eq (hpage : 1 ≤ limits.queryPageSize) {fuel : ℕ} (hfuel : (matching catalogue filters).length < fuel) :
    readPages catalogue limits filters fuel none ⟨[], 0⟩ =
      some ((Keyset.inOrder (·.1.id) (matching catalogue filters)).foldlM (addOwnRow catalogue limits) ⟨[], 0⟩) := by
  have hwalk : readPages catalogue limits filters fuel none ⟨[], 0⟩ = _ := readPages_eq_walk fuel none ⟨[], 0⟩
  rw [hwalk]
  exact Keyset.walk_eq matching_ids hpage (fun rows snapshot _ => foldlM_addRow rows snapshot) hfuel _

/-- A read that returned was within the caps, and returned the rooms in order. -/
theorem snapshot_of_readPages (hpage : 1 ≤ limits.queryPageSize) {fuel : ℕ} {snapshot : RoomExportSnapshot}
    (h : readPages catalogue limits filters fuel none ⟨[], 0⟩ = some (.ok snapshot)) :
    ∃ rows : List (CatalogueRoom × RoomType), rows.Perm (matching catalogue filters) ∧ snapshot.rows = rows.map (snapshotRow catalogue) ∧
      snapshot.rows.length ≤ limits.maxRows ∧ (snapshot.rows.map countRowCharacters).sum ≤ limits.maxSnapshotChars := by
  have hwalk : readPages catalogue limits filters fuel none ⟨[], 0⟩ = _ := readPages_eq_walk fuel none ⟨[], 0⟩
  rw [hwalk] at h
  have hmore := Keyset.walk_mono (Nat.le_add_right fuel ((matching catalogue filters).length + 1)) h
  rw [Keyset.walk_eq matching_ids hpage (fun rows snapshot _ => foldlM_addRow rows snapshot) (by omega), Option.some.injEq] at hmore
  obtain ⟨hok, herror⟩ := @foldlM_addOwnRow _ catalogue limits
    (Keyset.inOrder (·.1.id) (matching catalogue filters)) ⟨[], 0⟩ (Nat.zero_le _) (Nat.zero_le _)
  by_cases hcaps : (⟨[], 0⟩ : RoomExportSnapshot).rows.length + (Keyset.inOrder (·.1.id) (matching catalogue filters)).length ≤ limits.maxRows ∧
      (⟨[], 0⟩ : RoomExportSnapshot).characters + totalCharacters catalogue (Keyset.inOrder (·.1.id) (matching catalogue filters)) ≤
        limits.maxSnapshotChars
  · obtain rfl := Except.ok.inj (hmore.symm.trans (hok hcaps))
    refine ⟨_, Keyset.inOrder_perm, rfl, ?_, ?_⟩
    · simpa using hcaps.1
    · simpa [totalCharacters, Function.comp_def] using hcaps.2
  · rcases herror hcaps with herror | herror <;> cases hmore.symm.trans herror

end Unpaged

/-- **The paged read is the unpaged one.** With pages of any size the loop ends; within both caps it returns
each room that passes the filters once, in the order of ids, with its own amenities and the characters of all;
beyond one of them it throws. -/
theorem readPages_unpaged (sql : Collation) (catalogue : RoomCatalogue sql) (filters : RoomExportFilters) (limits : SnapshotLimits)
    (hpage : 1 ≤ limits.queryPageSize) : ∃ enough, ∀ fuel ≥ enough, ∃ result,
      readPages catalogue limits filters fuel none ⟨[], 0⟩ = some result ∧
      (if (matching catalogue filters).length ≤ limits.maxRows ∧ totalCharacters catalogue (matching catalogue filters) ≤ limits.maxSnapshotChars
        then ∃ rows : List (CatalogueRoom × RoomType), rows.Perm (matching catalogue filters) ∧ rows.Pairwise (·.1.id < ·.1.id) ∧
          result = .ok ⟨rows.map (snapshotRow catalogue), totalCharacters catalogue (matching catalogue filters)⟩
        else result = .error rowLimitExceeded ∨ result = .error snapshotTooLarge) := by
  refine ⟨(matching catalogue filters).length + 1, fun fuel hfuel => ⟨_, readPages_eq hpage hfuel, ?_⟩⟩
  have hperm : (Keyset.inOrder (·.1.id) (matching catalogue filters)).Perm (matching catalogue filters) := Keyset.inOrder_perm
  obtain ⟨hok, herror⟩ := @foldlM_addOwnRow _ catalogue limits
    (Keyset.inOrder (·.1.id) (matching catalogue filters)) ⟨[], 0⟩ (Nat.zero_le _) (Nat.zero_le _)
  simp only [List.length_nil, Nat.zero_add, List.nil_append, totalCharacters_perm hperm, hperm.length_eq] at hok herror
  split
  · next hcaps => exact ⟨_, hperm, Keyset.inOrder_strict matching_ids, hok hcaps⟩
  · next hcaps => exact herror hcaps

/-- Texts compared as they are. -/
def binaryCollation : Collation where
  like value pattern := pattern = "%" ++ value ++ "%"
  equal value other := value = other
  lower := String.toLower
  toLowerCase := String.toLower
  le a b := a ≤ b
  le_total a b := by simpa only [decide_eq_true_eq] using le_total a b
  le_trans a b c := by simpa only [decide_eq_true_eq] using le_trans

/-- Two rooms, the second of which looks out on the city and has two amenities. -/
def twoRooms : RoomCatalogue binaryCollation where
  rooms := [⟨12, 7, "A-201", 2, some "CITY", 1000000, "VND", .active, 1, 1756700000000, 1756700000000⟩,
    ⟨9, 7, "=1", 1, none, 800000, "VND", .active, 3, 1756600000000, 1756700000000⟩]
  roomTypes := [⟨7, "Deluxe"⟩]
  amenities := [⟨4, "WIFI", "Wi-Fi"⟩, ⟨5, "BATH", "Bathtub"⟩]
  roomAmenities := [⟨12, 4⟩, ⟨12, 5⟩]
  roomIds := by decide
  roomTypeIds := by decide
  amenityCodes := by decide
  bedCounts := by decide
  instants := by decide

def noFilters : RoomExportFilters := ⟨none, none, none, none, none⟩

/-- One room to a page: the second page is full, and the third is empty. -/
theorem readPages_unpaged_twoRooms : ∃ enough, ∀ fuel ≥ enough, ∃ result,
    readPages twoRooms ⟨2, 200, 1⟩ noFilters fuel none ⟨[], 0⟩ = some result ∧
    ∃ rows : List (CatalogueRoom × RoomType), rows.Perm (matching twoRooms noFilters) ∧ rows.Pairwise (·.1.id < ·.1.id) ∧
      result = .ok ⟨rows.map (snapshotRow twoRooms), totalCharacters twoRooms (matching twoRooms noFilters)⟩ := by
  have hcaps : (matching twoRooms noFilters).length ≤ 2 ∧ totalCharacters twoRooms (matching twoRooms noFilters) ≤ 200 := by decide
  obtain ⟨enough, h⟩ := readPages_unpaged binaryCollation twoRooms noFilters ⟨2, 200, 1⟩ (by decide)
  refine ⟨enough, fun fuel hfuel => ?_⟩
  obtain ⟨result, hread, hresult⟩ := h fuel hfuel
  rw [if_pos hcaps] at hresult
  exact ⟨result, hread, hresult⟩

end HotelBackend.Reports
