import HotelBackend.Common.JsonOrder
import HotelBackend.Reports.RoomExportCreate
import HotelBackend.Reports.RoomExportSnapshot
import HotelBackend.Theory.LikePatterns

/-!
# The rooms of an export and those of the list

The admin list applies the filters of a request as they arrive; an export stores them first, normalized, in
a JSON column, and a worker reads them back later. The two select the same rooms (`export_selects_list`): what
`normalizeRoomExportFilters` leaves out or trims is what `applyRoomCatalogFilters` would not have looked at
(`selects_normalized`), the column may only reorder keys (`readFilters_stored`), and the pages of the list and
those of the export are two ways through one order.

## The model

A search term is matched with `LIKE`, in a collation for which two characters can be equal without being the
same (`Collation.IsLike`). The filters are those of the DTO. Null and a field that is not there are told apart
for `beds` alone, since the code does not distinguish them elsewhere. Both surfaces are taken for the rows they
select: the amenities and images of a page of the list are left out, and the caps of an export.
-/

namespace HotelBackend.Reports

open HotelBackend.Common
open HotelBackend.Theory
open HotelBackend.Rooms
open HotelBackend.Notifications (field)

/-! ### The search term -/

/-- `LIKE … ESCAPE '\\'` -/
def likeSyntax : LikeSyntax Char where
  many := '%'
  one := '_'
  escape := '\\'
  many_ne_escape := by decide

/-- The collation's `LIKE`, where `equiv` says which characters are equal to it. -/
def Collation.IsLike (sql : Collation) (equiv : Char → Char → Bool) : Prop :=
  ∀ value pattern, sql.like value pattern = accepts equiv (likeSyntax.tokens pattern.toList) value.toList

theorem toList_escapeLike (term : String) : (escapeLike term).toList = likeSyntax.quote term.toList := by
  have hchar : (fun c => if c ∈ ['\\', '%', '_'] then ['\\', c] else [c]) = likeSyntax.quoteChar := by
    funext c
    exact if_congr (by simp [likeSyntax]) rfl rfl
  rw [escapeLike, String.toList_ofList, hchar, LikeSyntax.quote]

/-- An escaped term between wildcards matches the texts it occurs in. -/
theorem like_escapeLike {sql : Collation} {equiv : Char → Char → Bool} (h : sql.IsLike equiv) (term value : String) :
    sql.like value ("%" ++ escapeLike term ++ "%") = true ↔ Contains equiv term.toList value.toList := by
  have hpattern : ("%" ++ escapeLike term ++ "%").toList = likeSyntax.many :: (likeSyntax.quote term.toList ++ [likeSyntax.many]) := by
    rw [String.toList_append, String.toList_append, toList_escapeLike]
    rfl
  rw [h, hpattern]
  exact accepts_contains likeSyntax

/-! ### Filters -/

/-- What the shared helper takes. A `beds` of null is a filter, which no room passes. -/
structure RoomCatalogFilters where
  query : Option String
  status : Option RoomStatus
  roomTypeId : Option String
  beds : Option (Option ℕ)
  view : Option String
  deriving DecidableEq, Repr

/-- The filters without a null among them. -/
def RoomCatalogFilters.withoutNull (filters : RoomCatalogFilters) : RoomExportFilters :=
  ⟨filters.query, filters.status, filters.roomTypeId, filters.beds.join, filters.view⟩

/-- `room.bed_count = NULL` is not true of any room. -/
def selects (sql : Collation) (filters : RoomCatalogFilters) (room : CatalogueRoom) (roomType : RoomType) : Bool :=
  filters.beds ≠ some none && applyRoomCatalogFilters sql filters.withoutNull room roomType

/-- A blank `query` is dropped, and so is what the list would not apply. -/
def normalizeRoomExportFilters (body : RoomCatalogFilters) : RoomCatalogFilters where
  query := truthy (body.query.map jsTrim)
  status := body.status
  roomTypeId := truthy body.roomTypeId
  beds := body.beds
  view := truthy body.view

/-! ### The column -/

/-- `...(value ? { key: value } : {})` -/
def spread (key : String) (value : Option Json) : List (String × Json) := (value.map fun value => (key, value)).toList

/-- A number, or null. -/
def bedsJson : Option ℕ → Json
  | none => .null
  | some beds => .num beds

def RoomCatalogFilters.fields (filters : RoomCatalogFilters) : List (String × Json) :=
  spread "query" (filters.query.map .str) ++ (spread "status" (filters.status.map fun status => .str (statusText status)) ++
    (spread "roomTypeId" (filters.roomTypeId.map .str) ++ (spread "beds" (filters.beds.map bedsJson) ++
      spread "view" (filters.view.map .str))))

/-- What the job row is given. -/
def RoomCatalogFilters.toJson (filters : RoomCatalogFilters) : Json := .obj filters.fields

/-- A text of the stored object. -/
def readText (fields : List (String × Json)) (key : String) : Option (Option String) :=
  match field fields key with
  | none => some none
  | some (.str text) => some (some text)
  | some _ => none

def readStatus (text : String) : Option RoomStatus := [.active, .inactive, .maintenance].find? (statusText · = text)

def readBeds (fields : List (String × Json)) : Option (Option (Option ℕ)) :=
  match field fields "beds" with
  | none => some none
  | some .null => some (some none)
  | some (.num beds) => if beds = beds.num.toNat then some (some (some beds.num.toNat)) else none
  | some _ => none

/-- The filters a stored value stands for; `none` is a value that no filters were stored as. -/
def readFilters : Json → Option RoomCatalogFilters
  | .obj fields => do
    let query ← readText fields "query"
    let status ← readText fields "status"
    let status ← match status with
      | none => some none
      | some text => (readStatus text).map some
    let roomTypeId ← readText fields "roomTypeId"
    let beds ← readBeds fields
    let view ← readText fields "view"
    return ⟨query, status, roomTypeId, beds, view⟩
  | _ => none

/-! ### The two surfaces -/

section Surfaces

variable {sql : Collation} (catalogue : RoomCatalogue sql) (filters : RoomCatalogFilters)

/-- The rows that pass the filters. -/
def selected : List (CatalogueRoom × RoomType) :=
  (joinRoomType catalogue).filter fun row => selects sql filters row.1 row.2

structure PaginatedRooms where
  items : List (CatalogueRoom × RoomType)
  page : ℕ
  pageSize : ℕ
  total : ℕ

/-- `RoomsService.list` -/
def list (page pageSize : ℕ) : PaginatedRooms where
  items := ((Keyset.inOrder (·.1.id) (selected catalogue filters)).drop ((page - 1) * pageSize)).take pageSize
  page := page
  pageSize := pageSize
  total := (selected catalogue filters).length

/-- The rooms on the pages the list says there are. -/
def listAll (pageSize : ℕ) : List (CatalogueRoom × RoomType) :=
  (List.range (((list catalogue filters 1 pageSize).total + pageSize - 1) / pageSize)).flatMap fun i => (list catalogue filters (i + 1) pageSize).items

/-- The rows of `readPage`. -/
def exportPage (queryPageSize : ℕ) (after : Option ℕ) : List (CatalogueRoom × RoomType) :=
  Keyset.page (·.1.id) (selected catalogue filters) queryPageSize after

/-- The rows of `readPages`, page after page. -/
def exportRows (queryPageSize fuel : ℕ) : Option (Except RoomExportError (List (CatalogueRoom × RoomType))) :=
  Keyset.walk (·.1.id) (exportPage catalogue filters queryPageSize) (fun rows page => .ok (rows ++ page)) queryPageSize fuel none []

end Surfaces

/-! ### Filters and the column -/

section Column

variable {fields fields' : List (String × Json)} {key : String} {filters : RoomCatalogFilters} {stored : Json}

theorem field_append : field (fields ++ fields') key = (field fields key).or (field fields' key) := by
  rw [field, List.find?_append, Option.map_or]
  rfl

theorem field_spread {value : Option Json} {name : String} : field (spread name value) key = if name = key then value else none := by
  cases value with
  | none => simp [spread, field]
  | some value => by_cases hname : name = key <;> simp [spread, field, hname]

theorem keys_spread {value : Option Json} {name : String} : List.Sublist ((spread name value).map (·.1)) [name] := by
  cases value with
  | none => exact List.nil_sublist _
  | some value => exact List.Sublist.refl _

theorem RoomCatalogFilters.keys_nodup (filters : RoomCatalogFilters) : (filters.fields.map (·.1)).Nodup := by
  have hkeys : List.Sublist (filters.fields.map (·.1)) ["query", "status", "roomTypeId", "beds", "view"] := by
    simp only [fields, List.map_append]
    exact keys_spread.append (keys_spread.append (keys_spread.append (keys_spread.append keys_spread)))
  exact hkeys.nodup (by decide)

theorem field_eq_some {value : Json} (h : (fields.map (·.1)).Nodup) (hmem : (key, value) ∈ fields) : field fields key = some value := by
  have hfound : (fields.find? (·.1 = key)).isSome = true := List.find?_isSome.2 ⟨_, hmem, decide_eq_true rfl⟩
  obtain ⟨f, hf⟩ := Option.isSome_iff_exists.1 hfound
  have hkey : f.1 = key := by simpa using List.find?_some hf
  rw [field, hf, Json.eq_of_key h (List.mem_of_find?_eq_some hf) hmem hkey, Option.map_some]

theorem mem_of_field {value : Json} (h : field fields key = some value) : (key, value) ∈ fields := by
  obtain ⟨f, hf, rfl⟩ := Option.map_eq_some_iff.1 h
  have hkey : f.1 = key := by simpa using List.find?_some hf
  exact hkey ▸ List.mem_of_find?_eq_some hf

/-- A column that reorders keys returns each field under its key, and no other. -/
theorem field_reorders (key : String) (h : (Json.obj fields).Reorders (.obj fields')) (hkeys : (fields.map (·.1)).Nodup) :
    Option.Rel Json.Reorders (field fields key) (field fields' key) := by
  have hkeys' : (fields'.map (·.1)).Nodup := by
    cases h with
    | obj hperm _ => exact hperm.nodup_iff.1 hkeys
  cases hfield : field fields key with
  | some value =>
    obtain ⟨⟨name, value'⟩, hmem', hname⟩ := h.exists_of_mem (mem_of_field hfield)
    obtain rfl : name = key := hname
    rw [field_eq_some hkeys' hmem']
    exact .some (h.of_mem (mem_of_field hfield) hmem' rfl)
  | none =>
    cases hfield' : field fields' key with
    | none => exact .none
    | some value' =>
      cases h with
      | obj hperm _ =>
        obtain ⟨⟨name, value⟩, hmem, hname⟩ := Json.exists_of_perm hperm (mem_of_field hfield')
        obtain rfl : name = key := hname
        cases hfield.symm.trans (field_eq_some hkeys hmem)

theorem readText_reorders (h : (Json.obj fields).Reorders (.obj fields')) (hkeys : (fields.map (·.1)).Nodup) {text : Option String}
    (hfield : field fields key = text.map .str) : readText fields' key = some text := by
  have hrel := field_reorders key h hkeys
  rw [hfield] at hrel
  rw [readText]
  generalize field fields' key = found at hrel ⊢
  cases text with
  | none =>
    cases hrel with
    | none => rfl
  | some text =>
    cases hrel with
    | some hval => rw [hval.eq_str]

theorem readBeds_reorders (h : (Json.obj fields).Reorders (.obj fields')) (hkeys : (fields.map (·.1)).Nodup) {beds : Option (Option ℕ)}
    (hfield : field fields "beds" = beds.map bedsJson) : readBeds fields' = some beds := by
  have hrel := field_reorders "beds" h hkeys
  rw [hfield] at hrel
  rw [readBeds]
  generalize field fields' "beds" = found at hrel ⊢
  rcases beds with _ | _ | beds
  · cases hrel with
    | none => rfl
  · cases hrel with
    | some hval =>
      cases hval
      rfl
  · cases hrel with
    | some hval =>
      cases hval
      simp

theorem readStatus_statusText (status : RoomStatus) : readStatus (statusText status) = some status := by
  cases status <;> rfl

/-- **The filters of a job are read back as they were stored**, in whatever order the column returns their keys. -/
theorem readFilters_stored (h : filters.toJson.Reorders stored) : readFilters stored = some filters := by
  have hkeys := filters.keys_nodup
  cases stored with
  | obj fields' =>
    have hquery : readText fields' "query" = some filters.query := by
      apply readText_reorders h hkeys
      simp [RoomCatalogFilters.fields, field_append, field_spread]
    have hstatus : readText fields' "status" = some (filters.status.map statusText) := by
      apply readText_reorders h hkeys
      simp [RoomCatalogFilters.fields, field_append, field_spread, Function.comp_def]
    have hroomTypeId : readText fields' "roomTypeId" = some filters.roomTypeId := by
      apply readText_reorders h hkeys
      simp [RoomCatalogFilters.fields, field_append, field_spread]
    have hbeds : readBeds fields' = some filters.beds := by
      apply readBeds_reorders h hkeys
      simp [RoomCatalogFilters.fields, field_append, field_spread]
    have hview : readText fields' "view" = some filters.view := by
      apply readText_reorders h hkeys
      simp [RoomCatalogFilters.fields, field_append, field_spread]
    obtain ⟨query, status, roomTypeId, beds, view⟩ := filters
    cases status with
    | none => simp [readFilters, hquery, hstatus, hroomTypeId, hbeds, hview]
    | some status => simp [readFilters, hquery, hstatus, hroomTypeId, hbeds, hview, readStatus_statusText]
  | null | bool | num | str | arr => cases h

theorem truthy_idem (text : Option String) : truthy (truthy text) = truthy text := by
  simp [truthy, Option.filter_filter]

theorem truthy_trimmed (query : Option String) : truthy ((truthy (query.map jsTrim)).map jsTrim) = truthy (query.map jsTrim) := by
  cases query with
  | none => rfl
  | some query =>
    by_cases hblank : jsTrim query = ""
    · simp [truthy, hblank, Option.filter_some]
    · simp [truthy, hblank, Option.filter_some, jsTrim_idem]

/-- **What normalization drops or trims, the helper would not have looked at.** -/
theorem selects_normalized (sql : Collation) (body : RoomCatalogFilters) (room : CatalogueRoom) (roomType : RoomType) :
    selects sql (normalizeRoomExportFilters body) room roomType = selects sql body room roomType := by
  simp only [selects, normalizeRoomExportFilters, RoomCatalogFilters.withoutNull, applyRoomCatalogFilters, applyRoomAttributeFilters,
    truthy_trimmed, truthy_idem]
  rfl

end Column

/-! ### The two surfaces agree -/

section Agree

variable {sql : Collation} {catalogue : RoomCatalogue sql} {filters : RoomCatalogFilters} {pageSize queryPageSize : ℕ}

theorem selected_normalized (body : RoomCatalogFilters) : selected catalogue (normalizeRoomExportFilters body) = selected catalogue body := by
  simp only [selected, selects_normalized]

theorem selected_ids : ((selected catalogue filters).map (·.1.id)).Nodup := by
  exact joinRoomType_ids.sublist (List.filter_sublist.map _)

/-- The list shows the rooms it selects, in the order of their ids. -/
theorem listAll_eq (hsize : 1 ≤ pageSize) : listAll catalogue filters pageSize = Keyset.inOrder (·.1.id) (selected catalogue filters) := by
  have hlength : (Keyset.inOrder (·.1.id) (selected catalogue filters)).length = (selected catalogue filters).length :=
    Keyset.inOrder_perm.length_eq
  have henough : (selected catalogue filters).length ≤ ((selected catalogue filters).length + pageSize - 1) / pageSize * pageSize := by
    have := Nat.div_add_mod ((selected catalogue filters).length + pageSize - 1) pageSize
    have := Nat.mod_lt ((selected catalogue filters).length + pageSize - 1) hsize
    rw [Nat.mul_comm]
    omega
  simp only [listAll, list, Nat.add_sub_cancel]
  rw [Keyset.flatMap_pages, List.take_of_length_le (hlength ▸ henough)]

/-- A page of the export is what the list shows beyond the last row read. -/
theorem exportPage_eq (hsize : 1 ≤ pageSize) (after : Option ℕ) : exportPage catalogue filters queryPageSize after =
    ((listAll catalogue filters pageSize).filter fun row => after.all (· < row.1.id)).take queryPageSize := by
  rw [exportPage, Keyset.page, Keyset.inOrder_filter selected_ids, listAll_eq hsize]

theorem foldlM_push {rows front : List (CatalogueRoom × RoomType)} :
    (rows.foldlM (fun rows row => .ok (rows ++ [row])) front : Except RoomExportError _) = .ok (front ++ rows) := by
  induction rows generalizing front with
  | nil => rw [List.append_nil]; rfl
  | cons row rows ih =>
    rw [List.append_cons, ← ih]
    rfl

/-- The pages of the export are the rooms of the list. -/
theorem exportRows_eq (hsize : 1 ≤ pageSize) (hquery : 1 ≤ queryPageSize) {fuel : ℕ} (hfuel : (selected catalogue filters).length < fuel) :
    exportRows catalogue filters queryPageSize fuel = some (.ok (listAll catalogue filters pageSize)) := by
  have hwalk := @Keyset.walk_eq _ _ _ (·.1.id) RoomExportError _ _ _ (fun rows row => .ok (rows ++ [row])) (fun rows page => .ok (rows ++ page))
    (@selected_ids sql catalogue filters) hquery (fun rows s _ => foldlM_push.symm) _ hfuel []
  rw [foldlM_push, List.nil_append] at hwalk
  rw [listAll_eq hsize]
  exact hwalk

/-- The rows of `readPage`, where no filter is null. -/
theorem readPage_eq_exportPage (hnull : filters.beds ≠ some none) (after : Option String) : readPage catalogue filters.withoutNull queryPageSize after =
    (exportPage catalogue filters queryPageSize (after.map (digitsValue ·.toList))).map selectRow := by
  have hselected : selected catalogue filters = matching catalogue filters.withoutNull := by
    simp [selected, matching, selects, hnull]
  rw [readPage, exportPage, hselected]

end Agree

/-- **The export selects what the list shows.** A search term, whatever characters it has, matches the texts it
occurs in. Stored and read back, the filters of a body select in the pages of an export, each of them and all
together, the rooms the list shows for that body on all of its pages. -/
theorem export_selects_list (sql : Collation) (equiv : Char → Char → Bool) (hlike : sql.IsLike equiv) :
    (∀ term value : String, sql.like value ("%" ++ escapeLike term ++ "%") = true ↔ Contains equiv term.toList value.toList) ∧
    ∀ (catalogue : RoomCatalogue sql) (body : RoomCatalogFilters) (stored : Json), (normalizeRoomExportFilters body).toJson.Reorders stored →
      ∃ filters, readFilters stored = some filters ∧ ∀ pageSize queryPageSize : ℕ, 1 ≤ pageSize → 1 ≤ queryPageSize →
        (∀ after, exportPage catalogue filters queryPageSize after =
          ((listAll catalogue body pageSize).filter fun row => after.all (· < row.1.id)).take queryPageSize) ∧
        ∃ enough, ∀ fuel ≥ enough, exportRows catalogue filters queryPageSize fuel = some (.ok (listAll catalogue body pageSize)) := by
  refine ⟨like_escapeLike hlike, fun catalogue body stored hstored => ⟨_, readFilters_stored hstored, ?_⟩⟩
  intro pageSize queryPageSize hsize hquery
  have hlist : listAll catalogue (normalizeRoomExportFilters body) pageSize = listAll catalogue body pageSize := by
    simp only [listAll, list, selected_normalized]
  rw [← hlist]
  refine ⟨exportPage_eq hsize, (selected catalogue (normalizeRoomExportFilters body)).length + 1, fun fuel hfuel => ?_⟩
  exact exportRows_eq hsize hquery hfuel

/-- Letters that differ in case alone are equal. -/
def caseless (a b : Char) : Bool := a.toLower = b.toLower

def caselessCollation : Collation :=
  { binaryCollation with like := fun value pattern => accepts caseless (likeSyntax.tokens pattern.toList) value.toList }

/-- The two rooms, in another collation. -/
def twoRoomsCaseless : RoomCatalogue caselessCollation where
  rooms := twoRooms.rooms
  roomTypes := twoRooms.roomTypes
  amenities := twoRooms.amenities
  roomAmenities := twoRooms.roomAmenities
  roomIds := twoRooms.roomIds
  roomTypeIds := twoRooms.roomTypeIds
  amenityCodes := twoRooms.amenityCodes
  bedCounts := twoRooms.bedCounts
  instants := twoRooms.instants

/-- A padded term and a bed count, whose keys the column puts in another order. -/
theorem export_selects_list_padded :
    (caselessCollation.like "DELUXE 5%_B" ("%" ++ escapeLike "5%_b" ++ "%") = true ↔ Contains caseless "5%_b".toList "DELUXE 5%_B".toList) ∧
    ∃ filters, readFilters (.obj [("beds", .num (2 : ℕ)), ("query", .str "a-2")]) = some filters ∧ ∃ enough, ∀ fuel ≥ enough,
      exportRows twoRoomsCaseless filters 1 fuel = some (.ok (listAll twoRoomsCaseless ⟨some " a-2 ", none, none, some (some 2), some ""⟩ 1)) := by
  obtain ⟨hterm, hexport⟩ := export_selects_list caselessCollation caseless fun _ _ => rfl
  refine ⟨hterm "5%_b" "DELUXE 5%_B", ?_⟩
  have hjson : (normalizeRoomExportFilters ⟨some " a-2 ", none, none, some (some 2), some ""⟩).toJson =
      .obj [("query", .str "a-2"), ("beds", .num (2 : ℕ))] := by rfl
  obtain ⟨filters, hread, hrows⟩ := hexport twoRoomsCaseless ⟨some " a-2 ", none, none, some (some 2), some ""⟩
    (.obj [("beds", .num (2 : ℕ)), ("query", .str "a-2")]) (by
      rw [hjson]
      refine .of_forall (List.Perm.swap _ _ _) (by decide) fun f hf => ?_
      simp only [List.mem_cons, List.not_mem_nil, or_false] at hf
      rcases hf with rfl | rfl
      · exact ⟨_, by simp, .str _⟩
      · exact ⟨_, by simp, .num _⟩)
  exact ⟨filters, hread, (hrows 1 1 le_rfl le_rfl).2⟩

example : (listAll twoRoomsCaseless ⟨some " a-2 ", none, none, some (some 2), some ""⟩ 1).map (·.1.id) = [12] := by decide +kernel

end HotelBackend.Reports
