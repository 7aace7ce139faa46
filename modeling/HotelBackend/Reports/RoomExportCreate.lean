import HotelBackend.Common.JsonOrder
import HotelBackend.Bookings.Service
import HotelBackend.Notifications.NotificationEvent
import HotelBackend.Reports.ExportJobs

/-!
# Replays of a creation

Two operations keep their first response in a JSON column and answer a retry from it: the creation of a
booking and that of a room export. The column keeps the value and may reorder its keys. An export puts
every response through `toRoomExportCreateResponse`, fresh or replayed; a booking returns what the column
returned. So a replay of an export is the first response byte for byte, and a replay of a booking is only
if the column returns the keys in the order they were written (`replay_exact_iff`), which MySQL's does not
(`mysql_not_exact`).
-/

namespace HotelBackend.Reports

open HotelBackend.Common
open HotelBackend.Theory
open HotelBackend.Theory.Transactions
open HotelBackend.Bookings
open HotelBackend.Rooms
open HotelBackend.Notifications (field)

/-! ### The responses -/

def ExportJobStatus.text : ExportJobStatus → String
  | queued => "QUEUED"
  | processing => "PROCESSING"
  | completed => "COMPLETED"
  | failed => "FAILED"

def roomExportPollPathPrefix : String := "/api/v1/admin/exports"

/-- The accepted response in one fixed key order; a key that is not there is left out. -/
def toRoomExportCreateResponse (stored : Json) : Json :=
  let fields := match stored with
    | .obj fields => fields
    | _ => []
  .obj (["id", "status", "createdAt", "pollPath"].filterMap fun key => (field fields key).map fun value => (key, value))

/-- The two features that share the retry contract. -/
inductive CreateOperation where
  | bookingCreate
  | roomExportCreate
  deriving DecidableEq, Repr

/-- The response of a job just created. -/
def createdResponse (jobId : String) (createdAt : ℕ) : Json :=
  toRoomExportCreateResponse (.obj [("id", .str jobId), ("status", .str ExportJobStatus.queued.text),
    ("createdAt", .str (toISOString createdAt)), ("pollPath", .str (roomExportPollPathPrefix ++ "/" ++ jobId))])

/-- What a creation can answer at first, and store. -/
inductive FirstResponse : CreateOperation → Json → Prop where
  | booking (actorUserId : ℕ) (input : BookingCreateInput) (today : String) (room : Room) (roomTime : RoomTime) (roomType : RoomType)
      (x : Supply) (hstay : assertBookingDates input.checkIn input.checkOut today ≠ 0)
      (hprice : room.basePriceAmount * assertBookingDates input.checkIn input.checkOut today ≤ maxSafeInteger) :
      FirstResponse .bookingCreate (BookingsService.toCreateResponse
        (BookingsService.newBooking actorUserId roomTime input
          (room.basePriceAmount * assertBookingDates input.checkIn input.checkOut today) room.currency x)
        room roomType (assertBookingDates input.checkIn input.checkOut today))
  | roomExport (jobId : String) (createdAt : ℕ) : FirstResponse .roomExportCreate (createdResponse jobId createdAt)

/-- What a retry answers, of the body the column returns. -/
def replay : CreateOperation → Json → Json
  | .bookingCreate, responseBody => responseBody
  | .roomExportCreate, responseBody => toRoomExportCreateResponse responseBody

/-! ### The creation of a booking -/

/-- A creation answers with the body of a completed row, or with a first response, which its row then has. -/
theorem createInTransaction_answers (D : Discipline Db Key) (cfg : Config) (today : String) (actorUserId : ℕ) (key fingerprint : String)
    (input : BookingCreateInput) (l : Local Db Key) :
    (BookingsService.createInTransaction cfg today actorUserId key fingerprint input).wp D
      (fun v l' => (∃ row : IdempotencyKey, row.status = .completed ∧ v = replay .bookingCreate (row.responseBody.getD .null)) ∨
        (FirstResponse .bookingCreate v ∧ ∃ id, ∀ db, ∀ row ∈ (l'.pend db).idempotencyKeys, row.id = id →
          row.status = .completed ∧ row.responseBody = some v)) l := by
  rw [BookingsService.createInTransaction, Txn.wp_bind]
  refine Txn.wp_of_forall _ (fun row l₁ => ?_) l
  split
  · next hrow => exact .inl ⟨row, hrow, rfl⟩
  rw [Txn.wp_bind, Txn.wp_require]
  intro hstay
  rw [Txn.wp_bind]
  refine Txn.wp_of_forall _ (fun target l₂ => ?_) l₁
  obtain ⟨room, roomTime⟩ := target
  rw [Txn.wp_bind, Txn.wp_require]
  intro hprice
  rw [Txn.wp_bind, BookingsService.createPendingBooking, Txn.wp_bind, insertBooking, Txn.wp_bind, Txn.wp_writing]
  intro db _ x _
  rw [Txn.wp_pure, Txn.wp_bind]
  refine Txn.wp_of_forall _ (fun _ l₃ => ?_) _
  rw [Txn.wp_pure, Txn.wp_bind]
  refine Txn.wp_of_forall _ (fun _ l₄ => ?_) _
  rw [Txn.wp_bind]
  refine Txn.wp_of_forall _ (fun roomType l₅ => ?_) _
  rw [Txn.wp_bind, IdempotencyRepository.complete, Txn.wp_writing]
  intro db' _ _ _
  rw [Txn.wp_pure]
  refine .inr ⟨.booking actorUserId input today room roomTime roomType x hstay hprice, row.id, fun db'' row' hmem hid => ?_⟩
  obtain ⟨old, -, ⟨-, rfl⟩ | ⟨hother, rfl⟩⟩ := Table.mem_update.1 hmem
  · exact ⟨rfl, rfl⟩
  · exact absurd hid (of_decide_eq_false hother)

/-! ### What is spelled -/

section Spelled

/-- A stay has no more nights than there are days in ten thousand years. -/
theorem nights_le (checkIn checkOut today : String) : assertBookingDates checkIn checkOut today ≤ maxSafeInteger := by
  unfold assertBookingDates
  split
  · next first last hfirst hlast =>
    split
    · exact Nat.zero_le _
    · obtain ⟨-, hyear⟩ := parseHotelDate_spec hfirst
      obtain ⟨-, hyear'⟩ := parseHotelDate_spec hlast
      have hlow := (yearFromDay_spec first).1
      have hhigh := (yearFromDay_spec last).2
      have hfrom := dayFromYear_mono hyear.1
      have hto := dayFromYear_mono (show yearFromDay last + 1 ≤ 10000 by omega)
      have hzero : dayFromYear 0 = -719528 := by decide
      have hend : dayFromYear 10000 = 2932897 := by decide
      unfold maxSafeInteger
      omega
  · exact Nat.zero_le _

theorem plain_strings {fields : List (String × Json)} (hkeys : (fields.map (·.1)).Nodup) (h : ∀ f ∈ fields, ∃ s, f.2 = .str s) :
    (Json.obj fields).Plain := by
  refine .obj hkeys fun f hf => ?_
  obtain ⟨s, hs⟩ := h f hf
  rw [hs]
  exact .str s

theorem createdResponse_eq (jobId : String) (createdAt : ℕ) : createdResponse jobId createdAt =
    .obj [("id", .str jobId), ("status", .str ExportJobStatus.queued.text), ("createdAt", .str (toISOString createdAt)),
      ("pollPath", .str (roomExportPollPathPrefix ++ "/" ++ jobId))] := rfl

/-- What a creation answers is written without loss. -/
theorem FirstResponse.plain {op : CreateOperation} {v : Json} (h : FirstResponse op v) : v.Plain := by
  cases h with
  | booking actorUserId input today room roomTime roomType x hstay hprice =>
    have hroomType : (Json.obj [("id", .str (toString roomType.id)), ("name", .str roomType.name)]).Plain :=
      plain_strings (show ["id", "name"].Nodup by decide) (by simp)
    have hroom : (Json.obj [("id", .str (toString room.id)), ("roomNumber", .str room.roomNumber),
        ("roomType", .obj [("id", .str (toString roomType.id)), ("name", .str roomType.name)])]).Plain := by
      refine .obj (show ["id", "roomNumber", "roomType"].Nodup by decide) fun f hf => ?_
      simp only [List.mem_cons, List.not_mem_nil, or_false] at hf
      rcases hf with rfl | rfl | rfl
      · exact .str _
      · exact .str _
      · exact hroomType
    have hamount : (Json.obj [("amount", .num (jsNumber (room.basePriceAmount * assertBookingDates input.checkIn input.checkOut today))),
        ("currency", .str room.currency)]).Plain := by
      refine .obj (show ["amount", "currency"].Nodup by decide) fun f hf => ?_
      simp only [List.mem_cons, List.not_mem_nil, or_false] at hf
      rcases hf with rfl | rfl
      · exact .num (jsNumber_le_iff.2 hprice)
      · exact .str _
    have hversion : (Json.num (jsNumber 1)).Plain := .num (jsNumber_le_iff.2 (by decide))
    refine .obj (show ["id", "room", "checkIn", "checkOut", "nights", "status", "price", "rejectionReason", "version", "createdAt",
      "updatedAt"].Nodup by decide) fun f hf => ?_
    simp only [BookingsService.newBooking, List.mem_cons, List.not_mem_nil, or_false] at hf
    rcases hf with rfl | rfl | rfl | rfl | rfl | rfl | rfl | rfl | rfl | rfl | rfl
    · exact .str _
    · exact hroom
    · exact .str _
    · exact .str _
    · exact .num (nights_le _ _ _)
    · exact .str _
    · exact hamount
    · exact .null
    · exact hversion
    · exact .str _
    · exact .str _
  | roomExport jobId createdAt =>
    rw [createdResponse_eq]
    exact plain_strings (show ["id", "status", "createdAt", "pollPath"].Nodup by decide) (by simp)

/-- A string is found under its key, wherever the key is now. -/
theorem field_of_reorders {fields fields' : List (String × Json)} {key s : String} (h : (Json.obj fields).Reorders (.obj fields'))
    (hmem : (key, Json.str s) ∈ fields) : field fields' key = some (.str s) := by
  obtain ⟨g, hg, hkey⟩ := h.exists_of_mem hmem
  have hfound : (fields'.find? (·.1 = key)).isSome = true := List.find?_isSome.2 ⟨g, hg, decide_eq_true hkey⟩
  obtain ⟨g', hg'⟩ := Option.isSome_iff_exists.1 hfound
  have hkey' : g'.1 = key := by simpa using List.find?_some hg'
  have hval := (h.of_mem hmem (List.mem_of_find?_eq_some hg') hkey'.symm).eq_str
  rw [field, hg', Option.map_some, hval]

/-- The mapper undoes any reordering of a response it made. -/
theorem toRoomExportCreateResponse_reordered {jobId : String} {createdAt : ℕ} {w : Json} (h : (createdResponse jobId createdAt).Reorders w) :
    toRoomExportCreateResponse w = createdResponse jobId createdAt := by
  rw [createdResponse_eq] at h
  cases w with
  | obj fields =>
    have hid : field fields "id" = some (.str jobId) := field_of_reorders h (by simp)
    have hstatus : field fields "status" = some (.str ExportJobStatus.queued.text) := field_of_reorders h (by simp)
    have hcreated : field fields "createdAt" = some (.str (toISOString createdAt)) := field_of_reorders h (by simp)
    have hpath : field fields "pollPath" = some (.str (roomExportPollPathPrefix ++ "/" ++ jobId)) := field_of_reorders h (by simp)
    simp only [toRoomExportCreateResponse, List.filterMap_cons, hid, hstatus, hcreated, hpath, Option.map_some, List.filterMap_nil,
      createdResponse_eq]
  | null | bool | num | str | arr => cases h

end Spelled

/-! ### The results -/

/-- **Replays are exact** for an export, whatever the column does to the order of keys, and for a booking
exactly if the column leaves it alone. -/
theorem replay_exact_iff (op : CreateOperation) (first stored : Json) (hfirst : FirstResponse op first) (hstored : first.Reorders stored) :
    stringify (replay op stored) = stringify first ↔ op = .roomExportCreate ∨ first.SameOrder stored := by
  cases op with
  | bookingCreate =>
    rw [replay, stringify_eq_iff hfirst.plain hstored]
    exact (or_iff_right (by decide)).symm
  | roomExportCreate =>
    cases hfirst with
    | roomExport jobId createdAt =>
      rw [replay, toRoomExportCreateResponse_reordered hstored]
      exact iff_of_true rfl (.inl rfl)

/-- A guest books room `A-201` for two nights. -/
def acceptedBooking : Json :=
  BookingsService.toCreateResponse
    (BookingsService.newBooking 42 ⟨3, 1, "2026-10-01", "2026-11-01", .active⟩ ⟨1, "2026-10-05", "2026-10-07"⟩ 2000000 "VND"
      ⟨9, "0", "01K6Z0000000000000000000AB", 1789000000000⟩)
    ⟨1, 7, "A-201", 1000000, "VND", .active⟩ ⟨7, "Deluxe"⟩ 2

/-- As a JSON column of MySQL returns it: short keys first, keys of one length in the order of their bytes. -/
def acceptedBookingStored : Json :=
  .obj [("id", .str "01K6Z0000000000000000000AB"),
    ("room", .obj [("id", .str "1"), ("roomType", .obj [("id", .str "7"), ("name", .str "Deluxe")]), ("roomNumber", .str "A-201")]),
    ("price", .obj [("amount", .num (jsNumber 2000000)), ("currency", .str "VND")]),
    ("nights", .num (2 : ℕ)),
    ("status", .str BookingStatus.pending.text),
    ("checkIn", .str "2026-10-05"),
    ("version", .num (jsNumber 1)),
    ("checkOut", .str "2026-10-07"),
    ("createdAt", .str (toISOString 1789000000000)),
    ("updatedAt", .str (toISOString 1789000000000)),
    ("rejectionReason", .null)]

theorem acceptedBooking_first : FirstResponse .bookingCreate acceptedBooking :=
  .booking 42 ⟨1, "2026-10-05", "2026-10-07"⟩ "2026-09-01" ⟨1, 7, "A-201", 1000000, "VND", .active⟩
    ⟨3, 1, "2026-10-01", "2026-11-01", .active⟩ ⟨7, "Deluxe"⟩ ⟨9, "0", "01K6Z0000000000000000000AB", 1789000000000⟩ (by decide) (by decide)

theorem acceptedBooking_reorders : acceptedBooking.Reorders acceptedBookingStored := by
  have hroomType : (Json.obj [("id", .str "7"), ("name", .str "Deluxe")]).Reorders (.obj [("id", .str "7"), ("name", .str "Deluxe")]) :=
    .refl (plain_strings (by decide) (by simp))
  have hroom : (Json.obj [("id", .str "1"), ("roomNumber", .str "A-201"), ("roomType", .obj [("id", .str "7"), ("name", .str "Deluxe")])]).Reorders
      (.obj [("id", .str "1"), ("roomType", .obj [("id", .str "7"), ("name", .str "Deluxe")]), ("roomNumber", .str "A-201")]) := by
    refine .of_forall (by decide) (by decide) ?_
    simp only [List.forall_mem_cons]
    exact ⟨⟨_, by simp, .str _⟩, ⟨_, by simp, .str _⟩, ⟨_, by simp, hroomType⟩, by simp⟩
  have hprice : (Json.obj [("amount", .num (jsNumber 2000000)), ("currency", .str "VND")]).Reorders
      (.obj [("amount", .num (jsNumber 2000000)), ("currency", .str "VND")]) := by
    refine .of_forall (.refl _) (by decide) ?_
    simp only [List.forall_mem_cons]
    exact ⟨⟨_, by simp, .num _⟩, ⟨_, by simp, .str _⟩, by simp⟩
  refine .of_forall (show List.Perm ["id", "room", "checkIn", "checkOut", "nights", "status", "price", "rejectionReason", "version",
    "createdAt", "updatedAt"] ["id", "room", "price", "nights", "status", "checkIn", "version", "checkOut", "createdAt", "updatedAt",
    "rejectionReason"] by decide) (show ["id", "room", "checkIn", "checkOut", "nights", "status", "price", "rejectionReason", "version",
    "createdAt", "updatedAt"].Nodup by decide) ?_
  simp only [List.forall_mem_cons, BookingsService.newBooking]
  exact ⟨⟨_, by simp, .str _⟩, ⟨_, by simp, hroom⟩, ⟨_, by simp, .str _⟩, ⟨_, by simp, .str _⟩,
    ⟨_, by simp, .num _⟩, ⟨_, by simp, .str _⟩, ⟨_, by simp, hprice⟩, ⟨_, by simp, .null⟩,
    ⟨_, by simp, .num _⟩, ⟨_, by simp, .str _⟩, ⟨_, by simp, .str _⟩, by simp⟩

theorem acceptedBooking_not_sameOrder : ¬ acceptedBooking.SameOrder acceptedBookingStored := by
  intro h
  cases h with
  | obj hkeys _ =>
    -- the third key was that of the arrival, and is that of the price
    have hthird := congrArg (·[2]?) hkeys
    exact absurd (Option.some.inj hthird) (show "checkIn" ≠ "price" by decide)

/-- The comment of `complete` promises the response byte for byte; MySQL's column breaks that for a booking. -/
theorem mysql_not_exact : ¬ ∀ (op : CreateOperation) (first stored : Json), FirstResponse op first → first.Reorders stored →
    stringify (replay op stored) = stringify first := by
  intro h
  have heq := h .bookingCreate _ _ acceptedBooking_first acceptedBooking_reorders
  rw [replay, stringify_eq_iff acceptedBooking_first.plain acceptedBooking_reorders] at heq
  exact acceptedBooking_not_sameOrder heq

/-- The same body, retried: not exact from MySQL's column, exact from one that leaves the keys alone. -/
theorem replay_exact_iff_booking : stringify (replay .bookingCreate acceptedBookingStored) ≠ stringify acceptedBooking ∧
    stringify (replay .bookingCreate acceptedBooking) = stringify acceptedBooking := by
  have hfirst := acceptedBooking_first
  have hmysql := replay_exact_iff .bookingCreate _ _ hfirst acceptedBooking_reorders
  have hsame := replay_exact_iff .bookingCreate _ _ hfirst (.refl hfirst.plain)
  exact ⟨fun heq => (hmysql.1 heq).elim nofun acceptedBooking_not_sameOrder, hsame.2 (.inr (.refl hfirst.plain))⟩

end HotelBackend.Reports
