import HotelBackend.Theory.Solo
import HotelBackend.Bookings.Isolation
import HotelBackend.Bookings.EventKeys
import HotelBackend.Rooms.RoomSearchService

/-!
# Shown availability is bookability

The public reads decide availability by a query over windows and confirmed bookings; the write path
decides it by a window lookup at the creation and a locking probe at the approval. From any state that
any calls can reach, a room is shown as available for a stay exactly when creating a booking for it
and approving that booking, with nothing in between, both succeed (`shown_iff_bookable`).

Both calls are run alone, whatever they are supplied with: `create_alone` says that a creation makes a
booking in a window that contains the stay, or that there is none, and `approve_alone` that the approval
of what was created goes through, or that the room is taken.
-/

namespace HotelBackend.Bookings

open HotelBackend.Common
open HotelBackend.Theory
open HotelBackend.Theory.Transactions
open HotelBackend.Rooms
open HotelBackend.Outbox

/-! ### Bookable -/

/-- What the keys of the schema promise of the rooms. -/
structure Catalogue (db : Db) : Prop where
  /-- `rooms` has a primary key. -/
  rooms : Table.UniqueBy (·.id) db.rooms
  /-- `rooms.room_type_id` refers to a room type. -/
  roomTypes : ∀ r ∈ db.rooms, ∃ t ∈ db.roomTypes, t.id = r.roomTypeId

/-- A creation for the room and the stay, and the approval of the booking it makes, with nothing in
between, both succeed. -/
def Bookable (cfg : Config) (db : Db) (today : String) (actorUserId : ℕ) (key : String) (adminUserId roomId : ℕ) (stay : StayRange) : Prop :=
  SucceedsAlone (bookingSystem cfg) db (.create today actorUserId (some key) ⟨roomId, stay.checkIn, stay.checkOut⟩) fun _ db₁ =>
    ∃ b, db₁.bookings = db.bookings ++ [b] ∧
      SucceedsAlone (bookingSystem cfg) db₁ (.approve adminUserId b.publicId) fun answer _ => answer = .transition false

/-! ### Statements, alone -/

section Statements

variable {α : Type} {base now : Db} {E : AppError → Prop}

/-- There is always a next id. -/
theorem exists_above {ρ : Type} (rows : List ρ) (rowId : ρ → ℕ) : ∃ id, above rows rowId id = true := by
  induction rows with
  | nil => exact ⟨0, rfl⟩
  | cons r rows ih =>
    obtain ⟨id, hid⟩ := ih
    refine ⟨max id (rowId r + 1), ?_⟩
    simp only [above, List.all_cons, List.all_eq_true, Bool.and_eq_true, decide_eq_true_eq] at hid ⊢
    refine ⟨by omega, fun s hs => ?_⟩
    have hlt := hid s hs
    omega

theorem alone_insertStatusHistory {bookingId : ℕ} {fromStatus : Option BookingStatus} {toStatus : BookingStatus}
    {actorType : BookingActorType} {actorUserId : Option ℕ} {reason : Option String} {Q : Supply → Db → Prop}
    (h : ∀ x rows, Q x { now with statusHistory := rows }) :
    (insertStatusHistory bookingId fromStatus toStatus actorType actorUserId reason).alone base Q E now := by
  obtain ⟨id, hid⟩ := exists_above now.statusHistory (·.id)
  exact ⟨⟨⟨id, "", "", 0⟩, hid⟩, fun x _ => h x _⟩

/-- An event whose key is free is written. -/
theorem alone_insertOutboxEvent {eventType key : String} {payload : Json} {Q : Supply → Db → Prop}
    (hfree : ∀ e ∈ now.outboxEvents, e.idempotencyKey ≠ key)
    (h : ∀ x events, (∀ e ∈ events, e ∈ now.outboxEvents ∨ e.idempotencyKey = key) → Q x { now with outboxEvents := events }) :
    (insertOutboxEvent eventType payload key).alone base Q E now := by
  obtain ⟨uuid, huuid⟩ := exists_string_notMem (now.outboxEvents.map (·.id))
  refine ⟨⟨⟨0, uuid, "", 0⟩, ?_⟩, fun x _ => h x _ fun e he => ?_⟩
  · simp only [List.all_eq_true, decide_eq_true_eq]
    exact fun e he => ⟨fun heq => huuid (heq ▸ List.mem_map_of_mem he), hfree e he⟩
  · rcases List.mem_append.1 he with he | he
    · exact .inl he
    · obtain rfl := List.mem_singleton.1 he
      exact .inr rfl

theorem alone_record {enabled : Bool} {change : BookingLifecycleChange} {Q : Unit → Db → Prop}
    (hfree : ∀ e ∈ now.outboxEvents, e.idempotencyKey ≠ outboxIdempotencyKey bookingLifecycleEventType change.booking)
    (h : ∀ events, (∀ e ∈ events, e ∈ now.outboxEvents ∨ e.idempotencyKey = outboxIdempotencyKey bookingLifecycleEventType change.booking) →
      Q () { now with outboxEvents := events }) :
    (record enabled change).alone base Q E now := by
  unfold record
  split
  · rw [Txn.alone_bind]
    exact alone_insertOutboxEvent hfree fun _ events hevents => h events hevents
  · exact h now.outboxEvents fun _ he => .inl he

/-- A plain read of a row that is there. -/
theorem alone_findOneOrFail {ρ : Type} {table : Db → List ρ} {p : ρ → Bool} {Q : ρ → Db → Prop} (hr : ∃ r ∈ table now, p r = true)
    (h : ∀ r, Q r now) : (findOneOrFail table p).alone base Q E now := by
  rw [findOneOrFail, Txn.alone_bind, Txn.alone_reading]
  obtain ⟨r, hmem, hp⟩ := hr
  obtain ⟨r', hr'⟩ := Option.isSome_iff_exists.1 (List.find?_isSome.2 ⟨r, hmem, hp⟩)
  rw [hr', Txn.alone_orThrow_some]
  exact h r'

/-- A locking read of the first row that matches. -/
theorem alone_findLocked {ρ : Type} {table : Db → List ρ} {key : ρ → Key} {p : ρ → Bool} {Q : Option ρ → Db → Prop} {r : Option ρ}
    (hfind : (table now).find? p = r) (h : Q r now) : (findLocked table key p).alone base Q E now := by
  rw [findLocked, Txn.alone_locking, hfind]
  exact h

theorem alone_lockRoom {roomId : ℕ} {room : Room} {Q : Room → Db → Prop} (hfind : now.rooms.find? (·.id = roomId) = some room)
    (h : Q room now) : (lockRoom roomId).alone base Q E now := by
  rw [lockRoom, Txn.alone_bind]
  exact alone_findLocked hfind h

end Statements

/-! ### The creation, alone -/

/-- What a creation leaves: the booking `b` in a window `t` that contains the stay. -/
structure Created (db : Db) (roomId : ℕ) (stay : StayRange) (db' : Db) (t : RoomTime) (b : Booking) : Prop where
  rooms : db'.rooms = db.rooms
  roomTimes : db'.roomTimes = db.roomTimes
  bookings : db'.bookings = db.bookings ++ [b]
  events : ∀ e ∈ db'.outboxEvents, e ∈ db.outboxEvents ∨ e.idempotencyKey = outboxIdempotencyKey bookingLifecycleEventType b
  newId : ∀ y ∈ db.bookings, y.id ≠ b.id
  newPublicId : ∀ y ∈ db.bookings, y.publicId ≠ b.publicId
  window : t ∈ db.roomTimes
  windowId : b.roomTimeId = t.id
  room : t.roomId = roomId
  active : t.status = .active
  covers : t.covers b.checkIn b.checkOut
  checkIn : b.checkIn = stay.checkIn
  checkOut : b.checkOut = stay.checkOut
  status : b.status = .pending
  version : b.version = 1

section Create

variable {cfg : Config} {db now : Db} {today : String} {actorUserId : ℕ} {key : String} {room : Room} {stay : StayRange}
  {E : AppError → Prop}

/-- The store with one more idempotency row. -/
theorem alone_lockIdempotency {Q : IdempotencyKey → Db → Prop} {fingerprint : String}
    (hnew : now.idempotencyKeys.any (isKeyRow actorUserId bookingCreateOperation key) = false)
    (h : ∀ row rows, row.status = .pending → Q row { now with idempotencyKeys := rows }) :
    (IdempotencyRepository.lock cfg actorUserId bookingCreateOperation key fingerprint).alone db Q E now := by
  obtain ⟨id, hid⟩ := exists_above now.idempotencyKeys (·.id)
  rw [IdempotencyRepository.lock, Txn.alone_bind, IdempotencyRepository.claim, Txn.alone_writing]
  refine ⟨⟨⟨id, "", "", 0⟩, hid⟩, fun x _ => ?_⟩
  rw [hnew, if_neg Bool.false_ne_true, Txn.alone_bind]
  -- the row just written is the first of its key
  have hfind : now.idempotencyKeys.find? (isKeyRow actorUserId bookingCreateOperation key) = none :=
    List.find?_eq_none.2 (List.any_eq_false.1 hnew)
  refine alone_findLocked (r := some ⟨x.id, actorUserId, bookingCreateOperation, key, fingerprint, .pending, none, none,
    x.now + cfg.retentionHours * 3600000000⟩) ?_ ?_
  · simp only [List.find?_append, hfind, Option.none_or]
    simp [isKeyRow]
  · rw [Txn.alone_bind, Txn.alone_orThrow_some, Txn.alone_bind, Txn.alone_require_pos rfl, Txn.alone_pure]
    exact h _ _ rfl

/-- The room is found, and then its window. -/
theorem alone_lockBookingTarget {Q : Room × RoomTime → Db → Prop} (hcat : Catalogue now) (hroom : room ∈ now.rooms) (hactive : room.status = .active)
    (hwindow : ∀ t, containingWindow now room.id stay.checkIn stay.checkOut = some t → Q (room, t) now)
    (hnone : containingWindow now room.id stay.checkIn stay.checkOut = none → E .bookingWindowUnavailable) :
    (BookingsService.lockBookingTarget ⟨room.id, stay.checkIn, stay.checkOut⟩).alone db Q E now := by
  rw [BookingsService.lockBookingTarget, Txn.alone_bind]
  refine alone_lockRoom (Table.find?_of_key hcat.rooms hroom (decide_eq_true rfl) fun _ h => of_decide_eq_true h) ?_
  rw [Txn.alone_bind, Txn.alone_require_pos hactive, Txn.alone_bind, lockContainingWindow, Txn.alone_bind, Txn.alone_locking]
  cases hfound : containingWindow now room.id stay.checkIn stay.checkOut with
  | none => exact hnone hfound
  | some t => exact hwindow t hfound

theorem containingWindow_eq_none : containingWindow now room.id stay.checkIn stay.checkOut = none ↔ ¬ HasWindow now room.id stay := by
  rw [containingWindow, List.head?_eq_none_iff, ← List.length_eq_zero_iff, List.length_insertionSort, List.length_eq_zero_iff,
    containingWindows, List.filter_eq_nil_iff]
  simp only [decide_eq_true_eq, HasWindow, not_exists, not_and]

/-- A price that the response can carry. -/
def PriceInRange (room : Room) (today : String) (stay : StayRange) : Prop :=
  room.basePriceAmount * assertBookingDates stay.checkIn stay.checkOut today ≤ maxSafeInteger

instance (room : Room) (today : String) (stay : StayRange) : Decidable (PriceInRange room today stay) :=
  inferInstanceAs (Decidable (_ ≤ _))

/-- Nobody has used the key yet. -/
def KeyUnused (db : Db) (actorUserId : ℕ) (key : String) : Prop :=
  db.idempotencyKeys.any (isKeyRow actorUserId bookingCreateOperation key) = false

instance (db : Db) (actorUserId : ℕ) (key : String) : Decidable (KeyUnused db actorUserId key) :=
  inferInstanceAs (Decidable (_ = _))

/-- A creation makes a booking in a window that contains the stay, or there is none. -/
theorem create_alone (hcat : Catalogue db) (hnamed : EventsNamed db) (hroom : room ∈ db.rooms) (hactive : room.status = .active)
    (hkey : idempotencyKeyValid key = true) (hunused : KeyUnused db actorUserId key)
    (hstay : assertBookingDates stay.checkIn stay.checkOut today ≠ 0) (hprice : PriceInRange room today stay) :
    (BookingsService.create cfg today actorUserId (some key) ⟨room.id, stay.checkIn, stay.checkOut⟩).alone db
      (fun _ db₁ => ∃ t b, Created db room.id stay db₁ t b) (fun _ => ¬ HasWindow db room.id stay) db := by
  have hsome : (some key).filter idempotencyKeyValid = some key := by rw [Option.filter_some, if_pos hkey]
  rw [BookingsService.create, hsome, Txn.alone_bind, Txn.alone_orThrow_some, BookingsService.createInTransaction, Txn.alone_bind]
  refine alone_lockIdempotency hunused fun row rows hrow => ?_
  rw [if_neg (by rw [hrow]; decide), Txn.alone_bind, Txn.alone_require_pos hstay, Txn.alone_bind]
  refine alone_lockBookingTarget ⟨hcat.rooms, hcat.roomTypes⟩ hroom hactive (fun t ht => ?_) containingWindow_eq_none.1
  obtain ⟨htmem, htroom, htactive, htcovers⟩ := mem_of_containingWindow ht
  have hprice : room.basePriceAmount * assertBookingDates stay.checkIn stay.checkOut today ≤ maxSafeInteger := hprice
  rw [Txn.alone_bind, Txn.alone_require_pos hprice, Txn.alone_bind, BookingsService.createPendingBooking, Txn.alone_bind,
    insertBooking, Txn.alone_bind, Txn.alone_writing]
  obtain ⟨id, hid⟩ := exists_above db.bookings (·.id)
  obtain ⟨publicId, hpublicId⟩ := exists_string_notMem (db.bookings.map (·.publicId))
  refine ⟨⟨⟨id, "", publicId, 0⟩, ?_⟩, fun x hok => ?_⟩
  · simp only [Bool.and_eq_true, List.all_eq_true, decide_eq_true_eq]
    exact ⟨hid, fun y hy heq => hpublicId (heq ▸ List.mem_map_of_mem hy)⟩
  simp only [Bool.and_eq_true, above, List.all_eq_true, decide_eq_true_eq] at hok
  obtain ⟨hids, hpublicIds⟩ := hok
  rw [Txn.alone_pure, Txn.alone_bind]
  refine alone_insertStatusHistory fun _ history => ?_
  rw [Txn.alone_pure, Txn.alone_bind]
  refine alone_record (hnamed.key_free hpublicIds lifecycle_mem_bookingEventTypes) fun events hevents => ?_
  rw [Txn.alone_bind]
  refine alone_findOneOrFail ?_ fun roomType => ?_
  · obtain ⟨roomType, hmem, hid⟩ := hcat.roomTypes room hroom
    exact ⟨roomType, hmem, decide_eq_true hid⟩
  rw [Txn.alone_bind, IdempotencyRepository.complete, Txn.alone_writing]
  refine ⟨⟨⟨0, "", "", 0⟩, rfl⟩, fun _ _ => ?_⟩
  rw [Txn.alone_pure]
  exact ⟨t, _, rfl, rfl, rfl, hevents, fun y hy => Nat.ne_of_lt (hids y hy), hpublicIds, htmem, rfl, htroom, htactive, htcovers,
    rfl, rfl, rfl, rfl⟩

end Create

/-! ### The approval, alone -/

section Approve

variable {cfg : Config} {db db₁ : Db} {adminUserId : ℕ} {room : Room} {stay : StayRange} {t : RoomTime} {b : Booking}

/-- The probe looks for what the public reads look for. -/
theorem conflict_none_iff (h : Created db room.id stay db₁ t b) :
    (db₁.bookings.find? (confirmedConflict db₁ room.id b.id b.checkIn b.checkOut)).isNone = true ↔ NotTaken db room.id stay := by
  rw [Option.isNone_iff_eq_none, List.find?_eq_none, h.bookings]
  simp only [confirmedConflict, h.roomTimes, h.checkIn, h.checkOut, Bool.and_eq_true, List.any_eq_true, decide_eq_true_eq, NotTaken, overlaps]
  constructor
  · rintro hnone y hy hconf hroom ⟨hin, hout⟩
    exact hnone y (List.mem_append_left _ hy) ⟨⟨⟨⟨hroom, h.newId y hy⟩, hconf⟩, hin⟩, hout⟩
  · rintro hfree y hy ⟨⟨⟨⟨hroom, hne⟩, hconf⟩, hin⟩, hout⟩
    rcases List.mem_append.1 hy with hy | hy
    · exact hfree y hy hconf hroom ⟨hin, hout⟩
    · exact hne (congrArg Booking.id (List.mem_singleton.1 hy))

/-- The keys of the events of the approval are free. -/
theorem approval_keys_free (h : Created db room.id stay db₁ t b) (hnamed : EventsNamed db) (saved : Booking)
    (hid : saved.publicId = b.publicId) (hversion : saved.version = b.version + 1) {eventType : String} (htype : eventType ∈ bookingEventTypes) :
    ∀ e ∈ db₁.outboxEvents, e.idempotencyKey ≠ outboxIdempotencyKey eventType saved := by
  intro e he heq
  rcases h.events e he with hold | hkey
  · exact hnamed.key_free (fun y hy => hid ▸ h.newPublicId y hy) htype e hold heq
  · -- the event of the creation is of another version
    obtain ⟨-, -, hsame⟩ := outboxIdempotencyKey_inj lifecycle_mem_bookingEventTypes htype (hkey.symm.trans heq)
    omega

/-- An approval of what was created confirms it, or the room is taken. -/
theorem approve_alone (h : Created db room.id stay db₁ t b) (hcat : Catalogue db) (hinv : Inventory db.stock) (hnamed : EventsNamed db)
    (hroom : room ∈ db.rooms) :
    (BookingsService.approve cfg adminUserId b.publicId).alone db₁ (fun replayed _ => replayed = false ∧ NotTaken db room.id stay)
      (fun _ => ¬ NotTaken db room.id stay) db₁ := by
  have hbooking : db₁.bookings.find? (·.publicId = b.publicId) = some b := by
    have hold : db.bookings.find? (·.publicId = b.publicId) = none :=
      List.find?_eq_none.2 fun y hy => by simp [h.newPublicId y hy]
    rw [h.bookings, List.find?_append, hold, Option.none_or]
    simp
  have hwindow : db₁.roomTimes.find? (·.id = b.roomTimeId) = some t := by
    rw [h.roomTimes]
    refine Table.find?_of_key hinv.roomTimeIds h.window (decide_eq_true h.windowId.symm) fun u hu => ?_
    exact (of_decide_eq_true hu).trans h.windowId
  have hrooms : db₁.rooms.find? (·.id = t.roomId) = some room := by
    rw [h.rooms]
    refine Table.find?_of_key hcat.rooms hroom (decide_eq_true h.room.symm) fun r hr => ?_
    exact (of_decide_eq_true hr).trans h.room
  have hlocked : db₁.roomTimes.find? (fun u => u.id = b.roomTimeId ∧ u.roomId = room.id) = some t := by
    rw [h.roomTimes]
    refine Table.find?_of_key hinv.roomTimeIds h.window (decide_eq_true ⟨h.windowId.symm, h.room⟩) fun u hu => ?_
    exact (of_decide_eq_true hu).1.trans h.windowId
  rw [BookingsService.approve, Txn.alone_bind, bookingSourceSnapshot, Txn.alone_bind, Txn.alone_peeking, hbooking]
  simp only [Option.bind_some, hwindow, Option.map_some]
  rw [Txn.alone_orThrow_some, Txn.alone_bind]
  refine alone_lockRoom hrooms ?_
  rw [Txn.alone_bind, lockBooking, Txn.alone_bind]
  refine alone_findLocked hbooking ?_
  rw [Txn.alone_orThrow_some, if_neg (by rw [h.status]; decide), Txn.alone_bind, Txn.alone_require_pos ⟨rfl, rfl⟩, Txn.alone_bind,
    Txn.alone_require_pos h.status, Txn.alone_bind, lockRoomTime]
  refine alone_findLocked hlocked ?_
  rw [Txn.alone_bind, Txn.alone_orThrow_some, Txn.alone_bind, Txn.alone_require_pos ⟨h.active, h.covers⟩, Txn.alone_bind,
    assertNoConfirmedOverlap, Txn.alone_bind, Txn.alone_locking]
  by_cases hfree : NotTaken db room.id stay
  · rw [Txn.alone_require_pos ((conflict_none_iff h).2 hfree)]
    rw [Txn.alone_bind, saveBooking, Txn.alone_bind, Txn.alone_reading, Txn.alone_bind, Txn.alone_writing]
    refine ⟨⟨⟨0, "", "", 0⟩, rfl⟩, fun x _ => ?_⟩
    rw [Txn.alone_pure, Txn.alone_bind, appendTransitionAndOutbox, Txn.alone_bind]
    refine alone_insertStatusHistory fun _ history => ?_
    rw [Txn.alone_bind]
    -- the booking is saved under its own public id, with the next version
    have hkeys := fun eventType (htype : eventType ∈ bookingEventTypes) => approval_keys_free h hnamed
      { b with status := .confirmed, version := b.version + 1, updatedAt := x.now } rfl rfl htype
    refine alone_record (hkeys _ lifecycle_mem_bookingEventTypes) fun events hevents => ?_
    rw [Txn.alone_bind, insertOutbox]
    refine alone_insertOutboxEvent (fun e he heq => ?_) fun _ _ _ => ⟨rfl, hfree⟩
    rcases hevents e he with hold | hkey
    · exact hkeys _ (text_mem_bookingEventTypes .confirmed) e hold heq
    · obtain ⟨htype, -⟩ := outboxIdempotencyKey_inj lifecycle_mem_bookingEventTypes (text_mem_bookingEventTypes .confirmed)
        (hkey.symm.trans heq)
      exact absurd htype (by decide)
  · rw [Txn.alone_require_neg fun hnone => hfree ((conflict_none_iff h).1 hnone)]
    exact hfree

end Approve

/-! ### The results -/

instance : Nonempty Supply := ⟨⟨0, "", "", 0⟩⟩

section Results

variable {cfg : Config} {db : Db} {today : String} {actorUserId adminUserId : ℕ} {key : String} {room : Room} {stay : StayRange}

/-- A call alone is its transaction alone. -/
theorem run_alone {α : Type} {c : Tx α} {f : α → Answer} {Q : Answer → Db → Prop} {E : AppError → Prop} {now : Db}
    (h : c.alone db (fun a db' => Q (f a) db') E now) : (c >>= fun a => pure (f a) : Tx Answer).alone db Q E now := by
  rw [Txn.alone_bind]
  exact h

/-- A room is bookable for a stay exactly when it has a window for it and is not taken. -/
theorem bookable_iff (hcat : Catalogue db) (hinv : Inventory db.stock) (hnamed : EventsNamed db) (hroom : room ∈ db.rooms)
    (hactive : room.status = .active) (hkey : idempotencyKeyValid key = true) (hunused : KeyUnused db actorUserId key)
    (hstay : assertBookingDates stay.checkIn stay.checkOut today ≠ 0) (hprice : PriceInRange room today stay) :
    Bookable cfg db today actorUserId key adminUserId room.id stay ↔ HasWindow db room.id stay ∧ NotTaken db room.id stay := by
  have hcreate : (Call.run cfg (.create today actorUserId (some key) ⟨room.id, stay.checkIn, stay.checkOut⟩)).alone db
      (fun _ db₁ => ∃ t b, Created db room.id stay db₁ t b) (fun _ => ¬ HasWindow db room.id stay) db :=
    run_alone (create_alone hcat hnamed hroom hactive hkey hunused hstay hprice)
  have happrove : ∀ {db₁ t b}, Created db room.id stay db₁ t b → (Call.run cfg (.approve adminUserId b.publicId)).alone db₁
      (fun answer _ => answer = .transition false ∧ NotTaken db room.id stay) (fun _ => ¬ NotTaken db room.id stay) db₁ := by
    intro db₁ t b h
    refine run_alone (Txn.alone_mono _ (fun replayed _ hreplayed => ?_) (fun _ he => he) (approve_alone h hcat hinv hnamed hroom))
    exact ⟨congrArg Answer.transition hreplayed.1, hreplayed.2⟩
  constructor
  · intro hbookable
    obtain ⟨_, db₁, ⟨t, b, hcreated⟩, b', hb', happroved⟩ := hbookable.exists_of_alone hcreate
    refine ⟨⟨t, hcreated.window, hcreated.room, hcreated.active, ?_⟩, ?_⟩
    · rw [← hcreated.checkIn, ← hcreated.checkOut]
      exact hcreated.covers
    · -- the booking that is approved is the one that was created
      have hsame : b' = b := by
        rw [hcreated.bookings] at hb'
        exact (List.singleton_inj.1 (List.append_cancel_left hb')).symm
      subst hsame
      obtain ⟨_, _, ⟨-, hfree⟩, -⟩ := happroved.exists_of_alone (happrove hcreated)
      exact hfree
  · rintro ⟨hwindow, hfree⟩
    refine succeedsAlone_of_alone (Txn.alone_mono _ (fun _ db₁ hcreated => ?_) (fun _ hno => hno hwindow) hcreate)
    obtain ⟨t, b, hcreated⟩ := hcreated
    refine ⟨b, hcreated.bookings, succeedsAlone_of_alone ?_⟩
    exact Txn.alone_mono _ (fun _ _ h => h.1) (fun _ hno => hno hfree) (happrove hcreated)

/-- The public detail of the room says that it is available for the stay. -/
def ShownInDetail (db : Db) (roomId : ℕ) (stay : StayRange) : Prop :=
  ∃ response, RoomSearchService.get db roomId ⟨some stay.checkIn, some stay.checkOut⟩ = .ok response ∧ response.available = some true

/-- The public list, filtered by the stay only, has the room on one of its pages, as available. -/
def ShownInList (db : Db) (roomId : ℕ) (stay : StayRange) (pageSize : ℕ) : Prop :=
  ∃ page response, 0 < page ∧ RoomSearchService.search db
      { checkIn := some stay.checkIn, checkOut := some stay.checkOut, page := page, pageSize := pageSize } = .ok response ∧
    ∃ item ∈ response.items, item.id = roomId ∧ item.available = some true

theorem resolveStayRange_of_lt (h : stay.checkIn < stay.checkOut) : resolveStayRange ⟨some stay.checkIn, some stay.checkOut⟩ = .ok (some stay) :=
  if_neg (not_le.2 h)

/-- The detail asks the question of the write path. -/
theorem shownInDetail_iff (hcat : Catalogue db) (hroom : room ∈ db.rooms) (hactive : room.status = .active) (hlt : stay.checkIn < stay.checkOut) :
    ShownInDetail db room.id stay ↔ isAvailableForStay db room.id stay = true := by
  obtain ⟨roomType, hmem, hid⟩ := hcat.roomTypes room hroom
  obtain ⟨roomType', htype⟩ := Option.isSome_iff_exists.1 (List.find?_isSome.2 ⟨roomType, hmem, decide_eq_true hid⟩ :
    (db.roomTypes.find? (·.id = room.roomTypeId)).isSome = true)
  have hfind : db.rooms.find? (fun r => r.id = room.id ∧ r.status = .active) = some room :=
    Table.find?_of_key hcat.rooms hroom (decide_eq_true ⟨rfl, hactive⟩) fun r hr => (of_decide_eq_true hr).1
  have hget : RoomSearchService.get db room.id ⟨some stay.checkIn, some stay.checkOut⟩ =
      .ok (toPublicRoomResponse room roomType' (some (isAvailableForStay db room.id stay))) := by
    rw [RoomSearchService.get, resolveStayRange_of_lt hlt]
    simp only [bind, Except.bind, hfind, htype]
    rfl
  simp only [ShownInDetail, hget, Except.ok.injEq, exists_eq_left', toPublicRoomResponse, Option.some.injEq]

/-- What the list is taken from: the active rooms that are available, each with its type. -/
theorem mem_buildSearchQuery {page pageSize : ℕ} {row : Room × RoomType} :
    row ∈ RoomSearchService.buildSearchQuery db
        { checkIn := some stay.checkIn, checkOut := some stay.checkOut, page := page, pageSize := pageSize } (some stay) ↔
      row.1 ∈ db.rooms ∧ row.1.status = .active ∧ isAvailableForStay db row.1.id stay = true ∧
        db.roomTypes.find? (·.id = row.1.roomTypeId) = some row.2 := by
  obtain ⟨r, roomType⟩ := row
  simp only [RoomSearchService.buildSearchQuery, RoomSearchService.applyPriceFilters, RoomSearchService.applyRoomAttributeFilters,
    Option.all_none, Bool.and_self, List.filter_true, List.mem_filterMap, mem_applyStayContainment, List.mem_filter, decide_eq_true_eq,
    Option.map_eq_some_iff, Prod.mk.injEq]
  constructor
  · rintro ⟨r, ⟨⟨hr, hactive⟩, havailable⟩, t, htype, rfl, rfl⟩
    exact ⟨hr, hactive, havailable, htype⟩
  · rintro ⟨hr, hactive, havailable, htype⟩
    exact ⟨r, ⟨⟨hr, hactive⟩, havailable⟩, roomType, htype, rfl, rfl⟩

/-- Every row of a list is on one of its pages. -/
theorem exists_mem_page {ρ : Type} {rows : List ρ} {r : ρ} {pageSize : ℕ} (hpage : 0 < pageSize) (hr : r ∈ rows) :
    ∃ page, 0 < page ∧ r ∈ (rows.drop ((page - 1) * pageSize)).take pageSize := by
  obtain ⟨i, hi, rfl⟩ := List.mem_iff_getElem.1 hr
  have hsplit : i / pageSize * pageSize + i % pageSize = i := Nat.div_add_mod' i pageSize
  have hmod : i % pageSize < pageSize := Nat.mod_lt i hpage
  refine ⟨i / pageSize + 1, Nat.succ_pos _, ?_⟩
  rw [Nat.add_sub_cancel, List.mem_iff_getElem]
  refine ⟨i % pageSize, ?_, ?_⟩
  · rw [List.length_take, List.length_drop]
    omega
  · rw [List.getElem_take, List.getElem_drop]
    simp only [hsplit]

/-- The list asks the question of the write path. -/
theorem shownInList_iff {pageSize : ℕ} (hcat : Catalogue db) (hroom : room ∈ db.rooms) (hactive : room.status = .active)
    (hlt : stay.checkIn < stay.checkOut) (hpage : 0 < pageSize) :
    ShownInList db room.id stay pageSize ↔ isAvailableForStay db room.id stay = true := by
  have hsearch : ∀ page, RoomSearchService.search db
      { checkIn := some stay.checkIn, checkOut := some stay.checkOut, page := page, pageSize := pageSize } =
        .ok ⟨_, page, pageSize, _⟩ := fun page => by
    rw [RoomSearchService.search, resolveStayRange_of_lt hlt]
    rfl
  simp only [ShownInList, hsearch, Except.ok.injEq, exists_and_left, exists_eq_left', List.mem_map]
  constructor
  · rintro ⟨page, -, item, ⟨row, hrow, rfl⟩, hid, -⟩
    have hmem := (List.mem_insertionSort _).1 (List.mem_of_mem_drop (List.mem_of_mem_take hrow))
    obtain ⟨-, -, havailable, -⟩ := mem_buildSearchQuery.1 hmem
    rw [← hid]
    exact havailable
  · intro havailable
    obtain ⟨roomType, hmem, hid⟩ := hcat.roomTypes room hroom
    obtain ⟨roomType', htype⟩ := Option.isSome_iff_exists.1 (List.find?_isSome.2 ⟨roomType, hmem, decide_eq_true hid⟩ :
      (db.roomTypes.find? (·.id = room.roomTypeId)).isSome = true)
    have hrow : (room, roomType') ∈ RoomSearchService.buildSearchQuery db
        { checkIn := some stay.checkIn, checkOut := some stay.checkOut, page := 0, pageSize := pageSize } (some stay) :=
      mem_buildSearchQuery.2 ⟨hroom, hactive, havailable, htype⟩
    obtain ⟨page, hpos, hpage⟩ := exists_mem_page hpage ((List.mem_insertionSort (fun r r' => r.1.id ≤ r'.1.id)).2 hrow)
    exact ⟨page, hpos, _, ⟨_, hpage, rfl⟩, rfl, rfl⟩

end Results

/-- **Shown availability is bookability.** In every state that any calls can reach, for an active room, a
stay that is valid today and a price in range, the detail shows the room as available for the stay
exactly when a creation and the approval of what it creates, with nothing in between, both succeed,
and so does the list. -/
theorem shown_iff_bookable (cfg : Config) (s : Sys Db Key Supply AppError Answer Call) (room : Room) (stay : StayRange)
    (today key : String) (actorUserId adminUserId pageSize : ℕ) (h : (bookingSystem cfg).Reachable (fun _ _ => True) s)
    (hcat : Catalogue s.db) (hroom : room ∈ s.db.rooms) (hactive : room.status = .active)
    (hstay : assertBookingDates stay.checkIn stay.checkOut today ≠ 0) (hprice : PriceInRange room today stay)
    (hkey : idempotencyKeyValid key = true) (hunused : KeyUnused s.db actorUserId key) (hpage : 0 < pageSize) :
    (ShownInDetail s.db room.id stay ↔ Bookable cfg s.db today actorUserId key adminUserId room.id stay) ∧
      (ShownInList s.db room.id stay pageSize ↔ Bookable cfg s.db today actorUserId key adminUserId room.id stay) := by
  have hlt := lt_of_assertBookingDates hstay
  have hbookable : Bookable cfg s.db today actorUserId key adminUserId room.id stay ↔ isAvailableForStay s.db room.id stay = true :=
    (bookable_iff hcat (inventory_of_reachable h) (eventsNamed_of_reachable h) hroom hactive hkey hunused hstay hprice).trans
      isAvailableForStay_iff.symm
  exact ⟨(shownInDetail_iff hcat hroom hactive hlt).trans hbookable.symm, (shownInList_iff hcat hroom hactive hlt hpage).trans hbookable.symm⟩

/-! #### After two guests -/

/-- The room has one guest, and another one waits. -/
def twoGuestsDb : Db := (twoGuestsEnd.get twoGuestsEnd_isSome).db

theorem twoGuestsDb_rooms : twoGuestsDb.rooms = [⟨1, 7, "A-201", 1000000, "VND", .active⟩] := by decide

theorem catalogue_twoGuests : Catalogue twoGuestsDb where
  rooms r hr r' hr' _ := by
    rw [twoGuestsDb_rooms, List.mem_singleton] at hr hr'
    rw [hr, hr']
  roomTypes r hr := by
    rw [twoGuestsDb_rooms, List.mem_singleton] at hr
    rw [hr]
    exact ⟨⟨7, "Deluxe"⟩, by decide, rfl⟩

/-- The night after the guest's last is bookable and shown; a stay that shares a night is neither. -/
theorem shown_iff_bookable_twoGuests :
    (ShownInDetail twoGuestsDb 1 ⟨"2026-10-08", "2026-10-09"⟩ ∧
      Bookable quietConfig twoGuestsDb "2026-09-01" 43 "key-of-guest-43" 9 1 ⟨"2026-10-08", "2026-10-09"⟩) ∧
    ¬ ShownInDetail twoGuestsDb 1 ⟨"2026-10-07", "2026-10-09"⟩ ∧
      ¬ Bookable quietConfig twoGuestsDb "2026-09-01" 43 "key-of-guest-43" 9 1 ⟨"2026-10-07", "2026-10-09"⟩ := by
  have hroom : (⟨1, 7, "A-201", 1000000, "VND", .active⟩ : Room) ∈ twoGuestsDb.rooms := by decide
  have hfree := shown_iff_bookable quietConfig _ _ ⟨"2026-10-08", "2026-10-09"⟩ "2026-09-01" "key-of-guest-43" 43 9 20 twoGuests_reachable
    catalogue_twoGuests hroom rfl (by decide) (by decide) (by decide) (by decide) (by decide)
  have htaken := shown_iff_bookable quietConfig _ _ ⟨"2026-10-07", "2026-10-09"⟩ "2026-09-01" "key-of-guest-43" 43 9 20 twoGuests_reachable
    catalogue_twoGuests hroom rfl (by decide) (by decide) (by decide) (by decide) (by decide)
  have hshown : ShownInDetail twoGuestsDb 1 ⟨"2026-10-08", "2026-10-09"⟩ := ⟨_, rfl, by decide⟩
  have hhidden : ¬ ShownInDetail twoGuestsDb 1 ⟨"2026-10-07", "2026-10-09"⟩ := by
    rintro ⟨response, hget, havailable⟩
    cases hget
    revert havailable
    decide
  exact ⟨⟨hshown, hfree.1.1 hshown⟩, hhidden, fun hbookable => hhidden (htaken.1.2 hbookable)⟩

end HotelBackend.Bookings
