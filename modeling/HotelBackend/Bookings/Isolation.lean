import HotelBackend.Bookings.Service
import HotelBackend.Bookings.Inventory

/-!
# The booking transactions keep the inventory

Every transaction of `Bookings.Service` follows one discipline (`inventoryDiscipline`):
the inventory of the hotel is the invariant, and a transaction that does not hold the
lock of a room, a window or a booking keeps it in the sense of `Bookings.Inventory`.
By the soundness of disciplines the inventory then holds in every state of every
interleaving, which gives the two results: `no_double_booking` and
`active_bookings_covered`.

The proof of a transaction walks through its statements. Each locking read gives a fact
about the store of that moment, which the lock carries to the next statement; the one
write to windows or bookings is then one of the five changes, and what follows it
(histories, events, the stored response) is neutral.
-/

namespace HotelBackend.Bookings

open HotelBackend.Common
open HotelBackend.Theory
open HotelBackend.Theory.Transactions
open HotelBackend.Rooms
open HotelBackend.Outbox

/-- The stock of the database. -/
def Db.stock (db : Db) : Stock := ⟨db.roomTimes, db.bookings⟩

/-- What the transactions of the booking database agree on. -/
def inventoryDiscipline : Discipline Db Key where
  Inv db := Inventory db.stock
  Keeps
    | .room id, a, b => KeepsRoom id a.stock b.stock
    | .roomTime id, a, b => KeepsRoomTime id a.stock b.stock
    | .booking id, a, b => KeepsBooking id a.stock b.stock
    | _, _, _ => True
  refl k db := by
    cases k with
    | room id => exact .refl id db.stock
    | roomTime id => exact fun _ _ => Iff.rfl
    | booking id => exact fun _ _ => Iff.rfl
    | _ => trivial
  trans k a b c hab hbc := by
    cases k with
    | room id => exact KeepsRoom.trans hab hbc
    | roomTime id => exact KeepsRoomTime.trans hab hbc
    | booking id => exact KeepsBooking.trans hab hbc
    | _ => trivial

/-- A program in the middle of a booking transaction. -/
abbrev Mid := Local Db Key

/-- Its writes have not touched the stock. -/
def Quiet (l : Mid) : Prop := ∀ db, (l.pend db).stock = db.stock

section Rely

variable {held : Set Key} {a b : Db}

theorem booking_iff_of_rely (h : inventoryDiscipline.Rely held a b) {x : Booking} (hk : .booking x.id ∈ held) :
    x ∈ b.bookings ↔ x ∈ a.bookings :=
  h.2 _ hk x rfl

theorem roomTime_iff_of_rely (h : inventoryDiscipline.Rely held a b) {t : RoomTime} (hk : .roomTime t.id ∈ held) :
    t ∈ b.roomTimes ↔ t ∈ a.roomTimes :=
  h.2 _ hk t rfl

theorem keepsRoom_of_rely (h : inventoryDiscipline.Rely held a b) {roomId : ℕ} (hk : .room roomId ∈ held) :
    KeepsRoom roomId a.stock b.stock :=
  h.2 _ hk

/-- What writes leave the stock alone is neutral. -/
theorem neutral_of_stock {u : Db → Db} (h : ∀ db, (u db).stock = db.stock) : inventoryDiscipline.Neutral u := by
  refine fun db => ⟨fun hinv => ?_, fun k c hk => ?_⟩
  · show Inventory (u db).stock
    rw [h]
    exact hinv
  · cases k with
    | room id =>
      show KeepsRoom id c.stock (u db).stock
      rw [h]
      exact hk
    | roomTime id =>
      show KeepsRoomTime id c.stock (u db).stock
      rw [h]
      exact hk
    | booking id =>
      show KeepsBooking id c.stock (u db).stock
      rw [h]
      exact hk
    | _ => trivial

end Rely

/-! ### Commits -/

section Commits

variable {l : Mid}

/-- A program may commit if its writes make, of every stock it can meet, a stock that is
an inventory again and keeps the rooms, windows and bookings it does not hold. -/
theorem commit_of_stock (change : Stock → Stock) (hpend : ∀ db, (l.pend db).stock = change db.stock)
    (hinv : ∀ db, inventoryDiscipline.Rely l.held l.db db → Inventory (change db.stock))
    (hroom : ∀ db, inventoryDiscipline.Rely l.held l.db db → ∀ id, .room id ∉ l.held → KeepsRoom id db.stock (change db.stock))
    (hroomTime : ∀ db, inventoryDiscipline.Rely l.held l.db db → ∀ id, .roomTime id ∉ l.held →
      KeepsRoomTime id db.stock (change db.stock))
    (hbooking : ∀ db, inventoryDiscipline.Rely l.held l.db db → ∀ id, .booking id ∉ l.held →
      KeepsBooking id db.stock (change db.stock)) :
    inventoryDiscipline.Commit () l := by
  refine fun db hr => ⟨?_, fun k hk => ?_⟩
  · show Inventory (l.pend db).stock
    rw [hpend]
    exact hinv db hr
  · cases k with
    | room id =>
      show KeepsRoom id db.stock (l.pend db).stock
      rw [hpend]
      exact hroom db hr id hk
    | roomTime id =>
      show KeepsRoomTime id db.stock (l.pend db).stock
      rw [hpend]
      exact hroomTime db hr id hk
    | booking id =>
      show KeepsBooking id db.stock (l.pend db).stock
      rw [hpend]
      exact hbooking db hr id hk
    | _ => trivial

/-- Nothing was written. -/
theorem commit_of_quiet (hl : Quiet l) : inventoryDiscipline.Commit () l :=
  commit_of_stock id hl (fun _ hr => hr.1) (fun _ _ id _ => .refl id _)
    (fun _ _ _ _ _ _ => Iff.rfl) fun _ _ _ _ _ _ => Iff.rfl

/-- A booking was closed under its own lock. -/
theorem commit_closeBooking {x : Booking} {f : Booking → Booking}
    (hpend : ∀ db, (l.pend db).stock = db.stock.setBooking x.id f) (hf : ∀ b, (f b).id = b.id)
    (hx : x ∈ l.db.bookings) (hheld : .booking x.id ∈ l.held) (hw : (f x).roomTimeId = x.roomTimeId)
    (hclosed : (f x).status.isActive = false) : inventoryDiscipline.Commit () l := by
  have hxs : ∀ db, inventoryDiscipline.Rely l.held l.db db → x ∈ db.bookings :=
    fun db hr => (booking_iff_of_rely hr hheld).2 hx
  refine commit_of_stock (·.setBooking x.id f) hpend (fun db hr => ?_) (fun db hr r _ => ?_) (fun _ _ _ _ _ _ => Iff.rfl) fun db hr id hid => ?_
  · refine hr.1.setBooking (hxs db hr) hf (fun hact => ?_) fun hconf => ?_
    · rw [hclosed] at hact
      cases hact
    · rw [hconf] at hclosed
      cases hclosed
  · exact hr.1.keepsRoom_setBooking (hxs db hr) hf fun _ => ⟨hw, hclosed⟩
  · exact hr.1.keepsBooking_setBooking (hxs db hr) hf fun he => hid (he ▸ hheld)

/-- A booking was placed in a window of a room, under the locks of all three; confirmed,
the room was free for it. -/
theorem commit_placeBooking {x : Booking} {f : Booking → Booking} {t : RoomTime}
    (hpend : ∀ db, (l.pend db).stock = db.stock.setBooking x.id f) (hf : ∀ b, (f b).id = b.id)
    (hx : x ∈ l.db.bookings) (hheld : .booking x.id ∈ l.held)
    (ht : t ∈ l.db.roomTimes) (htheld : .roomTime t.id ∈ l.held) (hrheld : .room t.roomId ∈ l.held)
    (htx : t.id = (f x).roomTimeId) (hact : t.status = .active) (hcov : t.covers (f x).checkIn (f x).checkOut)
    (hfree : (f x).status = .confirmed → l.db.stock.RoomFree t.roomId x.id (f x).checkIn (f x).checkOut) :
    inventoryDiscipline.Commit () l := by
  have hxs : ∀ db, inventoryDiscipline.Rely l.held l.db db → x ∈ db.bookings :=
    fun db hr => (booking_iff_of_rely hr hheld).2 hx
  have hts : ∀ db, inventoryDiscipline.Rely l.held l.db db → t ∈ db.roomTimes :=
    fun db hr => (roomTime_iff_of_rely hr htheld).2 ht
  -- the booking is in the room of its window and in no other
  have hroom : ∀ db, inventoryDiscipline.Rely l.held l.db db → ∀ r, db.stock.InRoom (f x) r → r = t.roomId := by
    rintro db hr r ⟨u, hu, hux, rfl⟩
    rw [hr.1.roomTimeIds u hu t (hts db hr) (hux.trans htx.symm)]
  refine commit_of_stock (·.setBooking x.id f) hpend (fun db hr => ?_) (fun db hr r hrn => ?_) (fun _ _ _ _ _ _ => Iff.rfl) fun db hr id hid => ?_
  · refine hr.1.setBooking (hxs db hr) hf (fun _ => ⟨t, hts db hr, htx, hact, hcov⟩) fun hconf r hxr => ?_
    obtain rfl := hroom db hr r hxr
    exact (keepsRoom_of_rely hr hrheld).roomFree (hfree hconf)
  · exact hr.1.keepsRoom_setBooking (hxs db hr) hf fun hxr => absurd (hroom db hr r hxr ▸ hrheld) hrn
  · exact hr.1.keepsBooking_setBooking (hxs db hr) hf fun he => hid (he ▸ hheld)

/-- A pending booking was added to a window of a room, under the locks of all three. -/
theorem commit_addBooking {b : Booking} {t : RoomTime}
    (hpend : ∀ db, (l.pend db).stock = db.stock.addBooking b)
    (hnew : ∀ y ∈ l.db.bookings, y.id ≠ b.id) (hheld : .booking b.id ∈ l.held)
    (ht : t ∈ l.db.roomTimes) (htheld : .roomTime t.id ∈ l.held) (hrheld : .room t.roomId ∈ l.held)
    (htb : t.id = b.roomTimeId) (hact : t.status = .active) (hcov : t.covers b.checkIn b.checkOut)
    (hstatus : b.status = .pending) : inventoryDiscipline.Commit () l := by
  have hts : ∀ db, inventoryDiscipline.Rely l.held l.db db → t ∈ db.roomTimes :=
    fun db hr => (roomTime_iff_of_rely hr htheld).2 ht
  have hnews : ∀ db, inventoryDiscipline.Rely l.held l.db db → ∀ y ∈ db.bookings, y.id ≠ b.id := by
    intro db hr y hy hid
    exact hnew y ((booking_iff_of_rely hr (hid ▸ hheld)).1 hy) hid
  refine commit_of_stock (·.addBooking b) hpend (fun db hr => ?_) (fun db hr r hrn => ?_) (fun _ _ _ _ _ _ => Iff.rfl) fun db hr id hid => ?_
  · exact hr.1.addBooking (hnews db hr) hstatus ⟨t, hts db hr, htb, hact, hcov⟩
  · refine Inventory.keepsRoom_addBooking ?_
    rintro ⟨u, hu, hub, rfl⟩
    rw [hr.1.roomTimeIds u hu t (hts db hr) (hub.trans htb.symm)] at hrn
    exact hrn hrheld
  · exact Inventory.keepsBooking_addBooking (hnews db hr) fun he => hid (he ▸ hheld)

/-- A window was changed under its lock and the lock of its room. -/
theorem commit_setRoomTime {t : RoomTime} {f : RoomTime → RoomTime}
    (hpend : ∀ db, (l.pend db).stock = db.stock.setRoomTime t.id f)
    (hf : ∀ u, (f u).id = u.id) (hfr : ∀ u, (f u).roomId = u.roomId)
    (ht : t ∈ l.db.roomTimes) (htheld : .roomTime t.id ∈ l.held) (hrheld : .room t.roomId ∈ l.held)
    (hcov : ∀ db, inventoryDiscipline.Rely l.held l.db db → ∀ b ∈ db.bookings, b.status.isActive = true →
      b.roomTimeId = t.id → (f t).status = .active ∧ (f t).covers b.checkIn b.checkOut)
    (hfree : (f t).status = .active → l.db.stock.WindowFree t.roomId t.id (f t).availableFrom (f t).availableTo) :
    inventoryDiscipline.Commit () l := by
  have hts : ∀ db, inventoryDiscipline.Rely l.held l.db db → t ∈ db.roomTimes :=
    fun db hr => (roomTime_iff_of_rely hr htheld).2 ht
  refine commit_of_stock (·.setRoomTime t.id f) hpend (fun db hr => ?_) (fun db hr r hrn => ?_) (fun db hr id hid => ?_) fun _ _ _ _ _ _ => Iff.rfl
  · exact hr.1.setRoomTime (hts db hr) hf hfr (hcov db hr) fun hact => (keepsRoom_of_rely hr hrheld).windowFree (hfree hact)
  · exact hr.1.keepsRoom_setRoomTime (hts db hr) hfr fun he => hrn (he ▸ hrheld)
  · exact hr.1.keepsRoomTime_setRoomTime (hts db hr) hf fun he => hid (he ▸ htheld)

/-- A window was added under the lock of its room. -/
theorem commit_addRoomTime {t : RoomTime} (hpend : ∀ db, (l.pend db).stock = db.stock.addRoomTime t)
    (hnew : ∀ u ∈ l.db.roomTimes, u.id ≠ t.id) (htheld : .roomTime t.id ∈ l.held) (hrheld : .room t.roomId ∈ l.held)
    (hfree : t.status = .active → l.db.stock.WindowFree t.roomId t.id t.availableFrom t.availableTo) :
    inventoryDiscipline.Commit () l := by
  have hnews : ∀ db, inventoryDiscipline.Rely l.held l.db db → ∀ u ∈ db.roomTimes, u.id ≠ t.id := by
    intro db hr u hu hid
    exact hnew u ((roomTime_iff_of_rely hr (hid ▸ htheld)).1 hu) hid
  refine commit_of_stock (·.addRoomTime t) hpend (fun db hr => ?_) (fun db hr r hrn => ?_) (fun db hr id hid => ?_) fun _ _ _ _ _ _ => Iff.rfl
  · exact hr.1.addRoomTime (hnews db hr) fun hact => (keepsRoom_of_rely hr hrheld).windowFree (hfree hact)
  · exact Inventory.keepsRoom_addRoomTime fun he => hrn (he ▸ hrheld)
  · exact Inventory.keepsRoomTime_addRoomTime (hnews db hr) fun he => hid (he ▸ htheld)

/-- An unused window was removed under its lock and the lock of its room. -/
theorem commit_removeRoomTime {t : RoomTime} (hpend : ∀ db, (l.pend db).stock = db.stock.removeRoomTime t.id)
    (ht : t ∈ l.db.roomTimes) (htheld : .roomTime t.id ∈ l.held) (hrheld : .room t.roomId ∈ l.held)
    (hno : ∀ db, inventoryDiscipline.Rely l.held l.db db → ∀ b ∈ db.bookings, b.status.isActive = true →
      b.roomTimeId ≠ t.id) : inventoryDiscipline.Commit () l := by
  refine commit_of_stock (·.removeRoomTime t.id) hpend (fun db hr => ?_) (fun db hr r hrn => ?_) (fun db hr id hid => ?_) fun _ _ _ _ _ _ => Iff.rfl
  · exact hr.1.removeRoomTime (hno db hr)
  · exact hr.1.keepsRoom_removeRoomTime ((roomTime_iff_of_rely hr htheld).2 ht) fun he => hrn (he ▸ hrheld)
  · exact Inventory.keepsRoomTime_removeRoomTime fun he => hid (he ▸ htheld)

end Commits

/-! ### Statements -/

section Statements

variable {l : Mid}

theorem wp_findLocked {ρ : Type} {table : Db → List ρ} {key : ρ → Key} {p : ρ → Bool} {Q : Option ρ → Mid → Prop}
    (hnone : ∀ db, inventoryDiscipline.Rely l.held l.db db → (table (l.pend db)).find? p = none → Q none { l with db := db })
    (hsome : ∀ db, inventoryDiscipline.Rely l.held l.db db → ∀ r ∈ table (l.pend db), p r = true →
      Q (some r) { l with db := db, held := l.held ∪ {key r} }) :
    (findLocked table key p).wp inventoryDiscipline Q l :=
  Txn.wp_locking_find hnone hsome

theorem wp_findLocked_orThrow {ρ : Type} {table : Db → List ρ} {key : ρ → Key} {p : ρ → Bool} {e : AppError}
    {Q : ρ → Mid → Prop}
    (h : ∀ db, inventoryDiscipline.Rely l.held l.db db → ∀ r ∈ table (l.pend db), p r = true →
      Q r { l with db := db, held := l.held ∪ {key r} }) :
    (findLocked table key p).wp inventoryDiscipline (fun o => (Txn.orThrow o e : Tx ρ).wp inventoryDiscipline Q) l := by
  refine wp_findLocked (fun db _ _ => ?_) fun db hr r hmem hp => ?_
  · rw [Txn.wp_orThrow]
    exact fun a ha => nomatch ha
  · rw [Txn.wp_orThrow]
    rintro _ ⟨⟩
    exact h db hr r hmem hp

theorem wp_lockRoom {roomId : ℕ} {Q : Room → Mid → Prop}
    (h : ∀ db, inventoryDiscipline.Rely l.held l.db db → ∀ room : Room, room.id = roomId →
      Q room { l with db := db, held := l.held ∪ {.room roomId} }) :
    (lockRoom roomId).wp inventoryDiscipline Q l := by
  rw [lockRoom, Txn.wp_bind]
  refine wp_findLocked_orThrow fun db hr room _ hid => ?_
  rw [decide_eq_true_eq] at hid
  rw [hid]
  exact h db hr room hid

theorem wp_lockBooking (hl : Quiet l) {publicId : String} {Q : Booking → Mid → Prop}
    (h : ∀ db, inventoryDiscipline.Rely l.held l.db db → ∀ b ∈ db.bookings,
      Q b { l with db := db, held := l.held ∪ {.booking b.id} }) :
    (lockBooking publicId).wp inventoryDiscipline Q l := by
  rw [lockBooking, Txn.wp_bind]
  refine wp_findLocked_orThrow fun db hr b hb _ => h db hr b ?_
  rwa [show (l.pend db).bookings = db.bookings from congrArg Stock.bookings (hl db)] at hb

theorem wp_lockRoomTime (hl : Quiet l) {roomTimeId roomId : ℕ} {Q : Option RoomTime → Mid → Prop}
    (hnone : ∀ db, inventoryDiscipline.Rely l.held l.db db → Q none { l with db := db })
    (hsome : ∀ db, inventoryDiscipline.Rely l.held l.db db → ∀ t ∈ db.roomTimes, t.id = roomTimeId → t.roomId = roomId →
      Q (some t) { l with db := db, held := l.held ∪ {.roomTime t.id} }) :
    (lockRoomTime roomTimeId roomId).wp inventoryDiscipline Q l := by
  refine wp_findLocked (fun db hr _ => hnone db hr) fun db hr t ht hp => ?_
  rw [show (l.pend db).roomTimes = db.roomTimes from congrArg Stock.roomTimes (hl db)] at ht
  rw [decide_eq_true_eq] at hp
  exact hsome db hr t ht hp.1 hp.2

/-- The window found is active and covers the stay. -/
theorem mem_of_containingWindow {db : Db} {roomId : ℕ} {checkIn checkOut : String} {t : RoomTime}
    (h : containingWindow db roomId checkIn checkOut = some t) :
    t ∈ db.roomTimes ∧ t.roomId = roomId ∧ t.status = .active ∧ t.covers checkIn checkOut := by
  have hmem := List.mem_of_head? h
  rw [List.mem_insertionSort, containingWindows, List.mem_filter, decide_eq_true_eq] at hmem
  exact hmem

theorem wp_lockContainingWindow (hl : Quiet l) {roomId : ℕ} {checkIn checkOut : String} {Q : RoomTime → Mid → Prop}
    (h : ∀ db, inventoryDiscipline.Rely l.held l.db db → ∀ t ∈ db.roomTimes, t.roomId = roomId → t.status = .active →
      t.covers checkIn checkOut → Q t { l with db := db, held := l.held ∪ {.roomTime t.id} }) :
    (lockContainingWindow roomId checkIn checkOut).wp inventoryDiscipline Q l := by
  rw [lockContainingWindow, Txn.wp_bind, Txn.wp_locking]
  intro db hr
  rw [Txn.wp_orThrow]
  intro t hfound
  obtain ⟨ht, hroom, hact, hcov⟩ := mem_of_containingWindow hfound
  rw [show (l.pend db).roomTimes = db.roomTimes from congrArg Stock.roomTimes (hl db)] at ht
  have hheld : l.held ∪ {k | k ∈ (some t).toList.map fun t : RoomTime => Key.roomTime t.id} = l.held ∪ {.roomTime t.id} := by
    ext
    simp
  rw [hfound, hheld]
  exact h db hr t ht hroom hact hcov

/-- The probe finds nothing exactly when the room is free for the stay. -/
theorem roomFree_of_find_none {db : Db} {roomId bookingId : ℕ} {checkIn checkOut : String}
    (h : db.bookings.find? (confirmedConflict db roomId bookingId checkIn checkOut) = none) :
    db.stock.RoomFree roomId bookingId checkIn checkOut := by
  rintro z hz hne hconf ⟨t, ht, htz, htr⟩ hover
  have hany : db.roomTimes.any (fun t => t.id = z.roomTimeId ∧ t.roomId = roomId) = true :=
    List.any_eq_true.2 ⟨t, ht, decide_eq_true ⟨htz, htr⟩⟩
  refine List.find?_eq_none.1 h z hz ?_
  simp only [confirmedConflict, hany, Bool.true_and, Bool.and_eq_true, decide_eq_true_eq]
  exact ⟨⟨⟨hne, hconf⟩, hover.1⟩, hover.2⟩

theorem wp_assertNoConfirmedOverlap (hl : Quiet l) {roomId bookingId : ℕ} {checkIn checkOut : String}
    {Q : Unit → Mid → Prop}
    (h : ∀ db, inventoryDiscipline.Rely l.held l.db db → db.stock.RoomFree roomId bookingId checkIn checkOut →
      Q () { l with db := db }) :
    (assertNoConfirmedOverlap roomId bookingId checkIn checkOut).wp inventoryDiscipline Q l := by
  rw [assertNoConfirmedOverlap, Txn.wp_bind, Txn.wp_locking]
  intro db hr
  rw [Txn.wp_require, Option.isNone_iff_eq_none]
  intro hnone
  have hfree := roomFree_of_find_none hnone
  rw [hl] at hfree
  have hfilter : (l.pend db).bookings.filter (confirmedConflict (l.pend db) roomId bookingId checkIn checkOut) = [] :=
    List.filter_eq_nil_iff.2 (List.find?_eq_none.1 hnone)
  have hheld : l.held ∪ {k | k ∈ ([] : List Booking).flatMap fun b => [Key.booking b.id, .roomTime b.roomTimeId]} = l.held := by
    ext
    simp
  rw [hfilter, hheld]
  exact h db hr hfree

theorem wp_assertNoConfirmedOverlap_when (hl : Quiet l) (hinv : inventoryDiscipline.Inv l.db) {c : Prop} [Decidable c]
    {roomId bookingId : ℕ} {checkIn checkOut : String} {Q : Unit → Mid → Prop}
    (h : ∀ db, inventoryDiscipline.Rely l.held l.db db → (c → db.stock.RoomFree roomId bookingId checkIn checkOut) →
      Q () { l with db := db }) :
    ((assertNoConfirmedOverlap roomId bookingId checkIn checkOut).when c).wp inventoryDiscipline Q l := by
  rw [Txn.wp_when]
  refine ⟨fun _ => wp_assertNoConfirmedOverlap hl fun db hr hfree => h db hr fun _ => hfree, fun hc => ?_⟩
  exact h l.db (.refl hinv) fun hc' => absurd hc' hc

/-- What `saveBooking b` writes at `now`. -/
def savedColumns (b : Booking) (now : ℕ) (r : Booking) : Booking :=
  { r with roomTimeId := b.roomTimeId, checkIn := b.checkIn, checkOut := b.checkOut, status := b.status,
           rejectionReason := b.rejectionReason, version := r.version + 1, updatedAt := now }

theorem wp_saveBooking {b : Booking} {Q : Booking → Mid → Prop} (hl : Quiet l)
    (h : ∀ db, inventoryDiscipline.Rely l.held l.db db → ∀ now saved l', l'.db = db →
      l'.held = l.held ∪ {.booking b.id} →
      (∀ db, (l'.pend db).stock = db.stock.setBooking b.id (savedColumns b now)) → Q saved l') :
    (saveBooking b).wp inventoryDiscipline Q l := by
  rw [saveBooking, Txn.wp_bind, Txn.wp_reading]
  intro db hr
  rw [Txn.wp_bind, Txn.wp_writing]
  intro db' hr' x _
  refine h db' (hr.trans hr' subset_rfl) x.now _ _ rfl ?_ fun db => ?_
  · ext
    simp
  · show Stock.mk (l.pend db).roomTimes (Table.update (l.pend db).bookings _ _) = _
    rw [show (l.pend db).roomTimes = db.roomTimes from congrArg Stock.roomTimes (hl db),
      show (l.pend db).bookings = db.bookings from congrArg Stock.bookings (hl db)]
    rfl

/-! #### Neutral statements -/

theorem tail_insertStatusHistory {bookingId : ℕ} {fromStatus : Option BookingStatus} {toStatus : BookingStatus}
    {actorType : BookingActorType} {actorUserId : Option ℕ} {reason : Option String} :
    (insertStatusHistory bookingId fromStatus toStatus actorType actorUserId reason).Tail inventoryDiscipline :=
  .writing fun _ => neutral_of_stock fun _ => rfl

theorem tail_insertChangeHistory {row : Supply → BookingChangeHistory} :
    (insertChangeHistory row).Tail inventoryDiscipline :=
  .writing fun _ => neutral_of_stock fun _ => rfl

theorem tail_insertOutboxEvent {eventType key : String} {payload : Json} :
    (insertOutboxEvent eventType payload key).Tail inventoryDiscipline :=
  .writing fun _ => neutral_of_stock fun _ => rfl

theorem tail_insertOutbox {booking : Booking} {eventType : BookingOutboxEventType} {room : OutboxRoom}
    {reason : Option String} {change : Option BookingChangeOutboxDetail} :
    (insertOutbox booking eventType room reason change).Tail inventoryDiscipline :=
  tail_insertOutboxEvent

theorem tail_record {enabled : Bool} {change : BookingLifecycleChange} :
    (record enabled change).Tail inventoryDiscipline := by
  unfold record
  split
  · exact tail_insertOutboxEvent.bind fun _ => .pure _
  · exact .pure _

theorem tail_findOneOrFail {ρ : Type} {table : Db → List ρ} {p : ρ → Bool} :
    (findOneOrFail table p).Tail inventoryDiscipline :=
  Txn.Tail.bind (.reading _) fun _ => .orThrow _ _

theorem tail_findRoomOfWindow {roomTimeId : ℕ} : (findRoomOfWindow roomTimeId).Tail inventoryDiscipline :=
  tail_findOneOrFail.bind fun _ => tail_findOneOrFail

theorem tail_recordLifecycleByRoomTime {cfg : Config} {booking : Booking} {fromStatus : BookingStatus} :
    (recordLifecycleByRoomTime cfg booking fromStatus).Tail inventoryDiscipline := by
  unfold recordLifecycleByRoomTime
  split
  · exact tail_findRoomOfWindow.bind fun _ => tail_record
  · exact .pure _

theorem tail_appendTransitionAndOutbox {cfg : Config} {booking : Booking} {actorUserId : ℕ} {reason : Option String}
    {eventType : BookingOutboxEventType} {room : Room} :
    (appendTransitionAndOutbox cfg booking actorUserId reason eventType room).Tail inventoryDiscipline :=
  tail_insertStatusHistory.bind fun _ => tail_record.bind fun _ => tail_insertOutbox.bind fun _ => .pure _

theorem tail_complete {row : IdempotencyKey} {responseStatus : ℕ} {responseBody : Json} :
    (IdempotencyRepository.complete row responseStatus responseBody).Tail inventoryDiscipline :=
  .writing fun _ => neutral_of_stock fun _ => rfl

end Statements

/-! ### Transitions -/

/-- A program follows the discipline: from any inventory it may commit wherever it ends. -/
def Follows {α : Type} (c : Tx α) : Prop :=
  ∀ db, inventoryDiscipline.Inv db → c.wp inventoryDiscipline (fun _ => inventoryDiscipline.Commit ()) ⟨∅, id, none, db⟩

theorem quiet_start {held : Set Key} {view : Option Db} {db : Db} : Quiet ⟨held, id, view, db⟩ := fun _ => rfl

/-- A saved booking that is closed now; what follows the save is neutral. -/
theorem wp_close {α : Type} {l : Mid} {x b : Booking} {c : Booking → Tx α} (hl : Quiet l) (hx : x ∈ l.db.bookings)
    (hheld : .booking x.id ∈ l.held) (hid : b.id = x.id) (hw : b.roomTimeId = x.roomTimeId)
    (hclosed : b.status.isActive = false) (hc : ∀ saved, (c saved).Tail inventoryDiscipline) :
    (saveBooking b >>= c).wp inventoryDiscipline (fun _ => inventoryDiscipline.Commit ()) l := by
  rw [Txn.wp_bind]
  refine wp_saveBooking hl fun db hr now saved l' hdb hl' hpend => ?_
  refine Txn.wp_of_tail (hc saved) ?_ fun _ _ h => h
  rw [hid] at hpend hl'
  refine commit_closeBooking hpend (fun _ => rfl) ?_ (hl' ▸ .inl hheld) hw hclosed
  rw [hdb]
  exact (booking_iff_of_rely hr hheld).2 hx

theorem cancelOwn_follows (cfg : Config) (actorUserId : ℕ) (publicId : String) :
    Follows (BookingsService.cancelOwn cfg actorUserId publicId) := by
  intro db₀ _
  rw [BookingsService.cancelOwn, Txn.wp_bind]
  refine wp_findLocked (fun _ _ _ => ?_) fun db hr b hb _ => ?_
  · rw [Txn.wp_bind, Txn.wp_orThrow]
    exact fun a ha => nomatch ha
  rw [Txn.wp_bind, Txn.wp_orThrow]
  rintro _ ⟨⟩
  split
  · exact commit_of_quiet quiet_start
  · rw [Txn.wp_bind, Txn.wp_require]
    intro _
    exact wp_close quiet_start hb (.inr rfl) rfl rfl rfl fun _ =>
      tail_insertStatusHistory.bind fun _ => tail_recordLifecycleByRoomTime.bind fun _ => .pure _

theorem reject_follows (cfg : Config) (actorUserId : ℕ) (publicId reason : String) :
    Follows (BookingsService.reject cfg actorUserId publicId reason) := by
  intro db₀ _
  rw [BookingsService.reject, Txn.wp_bind]
  refine wp_lockBooking quiet_start fun db hr b hb => ?_
  split
  · rw [Txn.wp_bind, Txn.wp_require]
    exact fun _ => commit_of_quiet quiet_start
  · rw [Txn.wp_bind, Txn.wp_require]
    intro _
    exact wp_close quiet_start hb (.inr rfl) rfl rfl rfl fun _ =>
      tail_findRoomOfWindow.bind fun _ => tail_appendTransitionAndOutbox.bind fun _ => .pure _

theorem cancelAdmin_follows (cfg : Config) (actorUserId : ℕ) (publicId reason : String) :
    Follows (BookingsService.cancelAdmin cfg actorUserId publicId reason) := by
  intro db₀ _
  rw [BookingsService.cancelAdmin, Txn.wp_bind]
  refine wp_lockBooking quiet_start fun db hr b hb => ?_
  split
  · rw [Txn.wp_bind, Txn.wp_reading]
    intro db' _
    rw [Txn.wp_bind, Txn.wp_require]
    exact fun _ => commit_of_quiet quiet_start
  · rw [Txn.wp_bind, Txn.wp_require]
    intro _
    exact wp_close quiet_start hb (.inr rfl) rfl rfl rfl fun _ =>
      tail_findRoomOfWindow.bind fun _ => tail_insertStatusHistory.bind fun _ => tail_record.bind fun _ =>
        tail_insertOutbox.bind fun _ => .pure _

/-- A saved booking that is placed in a window now. -/
theorem wp_place {α : Type} {l : Mid} {x b : Booking} {t : RoomTime} {c : Booking → Tx α} (hl : Quiet l)
    (hx : x ∈ l.db.bookings) (hheld : .booking x.id ∈ l.held) (ht : t ∈ l.db.roomTimes)
    (htheld : .roomTime t.id ∈ l.held) (hrheld : .room t.roomId ∈ l.held) (hid : b.id = x.id)
    (htb : t.id = b.roomTimeId) (hact : t.status = .active) (hcov : t.covers b.checkIn b.checkOut)
    (hfree : b.status = .confirmed → l.db.stock.RoomFree t.roomId x.id b.checkIn b.checkOut)
    (hc : ∀ saved, (c saved).Tail inventoryDiscipline) :
    (saveBooking b >>= c).wp inventoryDiscipline (fun _ => inventoryDiscipline.Commit ()) l := by
  rw [Txn.wp_bind]
  refine wp_saveBooking hl fun db hr now saved l' hdb hl' hpend => ?_
  refine Txn.wp_of_tail (hc saved) ?_ fun _ _ h => h
  rw [hid] at hpend hl'
  have hx' : x ∈ l'.db.bookings := by
    rw [hdb]
    exact (booking_iff_of_rely hr hheld).2 hx
  have ht' : t ∈ l'.db.roomTimes := by
    rw [hdb]
    exact (roomTime_iff_of_rely hr htheld).2 ht
  refine commit_placeBooking hpend (fun _ => rfl) hx' (hl' ▸ .inl hheld) ht' (hl' ▸ .inl htheld) (hl' ▸ .inl hrheld)
    htb hact hcov fun hconf => ?_
  rw [hdb]
  exact (keepsRoom_of_rely hr hrheld).roomFree (hfree hconf)

theorem wp_bookingSourceSnapshot {l : Mid} {publicId : String} {Q : BookingSnapshot → Mid → Prop}
    (h : ∀ db, inventoryDiscipline.Rely l.held l.db db → ∀ snapshot, Q snapshot { l with db := db }) :
    (bookingSourceSnapshot publicId).wp inventoryDiscipline Q l := by
  rw [bookingSourceSnapshot, Txn.wp_bind, Txn.wp_peeking]
  intro db hr
  rw [Txn.wp_orThrow]
  exact fun snapshot _ => h db hr snapshot

theorem approve_follows (cfg : Config) (actorUserId : ℕ) (publicId : String) :
    Follows (BookingsService.approve cfg actorUserId publicId) := by
  intro db₀ _
  rw [BookingsService.approve, Txn.wp_bind]
  refine wp_bookingSourceSnapshot fun db₁ _ snapshot => ?_
  rw [Txn.wp_bind]
  refine wp_lockRoom fun db₂ _ room hroom => ?_
  rw [Txn.wp_bind]
  refine wp_lockBooking quiet_start fun db₃ _ b hb => ?_
  split
  · exact commit_of_quiet quiet_start
  rw [Txn.wp_bind, Txn.wp_require]
  intro _
  rw [Txn.wp_bind, Txn.wp_require]
  intro _
  rw [Txn.wp_bind]
  refine wp_lockRoomTime quiet_start (fun _ _ => ?_) fun db₄ hr₄ t ht htb htr => ?_
  · rw [Txn.wp_bind, Txn.wp_orThrow]
    exact fun _ ha => nomatch ha
  rw [Txn.wp_bind, Txn.wp_orThrow]
  rintro _ ⟨⟩
  rw [Txn.wp_bind, Txn.wp_require]
  rintro ⟨hact, hcov⟩
  rw [Txn.wp_bind]
  refine wp_assertNoConfirmedOverlap quiet_start fun db₅ hr₅ hfree => ?_
  have hrt : Key.room t.roomId ∈ (∅ ∪ {Key.room snapshot.roomId} : Set Key) := by
    rw [htr, hroom]
    exact .inr rfl
  have hb₄ := (booking_iff_of_rely hr₄ (.inr rfl)).2 hb
  have hb₅ := (booking_iff_of_rely hr₅ (.inl (.inr rfl))).2 hb₄
  have ht₅ := (roomTime_iff_of_rely hr₅ (.inr rfl)).2 ht
  refine wp_place quiet_start hb₅ (.inl (.inr rfl)) ht₅ (.inr rfl) (.inl (.inl hrt)) rfl htb hact hcov (fun _ => ?_)
    fun _ => tail_appendTransitionAndOutbox.bind fun _ => .pure _
  rw [htr]
  exact hfree

theorem mem_orderedUniqueRoomIds {id : ℕ} {roomIds : List ℕ} : id ∈ orderedUniqueRoomIds roomIds ↔ id ∈ roomIds := by
  rw [orderedUniqueRoomIds, List.mem_insertionSort, List.mem_eraseDups]

theorem wp_lockRooms {roomIds : List ℕ} {l : Mid} {Q : List Room → Mid → Prop} (hinv : inventoryDiscipline.Inv l.db)
    (h : ∀ db, inventoryDiscipline.Rely l.held l.db db → ∀ rooms,
      Q rooms { l with db := db, held := l.held ∪ {k | ∃ id ∈ roomIds, k = .room id} }) :
    (BookingsService.lockRooms roomIds).wp inventoryDiscipline Q l := by
  induction roomIds generalizing l Q with
  | nil =>
    have hheld : l.held ∪ {k | ∃ id ∈ ([] : List ℕ), k = Key.room id} = l.held := by
      ext
      simp
    have hq := h l.db (.refl hinv) []
    rwa [hheld] at hq
  | cons roomId roomIds ih =>
    rw [BookingsService.lockRooms, Txn.wp_bind]
    refine wp_lockRoom fun db hr room _ => ?_
    rw [Txn.wp_bind]
    refine ih hr.1 fun db' hr' rooms => ?_
    have hheld : l.held ∪ {Key.room roomId} ∪ {k | ∃ id ∈ roomIds, k = .room id} =
        l.held ∪ {k | ∃ id ∈ roomId :: roomIds, k = .room id} := by
      rw [Set.union_assoc]
      congr 1
      ext
      simp
    have hq := h db' (hr.trans hr' Set.subset_union_left) (room :: rooms)
    rw [← hheld] at hq
    exact hq

theorem updateAdmin_follows (cfg : Config) (today : String) (actorUserId : ℕ) (publicId : String) (expectedVersion : ℕ)
    (body : BookingsService.UpdateBookingDto) :
    Follows (BookingsService.updateAdmin cfg today actorUserId publicId expectedVersion body) := by
  intro db₀ _
  rw [BookingsService.updateAdmin, Txn.wp_bind]
  refine wp_bookingSourceSnapshot fun db₁ hr₁ snapshot => ?_
  rw [Txn.wp_bind, Txn.wp_require]
  intro _
  rw [Txn.wp_bind]
  refine wp_lockRooms hr₁.1 fun db₂ _ rooms => ?_
  rw [Txn.wp_bind]
  refine wp_lockBooking quiet_start fun db₃ _ b hb => ?_
  rw [Txn.wp_bind, Txn.wp_require]
  intro _
  rw [Txn.wp_bind, Txn.wp_require]
  intro _
  rw [Txn.wp_bind]
  refine wp_lockRoomTime quiet_start (fun _ _ => ?_) fun db₄ hr₄ source _ _ _ => ?_
  · rw [Txn.wp_bind, Txn.wp_require]
    exact fun h => nomatch h
  rw [Txn.wp_bind, Txn.wp_require]
  intro _
  rw [Txn.wp_bind, Txn.wp_require]
  intro _
  rw [Txn.wp_bind, Txn.wp_require]
  intro _
  rw [Txn.wp_bind, Txn.wp_require]
  intro _
  rw [Txn.wp_bind, Txn.wp_orThrow]
  intro destinationRoom _
  rw [Txn.wp_bind, Txn.wp_require]
  intro _
  rw [Txn.wp_bind]
  refine wp_lockContainingWindow quiet_start fun db₅ hr₅ t ht htr hact hcov => ?_
  have hb₄ := (booking_iff_of_rely hr₄ (.inr rfl)).2 hb
  have hb₅ := (booking_iff_of_rely hr₅ (.inl (.inr rfl))).2 hb₄
  have hrt : Key.room t.roomId ∈ ({k | ∃ id ∈ orderedUniqueRoomIds [snapshot.roomId, body.roomId.getD snapshot.roomId],
      k = .room id} : Set Key) := by
    refine ⟨t.roomId, mem_orderedUniqueRoomIds.2 ?_, rfl⟩
    rw [htr]
    exact List.mem_cons_of_mem _ (List.mem_singleton_self _)
  rw [Txn.wp_bind]
  refine wp_assertNoConfirmedOverlap_when quiet_start hr₅.1 fun db₆ hr₆ hfree => ?_
  have hb₆ := (booking_iff_of_rely hr₆ (.inl (.inl (.inr rfl)))).2 hb₅
  have ht₆ := (roomTime_iff_of_rely hr₆ (.inr rfl)).2 ht
  refine wp_place quiet_start hb₆ (.inl (.inl (.inr rfl))) ht₆ (.inr rfl) (.inl (.inl (.inl (.inr hrt)))) rfl rfl hact
    hcov (fun hconf => ?_) fun _ => tail_insertChangeHistory.bind fun _ => Txn.Tail.bind (.orThrow _ _) fun _ =>
      tail_record.bind fun _ => tail_insertOutbox.bind fun _ => .pure _
  rw [htr]
  exact hfree hconf

/-! ### Creation -/

/-- Claiming an idempotency key writes no stock. -/
theorem wp_lockIdempotency {cfg : Config} {actorUserId : ℕ} {operation key fingerprint : String} {l : Mid}
    {Q : IdempotencyKey → Mid → Prop} (hl : Quiet l)
    (h : ∀ row l', Quiet l' → Q row l') :
    (IdempotencyRepository.lock cfg actorUserId operation key fingerprint).wp inventoryDiscipline Q l := by
  rw [IdempotencyRepository.lock, Txn.wp_bind, IdempotencyRepository.claim, Txn.wp_writing]
  intro db _ x _
  rw [Txn.wp_bind]
  refine wp_findLocked (fun _ _ _ => ?_) fun db' _ row _ _ => ?_
  · rw [Txn.wp_bind, Txn.wp_orThrow]
    exact fun _ ha => nomatch ha
  rw [Txn.wp_bind, Txn.wp_orThrow]
  rintro _ ⟨⟩
  rw [Txn.wp_bind, Txn.wp_require]
  intro _
  refine h row _ fun db => ?_
  refine Eq.trans ?_ (hl db)
  show (if _ then l.pend db else _ : Db).stock = _
  split
  · rfl
  · rfl

theorem wp_lockBookingTarget {l : Mid} {input : BookingCreateInput} {Q : Room × RoomTime → Mid → Prop} (hl : Quiet l)
    (h : ∀ room t l', Quiet l' → t ∈ l'.db.roomTimes → .roomTime t.id ∈ l'.held → .room t.roomId ∈ l'.held →
      t.status = .active → t.covers input.checkIn input.checkOut → Q (room, t) l') :
    (BookingsService.lockBookingTarget input).wp inventoryDiscipline Q l := by
  rw [BookingsService.lockBookingTarget, Txn.wp_bind]
  refine wp_lockRoom fun db _ room hroom => ?_
  rw [Txn.wp_bind, Txn.wp_require]
  intro _
  rw [Txn.wp_bind]
  refine wp_lockContainingWindow (by exact hl) fun db' _ t ht htr hact hcov => ?_
  refine h room t _ hl ht (.inr rfl) (.inl (.inr ?_)) hact hcov
  rw [htr, hroom]
  rfl

/-- A pending booking is added to the window; what follows is neutral. -/
theorem wp_createPendingBooking {l : Mid} {actorUserId priceAmount : ℕ} {t : RoomTime} {input : BookingCreateInput}
    {currency : String} {Q : Booking → Mid → Prop} (hl : Quiet l) (ht : t ∈ l.db.roomTimes)
    (htheld : .roomTime t.id ∈ l.held) (hrheld : .room t.roomId ∈ l.held) (hact : t.status = .active)
    (hcov : t.covers input.checkIn input.checkOut) (h : ∀ b l', inventoryDiscipline.Commit () l' → Q b l') :
    (BookingsService.createPendingBooking actorUserId t input priceAmount currency).wp inventoryDiscipline Q l := by
  rw [BookingsService.createPendingBooking, Txn.wp_bind, insertBooking, Txn.wp_bind, Txn.wp_writing]
  intro db hr x hok
  rw [Txn.wp_pure]
  refine Txn.wp_of_tail (tail_insertStatusHistory.bind fun _ => .pure _) ?_ h
  rw [Bool.and_eq_true] at hok
  have hbookings : (l.pend db).bookings = db.bookings := congrArg Stock.bookings (hl db)
  refine commit_addBooking (b := BookingsService.newBooking actorUserId t input priceAmount currency x) (t := t) (fun db => ?_) (fun y hy => ?_) (.inr (List.mem_cons_self ..))
    ((roomTime_iff_of_rely hr htheld).2 ht) (.inl htheld) (.inl hrheld) rfl hact hcov rfl
  · show Stock.mk (l.pend db).roomTimes ((l.pend db).bookings ++ _) = _
    rw [show (l.pend db).roomTimes = db.roomTimes from congrArg Stock.roomTimes (hl db),
      show (l.pend db).bookings = db.bookings from congrArg Stock.bookings (hl db)]
    rfl
  · have hlt := List.all_eq_true.1 hok.1 y (hbookings ▸ hy)
    exact Nat.ne_of_lt (of_decide_eq_true hlt)

theorem create_follows (cfg : Config) (today : String) (actorUserId : ℕ) (idempotencyKey : Option String)
    (input : BookingCreateInput) : Follows (BookingsService.create cfg today actorUserId idempotencyKey input) := by
  intro db₀ _
  rw [BookingsService.create, Txn.wp_bind, Txn.wp_orThrow]
  intro key _
  rw [BookingsService.createInTransaction, Txn.wp_bind]
  refine wp_lockIdempotency quiet_start fun row l hl => ?_
  split
  · exact commit_of_quiet hl
  rw [Txn.wp_bind, Txn.wp_require]
  intro _
  rw [Txn.wp_bind]
  refine wp_lockBookingTarget hl fun room t l' hl' ht htheld hrheld hact hcov => ?_
  rw [Txn.wp_bind, Txn.wp_require]
  intro _
  rw [Txn.wp_bind]
  refine wp_createPendingBooking hl' ht htheld hrheld hact hcov fun b l'' hready => ?_
  exact Txn.wp_of_tail (tail_record.bind fun _ => tail_findOneOrFail.bind fun _ => tail_complete.bind fun _ => .pure _)
    hready fun _ _ h => h

/-! ### Room-time administration -/

section RoomTimes

variable {l : Mid}

theorem wp_findLockedRoomTime (hl : Quiet l) {roomId roomTimeId : ℕ} {Q : RoomTime → Mid → Prop}
    (h : ∀ db, inventoryDiscipline.Rely l.held l.db db → ∀ t ∈ db.roomTimes, t.id = roomTimeId → t.roomId = roomId →
      Q t { l with db := db, held := l.held ∪ {.roomTime t.id} }) :
    (findLockedRoomTime roomId roomTimeId).wp inventoryDiscipline Q l := by
  rw [findLockedRoomTime, Txn.wp_bind]
  refine wp_findLocked_orThrow fun db hr t ht hp => ?_
  rw [show (l.pend db).roomTimes = db.roomTimes from congrArg Stock.roomTimes (hl db)] at ht
  rw [decide_eq_true_eq] at hp
  exact h db hr t ht hp.1 hp.2

theorem wp_assertNoActiveOverlap (hl : Quiet l) (hinv : inventoryDiscipline.Inv l.db) {roomId : ℕ}
    {candidate : RoomTimeState} {excluded : Option ℕ} {Q : Unit → Mid → Prop}
    (h : ∀ db, inventoryDiscipline.Rely l.held l.db db →
      (candidate.status = .active → ∀ id, (∀ e, excluded = some e → e = id) →
        db.stock.WindowFree roomId id candidate.availableFrom candidate.availableTo) →
      Q () { l with db := db }) :
    (assertNoActiveOverlap roomId candidate excluded).wp inventoryDiscipline Q l := by
  unfold assertNoActiveOverlap
  split
  · next hna => exact h l.db (.refl hinv) fun hact => absurd hact hna
  rw [Txn.wp_bind]
  refine wp_findLocked (fun db hr hnone => ?_) fun db hr t _ _ => ?_
  · rw [Txn.wp_require]
    intro _
    refine h db hr fun _ id hex t ht hne htr htact hover => ?_
    rw [show (l.pend db).roomTimes = db.roomTimes from congrArg Stock.roomTimes (hl db)] at hnone
    refine List.find?_eq_none.1 hnone t ht ?_
    rw [overlapsCandidate, decide_eq_true_eq]
    exact ⟨htr, htact, hover.1, hover.2, fun he => hne (hex _ he)⟩
  · rw [Txn.wp_require]
    exact fun hnone => nomatch hnone

/-- The usage loaded for a window counts its bookings, and its active bookings. -/
theorem lookup_mergeUsage (db : Db) (id : ℕ) (c₁ c₂ : BookingChangeHistory → ℕ) (p₁ p₂ : BookingChangeHistory → Bool) :
    ∃ usage, (mergeUsage [id] (countBookings db [id]) (countChanges db [id] c₁ p₁)
        (countChanges db [id] c₂ p₂)).lookup id = some usage ∧
      usage.bookingCount = Table.affected db.bookings (·.roomTimeId = id) ∧
      usage.activeBookingCount = Table.affected db.bookings fun b => b.roomTimeId = id ∧ b.status.isActive := by
  have hle : Table.affected db.bookings (fun b => b.roomTimeId = id ∧ b.status.isActive) ≤
      Table.affected db.bookings (·.roomTimeId = id) :=
    List.countP_mono_left fun b _ hb => decide_eq_true (of_decide_eq_true hb).1
  simp only [countBookings, countChanges, List.map_cons, List.map_nil, List.filter_cons, List.filter_nil]
  split <;> split <;> split <;> simp_all [mergeUsage, emptyRoomTimeUsage]

theorem wp_loadUsage (hl : Quiet l) (hview : l.view = none) {roomTimeId : ℕ} {Q : RoomTimeUsage → Mid → Prop}
    (h : ∀ snap db, inventoryDiscipline.Rely l.held l.db snap → inventoryDiscipline.Rely l.held snap db →
      ∀ usage : RoomTimeUsage, usage.bookingCount = Table.affected snap.bookings (·.roomTimeId = roomTimeId) →
      usage.activeBookingCount = Table.affected snap.bookings (fun b => b.roomTimeId = roomTimeId ∧ b.status.isActive) →
      Q usage { l with db := db, view := some snap }) :
    (loadUsage roomTimeId).wp inventoryDiscipline Q l := by
  have hids : [roomTimeId].eraseDups = [roomTimeId] := rfl
  rw [loadUsage, Txn.wp_bind, findByRoomTimeIds, hids, if_neg (by simp), Txn.wp_bind, Txn.wp_reading]
  intro snap hr₁
  rw [Txn.wp_bind, Txn.wp_reading]
  intro db₂ hr₂
  rw [Txn.wp_bind, Txn.wp_reading]
  intro db₃ hr₃
  rw [Txn.wp_pure, Txn.wp_orThrow]
  intro usage husage
  simp only [hview, Option.getD_none, Option.getD_some] at husage
  obtain ⟨usage', hlookup, hcount, hactive⟩ := lookup_mergeUsage (l.pend snap) roomTimeId (·.fromRoomTimeId)
    (·.toRoomTimeId) (fun _ => true) fun c => c.toRoomTimeId ≠ c.fromRoomTimeId
  rw [hlookup, Option.some.injEq] at husage
  subst husage
  rw [show (l.pend snap).bookings = snap.bookings from congrArg Stock.bookings (hl snap)] at hcount hactive
  have hq := h snap db₃ hr₁ (hr₂.trans hr₃ subset_rfl) usage' hcount hactive
  simpa only [hview, Option.getD_none, Option.getD_some] using hq

/-- A booking in a window at the commit is counted in the usage loaded under the room lock. -/
theorem counted_of_keepsRoom {snap db : Db} {t : RoomTime} (hk : KeepsRoom t.roomId snap.stock db.stock)
    (ht : t ∈ db.roomTimes) {b : Booking} (hb : b ∈ db.bookings) (hbt : b.roomTimeId = t.id)
    (hact : b.status.isActive = true) :
    0 < Table.affected snap.bookings (·.roomTimeId = t.id) ∧
      0 < Table.affected snap.bookings fun b => b.roomTimeId = t.id ∧ b.status.isActive := by
  obtain ⟨x, hx, -, -, hxb⟩ := hk.bookings b hb ⟨t, ht, hbt.symm, rfl⟩
  obtain rfl := hxb hact
  exact ⟨Table.affected_pos.2 ⟨x, hx, decide_eq_true hbt⟩, Table.affected_pos.2 ⟨x, hx, decide_eq_true ⟨hbt, hact⟩⟩⟩

theorem createRoomTime_follows (roomId : ℕ) (body : CreateRoomTimeDto) : Follows (RoomTimesService.create roomId body) := by
  intro db₀ _
  rw [RoomTimesService.create, Txn.wp_bind, Txn.wp_ofExcept]
  intro _ _
  rw [Txn.wp_bind]
  refine wp_lockRoom fun db₁ hr₁ room _ => ?_
  rw [Txn.wp_bind]
  refine wp_assertNoActiveOverlap quiet_start hr₁.1 fun db₂ _ hfree => ?_
  rw [Txn.wp_bind, insertRoomTime, Txn.wp_bind, Txn.wp_writing]
  intro db₃ hr₃ x hok
  rw [Txn.wp_pure, Txn.wp_pure]
  refine commit_addRoomTime (t := ⟨x.id, roomId, body.availableFrom, body.availableTo, body.status.getD .active⟩)
    (fun _ => rfl) (fun u hu => ?_) (.inr (List.mem_singleton_self _)) (.inl (.inr rfl)) fun hact => ?_
  · exact Nat.ne_of_lt (of_decide_eq_true (List.all_eq_true.1 hok u hu))
  · exact (keepsRoom_of_rely hr₃ (.inr rfl)).windowFree (hfree hact x.id fun _ he => nomatch he)

/-- What the policy lets through. -/
theorem assertRoomTimeUpdateAllowed_ok {current next : RoomTimeState} {usage : RoomTimeUsage} {r : Unit}
    (h : assertRoomTimeUpdateAllowed current next usage = .ok r) :
    (0 < usage.bookingCount → next.availableFrom = current.availableFrom ∧ next.availableTo = current.availableTo) ∧
      (0 < usage.activeBookingCount → current.status = .active → next.status = .active) := by
  simp only [assertRoomTimeUpdateAllowed] at h
  split at h
  · cases h
  split at h
  · cases h
  split at h
  · cases h
  next hdates hdeact =>
  refine ⟨fun hcount => ?_, fun hcount hact => ?_⟩
  · by_contra hne
    refine hdates ⟨?_, .inl hcount⟩
    by_contra hboth
    push Not at hboth
    exact hne ⟨hboth.1.symm, hboth.2.symm⟩
  · cases hnext : next.status with
    | active => rfl
    | inactive => exact absurd ⟨⟨hact, hnext⟩, hcount⟩ hdeact

theorem updateRoomTime_follows (roomId roomTimeId : ℕ) (body : UpdateRoomTimeDto) :
    Follows (RoomTimesService.update roomId roomTimeId body) := by
  intro db₀ _
  rw [RoomTimesService.update, Txn.wp_bind, Txn.wp_require]
  intro _
  rw [Txn.wp_bind]
  refine wp_lockRoom fun db₁ hr₁ room _ => ?_
  rw [Txn.wp_bind]
  refine wp_findLockedRoomTime quiet_start fun db₂ hr₂ t ht htid htr => ?_
  subst htid htr
  rw [Txn.wp_bind]
  refine wp_loadUsage quiet_start rfl fun snap db₃ hr₂' hr₃ usage hcount hactive => ?_
  rw [Txn.wp_bind, Txn.wp_ofExcept]
  intro _ hallowed
  obtain ⟨hdates, hstatus⟩ := assertRoomTimeUpdateAllowed_ok hallowed
  rw [Txn.wp_bind]
  refine wp_assertNoActiveOverlap quiet_start hr₃.1 fun db₄ hr₄ hfree => ?_
  rw [Txn.wp_bind, saveRoomTime, Txn.wp_bind, Txn.wp_reading]
  intro db₅ hr₅
  rw [Txn.wp_bind, Txn.wp_writing]
  intro db₆ hr₆ x _
  rw [Txn.wp_pure, Txn.wp_pure]
  have hr₄₆ := hr₅.trans hr₆ subset_rfl
  have hr₃₆ := hr₄.trans hr₄₆ subset_rfl
  have ht₆ := (roomTime_iff_of_rely (hr₂'.trans (hr₃.trans hr₃₆ subset_rfl) subset_rfl) (.inr rfl)).2 ht
  refine commit_setRoomTime (t := t) (fun _ => rfl) (fun _ => rfl) (fun _ => rfl) ht₆ (.inl (.inr rfl))
    (.inl (.inl (.inr rfl))) (fun db hr b hb hact hbt => ?_) fun hact => ?_
  · have ht₇ := (roomTime_iff_of_rely hr (.inl (.inr rfl))).2 ht₆
    have hkeeps := keepsRoom_of_rely (hr₃.trans (hr₃₆.trans hr Set.subset_union_left) subset_rfl) (.inl (.inr rfl))
    obtain ⟨hpos, hpos'⟩ := counted_of_keepsRoom hkeeps ht₇ hb hbt hact
    rw [← hcount] at hpos
    rw [← hactive] at hpos'
    -- the window that covers the booking is this one
    obtain ⟨u, hu, hub, huact, hucov⟩ := hr.1.covered b hb hact
    obtain rfl := hr.1.roomTimeIds u hu t ht₇ (hub.trans hbt)
    obtain ⟨hfrom, hto⟩ := hdates hpos
    refine ⟨hstatus hpos' huact, ?_, ?_⟩
    · exact hfrom.symm ▸ hucov.1
    · exact hto.symm ▸ hucov.2
  · exact (keepsRoom_of_rely hr₄₆ (.inl (.inr rfl))).windowFree (hfree hact t.id fun _ he => (Option.some.inj he).symm)

theorem deleteRoomTime_follows (roomId roomTimeId : ℕ) : Follows (RoomTimesService.delete roomId roomTimeId) := by
  intro db₀ _
  rw [RoomTimesService.delete, Txn.wp_bind]
  refine wp_lockRoom fun db₁ hr₁ room _ => ?_
  rw [Txn.wp_bind]
  refine wp_findLockedRoomTime quiet_start fun db₂ hr₂ t ht htid htr => ?_
  subst htid htr
  rw [Txn.wp_bind]
  refine wp_loadUsage quiet_start rfl fun snap db₃ hr₂' hr₃ usage hcount _ => ?_
  rw [Txn.wp_bind, Txn.wp_ofExcept]
  intro _ hallowed
  rw [removeRoomTime, Txn.wp_bind, Txn.wp_locking]
  intro db₄ hr₄
  rw [Txn.wp_bind, Txn.wp_require]
  intro _
  rw [Txn.wp_bind, Txn.wp_writing]
  intro db₅ hr₅ x _
  rw [Txn.wp_pure]
  have hr₃₅ := hr₄.trans hr₅ Set.subset_union_left
  have ht₅ := (roomTime_iff_of_rely (hr₂'.trans (hr₃.trans hr₃₅ subset_rfl) subset_rfl) (.inr rfl)).2 ht
  refine commit_removeRoomTime (t := t) (fun _ => rfl) ht₅ (.inl (.inl (.inr rfl))) (.inl (.inl (.inl (.inr rfl))))
    fun db hr b hb hact hbt => ?_
  have ht₆ := (roomTime_iff_of_rely hr (.inl (.inl (.inr rfl)))).2 ht₅
  have hkeeps := keepsRoom_of_rely (hr₃.trans (hr₃₅.trans hr (Set.subset_union_left.trans Set.subset_union_left)) subset_rfl)
    (.inl (.inr rfl))
  obtain ⟨hpos, -⟩ := counted_of_keepsRoom hkeeps ht₆ hb hbt hact
  rw [← hcount] at hpos
  rw [assertRoomTimeDeleteAllowed, if_pos (.inl hpos)] at hallowed
  cases hallowed

end RoomTimes

/-! ### Every interleaving -/

/-- What a call does before it answers follows the discipline. -/
theorem Follows.answer {α : Type} {c : Tx α} (h : Follows c) (f : α → Answer) (db : Db)
    (hinv : inventoryDiscipline.Inv db) :
    (c >>= fun a => pure (f a) : Tx Answer).wp inventoryDiscipline inventoryDiscipline.Commit ⟨∅, id, none, db⟩ := by
  rw [Txn.wp_bind]
  exact h db hinv

theorem run_follows (cfg : Config) (call : Call) (db : Db) (hinv : inventoryDiscipline.Inv db) :
    (call.run cfg).wp inventoryDiscipline inventoryDiscipline.Commit ⟨∅, id, none, db⟩ := by
  cases call with
  | create today actor key input => exact (create_follows cfg today actor key input).answer _ db hinv
  | approve actor publicId => exact (approve_follows cfg actor publicId).answer _ db hinv
  | reject actor publicId reason => exact (reject_follows cfg actor publicId reason).answer _ db hinv
  | updateAdmin today actor publicId version body =>
    exact (updateAdmin_follows cfg today actor publicId version body).answer _ db hinv
  | cancelOwn actor publicId => exact (cancelOwn_follows cfg actor publicId).answer _ db hinv
  | cancelAdmin actor publicId reason => exact (cancelAdmin_follows cfg actor publicId reason).answer _ db hinv
  | createRoomTime roomId body => exact (createRoomTime_follows roomId body).answer _ db hinv
  | updateRoomTime roomId roomTimeId body => exact (updateRoomTime_follows roomId roomTimeId body).answer _ db hinv
  | deleteRoomTime roomId roomTimeId => exact (deleteRoomTime_follows roomId roomTimeId).answer _ db hinv

/-- An empty hotel is an inventory. -/
theorem inventory_opening (roomTypes : List RoomType) (rooms : List Room) :
    Inventory (Db.opening roomTypes rooms).stock where
  bookingIds := fun _ hb => nomatch hb
  roomTimeIds := fun _ ht => nomatch ht
  covered := fun _ hb => nomatch hb
  windows := fun _ ht => nomatch ht
  stays := fun _ hb => nomatch hb

/-- The inventory holds in every state of every interleaving. -/
theorem inventory_of_reachable {cfg : Config} {s : Sys Db Key Supply AppError Answer Call}
    (h : (bookingSystem cfg).Reachable (fun _ _ => True) s) : Inventory s.db.stock := by
  refine (sound (D := inventoryDiscipline) ?_ (run_follows cfg) h).inv
  rintro db ⟨roomTypes, rooms, rfl⟩
  exact inventory_opening roomTypes rooms

/-! #### Two guests for one room -/

/-- A hotel with one room. -/
def oneRoom : Sys Db Key Supply AppError Answer Call :=
  .start (.opening [⟨7, "Deluxe"⟩] [⟨1, 7, "A-201", 1000000, "VND", .active⟩])

/-- What program `p` draws. -/
def supplyOf (p : ℕ) : Supply where
  id := p + 1
  uuid := "event-" ++ toString p
  publicId := "01K4N8G4X8R0K1F2Q7V6S9T3A" ++ toString p
  now := 1790000000000000

def quietConfig : Config := ⟨false, 24, fun _ => "fingerprint"⟩

/-- A window is opened, two guests ask for the same nights, and two administrators approve
at the same time: both read before either locks, and the second finds the room taken. -/
def twoGuests : List (Act Supply Call) :=
  let steps (p n : ℕ) : List (Act Supply Call) := List.replicate n (.step p (supplyOf p))
  .start 0 (.createRoomTime 1 ⟨"2026-10-01", "2026-12-01", none⟩) :: steps 0 4 ++
  .start 1 (.create "2026-09-01" 41 (some "key-of-guest-41") ⟨1, "2026-10-05", "2026-10-08"⟩) :: steps 1 9 ++
  .start 2 (.create "2026-09-01" 42 (some "key-of-guest-42") ⟨1, "2026-10-05", "2026-10-08"⟩) :: steps 2 9 ++
  .start 3 (.approve 9 (supplyOf 1).publicId) :: .start 4 (.approve 9 (supplyOf 2).publicId) ::
    steps 3 1 ++ steps 4 1 ++ steps 3 9 ++ steps 4 5

/-- Where they end. -/
def twoGuestsEnd : Option (Sys Db Key Supply AppError Answer Call) := (bookingSystem quietConfig).run oneRoom twoGuests

theorem twoGuestsEnd_isSome : twoGuestsEnd.isSome = true := by decide

theorem twoGuests_reachable :
    (bookingSystem quietConfig).Reachable (fun _ _ => True) (twoGuestsEnd.get twoGuestsEnd_isSome) :=
  .of_run (.init ⟨_, ⟨_, _, rfl⟩, rfl⟩) (fun _ _ _ => trivial) (Option.some_get twoGuestsEnd_isSome).symm

/-! #### The results -/

/-- No two confirmed bookings of one room share a night. -/
def NoDoubleBooking (db : Db) : Prop :=
  ∀ x ∈ db.bookings, ∀ y ∈ db.bookings, x ≠ y → x.status = .confirmed → y.status = .confirmed →
    ∀ t ∈ db.roomTimes, ∀ u ∈ db.roomTimes, t.id = x.roomTimeId → u.id = y.roomTimeId → t.roomId = u.roomId →
      ¬ overlaps x.checkIn x.checkOut y.checkIn y.checkOut

/-- **No double booking**, in every state that any calls can reach, however they interleave. -/
theorem no_double_booking (cfg : Config) (s : Sys Db Key Supply AppError Answer Call)
    (h : (bookingSystem cfg).Reachable (fun _ _ => True) s) : NoDoubleBooking s.db := by
  intro x hx y hy hne hxc hyc t ht u hu htx huy hroom
  have hinv := inventory_of_reachable h
  rw [overlaps_comm]
  exact hinv.stays x hx hxc t.roomId ⟨t, ht, htx, rfl⟩ y hy
    (fun hid => hne (hinv.bookingIds x hx y hy hid.symm)) hyc ⟨u, hu, huy, hroom.symm⟩

theorem no_double_booking_twoGuests :
    ((twoGuestsEnd.get twoGuestsEnd_isSome).db.bookings.map (·.status)) = [.confirmed, .pending] ∧
      NoDoubleBooking (twoGuestsEnd.get twoGuestsEnd_isSome).db :=
  ⟨by decide, no_double_booking quietConfig _ twoGuests_reachable⟩

/-- Every active booking is covered by its window, the active windows of a room are
disjoint, and at most one window contains a stay. -/
structure ActiveBookingsCovered (db : Db) : Prop where
  /-- The window of an active booking exists, is active and contains the stay. -/
  covered : ∀ b ∈ db.bookings, b.status = .pending ∨ b.status = .confirmed →
    ∃ t ∈ db.roomTimes, t.id = b.roomTimeId ∧ t.status = .active ∧ t.availableFrom ≤ b.checkIn ∧ b.checkOut ≤ t.availableTo
  /-- The active windows of a room do not overlap. -/
  disjoint : ∀ t ∈ db.roomTimes, ∀ u ∈ db.roomTimes, t ≠ u → t.roomId = u.roomId → t.status = .active →
    u.status = .active → ¬ overlaps t.availableFrom t.availableTo u.availableFrom u.availableTo
  /-- The containing-window lookup of a stay that creation or an edit accepts has at most
  one candidate. -/
  unique : ∀ roomId checkIn checkOut today, assertBookingDates checkIn checkOut today ≠ 0 →
    ∀ t ∈ containingWindows db roomId checkIn checkOut, ∀ u ∈ containingWindows db roomId checkIn checkOut, t = u

/-- **Active bookings stay covered**, in every state that any calls can reach. -/
theorem active_bookings_covered (cfg : Config) (s : Sys Db Key Supply AppError Answer Call)
    (h : (bookingSystem cfg).Reachable (fun _ _ => True) s) : ActiveBookingsCovered s.db := by
  have hinv := inventory_of_reachable h
  have hdisjoint : ∀ t ∈ s.db.roomTimes, ∀ u ∈ s.db.roomTimes, t ≠ u → t.roomId = u.roomId → t.status = .active →
      u.status = .active → ¬ overlaps t.availableFrom t.availableTo u.availableFrom u.availableTo := by
    intro t ht u hu hne hroom hta hua
    rw [overlaps_comm]
    exact hinv.windows t ht hta u hu (fun hid => hne (hinv.roomTimeIds t ht u hu hid.symm)) hroom.symm hua
  refine ⟨fun b hb hact => ?_, hdisjoint, fun roomId checkIn checkOut today hstay t ht u hu => ?_⟩
  · obtain ⟨t, ht, htb, hta, hfrom, hto⟩ := hinv.covered b hb (by rcases hact with h | h <;> rw [h] <;> rfl)
    exact ⟨t, ht, htb, hta, hfrom, hto⟩
  · simp only [containingWindows, List.mem_filter, decide_eq_true_eq] at ht hu
    obtain ⟨ht, htr, hta, htfrom, htto⟩ := ht
    obtain ⟨hu, hur, hua, hufrom, huto⟩ := hu
    have hlt := lt_of_assertBookingDates hstay
    by_contra hne
    -- a stay has a night, and both windows contain it
    exact hdisjoint t ht u hu hne (htr.trans hur.symm) hta hua
      ⟨(htfrom.trans_lt hlt).trans_le huto, (hufrom.trans_lt hlt).trans_le htto⟩

theorem active_bookings_covered_twoGuests :
    ((twoGuestsEnd.get twoGuestsEnd_isSome).db.bookings.map (·.status)) = [.confirmed, .pending] ∧
      ActiveBookingsCovered (twoGuestsEnd.get twoGuestsEnd_isSome).db :=
  ⟨by decide, active_bookings_covered quietConfig _ twoGuests_reachable⟩

end HotelBackend.Bookings
