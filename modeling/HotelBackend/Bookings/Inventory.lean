import Mathlib.Data.String.Basic
import HotelBackend.Theory.Transactions
import HotelBackend.Theory.Tables
import HotelBackend.Rooms.Entities
import HotelBackend.Bookings.Entities

/-!
# The inventory of a hotel

What the booking and room-time transactions are for, without their programs: the
windows and the bookings of a hotel (`Stock`), the invariant they keep (`Inventory`),
and the five changes a transaction may make to them.

## Who may change what

A change needs the locks of the rows it changes, and the lock of the room for
everything that can *use up* the room: a window added, moved or removed, a booking
entering or confirmed. A booking may be closed (rejected, cancelled) under its own row
lock alone. `KeepsRoom` is therefore one-sided: while a room is locked by somebody, its
windows do not change, no booking enters it, and its active bookings may only be
closed. That is why a count or a conflict read under the room lock still decides
rightly at the commit: what is read can only be too careful.
-/

namespace HotelBackend.Bookings

open HotelBackend.Theory
open HotelBackend.Rooms

/-- The windows and the bookings of a hotel. -/
structure Stock where
  roomTimes : List RoomTime
  bookings : List Booking

namespace Stock

/-- The booking is in a window of the room. -/
def InRoom (s : Stock) (b : Booking) (roomId : ℕ) : Prop := ∃ t ∈ s.roomTimes, t.id = b.roomTimeId ∧ t.roomId = roomId

/-- An active window covers the booking, and it is the booking's window. -/
def Covered (s : Stock) (b : Booking) : Prop :=
  ∃ t ∈ s.roomTimes, t.id = b.roomTimeId ∧ t.status = .active ∧ t.covers b.checkIn b.checkOut

/-- No confirmed booking of another id in the room overlaps the stay. -/
def RoomFree (s : Stock) (roomId bookingId : ℕ) (checkIn checkOut : String) : Prop :=
  ∀ z ∈ s.bookings, z.id ≠ bookingId → z.status = .confirmed → s.InRoom z roomId →
    ¬ overlaps z.checkIn z.checkOut checkIn checkOut

/-- No other active window of the room overlaps the range. -/
def WindowFree (s : Stock) (roomId roomTimeId : ℕ) (availableFrom availableTo : String) : Prop :=
  ∀ t ∈ s.roomTimes, t.id ≠ roomTimeId → t.roomId = roomId → t.status = .active →
    ¬ overlaps t.availableFrom t.availableTo availableFrom availableTo

end Stock

theorem overlaps_comm {a b c d : String} : overlaps a b c d ↔ overlaps c d a b := And.comm

/-- The invariant of a hotel's stock. -/
structure Inventory (s : Stock) : Prop where
  /-- Bookings have a primary key. -/
  bookingIds : Table.UniqueBy (·.id) s.bookings
  /-- Windows have a primary key. -/
  roomTimeIds : Table.UniqueBy (·.id) s.roomTimes
  /-- Active bookings are covered. -/
  covered : ∀ b ∈ s.bookings, b.status.isActive = true → s.Covered b
  /-- The active windows of a room are disjoint. -/
  windows : ∀ t ∈ s.roomTimes, t.status = .active → s.WindowFree t.roomId t.id t.availableFrom t.availableTo
  /-- The confirmed stays of a room are disjoint. -/
  stays : ∀ b ∈ s.bookings, b.status = .confirmed → ∀ roomId, s.InRoom b roomId →
    s.RoomFree roomId b.id b.checkIn b.checkOut

/-! ### What the locks keep -/

/-- What others may do to a room while it is locked. -/
structure KeepsRoom (roomId : ℕ) (s s' : Stock) : Prop where
  /-- Its windows are as they were. -/
  windows : ∀ t : RoomTime, t.roomId = roomId → (t ∈ s'.roomTimes ↔ t ∈ s.roomTimes)
  /-- A booking in it was there before, and if it is active now it is as it was. -/
  bookings : ∀ y ∈ s'.bookings, s'.InRoom y roomId →
    ∃ x ∈ s.bookings, x.id = y.id ∧ x.roomTimeId = y.roomTimeId ∧ (y.status.isActive = true → x = y)

/-- The window row is as it was. -/
def KeepsRoomTime (id : ℕ) (s s' : Stock) : Prop := ∀ t : RoomTime, t.id = id → (t ∈ s'.roomTimes ↔ t ∈ s.roomTimes)

/-- The booking row is as it was. -/
def KeepsBooking (id : ℕ) (s s' : Stock) : Prop := ∀ b : Booking, b.id = id → (b ∈ s'.bookings ↔ b ∈ s.bookings)

section Keeps

variable {roomId id : ℕ} {s s' s'' : Stock} {b : Booking}

theorem KeepsRoom.inRoom (h : KeepsRoom roomId s s') : s'.InRoom b roomId ↔ s.InRoom b roomId := by
  constructor
  · rintro ⟨t, ht, hid, hr⟩
    exact ⟨t, (h.windows t hr).1 ht, hid, hr⟩
  · rintro ⟨t, ht, hid, hr⟩
    exact ⟨t, (h.windows t hr).2 ht, hid, hr⟩

theorem KeepsRoom.refl (roomId : ℕ) (s : Stock) : KeepsRoom roomId s s :=
  ⟨fun _ _ => Iff.rfl, fun y hy _ => ⟨y, hy, rfl, rfl, fun _ => rfl⟩⟩

theorem KeepsRoom.trans (h : KeepsRoom roomId s s') (h' : KeepsRoom roomId s' s'') : KeepsRoom roomId s s'' where
  windows t ht := (h'.windows t ht).trans (h.windows t ht)
  bookings z hz hr := by
    obtain ⟨y, hy, hid, hw, hyz⟩ := h'.bookings z hz hr
    -- the room of a booking is that of its window, and both keep the window
    have hyr : s'.InRoom y roomId := by
      obtain ⟨t, ht, htid, htr⟩ := h'.inRoom.1 hr
      exact ⟨t, ht, htid.trans hw.symm, htr⟩
    obtain ⟨x, hx, hid', hw', hxy⟩ := h.bookings y hy hyr
    refine ⟨x, hx, hid'.trans hid, hw'.trans hw, fun hact => ?_⟩
    obtain rfl := hyz hact
    exact hxy hact

theorem KeepsRoomTime.trans (h : KeepsRoomTime id s s') (h' : KeepsRoomTime id s' s'') : KeepsRoomTime id s s'' :=
  fun t ht => (h' t ht).trans (h t ht)

theorem KeepsBooking.trans (h : KeepsBooking id s s') (h' : KeepsBooking id s' s'') : KeepsBooking id s s'' :=
  fun b hb => (h' b hb).trans (h b hb)

/-- A room that was free under its lock is still free. -/
theorem KeepsRoom.roomFree (h : KeepsRoom roomId s s') {checkIn checkOut : String}
    (hf : s.RoomFree roomId id checkIn checkOut) : s'.RoomFree roomId id checkIn checkOut := by
  intro z hz hne hconf hr
  obtain ⟨x, hx, -, -, hxz⟩ := h.bookings z hz hr
  obtain rfl := hxz (by rw [hconf]; rfl)
  exact hf x hx hne hconf (h.inRoom.1 hr)

/-- A range that was free under the room lock is still free. -/
theorem KeepsRoom.windowFree (h : KeepsRoom roomId s s') {availableFrom availableTo : String}
    (hf : s.WindowFree roomId id availableFrom availableTo) : s'.WindowFree roomId id availableFrom availableTo :=
  fun t ht hne hr hact => hf t ((h.windows t hr).1 ht) hne hr hact

end Keeps

/-! ### The five changes -/

namespace Stock

/-- A booking row changes. -/
def setBooking (s : Stock) (id : ℕ) (f : Booking → Booking) : Stock :=
  { s with bookings := Table.update s.bookings (·.id = id) f }

/-- A booking is added. -/
def addBooking (s : Stock) (b : Booking) : Stock := { s with bookings := s.bookings ++ [b] }

/-- A window row changes. -/
def setRoomTime (s : Stock) (id : ℕ) (f : RoomTime → RoomTime) : Stock :=
  { s with roomTimes := Table.update s.roomTimes (·.id = id) f }

/-- A window is added. -/
def addRoomTime (s : Stock) (t : RoomTime) : Stock := { s with roomTimes := s.roomTimes ++ [t] }

/-- A window is removed. -/
def removeRoomTime (s : Stock) (id : ℕ) : Stock := { s with roomTimes := Table.delete s.roomTimes (·.id = id) }

end Stock

section Changes

variable {s : Stock} (h : Inventory s)
include h

/-! #### A booking changes -/

section SetBooking

variable {x : Booking} {f : Booking → Booking} (hx : x ∈ s.bookings) (hf : ∀ b, (f b).id = b.id)

/-- The rows afterwards: the changed one, and all others. -/
theorem Inventory.mem_setBooking (hx : x ∈ s.bookings) {z : Booking} :
    z ∈ (s.setBooking x.id f).bookings ↔ z = f x ∨ (z ∈ s.bookings ∧ z.id ≠ x.id) := by
  simp only [Stock.setBooking, Table.mem_update, decide_eq_true_eq, decide_eq_false_iff_not]
  constructor
  · rintro ⟨y, hy, ⟨hid, rfl⟩ | ⟨hid, rfl⟩⟩
    · exact .inl (by rw [h.bookingIds y hy x hx hid])
    · exact .inr ⟨hy, hid⟩
  · rintro (rfl | ⟨hz, hid⟩)
    · exact ⟨x, hx, .inl ⟨rfl, rfl⟩⟩
    · exact ⟨z, hz, .inr ⟨hid, rfl⟩⟩

include hx hf

theorem Inventory.setBooking (hcov : (f x).status.isActive = true → s.Covered (f x))
    (hfree : (f x).status = .confirmed → ∀ r, s.InRoom (f x) r → s.RoomFree r x.id (f x).checkIn (f x).checkOut) :
    Inventory (s.setBooking x.id f) where
  bookingIds := h.bookingIds.update hf
  roomTimeIds := h.roomTimeIds
  covered b hb hact := by
    rcases (h.mem_setBooking hx).1 hb with rfl | ⟨hb, -⟩
    · exact hcov hact
    · exact h.covered b hb hact
  windows := h.windows
  stays b hb hconf r hr z hz hne hzconf hzr := by
    rcases (h.mem_setBooking hx).1 hb with rfl | ⟨hb, hbid⟩ <;> rcases (h.mem_setBooking hx).1 hz with rfl | ⟨hz, hzid⟩
    · exact absurd rfl hne
    · exact hfree hconf r hr z hz hzid hzconf hzr
    · -- the changed booking is the other one: its room was free of `b`
      rw [overlaps_comm]
      exact hfree hzconf r hzr b hb hbid hconf hr
    · exact h.stays b hb hconf r hr z hz hne hzconf hzr

theorem Inventory.keepsBooking_setBooking {id : ℕ} (hid : id ≠ x.id) : KeepsBooking id s (s.setBooking x.id f) := by
  rintro z rfl
  rw [h.mem_setBooking hx]
  constructor
  · rintro (rfl | ⟨hz, -⟩)
    · exact absurd (hf x) hid
    · exact hz
  · exact fun hz => .inr ⟨hz, hid⟩

/-- A room is kept by a change of a booking that closes it, or leaves it outside the room. -/
theorem Inventory.keepsRoom_setBooking {roomId : ℕ}
    (hr : s.InRoom (f x) roomId → (f x).roomTimeId = x.roomTimeId ∧ (f x).status.isActive = false) :
    KeepsRoom roomId s (s.setBooking x.id f) where
  windows _ _ := Iff.rfl
  bookings y hy hyr := by
    rcases (h.mem_setBooking hx).1 hy with rfl | ⟨hy, -⟩
    · obtain ⟨hw, hact⟩ := hr hyr
      exact ⟨x, hx, (hf x).symm, hw.symm, fun h => by rw [hact] at h; cases h⟩
    · exact ⟨y, hy, rfl, rfl, fun _ => rfl⟩

end SetBooking

/-! #### A pending booking is added -/

section AddBooking

variable {b : Booking} (hid : ∀ y ∈ s.bookings, y.id ≠ b.id)
include hid

theorem Inventory.addBooking (hpend : b.status = .pending) (hcov : s.Covered b) : Inventory (s.addBooking b) := by
  have hold : ∀ y ∈ (s.addBooking b).bookings, y.status = .confirmed → y ∈ s.bookings := by
    intro y hy hconf
    rcases List.mem_append.1 hy with hy | hy
    · exact hy
    · rw [List.mem_singleton] at hy
      rw [hy, hpend] at hconf
      cases hconf
  refine ⟨h.bookingIds.insert hid, h.roomTimeIds, fun y hy hact => ?_, h.windows, fun y hy hconf r hr z hz hne hzconf hzr => ?_⟩
  · rcases List.mem_append.1 hy with hy | hy
    · exact h.covered y hy hact
    · rw [List.mem_singleton] at hy
      exact hy ▸ hcov
  · exact h.stays y (hold y hy hconf) hconf r hr z (hold z hz hzconf) hne hzconf hzr

omit h in
theorem Inventory.keepsBooking_addBooking {id : ℕ} (hne : id ≠ b.id) : KeepsBooking id s (s.addBooking b) := by
  rintro z rfl
  simp only [Stock.addBooking, List.mem_append, List.mem_singleton]
  constructor
  · rintro (hz | rfl)
    · exact hz
    · exact absurd rfl hne
  · exact .inl

omit h hid in
theorem Inventory.keepsRoom_addBooking {roomId : ℕ} (hr : ¬ s.InRoom b roomId) : KeepsRoom roomId s (s.addBooking b) where
  windows _ _ := Iff.rfl
  bookings y hy hyr := by
    rcases List.mem_append.1 hy with hy | hy
    · exact ⟨y, hy, rfl, rfl, fun _ => rfl⟩
    · rw [List.mem_singleton] at hy
      subst hy
      exact absurd hyr hr

end AddBooking

/-! #### A window changes -/

section SetRoomTime

variable {t : RoomTime} {f : RoomTime → RoomTime} (ht : t ∈ s.roomTimes)
  (hf : ∀ u, (f u).id = u.id) (hfr : ∀ u, (f u).roomId = u.roomId)

theorem Inventory.mem_setRoomTime (ht : t ∈ s.roomTimes) {u : RoomTime} :
    u ∈ (s.setRoomTime t.id f).roomTimes ↔ u = f t ∨ (u ∈ s.roomTimes ∧ u.id ≠ t.id) := by
  simp only [Stock.setRoomTime, Table.mem_update, decide_eq_true_eq, decide_eq_false_iff_not]
  constructor
  · rintro ⟨v, hv, ⟨hid, rfl⟩ | ⟨hid, rfl⟩⟩
    · exact .inl (by rw [h.roomTimeIds v hv t ht hid])
    · exact .inr ⟨hv, hid⟩
  · rintro (rfl | ⟨hu, hid⟩)
    · exact ⟨t, ht, .inl ⟨rfl, rfl⟩⟩
    · exact ⟨u, hu, .inr ⟨hid, rfl⟩⟩

include ht hf hfr

/-- No booking changes its room. -/
theorem Inventory.inRoom_setRoomTime {b : Booking} {r : ℕ} : (s.setRoomTime t.id f).InRoom b r → s.InRoom b r := by
  rintro ⟨u, hu, hid, hr⟩
  rcases (h.mem_setRoomTime ht).1 hu with rfl | ⟨hu, -⟩
  · exact ⟨t, ht, (hf t).symm.trans hid, (hfr t).symm.trans hr⟩
  · exact ⟨u, hu, hid, hr⟩

theorem Inventory.setRoomTime
    (hcov : ∀ b ∈ s.bookings, b.status.isActive = true → b.roomTimeId = t.id →
      (f t).status = .active ∧ (f t).covers b.checkIn b.checkOut)
    (hfree : (f t).status = .active → s.WindowFree t.roomId t.id (f t).availableFrom (f t).availableTo) :
    Inventory (s.setRoomTime t.id f) where
  bookingIds := h.bookingIds
  roomTimeIds := h.roomTimeIds.update hf
  covered b hb hact := by
    obtain ⟨u, hu, hid, hua, hcovers⟩ := h.covered b hb hact
    by_cases hut : u.id = t.id
    · obtain ⟨ha, hc⟩ := hcov b hb hact (hid.symm.trans hut)
      exact ⟨f t, (h.mem_setRoomTime ht).2 (.inl rfl), (hf t).trans (hut.symm.trans hid), ha, hc⟩
    · exact ⟨u, (h.mem_setRoomTime ht).2 (.inr ⟨hu, hut⟩), hid, hua, hcovers⟩
  windows u hu hua v hv hne hr hva := by
    rcases (h.mem_setRoomTime ht).1 hu with rfl | ⟨hu, huid⟩ <;> rcases (h.mem_setRoomTime ht).1 hv with rfl | ⟨hv, hvid⟩
    · exact absurd rfl hne
    · exact hfree hua v hv hvid (hr.trans (hfr t)) hva
    · rw [overlaps_comm]
      exact hfree hva u hu huid (hr.symm.trans (hfr t)) hua
    · exact h.windows u hu hua v hv hne hr hva
  stays b hb hconf r hr z hz hne hzconf hzr :=
    h.stays b hb hconf r (h.inRoom_setRoomTime ht hf hfr hr) z hz hne hzconf (h.inRoom_setRoomTime ht hf hfr hzr)

omit hfr in
theorem Inventory.keepsRoomTime_setRoomTime {id : ℕ} (hid : id ≠ t.id) : KeepsRoomTime id s (s.setRoomTime t.id f) := by
  rintro u rfl
  rw [h.mem_setRoomTime ht]
  constructor
  · rintro (rfl | ⟨hu, -⟩)
    · exact absurd (hf t) hid
    · exact hu
  · exact fun hu => .inr ⟨hu, hid⟩

omit hf in
theorem Inventory.keepsRoom_setRoomTime {roomId : ℕ} (hr : roomId ≠ t.roomId) :
    KeepsRoom roomId s (s.setRoomTime t.id f) where
  windows u hu := by
    rw [h.mem_setRoomTime ht]
    constructor
    · rintro (rfl | ⟨hu, -⟩)
      · exact absurd (hu.symm.trans (hfr t)) hr
      · exact hu
    · intro hus
      refine .inr ⟨hus, fun hid => hr ?_⟩
      rw [← hu, h.roomTimeIds u hus t ht hid]
  bookings y hy _ := ⟨y, hy, rfl, rfl, fun _ => rfl⟩

end SetRoomTime

/-! #### A window is added -/

section AddRoomTime

variable {t : RoomTime} (hid : ∀ u ∈ s.roomTimes, u.id ≠ t.id)
include hid

theorem Inventory.addRoomTime (hfree : t.status = .active → s.WindowFree t.roomId t.id t.availableFrom t.availableTo) :
    Inventory (s.addRoomTime t) := by
  -- an active booking has its window already, so it is not in the new one
  have hroom : ∀ b ∈ s.bookings, b.status = .confirmed → ∀ r, (s.addRoomTime t).InRoom b r → s.InRoom b r := by
    rintro b hb hconf r ⟨u, hu, hub, hur⟩
    rcases List.mem_append.1 hu with hu | hu
    · exact ⟨u, hu, hub, hur⟩
    · rw [List.mem_singleton] at hu
      obtain ⟨v, hv, hvb, -⟩ := h.covered b hb (by rw [hconf]; rfl)
      exact absurd (hvb.trans (hub.symm.trans (congrArg RoomTime.id hu))) (hid v hv)
  refine ⟨h.bookingIds, h.roomTimeIds.insert hid, fun b hb hact => ?_, fun u hu hua v hv hne hr hva => ?_,
    fun b hb hconf r hr z hz hne hzconf hzr => ?_⟩
  · obtain ⟨u, hu, hrest⟩ := h.covered b hb hact
    exact ⟨u, List.mem_append_left _ hu, hrest⟩
  · rcases List.mem_append.1 hu with hus | hut <;> rcases List.mem_append.1 hv with hvs | hvt
    · exact h.windows u hus hua v hvs hne hr hva
    · obtain rfl := List.mem_singleton.1 hvt
      rw [overlaps_comm]
      exact hfree hva u hus (hid u hus) hr.symm hua
    · obtain rfl := List.mem_singleton.1 hut
      exact hfree hua v hvs hne hr hva
    · rw [List.mem_singleton.1 hut, List.mem_singleton.1 hvt] at hne
      exact absurd rfl hne
  · exact h.stays b hb hconf r (hroom b hb hconf r hr) z hz hne hzconf (hroom z hz hzconf r hzr)

omit h in
theorem Inventory.keepsRoomTime_addRoomTime {id : ℕ} (hne : id ≠ t.id) : KeepsRoomTime id s (s.addRoomTime t) := by
  rintro u rfl
  simp only [Stock.addRoomTime, List.mem_append, List.mem_singleton]
  constructor
  · rintro (hu | rfl)
    · exact hu
    · exact absurd rfl hne
  · exact .inl

omit h hid in
theorem Inventory.keepsRoom_addRoomTime {roomId : ℕ} (hr : roomId ≠ t.roomId) : KeepsRoom roomId s (s.addRoomTime t) where
  windows u hu := by
    simp only [Stock.addRoomTime, List.mem_append, List.mem_singleton]
    constructor
    · rintro (hus | rfl)
      · exact hus
      · exact absurd hu.symm hr
    · exact .inl
  bookings y hy _ := ⟨y, hy, rfl, rfl, fun _ => rfl⟩

end AddRoomTime

/-! #### A window is removed -/

section RemoveRoomTime

variable {t : RoomTime}

theorem Inventory.removeRoomTime (hno : ∀ b ∈ s.bookings, b.status.isActive = true → b.roomTimeId ≠ t.id) :
    Inventory (s.removeRoomTime t.id) where
  bookingIds := h.bookingIds
  roomTimeIds := h.roomTimeIds.delete
  covered b hb hact := by
    obtain ⟨u, hu, hub, hrest⟩ := h.covered b hb hact
    refine ⟨u, Table.mem_delete.2 ⟨hu, ?_⟩, hub, hrest⟩
    exact decide_eq_false fun hid => hno b hb hact (hub.symm.trans hid)
  windows u hu hua v hv hne hr hva :=
    h.windows u (Table.mem_delete.1 hu).1 hua v (Table.mem_delete.1 hv).1 hne hr hva
  stays b hb hconf r := by
    rintro ⟨u, hu, hub, hur⟩ z hz hne hzconf ⟨v, hv, hvz, hvr⟩
    exact h.stays b hb hconf r ⟨u, (Table.mem_delete.1 hu).1, hub, hur⟩ z hz hne hzconf
      ⟨v, (Table.mem_delete.1 hv).1, hvz, hvr⟩

omit h in
theorem Inventory.keepsRoomTime_removeRoomTime {id : ℕ} (hne : id ≠ t.id) :
    KeepsRoomTime id s (s.removeRoomTime t.id) := by
  rintro u rfl
  rw [Stock.removeRoomTime, Table.mem_delete]
  exact ⟨And.left, fun hu => ⟨hu, decide_eq_false hne⟩⟩

theorem Inventory.keepsRoom_removeRoomTime (ht : t ∈ s.roomTimes) {roomId : ℕ} (hr : roomId ≠ t.roomId) :
    KeepsRoom roomId s (s.removeRoomTime t.id) where
  windows u hu := by
    rw [Stock.removeRoomTime, Table.mem_delete]
    refine ⟨And.left, fun hus => ⟨hus, decide_eq_false fun hid => hr ?_⟩⟩
    rw [← hu, h.roomTimeIds u hus t ht hid]
  bookings y hy _ := ⟨y, hy, rfl, rfl, fun _ => rfl⟩

end RemoveRoomTime

end Changes

end HotelBackend.Bookings
