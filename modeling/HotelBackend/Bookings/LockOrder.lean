import HotelBackend.Theory.LockOrder
import HotelBackend.Bookings.Isolation
import Mathlib.Data.Prod.Lex

/-!
# The lock order of the booking transactions

Idempotency key, rooms by id, booking, then the windows and bookings of a room that is held:
every one of the nine transactions asks for its locks so (`Ask`), whatever it read before and
however stale that is. A transaction that starts with the booking asks for nothing more. What
two transactions hold inside a room (a window, the bookings a probe finds) they do not hold
apart from the room, so no third rank is needed for it: one room has one holder.

`bookings_deadlock_free` is that no wait-for cycle is ever reached, also when a probe locks its
rows one by one.
-/

namespace HotelBackend.Bookings

open HotelBackend.Common
open HotelBackend.Theory
open HotelBackend.Theory.Transactions
open HotelBackend.Rooms
open HotelBackend.Outbox

/-- The row of the key is there. The claim of an idempotency key waits for the row that holds the key,
also where that row is not committed yet. -/
def Db.HasRow (db : Db) : Key → Prop
  | .room id => ∃ r ∈ db.rooms, r.id = id
  | .roomTime id => ∃ t ∈ db.roomTimes, t.id = id
  | .booking id => ∃ b ∈ db.bookings, b.id = id
  | .idempotencyKey _ _ _ => True
  | _ => False

/-! ### What a transaction holds -/

/-- It holds no booking. -/
def NoBooking (l : Mid) : Prop := ∀ id, .booking id ∉ l.held

/-- The windows it holds are in rooms it holds. -/
def Homed (l : Mid) : Prop := ∀ t ∈ l.db.roomTimes, .roomTime t.id ∈ l.held → .room t.roomId ∈ l.held

/-- The bookings it holds are in rooms it holds. -/
def Placed (l : Mid) : Prop := ∀ b ∈ l.db.bookings, .booking b.id ∈ l.held → ∃ r, .room r ∈ l.held ∧ l.db.stock.InRoom b r

/-- What a transaction may ask for, by what it holds. -/
def Ask (l : Mid) (k : Key) : Prop :=
  Homed l ∧
    match k with
    | .idempotencyKey _ _ _ => l.held = ∅
    | .room id => NoBooking l ∧ ∀ r, .room r ∈ l.held → r < id
    | .booking id => NoBooking l ∨ Placed l ∧ ∃ b ∈ l.db.bookings, b.id = id ∧ ∃ r, .room r ∈ l.held ∧ l.db.stock.InRoom b r
    | .roomTime id => ∃ t ∈ l.db.roomTimes, t.id = id ∧ .room t.roomId ∈ l.held
    | _ => False

open Classical in
/-- The rank of a key for a transaction that asks for it. -/
noncomputable def lockRank (l : Mid) : Key → ℕ ×ₗ ℕ
  | .idempotencyKey _ _ _ => toLex (0, 0)
  | .room id => toLex (1, id)
  | .booking _ => if NoBooking l then toLex (2, 0) else toLex (3, 0)
  | _ => toLex (4, 0)

/-- A booking is in one room. -/
theorem room_unique {s : Stock} (h : Inventory s) {b : Booking} {r r' : ℕ} (hr : s.InRoom b r) (hr' : s.InRoom b r') : r = r' := by
  obtain ⟨t, ht, hid, rfl⟩ := hr
  obtain ⟨u, hu, hid', rfl⟩ := hr'
  rw [h.roomTimeIds t ht u hu (hid.trans hid'.symm)]

/-- A key ranks below every key its holder asks for. -/
theorem lockRank_lt {l l' : Mid} {k k' : Key} (hinv : inventoryDiscipline.Inv l.db) (hdb : l'.db = l.db)
    (hdisjoint : ∀ x ∈ l.held, x ∉ l'.held) (hk : k ∈ l'.held) (hask : Ask l k) (hask' : Ask l' k') :
    lockRank l k < lockRank l' k' := by
  have hfirst : ∀ {a b c d : ℕ}, a < b → (toLex (a, c) : ℕ ×ₗ ℕ) < toLex (b, d) := fun h => Prod.Lex.toLex_lt_toLex.2 (.inl h)
  obtain ⟨hhomed, hask⟩ := hask
  obtain ⟨hhomed', hask'⟩ := hask'
  -- its holder holds something, so it does not ask for an idempotency key
  have hnotIdle : ∀ a o x, k' ≠ .idempotencyKey a o x := by
    rintro a o x rfl
    rw [show l'.held = ∅ from hask'] at hk
    exact hk
  -- a window is asked for in a room that its holder holds as well
  have hnotWindow : ∀ id, k ≠ .roomTime id := by
    rintro id rfl
    obtain ⟨t, ht, rfl, hr⟩ := hask
    rw [← hdb] at ht
    exact hdisjoint _ hr (hhomed' t ht hk)
  cases k with
  | idempotencyKey a o x =>
    cases k' with
    | idempotencyKey a' o' x' => exact absurd rfl (hnotIdle a' o' x')
    | room id => exact hfirst (by omega)
    | booking id =>
      simp only [lockRank]
      split
      · exact hfirst (by omega)
      · exact hfirst (by omega)
    | roomTime id => exact hfirst (by omega)
    | _ => exact hask'.elim
  | room id =>
    cases k' with
    | idempotencyKey a' o' x' => exact absurd rfl (hnotIdle a' o' x')
    | room id' => exact Prod.Lex.toLex_lt_toLex.2 (.inr ⟨rfl, hask'.2 id hk⟩)
    | booking id =>
      simp only [lockRank]
      split
      · exact hfirst (by omega)
      · exact hfirst (by omega)
    | roomTime id => exact hfirst (by omega)
    | _ => exact hask'.elim
  | booking id =>
    have hsome : ¬ NoBooking l' := fun h => h id hk
    cases k' with
    | idempotencyKey a' o' x' => exact absurd rfl (hnotIdle a' o' x')
    | room id' => exact absurd hask'.1 hsome
    | booking id' =>
      simp only [lockRank, if_neg hsome]
      by_cases hnone : NoBooking l
      · rw [if_pos hnone]
        exact hfirst (by omega)
      · -- a probe asks for a booking in its room, and the holder, probing too, has that room
        obtain ⟨-, b, hb, rfl, r, hr, hbr⟩ := hask.resolve_left hnone
        obtain ⟨hplaced, -⟩ := hask'.resolve_left hsome
        obtain ⟨r', hr', hbr'⟩ := hplaced b (hdb ▸ hb) hk
        rw [hdb] at hbr'
        obtain rfl := room_unique hinv hbr hbr'
        exact absurd hr' (hdisjoint _ hr)
    | roomTime id' =>
      simp only [lockRank]
      split
      · exact hfirst (by omega)
      · exact hfirst (by omega)
    | _ => exact hask'.elim
  | roomTime id => exact absurd rfl (hnotWindow id)
  | _ => exact hask.elim

/-! #### Under other transactions and more locks -/

section Hold

variable {l : Mid} {k : Key} {db : Db}

theorem Homed.rely (h : Homed l) (hr : inventoryDiscipline.Rely l.held l.db db) : Homed { l with db := db } :=
  fun t ht hk => h t ((roomTime_iff_of_rely hr hk).1 ht) hk

theorem Homed.hold (h : Homed l) (hk : ∀ id, k ≠ .roomTime id) : Homed { l with held := l.held ∪ {k} } := by
  intro t ht htk
  rcases htk with htk | htk
  · exact .inl (h t ht htk)
  · exact absurd htk.symm (hk t.id)

theorem Homed.holdRoomTime (h : Homed l) (hinv : inventoryDiscipline.Inv l.db) {t : RoomTime} (ht : t ∈ l.db.roomTimes)
    (hr : .room t.roomId ∈ l.held) : Homed { l with held := l.held ∪ {.roomTime t.id} } := by
  intro u hu huk
  rcases huk with huk | huk
  · exact .inl (h u hu huk)
  · rw [Set.mem_singleton_iff, Key.roomTime.injEq] at huk
    rw [hinv.roomTimeIds u hu t ht huk]
    exact .inl hr

theorem inRoom_of_rely (hr : inventoryDiscipline.Rely l.held l.db db) {b : Booking} {r : ℕ} (hk : .room r ∈ l.held) :
    db.stock.InRoom b r ↔ l.db.stock.InRoom b r :=
  (keepsRoom_of_rely hr hk).inRoom

theorem Placed.rely (h : Placed l) (hr : inventoryDiscipline.Rely l.held l.db db) : Placed { l with db := db } := by
  intro b hb hk
  obtain ⟨r, hrk, hbr⟩ := h b ((booking_iff_of_rely hr hk).1 hb) hk
  exact ⟨r, hrk, (inRoom_of_rely hr hrk).2 hbr⟩

theorem Placed.hold (h : Placed l) (hk : ∀ id, k ≠ .booking id) : Placed { l with held := l.held ∪ {k} } := by
  intro b hb hbk
  rcases hbk with hbk | hbk
  · obtain ⟨r, hrk, hbr⟩ := h b hb hbk
    exact ⟨r, .inl hrk, hbr⟩
  · exact absurd hbk.symm (hk b.id)

theorem Placed.holdBooking (h : Placed l) (hinv : inventoryDiscipline.Inv l.db) {b : Booking} (hb : b ∈ l.db.bookings) {r : ℕ}
    (hr : .room r ∈ l.held) (hbr : l.db.stock.InRoom b r) : Placed { l with held := l.held ∪ {.booking b.id} } := by
  intro c hc hck
  rcases hck with hck | hck
  · obtain ⟨r', hr', hcr⟩ := h c hc hck
    exact ⟨r', .inl hr', hcr⟩
  · rw [Set.mem_singleton_iff, Key.booking.injEq] at hck
    rw [hinv.bookingIds c hc b hb hck]
    exact ⟨r, .inl hr, hbr⟩

theorem NoBooking.hold (h : NoBooking l) (hk : ∀ id, k ≠ .booking id) : NoBooking { l with held := l.held ∪ {k} } := by
  intro id hid
  rcases hid with hid | hid
  · exact h id hid
  · exact hk id hid.symm

theorem NoBooking.placed (h : NoBooking l) : Placed l := fun b _ hk => absurd hk (h b.id)

end Hold

/-! ### Statements -/

section Statements

variable {l : Mid}

theorem asking_findLocked {ρ : Type} {table : Db → List ρ} {key : ρ → Key} {p : ρ → Bool} {Q : Option ρ → Mid → Prop}
    (hask : ∀ db, inventoryDiscipline.Rely l.held l.db db → ∀ r ∈ table (l.pend db), p r = true →
      key r ∈ l.held ∨ Ask { l with db := db } (key r))
    (hnone : ∀ db, inventoryDiscipline.Rely l.held l.db db → Q none { l with db := db })
    (hsome : ∀ db, inventoryDiscipline.Rely l.held l.db db → ∀ r ∈ table (l.pend db), p r = true →
      Q (some r) { l with db := db, held := l.held ∪ {key r} }) :
    (findLocked table key p).asking inventoryDiscipline Db.HasRow Ask Q l :=
  Txn.asking_locking_find hask hnone hsome

theorem asking_findLocked_orThrow {ρ : Type} {table : Db → List ρ} {key : ρ → Key} {p : ρ → Bool} {e : AppError} {Q : ρ → Mid → Prop}
    (hask : ∀ db, inventoryDiscipline.Rely l.held l.db db → ∀ r ∈ table (l.pend db), p r = true →
      key r ∈ l.held ∨ Ask { l with db := db } (key r))
    (h : ∀ db, inventoryDiscipline.Rely l.held l.db db → ∀ r ∈ table (l.pend db), p r = true →
      Q r { l with db := db, held := l.held ∪ {key r} }) :
    (findLocked table key p).asking inventoryDiscipline Db.HasRow Ask
      (fun o => (Txn.orThrow o e : Tx ρ).asking inventoryDiscipline Db.HasRow Ask Q) l := by
  refine asking_findLocked hask (fun db _ => ?_) fun db hr r hmem hp => ?_
  · rw [Txn.asking_orThrow]
    exact fun a ha => by cases ha
  · rw [Txn.asking_orThrow]
    rintro _ ⟨⟩
    exact h db hr r hmem hp

/-- A room is asked for before any booking, and above the rooms held. -/
theorem asking_lockRoom {roomId : ℕ} {Q : Room → Mid → Prop} (hl : Homed l) (hfirst : NoBooking l)
    (habove : ∀ r, .room r ∈ l.held → r < roomId)
    (h : ∀ db, inventoryDiscipline.Rely l.held l.db db → ∀ room : Room, room.id = roomId →
      Homed { l with db := db, held := l.held ∪ {.room roomId} } → Q room { l with db := db, held := l.held ∪ {.room roomId} }) :
    (lockRoom roomId).asking inventoryDiscipline Db.HasRow Ask Q l := by
  rw [lockRoom, Txn.asking_bind]
  refine asking_findLocked_orThrow (fun db hr room _ hid => ?_) fun db hr room _ hid => ?_
  · rw [decide_eq_true_eq] at hid
    rw [hid]
    exact .inr ⟨hl.rely hr, hfirst, habove⟩
  · rw [decide_eq_true_eq] at hid
    rw [hid]
    exact h db hr room hid ((hl.rely hr).hold fun _ he => by cases he)

/-- The first booking is asked for under any rooms. -/
theorem asking_lockBooking {publicId : String} {Q : Booking → Mid → Prop} (hq : Quiet l) (hl : Homed l) (hfirst : NoBooking l)
    (h : ∀ db, inventoryDiscipline.Rely l.held l.db db → ∀ b ∈ db.bookings, Homed { l with db := db, held := l.held ∪ {.booking b.id} } →
      Q b { l with db := db, held := l.held ∪ {.booking b.id} }) :
    (lockBooking publicId).asking inventoryDiscipline Db.HasRow Ask Q l := by
  rw [lockBooking, Txn.asking_bind]
  refine asking_findLocked_orThrow (fun db hr b _ _ => .inr ⟨hl.rely hr, .inl hfirst⟩) fun db hr b hb _ => ?_
  rw [show (l.pend db).bookings = db.bookings from congrArg Stock.bookings (hq db)] at hb
  exact h db hr b hb ((hl.rely hr).hold fun _ he => by cases he)

/-- A window is asked for under its room. -/
theorem asking_roomTime {roomId : ℕ} {p : RoomTime → Bool} {Q : Option RoomTime → Mid → Prop} (hq : Quiet l) (hl : Homed l)
    (hroom : .room roomId ∈ l.held) (hp : ∀ t, p t = true → t.roomId = roomId)
    (hnone : ∀ db, inventoryDiscipline.Rely l.held l.db db → Q none { l with db := db })
    (hsome : ∀ db, inventoryDiscipline.Rely l.held l.db db → ∀ t ∈ db.roomTimes, p t = true →
      Homed { l with db := db, held := l.held ∪ {.roomTime t.id} } → Q (some t) { l with db := db, held := l.held ∪ {.roomTime t.id} }) :
    (findLocked (·.roomTimes) (fun t => .roomTime t.id) p).asking inventoryDiscipline Db.HasRow Ask Q l := by
  have hroomTimes : ∀ db, (l.pend db).roomTimes = db.roomTimes := fun db => congrArg Stock.roomTimes (hq db)
  refine asking_findLocked (fun db hr t ht hpt => ?_) hnone fun db hr t ht hpt => ?_
  · rw [hroomTimes] at ht
    exact .inr ⟨hl.rely hr, t, ht, rfl, (hp t hpt).symm ▸ hroom⟩
  · rw [hroomTimes] at ht
    exact hsome db hr t ht hpt ((hl.rely hr).holdRoomTime hr.1 ht ((hp t hpt).symm ▸ hroom))

theorem asking_lockContainingWindow {roomId : ℕ} {checkIn checkOut : String} {Q : RoomTime → Mid → Prop} (hq : Quiet l) (hl : Homed l)
    (hroom : .room roomId ∈ l.held)
    (h : ∀ db, inventoryDiscipline.Rely l.held l.db db → ∀ t ∈ db.roomTimes, t.roomId = roomId →
      Homed { l with db := db, held := l.held ∪ {.roomTime t.id} } → Q t { l with db := db, held := l.held ∪ {.roomTime t.id} }) :
    (lockContainingWindow roomId checkIn checkOut).asking inventoryDiscipline Db.HasRow Ask Q l := by
  rw [lockContainingWindow, Txn.asking_bind, Txn.asking_locking]
  intro l' htaking
  have hsingle : ∀ o : Option RoomTime, (o.toList.map fun t => Key.roomTime t.id).length ≤ 1 := by
    intro o
    rw [List.length_map]
    exact Option.length_toList_le
  obtain ⟨db, hr, rfl⟩ := htaking.rely fun db => hsingle _
  have hfound : ∀ t, containingWindow (l.pend db) roomId checkIn checkOut = some t → t ∈ db.roomTimes ∧ t.roomId = roomId := by
    intro t ht
    obtain ⟨hmem, hid, -⟩ := mem_of_containingWindow ht
    rw [show (l.pend db).roomTimes = db.roomTimes from congrArg Stock.roomTimes (hq db)] at hmem
    exact ⟨hmem, hid⟩
  refine ⟨fun x hx => ?_, ?_⟩
  · simp only [List.mem_map, Option.mem_toList] at hx
    obtain ⟨t, ht, rfl⟩ := hx
    obtain ⟨hmem, hid⟩ := hfound t ht
    exact .inr ⟨hl.rely hr, t, hmem, rfl, hid.symm ▸ hroom⟩
  · rw [Txn.asking_orThrow]
    intro t ht
    obtain ⟨hmem, hid⟩ := hfound t ht
    have hheld : l.held ∪ {k | k ∈ (some t).toList.map fun t : RoomTime => Key.roomTime t.id} = l.held ∪ {.roomTime t.id} := by
      ext
      simp
    simp only [ht, hheld]
    exact h db hr t hmem hid ((hl.rely hr).holdRoomTime hr.1 hmem (hid.symm ▸ hroom))

/-- What a probe may have taken so far is in the room it probes. -/
structure Probing (roomId : ℕ) (l : Mid) : Prop where
  homed : Homed l
  placed : Placed l
  room : .room roomId ∈ l.held

theorem asking_assertNoConfirmedOverlap {roomId bookingId : ℕ} {checkIn checkOut : String} {Q : Unit → Mid → Prop} (hq : Quiet l)
    (hinv : inventoryDiscipline.Inv l.db) (hl : Probing roomId l) (h : ∀ l', l.held ⊆ l'.held → inventoryDiscipline.Inv l'.db → Q () l') :
    (assertNoConfirmedOverlap roomId bookingId checkIn checkOut).asking inventoryDiscipline Db.HasRow Ask Q l := by
  rw [assertNoConfirmedOverlap, Txn.asking_bind, Txn.asking_locking]
  intro l' htaking
  -- a row of the probe: a booking of the room, or the window of one
  have hrow : ∀ m : Mid, m.pend = l.pend → ∀ k ∈ ((m.pend m.db).bookings.filter
      (confirmedConflict (m.pend m.db) roomId bookingId checkIn checkOut)).flatMap fun b => [Key.booking b.id, .roomTime b.roomTimeId],
      ∃ b ∈ m.db.bookings, ∃ t ∈ m.db.roomTimes, t.id = b.roomTimeId ∧ t.roomId = roomId ∧ (k = .booking b.id ∨ k = .roomTime t.id) := by
    intro m hm k hk
    have hstock := hq m.db
    rw [← hm] at hstock
    simp only [List.mem_flatMap, List.mem_filter, confirmedConflict, Bool.and_eq_true, List.any_eq_true, decide_eq_true_eq,
      List.mem_cons, List.not_mem_nil, or_false] at hk
    obtain ⟨b, ⟨hb, ⟨⟨⟨⟨t, ht, hid, hr⟩, -⟩, -⟩, -⟩, -⟩, hk⟩ := hk
    rw [show (m.pend m.db).bookings = m.db.bookings from congrArg Stock.bookings hstock] at hb
    rw [show (m.pend m.db).roomTimes = m.db.roomTimes from congrArg Stock.roomTimes hstock] at ht
    exact ⟨b, hb, t, ht, hid, hr, hid.symm ▸ hk⟩
  obtain ⟨hprobing, hpend, hheld, hrely⟩ := htaking.invariant (I := Probing roomId) hl
    (fun m db hm _ hr => ⟨hm.homed.rely hr, hm.placed.rely hr, hm.room⟩)
    (fun m k hm hpend hminv hk => by
      obtain ⟨b, hb, t, ht, hid, hr, rfl | rfl⟩ := hrow m hpend k hk
      · exact ⟨hm.homed.hold (fun _ he => by cases he), hm.placed.holdBooking hminv hb hm.room ⟨t, ht, hid, hr⟩, .inl hm.room⟩
      · exact ⟨hm.homed.holdRoomTime hminv ht (hr.symm ▸ hm.room), hm.placed.hold (fun _ he => by cases he), .inl hm.room⟩) hinv
  refine ⟨fun k hk => ?_, ?_⟩
  · obtain ⟨b, hb, t, ht, hid, hr, rfl | rfl⟩ := hrow l' hpend k hk
    · exact .inr ⟨hprobing.homed, .inr ⟨hprobing.placed, b, hb, rfl, roomId, hprobing.room, t, ht, hid, hr⟩⟩
    · exact .inr ⟨hprobing.homed, t, ht, rfl, hr.symm ▸ hprobing.room⟩
  · rw [Txn.asking_require]
    exact fun _ => h _ (hheld.trans Set.subset_union_left) htaking.2

theorem asking_assertNoConfirmedOverlap_when {roomId bookingId : ℕ} {checkIn checkOut : String} {c : Prop} [Decidable c]
    {Q : Unit → Mid → Prop} (hq : Quiet l) (hinv : inventoryDiscipline.Inv l.db) (hl : Probing roomId l)
    (h : ∀ l', l.held ⊆ l'.held → inventoryDiscipline.Inv l'.db → Q () l') :
    ((assertNoConfirmedOverlap roomId bookingId checkIn checkOut).when c).asking inventoryDiscipline Db.HasRow Ask Q l := by
  rw [Txn.asking_when]
  exact ⟨fun _ => asking_assertNoConfirmedOverlap hq hinv hl h, fun _ => h l subset_rfl hinv⟩

/-! #### Statements that ask for nothing more -/

section Within

variable {H : Set Key}

theorem within_insertStatusHistory {bookingId : ℕ} {fromStatus : Option BookingStatus} {toStatus : BookingStatus}
    {actorType : BookingActorType} {actorUserId : Option ℕ} {reason : Option String} :
    (insertStatusHistory bookingId fromStatus toStatus actorType actorUserId reason).Within Db.HasRow H :=
  .writing fun x db _ y hy hrow => by
    obtain rfl := List.mem_singleton.1 hy
    exact hrow.elim

theorem within_insertChangeHistory {row : Supply → BookingChangeHistory} : (insertChangeHistory row).Within Db.HasRow H :=
  .writing fun x db _ y hy hrow => by
    obtain rfl := List.mem_singleton.1 hy
    exact hrow.elim

theorem within_insertOutboxEvent {eventType key : String} {payload : Json} :
    (insertOutboxEvent eventType payload key).Within Db.HasRow H :=
  .writing fun x db _ y hy hrow => by
    simp only [List.mem_cons, List.not_mem_nil, or_false] at hy
    rcases hy with rfl | rfl
    · exact hrow.elim
    · exact hrow.elim

theorem within_insertOutbox {booking : Booking} {eventType : BookingOutboxEventType} {room : OutboxRoom} {reason : Option String}
    {change : Option BookingChangeOutboxDetail} : (insertOutbox booking eventType room reason change).Within Db.HasRow H :=
  within_insertOutboxEvent

theorem within_record {enabled : Bool} {change : BookingLifecycleChange} : (record enabled change).Within Db.HasRow H := by
  unfold record
  split
  · exact within_insertOutboxEvent.bind fun _ => .pure _
  · exact .pure _

theorem within_findOneOrFail {ρ : Type} {table : Db → List ρ} {p : ρ → Bool} : (findOneOrFail table p).Within Db.HasRow H :=
  Txn.Within.bind (.reading _) fun _ => .orThrow _ _

theorem within_findRoomOfWindow {roomTimeId : ℕ} : (findRoomOfWindow roomTimeId).Within Db.HasRow H :=
  within_findOneOrFail.bind fun _ => within_findOneOrFail

theorem within_recordLifecycleByRoomTime {cfg : Config} {booking : Booking} {fromStatus : BookingStatus} :
    (recordLifecycleByRoomTime cfg booking fromStatus).Within Db.HasRow H := by
  unfold recordLifecycleByRoomTime
  split
  · exact within_findRoomOfWindow.bind fun _ => within_record
  · exact .pure _

theorem within_appendTransitionAndOutbox {cfg : Config} {booking : Booking} {actorUserId : ℕ} {reason : Option String}
    {eventType : BookingOutboxEventType} {room : Room} :
    (appendTransitionAndOutbox cfg booking actorUserId reason eventType room).Within Db.HasRow H :=
  within_insertStatusHistory.bind fun _ => within_record.bind fun _ => within_insertOutbox.bind fun _ => .pure _

theorem within_complete {row : IdempotencyKey} {responseStatus : ℕ} {responseBody : Json}
    (h : .idempotencyKey row.actorUserId row.operation row.idempotencyKey ∈ H) :
    (IdempotencyRepository.complete row responseStatus responseBody).Within Db.HasRow H :=
  .writing fun _ _ _ y hy _ => by
    obtain rfl := List.mem_singleton.1 hy
    exact h

theorem within_saveBooking {b : Booking} (h : .booking b.id ∈ H) : (saveBooking b).Within Db.HasRow H :=
  Txn.Within.bind (.reading _) fun _ => Txn.Within.bind (.writing fun _ _ _ y hy _ => by
    obtain rfl := List.mem_singleton.1 hy
    exact h) fun _ => .pure _

/-- The row of a new booking is not there before. -/
theorem within_insertBooking {row : Supply → Booking} : (insertBooking row).Within Db.HasRow H :=
  Txn.Within.bind (.writing fun x db hok y hy hrow => by
    simp only [List.mem_cons, List.not_mem_nil, or_false] at hy
    rcases hy with rfl | rfl
    · obtain ⟨b, hb, hid⟩ := hrow
      rw [Bool.and_eq_true] at hok
      have hlt := of_decide_eq_true (List.all_eq_true.1 hok.1 b hb)
      exact absurd hid (Nat.ne_of_lt hlt)
    · exact hrow.elim) fun _ => .pure _

theorem within_insertRoomTime {row : Supply → RoomTime} : (insertRoomTime row).Within Db.HasRow H :=
  Txn.Within.bind (.writing fun x db hok y hy hrow => by
    obtain rfl := List.mem_singleton.1 hy
    obtain ⟨t, ht, hid⟩ := hrow
    have hlt := of_decide_eq_true (List.all_eq_true.1 hok t ht)
    exact absurd hid (Nat.ne_of_lt hlt)) fun _ => .pure _

theorem within_saveRoomTime {t : RoomTime} (h : .roomTime t.id ∈ H) : (saveRoomTime t).Within Db.HasRow H :=
  Txn.Within.bind (.reading _) fun _ => Txn.Within.bind (.writing fun _ _ _ y hy _ => by
    obtain rfl := List.mem_singleton.1 hy
    exact h) fun _ => .pure _

theorem within_removeRoomTime {t : RoomTime} (h : .roomTime t.id ∈ H) : (removeRoomTime t).Within Db.HasRow H :=
  Txn.Within.bind ⟨fun _ _ hy => absurd hy List.not_mem_nil, fun _ => trivial⟩ fun _ => Txn.Within.bind (.require _ _) fun _ =>
    Txn.Within.bind (.writing fun _ _ _ y hy _ => by
      obtain rfl := List.mem_singleton.1 hy
      exact h) fun _ => .pure _

end Within

end Statements

/-! ### The transactions -/

/-- A transaction keeps to the lock order, from any inventory. -/
def KeepsOrder {α : Type} (c : Tx α) : Prop :=
  ∀ db, inventoryDiscipline.Inv db → c.asking inventoryDiscipline Db.HasRow Ask (fun _ _ => True) ⟨∅, id, none, db⟩

theorem homed_start {pend : Db → Db} {view : Option Db} {db : Db} : Homed ⟨∅, pend, view, db⟩ := fun _ _ h => h.elim

theorem noBooking_start {pend : Db → Db} {view : Option Db} {db : Db} : NoBooking ⟨∅, pend, view, db⟩ := fun _ h => h

theorem cancelOwn_keepsOrder (cfg : Config) (actorUserId : ℕ) (publicId : String) :
    KeepsOrder (BookingsService.cancelOwn cfg actorUserId publicId) := by
  intro db₀ _
  rw [BookingsService.cancelOwn, Txn.asking_bind]
  refine asking_findLocked (fun _ _ _ _ _ => .inr ⟨homed_start, .inl noBooking_start⟩) (fun _ _ => ?_) fun db hr b _ _ => ?_
  · rw [Txn.asking_bind, Txn.asking_orThrow]
    exact fun a ha => by cases ha
  rw [Txn.asking_bind, Txn.asking_orThrow]
  rintro _ ⟨⟩
  refine Txn.asking_of_within (H := {Key.booking b.id}) ?_ Set.subset_union_right hr.1
  split
  · exact .pure _
  · exact Txn.Within.bind (.require _ _) fun _ => (within_saveBooking (Set.mem_singleton _)).bind fun _ =>
      within_insertStatusHistory.bind fun _ => within_recordLifecycleByRoomTime.bind fun _ => .pure _

theorem reject_keepsOrder (cfg : Config) (actorUserId : ℕ) (publicId reason : String) :
    KeepsOrder (BookingsService.reject cfg actorUserId publicId reason) := by
  intro db₀ _
  rw [BookingsService.reject, Txn.asking_bind]
  refine asking_lockBooking quiet_start homed_start noBooking_start fun db hr b _ _ => ?_
  refine Txn.asking_of_within (H := {Key.booking b.id}) ?_ Set.subset_union_right hr.1
  split
  · exact Txn.Within.bind (.require _ _) fun _ => .pure _
  · exact Txn.Within.bind (.require _ _) fun _ => (within_saveBooking (Set.mem_singleton _)).bind fun _ =>
      within_findRoomOfWindow.bind fun _ => within_appendTransitionAndOutbox.bind fun _ => .pure _

theorem cancelAdmin_keepsOrder (cfg : Config) (actorUserId : ℕ) (publicId reason : String) :
    KeepsOrder (BookingsService.cancelAdmin cfg actorUserId publicId reason) := by
  intro db₀ _
  rw [BookingsService.cancelAdmin, Txn.asking_bind]
  refine asking_lockBooking quiet_start homed_start noBooking_start fun db hr b _ _ => ?_
  refine Txn.asking_of_within (H := {Key.booking b.id}) ?_ Set.subset_union_right hr.1
  split
  · exact Txn.Within.bind (.reading _) fun _ => Txn.Within.bind (.require _ _) fun _ => .pure _
  · exact Txn.Within.bind (.require _ _) fun _ => (within_saveBooking (Set.mem_singleton _)).bind fun _ =>
      within_findRoomOfWindow.bind fun _ => within_insertStatusHistory.bind fun _ => within_record.bind fun _ =>
        within_insertOutbox.bind fun _ => .pure _

theorem asking_bookingSourceSnapshot {l : Mid} {publicId : String} {Q : BookingSnapshot → Mid → Prop}
    (h : ∀ db, inventoryDiscipline.Rely l.held l.db db → ∀ snapshot, Q snapshot { l with db := db }) :
    (bookingSourceSnapshot publicId).asking inventoryDiscipline Db.HasRow Ask Q l := by
  rw [bookingSourceSnapshot, Txn.asking_bind, Txn.asking_peeking]
  intro db hr
  rw [Txn.asking_orThrow]
  exact fun snapshot _ => h db hr snapshot

theorem approve_keepsOrder (cfg : Config) (actorUserId : ℕ) (publicId : String) :
    KeepsOrder (BookingsService.approve cfg actorUserId publicId) := by
  intro db₀ _
  rw [BookingsService.approve, Txn.asking_bind]
  refine asking_bookingSourceSnapshot fun db₁ _ snapshot => ?_
  rw [Txn.asking_bind]
  refine asking_lockRoom homed_start noBooking_start (fun _ h => h.elim) fun db₂ _ room hroom hl₂ => ?_
  have hfirst : NoBooking ⟨∅ ∪ {Key.room snapshot.roomId}, id, none, db₂⟩ := noBooking_start.hold fun _ he => by cases he
  rw [Txn.asking_bind]
  refine asking_lockBooking quiet_start hl₂ hfirst fun db₃ hr₃ b hb hl₃ => ?_
  split
  · trivial
  rw [Txn.asking_bind, Txn.asking_require]
  intro _
  rw [Txn.asking_bind, Txn.asking_require]
  intro _
  rw [Txn.asking_bind, lockRoomTime]
  have hheld : Key.room room.id ∈ (∅ ∪ {Key.room snapshot.roomId} ∪ {Key.booking b.id} : Set Key) := by
    rw [hroom]
    exact .inl (.inr rfl)
  refine asking_roomTime quiet_start hl₃ hheld (fun t ht => (of_decide_eq_true ht).2) (fun _ _ => ?_)
    fun db₄ hr₄ t ht htp hl₄ => ?_
  · rw [Txn.asking_bind, Txn.asking_orThrow]
    exact fun _ ha => by cases ha
  rw [Txn.asking_bind, Txn.asking_orThrow]
  rintro _ ⟨⟩
  rw [Txn.asking_bind, Txn.asking_require]
  intro _
  rw [Txn.asking_bind]
  obtain ⟨htid, htr⟩ := of_decide_eq_true htp
  have hroom₂ : Key.room snapshot.roomId ∈ (∅ ∪ {Key.room snapshot.roomId} : Set Key) := .inr rfl
  have hb₄ : b ∈ db₄.bookings := (booking_iff_of_rely hr₄ (.inr rfl)).2 hb
  have hplaced : Placed ⟨∅ ∪ {Key.room snapshot.roomId} ∪ {Key.booking b.id}, id, none, db₄⟩ :=
    Placed.holdBooking (l := ⟨∅ ∪ {Key.room snapshot.roomId}, id, none, db₄⟩) (NoBooking.placed hfirst) hr₄.1 hb₄ hroom₂ ⟨t, ht, htid, htr.trans hroom⟩
  refine asking_assertNoConfirmedOverlap quiet_start hr₄.1 ⟨hl₄, hplaced.hold (fun _ he => by cases he), .inl hheld⟩ fun l' hsub hinv => ?_
  exact Txn.asking_of_within (H := {Key.booking b.id})
    ((within_saveBooking (Set.mem_singleton _)).bind fun _ => within_appendTransitionAndOutbox.bind fun _ => .pure _)
    (fun k hk => hsub (.inl (.inr hk))) hinv

/-- The rooms of an edit are asked for in id order. -/
theorem asking_lockRooms {roomIds : List ℕ} {l : Mid} {Q : List Room → Mid → Prop} (hinv : inventoryDiscipline.Inv l.db)
    (hl : Homed l) (hfirst : NoBooking l) (hsorted : roomIds.Pairwise (· < ·))
    (habove : ∀ r, .room r ∈ l.held → ∀ id ∈ roomIds, r < id)
    (h : ∀ db, inventoryDiscipline.Rely l.held l.db db → ∀ rooms l', l' = { l with db := db, held := l.held ∪ {k | ∃ id ∈ roomIds, k = .room id} } →
      Homed l' → NoBooking l' → Q rooms l') :
    (BookingsService.lockRooms roomIds).asking inventoryDiscipline Db.HasRow Ask Q l := by
  induction roomIds generalizing l Q with
  | nil =>
    refine h l.db (.refl hinv) [] l ?_ hl hfirst
    have hheld : l.held ∪ {k | ∃ id ∈ ([] : List ℕ), k = Key.room id} = l.held := by
      ext
      simp
    rw [hheld]
  | cons roomId roomIds ih =>
    rw [List.pairwise_cons] at hsorted
    rw [BookingsService.lockRooms, Txn.asking_bind]
    refine asking_lockRoom hl hfirst (fun r hr => habove r hr roomId (List.mem_cons_self ..)) fun db hr room _ hl' => ?_
    rw [Txn.asking_bind]
    refine ih hr.1 hl' (hfirst.hold fun _ he => by cases he) hsorted.2 (fun r hr' id hid => ?_) fun db' hr' rooms l' hl'' hhomed hnone => ?_
    · rcases hr' with hr' | hr'
      · exact habove r hr' id (List.mem_cons_of_mem _ hid)
      · rw [Set.mem_singleton_iff, Key.room.injEq] at hr'
        rw [hr']
        exact hsorted.1 id hid
    · refine h db' (hr.trans hr' Set.subset_union_left) (room :: rooms) l' ?_ hhomed hnone
      have hheld : l.held ∪ {Key.room roomId} ∪ {k | ∃ id ∈ roomIds, k = .room id} =
          l.held ∪ {k | ∃ id ∈ roomId :: roomIds, k = .room id} := by
        rw [Set.union_assoc]
        congr 1
        ext
        simp
      rw [hl'', ← hheld]

theorem nodup_eraseDups (ids : List ℕ) : ids.eraseDups.Nodup := by
  induction hn : ids.length using Nat.strong_induction_on generalizing ids with
  | _ n ih =>
    cases ids with
    | nil => exact List.nodup_nil
    | cons id ids =>
      rw [List.eraseDups_cons, List.nodup_cons]
      have hlt : (ids.filter fun x => !x == id).length < n := by
        have hle := List.length_filter_le (fun x => !x == id) ids
        rw [List.length_cons] at hn
        omega
      refine ⟨fun hmem => ?_, ih _ hlt _ rfl⟩
      rw [List.mem_eraseDups, List.mem_filter] at hmem
      simp at hmem

theorem pairwise_orderedUniqueRoomIds (roomIds : List ℕ) : (orderedUniqueRoomIds roomIds).Pairwise (· < ·) := by
  have hsorted : (orderedUniqueRoomIds roomIds).Pairwise (· ≤ ·) := List.pairwise_insertionSort _ _
  have hnodup : (orderedUniqueRoomIds roomIds).Nodup := (List.perm_insertionSort _ _).nodup_iff.2 (nodup_eraseDups roomIds)
  exact hsorted.imp₂ (fun _ _ hle hne => lt_of_le_of_ne hle hne) hnodup

theorem updateAdmin_keepsOrder (cfg : Config) (today : String) (actorUserId : ℕ) (publicId : String) (expectedVersion : ℕ)
    (body : BookingsService.UpdateBookingDto) :
    KeepsOrder (BookingsService.updateAdmin cfg today actorUserId publicId expectedVersion body) := by
  intro db₀ _
  rw [BookingsService.updateAdmin, Txn.asking_bind]
  refine asking_bookingSourceSnapshot fun db₁ hr₁ snapshot => ?_
  rw [Txn.asking_bind, Txn.asking_require]
  intro _
  rw [Txn.asking_bind]
  refine asking_lockRooms hr₁.1 homed_start noBooking_start (pairwise_orderedUniqueRoomIds _) (fun _ h => h.elim)
    fun db₂ _ rooms l₂ hl₂ hhomed₂ hfirst => ?_
  obtain rfl := hl₂
  have hrooms : ∀ id ∈ [snapshot.roomId, body.roomId.getD snapshot.roomId], Key.room id ∈ (∅ ∪ {k | ∃ id ∈ orderedUniqueRoomIds
      [snapshot.roomId, body.roomId.getD snapshot.roomId], k = .room id} : Set Key) :=
    fun id hid => .inr ⟨id, mem_orderedUniqueRoomIds.2 hid, rfl⟩
  have hsource := hrooms _ (List.mem_cons_self ..)
  have hdestination := hrooms _ (List.mem_cons_of_mem _ (List.mem_singleton_self _))
  rw [Txn.asking_bind]
  refine asking_lockBooking quiet_start hhomed₂ hfirst fun db₃ _ b hb hl₃ => ?_
  rw [Txn.asking_bind, Txn.asking_require]
  intro _
  rw [Txn.asking_bind, Txn.asking_require]
  intro _
  rw [Txn.asking_bind, lockRoomTime]
  refine asking_roomTime quiet_start hl₃ (Or.inl hsource) (fun t ht => (of_decide_eq_true ht).2) (fun _ _ => ?_)
    fun db₄ hr₄ source hs hsp hl₄ => ?_
  · rw [Txn.asking_bind, Txn.asking_require]
    exact fun h => by cases h
  obtain ⟨hsid, hsr⟩ := of_decide_eq_true hsp
  rw [Txn.asking_bind, Txn.asking_require]
  intro _
  rw [Txn.asking_bind, Txn.asking_require]
  intro _
  rw [Txn.asking_bind, Txn.asking_require]
  intro _
  rw [Txn.asking_bind, Txn.asking_require]
  intro _
  rw [Txn.asking_bind, Txn.asking_orThrow]
  intro destinationRoom _
  rw [Txn.asking_bind, Txn.asking_require]
  intro _
  rw [Txn.asking_bind]
  refine asking_lockContainingWindow quiet_start hl₄ (.inl (.inl hdestination)) fun db₅ hr₅ t _ _ hl₅ => ?_
  have hb₄ : b ∈ db₄.bookings := (booking_iff_of_rely hr₄ (.inr rfl)).2 hb
  have hplaced : Placed ⟨_ ∪ {Key.booking b.id}, id, none, db₄⟩ :=
    Placed.holdBooking (l := ⟨_, id, none, db₄⟩) (NoBooking.placed hfirst) hr₄.1 hb₄ hsource ⟨source, hs, hsid, hsr⟩
  have hplaced₅ := (hplaced.hold (k := .roomTime source.id) fun _ he => by cases he).rely hr₅
  rw [Txn.asking_bind]
  refine asking_assertNoConfirmedOverlap_when quiet_start hr₅.1
    ⟨hl₅, hplaced₅.hold (fun _ he => by cases he), .inl (.inl (.inl hdestination))⟩ fun l' hsub hinv => ?_
  exact Txn.asking_of_within (H := {Key.booking b.id}) ((within_saveBooking (Set.mem_singleton _)).bind fun _ =>
    within_insertChangeHistory.bind fun _ => Txn.Within.bind (.orThrow _ _) fun _ =>
      within_record.bind fun _ => within_insertOutbox.bind fun _ => .pure _) (fun k hk => hsub (.inl (.inl (.inr hk)))) hinv

/-- Claiming a key comes first, and takes the row that is locked next. -/
theorem asking_lockIdempotency {cfg : Config} {actorUserId : ℕ} {operation key fingerprint : String} {l : Mid}
    {Q : IdempotencyKey → Mid → Prop} (hq : Quiet l) (hl : l.held = ∅)
    (h : ∀ row l', Quiet l' → inventoryDiscipline.Inv l'.db →
      (∃ id, l'.held = {.idempotencyKey row.actorUserId row.operation row.idempotencyKey, .idempotencyRow id}) → Q row l') :
    (IdempotencyRepository.lock cfg actorUserId operation key fingerprint).asking inventoryDiscipline Db.HasRow Ask Q l := by
  have hhomed : ∀ db, Homed { l with db := db } := by
    intro db t _ ht
    rw [hl] at ht
    exact ht.elim
  rw [IdempotencyRepository.lock, Txn.asking_bind, IdempotencyRepository.claim, Txn.asking_writing]
  intro db _ x _
  refine ⟨fun y hy hrow => ?_, ?_⟩
  · -- the id it draws is nobody's yet
    rcases List.mem_pair.1 hy with rfl | rfl
    · exact .inr ⟨hhomed db, hl⟩
    · exact hrow.elim
  have hkey : ∀ r : IdempotencyKey, isKeyRow actorUserId operation key r = true →
      Key.idempotencyKey r.actorUserId r.operation r.idempotencyKey = .idempotencyKey actorUserId operation key := by
    intro r hr
    obtain ⟨hactor, hoperation, hid⟩ := of_decide_eq_true hr
    rw [hactor, hoperation, hid]
  rw [Txn.asking_bind]
  refine asking_findLocked (fun db' _ r _ hr => ?_) (fun _ _ => ?_) fun db' hr' row _ hrow => ?_
  · rw [hkey r hr]
    exact .inl (.inr List.mem_cons_self)
  · rw [Txn.asking_bind, Txn.asking_orThrow]
    exact fun _ ha => by cases ha
  rw [Txn.asking_bind, Txn.asking_orThrow]
  rintro _ ⟨⟩
  rw [Txn.asking_bind, Txn.asking_require]
  intro _
  refine h row _ (fun db => ?_) hr'.1 ?_
  · refine Eq.trans ?_ (hq db)
    show (if _ then l.pend db else _ : Db).stock = _
    split
    · rfl
    · rfl
  · refine ⟨x.id, ?_⟩
    show l.held ∪ {y | y ∈ [Key.idempotencyKey actorUserId operation key, .idempotencyRow x.id]} ∪ _ = _
    rw [hkey row hrow, hl]
    ext
    simp

theorem create_keepsOrder (cfg : Config) (today : String) (actorUserId : ℕ) (idempotencyKey : Option String)
    (input : BookingCreateInput) : KeepsOrder (BookingsService.create cfg today actorUserId idempotencyKey input) := by
  intro db₀ _
  rw [BookingsService.create, Txn.asking_bind, Txn.asking_orThrow]
  intro key _
  rw [BookingsService.createInTransaction, Txn.asking_bind]
  refine asking_lockIdempotency quiet_start rfl fun row l hq hinv hheld => ?_
  obtain ⟨id, hl⟩ := hheld
  split
  · trivial
  rw [Txn.asking_bind, Txn.asking_require]
  intro _
  have hhomed : Homed l := by
    intro t _ ht
    rw [hl] at ht
    rcases ht with ht | ht <;> cases ht
  have hfirst : NoBooking l := by
    intro id hid
    rw [hl] at hid
    rcases hid with hid | hid <;> cases hid
  rw [BookingsService.lockBookingTarget, Txn.asking_bind, Txn.asking_bind]
  refine asking_lockRoom hhomed hfirst (fun r hr => ?_) fun db₁ hr₁ room hroom hl₁ => ?_
  · rw [hl] at hr
    rcases hr with hr | hr <;> cases hr
  rw [Txn.asking_bind, Txn.asking_require]
  intro _
  rw [Txn.asking_bind]
  refine asking_lockContainingWindow (by exact hq) hl₁ (.inr (congrArg Key.room hroom)) fun db₂ hr₂ t _ _ _ => ?_
  rw [Txn.asking_pure]
  refine Txn.asking_of_within (H := {.idempotencyKey row.actorUserId row.operation row.idempotencyKey}) ?_ ?_ hr₂.1
  · exact Txn.Within.bind (.require _ _) fun _ => Txn.Within.bind (within_insertBooking.bind fun _ =>
      within_insertStatusHistory.bind fun _ => .pure _) fun _ => within_record.bind fun _ => within_findOneOrFail.bind fun _ =>
        (within_complete (Set.mem_singleton _)).bind fun _ => .pure _
  · rintro k rfl
    refine .inl (.inl ?_)
    rw [hl]
    exact .inl rfl

/-! #### Room-time administration -/

section RoomTimes

variable {l : Mid}

theorem asking_findLockedRoomTime {roomId roomTimeId : ℕ} {Q : RoomTime → Mid → Prop} (hq : Quiet l) (hl : Homed l)
    (hroom : .room roomId ∈ l.held)
    (h : ∀ db, inventoryDiscipline.Rely l.held l.db db → ∀ t ∈ db.roomTimes, Homed { l with db := db, held := l.held ∪ {.roomTime t.id} } →
      Q t { l with db := db, held := l.held ∪ {.roomTime t.id} }) :
    (findLockedRoomTime roomId roomTimeId).asking inventoryDiscipline Db.HasRow Ask Q l := by
  rw [findLockedRoomTime, Txn.asking_bind]
  refine asking_roomTime hq hl hroom (fun t ht => (of_decide_eq_true ht).2) (fun _ _ => ?_) fun db hr t ht _ hhomed => ?_
  · rw [Txn.asking_orThrow]
    exact fun _ ha => by cases ha
  · rw [Txn.asking_orThrow]
    rintro _ ⟨⟩
    exact h db hr t ht hhomed

theorem asking_assertNoActiveOverlap {roomId : ℕ} {candidate : RoomTimeState} {excluded : Option ℕ} {Q : Unit → Mid → Prop}
    (hq : Quiet l) (hinv : inventoryDiscipline.Inv l.db) (hl : Homed l) (hroom : .room roomId ∈ l.held)
    (h : ∀ l', l.held ⊆ l'.held → inventoryDiscipline.Inv l'.db → Q () l') :
    (assertNoActiveOverlap roomId candidate excluded).asking inventoryDiscipline Db.HasRow Ask Q l := by
  unfold assertNoActiveOverlap
  split
  · exact h l subset_rfl hinv
  rw [Txn.asking_bind]
  refine asking_roomTime hq hl hroom (fun t ht => (of_decide_eq_true ht).1) (fun db hr => ?_) fun db hr t _ _ _ => ?_
  · rw [Txn.asking_require]
    exact fun _ => h _ subset_rfl hr.1
  · rw [Txn.asking_require]
    exact fun _ => h _ Set.subset_union_left hr.1

theorem asking_loadUsage {roomTimeId : ℕ} {Q : RoomTimeUsage → Mid → Prop}
    (h : ∀ db view, inventoryDiscipline.Rely l.held l.db db → ∀ usage, Q usage { l with db := db, view := view }) :
    (loadUsage roomTimeId).asking inventoryDiscipline Db.HasRow Ask Q l := by
  have hids : [roomTimeId].eraseDups = [roomTimeId] := rfl
  rw [loadUsage, Txn.asking_bind, findByRoomTimeIds, hids, if_neg (by simp), Txn.asking_bind, Txn.asking_reading]
  intro db₁ hr₁
  rw [Txn.asking_bind, Txn.asking_reading]
  intro db₂ hr₂
  rw [Txn.asking_bind, Txn.asking_reading]
  intro db₃ hr₃
  rw [Txn.asking_pure, Txn.asking_orThrow]
  exact fun usage _ => h db₃ _ (hr₁.trans (hr₂.trans hr₃ subset_rfl) subset_rfl) usage

theorem createRoomTime_keepsOrder (roomId : ℕ) (body : CreateRoomTimeDto) : KeepsOrder (RoomTimesService.create roomId body) := by
  intro db₀ _
  rw [RoomTimesService.create, Txn.asking_bind, Txn.asking_ofExcept]
  intro _ _
  rw [Txn.asking_bind]
  refine asking_lockRoom homed_start noBooking_start (fun _ h => h.elim) fun db₁ hr₁ room _ hl₁ => ?_
  rw [Txn.asking_bind]
  refine asking_assertNoActiveOverlap quiet_start hr₁.1 hl₁ (.inr rfl) fun l' _ hinv => ?_
  exact Txn.asking_of_within (H := ∅) (within_insertRoomTime.bind fun _ => .pure _) (Set.empty_subset _) hinv

theorem updateRoomTime_keepsOrder (roomId roomTimeId : ℕ) (body : UpdateRoomTimeDto) :
    KeepsOrder (RoomTimesService.update roomId roomTimeId body) := by
  intro db₀ _
  rw [RoomTimesService.update, Txn.asking_bind, Txn.asking_require]
  intro _
  rw [Txn.asking_bind]
  refine asking_lockRoom homed_start noBooking_start (fun _ h => h.elim) fun db₁ _ room _ hl₁ => ?_
  rw [Txn.asking_bind]
  refine asking_findLockedRoomTime quiet_start hl₁ (.inr rfl) fun db₂ _ t _ hl₂ => ?_
  rw [Txn.asking_bind]
  refine asking_loadUsage fun db₃ view hr₃ usage => ?_
  rw [Txn.asking_bind, Txn.asking_ofExcept]
  intro _ _
  rw [Txn.asking_bind]
  refine asking_assertNoActiveOverlap quiet_start hr₃.1 (hl₂.rely hr₃) (.inl (.inr rfl)) fun l' hsub hinv => ?_
  exact Txn.asking_of_within (H := {Key.roomTime t.id}) ((within_saveRoomTime (Set.mem_singleton _)).bind fun _ => .pure _)
    (fun k hk => hsub (.inr hk)) hinv

theorem deleteRoomTime_keepsOrder (roomId roomTimeId : ℕ) : KeepsOrder (RoomTimesService.delete roomId roomTimeId) := by
  intro db₀ _
  rw [RoomTimesService.delete, Txn.asking_bind]
  refine asking_lockRoom homed_start noBooking_start (fun _ h => h.elim) fun db₁ _ room _ hl₁ => ?_
  rw [Txn.asking_bind]
  refine asking_findLockedRoomTime quiet_start hl₁ (.inr rfl) fun db₂ _ t _ _ => ?_
  rw [Txn.asking_bind]
  refine asking_loadUsage fun db₃ view hr₃ usage => ?_
  rw [Txn.asking_bind, Txn.asking_ofExcept]
  intro _ _
  exact Txn.asking_of_within (H := {Key.roomTime t.id}) (within_removeRoomTime (Set.mem_singleton _)) Set.subset_union_right hr₃.1

end RoomTimes

/-! ### Every interleaving -/

theorem KeepsOrder.answer {α : Type} {c : Tx α} (h : KeepsOrder c) (f : α → Answer) (db : Db) (hinv : inventoryDiscipline.Inv db) :
    (c >>= fun a => pure (f a) : Tx Answer).asking inventoryDiscipline Db.HasRow Ask (fun _ _ => True) ⟨∅, id, none, db⟩ := by
  rw [Txn.asking_bind]
  exact h db hinv

theorem run_keepsOrder (cfg : Config) (call : Call) (db : Db) (hinv : inventoryDiscipline.Inv db) :
    (call.run cfg).asking inventoryDiscipline Db.HasRow Ask (fun _ _ => True) ⟨∅, id, none, db⟩ := by
  cases call with
  | create today actor key input => exact (create_keepsOrder cfg today actor key input).answer _ db hinv
  | approve actor publicId => exact (approve_keepsOrder cfg actor publicId).answer _ db hinv
  | reject actor publicId reason => exact (reject_keepsOrder cfg actor publicId reason).answer _ db hinv
  | updateAdmin today actor publicId version body =>
    exact (updateAdmin_keepsOrder cfg today actor publicId version body).answer _ db hinv
  | cancelOwn actor publicId => exact (cancelOwn_keepsOrder cfg actor publicId).answer _ db hinv
  | cancelAdmin actor publicId reason => exact (cancelAdmin_keepsOrder cfg actor publicId reason).answer _ db hinv
  | createRoomTime roomId body => exact (createRoomTime_keepsOrder roomId body).answer _ db hinv
  | updateRoomTime roomId roomTimeId body => exact (updateRoomTime_keepsOrder roomId roomTimeId body).answer _ db hinv
  | deleteRoomTime roomId roomTimeId => exact (deleteRoomTime_keepsOrder roomId roomTimeId).answer _ db hinv

/-- Any number of calls, interleaved, with statements that lock their rows one by one. -/
def bookingLockSystem (cfg : Config) : Machine (Sys Db Key Supply AppError Answer Call) (LockAct Key Supply Call) :=
  lockMachine (Call.run cfg) fun db => ∃ roomTypes rooms, db = Db.opening roomTypes rooms

/-- Call `p` waits for a row that call `q` has locked. -/
def WaitsFor (s : Sys Db Key Supply AppError Answer Call) (p q : ℕ) : Prop := s.WaitsFor Db.HasRow p q

/-- **The booking transactions do not deadlock**: in every state that any calls can reach, however they interleave, no call
waits, directly or through others, for itself. -/
theorem bookings_deadlock_free (cfg : Config) (s : Sys Db Key Supply AppError Answer Call)
    (h : (bookingLockSystem cfg).Reachable (fun _ _ => True) s) (p : ℕ) : ¬ Relation.TransGen (WaitsFor s) p p := by
  refine deadlock_free ?_ (run_follows cfg) (run_keepsOrder cfg)
    (fun l l' k k' hinv hdb hdisjoint hk _ hask hask' => lockRank_lt hinv hdb hdisjoint hk hask hask') h p
  rintro db ⟨roomTypes, rooms, rfl⟩
  exact inventory_opening roomTypes rooms

/-! #### Three administrators -/

/-- Two guests ask for the same nights. One administrator cancels the first booking and stops at its lock, one approves it and
stops at the lock of the room, and one approves the other booking. -/
def threeAdministrators : List (LockAct Key Supply Call) :=
  let steps (p n : ℕ) : List (Act Supply Call) := List.replicate n (.step p (supplyOf p))
  (.start 0 (.createRoomTime 1 ⟨"2026-10-01", "2026-12-01", none⟩) :: steps 0 4 ++
    .start 1 (.create "2026-09-01" 41 (some "key-of-guest-41") ⟨1, "2026-10-05", "2026-10-08"⟩) :: steps 1 9 ++
    .start 2 (.create "2026-09-01" 42 (some "key-of-guest-42") ⟨1, "2026-10-05", "2026-10-08"⟩) :: steps 2 9 ++
    .start 3 (.approve 9 (supplyOf 1).publicId) :: .start 4 (.approve 9 (supplyOf 2).publicId) ::
    .start 5 (.cancelAdmin 9 (supplyOf 1).publicId "closed") :: steps 5 1 ++ steps 3 2 ++ steps 4 1).map .act

/-- Where they end. -/
def threeAdministratorsEnd : Option (Sys Db Key Supply AppError Answer Call) :=
  (bookingLockSystem quietConfig).run oneRoom threeAdministrators

theorem threeAdministratorsEnd_isSome : threeAdministratorsEnd.isSome = true := by decide

theorem threeAdministrators_reachable :
    (bookingLockSystem quietConfig).Reachable (fun _ _ => True) (threeAdministratorsEnd.get threeAdministratorsEnd_isSome) :=
  .of_run (.init ⟨_, ⟨_, _, rfl⟩, rfl⟩) (fun _ _ _ => trivial) (Option.some_get threeAdministratorsEnd_isSome).symm

/-- The last waits for the second, who waits for the first. -/
theorem bookings_deadlock_free_threeAdministrators :
    let s := threeAdministratorsEnd.get threeAdministratorsEnd_isSome
    WaitsFor s 4 3 ∧ WaitsFor s 3 5 ∧ ¬ Relation.TransGen (WaitsFor s) 4 4 :=
  ⟨⟨.room 1, Sys.waitsOn_of_nextKeys (by decide) (by decide) (by decide)⟩,
    ⟨.booking 2, Sys.waitsOn_of_nextKeys (by decide) (by decide) (by decide)⟩,
    bookings_deadlock_free quietConfig _ threeAdministrators_reachable 4⟩

end HotelBackend.Bookings
