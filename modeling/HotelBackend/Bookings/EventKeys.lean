import HotelBackend.Theory.Writes
import HotelBackend.Common.Strings
import HotelBackend.Bookings.Service

/-!
# The keys of the events

An event about a booking has the key `<eventType>:<publicId>:<version>`, which is unique in
`outbox_events`. The key tells all three (`outboxIdempotencyKey_inj`), and in every state that any
calls can reach an event names a booking that is there (`eventsNamed_of_reachable`): a booking with a
new public id has all its keys free.
-/

namespace HotelBackend.Bookings

open HotelBackend.Common
open HotelBackend.Theory
open HotelBackend.Theory.Transactions
open HotelBackend.Rooms
open HotelBackend.Outbox

/-! ### Keys -/

/-- The types of the events about a booking. -/
def bookingEventTypes : List String :=
  bookingLifecycleEventType ::
    [BookingOutboxEventType.confirmed, .rejected, .changed, .cancelledByAdmin].map BookingOutboxEventType.text

theorem text_mem_bookingEventTypes (eventType : BookingOutboxEventType) : eventType.text ∈ bookingEventTypes := by
  cases eventType <;> decide

theorem lifecycle_mem_bookingEventTypes : bookingLifecycleEventType ∈ bookingEventTypes := List.mem_cons_self

theorem not_mem_of_bookingEventTypes : ∀ eventType ∈ bookingEventTypes, ':' ∉ eventType.toList := by decide

/-- A key tells the type, the booking and the version. -/
theorem outboxIdempotencyKey_inj {eventType eventType' : String} {b b' : Booking} (he : eventType ∈ bookingEventTypes)
    (he' : eventType' ∈ bookingEventTypes) (h : outboxIdempotencyKey eventType b = outboxIdempotencyKey eventType' b') :
    eventType = eventType' ∧ b.publicId = b'.publicId ∧ b.version = b'.version := by
  have hchars : ∀ (e : String) (b : Booking), (outboxIdempotencyKey e b).toList =
      (e.toList ++ ':' :: b.publicId.toList) ++ ':' :: (toString b.version).toList := by
    intro e b
    simp only [outboxIdempotencyKey, String.toList_append, List.append_assoc]
    rfl
  have hlist := (hchars eventType b).symm.trans ((congrArg String.toList h).trans (hchars eventType' b'))
  obtain ⟨hfront, hversion⟩ := append_mark_inj (not_mem_toString _ (by decide)) (not_mem_toString _ (by decide)) hlist
  obtain ⟨htype, hid⟩ := append_first_mark_inj (not_mem_of_bookingEventTypes _ he) (not_mem_of_bookingEventTypes _ he') hfront
  exact ⟨String.toList_injective htype, String.toList_injective hid, toString_injective (String.toList_injective hversion)⟩

/-- The key of an event about the booking with this public id. -/
def NamedBy (publicId key : String) : Prop :=
  ∃ eventType ∈ bookingEventTypes, ∃ b : Booking, b.publicId = publicId ∧ key = outboxIdempotencyKey eventType b

/-- Every event names a booking. -/
def EventsNamed (db : Db) : Prop := ∀ e ∈ db.outboxEvents, ∃ b ∈ db.bookings, NamedBy b.publicId e.idempotencyKey

/-- A key of a booking whose public id is new is free. -/
theorem EventsNamed.key_free {db : Db} (h : EventsNamed db) {b : Booking} (hnew : ∀ y ∈ db.bookings, y.publicId ≠ b.publicId)
    {eventType : String} (he : eventType ∈ bookingEventTypes) :
    ∀ e ∈ db.outboxEvents, e.idempotencyKey ≠ outboxIdempotencyKey eventType b := by
  intro e hmem heq
  obtain ⟨y, hy, eventType', he', b', hid, hkey⟩ := h e hmem
  obtain ⟨-, hsame, -⟩ := outboxIdempotencyKey_inj he' he (hkey.symm.trans heq)
  exact hnew y hy (hid.symm.trans hsame)

/-! ### What a call writes -/

/-- Bookings keep their public ids, and a new event has a key in `P`. -/
def Records (P : String → Prop) (a b : Db) : Prop :=
  (∀ x ∈ a.bookings, ∃ y ∈ b.bookings, y.publicId = x.publicId) ∧
    ∀ e ∈ b.outboxEvents, e ∈ a.outboxEvents ∨ P e.idempotencyKey

section Records

variable {P : String → Prop} {a b c : Db}

theorem Records.refl (P : String → Prop) (a : Db) : Records P a a := ⟨fun x hx => ⟨x, hx, rfl⟩, fun _ he => .inl he⟩

theorem Records.trans (h : Records P a b) (h' : Records P b c) : Records P a c := by
  refine ⟨fun x hx => ?_, fun e he => ?_⟩
  · obtain ⟨y, hy, hyx⟩ := h.1 x hx
    obtain ⟨z, hz, hzy⟩ := h'.1 y hy
    exact ⟨z, hz, hzy.trans hyx⟩
  · rcases h'.2 e he with he | he
    · exact h.2 e he
    · exact .inr he

theorem Records.mono {P' : String → Prop} (h : Records P a b) (hP : ∀ key, P key → P' key) : Records P' a b :=
  ⟨h.1, fun e he => (h.2 e he).imp_right (hP _)⟩

/-- A write of other tables. -/
theorem records_of_eq (hbookings : b.bookings = a.bookings) (hevents : b.outboxEvents = a.outboxEvents) : Records P a b := by
  refine ⟨fun x hx => ⟨x, hbookings ▸ hx, rfl⟩, fun e he => .inl ?_⟩
  rwa [← hevents]

theorem writes_insertStatusHistory {bookingId : ℕ} {fromStatus : Option BookingStatus} {toStatus : BookingStatus}
    {actorType : BookingActorType} {actorUserId : Option ℕ} {reason : Option String} :
    (insertStatusHistory bookingId fromStatus toStatus actorType actorUserId reason).Writes (Records P) :=
  .writing fun _ _ => records_of_eq rfl rfl

theorem writes_insertChangeHistory {row : Supply → BookingChangeHistory} : (insertChangeHistory row).Writes (Records P) :=
  .writing fun _ _ => records_of_eq rfl rfl

theorem writes_insertOutboxEvent {eventType key : String} {payload : Json} (h : P key) :
    (insertOutboxEvent eventType payload key).Writes (Records P) :=
  .writing fun x db => by
    refine ⟨fun y hy => ⟨y, hy, rfl⟩, fun e he => ?_⟩
    rcases List.mem_append.1 he with he | he
    · exact .inl he
    · obtain rfl := List.mem_singleton.1 he
      exact .inr h

theorem writes_insertOutbox {publicId : String} {booking : Booking} {eventType : BookingOutboxEventType} {room : OutboxRoom}
    {reason : Option String} {change : Option BookingChangeOutboxDetail} (h : booking.publicId = publicId) :
    (insertOutbox booking eventType room reason change).Writes (Records (NamedBy publicId)) :=
  writes_insertOutboxEvent ⟨eventType.text, text_mem_bookingEventTypes eventType, booking, h, rfl⟩

theorem writes_record {publicId : String} {enabled : Bool} {change : BookingLifecycleChange} (h : change.booking.publicId = publicId) :
    (record enabled change).Writes (Records (NamedBy publicId)) := by
  unfold record
  split
  · exact (writes_insertOutboxEvent ⟨_, lifecycle_mem_bookingEventTypes, change.booking, h, rfl⟩).bind fun _ => .pure _
  · exact .pure _

theorem writes_complete {row : IdempotencyKey} {responseStatus : ℕ} {responseBody : Json} :
    (IdempotencyRepository.complete row responseStatus responseBody).Writes (Records P) :=
  .writing fun _ _ => records_of_eq rfl rfl

theorem writes_findOneOrFail {ρ : Type} {table : Db → List ρ} {p : ρ → Bool} {R : Db → Db → Prop} : (findOneOrFail table p).Writes R :=
  Txn.Writes.bind (.reading _) fun _ => .orThrow _ _

theorem writes_findLocked {ρ : Type} {table : Db → List ρ} {key : ρ → Key} {p : ρ → Bool} {R : Db → Db → Prop} :
    (findLocked table key p).Writes R :=
  .locking _ _

theorem writes_findRoomOfWindow {roomTimeId : ℕ} {R : Db → Db → Prop} : (findRoomOfWindow roomTimeId).Writes R :=
  writes_findOneOrFail.bind fun _ => writes_findOneOrFail

theorem writes_lockRoom {roomId : ℕ} {R : Db → Db → Prop} : (lockRoom roomId).Writes R :=
  writes_findLocked.bind fun _ => .orThrow _ _

theorem writes_lockRooms {roomIds : List ℕ} {R : Db → Db → Prop} : (BookingsService.lockRooms roomIds).Writes R := by
  induction roomIds with
  | nil => exact .pure _
  | cons roomId roomIds ih => exact writes_lockRoom.bind fun _ => ih.bind fun _ => .pure _

theorem writes_bookingSourceSnapshot {publicId : String} {R : Db → Db → Prop} : (bookingSourceSnapshot publicId).Writes R :=
  Txn.Writes.bind (.peeking _) fun _ => .orThrow _ _

theorem writes_lockContainingWindow {roomId : ℕ} {checkIn checkOut : String} {R : Db → Db → Prop} :
    (lockContainingWindow roomId checkIn checkOut).Writes R :=
  Txn.Writes.bind (.locking _ _) fun _ => .orThrow _ _

theorem writes_assertNoConfirmedOverlap {roomId bookingId : ℕ} {checkIn checkOut : String} {R : Db → Db → Prop} :
    (assertNoConfirmedOverlap roomId bookingId checkIn checkOut).Writes R :=
  Txn.Writes.bind (.locking _ _) fun _ => .require _ _

theorem writes_findLockedRoomTime {roomId roomTimeId : ℕ} {R : Db → Db → Prop} : (findLockedRoomTime roomId roomTimeId).Writes R :=
  writes_findLocked.bind fun _ => .orThrow _ _

theorem writes_assertNoActiveOverlap {roomId : ℕ} {candidate : RoomTimeState} {excluded : Option ℕ} {R : Db → Db → Prop} :
    (assertNoActiveOverlap roomId candidate excluded).Writes R := by
  unfold assertNoActiveOverlap
  split
  · exact .pure _
  · exact writes_findLocked.bind fun _ => .require _ _

theorem writes_loadUsage {roomTimeId : ℕ} {R : Db → Db → Prop} : (loadUsage roomTimeId).Writes R := by
  refine Txn.Writes.bind ?_ fun _ => .orThrow _ _
  unfold findByRoomTimeIds
  dsimp only
  split
  · exact .pure _
  · exact Txn.Writes.bind (.reading _) fun _ => Txn.Writes.bind (.reading _) fun _ => Txn.Writes.bind (.reading _) fun _ => .pure _

/-- A saved booking keeps its public id. -/
theorem writes_saveBooking {b : Booking} {α : Type} {f : Booking → Tx α}
    (h : ∀ saved : Booking, saved.publicId = b.publicId → (f saved).Writes (Records P)) : (saveBooking b >>= f).Writes (Records P) := by
  rw [saveBooking]
  refine fun _ => fun x => ⟨fun db => ⟨fun y hy => ?_, fun e he => .inl he⟩, h _ rfl⟩
  by_cases hid : y.id = b.id
  · exact ⟨_, Table.mem_update_of_pos hy (decide_eq_true hid), rfl⟩
  · exact ⟨y, Table.mem_update_of_neg hy (decide_eq_false hid), rfl⟩

theorem writes_appendTransitionAndOutbox {publicId : String} {cfg : Config} {booking : Booking} {actorUserId : ℕ} {reason : Option String}
    {eventType : BookingOutboxEventType} {room : Room} (h : booking.publicId = publicId) :
    (appendTransitionAndOutbox cfg booking actorUserId reason eventType room).Writes (Records (NamedBy publicId)) :=
  writes_insertStatusHistory.bind fun _ => (writes_record h).bind fun _ => (writes_insertOutbox h).bind fun _ => .pure _

theorem writes_recordLifecycleByRoomTime {publicId : String} {cfg : Config} {booking : Booking} {fromStatus : BookingStatus}
    (h : booking.publicId = publicId) : (recordLifecycleByRoomTime cfg booking fromStatus).Writes (Records (NamedBy publicId)) := by
  unfold recordLifecycleByRoomTime
  split
  · exact writes_findRoomOfWindow.bind fun _ => writes_record h
  · exact .pure _

end Records

/-! ### The discipline -/

/-- What the calls agree on: events name bookings, and no public id is lost. -/
def registerDiscipline : Discipline Db Key where
  Inv := EventsNamed
  Keeps _ a b := ∀ x ∈ a.bookings, ∃ y ∈ b.bookings, y.publicId = x.publicId
  refl _ db := fun x hx => ⟨x, hx, rfl⟩
  trans _ a b c hab hbc := fun x hx => by
    obtain ⟨y, hy, hyx⟩ := hab x hx
    obtain ⟨z, hz, hzy⟩ := hbc y hy
    exact ⟨z, hz, hzy.trans hyx⟩

section Commits

variable {α : Type} {l : Local Db Key} {publicId : String}

/-- A call that has noted events of a booking that is there may commit. -/
theorem register_commit (hwritten : ∀ db, Records (NamedBy publicId) db (l.pend db))
    (hthere : ∀ db, registerDiscipline.Rely l.held l.db db → ∃ b ∈ (l.pend db).bookings, b.publicId = publicId) :
    registerDiscipline.Commit () l := by
  refine fun db hr => ⟨fun e he => ?_, fun _ _ => (hwritten db).1⟩
  rcases (hwritten db).2 e he with hold | hnew
  · obtain ⟨b, hb, hkey⟩ := hr.1 e hold
    obtain ⟨y, hy, hyb⟩ := (hwritten db).1 b hb
    exact ⟨y, hy, hyb.symm ▸ hkey⟩
  · obtain ⟨b, hb, rfl⟩ := hthere db hr
    exact ⟨b, hb, hnew⟩

/-- A call that has noted no event may commit. -/
theorem register_commit_quiet (hwritten : ∀ db, Records (fun _ => False) db (l.pend db)) : registerDiscipline.Commit () l := by
  refine fun db hr => ⟨fun e he => ?_, fun _ _ => (hwritten db).1⟩
  rcases (hwritten db).2 e he with hold | hnew
  · obtain ⟨b, hb, hkey⟩ := hr.1 e hold
    obtain ⟨y, hy, hyb⟩ := (hwritten db).1 b hb
    exact ⟨y, hy, hyb.symm ▸ hkey⟩
  · exact hnew.elim

/-- A call, from any register, comes to where it may commit. -/
def Registers (c : Tx α) : Prop :=
  ∀ db, registerDiscipline.Inv db → c.wp registerDiscipline (fun _ => registerDiscipline.Commit ()) ⟨∅, id, none, db⟩

/-- A call that notes no event. -/
theorem registers_of_writes {c : Tx α} (hc : c.Writes (Records fun _ => False)) : Registers c := fun _ hinv =>
  Txn.wp_of_writes (Records.refl _) (fun _ _ _ => Records.trans) hc hinv fun _ _ _ _ hwritten => register_commit_quiet hwritten

/-- What comes before the lock of a booking, writes nothing. -/
theorem wp_before {c : Tx α} {Q : α → Local Db Key → Prop} (hc : c.Writes fun a b => b = a) (hinv : registerDiscipline.Inv l.db)
    (hpend : l.pend = id) (h : ∀ a l', l'.pend = id → registerDiscipline.Inv l'.db → Q a l') : c.wp registerDiscipline Q l := by
  refine Txn.wp_of_writes (R := fun a b => b = a) (fun _ => rfl) (fun _ _ _ hab hbc => hbc.trans hab) hc hinv fun a l' hr _ hsame => h a l' ?_ hr.1
  funext db
  rw [hsame db, hpend]

/-- Once its booking is locked, a call may note events of it. -/
theorem wp_after_booking {c : Tx α} {db : Db} {b : Booking} (hpend : l.pend = id) (hinv : registerDiscipline.Inv db)
    (hb : b ∈ db.bookings) (hc : c.Writes (Records (NamedBy b.publicId))) :
    c.wp registerDiscipline (fun _ => registerDiscipline.Commit ()) { l with db := db, held := l.held ∪ {.booking b.id} } := by
  refine Txn.wp_of_writes (Records.refl _) (fun _ _ _ => Records.trans) hc hinv fun _ l' hr hheld hwritten => ?_
  dsimp only at hwritten
  rw [hpend] at hwritten
  refine register_commit hwritten fun db' hr' => ?_
  have hkept := (hr.trans hr' hheld).2 (.booking b.id) (.inr rfl)
  obtain ⟨y, hy, hyb⟩ := hkept b hb
  obtain ⟨z, hz, hzy⟩ := (hwritten db').1 y hy
  exact ⟨z, hz, hzy.trans hyb⟩

/-- A lock of a booking, and the rest of the call. -/
theorem wp_findLockedBooking {p : Booking → Bool} {e : AppError} {c : Booking → Tx α} (hpend : l.pend = id)
    (hc : ∀ b, (c b).Writes (Records (NamedBy b.publicId))) :
    (findLocked (·.bookings) (fun b => .booking b.id) p >>= fun o => Txn.orThrow o e >>= c).wp registerDiscipline
      (fun _ => registerDiscipline.Commit ()) l := by
  rw [Txn.wp_bind]
  refine Txn.wp_locking_find (fun _ _ _ => ?_) fun db hr b hb _ => ?_
  · rw [Txn.wp_bind, Txn.wp_orThrow]
    exact fun _ ha => nomatch ha
  · rw [Txn.wp_bind, Txn.wp_orThrow]
    rintro _ ⟨⟩
    rw [hpend] at hb
    exact wp_after_booking hpend hr.1 hb (hc b)

theorem wp_lockBooking_then {c : Booking → Tx α} {searched : String} (hpend : l.pend = id) (hc : ∀ b, (c b).Writes (Records (NamedBy b.publicId))) :
    (lockBooking searched >>= c).wp registerDiscipline (fun _ => registerDiscipline.Commit ()) l := by
  have hassoc : (lockBooking searched >>= c) = (findLocked (·.bookings) (fun b => .booking b.id) (·.publicId = searched) >>= fun o =>
      Txn.orThrow o .bookingNotFound >>= c) := rfl
  rw [hassoc]
  exact wp_findLockedBooking hpend hc

/-- A created booking, and the rest of the call. -/
theorem wp_createPendingBooking_then {rest : Booking → Tx α} {actorUserId priceAmount : ℕ} {t : RoomTime} {input : BookingCreateInput}
    {currency : String} (hquiet : ∀ db, Records (fun _ => False) db (l.pend db))
    (hrest : ∀ b, (rest b).Writes (Records (NamedBy b.publicId))) :
    (BookingsService.createPendingBooking actorUserId t input priceAmount currency >>= rest).wp registerDiscipline
      (fun _ => registerDiscipline.Commit ()) l := by
  rw [Txn.wp_bind, BookingsService.createPendingBooking, Txn.wp_bind, insertBooking, Txn.wp_bind, Txn.wp_writing]
  intro db₁ _ x _
  rw [Txn.wp_pure, Txn.wp_bind, insertStatusHistory, Txn.wp_writing]
  intro db₂ hr₂ y _
  rw [Txn.wp_pure]
  refine Txn.wp_of_writes (Records.refl _) (fun _ _ _ => Records.trans) (hrest _) hr₂.1 fun _ l' _ _ hwritten => ?_
  -- the booking is in the store that the call leaves
  have hthere : ∀ db, ∃ b ∈ (l'.pend db).bookings, b.publicId = x.publicId := fun db =>
    (hwritten db).1 (BookingsService.newBooking actorUserId t input priceAmount currency x)
      (List.mem_append_right _ (List.mem_singleton_self _))
  refine register_commit (fun db => ((hquiet db).mono fun _ h => h.elim).trans (Records.trans ?_ (hwritten db))) fun db _ => hthere db
  exact ⟨fun z hz => ⟨z, List.mem_append_left _ hz, rfl⟩, fun _ he => .inl he⟩

end Commits

/-! ### The calls -/

section Calls

variable (cfg : Config)

theorem cancelOwn_registers (actorUserId : ℕ) (publicId : String) : Registers (BookingsService.cancelOwn cfg actorUserId publicId) := by
  refine fun _ _ => wp_findLockedBooking rfl fun b => ?_
  split
  · exact .pure _
  · exact Txn.Writes.bind (.require _ _) fun _ => writes_saveBooking fun saved hsaved =>
      writes_insertStatusHistory.bind fun _ => (writes_recordLifecycleByRoomTime hsaved).bind fun _ => .pure _

theorem reject_registers (actorUserId : ℕ) (publicId reason : String) : Registers (BookingsService.reject cfg actorUserId publicId reason) := by
  refine fun _ _ => wp_lockBooking_then rfl fun b => ?_
  split
  · exact Txn.Writes.bind (.require _ _) fun _ => .pure _
  · exact Txn.Writes.bind (.require _ _) fun _ => writes_saveBooking fun saved hsaved =>
      writes_findRoomOfWindow.bind fun _ => (writes_appendTransitionAndOutbox hsaved).bind fun _ => .pure _

theorem cancelAdmin_registers (actorUserId : ℕ) (publicId reason : String) :
    Registers (BookingsService.cancelAdmin cfg actorUserId publicId reason) := by
  refine fun _ _ => wp_lockBooking_then rfl fun b => ?_
  split
  · exact Txn.Writes.bind (.reading _) fun _ => Txn.Writes.bind (.require _ _) fun _ => .pure _
  · exact Txn.Writes.bind (.require _ _) fun _ => writes_saveBooking fun saved hsaved => writes_findRoomOfWindow.bind fun _ =>
      writes_insertStatusHistory.bind fun _ => (writes_record hsaved).bind fun _ => (writes_insertOutbox hsaved).bind fun _ => .pure _

theorem approve_registers (actorUserId : ℕ) (publicId : String) : Registers (BookingsService.approve cfg actorUserId publicId) := by
  intro db₀ hinv
  rw [BookingsService.approve, Txn.wp_bind]
  refine wp_before writes_bookingSourceSnapshot hinv rfl fun snapshot l₁ hpend₁ hinv₁ => ?_
  rw [Txn.wp_bind]
  refine wp_before writes_lockRoom hinv₁ hpend₁ fun room l₂ hpend₂ hinv₂ => ?_
  refine wp_lockBooking_then hpend₂ fun b => ?_
  split
  · exact .pure _
  · exact Txn.Writes.bind (.require _ _) fun _ => Txn.Writes.bind (.require _ _) fun _ => writes_findLocked.bind fun _ =>
      Txn.Writes.bind (.orThrow _ _) fun _ => Txn.Writes.bind (.require _ _) fun _ => writes_assertNoConfirmedOverlap.bind fun _ =>
        writes_saveBooking fun saved hsaved => (writes_appendTransitionAndOutbox hsaved).bind fun _ => .pure _

theorem updateAdmin_registers (today : String) (actorUserId : ℕ) (publicId : String) (expectedVersion : ℕ)
    (body : BookingsService.UpdateBookingDto) :
    Registers (BookingsService.updateAdmin cfg today actorUserId publicId expectedVersion body) := by
  intro db₀ hinv
  rw [BookingsService.updateAdmin, Txn.wp_bind]
  refine wp_before writes_bookingSourceSnapshot hinv rfl fun snapshot l₁ hpend₁ hinv₁ => ?_
  rw [Txn.wp_bind, Txn.wp_require]
  intro _
  rw [Txn.wp_bind]
  refine wp_before writes_lockRooms hinv₁ hpend₁ fun rooms l₂ hpend₂ hinv₂ => ?_
  refine wp_lockBooking_then hpend₂ fun b => ?_
  exact Txn.Writes.bind (.require _ _) fun _ => Txn.Writes.bind (.require _ _) fun _ => writes_findLocked.bind fun _ =>
    Txn.Writes.bind (.require _ _) fun _ => Txn.Writes.bind (.require _ _) fun _ => Txn.Writes.bind (.require _ _) fun _ =>
    Txn.Writes.bind (.require _ _) fun _ => Txn.Writes.bind (.orThrow _ _) fun _ => Txn.Writes.bind (.require _ _) fun _ =>
    writes_lockContainingWindow.bind fun _ => Txn.Writes.bind (.when _ writes_assertNoConfirmedOverlap) fun _ =>
    writes_saveBooking fun saved hsaved => writes_insertChangeHistory.bind fun _ => Txn.Writes.bind (.orThrow _ _) fun _ =>
      (writes_record hsaved).bind fun _ => (writes_insertOutbox hsaved).bind fun _ => .pure _

theorem create_registers (today : String) (actorUserId : ℕ) (idempotencyKey : Option String) (input : BookingCreateInput) :
    Registers (BookingsService.create cfg today actorUserId idempotencyKey input) := by
  intro db₀ hinv
  rw [BookingsService.create, Txn.wp_bind, Txn.wp_orThrow]
  intro key _
  have hlock : (IdempotencyRepository.lock cfg actorUserId bookingCreateOperation key (bookingCreateFingerprint cfg actorUserId input)).Writes
      (Records fun _ => False) := by
    refine Txn.Writes.bind (.writing fun x db => ?_) fun _ => writes_findLocked.bind fun _ =>
      Txn.Writes.bind (.orThrow _ _) fun _ => Txn.Writes.bind (.require _ _) fun _ => .pure _
    split
    · exact .refl _ _
    · exact records_of_eq rfl rfl
  rw [BookingsService.createInTransaction, Txn.wp_bind]
  refine Txn.wp_of_writes (Records.refl _) (fun _ _ _ => Records.trans) hlock hinv fun row l₁ hr₁ _ hwritten₁ => ?_
  split
  · exact register_commit_quiet hwritten₁
  rw [Txn.wp_bind, Txn.wp_require]
  intro _
  have htarget : (BookingsService.lockBookingTarget input).Writes (Records fun _ => False) :=
    writes_lockRoom.bind fun _ => Txn.Writes.bind (.require _ _) fun _ => writes_lockContainingWindow.bind fun _ => .pure _
  rw [Txn.wp_bind]
  refine Txn.wp_of_writes (Records.refl _) (fun _ _ _ => Records.trans) htarget hr₁.1 fun target l₂ hr₂ _ hwritten₂ => ?_
  rw [Txn.wp_bind, Txn.wp_require]
  intro _
  refine wp_createPendingBooking_then (fun db => (hwritten₁ db).trans (hwritten₂ db)) fun b => ?_
  have hrecord : ∀ change : BookingLifecycleChange, change.booking.publicId = b.publicId →
      (record cfg.lifecycleEnabled change).Writes (Records (NamedBy b.publicId)) := fun change h => writes_record h
  exact (hrecord _ rfl).bind fun _ => writes_findOneOrFail.bind fun _ => writes_complete.bind fun _ => .pure _

theorem createRoomTime_registers (roomId : ℕ) (body : CreateRoomTimeDto) : Registers (RoomTimesService.create roomId body) :=
  registers_of_writes (Txn.Writes.bind (.ofExcept _) fun _ => writes_lockRoom.bind fun _ => writes_assertNoActiveOverlap.bind fun _ =>
    Txn.Writes.bind (Txn.Writes.bind (.writing fun _ _ => records_of_eq rfl rfl) fun _ => .pure _) fun _ => .pure _)

theorem updateRoomTime_registers (roomId roomTimeId : ℕ) (body : UpdateRoomTimeDto) :
    Registers (RoomTimesService.update roomId roomTimeId body) :=
  registers_of_writes (Txn.Writes.bind (.require _ _) fun _ => writes_lockRoom.bind fun _ => writes_findLockedRoomTime.bind fun _ =>
    writes_loadUsage.bind fun _ => Txn.Writes.bind (.ofExcept _) fun _ => writes_assertNoActiveOverlap.bind fun _ =>
      Txn.Writes.bind (Txn.Writes.bind (.reading _) fun _ => Txn.Writes.bind (.writing fun _ _ => records_of_eq rfl rfl) fun _ => .pure _)
        fun _ => .pure _)

theorem deleteRoomTime_registers (roomId roomTimeId : ℕ) : Registers (RoomTimesService.delete roomId roomTimeId) :=
  registers_of_writes (writes_lockRoom.bind fun _ => writes_findLockedRoomTime.bind fun _ => writes_loadUsage.bind fun _ =>
    Txn.Writes.bind (.ofExcept _) fun _ => Txn.Writes.bind (.locking _ _) fun _ => Txn.Writes.bind (.require _ _) fun _ =>
      Txn.Writes.bind (.writing fun _ _ => records_of_eq rfl rfl) fun _ => .pure _)

end Calls

/-! ### Every interleaving -/

theorem Registers.answer {α : Type} {c : Tx α} (h : Registers c) (f : α → Answer) (db : Db) (hinv : registerDiscipline.Inv db) :
    (c >>= fun a => pure (f a) : Tx Answer).wp registerDiscipline registerDiscipline.Commit ⟨∅, id, none, db⟩ := by
  rw [Txn.wp_bind]
  exact h db hinv

theorem run_registers (cfg : Config) (call : Call) (db : Db) (hinv : registerDiscipline.Inv db) :
    (call.run cfg).wp registerDiscipline registerDiscipline.Commit ⟨∅, id, none, db⟩ := by
  cases call with
  | create today actor key input => exact (create_registers cfg today actor key input).answer _ db hinv
  | approve actor publicId => exact (approve_registers cfg actor publicId).answer _ db hinv
  | reject actor publicId reason => exact (reject_registers cfg actor publicId reason).answer _ db hinv
  | updateAdmin today actor publicId version body =>
    exact (updateAdmin_registers cfg today actor publicId version body).answer _ db hinv
  | cancelOwn actor publicId => exact (cancelOwn_registers cfg actor publicId).answer _ db hinv
  | cancelAdmin actor publicId reason => exact (cancelAdmin_registers cfg actor publicId reason).answer _ db hinv
  | createRoomTime roomId body => exact (createRoomTime_registers roomId body).answer _ db hinv
  | updateRoomTime roomId roomTimeId body => exact (updateRoomTime_registers roomId roomTimeId body).answer _ db hinv
  | deleteRoomTime roomId roomTimeId => exact (deleteRoomTime_registers roomId roomTimeId).answer _ db hinv

/-- In every state that any calls can reach, an event names a booking that is there. -/
theorem eventsNamed_of_reachable {cfg : Config} {s : Sys Db Key Supply AppError Answer Call}
    (h : (bookingSystem cfg).Reachable (fun _ _ => True) s) : EventsNamed s.db := by
  refine (sound (D := registerDiscipline) ?_ (run_registers cfg) h).inv
  rintro db ⟨roomTypes, rooms, rfl⟩
  exact fun _ he => nomatch he

end HotelBackend.Bookings
