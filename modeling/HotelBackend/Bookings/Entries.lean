import HotelBackend.Bookings.Recording

/-!
# What a booking call records

A committed booking call has done one of two things (`run_records`): nothing to the bookings and what is told of
them, or one entry. An entry is a new booking, a move of a booking to another status, or an edit of a stay, and
it says which history row, which lifecycle row and which mail go with it (`Entry`).
-/

namespace HotelBackend.Bookings

open HotelBackend.Common
open HotelBackend.Theory
open HotelBackend.Theory.Transactions
open HotelBackend.Rooms
open HotelBackend.Outbox

/-! ### Entries -/

/-- The lifecycle row of a change. -/
def lifecycleEvent (change : BookingLifecycleChange) (x : Supply) : OutboxEvent :=
  .fresh x.uuid bookingLifecycleEventType (toBookingLifecyclePayload change) (outboxIdempotencyKey bookingLifecycleEventType change.booking) x.now

/-- The lifecycle rows of a change: one, if the stream is on. -/
inductive RecordedRows (change : BookingLifecycleChange) : Bool → List OutboxEvent → Prop where
  | off : RecordedRows change false []
  | on (x : Supply) : RecordedRows change true [lifecycleEvent change x]

/-- The mail of a change. -/
def mailEvent (booking : Booking) (eventType : BookingOutboxEventType) (room : OutboxRoom) (reason : Option String)
    (change : Option BookingChangeOutboxDetail) (x : Supply) : OutboxEvent :=
  .fresh x.uuid eventType.text (outboxPayload booking room reason change) (outboxIdempotencyKey eventType.text booking) x.now

/-- A move of a booking to another status: who moved it, and the mail about it. -/
structure Transition where
  publicId : String
  fromStatus : BookingStatus
  toStatus : BookingStatus
  actorType : BookingActorType
  actorUserId : ℕ
  reason : Option String
  eventType : Option BookingOutboxEventType

/-- The transitions that a call may make. -/
inductive Call.Makes : Call → Transition → Prop where
  | cancelOwn (actorUserId : ℕ) (publicId : String) :
      Makes (.cancelOwn actorUserId publicId) ⟨publicId, .pending, .cancelledByUser, .user, actorUserId, none, none⟩
  | approve (actorUserId : ℕ) (publicId : String) :
      Makes (.approve actorUserId publicId) ⟨publicId, .pending, .confirmed, .admin, actorUserId, none, some .confirmed⟩
  | reject (actorUserId : ℕ) (publicId reason : String) :
      Makes (.reject actorUserId publicId reason) ⟨publicId, .pending, .rejected, .admin, actorUserId, some reason, some .rejected⟩
  | cancelAdmin (actorUserId : ℕ) (publicId reason : String) {fromStatus : BookingStatus} (h : fromStatus.isActive = true) :
      Makes (.cancelAdmin actorUserId publicId reason)
        ⟨publicId, fromStatus, .cancelledByAdmin, .admin, actorUserId, some reason, some .cancelledByAdmin⟩

namespace Transition

/-- The booking after the transition. -/
def apply (t : Transition) (b : Booking) (now : ℕ) : Booking :=
  saved { b with status := t.toStatus, rejectionReason := if t.toStatus = .rejected then t.reason else b.rejectionReason } now

/-- Its history row. -/
def row (t : Transition) (bookingId : ℕ) (x : Supply) : BookingStatusHistory :=
  ⟨x.id, bookingId, some t.fromStatus, t.toStatus, t.actorType, some t.actorUserId, t.reason, x.now⟩

/-- Its events: they need the room, if there are any. -/
inductive Told (cfg : Config) (rooms : List Room) (booking : Booking) (t : Transition) : List OutboxEvent → Prop where
  | nothing (hoff : cfg.lifecycleEnabled = false) (hmail : t.eventType = none) : Told cfg rooms booking t []
  | room {room : Room} (hroom : room ∈ rooms) {events : List OutboxEvent} (x : Supply)
      (h : RecordedRows { booking := booking, room := ⟨room.id, room.roomTypeId⟩, fromStatus := some t.fromStatus } cfg.lifecycleEnabled events) :
      Told cfg rooms booking t
        (events ++ (t.eventType.map fun eventType => mailEvent booking eventType ⟨room.id, room.roomNumber⟩ t.reason none x).toList)

end Transition

/-- A booking as a create makes it, of this room. -/
def createdBooking (today : String) (actorUserId : ℕ) (input : BookingCreateInput) (room : Room) (roomTime : RoomTime) (x : Supply) : Booking :=
  BookingsService.newBooking actorUserId roomTime input (room.basePriceAmount * assertBookingDates input.checkIn input.checkOut today)
    room.currency x

/-- An edit of a stay, as it was made: between which rooms, into which window and dates. -/
structure Edit where
  source : Room
  destination : Room
  roomTimeId : ℕ
  checkIn : String
  checkOut : String

namespace Edit

variable (e : Edit)

/-- The booking after the edit. -/
def apply (b : Booking) (now : ℕ) : Booking := saved { b with roomTimeId := e.roomTimeId, checkIn := e.checkIn, checkOut := e.checkOut } now

/-- Its history row. -/
def row (b : Booking) (actorUserId : ℕ) (reason : String) (x : Supply) : BookingChangeHistory :=
  ⟨x.id, b.id, actorUserId, b.roomTimeId, e.roomTimeId, b.checkIn, b.checkOut, e.checkIn, e.checkOut, reason, x.now⟩

/-- What the lifecycle recorder is handed. -/
def change (b : Booking) (now : ℕ) : BookingLifecycleChange where
  booking := e.apply b now
  room := ⟨e.destination.id, e.destination.roomTypeId⟩
  fromStatus := some b.status
  previousStay := some ⟨e.source.id, e.source.roomTypeId, b.checkIn, b.checkOut⟩

/-- Its mail. -/
def mail (b : Booking) (now : ℕ) (reason : String) (x : Supply) : OutboxEvent :=
  mailEvent (e.apply b now) .changed ⟨e.destination.id, e.destination.roomNumber⟩ (some reason)
    (some ⟨⟨e.source.id, b.checkIn, b.checkOut⟩, ⟨e.destination.id, e.checkIn, e.checkOut⟩⟩) x

/-- The edit is what the body of a call asks for, of a booking that may be edited. -/
structure Asked (rooms : List Room) (today : String) (body : BookingsService.UpdateBookingDto) (b : Booking) : Prop where
  active : b.status.isActive = true
  source : e.source ∈ rooms
  destination : e.destination ∈ rooms
  room : e.destination.id = body.roomId.getD e.source.id
  checkIn : e.checkIn = body.checkIn.getD b.checkIn
  checkOut : e.checkOut = body.checkOut.getD b.checkOut
  changed : ¬ (e.destination.id = e.source.id ∧ e.checkIn = b.checkIn ∧ e.checkOut = b.checkOut)
  stay : assertBookingDates e.checkIn e.checkOut today ≠ 0

end Edit

/-- What a call may make of a booking, and the rows that it adds with it. -/
inductive Entry (cfg : Config) (rooms : List Room) : Call → Draft → Rows → Prop where
  | created {today : String} {actorUserId : ℕ} {key : Option String} {input : BookingCreateInput} {room : Room} {roomTime : RoomTime} (x y : Supply)
      {events : List OutboxEvent} (hroom : room ∈ rooms) (hid : room.id = input.roomId)
      (hstay : assertBookingDates input.checkIn input.checkOut today ≠ 0)
      (hprice : room.basePriceAmount * assertBookingDates input.checkIn input.checkOut today ≤ maxSafeInteger)
      (hevents : RecordedRows { booking := createdBooking today actorUserId input room roomTime x, room := ⟨room.id, room.roomTypeId⟩, fromStatus := none }
        cfg.lifecycleEnabled events) :
      Entry cfg rooms (.create today actorUserId key input) (.created (createdBooking today actorUserId input room roomTime x))
        ⟨[⟨y.id, x.id, none, .pending, .user, some actorUserId, none, y.now⟩], [], events⟩
  | moved {call : Call} {t : Transition} {old : Booking} (now : ℕ) (x : Supply) {events : List OutboxEvent} (ht : call.Makes t)
      (hid : old.publicId = t.publicId) (hstatus : old.status = t.fromStatus) (hevents : t.Told cfg rooms (t.apply old now) events) :
      Entry cfg rooms call (.saved old (t.apply old now)) ⟨[t.row old.id x], [], events⟩
  | edited {today : String} {actorUserId : ℕ} {publicId : String} {body : BookingsService.UpdateBookingDto} {old : Booking} {e : Edit} (now : ℕ)
      (x y : Supply) {events : List OutboxEvent} (hid : old.publicId = publicId) (he : e.Asked rooms today body old)
      (hevents : RecordedRows (e.change old now) cfg.lifecycleEnabled events) :
      Entry cfg rooms (.updateAdmin today actorUserId publicId old.version body) (.saved old (e.apply old now))
        ⟨[], [e.row old actorUserId body.reason x], events ++ [e.mail old now body.reason y]⟩

/-- The answer that goes with a draft. -/
def Draft.Answered : Draft → Answer → Prop
  | created _, answer => answer ≠ .transition false
  | saved _ _, answer => answer = .transition false

/-- What a committed call has done to the tables: nothing, or one entry. -/
inductive BookingStep (cfg : Config) (rooms : List Room) (call : Call) : Answer → BookingTables → BookingTables → Prop where
  | idle {answer : Answer} {t : BookingTables} (h : answer ≠ .transition false) : BookingStep cfg rooms call answer t t
  | entered {answer : Answer} {t : BookingTables} {d : Draft} {r : Rows} (h : Entry cfg rooms call d r) (hown : d.Own t) (hfits : Fits t d r)
      (hanswer : d.Answered answer) : BookingStep cfg rooms call answer t (t.write d r)

/-! ### Events -/

section Calls

variable {cfg : Config} {rooms : List Room} {l : Local Db Key} {d : Draft} {r : Rows} {call : Call}

theorem wp_record {change : BookingLifecycleChange} {enabled : Bool} {Q : Unit → Local Db Key → Prop} (h : Recording rooms d r l)
    (hQ : ∀ events l', RecordedRows change enabled events → Recording rooms d (r.addEvents events) l' → Q () l') :
    (record enabled change).wp (recordDiscipline rooms) Q l := by
  unfold record
  cases enabled with
  | false =>
    refine hQ [] l .off ?_
    rwa [Rows.addEvents, List.append_nil]
  | true =>
    rw [if_pos rfl, Txn.wp_bind]
    exact wp_insertOutboxEvent h fun x l' h' => hQ _ l' (.on x) h'

theorem wp_insertOutbox {booking : Booking} {eventType : BookingOutboxEventType} {room : OutboxRoom} {reason : Option String}
    {change : Option BookingChangeOutboxDetail} {Q : Supply → Local Db Key → Prop} (h : Recording rooms d r l)
    (hQ : ∀ x l', Recording rooms d (r.addEvents [mailEvent booking eventType room reason change x]) l' → Q x l') :
    (insertOutbox booking eventType room reason change).wp (recordDiscipline rooms) Q l :=
  wp_insertOutboxEvent h fun x l' h' => hQ x l' h'

/-! ### Commits -/

/-- What a call does. -/
def BookingPromise (cfg : Config) (rooms : List Room) (call : Call) (answer : Answer) (a b : Db) : Prop :=
  BookingStep cfg rooms call answer a.tables b.tables

/-- A call that leaves the tables as they are. -/
theorem ensures_of_same {answer : Answer} (hsame : ∀ db, (recordDiscipline rooms).Rely l.held l.db db → (l.pend db).tables = db.tables)
    (hanswer : answer ≠ .transition false) : (recordDiscipline rooms).Ensures (BookingPromise cfg rooms call) answer l := by
  intro db hr
  have hrooms : (l.pend db).rooms = db.rooms := congrArg BookingTables.rooms (hsame db hr)
  refine ⟨⟨?_, hrooms.trans hr.1.2⟩, fun k _ => ?_, ?_⟩
  · rw [hsame db hr]
    exact hr.1.1
  · show TablesKept k db.tables (l.pend db).tables
    rw [hsame db hr]
    exact .refl k _
  · rw [BookingPromise, hsame db hr]
    exact .idle hanswer

/-- A call that has written an entry has done what it promises. -/
theorem ensures_of_recording {answer : Answer} (h : Recording rooms d r l) (hentry : Entry cfg rooms call d r) (hanswer : d.Answered answer) :
    (recordDiscipline rooms).Ensures (BookingPromise cfg rooms call) answer l := by
  intro db hr
  obtain ⟨hinv, hkeep⟩ := h.commit hr
  refine ⟨hinv, hkeep, ?_⟩
  rw [BookingPromise, h.pend db hr]
  exact .entered hentry (h.own_of_rely hr) (h.fits_of_rely hr) hanswer

/-! ### The calls -/

/-- A call comes to where it does what it promises. -/
def Promises (cfg : Config) (rooms : List Room) (call : Call) : Prop :=
  ∀ db, (recordDiscipline rooms).Inv db →
    (call.run cfg).wp (recordDiscipline rooms) ((recordDiscipline rooms).Ensures (BookingPromise cfg rooms call)) ⟨∅, id, none, db⟩

theorem idle_start {db : Db} (hinv : (recordDiscipline rooms).Inv db) : Idle rooms ⟨∅, id, none, db⟩ where
  inv := hinv
  pend _ := rfl
  viewed _ hv := by cases hv

/-- A decision of an administrator and its two events. -/
theorem wp_appendTransitionAndOutbox {booking : Booking} {actorUserId : ℕ} {reason : Option String} {eventType : BookingOutboxEventType}
    {room : Room} {Q : Unit → Local Db Key → Prop} (h : Recording rooms d .none l) (hid : booking.id = d.id)
    (hQ : ∀ (x y : Supply) events l',
      RecordedRows { booking := booking, room := ⟨room.id, room.roomTypeId⟩, fromStatus := some .pending } cfg.lifecycleEnabled events →
      Recording rooms d ⟨[⟨x.id, booking.id, some .pending, booking.status, .admin, some actorUserId, reason, x.now⟩], [],
        events ++ [mailEvent booking eventType ⟨room.id, room.roomNumber⟩ reason none y]⟩ l' → Q () l') :
    (appendTransitionAndOutbox cfg booking actorUserId reason eventType room).wp (recordDiscipline rooms) Q l := by
  rw [appendTransitionAndOutbox, Txn.wp_bind]
  refine wp_insertStatusHistory h rfl hid fun x l₁ h₁ => ?_
  rw [Txn.wp_bind]
  refine wp_record h₁ fun events l₂ hevents h₂ => ?_
  rw [Txn.wp_bind]
  refine wp_insertOutbox h₂ fun y l₃ h₃ => ?_
  exact hQ x y events l₃ hevents h₃

theorem cancelOwn_promises (actorUserId : ℕ) (publicId : String) : Promises cfg rooms (.cancelOwn actorUserId publicId) := by
  intro db hinv
  rw [Call.run, Txn.wp_bind, BookingsService.cancelOwn]
  refine wp_findLocked_idle (idle_start hinv) fun b l₁ hb h₁ => ?_
  obtain ⟨hid, -⟩ := of_decide_eq_true hb
  split
  · exact ensures_of_same (fun db hr => h₁.idle hr) (by simp)
  rw [Txn.wp_bind, Txn.wp_require]
  intro hpending
  rw [Txn.wp_bind]
  refine wp_saveBooking_recorded h₁ rfl fun now l₂ h₂ => ?_
  rw [Txn.wp_bind]
  refine wp_insertStatusHistory h₂ rfl rfl fun x l₃ h₃ => ?_
  have hentry := fun events => @Entry.moved cfg rooms _ _ _ now x events (.cancelOwn actorUserId publicId) hid hpending
  rw [Txn.wp_bind, recordLifecycleByRoomTime]
  split
  case isFalse hoff =>
    refine ensures_of_recording h₃ (hentry [] (.nothing (Bool.eq_false_iff.2 hoff) rfl)) rfl
  case isTrue =>
    rw [Txn.wp_bind]
    refine wp_findRoomOfWindow h₃ fun room hroom l₄ h₄ => ?_
    refine wp_record h₄ fun events l₅ hevents h₅ => ?_
    refine ensures_of_recording h₅ (hentry events ?_) rfl
    have htold := Transition.Told.room (t := ⟨publicId, .pending, .cancelledByUser, .user, actorUserId, none, none⟩) hroom x hevents
    rwa [Option.map_none, Option.toList_none, List.append_nil] at htold

theorem approve_promises (actorUserId : ℕ) (publicId : String) : Promises cfg rooms (.approve actorUserId publicId) := by
  intro db hinv
  rw [Call.run, Txn.wp_bind, BookingsService.approve, Txn.wp_bind]
  refine wp_idle writes_bookingSourceSnapshot (idle_start hinv) fun snapshot l₁ h₁ => ?_
  rw [Txn.wp_bind]
  refine wp_lockRoom_idle h₁ fun room hroom _ l₂ h₂ => ?_
  refine wp_lockBooking_idle h₂ fun b l₃ hid h₃ => ?_
  split
  · exact ensures_of_same (fun db hr => h₃.idle hr) (by simp)
  rw [Txn.wp_bind, Txn.wp_require]
  intro _
  rw [Txn.wp_bind, Txn.wp_require]
  intro hpending
  rw [Txn.wp_bind]
  refine wp_still writes_findLocked h₃ fun found l₄ h₄ => ?_
  rw [Txn.wp_bind, Txn.wp_orThrow]
  intro roomTime _
  rw [Txn.wp_bind, Txn.wp_require]
  intro _
  rw [Txn.wp_bind]
  refine wp_still writes_assertNoConfirmedOverlap h₄ fun _ l₅ h₅ => ?_
  rw [Txn.wp_bind]
  refine wp_saveBooking_recorded h₅ rfl fun now l₆ h₆ => ?_
  rw [Txn.wp_bind]
  refine wp_appendTransitionAndOutbox h₆ rfl fun x y events l₇ hevents h₇ => ?_
  exact ensures_of_recording h₇ (.moved now x (.approve actorUserId publicId) hid hpending (.room hroom y hevents)) rfl

theorem reject_promises (actorUserId : ℕ) (publicId reason : String) : Promises cfg rooms (.reject actorUserId publicId reason) := by
  intro db hinv
  rw [Call.run, Txn.wp_bind, BookingsService.reject]
  refine wp_lockBooking_idle (idle_start hinv) fun b l₁ hid h₁ => ?_
  split
  · rw [Txn.wp_bind, Txn.wp_require]
    intro _
    exact ensures_of_same (fun db hr => h₁.idle hr) (by simp)
  rw [Txn.wp_bind, Txn.wp_require]
  intro hpending
  rw [Txn.wp_bind]
  refine wp_saveBooking_recorded h₁ rfl fun now l₂ h₂ => ?_
  rw [Txn.wp_bind]
  refine wp_findRoomOfWindow h₂ fun room hroom l₃ h₃ => ?_
  rw [Txn.wp_bind]
  refine wp_appendTransitionAndOutbox h₃ rfl fun x y events l₄ hevents h₄ => ?_
  exact ensures_of_recording h₄ (.moved now x (.reject actorUserId publicId reason) hid hpending (.room hroom y hevents)) rfl

theorem cancelAdmin_promises (actorUserId : ℕ) (publicId reason : String) : Promises cfg rooms (.cancelAdmin actorUserId publicId reason) := by
  intro db hinv
  rw [Call.run, Txn.wp_bind, BookingsService.cancelAdmin]
  refine wp_lockBooking_idle (idle_start hinv) fun b l₁ hid h₁ => ?_
  split
  · rw [Txn.wp_bind]
    refine wp_still (.reading _) h₁ fun latest l₂ h₂ => ?_
    rw [Txn.wp_bind, Txn.wp_require]
    intro _
    exact ensures_of_same (fun db hr => h₂.idle hr) (by simp)
  rw [Txn.wp_bind, Txn.wp_require]
  intro hactive
  rw [Txn.wp_bind]
  refine wp_saveBooking_recorded h₁ rfl fun now l₂ h₂ => ?_
  rw [Txn.wp_bind]
  refine wp_findRoomOfWindow h₂ fun room hroom l₃ h₃ => ?_
  rw [Txn.wp_bind]
  refine wp_insertStatusHistory h₃ rfl rfl fun x l₄ h₄ => ?_
  rw [Txn.wp_bind]
  refine wp_record h₄ fun events l₅ hevents h₅ => ?_
  rw [Txn.wp_bind]
  refine wp_insertOutbox h₅ fun y l₆ h₆ => ?_
  exact ensures_of_recording h₆ (.moved now x (.cancelAdmin actorUserId publicId reason hactive) hid rfl (.room hroom y hevents)) rfl

/-- Rooms that are locked are rooms of the hotel. -/
theorem wp_lockRooms_idle {roomIds : List ℕ} {Q : List Room → Local Db Key → Prop} (h : Idle rooms l)
    (hQ : ∀ found l', (∀ room ∈ found, room ∈ rooms) → Idle rooms l' → Q found l') :
    (BookingsService.lockRooms roomIds).wp (recordDiscipline rooms) Q l := by
  induction roomIds generalizing l Q with
  | nil => exact hQ [] l (fun _ hmem => absurd hmem List.not_mem_nil) h
  | cons roomId roomIds ih =>
    rw [BookingsService.lockRooms, Txn.wp_bind]
    refine wp_lockRoom_idle h fun room hroom _ l₁ h₁ => ?_
    rw [Txn.wp_bind]
    refine ih h₁ fun found l₂ hfound h₂ => ?_
    exact hQ _ l₂ (List.forall_mem_cons.2 ⟨hroom, hfound⟩) h₂

theorem updateAdmin_promises (today : String) (actorUserId : ℕ) (publicId : String) (expectedVersion : ℕ)
    (body : BookingsService.UpdateBookingDto) : Promises cfg rooms (.updateAdmin today actorUserId publicId expectedVersion body) := by
  intro db hinv
  rw [Call.run, Txn.wp_bind, BookingsService.updateAdmin, Txn.wp_bind]
  refine wp_idle writes_bookingSourceSnapshot (idle_start hinv) fun snapshot l₁ h₁ => ?_
  rw [Txn.wp_bind, Txn.wp_require]
  intro _
  rw [Txn.wp_bind]
  refine wp_lockRooms_idle h₁ fun found l₂ hfound h₂ => ?_
  refine wp_lockBooking_idle h₂ fun b l₃ hid h₃ => ?_
  rw [Txn.wp_bind, Txn.wp_require]
  rintro rfl
  rw [Txn.wp_bind, Txn.wp_require]
  intro _
  rw [Txn.wp_bind]
  refine wp_still writes_findLocked h₃ fun sourceWindow l₄ h₄ => ?_
  rw [Txn.wp_bind, Txn.wp_require]
  intro _
  rw [Txn.wp_bind, Txn.wp_require]
  intro hactive
  rw [Txn.wp_bind, Txn.wp_require]
  intro hchanged
  rw [Txn.wp_bind, Txn.wp_require]
  intro hstay
  rw [Txn.wp_bind, Txn.wp_orThrow]
  intro destination hdestination
  rw [Txn.wp_bind, Txn.wp_require]
  intro _
  rw [Txn.wp_bind]
  refine wp_still writes_lockContainingWindow h₄ fun window l₅ h₅ => ?_
  rw [Txn.wp_bind]
  refine wp_still (Txn.Writes.when _ writes_assertNoConfirmedOverlap) h₅ fun _ l₆ h₆ => ?_
  rw [Txn.wp_bind]
  refine wp_saveBooking_recorded h₆ rfl fun now l₇ h₇ => ?_
  rw [Txn.wp_bind]
  refine wp_insertChangeHistory h₇ fun x l₈ h₈ => ?_
  rw [Txn.wp_bind, Txn.wp_orThrow]
  intro source hsource
  rw [Txn.wp_bind]
  refine wp_record h₈ fun events l₉ hevents h₉ => ?_
  rw [Txn.wp_bind]
  refine wp_insertOutbox h₉ fun y l₁₀ h₁₀ => ?_
  have hdestinationId : destination.id = body.roomId.getD snapshot.roomId := by simpa using List.find?_some hdestination
  have hsourceId : source.id = snapshot.roomId := by simpa using List.find?_some hsource
  rw [← hsourceId] at hdestinationId hevents h₁₀ hchanged
  rw [← hdestinationId] at h₁₀ hchanged
  let e : Edit := ⟨source, destination, window.id, body.checkIn.getD b.checkIn, body.checkOut.getD b.checkOut⟩
  have hasked : e.Asked rooms today body b := ⟨hactive, hfound _ (List.mem_of_find?_eq_some hsource),
    hfound _ (List.mem_of_find?_eq_some hdestination), hdestinationId, rfl, rfl, hchanged, hstay⟩
  exact ensures_of_recording h₁₀ (.edited now x y hid hasked hevents) rfl

theorem create_promises (today : String) (actorUserId : ℕ) (idempotencyKey : Option String) (input : BookingCreateInput) :
    Promises cfg rooms (.create today actorUserId idempotencyKey input) := by
  intro db hinv
  rw [Call.run, Txn.wp_bind, BookingsService.create, Txn.wp_bind, Txn.wp_orThrow]
  intro key _
  have hlock : (IdempotencyRepository.lock cfg actorUserId bookingCreateOperation key (bookingCreateFingerprint cfg actorUserId input)).Writes
      SameTables := by
    refine Txn.Writes.bind (.writing fun x db => ?_) fun _ => writes_findLocked.bind fun _ =>
      Txn.Writes.bind (.orThrow _ _) fun _ => Txn.Writes.bind (.require _ _) fun _ => .pure _
    split <;> rfl
  rw [BookingsService.createInTransaction, Txn.wp_bind]
  refine wp_idle hlock (idle_start hinv) fun row l₁ h₁ => ?_
  split
  · exact ensures_of_same (fun db _ => h₁.pend db) (by simp)
  rw [Txn.wp_bind, Txn.wp_require]
  intro hstay
  rw [Txn.wp_bind, BookingsService.lockBookingTarget, Txn.wp_bind]
  refine wp_lockRoom_idle h₁ fun room hroom hid l₂ h₂ => ?_
  rw [Txn.wp_bind, Txn.wp_require]
  intro _
  rw [Txn.wp_bind]
  refine wp_idle writes_lockContainingWindow h₂ fun roomTime l₃ h₃ => ?_
  rw [Txn.wp_pure, Txn.wp_bind, Txn.wp_require]
  intro hprice
  rw [Txn.wp_bind, BookingsService.createPendingBooking, Txn.wp_bind]
  refine wp_insertBooking_idle h₃ (fun _ => ⟨rfl, rfl⟩) fun x l₄ h₄ => ?_
  rw [Txn.wp_bind]
  refine wp_insertStatusHistory h₄ rfl rfl fun y l₅ h₅ => ?_
  rw [Txn.wp_pure, Txn.wp_bind]
  refine wp_record h₅ fun events l₆ hevents h₆ => ?_
  rw [Txn.wp_bind]
  refine wp_still writes_findOneOrFail h₆ fun roomType l₇ h₇ => ?_
  rw [Txn.wp_bind]
  refine wp_still (.writing fun _ _ => rfl) h₇ fun _ l₈ h₈ => ?_
  exact ensures_of_recording h₈ (.created x y hroom hid hstay hprice hevents) (by simp [Draft.Answered])

/-- Room-time administration writes none of the tables. -/
theorem promises_of_same {α : Type} {c : Tx α} {f : α → Answer} (hrun : call.run cfg = (c >>= fun a => pure (f a) : Tx Answer))
    (hc : c.Writes SameTables) (hf : ∀ a, f a ≠ .transition false) : Promises cfg rooms call := by
  intro db hinv
  rw [hrun, Txn.wp_bind]
  exact wp_idle hc (idle_start hinv) fun a l' h => ensures_of_same (fun db _ => h.pend db) (hf a)

theorem createRoomTime_promises (roomId : ℕ) (body : CreateRoomTimeDto) : Promises cfg rooms (.createRoomTime roomId body) :=
  promises_of_same rfl (Txn.Writes.bind (.ofExcept _) fun _ => writes_lockRoom.bind fun _ => writes_assertNoActiveOverlap.bind fun _ =>
    Txn.Writes.bind (Txn.Writes.bind (.writing fun _ _ => rfl) fun _ => .pure _) fun _ => .pure _) (by simp)

theorem updateRoomTime_promises (roomId roomTimeId : ℕ) (body : UpdateRoomTimeDto) : Promises cfg rooms (.updateRoomTime roomId roomTimeId body) :=
  promises_of_same rfl (Txn.Writes.bind (.require _ _) fun _ => writes_lockRoom.bind fun _ => writes_findLockedRoomTime.bind fun _ =>
    writes_loadUsage.bind fun _ => Txn.Writes.bind (.ofExcept _) fun _ => writes_assertNoActiveOverlap.bind fun _ =>
      Txn.Writes.bind (Txn.Writes.bind (.reading _) fun _ => Txn.Writes.bind (.writing fun _ _ => rfl) fun _ => .pure _) fun _ => .pure _) (by simp)

theorem deleteRoomTime_promises (roomId roomTimeId : ℕ) : Promises cfg rooms (.deleteRoomTime roomId roomTimeId) :=
  promises_of_same (f := fun _ => .noContent) rfl (writes_lockRoom.bind fun _ => writes_findLockedRoomTime.bind fun _ => writes_loadUsage.bind fun _ =>
    Txn.Writes.bind (.ofExcept _) fun _ => Txn.Writes.bind (.locking _ _) fun _ => Txn.Writes.bind (.require _ _) fun _ =>
      Txn.Writes.bind (.writing fun _ _ => rfl) fun _ => .pure _) (by simp)

theorem run_records (cfg : Config) (rooms : List Room) (call : Call) : Promises cfg rooms call := by
  cases call with
  | create today actor key input => exact create_promises today actor key input
  | approve actor publicId => exact approve_promises actor publicId
  | reject actor publicId reason => exact reject_promises actor publicId reason
  | updateAdmin today actor publicId version body => exact updateAdmin_promises today actor publicId version body
  | cancelOwn actor publicId => exact cancelOwn_promises actor publicId
  | cancelAdmin actor publicId reason => exact cancelAdmin_promises actor publicId reason
  | createRoomTime roomId body => exact createRoomTime_promises roomId body
  | updateRoomTime roomId roomTimeId body => exact updateRoomTime_promises roomId roomTimeId body
  | deleteRoomTime roomId roomTimeId => exact deleteRoomTime_promises roomId roomTimeId

end Calls

end HotelBackend.Bookings
