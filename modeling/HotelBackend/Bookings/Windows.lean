import HotelBackend.Theory.Guarantees
import HotelBackend.Bookings.Entries
import HotelBackend.Bookings.Isolation

/-!
# The windows of bookings

The room of a booking is that of its window. A window never changes its room, and no window is lost that a
booking is in, closed or not (`Housed`): a call puts a booking into a window only under the lock of the window,
and the foreign key keeps a window that is still referred to. So who reads a locked booking finds its room, and
the room that a lifecycle row tells is the room of its booking when the row is committed (`TellsRoom`).
-/

namespace HotelBackend.Bookings

open HotelBackend.Common
open HotelBackend.Theory
open HotelBackend.Theory.Transactions
open HotelBackend.Rooms
open HotelBackend.Outbox

/-! ### The discipline -/

/-- Every booking is in a window. -/
structure Housed (db : Db) : Prop where
  ids : Table.UniqueBy (·.id) db.roomTimes
  window : ∀ b ∈ db.bookings, ∃ t ∈ db.roomTimes, t.id = b.roomTimeId

/-- A booking stays in its window, and in its room. -/
structure Stays (a b : Db) (x y : Booking) : Prop where
  id : y.id = x.id
  publicId : y.publicId = x.publicId
  window : y.roomTimeId = x.roomTimeId
  room : ∀ roomId, b.stock.InRoom y roomId ↔ a.stock.InRoom x roomId

theorem Stays.trans {a b c : Db} {x y z : Booking} (hxy : Stays a b x y) (hyz : Stays b c y z) : Stays a c x z where
  id := hyz.id.trans hxy.id
  publicId := hyz.publicId.trans hxy.publicId
  window := hyz.window.trans hxy.window
  room roomId := (hyz.room roomId).trans (hxy.room roomId)

theorem stays_of_roomTimes {a b : Db} (h : b.roomTimes = a.roomTimes) (x : Booking) : Stays a b x x where
  id := rfl
  publicId := rfl
  window := rfl
  room roomId := by
    show (∃ t ∈ b.roomTimes, _) ↔ ∃ t ∈ a.roomTimes, _
    rw [h]

/-- What a call may do to what is under a key that it does not hold. -/
def WindowsKept (k : Key) (a b : Db) : Prop :=
  match k with
  | .roomTime id => (∀ t : RoomTime, t.id = id → (t ∈ a.roomTimes ↔ t ∈ b.roomTimes)) ∧
      ∀ y ∈ b.bookings, y.roomTimeId = id → ∃ x ∈ a.bookings, x.roomTimeId = id
  | .booking id => ∀ x ∈ a.bookings, x.id = id → ∃ y ∈ b.bookings, Stays a b x y
  | _ => True

theorem WindowsKept.refl (k : Key) (db : Db) : WindowsKept k db db := by
  unfold WindowsKept
  split
  · exact ⟨fun _ _ => Iff.rfl, fun y hy hid => ⟨y, hy, hid⟩⟩
  · exact fun x hx _ => ⟨x, hx, stays_of_roomTimes rfl x⟩
  · trivial

theorem WindowsKept.trans {k : Key} {a b c : Db} (hab : WindowsKept k a b) (hbc : WindowsKept k b c) : WindowsKept k a c := by
  unfold WindowsKept at *
  split at hab
  · refine ⟨fun t ht => (hab.1 t ht).trans (hbc.1 t ht), fun z hz hid => ?_⟩
    obtain ⟨y, hy, hyid⟩ := hbc.2 z hz hid
    exact hab.2 y hy hyid
  · intro x hx hid
    obtain ⟨y, hy, hxy⟩ := hab x hx hid
    obtain ⟨z, hz, hyz⟩ := hbc y hy (hxy.id.trans hid)
    exact ⟨z, hz, hxy.trans hyz⟩
  · trivial

def windowDiscipline : Discipline Db Key where
  Inv := Housed
  Keeps := WindowsKept
  refl := .refl
  trans _ _ _ _ := .trans

/-- A window that is there before and after is of the same room. -/
def SameRooms (a b : Db) : Prop := ∀ t ∈ a.roomTimes, ∀ u ∈ b.roomTimes, u.id = t.id → u.roomId = t.roomId

/-- The windows stay as they are. -/
theorem Housed.sameRooms {a b : Db} (h : Housed a) (hsame : b.roomTimes = a.roomTimes) : SameRooms a b :=
  fun t ht u hu hid => by rw [h.ids u (hsame ▸ hu) t ht hid]

/-- A booking that stays in its window stays in its room. -/
theorem inRoom_of_sameRooms {a b : Db} (ha : Housed a) (hb : Housed b) (h : SameRooms a b) {x y : Booking} (hx : x ∈ a.bookings)
    (hy : y ∈ b.bookings) (hwindow : y.roomTimeId = x.roomTimeId) (roomId : ℕ) : b.stock.InRoom y roomId ↔ a.stock.InRoom x roomId := by
  obtain ⟨t, ht, htx⟩ := ha.window x hx
  obtain ⟨u, hu, huy⟩ := hb.window y hy
  have hroom := h t ht u hu (huy.trans (hwindow.trans htx.symm))
  constructor
  · rintro ⟨v, hv, hvy, rfl⟩
    exact ⟨t, ht, htx, by rw [hb.ids v hv u hu (hvy.trans huy.symm), hroom]⟩
  · rintro ⟨v, hv, hvx, rfl⟩
    exact ⟨u, hu, huy, by rw [ha.ids v hv t ht (hvx.trans htx.symm), hroom]⟩

/-- A lifecycle row tells the room of its booking. -/
def TellsRoom (db : Db) (e : OutboxEvent) : Prop :=
  e.eventType = bookingLifecycleEventType → ∃ change x, e = lifecycleEvent change x ∧
    ∃ b ∈ db.bookings, b.publicId = change.booking.publicId ∧ db.stock.InRoom b change.room.id

/-- What a call does: it leaves windows in their rooms, and tells rooms as they are. -/
structure WindowStep (a b : Db) : Prop where
  rooms : SameRooms a b
  told : ∀ e ∈ b.outboxEvents, e ∈ a.outboxEvents ∨ TellsRoom b e

/-! ### Bookings -/

/-- The windows, the bookings and the outbox stay as they are. -/
def Silent (a b : Db) : Prop := b.stock = a.stock ∧ b.outboxEvents = a.outboxEvents

theorem Silent.refl (a : Db) : Silent a a := ⟨rfl, rfl⟩

theorem Silent.trans {a b c : Db} (hab : Silent a b) (hbc : Silent b c) : Silent a c := ⟨hbc.1.trans hab.1, hbc.2.trans hab.2⟩

/-- Of lifecycle rows, it is one of this booking and this room. -/
def Told (publicId : String) (roomId : ℕ) (e : OutboxEvent) : Prop :=
  e.eventType = bookingLifecycleEventType → ∃ change x, e = lifecycleEvent change x ∧ change.booking.publicId = publicId ∧ change.room.id = roomId

/-- The windows and the bookings stay as they are, and this room is told of this booking. -/
def Tells (publicId : String) (roomId : ℕ) (a b : Db) : Prop :=
  b.stock = a.stock ∧ ∀ e ∈ b.outboxEvents, e ∈ a.outboxEvents ∨ Told publicId roomId e

section Statements

variable {publicId : String} {roomId : ℕ}

theorem Silent.tells {a b : Db} (h : Silent a b) : Tells publicId roomId a b := ⟨h.1, fun _ he => .inl (h.2 ▸ he)⟩

theorem Tells.trans {a b c : Db} (hab : Tells publicId roomId a b) (hbc : Tells publicId roomId b c) : Tells publicId roomId a c := by
  refine ⟨hbc.1.trans hab.1, fun e he => ?_⟩
  rcases hbc.2 e he with he | htold
  · exact hab.2 e he
  · exact .inr htold

theorem silent_insertStatusHistory {bookingId : ℕ} {fromStatus : Option BookingStatus} {toStatus : BookingStatus} {actorType : BookingActorType}
    {actorUserId : Option ℕ} {reason : Option String} :
    (insertStatusHistory bookingId fromStatus toStatus actorType actorUserId reason).Writes Silent :=
  .writing fun _ _ => ⟨rfl, rfl⟩

theorem tells_insertStatusHistory {bookingId : ℕ} {fromStatus : Option BookingStatus} {toStatus : BookingStatus} {actorType : BookingActorType}
    {actorUserId : Option ℕ} {reason : Option String} :
    (insertStatusHistory bookingId fromStatus toStatus actorType actorUserId reason).Writes (Tells publicId roomId) :=
  silent_insertStatusHistory.mono fun _ _ => Silent.tells

theorem tells_insertOutboxEvent {eventType key : String} {payload : Json} (h : ∀ x : Supply, Told publicId roomId (.fresh x.uuid eventType payload key x.now)) :
    (insertOutboxEvent eventType payload key).Writes (Tells publicId roomId) := by
  refine .writing fun x db => ⟨rfl, fun e he => ?_⟩
  rcases List.mem_append.1 he with he | he
  · exact .inl he
  · exact .inr (List.mem_singleton.1 he ▸ h x)

/-- A mail is not a lifecycle row. -/
theorem tells_insertOutbox {booking : Booking} {eventType : BookingOutboxEventType} {room : OutboxRoom} {reason : Option String}
    {change : Option BookingChangeOutboxDetail} : (insertOutbox booking eventType room reason change).Writes (Tells publicId roomId) := by
  refine tells_insertOutboxEvent fun x htype => ?_
  have hne : eventType.text ≠ bookingLifecycleEventType := by cases eventType <;> decide
  exact absurd htype hne

theorem tells_record {enabled : Bool} {change : BookingLifecycleChange} (hbooking : change.booking.publicId = publicId) (hroom : change.room.id = roomId) :
    (record enabled change).Writes (Tells publicId roomId) := by
  unfold record
  split
  · exact Txn.Writes.bind (tells_insertOutboxEvent fun x _ => ⟨change, x, rfl, hbooking, hroom⟩) fun _ => .pure _
  · exact .pure _

theorem tells_appendTransitionAndOutbox {cfg : Config} {booking : Booking} {actorUserId : ℕ} {reason : Option String}
    {eventType : BookingOutboxEventType} {room : Room} (hbooking : booking.publicId = publicId) :
    (appendTransitionAndOutbox cfg booking actorUserId reason eventType room).Writes (Tells publicId room.id) :=
  Txn.Writes.bind tells_insertStatusHistory fun _ => Txn.Writes.bind (tells_record hbooking rfl) fun _ =>
    Txn.Writes.bind tells_insertOutbox fun _ => .pure _

end Statements

section Seated

variable {α : Type} {l l' : Local Db Key} {id : ℕ} {publicId : String} {window roomId : ℕ}

/-- A call that has written none of it. -/
def Unwritten (l : Local Db Key) : Prop := ∀ db, Silent db (l.pend db)

theorem Unwritten.roomTimes (h : Unwritten l) (db : Db) : (l.pend db).roomTimes = db.roomTimes := congrArg Stock.roomTimes (h db).1

theorem Unwritten.bookings (h : Unwritten l) (db : Db) : (l.pend db).bookings = db.bookings := congrArg Stock.bookings (h db).1

/-- A call that has put its booking into a window, and told of it at most this room. -/
structure Seated (id : ℕ) (publicId : String) (window roomId : ℕ) (l : Local Db Key) : Prop where
  locked : .booking id ∈ l.held
  roomTimes : ∀ db, (l.pend db).roomTimes = db.roomTimes
  seat : ∀ db, windowDiscipline.Rely l.held l.db db → ∃ y ∈ (l.pend db).bookings, y.publicId = publicId ∧ y.roomTimeId = window
  others : ∀ db, ∀ x ∈ db.bookings, x.id ≠ id → x ∈ (l.pend db).bookings
  from' : ∀ db, ∀ y ∈ (l.pend db).bookings, y.roomTimeId = window ∨ ∃ x ∈ db.bookings, x.roomTimeId = y.roomTimeId
  entered : ∀ db, windowDiscipline.Rely l.held l.db db → .roomTime window ∈ l.held ∨ ∃ x ∈ db.bookings, x.roomTimeId = window
  events : ∀ db, ∀ e ∈ (l.pend db).outboxEvents, e ∈ db.outboxEvents ∨ Told publicId roomId e

/-- The window is there from now on, and in this room. -/
def InWindow (window roomId : ℕ) (l : Local Db Key) : Prop :=
  ∀ db, windowDiscipline.Rely l.held l.db db → ∃ t ∈ db.roomTimes, t.id = window ∧ t.roomId = roomId

/-- A window that is locked is there from now on. -/
theorem inWindow_of_locked {t : RoomTime} (ht : t ∈ l.db.roomTimes) (hheld : .roomTime t.id ∈ l.held) : InWindow t.id t.roomId l :=
  fun _ hr => ⟨t, ((hr.2 (.roomTime t.id) hheld).1 t rfl).1 ht, rfl, rfl⟩

/-- It tells more of that. -/
theorem Seated.after (h : Seated id publicId window roomId l) (hr : windowDiscipline.Rely l.held l.db l'.db) (hheld : l.held ⊆ l'.held)
    (hwritten : ∀ db, Tells publicId roomId (l.pend db) (l'.pend db)) : Seated id publicId window roomId l' := by
  have hbookings : ∀ db, (l'.pend db).bookings = (l.pend db).bookings := fun db => congrArg Stock.bookings (hwritten db).1
  refine ⟨hheld h.locked, fun db => ?_, fun db hr' => ?_, fun db x hx hne => ?_, fun db y hy => ?_, fun db hr' => ?_, fun db e he => ?_⟩
  · exact (congrArg Stock.roomTimes (hwritten db).1).trans (h.roomTimes db)
  · rw [hbookings]
    exact h.seat db (hr.trans hr' hheld)
  · rw [hbookings]
    exact h.others db x hx hne
  · rw [hbookings] at hy
    exact h.from' db y hy
  · exact (h.entered db (hr.trans hr' hheld)).imp_left fun hk => hheld hk
  · rcases (hwritten db).2 e he with he | htold
    · exact h.events db e he
    · exact .inr htold

/-- It may commit, if it told the room that the window is in. -/
theorem Seated.ensures (h : Seated id publicId window roomId l) (hroom : InWindow window roomId l) :
    windowDiscipline.Ensures (fun _ => WindowStep) () l := by
  intro db hr
  obtain ⟨t, ht, htw, htr⟩ := hroom db hr
  have hroomTimes := h.roomTimes db
  refine ⟨⟨hroomTimes.symm ▸ hr.1.ids, fun y hy => ?_⟩, fun k hk => ?_, hr.1.sameRooms hroomTimes, fun e he => ?_⟩
  · rw [hroomTimes]
    rcases h.from' db y hy with hw | ⟨x, hx, hxy⟩
    · exact ⟨t, ht, htw.trans hw.symm⟩
    · rw [← hxy]
      exact hr.1.window x hx
  · show WindowsKept k db (l.pend db)
    unfold WindowsKept
    split
    case h_1 id' =>
      refine ⟨fun t _ => by rw [hroomTimes], fun y hy hid => ?_⟩
      subst hid
      rcases h.from' db y hy with hw | hold
      · rw [hw] at hk ⊢
        exact (h.entered db hr).resolve_left hk
      · exact hold
    case h_2 id' =>
      rintro x hx rfl
      have hne : x.id ≠ id := fun heq => hk (heq ▸ h.locked)
      exact ⟨x, h.others db x hx hne, stays_of_roomTimes hroomTimes x⟩
    case h_3 => trivial
  · refine (h.events db e he).imp_right fun htold htype => ?_
    obtain ⟨change, x, heq, hpublicId, hroomId⟩ := htold htype
    obtain ⟨y, hy, hyid, hyw⟩ := h.seat db hr
    have ht' : t ∈ (l.pend db).roomTimes := hroomTimes.symm ▸ ht
    exact ⟨change, x, heq, y, hy, hyid.trans hpublicId.symm, t, ht', htw.trans hyw.symm, htr.trans hroomId.symm⟩

/-- What is left of a call that is seated. -/
theorem Seated.wp {c : Tx α} (h : Seated id publicId window roomId l) (hinv : Housed l.db) (hroom : InWindow window roomId l)
    (hc : c.Writes (Tells publicId roomId)) : c.wp windowDiscipline (fun _ => windowDiscipline.Ensures (fun _ => WindowStep) ()) l :=
  Txn.wp_of_writes (D := windowDiscipline) (fun db => (Silent.refl db).tells) (fun _ _ _ => Tells.trans) hc hinv fun _ _ hr hheld hwritten =>
    (h.after hr hheld hwritten).ensures fun db hr' => hroom db (hr.trans hr' hheld)

/-- A call that has written nothing of it may commit. -/
theorem Unwritten.ensures (h : Unwritten l) : windowDiscipline.Ensures (fun _ => WindowStep) () l := by
  intro db hr
  refine ⟨⟨(h.roomTimes db).symm ▸ hr.1.ids, fun y hy => ?_⟩, fun k hk => ?_, hr.1.sameRooms (h.roomTimes db), fun e he => .inl ((h db).2 ▸ he)⟩
  · rw [h.roomTimes]
    exact hr.1.window y (h.bookings db ▸ hy)
  · show WindowsKept k db (l.pend db)
    unfold WindowsKept
    rw [h.roomTimes, h.bookings]
    split
    case h_1 id' => exact ⟨fun _ _ => Iff.rfl, fun y hy hid => ⟨y, hy, hid⟩⟩
    case h_2 id' => exact fun x hx _ => ⟨x, hx, stays_of_roomTimes (h.roomTimes db) x⟩
    case h_3 => trivial

/-- A part of a call that writes none of it. -/
theorem wp_unwritten {c : Tx α} {Q : α → Local Db Key → Prop} (hc : c.Writes Silent) (hinv : Housed l.db) (hl : Unwritten l)
    (hQ : ∀ a l', windowDiscipline.Rely l.held l.db l'.db → l.held ⊆ l'.held → Unwritten l' → Q a l') : c.wp windowDiscipline Q l :=
  Txn.wp_of_writes (D := windowDiscipline) Silent.refl (fun _ _ _ => Silent.trans) hc hinv
    fun a l' hr hheld hsame => hQ a l' hr hheld fun db => (hl db).trans (hsame db)

/-- What is left of a call that has written nothing and will not. -/
theorem wp_never {c : Tx α} (hc : c.Writes Silent) (hinv : Housed l.db) (hl : Unwritten l) :
    c.wp windowDiscipline (fun _ => windowDiscipline.Ensures (fun _ => WindowStep) ()) l :=
  wp_unwritten hc hinv hl fun _ _ _ _ hl' => hl'.ensures

/-! #### The booking that is locked -/

/-- What a call knows of the booking that it has locked in `db₀`. -/
structure Known (db₀ : Db) (b : Booking) (l : Local Db Key) : Prop where
  locked : .booking b.id ∈ l.held
  now : ∃ y ∈ l.db.bookings, Stays db₀ l.db b y
  viewed : ∀ v, l.view = some v → ∃ y ∈ v.bookings, Stays db₀ v b y

variable {db₀ : Db} {b : Booking}

/-- Others leave the booking in its window. -/
theorem Known.stays (h : Known db₀ b l) {db : Db} (hr : windowDiscipline.Rely l.held l.db db) : ∃ y ∈ db.bookings, Stays db₀ db b y := by
  obtain ⟨y, hy, hby⟩ := h.now
  obtain ⟨z, hz, hyz⟩ := hr.2 (.booking b.id) h.locked y hy hby.id
  exact ⟨z, hz, hby.trans hyz⟩

/-- A part of a call goes on knowing it. -/
theorem wp_known {c : Tx α} {Q : α → Local Db Key → Prop} (h : Known db₀ b l)
    (hc : c.wp windowDiscipline (fun a l' => l.held ⊆ l'.held ∧ (Known db₀ b l' → Q a l')) l) : c.wp windowDiscipline Q l := by
  refine Txn.wp_viewed (P := fun db => ∃ y ∈ db.bookings, Stays db₀ db b y) c h.now h.viewed (fun db hr => h.stays hr) ?_
  exact Txn.wp_mono c (fun a l' hQ hnow hview => hQ.2 ⟨hQ.1 h.locked, hnow, hview⟩) l hc

/-- The room of the booking is the room of its window, from now on. -/
theorem Known.inWindow (h : Known db₀ b l) (hroom : db₀.stock.InRoom b roomId) : InWindow b.roomTimeId roomId l := by
  intro db hr
  obtain ⟨y, -, hby⟩ := h.stays hr
  obtain ⟨t, ht, hty, htr⟩ := (hby.room roomId).2 hroom
  exact ⟨t, ht, hty.trans hby.window, htr⟩

/-- Its room is read from the snapshot. -/
theorem wp_findRoomOfWindow_known {Q : Room → Local Db Key → Prop} (h : Known db₀ b l) (hroomTimes : ∀ db, (l.pend db).roomTimes = db.roomTimes)
    (hQ : ∀ room l', windowDiscipline.Rely l.held l.db l'.db → l'.held = l.held → l'.pend = l.pend → Known db₀ b l' →
      db₀.stock.InRoom b room.id → Q room l') : (findRoomOfWindow b.roomTimeId).wp windowDiscipline Q l := by
  refine wp_known h ?_
  rw [findRoomOfWindow, Txn.wp_bind, findOneOrFail, Txn.wp_bind, Txn.wp_reading]
  intro db₁ hr₁
  rw [Txn.wp_orThrow]
  intro t ht
  rw [findOneOrFail, Txn.wp_bind, Txn.wp_reading]
  intro db₂ hr₂
  rw [Txn.wp_orThrow]
  intro room hroom
  refine ⟨subset_rfl, fun hknown => hQ room _ (hr₁.trans hr₂ subset_rfl) rfl rfl hknown ?_⟩
  -- the booking is in the same window in the snapshot
  have hview : ∃ y ∈ (l.view.getD db₁).bookings, Stays db₀ (l.view.getD db₁) b y := by
    cases hl : l.view with
    | none => exact h.stays hr₁
    | some v => exact h.viewed v hl
  obtain ⟨y, -, hby⟩ := hview
  rw [hroomTimes] at ht
  have hid : room.id = t.roomId := of_decide_eq_true (List.find?_some (p := fun r : Room => decide (r.id = t.roomId)) hroom)
  have htid : t.id = b.roomTimeId := of_decide_eq_true (List.find?_some (p := fun t : RoomTime => decide (t.id = b.roomTimeId)) ht)
  exact (hby.room room.id).1 ⟨t, List.mem_of_find?_eq_some ht, htid.trans hby.window.symm, hid.symm⟩

/-- A save puts the booking into the window that it names. -/
theorem wp_saveBooking_seated {b' : Booking} {Q : Booking → Local Db Key → Prop} (h : Known db₀ b l) (hl : Unwritten l) (hid : b'.id = b.id)
    (hentered : ∀ db, windowDiscipline.Rely l.held l.db db → .roomTime b'.roomTimeId ∈ l.held ∨ ∃ x ∈ db.bookings, x.roomTimeId = b'.roomTimeId)
    (hQ : ∀ now l', windowDiscipline.Rely l.held l.db l'.db → l.held ⊆ l'.held → Known db₀ b l' →
      (∀ roomId, Seated b.id b.publicId b'.roomTimeId roomId l') → Q { b' with version := b'.version + 1, updatedAt := now } l') :
    (saveBooking b').wp windowDiscipline Q l := by
  refine wp_known h ?_
  rw [saveBooking, Txn.wp_bind, Txn.wp_reading]
  intro db₁ hr₁
  rw [Txn.wp_bind, Txn.wp_writing]
  intro db₂ hr₂ x _
  rw [Txn.wp_pure]
  refine ⟨Set.subset_union_left, fun hknown => hQ x.now _ (hr₁.trans hr₂ subset_rfl) Set.subset_union_left hknown fun roomId => ?_⟩
  have hrely : ∀ {db}, windowDiscipline.Rely (l.held ∪ {k | k ∈ [Key.booking b'.id]}) db₂ db → windowDiscipline.Rely l.held l.db db := fun hr =>
    (hr₁.trans hr₂ subset_rfl).trans hr Set.subset_union_left
  refine ⟨.inl h.locked, hl.roomTimes, fun db hr => ?_, fun db y hy hne => ?_, fun db y hy => ?_, fun db hr => ?_, fun db e he => .inl ((hl db).2 ▸ he)⟩
  · obtain ⟨y, hy, hby⟩ := h.stays (hrely hr)
    rw [← hl.bookings] at hy
    exact ⟨_, Table.mem_update_of_pos hy (decide_eq_true (hby.id.trans hid.symm)), hby.publicId, rfl⟩
  · rw [← hl.bookings] at hy
    exact Table.mem_update_of_neg hy (decide_eq_false fun heq => hne (heq.trans hid))
  · obtain ⟨z, hz, ⟨-, rfl⟩ | ⟨-, rfl⟩⟩ := Table.mem_update.1 hy
    · exact .inl rfl
    · exact .inr ⟨_, hl.bookings db ▸ hz, rfl⟩
  · exact (hentered db (hrely hr)).imp_left fun hk => .inl hk

/-! #### Before a booking is locked -/

/-- A call that has locked rows, and nothing more. -/
structure Untouched (l : Local Db Key) : Prop where
  inv : Housed l.db
  unwritten : Unwritten l
  unviewed : l.view = none

theorem untouched_start {db : Db} (hinv : Housed db) : Untouched ⟨∅, fun db => db, none, db⟩ := ⟨hinv, Silent.refl, rfl⟩

theorem wp_bookingSourceSnapshot_untouched {publicId : String} {Q : BookingSnapshot → Local Db Key → Prop} (h : Untouched l)
    (hQ : ∀ snapshot l', Untouched l' → Q snapshot l') : (bookingSourceSnapshot publicId).wp windowDiscipline Q l := by
  rw [bookingSourceSnapshot, Txn.wp_bind, Txn.wp_peeking]
  intro db hr
  rw [Txn.wp_orThrow]
  intro snapshot _
  exact hQ snapshot _ ⟨hr.1, h.unwritten, h.unviewed⟩

theorem wp_lockRoom_untouched {Q : Room → Local Db Key → Prop} (h : Untouched l) (hQ : ∀ room l', Untouched l' → Q room l') :
    (lockRoom roomId).wp windowDiscipline Q l := by
  rw [lockRoom, Txn.wp_bind]
  refine Txn.wp_locking_find (fun _ _ _ => ?_) fun db hr room _ _ => ?_
  · rw [Txn.wp_orThrow]
    rintro _ ⟨⟩
  · rw [Txn.wp_orThrow]
    rintro _ ⟨⟩
    exact hQ room _ ⟨hr.1, h.unwritten, h.unviewed⟩

theorem wp_lockRooms_untouched {roomIds : List ℕ} {Q : List Room → Local Db Key → Prop} (h : Untouched l)
    (hQ : ∀ rooms l', Untouched l' → Q rooms l') : (BookingsService.lockRooms roomIds).wp windowDiscipline Q l := by
  induction roomIds generalizing l Q with
  | nil => exact hQ [] l h
  | cons roomId roomIds ih =>
    rw [BookingsService.lockRooms, Txn.wp_bind]
    refine wp_lockRoom_untouched h fun room l₁ h₁ => ?_
    rw [Txn.wp_bind]
    exact ih h₁ fun rooms l₂ h₂ => hQ (room :: rooms) l₂ h₂

/-- A booking is locked. -/
theorem wp_lock_known {p : Booking → Bool} {e : AppError} {c : Booking → Tx α} {Q : α → Local Db Key → Prop} (h : Untouched l)
    (hQ : ∀ db b l', Housed l'.db → Unwritten l' → b ∈ db.bookings → Housed db → Known db b l' → (c b).wp windowDiscipline Q l') :
    (findLocked (·.bookings) (fun b => .booking b.id) p >>= fun o => Txn.orThrow o e >>= c).wp windowDiscipline Q l := by
  rw [Txn.wp_bind]
  refine Txn.wp_locking_find (fun _ _ _ => ?_) fun db hr b hb _ => ?_
  · rw [Txn.wp_bind, Txn.wp_orThrow]
    rintro _ ⟨⟩
  · rw [Txn.wp_bind, Txn.wp_orThrow]
    rintro _ ⟨⟩
    have hmem : b ∈ db.bookings := h.unwritten.bookings db ▸ hb
    refine hQ db b _ hr.1 h.unwritten hmem hr.1 ⟨.inr rfl, ⟨b, hmem, stays_of_roomTimes rfl b⟩, fun v hv => ?_⟩
    cases h.unviewed.symm.trans hv

/-- A booking that is inserted is put into a window that is locked. -/
theorem wp_insertBooking_seated {row : Supply → Booking} {t : RoomTime} {Q : Booking → Local Db Key → Prop} (hl : Unwritten l)
    (ht : t ∈ l.db.roomTimes) (hheld : .roomTime t.id ∈ l.held) (hid : ∀ x, (row x).id = x.id) (hwindow : ∀ x, (row x).roomTimeId = t.id)
    (hQ : ∀ x l', Housed l'.db → InWindow t.id t.roomId l' → (∀ roomId, Seated (row x).id (row x).publicId t.id roomId l') → Q (row x) l') :
    (insertBooking row).wp windowDiscipline Q l := by
  rw [insertBooking, Txn.wp_bind, Txn.wp_writing]
  intro db hr x _
  rw [Txn.wp_pure]
  refine hQ x _ hr.1 (fun db' hr' => inWindow_of_locked ht hheld db' (hr.trans hr' Set.subset_union_left)) fun roomId => ?_
  refine ⟨.inr ?_, hl.roomTimes, fun db' _ => ?_, fun db' y hy _ => ?_, fun db' y hy => ?_, fun _ _ => .inl (.inl hheld), fun db' e he => .inl ((hl db').2 ▸ he)⟩
  · rw [hid]
    exact List.mem_cons_self
  · exact ⟨_, List.mem_append_right _ (List.mem_singleton.2 rfl), rfl, hwindow x⟩
  · exact List.mem_append_left _ ((hl.bookings db').symm ▸ hy)
  · rcases List.mem_append.1 hy with hy | hy
    · exact .inr ⟨y, hl.bookings db' ▸ hy, rfl⟩
    · exact .inl (List.mem_singleton.1 hy ▸ hwindow x)

end Seated

/-! ### The calls -/

/-- A call, from any store, comes to where it may commit. -/
def Houses {α : Type} (c : Tx α) : Prop :=
  ∀ db, Housed db → c.wp windowDiscipline (fun _ => windowDiscipline.Ensures (fun _ => WindowStep) ()) ⟨∅, id, none, db⟩

section Calls

variable {α : Type} {l : Local Db Key}

/-- A booking that closes in its window: it is saved, its room is found, and that is told. -/
theorem wp_close_in_window {db₀ : Db} {b b' : Booking} {c : Booking → Tx α} (h : Known db₀ b l) (hl : Unwritten l)
    (hid : b'.id = b.id) (hpublicId : b'.publicId = b.publicId) (hwindow : b'.roomTimeId = b.roomTimeId)
    (hc : ∀ saved l', saved.publicId = b.publicId → saved.roomTimeId = b.roomTimeId → Housed l'.db → Known db₀ b l' →
      (∀ roomId, Seated b.id b.publicId b.roomTimeId roomId l') →
      (c saved).wp windowDiscipline (fun _ => windowDiscipline.Ensures (fun _ => WindowStep) ()) l') :
    (saveBooking b' >>= c).wp windowDiscipline (fun _ => windowDiscipline.Ensures (fun _ => WindowStep) ()) l := by
  rw [Txn.wp_bind]
  refine wp_saveBooking_seated h hl hid (fun db hr => .inr ?_) fun now l' hr _ hknown hseated => ?_
  · obtain ⟨y, hy, hby⟩ := h.stays hr
    exact ⟨y, hy, hby.window.trans hwindow.symm⟩
  · exact hc _ l' hpublicId hwindow hr.1 hknown fun roomId => hwindow ▸ hseated roomId

/-- The room is found, and told. -/
theorem wp_findRoomOfWindow_then {db₀ : Db} {b : Booking} {c : Room → Tx α} (h : Known db₀ b l)
    (hseated : ∀ roomId, Seated b.id b.publicId b.roomTimeId roomId l) (hc : ∀ room, (c room).Writes (Tells b.publicId room.id)) :
    (findRoomOfWindow b.roomTimeId >>= c).wp windowDiscipline (fun _ => windowDiscipline.Ensures (fun _ => WindowStep) ()) l := by
  rw [Txn.wp_bind]
  refine wp_findRoomOfWindow_known h (hseated 0).roomTimes fun room l' hr hheld hpend hknown hroom => ?_
  refine Seated.wp ((hseated room.id).after hr hheld.ge fun db => ?_) hr.1 (hknown.inWindow hroom) (hc room)
  rw [hpend]
  exact (Silent.refl _).tells

theorem cancelOwn_houses (cfg : Config) (actorUserId : ℕ) (publicId : String) : Houses (BookingsService.cancelOwn cfg actorUserId publicId) := by
  refine fun _ hstart => wp_lock_known (untouched_start hstart) fun db b l hinv hl hb hdb hknown => ?_
  split
  · exact wp_never (.pure _) hinv hl
  rw [Txn.wp_bind, Txn.wp_require]
  intro _
  refine wp_close_in_window hknown hl rfl rfl rfl fun saved l₁ hpublicId hwindow hinv₁ hknown₁ hseated₁ => ?_
  rw [Txn.wp_bind]
  refine wp_known hknown₁ <| Txn.wp_of_writes (D := windowDiscipline) Silent.refl (fun _ _ _ => Silent.trans) silent_insertStatusHistory hinv₁
    fun _ l₂ hr₂ hheld₂ hsilent => ⟨hheld₂, fun hknown₂ => ?_⟩
  have hseated₂ : ∀ roomId, Seated b.id b.publicId b.roomTimeId roomId l₂ := fun roomId =>
    (hseated₁ roomId).after hr₂ hheld₂ fun db => (hsilent db).tells
  rw [Txn.wp_bind, recordLifecycleByRoomTime]
  split
  · rw [hwindow]
    exact wp_findRoomOfWindow_then hknown₂ hseated₂ fun room => tells_record hpublicId rfl
  · obtain ⟨t, ht, hid⟩ := hdb.window b hb
    exact (hseated₂ t.roomId).ensures (hknown₂.inWindow ⟨t, ht, hid, rfl⟩)

theorem reject_houses (cfg : Config) (actorUserId : ℕ) (publicId reason : String) : Houses (BookingsService.reject cfg actorUserId publicId reason) := by
  intro _ hstart
  rw [BookingsService.reject, lockBooking]
  refine wp_lock_known (untouched_start hstart) fun db b l hinv hl hb hdb hknown => ?_
  split
  · exact wp_never (Txn.Writes.bind (.require _ _) fun _ => .pure _) hinv hl
  rw [Txn.wp_bind, Txn.wp_require]
  intro _
  refine wp_close_in_window hknown hl rfl rfl rfl fun saved l₁ hpublicId hwindow hinv₁ hknown₁ hseated₁ => ?_
  exact wp_findRoomOfWindow_then hknown₁ hseated₁ fun room => (tells_appendTransitionAndOutbox hpublicId).bind fun _ => .pure _

theorem cancelAdmin_houses (cfg : Config) (actorUserId : ℕ) (publicId reason : String) :
    Houses (BookingsService.cancelAdmin cfg actorUserId publicId reason) := by
  intro _ hstart
  rw [BookingsService.cancelAdmin, lockBooking]
  refine wp_lock_known (untouched_start hstart) fun db b l hinv hl hb hdb hknown => ?_
  split
  · exact wp_never (Txn.Writes.bind (.reading _) fun _ => Txn.Writes.bind (.require _ _) fun _ => .pure _) hinv hl
  rw [Txn.wp_bind, Txn.wp_require]
  intro _
  refine wp_close_in_window hknown hl rfl rfl rfl fun saved l₁ hpublicId hwindow hinv₁ hknown₁ hseated₁ => ?_
  exact wp_findRoomOfWindow_then hknown₁ hseated₁ fun room => tells_insertStatusHistory.bind fun _ =>
    Txn.Writes.bind (tells_record hpublicId rfl) fun _ => tells_insertOutbox.bind fun _ => .pure _

/-- The window of a booking that is locked is there. -/
theorem wp_lockRoomTime_unwritten {roomTimeId roomId : ℕ} {Q : Option RoomTime → Local Db Key → Prop} (hl : Unwritten l)
    (hnone : ∀ db, windowDiscipline.Rely l.held l.db db → Q none { l with db := db })
    (hQ : ∀ db, windowDiscipline.Rely l.held l.db db → ∀ t ∈ db.roomTimes, t.id = roomTimeId → t.roomId = roomId →
      Q (some t) { l with db := db, held := l.held ∪ {.roomTime t.id} }) : (lockRoomTime roomTimeId roomId).wp windowDiscipline Q l := by
  refine Txn.wp_locking_find (fun db hr _ => hnone db hr) fun db hr t ht hp => ?_
  have hp := of_decide_eq_true hp
  exact hQ db hr t (hl.roomTimes db ▸ ht) hp.1 hp.2

theorem approve_houses (cfg : Config) (actorUserId : ℕ) (publicId : String) : Houses (BookingsService.approve cfg actorUserId publicId) := by
  intro _ hstart
  rw [BookingsService.approve, Txn.wp_bind]
  refine wp_bookingSourceSnapshot_untouched (untouched_start hstart) fun snapshot l₁ h₁ => ?_
  rw [Txn.wp_bind]
  refine wp_lockRoom_untouched h₁ fun room l₂ h₂ => ?_
  rw [lockBooking]
  refine wp_lock_known h₂ fun db b l hinv hl hb hdb hknown => ?_
  split
  · exact wp_never (.pure _) hinv hl
  rw [Txn.wp_bind, Txn.wp_require]
  intro _
  rw [Txn.wp_bind, Txn.wp_require]
  intro _
  rw [Txn.wp_bind]
  refine wp_known hknown <| wp_lockRoomTime_unwritten hl (fun _ _ => ⟨subset_rfl, fun _ => ?_⟩) fun db₃ hr₃ t ht htid htroom => ⟨Set.subset_union_left, fun hknown₃ => ?_⟩
  · rw [Txn.wp_bind, Txn.wp_orThrow]
    rintro _ ⟨⟩
  rw [Txn.wp_bind, Txn.wp_orThrow]
  rintro _ ⟨⟩
  rw [Txn.wp_bind, Txn.wp_require]
  intro _
  rw [Txn.wp_bind]
  refine wp_known hknown₃ <| wp_unwritten writes_assertNoConfirmedOverlap hr₃.1 hl fun _ l₄ hr₄ hheld₄ hl₄ => ⟨hheld₄, fun hknown₄ => ?_⟩
  have hwindow : InWindow b.roomTimeId room.id l₄ := fun db' hr' => by
    have hthere := inWindow_of_locked (l := { l with db := db₃, held := l.held ∪ {Key.roomTime t.id} }) ht (.inr rfl) db' (hr₄.trans hr' hheld₄)
    rwa [htid, htroom] at hthere
  rw [Txn.wp_bind]
  refine wp_saveBooking_seated hknown₄ hl₄ rfl (fun db' hr' => .inr ?_) fun now l₅ hr₅ hheld₅ _ hseated₅ => ?_
  · obtain ⟨y, hy, hby⟩ := hknown₄.stays hr'
    exact ⟨y, hy, hby.window⟩
  refine (hseated₅ room.id).wp hr₅.1 (fun db' hr' => hwindow db' (hr₅.trans hr' hheld₅)) ?_
  exact (tells_appendTransitionAndOutbox rfl).bind fun _ => .pure _

/-- The window that is locked is there. -/
theorem wp_lockContainingWindow_unwritten {roomId : ℕ} {checkIn checkOut : String} {Q : RoomTime → Local Db Key → Prop} (hl : Unwritten l)
    (hQ : ∀ db, windowDiscipline.Rely l.held l.db db → ∀ t ∈ db.roomTimes, t.roomId = roomId →
      Q t { l with db := db, held := l.held ∪ {.roomTime t.id} }) : (lockContainingWindow roomId checkIn checkOut).wp windowDiscipline Q l := by
  rw [lockContainingWindow, Txn.wp_bind, Txn.wp_locking]
  intro db hr
  rw [Txn.wp_orThrow]
  intro t ht
  have hmem := mem_of_containingWindow ht
  rw [hl.roomTimes] at hmem
  have hheld : {k | k ∈ (containingWindow (l.pend db) roomId checkIn checkOut).toList.map fun t => Key.roomTime t.id} = {Key.roomTime t.id} := by
    ext k
    simp [ht]
  rw [hheld]
  exact hQ db hr t hmem.1 hmem.2.1

theorem updateAdmin_houses (cfg : Config) (today : String) (actorUserId : ℕ) (publicId : String) (expectedVersion : ℕ)
    (body : BookingsService.UpdateBookingDto) : Houses (BookingsService.updateAdmin cfg today actorUserId publicId expectedVersion body) := by
  intro _ hstart
  rw [BookingsService.updateAdmin, Txn.wp_bind]
  refine wp_bookingSourceSnapshot_untouched (untouched_start hstart) fun snapshot l₁ h₁ => ?_
  rw [Txn.wp_bind, Txn.wp_require]
  intro _
  rw [Txn.wp_bind]
  refine wp_lockRooms_untouched h₁ fun rooms l₂ h₂ => ?_
  rw [lockBooking]
  refine wp_lock_known h₂ fun db b l hinv hl hb hdb hknown => ?_
  rw [Txn.wp_bind, Txn.wp_require]
  intro _
  rw [Txn.wp_bind, Txn.wp_require]
  intro _
  rw [Txn.wp_bind]
  refine wp_known hknown <| wp_unwritten writes_findLocked hinv hl fun sourceWindow l₃ hr₃ hheld₃ hl₃ => ⟨hheld₃, fun hknown₃ => ?_⟩
  rw [Txn.wp_bind, Txn.wp_require]
  intro _
  rw [Txn.wp_bind, Txn.wp_require]
  intro _
  rw [Txn.wp_bind, Txn.wp_require]
  intro _
  rw [Txn.wp_bind, Txn.wp_require]
  intro _
  rw [Txn.wp_bind, Txn.wp_orThrow]
  intro destination hdestination
  rw [Txn.wp_bind, Txn.wp_require]
  intro _
  rw [Txn.wp_bind]
  refine wp_known hknown₃ <| wp_lockContainingWindow_unwritten hl₃ fun db₄ hr₄ t ht htroom => ⟨Set.subset_union_left, fun hknown₄ => ?_⟩
  rw [Txn.wp_bind]
  refine wp_known hknown₄ <| wp_unwritten (.when _ writes_assertNoConfirmedOverlap) hr₄.1 hl₃ fun _ l₅ hr₅ hheld₅ hl₅ => ⟨hheld₅, fun hknown₅ => ?_⟩
  have hheld : Key.roomTime t.id ∈ l₅.held := hheld₅ (.inr rfl)
  have hdestinationId : destination.id = t.roomId := by
    rw [htroom]
    exact of_decide_eq_true (List.find?_some (p := fun r : Room => decide (r.id = body.roomId.getD snapshot.roomId)) hdestination)
  have hwindow : InWindow t.id destination.id l₅ := fun db' hr' => by
    rw [hdestinationId]
    exact inWindow_of_locked (l := { l₃ with db := db₄, held := l₃.held ∪ {Key.roomTime t.id} }) ht (.inr rfl) db' (hr₅.trans hr' hheld₅)
  rw [Txn.wp_bind]
  refine wp_saveBooking_seated hknown₅ hl₅ rfl (fun _ _ => .inl hheld) fun now l₆ hr₆ hheld₆ _ hseated₆ => ?_
  refine (hseated₆ destination.id).wp hr₆.1 (fun db' hr' => hwindow db' (hr₆.trans hr' hheld₆)) ?_
  exact Txn.Writes.bind (.writing fun _ _ => (Silent.tells ⟨rfl, rfl⟩)) fun _ => Txn.Writes.bind (.orThrow _ _) fun _ =>
    Txn.Writes.bind (tells_record rfl rfl) fun _ => tells_insertOutbox.bind fun _ => .pure _

theorem create_houses (cfg : Config) (today : String) (actorUserId : ℕ) (idempotencyKey : Option String) (input : BookingCreateInput) :
    Houses (BookingsService.create cfg today actorUserId idempotencyKey input) := by
  intro db hinv
  rw [BookingsService.create, Txn.wp_bind, Txn.wp_orThrow]
  intro key _
  have hlock : (IdempotencyRepository.lock cfg actorUserId bookingCreateOperation key (bookingCreateFingerprint cfg actorUserId input)).Writes
      Silent := by
    refine Txn.Writes.bind (.writing fun x db => ?_) fun _ => writes_findLocked.bind fun _ =>
      Txn.Writes.bind (.orThrow _ _) fun _ => Txn.Writes.bind (.require _ _) fun _ => .pure _
    split <;> exact ⟨rfl, rfl⟩
  rw [BookingsService.createInTransaction, Txn.wp_bind]
  refine wp_unwritten hlock hinv Silent.refl fun row l₁ hr₁ _ hl₁ => ?_
  split
  · exact hl₁.ensures
  rw [Txn.wp_bind, Txn.wp_require]
  intro _
  rw [Txn.wp_bind, BookingsService.lockBookingTarget, Txn.wp_bind]
  refine wp_unwritten writes_lockRoom hr₁.1 hl₁ fun room l₂ hr₂ _ hl₂ => ?_
  rw [Txn.wp_bind, Txn.wp_require]
  intro _
  rw [Txn.wp_bind]
  refine wp_lockContainingWindow_unwritten hl₂ fun db₃ hr₃ t ht htroom => ?_
  rw [Txn.wp_pure, Txn.wp_bind, Txn.wp_require]
  intro _
  rw [Txn.wp_bind, BookingsService.createPendingBooking, Txn.wp_bind]
  refine wp_insertBooking_seated hl₂ ht (.inr rfl) (fun _ => rfl) (fun _ => rfl) fun x l₄ hinv₄ hwindow hseated => ?_
  rw [htroom] at hwindow
  rw [Txn.wp_bind]
  refine Txn.wp_of_writes (D := windowDiscipline) Silent.refl (fun _ _ _ => Silent.trans) silent_insertStatusHistory hinv₄
    fun _ l₅ hr₅ hheld₅ hsilent => ?_
  refine ((hseated room.id).after hr₅ hheld₅ fun db => (hsilent db).tells).wp hr₅.1 (fun db' hr' => hwindow db' (hr₅.trans hr' hheld₅)) ?_
  exact Txn.Writes.bind (tells_record rfl rfl) fun _ => writes_findOneOrFail.bind fun _ =>
    Txn.Writes.bind (.writing fun _ _ => Silent.tells ⟨rfl, rfl⟩) fun _ => .pure _

/-! ### Windows -/

/-- A window that is there has been locked. -/
theorem wp_findLockedRoomTime_unwritten {roomId roomTimeId : ℕ} {Q : RoomTime → Local Db Key → Prop} (hl : Unwritten l)
    (hQ : ∀ db, windowDiscipline.Rely l.held l.db db → ∀ t ∈ db.roomTimes, t.id = roomTimeId →
      Q t { l with db := db, held := l.held ∪ {.roomTime t.id} }) :
    (findLockedRoomTime roomId roomTimeId).wp windowDiscipline Q l := by
  rw [findLockedRoomTime, Txn.wp_bind]
  refine Txn.wp_locking_find (fun _ _ _ => ?_) fun db hr t ht hp => ?_
  · rw [Txn.wp_orThrow]
    rintro _ ⟨⟩
  · rw [Txn.wp_orThrow]
    rintro _ ⟨⟩
    exact hQ db hr t (hl.roomTimes db ▸ ht) (of_decide_eq_true hp).1

/-- Windows are changed under their locks; the bookings stay, and nothing is told. -/
theorem ensures_of_windows {l : Local Db Key} (hbookings : ∀ db, (l.pend db).bookings = db.bookings)
    (hevents : ∀ db, (l.pend db).outboxEvents = db.outboxEvents)
    (hids : ∀ db, windowDiscipline.Rely l.held l.db db → Table.UniqueBy (·.id) (l.pend db).roomTimes)
    (hkept : ∀ db, windowDiscipline.Rely l.held l.db db → ∀ b ∈ db.bookings, ∀ t ∈ db.roomTimes, t.id = b.roomTimeId →
      ∃ u ∈ (l.pend db).roomTimes, u.id = t.id)
    (hlocked : ∀ db, ∀ id, .roomTime id ∉ l.held → ∀ t : RoomTime, t.id = id → (t ∈ db.roomTimes ↔ t ∈ (l.pend db).roomTimes))
    (hrooms : ∀ db, windowDiscipline.Rely l.held l.db db → SameRooms db (l.pend db)) :
    windowDiscipline.Ensures (fun _ => WindowStep) () l := by
  intro db hr
  have hinv : Housed (l.pend db) := by
    refine ⟨hids db hr, fun b hb => ?_⟩
    rw [hbookings] at hb
    obtain ⟨t, ht, hid⟩ := hr.1.window b hb
    obtain ⟨u, hu, huid⟩ := hkept db hr b hb t ht hid
    exact ⟨u, hu, huid.trans hid⟩
  refine ⟨hinv, fun k hk => ?_, hrooms db hr, fun e he => .inl (hevents db ▸ he)⟩
  show WindowsKept k db (l.pend db)
  unfold WindowsKept
  split
  case h_1 id => exact ⟨hlocked db id hk, fun y hy hid => ⟨y, hbookings db ▸ hy, hid⟩⟩
  case h_2 id =>
    intro x hx hid
    have hx' : x ∈ (l.pend db).bookings := (hbookings db).symm ▸ hx
    exact ⟨x, hx', rfl, rfl, rfl, inRoom_of_sameRooms hr.1 hinv (hrooms db hr) hx hx' rfl⟩
  case h_3 => trivial

theorem createRoomTime_houses (roomId : ℕ) (body : CreateRoomTimeDto) : Houses (RoomTimesService.create roomId body) := by
  intro db hinv
  rw [RoomTimesService.create, Txn.wp_bind, Txn.wp_ofExcept]
  intro _ _
  rw [Txn.wp_bind]
  refine wp_unwritten writes_lockRoom hinv Silent.refl fun room l₁ hr₁ _ hl₁ => ?_
  rw [Txn.wp_bind]
  refine wp_unwritten writes_assertNoActiveOverlap hr₁.1 hl₁ fun _ l₂ hr₂ _ hl₂ => ?_
  rw [Txn.wp_bind, insertRoomTime, Txn.wp_bind, Txn.wp_writing]
  intro db₃ hr₃ x hok
  rw [Txn.wp_pure, Txn.wp_pure]
  have hroomTimes : ∀ db, (l₂.pend db).roomTimes = db.roomTimes := hl₂.roomTimes
  have hfree : ∀ db, windowDiscipline.Rely (l₂.held ∪ {k | k ∈ [Key.roomTime x.id]}) db₃ db → ∀ t ∈ db.roomTimes, t.id ≠ x.id := by
    intro db hr t ht hid
    have hold := ((hr.2 (.roomTime x.id) (.inr List.mem_cons_self)).1 t hid).2 ht
    rw [hroomTimes] at hok
    exact Nat.ne_of_lt (of_decide_eq_true (List.all_eq_true.1 hok t hold)) hid
  refine ensures_of_windows hl₂.bookings (fun db => (hl₂ db).2) (fun db hr => ?_) (fun db hr b _ t ht _ => ?_) (fun db id hid t ht => ?_)
    fun db hr t ht u hu hid => ?_
  · show Table.UniqueBy _ ((l₂.pend db).roomTimes ++ [_])
    rw [hroomTimes]
    exact hr.1.ids.insert fun t ht => hfree db hr t ht
  · refine ⟨t, ?_, rfl⟩
    show t ∈ (l₂.pend db).roomTimes ++ [_]
    rw [hroomTimes]
    exact List.mem_append_left _ ht
  · show t ∈ db.roomTimes ↔ t ∈ (l₂.pend db).roomTimes ++ [_]
    rw [hroomTimes, List.mem_append, List.mem_singleton]
    refine ⟨.inl, fun hmem => hmem.resolve_right fun heq => hid (.inr ?_)⟩
    rw [← ht, heq]
    exact List.mem_cons_self
  · have hmem : u ∈ (l₂.pend db).roomTimes ++ [_] := hu
    rw [hroomTimes, List.mem_append, List.mem_singleton] at hmem
    rcases hmem with hu | rfl
    · rw [hr.1.ids u hu t ht hid]
    · exact absurd hid.symm (hfree db hr t ht)

theorem updateRoomTime_houses (roomId roomTimeId : ℕ) (body : UpdateRoomTimeDto) : Houses (RoomTimesService.update roomId roomTimeId body) := by
  intro db hinv
  rw [RoomTimesService.update, Txn.wp_bind, Txn.wp_require]
  intro _
  rw [Txn.wp_bind]
  refine wp_unwritten writes_lockRoom hinv Silent.refl fun room l₁ hr₁ _ hl₁ => ?_
  rw [Txn.wp_bind]
  refine wp_findLockedRoomTime_unwritten hl₁ fun db₂ hr₂ t ht _ => ?_
  rw [Txn.wp_bind]
  refine wp_unwritten writes_loadUsage hr₂.1 hl₁ fun usage l₃ hr₃ hheld₃ hl₃ => ?_
  rw [Txn.wp_bind, Txn.wp_ofExcept]
  intro _ _
  rw [Txn.wp_bind]
  refine wp_unwritten writes_assertNoActiveOverlap hr₃.1 hl₃ fun _ l₄ hr₄ hheld₄ hl₄ => ?_
  rw [Txn.wp_bind, saveRoomTime, Txn.wp_bind, Txn.wp_reading]
  intro db₅ hr₅
  rw [Txn.wp_bind, Txn.wp_writing]
  intro db₆ hr₆ x _
  rw [Txn.wp_pure, Txn.wp_pure]
  have hroomTimes : ∀ db, (l₄.pend db).roomTimes = db.roomTimes := hl₄.roomTimes
  have hheld : Key.roomTime t.id ∈ l₄.held := hheld₄ (hheld₃ (.inr rfl))
  refine ensures_of_windows hl₄.bookings (fun db => (hl₄ db).2) (fun db hr => ?_) (fun db hr b _ u hu _ => ?_) (fun db id hid u hu => ?_)
    fun db hr u hu v hv hid => ?_
  · show Table.UniqueBy _ (Table.update (l₄.pend db).roomTimes _ _)
    rw [hroomTimes]
    exact hr.1.ids.update fun _ => rfl
  · show ∃ v ∈ Table.update (l₄.pend db).roomTimes _ _, _
    rw [hroomTimes]
    by_cases hsame : u.id = t.id
    · exact ⟨_, Table.mem_update_of_pos hu (decide_eq_true hsame), rfl⟩
    · exact ⟨u, Table.mem_update_of_neg hu (decide_eq_false hsame), rfl⟩
  · show u ∈ db.roomTimes ↔ u ∈ Table.update (l₄.pend db).roomTimes _ _
    have hne : u.id ≠ t.id := fun heq => hid (.inl (hu.symm.trans heq ▸ hheld))
    rw [hroomTimes, Table.mem_update]
    constructor
    · exact fun hmem => ⟨u, hmem, .inr ⟨decide_eq_false hne, rfl⟩⟩
    · rintro ⟨v, hv, ⟨hvid, rfl⟩ | ⟨-, rfl⟩⟩
      · exact absurd (of_decide_eq_true hvid) hne
      · exact hv
  · have hmem : v ∈ Table.update (l₄.pend db).roomTimes _ _ := hv
    rw [hroomTimes, Table.mem_update] at hmem
    obtain ⟨w, hw, ⟨-, rfl⟩ | ⟨-, rfl⟩⟩ := hmem
    · rw [← hr.1.ids w hw u hu hid]
    · rw [hr.1.ids w hw u hu hid]

theorem deleteRoomTime_houses (roomId roomTimeId : ℕ) : Houses (RoomTimesService.delete roomId roomTimeId) := by
  intro db hinv
  rw [RoomTimesService.delete, Txn.wp_bind]
  refine wp_unwritten writes_lockRoom hinv Silent.refl fun room l₁ hr₁ _ hl₁ => ?_
  rw [Txn.wp_bind]
  refine wp_findLockedRoomTime_unwritten hl₁ fun db₂ hr₂ t ht _ => ?_
  rw [Txn.wp_bind]
  refine wp_unwritten writes_loadUsage hr₂.1 hl₁ fun usage l₃ hr₃ hheld₃ hl₃ => ?_
  rw [Txn.wp_bind, Txn.wp_ofExcept]
  intro _ _
  rw [removeRoomTime, Txn.wp_bind, Txn.wp_locking]
  intro db₄ hr₄
  rw [Txn.wp_bind, Txn.wp_require]
  intro _
  rw [Txn.wp_bind, Txn.wp_writing]
  intro db₅ hr₅ x hok
  rw [Txn.wp_pure]
  have hroomTimes : ∀ db, (l₃.pend db).roomTimes = db.roomTimes := hl₃.roomTimes
  have hbookings : ∀ db, (l₃.pend db).bookings = db.bookings := hl₃.bookings
  have hheld : Key.roomTime t.id ∈ l₃.held := hheld₃ (.inr rfl)
  -- nobody has come to refer to the window since the foreign key was checked
  have hfree : ∀ db, windowDiscipline.Rely l₃.held db₅ db → ∀ b ∈ db.bookings, b.roomTimeId ≠ t.id := by
    intro db hr b hb hid
    obtain ⟨y, hy, hyid⟩ := (hr.2 (.roomTime t.id) hheld).2 b hb hid
    rw [isReferenced, Bool.not_eq_true', Bool.or_eq_false_iff, hbookings] at hok
    have hnone := List.any_eq_false.1 hok.1 y hy
    exact hnone (decide_eq_true hyid)
  refine ensures_of_windows hbookings (fun db => (hl₃ db).2) (fun db hr => ?_) (fun db hr b hb u hu hub => ?_) (fun db id hid u hu => ?_) fun db hr u hu v hv hid => ?_
  · show Table.UniqueBy _ (Table.delete (l₃.pend db).roomTimes _)
    rw [hroomTimes]
    exact hr.1.ids.delete
  · refine ⟨u, ?_, rfl⟩
    show u ∈ Table.delete (l₃.pend db).roomTimes _
    rw [hroomTimes, Table.mem_delete]
    have hrely : windowDiscipline.Rely l₃.held db₅ db := ⟨hr.1, fun k hk => hr.2 k (.inl (.inl hk))⟩
    exact ⟨hu, decide_eq_false fun heq => hfree db hrely b hb (hub.symm.trans heq)⟩
  · show u ∈ db.roomTimes ↔ u ∈ Table.delete (l₃.pend db).roomTimes _
    have hne : u.id ≠ t.id := fun heq => hid (.inl (.inl (hu.symm.trans heq ▸ hheld)))
    rw [hroomTimes, Table.mem_delete]
    exact ⟨fun hmem => ⟨hmem, decide_eq_false hne⟩, And.left⟩
  · have hmem : v ∈ Table.delete (l₃.pend db).roomTimes _ := hv
    rw [hroomTimes, Table.mem_delete] at hmem
    rw [hr.1.ids v hmem.1 u hu hid]

/-! ### Every interleaving -/

theorem Houses.answer {c : Tx α} (h : Houses c) (f : α → Answer) (db : Db) (hinv : windowDiscipline.Inv db) :
    (c >>= fun a => pure (f a) : Tx Answer).wp windowDiscipline (windowDiscipline.Ensures fun _ => WindowStep) ⟨∅, id, none, db⟩ := by
  rw [Txn.wp_bind]
  exact h db hinv

theorem run_houses (cfg : Config) (call : Call) (db : Db) (hinv : windowDiscipline.Inv db) :
    (call.run cfg).wp windowDiscipline (windowDiscipline.Ensures fun _ => WindowStep) ⟨∅, id, none, db⟩ := by
  cases call with
  | create today actor key input => exact (create_houses cfg today actor key input).answer _ db hinv
  | approve actor publicId => exact (approve_houses cfg actor publicId).answer _ db hinv
  | reject actor publicId reason => exact (reject_houses cfg actor publicId reason).answer _ db hinv
  | updateAdmin today actor publicId version body => exact (updateAdmin_houses cfg today actor publicId version body).answer _ db hinv
  | cancelOwn actor publicId => exact (cancelOwn_houses cfg actor publicId).answer _ db hinv
  | cancelAdmin actor publicId reason => exact (cancelAdmin_houses cfg actor publicId reason).answer _ db hinv
  | createRoomTime roomId body => exact (createRoomTime_houses roomId body).answer _ db hinv
  | updateRoomTime roomId roomTimeId body => exact (updateRoomTime_houses roomId roomTimeId body).answer _ db hinv
  | deleteRoomTime roomId roomTimeId => exact (deleteRoomTime_houses roomId roomTimeId).answer _ db hinv

/-- In every state that any calls can reach, windows are kept by their rooms and bookings. -/
theorem housed_of_reachable {cfg : Config} {C : Sys Db Key Supply AppError Answer Call → Act Supply Call → Prop}
    {s : Sys Db Key Supply AppError Answer Call} (h : (bookingSystem cfg).Reachable C s) :
    Sys.Promised windowDiscipline (fun _ _ => WindowStep) s := by
  refine promised_of_reachable ?_ (run_houses cfg) h
  rintro db ⟨roomTypes, rooms, rfl⟩
  exact ⟨fun _ hmem => absurd hmem List.not_mem_nil, fun _ hmem => absurd hmem List.not_mem_nil⟩

end Calls
end HotelBackend.Bookings
