import HotelBackend.Theory.Guarantees
import HotelBackend.Theory.Writes
import HotelBackend.Bookings.EventKeys

/-!
# A booking call in the middle

A call either has written none of the tables that tell of bookings (`Idle`), or it has written one booking and
rows that belong to it (`Recording`): the booking is its own to write, the rows continue the history under its
lock, and the events have keys that nobody else has. So its commit is one write (`BookingTables.write`), and the
discipline lets it (`Recording.commit`). One lemma for each statement says how it moves between the two.
-/

namespace HotelBackend.Bookings

open HotelBackend.Common
open HotelBackend.Theory
open HotelBackend.Theory.Transactions
open HotelBackend.Rooms
open HotelBackend.Outbox

/-! ### The tables -/

/-- The bookings, and what is told of them. -/
structure BookingTables where
  bookings : List Booking
  statusHistory : List BookingStatusHistory
  changeHistory : List BookingChangeHistory
  outboxEvents : List OutboxEvent
  rooms : List Room

def Db.tables (db : Db) : BookingTables := ⟨db.bookings, db.statusHistory, db.changeHistory, db.outboxEvents, db.rooms⟩

/-- The unique keys. -/
structure Keyed (t : BookingTables) : Prop where
  ids : Table.UniqueBy (·.id) t.bookings
  publicIds : (t.bookings.map (·.publicId)).Nodup
  events : (t.outboxEvents.map (·.idempotencyKey)).Nodup

/-- What a call may do to what is under a key that it does not hold. -/
def TablesKept (k : Key) (a b : BookingTables) : Prop :=
  match k with
  | .booking id => (∀ r, r.id = id → (r ∈ a.bookings ↔ r ∈ b.bookings)) ∧
      ∀ h ∈ b.statusHistory, h.bookingId = id → h ∈ a.statusHistory
  | .publicId publicId => ∀ r ∈ b.bookings, r.publicId = publicId → ∃ r' ∈ a.bookings, r'.publicId = publicId
  | .outboxKey key => ∀ e ∈ b.outboxEvents, e.idempotencyKey = key → e ∈ a.outboxEvents
  | _ => True

theorem TablesKept.refl (k : Key) (a : BookingTables) : TablesKept k a a := by
  unfold TablesKept
  split
  · exact ⟨fun _ _ => Iff.rfl, fun _ h _ => h⟩
  · exact fun r hr hid => ⟨r, hr, hid⟩
  · exact fun _ he _ => he
  · trivial

theorem TablesKept.trans {k : Key} {a b c : BookingTables} (hab : TablesKept k a b) (hbc : TablesKept k b c) : TablesKept k a c := by
  unfold TablesKept at *
  split at hab
  · exact ⟨fun r hr => (hab.1 r hr).trans (hbc.1 r hr), fun h hh hid => hab.2 h (hbc.2 h hh hid) hid⟩
  · intro r hr hid
    obtain ⟨r', hr', hid'⟩ := hbc r hr hid
    exact hab r' hr' hid'
  · exact fun e he hkey => hab e (hbc e he hkey) hkey
  · trivial

/-- What the calls agree on, in a hotel of these rooms. -/
def recordDiscipline (rooms : List Room) : Discipline Db Key where
  Inv db := Keyed db.tables ∧ db.rooms = rooms
  Keeps k a b := TablesKept k a.tables b.tables
  refl k db := .refl k db.tables
  trans _ _ _ _ hab hbc := hab.trans hbc

/-! ### Drafts -/

/-- What a call makes of the table of bookings. -/
inductive Draft where
  | created (b : Booking)
  | saved (old new : Booking)

namespace Draft

def id : Draft → ℕ
  | created b => b.id
  | saved old _ => old.id

def apply : Draft → List Booking → List Booking
  | created b, rows => rows ++ [b]
  | saved old new, rows => Table.update rows (·.id = old.id) fun _ => new

/-- The locks of the draft. -/
def keys : Draft → List Key
  | created b => [.booking b.id, .publicId b.publicId]
  | saved old _ => [.booking old.id]

/-- The booking is the call's own to write: nobody else has its ids, or it is there. -/
def Own (t : BookingTables) : Draft → Prop
  | created b => ∀ r ∈ t.bookings, r.id ≠ b.id ∧ r.publicId ≠ b.publicId
  | saved old new => old ∈ t.bookings ∧ new.id = old.id ∧ new.publicId = old.publicId

theorem mem_keys (d : Draft) : .booking d.id ∈ d.keys := by
  cases d <;> exact List.mem_cons_self

end Draft

/-- The rows a call adds to the other tables. -/
structure Rows where
  status : List BookingStatusHistory
  change : List BookingChangeHistory
  events : List OutboxEvent

def Rows.none : Rows := ⟨[], [], []⟩

namespace Rows

def addStatus (r : Rows) (row : BookingStatusHistory) : Rows := { r with status := r.status ++ [row] }

def addChange (r : Rows) (row : BookingChangeHistory) : Rows := { r with change := r.change ++ [row] }

def addEvents (r : Rows) (events : List OutboxEvent) : Rows := { r with events := r.events ++ events }

end Rows

/-- The tables with the draft and the rows. -/
def BookingTables.write (t : BookingTables) (d : Draft) (r : Rows) : BookingTables :=
  ⟨d.apply t.bookings, t.statusHistory ++ r.status, t.changeHistory ++ r.change, t.outboxEvents ++ r.events, t.rooms⟩

/-- The rows fit the tables: the history goes on, and the events have new keys. -/
structure Fits (t : BookingTables) (d : Draft) (r : Rows) : Prop where
  status : ∀ h ∈ t.statusHistory, h.bookingId = d.id → ∀ h' ∈ r.status, h.id < h'.id
  own : ∀ h ∈ r.status, h.bookingId = d.id
  events : ∀ e ∈ r.events, ∀ e' ∈ t.outboxEvents, e'.idempotencyKey ≠ e.idempotencyKey
  distinct : (r.events.map (·.idempotencyKey)).Nodup

theorem fits_none {t : BookingTables} {d : Draft} : Fits t d .none where
  status _ _ _ _ hh := absurd hh List.not_mem_nil
  own _ hh := absurd hh List.not_mem_nil
  events _ he := absurd he List.not_mem_nil
  distinct := List.nodup_nil

section Recording

variable {rooms : List Room}

/-- The middle of a call that has written the draft and the rows. -/
structure Recording (rooms : List Room) (d : Draft) (r : Rows) (l : Local Db Key) : Prop where
  inv : (recordDiscipline rooms).Inv l.db
  locked : ∀ k ∈ d.keys, k ∈ l.held
  own : d.Own l.db.tables
  eventsLocked : ∀ e ∈ r.events, .outboxKey e.idempotencyKey ∈ l.held
  fits : Fits l.db.tables d r
  pend : ∀ db, (recordDiscipline rooms).Rely l.held l.db db → (l.pend db).tables = db.tables.write d r
  pendRooms : ∀ db, (l.pend db).rooms = db.rooms
  viewed : ∀ v, l.view = some v → (recordDiscipline rooms).Inv v

namespace Recording

variable {d : Draft} {r : Rows} {l l' : Local Db Key}

theorem booking_iff_of_rely {held : Set Key} {a b : Db} (hr : (recordDiscipline rooms).Rely held a b) {id : ℕ} (hk : .booking id ∈ held)
    {x : Booking} (hx : x.id = id) : x ∈ a.bookings ↔ x ∈ b.bookings := (hr.2 _ hk).1 x hx

theorem status_of_rely {held : Set Key} {a b : Db} (hr : (recordDiscipline rooms).Rely held a b) {id : ℕ} (hk : .booking id ∈ held)
    {h : BookingStatusHistory} (hh : h ∈ b.statusHistory) (hid : h.bookingId = id) : h ∈ a.statusHistory := (hr.2 _ hk).2 h hh hid

theorem event_of_rely {held : Set Key} {a b : Db} (hr : (recordDiscipline rooms).Rely held a b) {key : String} (hk : .outboxKey key ∈ held)
    {e : OutboxEvent} (he : e ∈ b.outboxEvents) (hkey : e.idempotencyKey = key) : e ∈ a.outboxEvents := hr.2 _ hk e he hkey

theorem own_of_rely (h : Recording rooms d r l) {db : Db} (hr : (recordDiscipline rooms).Rely l.held l.db db) : d.Own db.tables := by
  have hown := h.own
  have hbooking := h.locked _ d.mem_keys
  cases d with
  | created b =>
    refine fun x hx => ⟨fun hid => ?_, fun hid => ?_⟩
    · exact (hown x ((booking_iff_of_rely hr hbooking hid).2 hx)).1 hid
    · obtain ⟨x', hx', hid'⟩ := hr.2 _ (h.locked (.publicId b.publicId) (List.mem_cons_of_mem _ List.mem_cons_self)) x hx hid
      exact (hown x' hx').2 hid'
  | saved old new => exact ⟨(booking_iff_of_rely hr hbooking rfl).1 hown.1, hown.2⟩

theorem fits_of_rely (h : Recording rooms d r l) {db : Db} (hr : (recordDiscipline rooms).Rely l.held l.db db) : Fits db.tables d r where
  status x hx hid := h.fits.status x (status_of_rely hr (h.locked _ d.mem_keys) hx hid) hid
  own := h.fits.own
  events e he e' he' hkey := h.fits.events e he e' (event_of_rely hr (h.eventsLocked e he) he' hkey) hkey
  distinct := h.fits.distinct

/-- Others move, and the call writes something else. -/
theorem still (h : Recording rooms d r l) (hr : (recordDiscipline rooms).Rely l.held l.db l'.db) (hheld : l.held ⊆ l'.held)
    (hpend : ∀ db, (l'.pend db).tables = (l.pend db).tables) (hview : ∀ v, l'.view = some v → (recordDiscipline rooms).Inv v) :
    Recording rooms d r l' where
  inv := hr.1
  locked k hk := hheld (h.locked k hk)
  own := h.own_of_rely hr
  eventsLocked e he := hheld (h.eventsLocked e he)
  fits := h.fits_of_rely hr
  pend db hr' := by
    rw [hpend]
    exact h.pend db (hr.trans hr' hheld)
  pendRooms db := (congrArg BookingTables.rooms (hpend db)).trans (h.pendRooms db)
  viewed := hview

/-- It adds more rows. -/
theorem add (h : Recording rooms d r l) {db : Db} (hr : (recordDiscipline rooms).Rely l.held l.db db) {ks : Set Key} {u : Db → Db} {r' : Rows}
    {status : List BookingStatusHistory} {change : List BookingChangeHistory} {events : List OutboxEvent}
    (hstatus : r'.status = r.status ++ status) (hchange : r'.change = r.change ++ change) (hevents : r'.events = r.events ++ events)
    (hlocked : ∀ e ∈ events, .outboxKey e.idempotencyKey ∈ l.held ∪ ks) (hfits : Fits db.tables d r')
    (hu : ∀ s, (u s).tables = ⟨s.bookings, s.statusHistory ++ status, s.changeHistory ++ change, s.outboxEvents ++ events, s.rooms⟩) :
    Recording rooms d r' { l with db := db, held := l.held ∪ ks, pend := u ∘ l.pend } where
  inv := hr.1
  locked k hk := .inl (h.locked k hk)
  own := h.own_of_rely hr
  eventsLocked e he := by
    rw [hevents] at he
    rcases List.mem_append.1 he with he | he
    · exact .inl (h.eventsLocked e he)
    · exact hlocked e he
  fits := hfits
  pend db' hr' := by
    have hpend := h.pend db' (hr.trans hr' Set.subset_union_left)
    show (u (l.pend db')).tables = _
    rw [hu]
    simp only [Db.tables, BookingTables.write, BookingTables.mk.injEq] at hpend
    obtain ⟨hb, hs, hc, he, hrooms⟩ := hpend
    rw [hb, hs, hc, he, hrooms, List.append_assoc, List.append_assoc, List.append_assoc, ← hstatus, ← hchange, ← hevents]
    rfl
  pendRooms db' := (congrArg BookingTables.rooms (hu (l.pend db'))).trans (h.pendRooms db')
  viewed := h.viewed

end Recording

/-- A call that has written none of the tables. -/
structure Idle (rooms : List Room) (l : Local Db Key) : Prop where
  inv : (recordDiscipline rooms).Inv l.db
  pend : ∀ db, (l.pend db).tables = db.tables
  viewed : ∀ v, l.view = some v → (recordDiscipline rooms).Inv v

/-- None of the tables is written. -/
def SameTables (a b : Db) : Prop := b.tables = a.tables

theorem SameTables.refl (a : Db) : SameTables a a := rfl

theorem SameTables.trans {a b c : Db} (hab : SameTables a b) (hbc : SameTables b c) : SameTables a c := Eq.trans hbc hab

section Statements

variable {α : Type} {Q : α → Local Db Key → Prop} {l : Local Db Key} {d : Draft} {r : Rows}

theorem wp_idle {c : Tx α} (hc : c.Writes SameTables) (h : Idle rooms l) (hQ : ∀ a l', Idle rooms l' → Q a l') :
    c.wp (recordDiscipline rooms) Q l :=
  Txn.wp_viewed c h.inv h.viewed (fun _ hr => hr.1) <| Txn.wp_of_writes SameTables.refl (fun _ _ _ => SameTables.trans) hc h.inv fun a l' hr _ hsame _ hview =>
    hQ a l' ⟨hr.1, fun db => Eq.trans (hsame db) (h.pend db), hview⟩

/-- A part of a call that writes none of the tables. -/
theorem wp_still {c : Tx α} (hc : c.Writes SameTables) (h : Recording rooms d r l) (hQ : ∀ a l', Recording rooms d r l' → Q a l') :
    c.wp (recordDiscipline rooms) Q l :=
  Txn.wp_viewed c h.inv h.viewed (fun _ hr => hr.1) <| Txn.wp_of_writes SameTables.refl (fun _ _ _ => SameTables.trans) hc h.inv fun a l' hr hheld hsame _ hview =>
    hQ a l' (h.still hr hheld hsame hview)

/-- A room that is locked is a room of the hotel. -/
theorem wp_lockRoom_idle {roomId : ℕ} {Q : Room → Local Db Key → Prop} (h : Idle rooms l)
    (hQ : ∀ room ∈ rooms, room.id = roomId → ∀ l', Idle rooms l' → Q room l') : (lockRoom roomId).wp (recordDiscipline rooms) Q l := by
  rw [lockRoom, Txn.wp_bind]
  refine Txn.wp_locking_find (fun db hr _ => ?_) fun db hr room hmem hid => ?_
  · rw [Txn.wp_orThrow]
    rintro _ ⟨⟩
  · rw [Txn.wp_orThrow]
    rintro _ ⟨⟩
    have hrooms : (l.pend db).rooms = rooms := (congrArg BookingTables.rooms (h.pend db)).trans hr.1.2
    exact hQ room (hrooms ▸ hmem) (of_decide_eq_true hid) _ ⟨hr.1, h.pend, h.viewed⟩

/-- A save of a booking as it is. -/
theorem write_same {t : BookingTables} (h : Keyed t) {b : Booking} (hb : b ∈ t.bookings) : t.write (.saved b b) .none = t := by
  have hsame : Table.update t.bookings (·.id = b.id) (fun _ => b) = t.bookings := by
    refine (List.map_congr_left fun x hx => ?_).trans (List.map_id' _)
    split
    case isTrue hid => exact h.ids b hb x hx (of_decide_eq_true hid).symm
    case isFalse => rfl
  simp only [BookingTables.write, Draft.apply, Rows.none, List.append_nil, hsame]

/-- The booking that is locked is in the store, and nothing is written of it yet. -/
theorem recording_of_locked {db : Db} {b : Booking} (h : Idle rooms l) (hr : (recordDiscipline rooms).Rely l.held l.db db) (hb : b ∈ db.bookings) :
    Recording rooms (.saved b b) .none { l with db := db, held := l.held ∪ {.booking b.id} } where
  inv := hr.1
  locked k hk := .inr (List.mem_singleton.1 hk)
  own := ⟨hb, rfl, rfl⟩
  eventsLocked _ he := absurd he List.not_mem_nil
  fits := fits_none
  pend db' hr' := by
    have hb' : b ∈ db'.bookings := (Recording.booking_iff_of_rely hr' (.inr rfl) rfl).1 hb
    rw [write_same hr'.1.1 hb']
    exact h.pend db'
  pendRooms db' := congrArg BookingTables.rooms (h.pend db')
  viewed := h.viewed

/-- What is locked and left as it is, is not written. -/
theorem Recording.idle {b : Booking} (h : Recording rooms (.saved b b) .none l) {db : Db} (hr : (recordDiscipline rooms).Rely l.held l.db db) :
    (l.pend db).tables = db.tables := by
  rw [h.pend db hr, write_same hr.1.1 (h.own_of_rely hr).1]

theorem wp_findLocked_idle {p : Booking → Bool} {e : AppError} {c : Booking → Tx α} (h : Idle rooms l)
    (hQ : ∀ b l', p b = true → Recording rooms (.saved b b) .none l' → (c b).wp (recordDiscipline rooms) Q l') :
    (findLocked (·.bookings) (fun b => .booking b.id) p >>= fun o => Txn.orThrow o e >>= c).wp (recordDiscipline rooms) Q l := by
  rw [Txn.wp_bind]
  refine Txn.wp_locking_find (fun _ _ _ => ?_) fun db hr b hb hp => ?_
  · rw [Txn.wp_bind, Txn.wp_orThrow]
    rintro _ ⟨⟩
  · rw [Txn.wp_bind, Txn.wp_orThrow]
    rintro _ ⟨⟩
    have hbookings : (l.pend db).bookings = db.bookings := congrArg BookingTables.bookings (h.pend db)
    exact hQ b _ hp (recording_of_locked h hr (hbookings ▸ hb))

theorem wp_lockBooking_idle {publicId : String} {c : Booking → Tx α} (h : Idle rooms l)
    (hQ : ∀ b l', b.publicId = publicId → Recording rooms (.saved b b) .none l' → (c b).wp (recordDiscipline rooms) Q l') :
    (lockBooking publicId >>= c).wp (recordDiscipline rooms) Q l := by
  have hassoc : (lockBooking publicId >>= c) = (findLocked (·.bookings) (fun b => .booking b.id) (·.publicId = publicId) >>= fun o =>
      Txn.orThrow o .bookingNotFound >>= c) := rfl
  rw [hassoc]
  exact wp_findLocked_idle h fun b l' hp => hQ b l' (of_decide_eq_true hp)

/-- The booking as it is saved. -/
def saved (b : Booking) (now : ℕ) : Booking := { b with version := b.version + 1, updatedAt := now }

/-- The booking with other values in the columns a call may change. -/
def Edits (old b : Booking) : Prop :=
  b = ⟨old.id, old.publicId, old.userId, b.roomTimeId, b.checkIn, b.checkOut, b.status, old.priceAmount, old.currency, b.rejectionReason,
    old.version, old.createdAt, old.updatedAt⟩

/-- A booking that is saved has the version after its own. -/
theorem wp_saveBooking_recorded {old b : Booking} {Q : Booking → Local Db Key → Prop} (h : Recording rooms (.saved old old) .none l)
    (hb : Edits old b)
    (hQ : ∀ now l', Recording rooms (.saved old (saved b now)) .none l' → Q (saved b now) l') :
    (saveBooking b).wp (recordDiscipline rooms) Q l := by
  rw [saveBooking, Txn.wp_bind, Txn.wp_reading]
  intro db₁ hr₁
  rw [Txn.wp_bind, Txn.wp_writing]
  intro db₂ hr₂ x _
  rw [Txn.wp_pure]
  have hr := hr₁.trans hr₂ subset_rfl
  have hid : b.id = old.id := by rw [hb]
  have hpublic : b.publicId = old.publicId := by rw [hb]
  refine hQ x.now _ ⟨hr₂.1, fun k hk => .inl (h.locked k hk), ⟨(h.own_of_rely hr).1, hid, hpublic⟩, fun _ he => absurd he List.not_mem_nil, fits_none, fun db' hr' => ?_, h.pendRooms,
    fun v hv => ?_⟩
  rotate_left
  · obtain rfl := Option.some.inj hv
    cases hl : l.view with
    | none => exact hr₁.1
    | some w => exact h.viewed w hl
  have hpend := h.pend db' (hr.trans hr' Set.subset_union_left)
  refine (congrArg (fun t : BookingTables => { t with bookings := Table.update t.bookings (·.id = b.id) fun r =>
    { r with roomTimeId := b.roomTimeId, checkIn := b.checkIn, checkOut := b.checkOut, status := b.status,
             rejectionReason := b.rejectionReason, version := r.version + 1, updatedAt := x.now } }) hpend).trans ?_
  simp only [BookingTables.write, Draft.apply, Rows.none, List.append_nil, BookingTables.mk.injEq, and_true]
  rw [Table.update, Table.update, Table.update, List.map_map]
  refine List.map_congr_left fun r _ => ?_
  by_cases hrow : r.id = old.id
  · simp only [Function.comp_apply, hrow, hid, decide_true, if_true]
    rw [hb]
    rfl
  · simp only [Function.comp_apply, hrow, hid, decide_false, Bool.false_eq_true, if_false]

/-- A plain read. -/
theorem wp_reading_still {ρ : Type} {q : Db → ρ} {Q : ρ → Local Db Key → Prop} (h : Recording rooms d r l)
    (hQ : ∀ v l', (recordDiscipline rooms).Inv v → Recording rooms d r l' → Q (q (l.pend v)) l') :
    (Txn.reading q : Tx ρ).wp (recordDiscipline rooms) Q l := by
  rw [Txn.wp_reading]
  intro db hr
  have hview : (recordDiscipline rooms).Inv (l.view.getD db) := by
    cases hl : l.view with
    | none => exact hr.1
    | some w => exact h.viewed w hl
  refine hQ _ _ hview (h.still hr subset_rfl (fun _ => rfl) fun v hv => ?_)
  obtain rfl := Option.some.inj hv
  exact hview

/-- The room that is read is a room of the hotel. -/
theorem wp_findRoomOfWindow {roomTimeId : ℕ} {Q : Room → Local Db Key → Prop} (h : Recording rooms d r l)
    (hQ : ∀ room ∈ rooms, ∀ l', Recording rooms d r l' → Q room l') : (findRoomOfWindow roomTimeId).wp (recordDiscipline rooms) Q l := by
  rw [findRoomOfWindow, Txn.wp_bind]
  refine wp_still (writes_findOneOrFail) h fun t l₁ h₁ => ?_
  rw [findOneOrFail, Txn.wp_bind]
  refine wp_reading_still h₁ fun v l₂ hv h₂ => ?_
  rw [Txn.wp_orThrow]
  intro room hroom
  have hmem := List.mem_of_find?_eq_some hroom
  rw [h₁.pendRooms v, hv.2] at hmem
  exact hQ room hmem l₂ h₂

theorem wp_insertStatusHistory {bookingId : ℕ} {fromStatus : Option BookingStatus} {toStatus : BookingStatus} {actorType : BookingActorType}
    {actorUserId : Option ℕ} {reason : Option String} {Q : Supply → Local Db Key → Prop} (h : Recording rooms d r l) (hnew : r.status = [])
    (hid : bookingId = d.id)
    (hQ : ∀ x l', Recording rooms d (r.addStatus ⟨x.id, bookingId, fromStatus, toStatus, actorType, actorUserId, reason, x.now⟩) l' → Q x l') :
    (insertStatusHistory bookingId fromStatus toStatus actorType actorUserId reason).wp (recordDiscipline rooms) Q l := by
  rw [insertStatusHistory, Txn.wp_writing]
  intro db hr x hok
  have hpend : (l.pend db).statusHistory = db.statusHistory ++ r.status := congrArg BookingTables.statusHistory (h.pend db hr)
  have hfits := h.fits_of_rely hr
  refine hQ x _ (h.add hr rfl (List.append_nil _).symm (List.append_nil _).symm (fun _ he => absurd he List.not_mem_nil)
    ⟨fun g hg _ g' hg' => ?_, fun g hg => ?_, hfits.events, hfits.distinct⟩ fun s => ?_)
  · simp only [Rows.addStatus, hnew, List.nil_append, List.mem_singleton] at hg'
    subst hg'
    rw [hpend, hnew, List.append_nil] at hok
    exact of_decide_eq_true (List.all_eq_true.1 hok g hg)
  · simp only [Rows.addStatus, hnew, List.nil_append, List.mem_singleton] at hg
    subst hg
    exact hid
  · rw [List.append_nil, List.append_nil]
    rfl

theorem wp_insertChangeHistory {row : Supply → BookingChangeHistory} {Q : Supply → Local Db Key → Prop} (h : Recording rooms d r l)
    (hQ : ∀ x l', Recording rooms d (r.addChange (row x)) l' → Q x l') :
    (insertChangeHistory row).wp (recordDiscipline rooms) Q l := by
  rw [insertChangeHistory, Txn.wp_writing]
  intro db hr x _
  have hfits := h.fits_of_rely hr
  refine hQ x _ (h.add hr (List.append_nil _).symm rfl (List.append_nil _).symm (fun _ he => absurd he List.not_mem_nil)
    ⟨hfits.status, hfits.own, hfits.events, hfits.distinct⟩ fun s => ?_)
  rw [List.append_nil, List.append_nil]
  rfl

theorem wp_insertOutboxEvent {eventType key : String} {payload : Json} {Q : Supply → Local Db Key → Prop} (h : Recording rooms d r l)
    (hQ : ∀ x l', Recording rooms d (r.addEvents [.fresh x.uuid eventType payload key x.now]) l' → Q x l') :
    (insertOutboxEvent eventType payload key).wp (recordDiscipline rooms) Q l := by
  rw [insertOutboxEvent, Txn.wp_writing]
  intro db hr x hok
  have hpend : (l.pend db).outboxEvents = db.outboxEvents ++ r.events := congrArg BookingTables.outboxEvents (h.pend db hr)
  have hfits := h.fits_of_rely hr
  -- nobody has the key, the call itself included
  have hfree : ∀ e ∈ db.outboxEvents ++ r.events, e.idempotencyKey ≠ key := by
    rw [hpend] at hok
    exact fun e he => (of_decide_eq_true (List.all_eq_true.1 hok e he)).2
  refine hQ x _ (h.add hr (List.append_nil _).symm (List.append_nil _).symm rfl (fun e he => ?_)
    ⟨hfits.status, hfits.own, fun e he e' he' => ?_, Table.nodup_map_concat hfits.distinct fun e he => hfree e (List.mem_append_right _ he)⟩ fun s => ?_)
  · obtain rfl := List.mem_singleton.1 he
    exact .inr (by simp [OutboxEvent.fresh])
  · rcases List.mem_append.1 he with he | he
    · exact hfits.events e he e' he'
    · obtain rfl := List.mem_singleton.1 he
      exact hfree e' (List.mem_append_left _ he')
  · rw [List.append_nil, List.append_nil]
    rfl

/-- An insert of a booking is of new ids. -/
theorem wp_insertBooking_idle {row : Supply → Booking} {Q : Booking → Local Db Key → Prop} (h : Idle rooms l)
    (hrow : ∀ x, (row x).id = x.id ∧ (row x).publicId = x.publicId)
    (hQ : ∀ x l', Recording rooms (.created (row x)) .none l' → Q (row x) l') : (insertBooking row).wp (recordDiscipline rooms) Q l := by
  rw [insertBooking, Txn.wp_bind, Txn.wp_writing]
  intro db hr x hok
  rw [Txn.wp_pure]
  have hbookings : (l.pend db).bookings = db.bookings := congrArg BookingTables.bookings (h.pend db)
  rw [hbookings, Bool.and_eq_true, above, List.all_eq_true, List.all_eq_true] at hok
  refine hQ x _ ⟨hr.1, fun k hk => .inr ?_, fun r hmem => ⟨fun hid => ?_, fun hid => ?_⟩, fun _ he => absurd he List.not_mem_nil, fits_none,
    fun db' _ => ?_, fun db' => ?_, h.viewed⟩
  · simpa [Draft.keys, hrow] using hk
  · exact Nat.ne_of_lt (of_decide_eq_true (hok.1 r hmem)) (hid.trans (hrow x).1)
  · exact of_decide_eq_true (hok.2 r hmem) (hid.trans (hrow x).2)
  · have hpend := h.pend db'
    simp only [Db.tables, BookingTables.mk.injEq] at hpend
    obtain ⟨hb, hs, hc, he, hrooms⟩ := hpend
    simp only [Function.comp_apply, Db.tables, BookingTables.write, Draft.apply, Rows.none, List.append_nil, hb, hs, hc, he, hrooms]
  · exact congrArg BookingTables.rooms (h.pend db')

end Statements

/-- The rows of the table after a save: the saved one, and all others. -/
theorem mem_save {t : BookingTables} {old new x : Booking} (hold : old ∈ t.bookings) :
    x ∈ (Draft.saved old new).apply t.bookings ↔ x = new ∨ x ∈ t.bookings ∧ x.id ≠ old.id := by
  simp only [Draft.apply, Table.mem_update, decide_eq_true_eq, decide_eq_false_iff_not]
  constructor
  · rintro ⟨y, hy, ⟨-, rfl⟩ | ⟨hid, rfl⟩⟩
    · exact .inl rfl
    · exact .inr ⟨hy, hid⟩
  · rintro (rfl | ⟨hx, hid⟩)
    · exact ⟨old, hold, .inl ⟨rfl, rfl⟩⟩
    · exact ⟨x, hx, .inr ⟨hid, rfl⟩⟩

theorem Keyed.write {t : BookingTables} {d : Draft} {r : Rows} (h : Keyed t) (hown : d.Own t) (hfits : Fits t d r) : Keyed (t.write d r) where
  ids := by
    cases d with
    | created b => exact h.ids.insert fun x hx => (hown x hx).1
    | saved old new => exact h.ids.update_of fun x _ hid => hown.2.1.trans (of_decide_eq_true hid).symm
  publicIds := by
    cases d with
    | created b => exact Table.nodup_map_concat h.publicIds fun x hx => (hown x hx).2
    | saved old new =>
      have hsame : (Table.update t.bookings (·.id = old.id) fun _ => new).map (·.publicId) = t.bookings.map (·.publicId) :=
        Table.map_update fun x hx hid => by
          rw [h.ids x hx old hown.1 (of_decide_eq_true hid)]
          exact hown.2.2
      exact hsame ▸ h.publicIds
  events := by
    rw [BookingTables.write, List.map_append, List.nodup_append]
    refine ⟨h.events, hfits.distinct, fun a ha b hb hab => ?_⟩
    obtain ⟨e, he, rfl⟩ := List.mem_map.1 ha
    obtain ⟨e', he', rfl⟩ := List.mem_map.1 hb
    exact hfits.events e' he' e he hab

/-- Who writes a draft and its rows writes under its locks. -/
theorem tablesKept_write {t : BookingTables} {d : Draft} {r : Rows} {k : Key} (hown : d.Own t) (hfits : Fits t d r)
    (hkey : k ∉ d.keys) (hevents : ∀ e ∈ r.events, k ≠ .outboxKey e.idempotencyKey) : TablesKept k t (t.write d r) := by
  unfold TablesKept
  split
  case h_1 id =>
    have hid : id ≠ d.id := fun hid => hkey (hid ▸ d.mem_keys)
    refine ⟨fun x hx => ?_, fun x hx hxid => ?_⟩
    · cases d with
      | created b =>
        show x ∈ t.bookings ↔ x ∈ t.bookings ++ [b]
        rw [List.mem_append, List.mem_singleton]
        exact ⟨.inl, fun hmem => hmem.resolve_right fun heq => hid (hx.symm.trans (congrArg Booking.id heq))⟩
      | saved old new =>
        show x ∈ t.bookings ↔ x ∈ (Draft.saved old new).apply t.bookings
        rw [mem_save hown.1]
        refine ⟨fun hmem => .inr ⟨hmem, fun heq => hid (hx.symm.trans heq)⟩, ?_⟩
        rintro (rfl | ⟨hmem, -⟩)
        · exact absurd (hx.symm.trans hown.2.1) hid
        · exact hmem
    · rcases List.mem_append.1 hx with hx | hx
      · exact hx
      · exact absurd (hxid.symm.trans (hfits.own x hx)) hid
  case h_2 publicId =>
    intro x hx hxid
    cases d with
    | created b =>
      rcases List.mem_append.1 hx with hx | hx
      · exact ⟨x, hx, hxid⟩
      · obtain rfl := List.mem_singleton.1 hx
        exact absurd (hxid ▸ List.mem_cons_of_mem _ List.mem_cons_self) hkey
    | saved old new =>
      rcases (mem_save hown.1).1 hx with rfl | ⟨hx, -⟩
      · exact ⟨old, hown.1, hown.2.2.symm.trans hxid⟩
      · exact ⟨x, hx, hxid⟩
  case h_3 key =>
    intro e he hekey
    rcases List.mem_append.1 he with he | he
    · exact he
    · exact absurd (hekey ▸ rfl) (hevents e he)
  case h_4 => trivial

/-- A call that has written a draft and its rows may commit. -/
theorem Recording.commit {d : Draft} {r : Rows} {l : Local Db Key} (h : Recording rooms d r l) {db : Db} (hr : (recordDiscipline rooms).Rely l.held l.db db) :
    (recordDiscipline rooms).Inv (l.pend db) ∧ ∀ k, k ∉ l.held → (recordDiscipline rooms).Keeps k db (l.pend db) := by
  have hpend := h.pend db hr
  have hown := h.own_of_rely hr
  have hfits := h.fits_of_rely hr
  refine ⟨⟨hpend ▸ hr.1.1.write hown hfits, (h.pendRooms db).trans hr.1.2⟩, fun k hk => ?_⟩
  show TablesKept k db.tables (l.pend db).tables
  rw [hpend]
  exact tablesKept_write hown hfits (fun hmem => hk (h.locked k hmem)) fun e he heq => hk (heq ▸ h.eventsLocked e he)

end Recording

end HotelBackend.Bookings
