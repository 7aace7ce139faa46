import HotelBackend.Bookings.AuditTrail

/-!
# The last row of a booking

Whatever the calls do, a booking is in one window of one room, and the lifecycle row of its version tells it as
it is: its status, its stay, its price, and the room that it is in (`bookings_housed`). So a reader that keeps the
newest row of each booking has the bookings.
-/

namespace HotelBackend.Bookings

open HotelBackend.Common
open HotelBackend.Theory
open HotelBackend.Theory.Transactions
open HotelBackend.Rooms
open HotelBackend.Outbox

/-- There is a lifecycle row that tells the booking as it is. -/
def LatestTold (rooms : List Room) (db : Db) (b : Booking) : Prop :=
  ∃ change x, lifecycleEvent change x ∈ db.outboxEvents ∧ SoundChange rooms change ∧ change.booking = b ∧ db.stock.InRoom b change.room.id

/-- The row of a change tells its booking and its room. -/
theorem told_of_lifecycleEvent {change change' : BookingLifecycleChange} {x x' : Supply} (h : lifecycleEvent change x = lifecycleEvent change' x') :
    change.booking.publicId = change'.booking.publicId ∧ change.room.id = change'.room.id := by
  have hpayload := congrArg OutboxEvent.payload h
  simp only [lifecycleEvent, OutboxEvent.fresh, toBookingLifecyclePayload, BookingLifecycleStay.fields, Json.obj.injEq, List.cons.injEq,
    Prod.mk.injEq, Json.str.injEq, List.cons_append, true_and] at hpayload
  obtain ⟨hid, -, -, -, ⟨hroom, -⟩, -⟩ := hpayload
  refine ⟨hid, ?_⟩
  rw [← digitsValue_toString change.room.id, hroom, digitsValue_toString]

section Runs

variable {cfg : Config} {rooms : List Room} {s s' : BookingSys} {a : Act Supply Call} {start : Db → Prop}

/-- The row stays, and the booking stays in its room. -/
theorem LatestTold.stays {db db' : Db} {b : Booking} (h : LatestTold rooms db b) (hevents : db.outboxEvents ⊆ db'.outboxEvents)
    (hroom : ∀ roomId, db'.stock.InRoom b roomId ↔ db.stock.InRoom b roomId) : LatestTold rooms db' b := by
  obtain ⟨change, x, he, hchange, hb, hin⟩ := h
  exact ⟨change, x, hevents he, hchange, hb, (hroom _).2 hin⟩

/-- The row of an entry tells the room that its booking is in. -/
theorem Entry.latest {call : Call} {d : Draft} {r : Rows} {db db' : Db} (h : Entry cfg rooms call d r) (hon : cfg.lifecycleEnabled = true)
    (hown : d.Own db.tables) (hfits : Fits db.tables d r) (hsound : ∀ b ∈ db.bookings, SoundBooking rooms b) (hbooking : SoundBooking rooms d.booking)
    (hwritten : db'.tables = db.tables.write d r) (hkeyed : Keyed db'.tables) (hwindow : WindowStep db db') : LatestTold rooms db' d.booking := by
  obtain ⟨change, x, mails, hevents, hchange, hsame, -⟩ := h.events hon hown hsound hbooking
  have hnew : db'.outboxEvents = db.outboxEvents ++ r.events := congrArg BookingTables.outboxEvents hwritten
  have hbookings : db'.bookings = d.apply db.bookings := congrArg BookingTables.bookings hwritten
  have hrow : lifecycleEvent change x ∈ r.events := hevents ▸ List.mem_cons_self
  have hmem : lifecycleEvent change x ∈ db'.outboxEvents := hnew ▸ List.mem_append_right _ hrow
  refine ⟨change, x, hmem, hchange, hsame, ?_⟩
  -- the row is new, so the call that commits has told the room
  have htold := (hwindow.told _ hmem).resolve_left fun hold => hfits.events _ hrow _ hold rfl
  obtain ⟨change', x', heq, y, hy, hid, hroom⟩ := htold rfl
  obtain ⟨hpublicId, hroomId⟩ := told_of_lifecycleEvent heq
  have hthere : d.booking ∈ db'.bookings := hbookings ▸ (Draft.mem_apply hown).2 (.inl rfl)
  have hone : y = d.booking := by
    refine Table.UniqueBy.of_nodup hkeyed.publicIds y hy _ hthere ?_
    show y.publicId = d.booking.publicId
    rw [hid, ← hpublicId, hsame]
  rw [hroomId, ← hone]
  exact hroom

/-- A step keeps it. -/
theorem latest_step (h : Audit cfg rooms s) (hw : Sys.Promised windowDiscipline (fun _ _ => WindowStep) s) (hon : cfg.lifecycleEnabled = true)
    (hcheck : DatesChecked s a) (he : (machine (Call.run cfg) start).exec s a = some s') (hlatest : ∀ b ∈ s.db.bookings, LatestTold rooms s.db b) :
    ∀ b ∈ s'.db.bookings, LatestTold rooms s'.db b := by
  have h' := h.step hon hcheck he
  obtain ⟨hw', hwindows⟩ := hw.step (run_houses cfg) he
  have hrooms : SameRooms s.db s'.db := by
    rcases hwindows with hidle | ⟨p, call, answer, -, hstep⟩
    · exact hw.good.inv.sameRooms (congrArg Db.roomTimes hidle.1)
    · exact hstep.rooms
  have hstays : ∀ b ∈ s.db.bookings, b ∈ s'.db.bookings → s.db.outboxEvents ⊆ s'.db.outboxEvents → LatestTold rooms s'.db b := fun b hb hb' hevents =>
    (hlatest b hb).stays hevents (inRoom_of_sameRooms hw.good.inv hw'.good.inv hrooms hb hb' rfl)
  rcases (h.promised.step (run_records cfg rooms) he).2 with hidle | ⟨p, call, answer, hcommit, hstep⟩
  · rw [hidle.1] at hstays ⊢
    exact fun b hb => hstays b hb hb (List.Subset.refl _)
  have hwindow : WindowStep s.db s'.db := by
    rcases hwindows with hidle | ⟨p', call', answer', -, hstep'⟩
    · -- nothing idles that commits
      obtain ⟨call', code, pend, view, hrun⟩ := hcommit.running
      have hended := hidle.2 p call _ hcommit.committed
      rw [hrun] at hended
      cases hended
    · exact hstep'
  rw [BookingPromise] at hstep
  generalize ht : s'.db.tables = t at hstep
  cases hstep with
  | idle hanswer =>
    have hbookings : s'.db.bookings = s.db.bookings := congrArg BookingTables.bookings ht
    have hevents : s'.db.outboxEvents = s.db.outboxEvents := congrArg BookingTables.outboxEvents ht
    exact fun b hb => hstays b (hbookings ▸ hb) hb (hevents ▸ List.Subset.refl _)
  | @entered d r hentry hown hfits hanswer =>
    have hcall : call.DatesChecked := h'.checked p call _ hcommit.committed
    have hbookings : s'.db.bookings = d.apply s.db.bookings := congrArg BookingTables.bookings ht
    have hevents : s'.db.outboxEvents = s.db.outboxEvents ++ r.events := congrArg BookingTables.outboxEvents ht
    intro b hb
    rcases (Draft.mem_apply hown).1 (hbookings ▸ hb) with rfl | ⟨hold, -⟩
    · exact hentry.latest hon hown hfits h.journal.sound (hentry.sound hcall hown h.journal.sound) ht h'.promised.good.inv.1 hwindow
    · exact hstays b hold hb (hevents ▸ List.subset_append_left _ _)

theorem latest_of_reachable (hon : cfg.lifecycleEnabled = true) (h : (bookingSystem cfg).Reachable DatesChecked s) :
    Audit cfg s.db.rooms s ∧ Sys.Promised windowDiscipline (fun _ _ => WindowStep) s ∧ ∀ b ∈ s.db.bookings, LatestTold s.db.rooms s.db b := by
  obtain ⟨db, ⟨roomTypes, rooms, rfl⟩, hreach⟩ := exists_start h
  have hall : Audit cfg rooms s ∧ Sys.Promised windowDiscipline (fun _ _ => WindowStep) s ∧ ∀ b ∈ s.db.bookings, LatestTold rooms s.db b := by
    refine hreach.invariant (I := fun s => Audit cfg rooms s ∧ Sys.Promised windowDiscipline (fun _ _ => WindowStep) s ∧
      ∀ b ∈ s.db.bookings, LatestTold rooms s.db b) ?_ ?_
    · rintro _ ⟨db, rfl, rfl⟩
      exact ⟨audit_start roomTypes, @housed_of_reachable cfg (fun _ _ => True) _ (.init ⟨_, ⟨roomTypes, rooms, rfl⟩, rfl⟩),
        fun _ hb => absurd hb List.not_mem_nil⟩
    · rintro s a s' ⟨haudit, hw, hlatest⟩ hcheck he
      exact ⟨haudit.step hon hcheck he, (hw.step (run_houses cfg) he).1, latest_step haudit hw hon hcheck he hlatest⟩
  have hrooms : s.db.rooms = rooms := hall.1.promised.good.inv.2
  exact hrooms ▸ hall

/-- What a step does: no window changes its room, and a new lifecycle row tells the room of its booking. -/
theorem windowStep_of_exec (hw : Sys.Promised windowDiscipline (fun _ _ => WindowStep) s) (he : (machine (Call.run cfg) start).exec s a = some s') :
    WindowStep s.db s'.db := by
  rcases (hw.step (run_houses cfg) he).2 with hidle | ⟨p, call, answer, -, hstep⟩
  · exact ⟨hw.good.inv.sameRooms (congrArg Db.roomTimes hidle.1), fun e hmem => .inl (hidle.1 ▸ hmem)⟩
  · exact hstep

end Runs

/-- **A booking is in one room, and its rows tell it.** -/
theorem bookings_housed (cfg : Config) (hon : cfg.lifecycleEnabled = true) (s : BookingSys) (h : (bookingSystem cfg).Reachable DatesChecked s) :
    (∀ b ∈ s.db.bookings, (∃! t, t ∈ s.db.roomTimes ∧ t.id = b.roomTimeId) ∧ LatestTold s.db.rooms s.db b) ∧
      ∀ a s', (bookingSystem cfg).exec s a = some s' → SameRooms s.db s'.db ∧ ∀ e ∈ s'.db.outboxEvents, e ∈ s.db.outboxEvents ∨ TellsRoom s'.db e := by
  obtain ⟨-, hw, hlatest⟩ := latest_of_reachable hon h
  refine ⟨fun b hb => ⟨?_, hlatest b hb⟩, fun a s' he => ?_⟩
  · obtain ⟨t, ht, hid⟩ := hw.good.inv.window b hb
    exact ⟨t, ⟨ht, hid⟩, fun u hu => hw.good.inv.ids u hu.1 t ht (hu.2.trans hid.symm)⟩
  · have hstep := windowStep_of_exec hw he
    exact ⟨hstep.rooms, hstep.told⟩

theorem bookings_housed_fullStay :
    let s := fullStayEnd.get fullStayEnd_isSome
    s.db.bookings.map (fun b => (b.status, b.roomTimeId)) = [(.cancelledByAdmin, 3)] ∧
      (∀ b ∈ s.db.bookings, (∃! t, t ∈ s.db.roomTimes ∧ t.id = b.roomTimeId) ∧ LatestTold s.db.rooms s.db b) ∧
      ∀ a s', (bookingSystem loudConfig).exec s a = some s' →
        SameRooms s.db s'.db ∧ ∀ e ∈ s'.db.outboxEvents, e ∈ s.db.outboxEvents ∨ TellsRoom s'.db e :=
  ⟨by decide +kernel, bookings_housed loudConfig rfl _ fullStay_reachable⟩

end HotelBackend.Bookings
