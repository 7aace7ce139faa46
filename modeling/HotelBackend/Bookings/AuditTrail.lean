import Mathlib.Data.Set.Card
import HotelBackend.Bookings.LifecycleWriter
import HotelBackend.Bookings.Windows

/-!
# The audit trail of a booking

Six operations write a booking, one of its two histories, a mail and a lifecycle row, each by hand. What they
keep together (`Journal`): the status rows of a booking link up from nothing to its status, its version counts
the rows of both histories, and each version has its lifecycle row. An entry keeps it (`Journal.write`), so any
calls do, however they interleave (`audit_trail`).
-/

namespace HotelBackend.Bookings

open HotelBackend.Common
open HotelBackend.Theory
open HotelBackend.Theory.Transactions
open HotelBackend.Rooms
open HotelBackend.Outbox
open HotelBackend.Notifications (ClassValidator publicBookingIdPattern hotelDatePattern)

/-! ### Chains -/

section Linked

variable {ρ σ : Type} {source target : ρ → σ}

/-- Each row starts where the one before it ended. -/
def Linked (source target : ρ → σ) : σ → List ρ → σ → Prop
  | a, [], b => a = b
  | a, row :: rows, b => source row = a ∧ Linked source target (target row) rows b

theorem Linked.append {a b c : σ} {rows rows' : List ρ} (h : Linked source target a rows b) (h' : Linked source target b rows' c) :
    Linked source target a (rows ++ rows') c := by
  induction rows generalizing a with
  | nil =>
    obtain rfl := h
    exact h'
  | cons row rows ih => exact ⟨h.1, ih h.2⟩

end Linked

/-! ### The journal -/

/-- The status history of a booking. -/
def statusRows (t : BookingTables) (bookingId : ℕ) : List BookingStatusHistory := t.statusHistory.filter (·.bookingId = bookingId)

/-- The change history of a booking. -/
def changeRows (t : BookingTables) (bookingId : ℕ) : List BookingChangeHistory := t.changeHistory.filter (·.bookingId = bookingId)

/-- A status row says where it starts and where it ends. -/
def HistoryChain (rows : List BookingStatusHistory) (before after : Option BookingStatus) : Prop :=
  Linked (·.fromStatus) (fun row => some row.toStatus) before rows after

/-- The row is a move that the lifecycle defines, and not an edit. -/
def IsMove (row : BookingStatusHistory) : Prop :=
  (row.fromStatus, row.toStatus) ∈ bookingLifecycleTransitions ∧ row.fromStatus ≠ some row.toStatus

/-- The lifecycle row of a version of a booking. -/
def IsLifecycleOf (rooms : List Room) (publicId : String) (version : ℕ) (e : OutboxEvent) : Prop :=
  ∃ change x, e = lifecycleEvent change x ∧ SoundChange rooms change ∧ change.booking.publicId = publicId ∧ change.booking.version = version

/-- A mail about a version of a booking. -/
def IsMailOf (publicId : String) (version : ℕ) (e : OutboxEvent) : Prop :=
  ∃ booking eventType room reason change x, e = mailEvent booking eventType room reason change x ∧
    booking.publicId = publicId ∧ booking.version = version

/-- What is told of one booking. -/
structure Trail (rooms : List Room) (t : BookingTables) (b : Booking) : Prop where
  chain : HistoryChain (statusRows t b.id) none (some b.status)
  moves : ∀ row ∈ statusRows t b.id, IsMove row
  ordered : (statusRows t b.id).Pairwise (·.id < ·.id)
  version : b.version = (statusRows t b.id).length + (changeRows t b.id).length
  lifecycle : ∀ version, 1 ≤ version → version ≤ b.version → ∃ e ∈ t.outboxEvents, IsLifecycleOf rooms b.publicId version e

/-- The tables tell of the bookings that are there, and tell all of it. -/
structure Journal (rooms : List Room) (t : BookingTables) : Prop where
  sound : ∀ b ∈ t.bookings, SoundBooking rooms b
  trail : ∀ b ∈ t.bookings, Trail rooms t b
  status : ∀ row ∈ t.statusHistory, ∃ b ∈ t.bookings, b.id = row.bookingId
  change : ∀ row ∈ t.changeHistory, ∃ b ∈ t.bookings, b.id = row.bookingId
  event : ∀ e ∈ t.outboxEvents, ∃ b ∈ t.bookings, ∃ version, 1 ≤ version ∧ version ≤ b.version ∧
    (IsLifecycleOf rooms b.publicId version e ∨ IsMailOf b.publicId version e)

/-! ### What an entry adds -/

namespace Draft

/-- The booking as the draft leaves it. -/
def booking : Draft → Booking
  | created b => b
  | saved _ new => new

/-- Its status before. -/
def before : Draft → Option BookingStatus
  | created _ => none
  | saved old _ => some old.status

/-- Its version before. -/
def versionBefore : Draft → ℕ
  | created _ => 0
  | saved old _ => old.version

theorem booking_id {d : Draft} {t : BookingTables} (h : d.Own t) : d.booking.id = d.id := by
  cases d with
  | created b => rfl
  | saved old new => exact h.2.1

theorem mem_apply {d : Draft} {t : BookingTables} (h : d.Own t) {x : Booking} :
    x ∈ d.apply t.bookings ↔ x = d.booking ∨ x ∈ t.bookings ∧ x.id ≠ d.id := by
  cases d with
  | created b =>
    rw [apply, List.mem_append, List.mem_singleton, or_comm]
    exact or_congr_right ⟨fun hx => ⟨hx, (h x hx).1⟩, And.left⟩
  | saved old new => exact mem_save h.1

end Draft

/-- The dates a caller gives match the pattern of the request. -/
def Call.DatesChecked : Call → Prop
  | .create _ _ _ input => hotelDatePattern input.checkIn = true ∧ hotelDatePattern input.checkOut = true
  | .updateAdmin _ _ _ _ body => body.checkIn.all hotelDatePattern = true ∧ body.checkOut.all hotelDatePattern = true
  | _ => True

instance : DecidablePred Call.DatesChecked := fun call =>
  match call with
  | .create _ _ _ input => inferInstanceAs (Decidable (hotelDatePattern input.checkIn = true ∧ hotelDatePattern input.checkOut = true))
  | .updateAdmin _ _ _ _ body => inferInstanceAs (Decidable (body.checkIn.all hotelDatePattern = true ∧ body.checkOut.all hotelDatePattern = true))
  | .approve .. | .reject .. | .cancelOwn .. | .cancelAdmin .. | .createRoomTime .. | .updateRoomTime .. | .deleteRoomTime .. => isTrue trivial

/-- The dates that creation and edits accept are dates a guest may stay. -/
theorem soundStay_of_dates {checkIn checkOut today : String} (hin : hotelDatePattern checkIn = true) (hout : hotelDatePattern checkOut = true)
    (h : assertBookingDates checkIn checkOut today ≠ 0) : SoundStay checkIn checkOut := by
  have hlt := lt_of_assertBookingDates h
  unfold assertBookingDates at h
  split at h
  case h_1 first last hfirst hlast =>
    exact ⟨by rw [isLifecycleDate, hin, hfirst]; rfl, by rw [isLifecycleDate, hout, hlast]; rfl, hlt⟩
  case h_2 => exact absurd rfl h

section Entries

variable {cfg : Config} {rooms : List Room} {call : Call} {d : Draft} {r : Rows} {t : BookingTables}

/-- A transition is one that the lifecycle defines. -/
theorem Call.Makes.isMove {t : Transition} (h : call.Makes t) :
    (some t.fromStatus, t.toStatus) ∈ bookingLifecycleTransitions ∧ t.fromStatus ≠ t.toStatus := by
  cases h with
  | cancelOwn | approve | reject =>
    dsimp only
    decide
  | cancelAdmin _ _ _ hactive =>
    rename_i fromStatus
    cases fromStatus with
    | pending | confirmed =>
      dsimp only
      decide
    | rejected | cancelledByUser | cancelledByAdmin | completed => cases hactive

/-- What an entry makes of a sound booking is sound. -/
theorem Entry.sound (h : Entry cfg rooms call d r) (hcall : call.DatesChecked) (hown : d.Own t) (hsound : ∀ b ∈ t.bookings, SoundBooking rooms b) :
    SoundBooking rooms d.booking := by
  cases h with
  | created x y hroom hid hstay hprice hevents => exact ⟨soundStay_of_dates hcall.1 hcall.2 hstay, hprice, ⟨_, hroom, rfl⟩, le_rfl⟩
  | moved now x ht hid hstatus hevents =>
    obtain ⟨hstay, hprice, hcurrency, hversion⟩ := hsound _ hown.1
    exact ⟨hstay, hprice, hcurrency, Nat.le_succ_of_le hversion⟩
  | @edited today actorUserId publicId body old e now x y events hid he hevents =>
    obtain ⟨hstay, hprice, hcurrency, hversion⟩ := hsound _ hown.1
    have hpattern : ∀ {date : String}, isLifecycleDate date = true → hotelDatePattern date = true := fun hdate => by
      rw [isLifecycleDate, Bool.and_eq_true] at hdate
      exact hdate.1
    refine ⟨soundStay_of_dates ?_ ?_ he.stay, hprice, hcurrency, Nat.le_succ_of_le hversion⟩
    · show hotelDatePattern e.checkIn = true
      rw [he.checkIn]
      cases hdate : body.checkIn with
      | none => exact hpattern hstay.first
      | some date =>
        have hall := hcall.1
        rwa [hdate] at hall
    · show hotelDatePattern e.checkOut = true
      rw [he.checkOut]
      cases hdate : body.checkOut with
      | none => exact hpattern hstay.last
      | some date =>
        have hall := hcall.2
        rwa [hdate] at hall

/-- The rows of an entry take the booking from its status before to its status after. -/
theorem Entry.chain (h : Entry cfg rooms call d r) : HistoryChain r.status d.before (some d.booking.status) := by
  cases h with
  | created => exact ⟨rfl, rfl⟩
  | moved now x ht hid hstatus hevents => exact ⟨congrArg some hstatus.symm, rfl⟩
  | edited => exact rfl

theorem Entry.moves (h : Entry cfg rooms call d r) : ∀ row ∈ r.status, IsMove row := by
  cases h with
  | created =>
    simp only [List.forall_mem_singleton, IsMove]
    decide
  | moved now x ht hid hstatus hevents =>
    simp only [List.forall_mem_singleton, IsMove, Transition.row]
    exact ⟨ht.isMove.1, fun heq => ht.isMove.2 (Option.some.inj heq)⟩
  | edited => exact fun _ hrow => absurd hrow List.not_mem_nil

/-- The version goes up by the rows of an entry. -/
theorem Entry.version (h : Entry cfg rooms call d r) : d.booking.version = d.versionBefore + r.status.length + r.change.length := by
  cases h with
  | created => rfl
  | moved => rfl
  | edited => rfl

/-- An entry is one row of one of the histories. -/
theorem Entry.one (h : Entry cfg rooms call d r) : r.status.length + r.change.length = 1 := by
  cases h with
  | created => rfl
  | moved => rfl
  | edited => rfl

theorem Entry.change_own (h : Entry cfg rooms call d r) : ∀ row ∈ r.change, row.bookingId = d.id := by
  cases h with
  | created => exact fun _ hrow => absurd hrow List.not_mem_nil
  | moved => exact fun _ hrow => absurd hrow List.not_mem_nil
  | edited =>
    rw [List.forall_mem_singleton]
    rfl

/-- With the stream on, an entry has the lifecycle row of the booking as it leaves it, and any other event is a mail about it. -/
theorem Entry.events (h : Entry cfg rooms call d r) (hon : cfg.lifecycleEnabled = true) (hown : d.Own t) (hsound : ∀ b ∈ t.bookings, SoundBooking rooms b)
    (hbooking : SoundBooking rooms d.booking) : ∃ change x mails, r.events = lifecycleEvent change x :: mails ∧ SoundChange rooms change ∧
      change.booking = d.booking ∧ ∀ mail ∈ mails, IsMailOf d.booking.publicId d.booking.version mail := by
  have hone : ∀ {change events}, RecordedRows change cfg.lifecycleEnabled events → ∃ x, events = [lifecycleEvent change x] := by
    rw [hon]
    rintro _ _ ⟨⟩
    exact ⟨_, rfl⟩
  cases h with
  | created x y hroom hid hstay hprice hevents =>
    obtain ⟨z, rfl⟩ := hone hevents
    refine ⟨_, z, [], rfl, ⟨hbooking, ⟨_, hroom, rfl⟩, ?_, ?_, ?_⟩, rfl, fun _ hmem => absurd hmem List.not_mem_nil⟩
    · simp [bookingLifecycleTransitions, createdBooking, BookingsService.newBooking]
    · rintro s ⟨⟩
    · simp
  | moved now x ht hid hstatus hevents =>
    cases hevents with
    | nothing hoff =>
      rw [hon] at hoff
      cases hoff
    | room hroom y hrecorded =>
      obtain ⟨z, rfl⟩ := hone hrecorded
      refine ⟨_, z, _, rfl, ⟨hbooking, ⟨_, hroom, rfl⟩, ht.isMove.1, ?_, ?_⟩, rfl, fun mail hmail => ?_⟩
      · rintro s ⟨⟩
      · have hne := ht.isMove.2
        simpa [Transition.apply, saved] using hne
      · obtain ⟨eventType, -, rfl⟩ := Option.map_eq_some_iff.1 (Option.mem_toList.1 hmail)
        exact ⟨_, eventType, _, _, _, y, rfl, rfl, rfl⟩
  | @edited today actorUserId publicId body old e now x y events hid he hevents =>
    obtain ⟨z, rfl⟩ := hone hevents
    refine ⟨_, z, _, rfl, ⟨hbooking, ⟨_, he.destination, rfl⟩, ?_, ?_, ?_⟩, rfl, ?_⟩
    · have hactive := he.active
      simp only [Edit.change, Edit.apply, saved]
      cases hstatus : old.status <;> simp_all [BookingStatus.isActive, bookingLifecycleTransitions]
    · rintro s ⟨⟩
      exact ⟨(hsound old hown.1).stay, _, he.source, rfl, rfl⟩
    · simp [Edit.change, Edit.apply, saved]
    · exact List.forall_mem_singleton.2 ⟨_, _, _, _, _, y, rfl, rfl, rfl⟩

/-- A booking goes on: its identity and its price stay, and once it is closed nothing changes. -/
structure Continues (b b' : Booking) : Prop where
  id : b'.id = b.id
  publicId : b'.publicId = b.publicId
  userId : b'.userId = b.userId
  price : b'.priceAmount = b.priceAmount ∧ b'.currency = b.currency
  version : b.version ≤ b'.version
  closed : b.status.isActive = false → b' = b

theorem Continues.refl (b : Booking) : Continues b b := ⟨rfl, rfl, rfl, ⟨rfl, rfl⟩, le_rfl, fun _ => rfl⟩

theorem Continues.trans {a b c : Booking} (hab : Continues a b) (hbc : Continues b c) : Continues a c where
  id := hbc.id.trans hab.id
  publicId := hbc.publicId.trans hab.publicId
  userId := hbc.userId.trans hab.userId
  price := ⟨hbc.price.1.trans hab.price.1, hbc.price.2.trans hab.price.2⟩
  version := hab.version.trans hbc.version
  closed h := by
    obtain rfl := hab.closed h
    exact hbc.closed h

/-- With an entry, every booking goes on. -/
theorem Entry.continues (h : Entry cfg rooms call d r) (hkeyed : Keyed t) (hown : d.Own t) {b : Booking} (hb : b ∈ t.bookings) :
    ∃ b' ∈ (t.write d r).bookings, Continues b b' := by
  have hmem : ∀ {x}, x ∈ (t.write d r).bookings ↔ x = d.booking ∨ x ∈ t.bookings ∧ x.id ≠ d.id := Draft.mem_apply hown
  by_cases hid : b.id = d.id
  · refine ⟨d.booking, hmem.2 (.inl rfl), ?_⟩
    cases h with
    | created x y hroom hid' => exact absurd hid (hown b hb).1
    | @moved _ t' old now x events ht hid' hstatus hevents =>
      obtain rfl := hkeyed.ids b hb old hown.1 hid
      refine ⟨rfl, rfl, rfl, ⟨rfl, rfl⟩, Nat.le_succ _, fun hclosed => ?_⟩
      rw [hstatus] at hclosed
      cases ht with
      | cancelOwn | approve | reject => cases hclosed
      | cancelAdmin _ _ _ hactive =>
        rw [hactive] at hclosed
        cases hclosed
    | @edited today actorUserId publicId body old e now x y events hid' he hevents =>
      obtain rfl := hkeyed.ids b hb old hown.1 hid
      refine ⟨rfl, rfl, rfl, ⟨rfl, rfl⟩, Nat.le_succ _, fun hclosed => ?_⟩
      rw [he.active] at hclosed
      cases hclosed
  · exact ⟨b, hmem.2 (.inr ⟨hb, hid⟩), .refl b⟩

/-- Rows that belong to one booking. -/
theorem filter_own {ρ : Type} {key : ρ → ℕ} {rows : List ρ} {id : ℕ} (hown : ∀ row ∈ rows, key row = id) (bookingId : ℕ) :
    (rows.filter fun row => key row = bookingId) = if bookingId = id then rows else [] := by
  split
  case isTrue hid => exact List.filter_eq_self.2 fun row hrow => decide_eq_true ((hown row hrow).trans hid.symm)
  case isFalse hid => exact List.filter_eq_nil_iff.2 fun row hrow heq => hid ((of_decide_eq_true heq).symm.trans (hown row hrow))

/-- The status rows of a booking after a write. -/
theorem statusRows_write (hown : ∀ row ∈ r.status, row.bookingId = d.id) (bookingId : ℕ) :
    statusRows (t.write d r) bookingId = statusRows t bookingId ++ if bookingId = d.id then r.status else [] := by
  rw [statusRows, BookingTables.write, List.filter_append, statusRows, filter_own hown]

theorem changeRows_write (hown : ∀ row ∈ r.change, row.bookingId = d.id) (bookingId : ℕ) :
    changeRows (t.write d r) bookingId = changeRows t bookingId ++ if bookingId = d.id then r.change else [] := by
  rw [changeRows, BookingTables.write, List.filter_append, changeRows, filter_own hown]

/-- What was told of the booking that an entry is about. -/
structure Behind (rooms : List Room) (t : BookingTables) (d : Draft) : Prop where
  chain : HistoryChain (statusRows t d.id) none d.before
  moves : ∀ row ∈ statusRows t d.id, IsMove row
  ordered : (statusRows t d.id).Pairwise (·.id < ·.id)
  version : d.versionBefore = (statusRows t d.id).length + (changeRows t d.id).length
  lifecycle : ∀ version, 1 ≤ version → version ≤ d.versionBefore → ∃ e ∈ t.outboxEvents, IsLifecycleOf rooms d.booking.publicId version e

/-- Nothing is told of a booking that is created, and of one that is saved, what its trail is. -/
theorem Journal.behind (h : Journal rooms t) (hown : d.Own t) : Behind rooms t d := by
  cases d with
  | created b =>
    have hstatus : statusRows t b.id = [] := by
      refine List.filter_eq_nil_iff.2 fun row hrow heq => ?_
      obtain ⟨x, hx, hid⟩ := h.status row hrow
      exact (hown x hx).1 (hid.trans (of_decide_eq_true heq))
    have hchange : changeRows t b.id = [] := by
      refine List.filter_eq_nil_iff.2 fun row hrow heq => ?_
      obtain ⟨x, hx, hid⟩ := h.change row hrow
      exact (hown x hx).1 (hid.trans (of_decide_eq_true heq))
    refine ⟨?_, ?_, ?_, ?_, fun version hlow hhigh => absurd (hlow.trans hhigh) (Nat.not_succ_le_zero 0)⟩
    · rw [Draft.id, hstatus]
      exact rfl
    · rw [Draft.id, hstatus]
      exact fun _ hrow => absurd hrow List.not_mem_nil
    · rw [Draft.id, hstatus]
      exact .nil
    · rw [Draft.id, hstatus, hchange]
      rfl
  | saved old new =>
    obtain ⟨hchain, hmoves, hordered, hversion, hlifecycle⟩ := h.trail old hown.1
    refine ⟨hchain, hmoves, hordered, hversion, ?_⟩
    rw [Draft.booking, hown.2.2]
    exact hlifecycle

/-- An entry goes on with the trail of its booking. -/
theorem Behind.trail (h : Behind rooms t d) (hentry : Entry cfg rooms call d r) (hown : d.Own t) (hfits : Fits t d r) {e : OutboxEvent}
    (he : e ∈ r.events) (hevent : IsLifecycleOf rooms d.booking.publicId d.booking.version e) : Trail rooms (t.write d r) d.booking := by
  have hid := Draft.booking_id hown
  have hstatus := statusRows_write (t := t) (d := d) hfits.own d.id
  have hchange := changeRows_write (t := t) (d := d) hentry.change_own d.id
  rw [if_pos rfl] at hstatus hchange
  rw [← hid] at hstatus hchange
  refine ⟨?_, ?_, ?_, ?_, fun version hlow hhigh => ?_⟩
  · rw [hstatus, hid]
    exact h.chain.append hentry.chain
  · rw [hstatus, hid]
    exact List.forall_mem_append.2 ⟨h.moves, hentry.moves⟩
  · rw [hstatus, hid, List.pairwise_append]
    refine ⟨h.ordered, ?_, fun row hrow row' hrow' => ?_⟩
    · cases hentry with
      | created => exact List.pairwise_singleton _ _
      | moved => exact List.pairwise_singleton _ _
      | edited => exact .nil
    · obtain ⟨hmem, hrowId⟩ := List.mem_filter.1 hrow
      exact hfits.status row hmem (of_decide_eq_true hrowId) row' hrow'
  · rw [hstatus, hchange, hid, List.length_append, List.length_append, hentry.version, h.version]
    omega
  · by_cases hnew : version ≤ d.versionBefore
    · obtain ⟨e', he', hevent'⟩ := h.lifecycle version hlow hnew
      exact ⟨e', List.mem_append_left _ he', hevent'⟩
    · have hlast : version = d.booking.version := by
        have hone := hentry.one
        have hversion := hentry.version
        omega
      exact ⟨e, List.mem_append_right _ he, hlast ▸ hevent⟩

/-- An entry keeps the journal. -/
theorem Journal.write (h : Journal rooms t) (hon : cfg.lifecycleEnabled = true) (hcall : call.DatesChecked) (hentry : Entry cfg rooms call d r)
    (hkeyed : Keyed t) (hown : d.Own t) (hfits : Fits t d r) : Journal rooms (t.write d r) := by
  have hsound := hentry.sound hcall hown h.sound
  obtain ⟨change, x, mails, hevents, hchange, hsame, hmails⟩ := hentry.events hon hown h.sound hsound
  have hevent : IsLifecycleOf rooms d.booking.publicId d.booking.version (lifecycleEvent change x) :=
    ⟨change, x, rfl, hchange, congrArg Booking.publicId hsame, congrArg Booking.version hsame⟩
  have hid := Draft.booking_id hown
  have hmem : ∀ {x}, x ∈ (t.write d r).bookings ↔ x = d.booking ∨ x ∈ t.bookings ∧ x.id ≠ d.id := Draft.mem_apply hown
  have hkept : ∀ {b}, b ∈ t.bookings → ∃ b' ∈ (t.write d r).bookings, Continues b b' := fun hb => hentry.continues hkeyed hown hb
  refine ⟨fun b hb => ?_, fun b hb => ?_, fun row hrow => ?_, fun row hrow => ?_, fun e' he' => ?_⟩
  · rcases hmem.1 hb with rfl | ⟨hb, -⟩
    · exact hsound
    · exact h.sound b hb
  · rcases hmem.1 hb with rfl | ⟨hb, hne⟩
    · exact (h.behind hown).trail hentry hown hfits (hevents ▸ List.mem_cons_self) hevent
    · have hstatus := statusRows_write (t := t) (d := d) hfits.own b.id
      have hchange := changeRows_write (t := t) (d := d) hentry.change_own b.id
      rw [if_neg hne, List.append_nil] at hstatus hchange
      obtain ⟨hchain, hmoves, hordered, hversion, hlifecycle⟩ := h.trail b hb
      refine ⟨hstatus ▸ hchain, hstatus ▸ hmoves, hstatus ▸ hordered, hstatus ▸ hchange ▸ hversion, fun version hlow hhigh => ?_⟩
      obtain ⟨e', he', hevent'⟩ := hlifecycle version hlow hhigh
      exact ⟨e', List.mem_append_left _ he', hevent'⟩
  · rcases List.mem_append.1 hrow with hrow | hrow
    · obtain ⟨b, hb, hbid⟩ := h.status row hrow
      obtain ⟨b', hb', hsame⟩ := hkept hb
      exact ⟨b', hb', hsame.id.trans hbid⟩
    · exact ⟨_, hmem.2 (.inl rfl), hid.trans (hfits.own row hrow).symm⟩
  · rcases List.mem_append.1 hrow with hrow | hrow
    · obtain ⟨b, hb, hbid⟩ := h.change row hrow
      obtain ⟨b', hb', hsame⟩ := hkept hb
      exact ⟨b', hb', hsame.id.trans hbid⟩
    · exact ⟨_, hmem.2 (.inl rfl), hid.trans (hentry.change_own row hrow).symm⟩
  · rcases List.mem_append.1 he' with he' | he'
    · obtain ⟨b, hb, version, hlow, hhigh, hkind⟩ := h.event e' he'
      obtain ⟨b', hb', hsame⟩ := hkept hb
      exact ⟨b', hb', version, hlow, hhigh.trans hsame.version, hsame.publicId.symm ▸ hkind⟩
    · refine ⟨_, hmem.2 (.inl rfl), _, hsound.version, le_rfl, ?_⟩
      rw [hevents] at he'
      rcases List.mem_cons.1 he' with rfl | he'
      · exact .inl hevent
      · exact .inr (hmails e' he')

end Entries

/-! ### Every interleaving -/

/-- The system of the calls. -/
abbrev BookingSys := Sys Db Key Supply AppError Answer Call

/-- The calls that are made have passed the checks of their dates. -/
def DatesChecked (_ : BookingSys) : Act Supply Call → Prop
  | .start _ call => call.DatesChecked
  | _ => True

instance (s : BookingSys) (a : Act Supply Call) : Decidable (DatesChecked s a) :=
  match a with
  | .start _ call => inferInstanceAs (Decidable call.DatesChecked)
  | .step .. | .abort _ => isTrue trivial

/-- The booking that a transition or an edit is asked of. -/
def Call.bookingId : Call → Option String
  | .approve _ publicId | .reject _ publicId _ | .updateAdmin _ _ publicId _ _ | .cancelOwn _ publicId | .cancelAdmin _ publicId _ => some publicId
  | .create .. | .createRoomTime .. | .updateRoomTime .. | .deleteRoomTime .. => none

/-- The calls that have made a transition or an edit of the booking. -/
def accepted (s : BookingSys) (publicId : String) : Set ℕ :=
  {p | ∃ call, s.proc p = some (call, .committed (.transition false)) ∧ call.bookingId = some publicId}

/-- What holds in every state of an interleaving. -/
structure Audit (cfg : Config) (rooms : List Room) (s : BookingSys) : Prop where
  promised : Sys.Promised (recordDiscipline rooms) (BookingPromise cfg rooms) s
  checked : ∀ p call ph, s.proc p = some (call, ph) → call.DatesChecked
  journal : Journal rooms s.db.tables
  counted : ∀ b ∈ s.db.bookings, (accepted s b.publicId).encard + 1 = b.version
  named : ∀ publicId, ∀ p ∈ accepted s publicId, ∃ b ∈ s.db.bookings, b.publicId = publicId

section Runs

variable {cfg : Config} {rooms : List Room} {s s' : BookingSys} {a : Act Supply Call} {start : Db → Prop}

theorem Entry.bookingId {call : Call} {old new : Booking} {r : Rows} {t : BookingTables} (h : Entry cfg rooms call (.saved old new) r)
    (hown : Draft.Own t (.saved old new)) : call.bookingId = some old.publicId := by
  generalize hd : Draft.saved old new = d at h
  cases h with
  | created => cases hd
  | moved now x ht hid hstatus hevents =>
    cases hd
    cases ht <;> exact congrArg some hid.symm
  | edited now x y hid he hevents =>
    cases hd
    exact congrArg some hid.symm

/-- What is accepted after a commit: what was, and the call that commits. -/
theorem mem_accepted_of_commits {p : ℕ} {call : Call} {answer : Answer} (hc : Sys.Commits p call answer s s') {publicId : String} {q : ℕ} :
    q ∈ accepted s' publicId ↔ q ∈ accepted s publicId ∨ q = p ∧ answer = .transition false ∧ call.bookingId = some publicId := by
  by_cases hqp : q = p
  · subst hqp
    obtain ⟨call', code, pend, view, hrun⟩ := hc.running
    simp [accepted, hc.committed, hrun]
  · simp [accepted, hc.others q hqp, hqp]

theorem accepted_of_idles (he : (machine (Call.run cfg) start).exec s a = some s') (h : Sys.Idles s s') (publicId : String) :
    accepted s' publicId = accepted s publicId := by
  ext p
  constructor
  · rintro ⟨call, hp, hid⟩
    exact ⟨call, h.2 p call _ hp, hid⟩
  · rintro ⟨call, hp, hid⟩
    exact ⟨call, ended_of_exec he (by simp) hp, hid⟩

/-- A call that commits was not accepted before. -/
theorem notMem_accepted_of_commits {p : ℕ} {call : Call} {answer : Answer} (hc : Sys.Commits p call answer s s') (publicId : String) :
    p ∉ accepted s publicId := by
  rintro ⟨call', hp, -⟩
  obtain ⟨call'', code, pend, view, hrun⟩ := hc.running
  rw [hrun] at hp
  cases hp

/-- With an entry, the version of a booking still counts the calls that were accepted. -/
theorem Audit.counted_of_entry (h : Audit cfg rooms s) {p : ℕ} {call : Call} {answer : Answer} {d : Draft} {r : Rows}
    (hc : Sys.Commits p call answer s s') (hentry : Entry cfg rooms call d r) (hown : d.Own s.db.tables) (hanswer : d.Answered answer) {b : Booking}
    (hb : b ∈ d.apply s.db.bookings) : (accepted s' b.publicId).encard + 1 = b.version := by
  have hmem := @mem_accepted_of_commits s s' p call answer hc
  have hkeyed := h.promised.good.inv.1
  rcases (Draft.mem_apply hown).1 hb with rfl | ⟨hmemb, hid⟩
  · have hone := hentry.one
    have hversion := hentry.version
    cases d with
    | created b =>
      -- nobody has asked anything of a booking that is new
      have hnone : accepted s' b.publicId = ∅ := by
        refine Set.eq_empty_iff_forall_notMem.2 fun q hq => ?_
        rcases hmem.1 hq with hq | ⟨-, heq, -⟩
        · obtain ⟨x, hx, hxid⟩ := h.named _ q hq
          exact (hown x hx).2 hxid
        · exact hanswer heq
      rw [Draft.booking] at hversion ⊢
      rw [Draft.versionBefore, Nat.zero_add, hone] at hversion
      rw [hnone, hversion, Set.encard_empty]
      rfl
    | saved old new =>
      have hinsert : accepted s' new.publicId = insert p (accepted s old.publicId) := by
        ext q
        rw [hmem, hown.2.2, hentry.bookingId hown, Set.mem_insert_iff]
        exact ⟨fun hq => hq.symm.imp_left And.left, fun hq => hq.symm.imp_right fun hqp => ⟨hqp, hanswer, rfl⟩⟩
      rw [Draft.booking] at hversion ⊢
      rw [Draft.versionBefore, Nat.add_assoc, hone] at hversion
      rw [hinsert, Set.encard_insert_of_notMem (notMem_accepted_of_commits hc _), h.counted old hown.1, hversion]
      rfl
  · have hsame : accepted s' b.publicId = accepted s b.publicId := by
      ext q
      rw [hmem]
      refine or_iff_left fun ⟨_, heq, hbooking⟩ => ?_
      cases d with
      | created x => exact hanswer heq
      | saved old new =>
        rw [hentry.bookingId hown, Option.some.injEq] at hbooking
        exact hid (congrArg Booking.id (Table.UniqueBy.of_nodup hkeyed.publicIds b hmemb old hown.1 hbooking.symm))
    rw [hsame]
    exact h.counted b hmemb

/-- A step keeps what holds of the interleaving. -/
theorem Audit.step (h : Audit cfg rooms s) (hon : cfg.lifecycleEnabled = true) (hcheck : DatesChecked s a)
    (he : (machine (Call.run cfg) start).exec s a = some s') : Audit cfg rooms s' := by
  obtain ⟨hpromised, hmoves⟩ := h.promised.step (run_records cfg rooms) he
  have hchecked : ∀ p call ph, s'.proc p = some (call, ph) → call.DatesChecked := by
    intro p call ph hp
    rcases call_of_exec he hp with rfl | ⟨ph', hp'⟩
    · exact hcheck
    · exact h.checked p call ph' hp'
  rcases hmoves with hidle | ⟨p, call, answer, hcommit, hstep⟩
  · refine ⟨hpromised, hchecked, hidle.1 ▸ h.journal, fun b hb => ?_, fun publicId p hp => ?_⟩
    · rw [accepted_of_idles he hidle]
      exact h.counted b (hidle.1 ▸ hb)
    · rw [accepted_of_idles he hidle] at hp
      exact hidle.1 ▸ h.named publicId p hp
  have hcall : call.DatesChecked := hchecked p call _ hcommit.committed
  have hmem := @mem_accepted_of_commits s s' p call answer hcommit
  have hkeyed := h.promised.good.inv.1
  rw [BookingPromise] at hstep
  generalize ht : s'.db.tables = t at hstep
  have hbookings : s'.db.bookings = t.bookings := ht ▸ rfl
  cases hstep with
  | idle hanswer =>
    have hsame : ∀ publicId, accepted s' publicId = accepted s publicId := by
      intro publicId
      ext q
      rw [hmem]
      exact or_iff_left fun hq => hanswer hq.2.1
    refine ⟨hpromised, hchecked, ht ▸ h.journal, fun b hb => ?_, fun publicId p hp => ?_⟩
    · rw [hsame]
      rw [hbookings] at hb
      exact h.counted b hb
    · rw [hsame] at hp
      rw [hbookings]
      exact h.named publicId p hp
  | @entered d r hentry hown hfits hanswer =>
    refine ⟨hpromised, hchecked, ht ▸ h.journal.write hon hcall hentry hkeyed hown hfits, fun b hb => ?_, fun publicId q hq => ?_⟩
    · rw [hbookings] at hb
      exact h.counted_of_entry hcommit hentry hown hanswer hb
    · have hkept : ∀ b ∈ s.db.bookings, b.publicId = publicId → ∃ b' ∈ s'.db.bookings, b'.publicId = publicId := by
        intro b hb hid
        obtain ⟨b', hb', hsame⟩ := hentry.continues hkeyed hown hb
        exact ⟨b', hbookings ▸ hb', hsame.publicId.trans hid⟩
      rcases hmem.1 hq with hq | ⟨-, heq, hbooking⟩
      · obtain ⟨b, hb, hid⟩ := h.named publicId q hq
        exact hkept b hb hid
      · cases d with
        | created x => exact absurd heq hanswer
        | saved old new =>
          rw [hentry.bookingId hown, Option.some.injEq] at hbooking
          exact hkept old hown.1 hbooking

/-- A run starts from one store. -/
theorem exists_start {prog : Call → Tx Answer} {C : BookingSys → Act Supply Call → Prop} (h : (machine prog start).Reachable C s) :
    ∃ db, start db ∧ (machine prog (· = db)).Reachable C s := by
  induction h with
  | init hi =>
    obtain ⟨db, hdb, rfl⟩ := hi
    exact ⟨db, hdb, .init ⟨db, rfl, rfl⟩⟩
  | step _ hC he ih =>
    obtain ⟨db, hdb, hreach⟩ := ih
    exact ⟨db, hdb, hreach.step hC he⟩

/-- An empty hotel has nothing to tell. -/
theorem audit_start (roomTypes : List RoomType) : Audit cfg rooms (.start (.opening roomTypes rooms)) where
  promised := by
    refine ⟨.start ⟨⟨?_, List.nodup_nil, List.nodup_nil⟩, rfl⟩, fun p i code pend view hp => by cases hp⟩
    exact fun _ hx => absurd hx List.not_mem_nil
  checked p call ph hp := by cases hp
  journal := ⟨fun _ hb => absurd hb List.not_mem_nil, fun _ hb => absurd hb List.not_mem_nil, fun _ hb => absurd hb List.not_mem_nil,
    fun _ hb => absurd hb List.not_mem_nil, fun _ hb => absurd hb List.not_mem_nil⟩
  counted _ hb := absurd hb List.not_mem_nil
  named _ p := by
    rintro ⟨call, hp, -⟩
    cases hp

theorem audit_of_reachable (hon : cfg.lifecycleEnabled = true) (h : (bookingSystem cfg).Reachable DatesChecked s) : Audit cfg s.db.rooms s := by
  obtain ⟨db, ⟨roomTypes, rooms, rfl⟩, hreach⟩ := exists_start h
  have haudit : Audit cfg rooms s := by
    refine hreach.invariant ?_ fun s a s' hs hcheck he => hs.step hon hcheck he
    rintro _ ⟨db, rfl, rfl⟩
    exact audit_start roomTypes
  rwa [haudit.promised.good.inv.2]

/-- A booking lasts: it goes on, and once it is closed it stays in its room. -/
structure Lasts (db db' : Db) (b b' : Booking) : Prop extends Continues b b' where
  room : b.status.isActive = false → ∀ roomId, db'.stock.InRoom b' roomId ↔ db.stock.InRoom b roomId

theorem Lasts.refl (db : Db) (b : Booking) : Lasts db db b b := ⟨.refl b, fun _ _ => Iff.rfl⟩

theorem Lasts.trans {db₁ db₂ db₃ : Db} {b₁ b₂ b₃ : Booking} (h : Lasts db₁ db₂ b₁ b₂) (h' : Lasts db₂ db₃ b₂ b₃) : Lasts db₁ db₃ b₁ b₃ where
  toContinues := h.toContinues.trans h'.toContinues
  room hclosed roomId := by
    have hsame : b₂ = b₁ := h.closed hclosed
    exact (h'.room (hsame ▸ hclosed) roomId).trans (h.room hclosed roomId)

/-- With a step, every booking lasts: its row by the call that commits, its room by the windows. -/
theorem lasts_of_exec (hr : Sys.Promised (recordDiscipline rooms) (BookingPromise cfg rooms) s)
    (hw : Sys.Promised windowDiscipline (fun _ _ => WindowStep) s) (he : (machine (Call.run cfg) start).exec s a = some s') {b : Booking}
    (hb : b ∈ s.db.bookings) : ∃ b' ∈ s'.db.bookings, Lasts s.db s'.db b b' := by
  have hcontinues : ∃ b' ∈ s'.db.bookings, Continues b b' := by
    rcases (hr.step (run_records cfg rooms) he).2 with hidle | ⟨p, call, answer, hcommit, hstep⟩
    · exact ⟨b, hidle.1.symm ▸ hb, .refl b⟩
    · rw [BookingPromise] at hstep
      generalize ht : s'.db.tables = t at hstep
      have hbookings : s'.db.bookings = t.bookings := ht ▸ rfl
      rw [hbookings]
      cases hstep with
      | idle hanswer => exact ⟨b, hb, .refl b⟩
      | entered hentry hown hfits hanswer => exact hentry.continues hr.good.inv.1 hown hb
  obtain ⟨hw', hmoves⟩ := hw.step (run_houses cfg) he
  have hrooms : SameRooms s.db s'.db := by
    rcases hmoves with hidle | ⟨p, call, answer, -, hsame⟩
    · exact hw.good.inv.sameRooms (congrArg Db.roomTimes hidle.1)
    · exact hsame.rooms
  obtain ⟨b', hb', hbb'⟩ := hcontinues
  refine ⟨b', hb', hbb', fun hclosed roomId => ?_⟩
  exact inRoom_of_sameRooms hw.good.inv hw'.good.inv hrooms hb hb' (congrArg Booking.roomTimeId (hbb'.closed hclosed)) roomId

/-- With a run, every booking lasts. -/
theorem lasts_of_run (hr : Sys.Promised (recordDiscipline rooms) (BookingPromise cfg rooms) s)
    (hw : Sys.Promised windowDiscipline (fun _ _ => WindowStep) s) {as : List (Act Supply Call)}
    (hrun : (machine (Call.run cfg) start).run s as = some s') {b : Booking} (hb : b ∈ s.db.bookings) :
    ∃ b' ∈ s'.db.bookings, Lasts s.db s'.db b b' := by
  induction as generalizing s b with
  | nil =>
    obtain rfl := Option.some.inj hrun
    exact ⟨b, hb, .refl _ b⟩
  | cons a as ih =>
    rw [Machine.run_cons, Option.bind_eq_some_iff] at hrun
    obtain ⟨t, he, hrun⟩ := hrun
    obtain ⟨b', hb', hfirst⟩ := lasts_of_exec hr hw he hb
    obtain ⟨b'', hb'', hrest⟩ := ih (hr.step (run_records cfg rooms) he).1 (hw.step (run_houses cfg) he).1 hrun hb'
    exact ⟨b'', hb'', hfirst.trans hrest⟩

end Runs

/-! ### The rows of a version -/

/-- The lifecycle rows of a version of a booking. -/
def lifecycleRows (db : Db) (b : Booking) (version : ℕ) : List OutboxEvent :=
  db.outboxEvents.filter fun e => e.eventType = bookingLifecycleEventType ∧
    e.idempotencyKey = outboxIdempotencyKey bookingLifecycleEventType { b with version := version }

/-- The mails of a type about a version of a booking. -/
def mailRows (db : Db) (b : Booking) (eventType : BookingOutboxEventType) (version : ℕ) : List OutboxEvent :=
  db.outboxEvents.filter fun e => e.eventType = eventType.text ∧
    e.idempotencyKey = outboxIdempotencyKey eventType.text { b with version := version }

theorem eq_singleton_of_mem {ρ : Type} {rows : List ρ} (h : rows.length ≤ 1) {x : ρ} (hx : x ∈ rows) : rows = [x] := by
  match rows, h, hx with
  | [y], _, hx => rw [List.mem_singleton.1 hx]

/-- What is told of a booking, in a state of an interleaving. -/
structure Audited (validator : ClassValidator) (s : BookingSys) (b : Booking) : Prop where
  /-- The status rows link up, from nothing to the status of the booking. -/
  chain : HistoryChain (statusRows s.db.tables b.id) none (some b.status)
  moves : ∀ row ∈ statusRows s.db.tables b.id, IsMove row
  ordered : (statusRows s.db.tables b.id).Pairwise (·.id < ·.id)
  /-- The version is one more than the transitions and edits that were accepted. -/
  version : (b.version : ℕ∞) = (accepted s b.publicId).encard + 1
  rows : b.version = (statusRows s.db.tables b.id).length + (changeRows s.db.tables b.id).length
  mail : ∀ eventType version, (mailRows s.db b eventType version).length ≤ 1
  /-- Each version has one lifecycle row, and the relay accepts it as long as the version is exact. -/
  lifecycle : ∀ version, 1 ≤ version → version ≤ b.version → ∃ e change, lifecycleRows s.db b version = [e] ∧
    e.payload = toBookingLifecyclePayload change ∧ change.booking.publicId = b.publicId ∧ change.booking.version = version ∧
    ((∃ p, parseBookingLifecyclePayload validator e.payload = .ok p) ↔ version ≤ maxSafeInteger)
  unborn : ∀ version, version = 0 ∨ b.version < version → lifecycleRows s.db b version = []

section Rows

variable {cfg : Config} {rooms : List Room} {s : BookingSys} {validator : ClassValidator}

/-- The key of an event tells the booking and the version. -/
theorem exists_key {publicId : String} {version : ℕ} {e : OutboxEvent} (h : IsLifecycleOf rooms publicId version e ∨ IsMailOf publicId version e) :
    ∃ eventType ∈ bookingEventTypes, ∃ b : Booking, e.idempotencyKey = outboxIdempotencyKey eventType b ∧ b.publicId = publicId ∧ b.version = version := by
  rcases h with ⟨change, x, rfl, -, hid, hversion⟩ | ⟨booking, eventType, room, reason, change, x, rfl, hid, hversion⟩
  · exact ⟨_, lifecycle_mem_bookingEventTypes, change.booking, rfl, hid, hversion⟩
  · exact ⟨_, text_mem_bookingEventTypes eventType, booking, rfl, hid, hversion⟩

theorem Audit.audited (h : Audit cfg rooms s) (hrooms : ∀ room ∈ rooms, LegalRoom validator room)
    (hids : ∀ b ∈ s.db.bookings, publicBookingIdPattern b.publicId = true) {b : Booking} (hb : b ∈ s.db.bookings) : Audited validator s b := by
  obtain ⟨hchain, hmoves, hordered, hversion, hlifecycle⟩ := h.journal.trail b hb
  have hkeys := h.promised.good.inv.1.events
  have hone : ∀ version, (lifecycleRows s.db b version).length ≤ 1 := fun version =>
    Table.length_filter_key_le_one hkeys fun e he => (of_decide_eq_true he).2
  refine ⟨hchain, hmoves, hordered, (h.counted b hb).symm, hversion, fun eventType version => ?_, fun version hlow hhigh => ?_, fun version hout => ?_⟩
  · exact Table.length_filter_key_le_one hkeys fun e he => (of_decide_eq_true he).2
  · obtain ⟨e, he, change, x, rfl, hsound, hid, hchangeVersion⟩ := hlifecycle version hlow hhigh
    have hkey : outboxIdempotencyKey bookingLifecycleEventType change.booking = outboxIdempotencyKey bookingLifecycleEventType { b with version := version } := by
      rw [outboxIdempotencyKey, outboxIdempotencyKey, hid, hchangeVersion]
    refine ⟨_, change, eq_singleton_of_mem (hone version) (List.mem_filter.2 ⟨he, decide_eq_true ⟨rfl, hkey⟩⟩), rfl, hid, hchangeVersion, ?_⟩
    rw [← hchangeVersion]
    exact parse_toBookingLifecyclePayload hsound hrooms (hid ▸ hids b hb)
  · refine List.filter_eq_nil_iff.2 fun e he heq => ?_
    obtain ⟨-, hkey⟩ := of_decide_eq_true heq
    obtain ⟨b', hb', version', hlow, hhigh, hkind⟩ := h.journal.event e he
    obtain ⟨eventType, htype, x, hkey', hid, hversion'⟩ := exists_key hkind
    obtain ⟨-, hsame, hversions⟩ := outboxIdempotencyKey_inj htype lifecycle_mem_bookingEventTypes (hkey'.symm.trans hkey)
    obtain rfl := Table.UniqueBy.of_nodup h.promised.good.inv.1.publicIds b' hb' b hb (hid.symm.trans hsame)
    rw [hversion'] at hversions
    dsimp only at hversions
    omega

end Rows

/-! ### The result -/

def loudConfig : Config := ⟨true, 24, fun _ => "fingerprint"⟩

/-- What is drawn at the `n`-th statement. -/
def drawnAt (n : ℕ) : Supply :=
  { supplyOf 1 with id := n + 1, uuid := "3f1c0a52-8d3e-4b6a-9c57-2f10e6a7b" ++ toString (100 + n) }

/-- The guest asks to cancel after the approval, and is turned away. -/
def fullStay : List (Act Supply Call) :=
  let steps (p n : ℕ) : List (Act Supply Call) := (List.range n).map fun k => .step p (drawnAt (20 * p + k))
  let publicId := (supplyOf 1).publicId
  .start 0 (.createRoomTime 1 ⟨"2026-10-01", "2026-12-01", none⟩) :: steps 0 4 ++
  .start 1 (.create "2026-09-01" 41 (some "key-of-guest-41") ⟨1, "2026-10-05", "2026-10-08"⟩) :: steps 1 10 ++
  .start 2 (.approve 9 publicId) :: steps 2 11 ++ .start 3 (.cancelOwn 41 publicId) :: steps 3 2 ++
  .start 4 (.updateAdmin "2026-09-02" 9 publicId 2 ⟨none, none, some "2026-10-09", "One more night"⟩) :: steps 4 12 ++
  .start 5 (.cancelAdmin 9 publicId "Closed for repairs") :: steps 5 9

def fullStayEnd : Option BookingSys := (bookingSystem loudConfig).check DatesChecked oneRoom fullStay

theorem fullStayEnd_isSome : fullStayEnd.isSome = true := by decide

theorem fullStay_reachable : (bookingSystem loudConfig).Reachable DatesChecked (fullStayEnd.get fullStayEnd_isSome) :=
  .of_check (.init ⟨_, ⟨_, _, rfl⟩, rfl⟩) (Option.some_get fullStayEnd_isSome).symm

end HotelBackend.Bookings
