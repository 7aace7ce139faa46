import HotelBackend.Bookings.LatestRow
import HotelBackend.Bookings.LifecycleOrigin
import HotelBackend.Reports.BookingStats

/-!
# The read model

The pipeline from end to end: booking calls write bookings and lifecycle rows in one transaction, relays claim the
rows and publish them, the broker delivers what was offered, in any order and as often as it likes, and the
projection upserts it. Each stage was looked at by itself; here they run side by side on one outbox (`pipeline`).

The table of facts never tells of a booking what was not so, and once the relays and the consumer have caught up
it tells each booking as it is (`read_model_agrees`).
-/

namespace HotelBackend.Reports

open HotelBackend.Common
open HotelBackend.Theory
open HotelBackend.Theory.Transactions
open HotelBackend.Bookings
open HotelBackend.Rooms (Room)
open HotelBackend.Outbox
open HotelBackend.Notifications (publicBookingIdPattern)

/-! ### The system -/

structure Pipeline where
  bookings : BookingSys
  relays : Relays
  /-- The values that were delivered to the consumer. -/
  delivered : List (Option String)
  facts : List BookingStatsFactRow

inductive PipelineAction where
  /-- A statement of a booking call, or its start or abort. -/
  | booking (a : Act Supply Call)
  | relay (now : ℕ) (a : RelayAction)
  /-- A fetched batch is applied. -/
  | deliver (messages : List (Option String))

/-- Rows that a transaction commits are there for the relays. -/
def insertRows (v : StatsValidator) : Relays → List OutboxEvent → Option Relays
  | r, [] => some r
  | r, e :: es => (r.exec v.validator e.createdAt (.other (.insert e.id e.eventType e.payload e.idempotencyKey))).bind fun r' => insertRows v r' es

namespace Pipeline

def exec (cfg : Config) (v : StatsValidator) (s : Pipeline) : PipelineAction → Option Pipeline
  | .booking a => ((bookingSystem cfg).exec s.bookings a).bind fun bookings =>
    (insertRows v s.relays (bookings.db.outboxEvents.drop s.bookings.db.outboxEvents.length)).map fun relays =>
      { s with bookings := bookings, relays := relays }
  | .relay now a => (s.relays.exec v.validator now a).map fun relays => { s with relays := relays }
  | .deliver messages =>
    if messages.all fun m => s.relays.offered.any fun o => m = some o.value then
      some { s with delivered := s.delivered ++ messages, facts := applyBatch v bookingStatsUpsertChunkSize s.facts messages }
    else none

end Pipeline

def pipeline (cfg : Config) (v : StatsValidator) : Machine Pipeline PipelineAction where
  init s := (bookingSystem cfg).init s.bookings ∧ s = ⟨s.bookings, .empty, [], []⟩
  exec s a := s.exec cfg v a

/-- The type of a row that is inserted beside the booking calls. -/
def insertedType : RelayAction → Option String
  | .other (.insert _ eventType ..) => some eventType
  | _ => none

/-- Dates have passed their checks, ids are UUIDs and times fit their columns, and nobody else writes lifecycle rows. -/
def Supplied (cfg : Config) (v : StatsValidator) (s : Pipeline) : PipelineAction → Prop
  | .booking a => DatesChecked s.bookings a ∧ ((bookingSystem cfg).exec s.bookings a).all (fun bookings => bookings.db.outboxEvents.all fun e =>
      v.isUUID e.id ∧ e.createdAt / 1000 ≤ maxDatetimeMs) = true
  | .relay _ a => ∀ eventType ∈ insertedType a, eventType ∉ bookingLifecycleEventTypes
  | .deliver _ => True

instance (cfg : Config) (v : StatsValidator) (s : Pipeline) (a : PipelineAction) : Decidable (Supplied cfg v s a) :=
  match a with
  | .booking _ => inferInstanceAs (Decidable (_ ∧ _))
  | .relay _ a => inferInstanceAs (Decidable (∀ eventType ∈ insertedType a, _))
  | .deliver _ => isTrue trivial

/-! ### One outbox -/

section Rows

variable {v : StatsValidator} {r r' : Relays} {now : ℕ}

/-- What the relays have, of what was written. -/
structure Covers (v : StatsValidator) (written : List OutboxEvent) (r : Relays) : Prop where
  inv : r.Inv v.validator v.isUUID
  offers : r.Offers v.validator
  there : ∀ e ∈ written, ∃ e' ∈ r.outbox.rows, SameEvent e e'
  only : ∀ e' ∈ r.outbox.rows, e'.eventType ∈ bookingLifecycleEventTypes → ∃ e ∈ written, SameEvent e e'

/-- A step of the relays. -/
theorem Covers.step {written : List OutboxEvent} (h : Covers v written r) {a : RelayAction} (he : r.exec v.validator now a = some r')
    (hnone : ∀ eventType ∈ insertedType a, eventType ∉ bookingLifecycleEventTypes) : Covers v written r' := by
  have hstep := Relays.stepOf_of_exec he
  have hrecorded : Recorded v.isUUID r (now, a) := by
    unfold Recorded
    split
    case h_1 id eventType payload key heq =>
      obtain ⟨rfl, rfl⟩ := Prod.mk.inj heq
      exact fun htype => absurd htype (hnone _ rfl)
    case h_2 => trivial
  refine ⟨Bookings.inv_step h.inv hrecorded he, h.offers.step h.inv.outbox hstep, fun e hmem => ?_, fun e' he' htype => ?_⟩
  · obtain ⟨e', he', hsame⟩ := h.there e hmem
    rcases hstep.outbox with hout | ⟨st, hexec, -⟩
    · exact ⟨e', hout ▸ he', hsame⟩
    · obtain ⟨e'', he'', hsame'⟩ := kept_of_exec h.inv.outbox hexec he'
      exact ⟨e'', he'', hsame.trans hsame'⟩
  · rcases hstep.outbox with hout | ⟨st, hexec, hwho⟩
    · exact h.only e' (hout ▸ he') htype
    · rcases origin_of_exec h.inv.outbox hexec he' with ⟨e, hmem, hsame⟩ | ⟨id, eventType, payload, key, rfl, rfl⟩
      · obtain ⟨e₀, he₀, hsame₀⟩ := h.only e hmem (hsame.eventType ▸ htype)
        exact ⟨e₀, he₀, hsame₀.trans hsame⟩
      · rcases hwho with rfl | hfamily
        · exact absurd htype (hnone _ rfl)
        · cases hfamily

/-- An insert of a row that is written. -/
theorem Covers.insert {written : List OutboxEvent} (h : Covers v written r) {e : OutboxEvent} (hid : v.isUUID e.id = true ∧ e.createdAt / 1000 ≤ maxDatetimeMs)
    (he : r.exec v.validator e.createdAt (.other (.insert e.id e.eventType e.payload e.idempotencyKey)) = some r') :
    Covers v (written ++ [e]) r' ∧ r'.offered = r.offered := by
  have hstep := Relays.stepOf_of_exec he
  have hinv := Bookings.inv_step h.inv (a := .other (.insert e.id e.eventType e.payload e.idempotencyKey)) (fun _ => hid) he
  have hoffers := h.offers.step h.inv.outbox hstep
  simp only [Relays.exec] at he
  rw [if_neg (by rintro ⟨⟩)] at he
  obtain ⟨o, hexec, rfl⟩ := Option.map_eq_some_iff.1 he
  refine ⟨⟨hinv, hoffers, fun e₀ he₀ => ?_, fun e' he' htype => ?_⟩, rfl⟩
  · rcases List.mem_append.1 he₀ with he₀ | he₀
    · obtain ⟨e', he', hsame⟩ := h.there e₀ he₀
      obtain ⟨e'', he'', hsame'⟩ := kept_of_exec h.inv.outbox hexec he'
      exact ⟨e'', he'', hsame.trans hsame'⟩
    · obtain rfl := List.mem_singleton.1 he₀
      obtain ⟨-, hrow⟩ := Option.ite_none_left_eq_some.1 hexec
      obtain rfl := Option.some.inj hrow
      exact ⟨_, List.mem_append_right _ (List.mem_singleton.2 rfl), rfl, rfl, rfl, rfl⟩
  · rcases origin_of_exec h.inv.outbox hexec he' with ⟨e₁, hmem, hsame⟩ | ⟨id, eventType, payload, key, heq, rfl⟩
    · obtain ⟨e₀, he₀, hsame₀⟩ := h.only e₁ hmem (hsame.eventType ▸ htype)
      exact ⟨e₀, List.mem_append_left _ he₀, hsame₀.trans hsame⟩
    · cases heq
      exact ⟨e, List.mem_append_right _ (List.mem_singleton.2 rfl), rfl, rfl, rfl, rfl⟩

theorem Covers.insertRows {written es : List OutboxEvent} (h : Covers v written r) (hids : ∀ e ∈ es, v.isUUID e.id = true ∧ e.createdAt / 1000 ≤ maxDatetimeMs)
    (he : Reports.insertRows v r es = some r') : Covers v (written ++ es) r' ∧ r'.offered = r.offered := by
  induction es generalizing r written with
  | nil =>
    obtain rfl := Option.some.inj he
    exact ⟨(List.append_nil written).symm ▸ h, rfl⟩
  | cons e es ih =>
    obtain ⟨r₁, hfirst, hrest⟩ := Option.bind_eq_some_iff.1 he
    obtain ⟨h₁, hoffered₁⟩ := h.insert (hids e List.mem_cons_self) hfirst
    obtain ⟨h₂, hoffered₂⟩ := ih h₁ (fun e' he' => hids e' (List.mem_cons_of_mem _ he')) hrest
    rw [List.append_assoc, List.singleton_append] at h₂
    exact ⟨h₂, hoffered₂.trans hoffered₁⟩

end Rows

/-! ### The facts that may be delivered -/

/-- The fact of a lifecycle row. -/
def changeFact (change : BookingLifecycleChange) (e : OutboxEvent) : BookingStatsFactRow :=
  toBookingStatsFact ⟨e.id, (e.createdAt / 1000 : ℕ), change.received⟩

section Facts

variable {v : StatsValidator} {rooms : List Room} {change : BookingLifecycleChange} {x : Supply} {e : OutboxEvent}

theorem changeFact_of_same {e' : OutboxEvent} (h : SameEvent e e') : changeFact change e' = changeFact change e := by
  rw [changeFact, changeFact, h.id, h.createdAt]

/-- The row of a sound change is read as the change, or refused for its version. -/
theorem parsePayload_of_row (hchange : SoundChange rooms change) (hrooms : ∀ room ∈ rooms, LegalRoom v.validator room)
    (hid : publicBookingIdPattern change.booking.publicId = true) (hsame : SameEvent (lifecycleEvent change x) e) :
    (change.booking.version ≤ maxSafeInteger → parsePayload v.validator (readPayload e.payload) = .ok change.received) ∧
      ∀ p, parsePayload v.validator (readPayload e.payload) = .ok p → p = change.received ∧ change.booking.version ≤ maxSafeInteger := by
  have hpayload : readPayload e.payload = some (toBookingLifecyclePayload change) := by
    rw [hsame.payload]
    rfl
  rw [hpayload, parsePayload]
  have hread : change.booking.version ≤ maxSafeInteger →
      parseBookingLifecyclePayload v.validator (toBookingLifecyclePayload change) = .ok change.received := fun hversion => by
    rw [toBookingLifecyclePayload_eq hversion hchange.booking.price]
    exact parse_fields (hchange.valid hrooms hid hversion)
  refine ⟨hread, fun p hp => ?_⟩
  have hversion := (parse_toBookingLifecyclePayload hchange hrooms hid).1 ⟨p, hp⟩
  rw [hread hversion] at hp
  exact ⟨(Except.ok.inj hp).symm, hversion⟩

/-- Its message is the fact. -/
theorem toFact_of_row (hchange : SoundChange rooms change) (hrooms : ∀ room ∈ rooms, LegalRoom v.validator room)
    (hid : publicBookingIdPattern change.booking.publicId = true) (hversion : change.booking.version ≤ maxSafeInteger)
    (hrecorded : v.isUUID e.id = true ∧ e.createdAt / 1000 ≤ maxDatetimeMs) :
    toFact v (some (toBookingLifecycleMessage (claimedRow e) change.received).value) = some (changeFact change e) := by
  have hparsed : parseBookingLifecycleMessage v.validator v.isUUID (some (toBookingLifecycleMessage (claimedRow e) change.received).value) = _ :=
    parse_toBookingLifecycleMessage (hchange.valid hrooms hid hversion) hrecorded.1 (isStorableYear_of_le hrecorded.2)
  rw [toFact, hparsed]
  rfl

end Facts

/-! ### The invariant -/

structure Pipeline.Inv (cfg : Config) (v : StatsValidator) (rooms : List Room) (s : Pipeline) : Prop where
  audit : Audit cfg rooms s.bookings
  windows : Sys.Promised windowDiscipline (fun _ _ => WindowStep) s.bookings
  latest : ∀ b ∈ s.bookings.db.bookings, LatestTold rooms s.bookings.db b
  covers : Covers v s.bookings.db.outboxEvents s.relays
  delivered : ∀ m ∈ s.delivered, ∃ o ∈ s.relays.offered, m = some o.value
  facts : factVersioning.IsNewest {f | f ∈ s.delivered.filterMap (toFact v)} s.facts

section Runs

variable {cfg : Config} {v : StatsValidator} {rooms : List Room} {s s' : Pipeline}

/-- A booking call adds to the outbox. -/
theorem outboxEvents_append {t t' : BookingSys} {a : Act Supply Call} {start : Db → Prop} (h : Audit cfg rooms t)
    (he : (machine (Call.run cfg) start).exec t a = some t') : ∃ es, t'.db.outboxEvents = t.db.outboxEvents ++ es := by
  rcases (h.promised.step (run_records cfg rooms) he).2 with hidle | ⟨p, call, answer, -, hstep⟩
  · exact ⟨[], by rw [hidle.1, List.append_nil]⟩
  · rw [BookingPromise] at hstep
    generalize ht : t'.db.tables = tables at hstep
    have hevents : t'.db.outboxEvents = tables.outboxEvents := ht ▸ rfl
    cases hstep with
    | idle hanswer => exact ⟨[], hevents.trans (List.append_nil _).symm⟩
    | @entered d r hentry hown hfits hanswer => exact ⟨r.events, hevents⟩

theorem Pipeline.Inv.step (h : s.Inv cfg v rooms) (hon : cfg.lifecycleEnabled = true) {a : PipelineAction} (hsupplied : Supplied cfg v s a)
    (he : s.exec cfg v a = some s') : s'.Inv cfg v rooms := by
  cases a with
  | booking a =>
    obtain ⟨t, hexec, he⟩ := Option.bind_eq_some_iff.1 he
    obtain ⟨r, hinsert, rfl⟩ := Option.map_eq_some_iff.1 he
    obtain ⟨hchecked, hids⟩ := hsupplied
    rw [hexec, Option.all_some, List.all_eq_true] at hids
    obtain ⟨es, hes⟩ := outboxEvents_append h.audit hexec
    rw [hes, List.drop_left] at hinsert
    obtain ⟨hcovers, hoffered⟩ := h.covers.insertRows (fun e hmem => of_decide_eq_true (hids e (hes ▸ List.mem_append_right _ hmem))) hinsert
    refine ⟨h.audit.step hon hchecked hexec, (h.windows.step (run_houses cfg) hexec).1, latest_step h.audit h.windows hon hchecked hexec h.latest,
      ?_, fun m hm => ?_, h.facts⟩
    · show Covers v t.db.outboxEvents r
      rw [hes]
      exact hcovers
    · show ∃ o ∈ r.offered, m = some o.value
      rw [hoffered]
      exact h.delivered m hm
  | relay now a =>
    obtain ⟨r, hexec, rfl⟩ := Option.map_eq_some_iff.1 he
    obtain ⟨ms, hoffered, -⟩ := (Relays.stepOf_of_exec hexec).offered
    refine ⟨h.audit, h.windows, h.latest, h.covers.step hexec hsupplied, fun m hm => ?_, h.facts⟩
    obtain ⟨o, ho, rfl⟩ := h.delivered m hm
    exact ⟨o, hoffered ▸ List.mem_append_left _ ho, rfl⟩
  | deliver messages =>
    obtain ⟨hoffered, he⟩ := Option.ite_none_right_eq_some.1 he
    obtain rfl := Option.some.inj he
    refine ⟨h.audit, h.windows, h.latest, h.covers, List.forall_mem_append.2 ⟨h.delivered, fun m hm => ?_⟩, ?_⟩
    · obtain ⟨o, ho, heq⟩ := List.any_eq_true.1 (List.all_eq_true.1 hoffered m hm)
      exact ⟨o, ho, of_decide_eq_true heq⟩
    · have happlied : factVersioning.IsNewest _ (applyBatch v bookingStatsUpsertChunkSize s.facts messages) :=
        applyBatch_newest (by decide) h.facts messages
      have hset : {f | f ∈ (s.delivered ++ messages).filterMap (toFact v)} =
          {f | f ∈ s.delivered.filterMap (toFact v)} ∪ {f | f ∈ messages.filterMap (toFact v)} := by
        ext f
        rw [List.filterMap_append]
        exact List.mem_append
      show factVersioning.IsNewest {f | f ∈ (s.delivered ++ messages).filterMap (toFact v)} _
      rw [hset]
      exact happlied

theorem pipeline_inv (hon : cfg.lifecycleEnabled = true) (h : (pipeline cfg v).Reachable (Supplied cfg v) s) :
    s.Inv cfg v s.bookings.db.rooms := by
  have hall : ∃ rooms, s.Inv cfg v rooms := by
    refine h.invariant (I := fun s => ∃ rooms, s.Inv cfg v rooms) ?_ fun s a s' ⟨rooms, hs⟩ hsupplied he => ⟨rooms, hs.step hon hsupplied he⟩
    rintro ⟨bookings, relays, delivered, facts⟩ ⟨⟨db, ⟨roomTypes, rooms, rfl⟩, hstart⟩, heq⟩
    cases heq
    obtain rfl : bookings = _ := hstart
    refine ⟨rooms, audit_start roomTypes, @housed_of_reachable cfg (fun _ _ => True) _ (.init ⟨_, ⟨roomTypes, rooms, rfl⟩, rfl⟩),
      fun _ hb => absurd hb List.not_mem_nil, ⟨relays_inv (.init rfl), ⟨fun _ hm => absurd hm List.not_mem_nil, ?_⟩, ?_, ?_⟩, ?_, ?_⟩
    · rintro m ⟨relay, c, hc, -⟩
      cases hc
    · exact fun _ hm => absurd hm List.not_mem_nil
    · exact fun _ hm => absurd hm List.not_mem_nil
    · exact fun _ hm => absurd hm List.not_mem_nil
    · exact ⟨List.nodup_nil, fun _ hf => absurd hf List.not_mem_nil, fun _ hf => absurd hf List.not_mem_nil⟩
  obtain ⟨rooms, hinv⟩ := hall
  rwa [hinv.audit.promised.good.inv.2]

end Runs

/-! ### Facts and bookings -/

/-- The fact tells the booking as it is. -/
structure FactOf (db : Db) (b : Booking) (f : BookingStatsFactRow) : Prop where
  publicId : f.bookingPublicId = b.publicId
  version : f.bookingVersion = b.version
  status : f.status = b.status
  stay : f.checkIn = b.checkIn ∧ f.checkOut = b.checkOut
  price : f.priceAmount = b.priceAmount ∧ f.currency = b.currency
  room : ∃ room ∈ db.rooms, db.stock.InRoom b room.id ∧ f.roomId = toString room.id ∧ f.roomTypeId = toString room.roomTypeId

/-- The relays have dealt with every lifecycle row, and what they published has been delivered. -/
structure Pipeline.CaughtUp (s : Pipeline) : Prop where
  relayed : ∀ e ∈ s.relays.outbox.rows, e.eventType ∈ bookingLifecycleEventTypes → e.status = .processed ∨ e.status = .failed
  delivered : ∀ m ∈ s.relays.published, some m.value ∈ s.delivered

section Agreement

variable {cfg : Config} {v : StatsValidator} {s : Pipeline}

/-- The rows, as far as they may be read. -/
structure Readable (v : StatsValidator) (db : Db) : Prop where
  rooms : ∀ room ∈ db.rooms, LegalRoom v.validator room
  ids : ∀ b ∈ db.bookings, publicBookingIdPattern b.publicId = true

/-- A lifecycle row that is written is that of a booking. -/
theorem lifecycle_of_written {rooms : List Room} (h : s.Inv cfg v rooms) {e : OutboxEvent} (he : e ∈ s.bookings.db.outboxEvents)
    (htype : e.eventType ∈ bookingLifecycleEventTypes) : ∃ change x, e = lifecycleEvent change x ∧ SoundChange rooms change ∧
      ∃ b ∈ s.bookings.db.bookings, change.booking.publicId = b.publicId ∧ change.booking.version ≤ b.version := by
  obtain ⟨b, hb, version, -, hle, ⟨change, x, rfl, hchange, hid, hversion⟩ | ⟨booking, eventType, room, reason, change, x, rfl, -⟩⟩ :=
    h.audit.journal.event e he
  · exact ⟨change, x, rfl, hchange, b, hb, hid, hversion ▸ hle⟩
  · have hne : eventType.text ∉ bookingLifecycleEventTypes := by cases eventType <;> decide
    exact absurd htype hne

/-- A fact that was delivered is that of a lifecycle row. -/
theorem origin_of_delivered (h : s.Inv cfg v s.bookings.db.rooms) (hread : Readable v s.bookings.db) {f : BookingStatsFactRow}
    (hf : f ∈ s.delivered.filterMap (toFact v)) : ∃ change x, lifecycleEvent change x ∈ s.bookings.db.outboxEvents ∧
      SoundChange s.bookings.db.rooms change ∧ change.booking.version ≤ maxSafeInteger ∧ f = changeFact change (lifecycleEvent change x) ∧
      ∃ b ∈ s.bookings.db.bookings, change.booking.publicId = b.publicId ∧ change.booking.version ≤ b.version := by
  obtain ⟨m, hm, hfact⟩ := List.mem_filterMap.1 hf
  obtain ⟨o, ho, rfl⟩ := h.delivered m hm
  obtain ⟨e', he', htype, p, hp, rfl⟩ := h.covers.offers.offered o ho
  obtain ⟨e, he, hsame⟩ := h.covers.only e' he' htype
  obtain ⟨change, x, rfl, hchange, b, hb, hid, hle⟩ := lifecycle_of_written h he (hsame.eventType ▸ htype)
  have hpattern : publicBookingIdPattern change.booking.publicId = true := hid ▸ hread.ids b hb
  obtain ⟨rfl, hversion⟩ := (parsePayload_of_row hchange hread.rooms hpattern hsame).2 p hp
  rw [toFact_of_row hchange hread.rooms hpattern hversion (h.covers.inv.recorded e' he' htype), Option.some.injEq] at hfact
  exact ⟨change, x, he, hchange, hversion, by rw [← hfact, changeFact_of_same hsame], b, hb, hid, hle⟩

/-- The rows of one version of a booking are one, and they have one fact. -/
theorem changeFact_unique (h : s.Inv cfg v s.bookings.db.rooms) (hread : Readable v s.bookings.db) {change change' : BookingLifecycleChange}
    {x x' : Supply} (he : lifecycleEvent change x ∈ s.bookings.db.outboxEvents) (he' : lifecycleEvent change' x' ∈ s.bookings.db.outboxEvents)
    (hchange : SoundChange s.bookings.db.rooms change) (hchange' : SoundChange s.bookings.db.rooms change')
    (hid : change.booking.publicId = change'.booking.publicId) (hversion : change.booking.version = change'.booking.version)
    (hpattern : publicBookingIdPattern change.booking.publicId = true) (hle : change.booking.version ≤ maxSafeInteger) :
    changeFact change (lifecycleEvent change x) = changeFact change' (lifecycleEvent change' x') := by
  have hkey : (lifecycleEvent change x).idempotencyKey = (lifecycleEvent change' x').idempotencyKey := by
    show outboxIdempotencyKey _ change.booking = outboxIdempotencyKey _ change'.booking
    rw [outboxIdempotencyKey, outboxIdempotencyKey, hid, hversion]
  have hevent : lifecycleEvent change x = lifecycleEvent change' x' :=
    Table.UniqueBy.of_nodup h.audit.promised.good.inv.1.events _ he _ he' hkey
  have hread₁ := (parsePayload_of_row hchange hread.rooms hpattern (.refl (lifecycleEvent change x))).1 hle
  have hread₂ := (parsePayload_of_row hchange' hread.rooms (hid ▸ hpattern) (.refl (lifecycleEvent change' x'))).1 (hversion ▸ hle)
  rw [hevent, hread₂] at hread₁
  rw [changeFact, changeFact, hevent, Except.ok.inj hread₁]

/-- A fact of the version that a booking has tells the booking as it is. -/
theorem factOf_of_version (h : s.Inv cfg v s.bookings.db.rooms) (hread : Readable v s.bookings.db) {change : BookingLifecycleChange} {x : Supply}
    (he : lifecycleEvent change x ∈ s.bookings.db.outboxEvents) (hchange : SoundChange s.bookings.db.rooms change)
    (hle : change.booking.version ≤ maxSafeInteger) {b : Booking} (hb : b ∈ s.bookings.db.bookings) (hid : change.booking.publicId = b.publicId)
    (hversion : change.booking.version = b.version) : FactOf s.bookings.db b (changeFact change (lifecycleEvent change x)) := by
  obtain ⟨latest, y, hlatest, hsound, rfl, hroom⟩ := h.latest b hb
  rw [changeFact_unique h hread he hlatest hchange hsound hid hversion (hid ▸ hread.ids _ hb) hle]
  obtain ⟨room, hmem, heq⟩ := hsound.room
  refine ⟨rfl, rfl, rfl, ⟨rfl, rfl⟩, ⟨rfl, rfl⟩, room, hmem, ?_, ?_, ?_⟩
  · rw [heq] at hroom
    exact hroom
  · show toString latest.room.id = _
    rw [heq]
  · show toString latest.room.roomTypeId = _
    rw [heq]

/-- What the table tells of bookings. -/
structure TellsTrue (db : Db) (facts : List BookingStatsFactRow) : Prop where
  once : (facts.map (·.bookingPublicId)).Nodup
  /-- A fact is of a version that the booking has, or had. -/
  past : ∀ f ∈ facts, ∃ b ∈ db.bookings, f.bookingPublicId = b.publicId ∧ f.bookingVersion ≤ b.version ∧
    (f.bookingVersion = b.version → FactOf db b f)

theorem tellsTrue_of_inv (h : s.Inv cfg v s.bookings.db.rooms) (hread : Readable v s.bookings.db) : TellsTrue s.bookings.db s.facts where
  once := h.facts.keys
  past f hf := by
    obtain ⟨change, x, he, hchange, hle, rfl, b, hb, hid, hversion⟩ := origin_of_delivered h hread (h.facts.latest f hf).1
    exact ⟨b, hb, hid, hversion, fun heq => factOf_of_version h hread he hchange hle hb hid heq⟩

/-- Once the relays and the consumer have caught up, a booking has its fact. -/
theorem factOf_of_caughtUp (h : s.Inv cfg v s.bookings.db.rooms) (hread : Readable v s.bookings.db) (hcaught : s.CaughtUp) {b : Booking}
    (hb : b ∈ s.bookings.db.bookings) (hversion : b.version ≤ maxSafeInteger) : ∃ f ∈ s.facts, FactOf s.bookings.db b f := by
  obtain ⟨change, x, he, hchange, rfl, -⟩ := h.latest b hb
  have hpattern := hread.ids _ hb
  obtain ⟨e', he', hsame⟩ := h.covers.there _ he
  have htype : e'.eventType ∈ bookingLifecycleEventTypes := by
    rw [hsame.eventType]
    exact List.mem_singleton.2 rfl
  have hparsed := (parsePayload_of_row hchange hread.rooms hpattern hsame).1 hversion
  -- the row was published: the contract does not refuse it
  have hsent : Sent v.validator s.relays.published e' := by
    rcases hcaught.relayed e' he' htype with hprocessed | hfailed
    · exact h.covers.inv.processed e' he' htype hprocessed
    · obtain ⟨error, herror⟩ := h.covers.inv.failed e' he' htype hfailed
      rw [hparsed] at herror
      cases herror
  obtain ⟨p, hp, hpublished⟩ := hsent
  obtain rfl : p = change.received := Except.ok.inj (hp.symm.trans hparsed)
  have hfact := toFact_of_row hchange hread.rooms hpattern hversion (h.covers.inv.recorded e' he' htype)
  have hmem : changeFact change e' ∈ s.delivered.filterMap (toFact v) := List.mem_filterMap.2 ⟨_, hcaught.delivered _ hpublished, hfact⟩
  obtain ⟨f, hf, hkey⟩ := List.mem_map.1 (h.facts.cover _ hmem)
  obtain ⟨b', hb', hid, hle, htell⟩ := (tellsTrue_of_inv h hread).past f hf
  have hnewest : change.booking.version ≤ f.bookingVersion := (h.facts.latest f hf).2 _ hmem hkey.symm
  obtain rfl : b' = change.booking :=
    Table.UniqueBy.of_nodup h.audit.promised.good.inv.1.publicIds b' hb' _ hb (hid.symm.trans hkey)
  exact ⟨f, hf, htell (hle.antisymm hnewest)⟩

/-- **The read model agrees with the bookings**: at any time in what it tells, and for each booking that has been
relayed and delivered, in all of it. -/
theorem read_model_agrees (cfg : Config) (hon : cfg.lifecycleEnabled = true) (v : StatsValidator) (s : Pipeline)
    (h : (pipeline cfg v).Reachable (Supplied cfg v) s) (hread : Readable v s.bookings.db) :
    TellsTrue s.bookings.db s.facts ∧ (s.CaughtUp → ∀ b ∈ s.bookings.db.bookings, b.version ≤ maxSafeInteger → ∃ f ∈ s.facts, FactOf s.bookings.db b f) := by
  have hinv := pipeline_inv hon h
  exact ⟨tellsTrue_of_inv hinv hread, fun hcaught _ hb hversion => factOf_of_caughtUp hinv hread hcaught hb hversion⟩

end Agreement

/-! #### A stay, relayed and delivered -/

def streamValidator : StatsValidator := ⟨hotelValidator, (·.length = 36)⟩

/-- The stay that is booked, approved, made longer and cancelled, and a cycle of a relay after it. -/
def fullStream : List PipelineAction :=
  let none : String → Bool := fun _ => false
  fullStay.map .booking ++ [
    .relay 1790000000000100 (.claim 0 "claim" 10 60 none none .committed), .relay 1790000000000101 (.readClaimed 0 false),
    .relay 1790000000000102 (.markFailed 0 .committed), .relay 1790000000000103 (.publish 0), .relay 1790000000000104 (.answer 0 true),
    .relay 1790000000000105 (.markPublished 0 .committed)]

def fullStreamEnd : Option Pipeline :=
  (pipeline loudConfig streamValidator).check (Supplied loudConfig streamValidator) ⟨oneRoom, .empty, [], []⟩ fullStream

theorem fullStreamEnd_isSome : fullStreamEnd.isSome = true := by decide +kernel

theorem fullStream_reachable :
    (pipeline loudConfig streamValidator).Reachable (Supplied loudConfig streamValidator) (fullStreamEnd.get fullStreamEnd_isSome) :=
  .of_check (.init ⟨⟨_, ⟨_, _, rfl⟩, rfl⟩, rfl⟩) (Option.some_get fullStreamEnd_isSome).symm

/-- All that was offered is delivered. -/
def Pipeline.deliverOffered (v : StatsValidator) (s : Pipeline) : Pipeline :=
  let messages := s.relays.offered.map fun o => some o.value
  { s with delivered := s.delivered ++ messages, facts := applyBatch v bookingStatsUpsertChunkSize s.facts messages }

theorem Pipeline.exec_deliver {cfg : Config} {v : StatsValidator} (s : Pipeline) :
    (pipeline cfg v).exec s (.deliver (s.relays.offered.map fun o => some o.value)) = some (s.deliverOffered v) := by
  refine if_pos (List.all_eq_true.2 fun m hm => ?_)
  obtain ⟨o, ho, rfl⟩ := List.mem_map.1 hm
  exact List.any_eq_true.2 ⟨o, ho, decide_eq_true rfl⟩

theorem Pipeline.caughtUp_deliverOffered {v : StatsValidator} (s : Pipeline)
    (hrelayed : ∀ e ∈ s.relays.outbox.rows, e.status = .processed ∨ e.eventType ∉ bookingLifecycleEventTypes)
    (hpublished : ∀ m ∈ s.relays.published, m ∈ s.relays.offered) : (s.deliverOffered v).CaughtUp where
  relayed e he htype := (hrelayed e he).imp_right fun hother => absurd htype hother
  delivered m hm := List.mem_append_right _ (List.mem_map_of_mem (hpublished m hm))

theorem fullStreamEnd_relayed : ∀ e ∈ (fullStreamEnd.get fullStreamEnd_isSome).relays.outbox.rows,
    e.status = .processed ∨ e.eventType ∉ bookingLifecycleEventTypes := by
  decide +kernel

/-- The end of it, once all is delivered. -/
def fullStreamTold : Pipeline := (fullStreamEnd.get fullStreamEnd_isSome).deliverOffered streamValidator

theorem fullStreamTold_reachable : (pipeline loudConfig streamValidator).Reachable (Supplied loudConfig streamValidator) fullStreamTold :=
  fullStream_reachable.step (a := .deliver _) True.intro (Pipeline.exec_deliver _)

theorem fullStreamTold_bookings : fullStreamTold.bookings.db.bookings.map (fun b => (b.status, b.version)) = [(.cancelledByAdmin, 4)] ∧
    fullStreamTold.bookings.db.rooms = [⟨1, 7, "A-201", 1000000, "VND", .active⟩] ∧
    ∀ b ∈ fullStreamTold.bookings.db.bookings, publicBookingIdPattern b.publicId = true := by
  decide +kernel

theorem fullStreamTold_readable : Readable streamValidator fullStreamTold.bookings.db := by
  obtain ⟨-, hrooms, hids⟩ := fullStreamTold_bookings
  exact ⟨hrooms ▸ List.forall_mem_singleton.2 ⟨by decide, by decide, by decide⟩, hids⟩

theorem fullStreamTold_caughtUp : fullStreamTold.CaughtUp :=
  Pipeline.caughtUp_deliverOffered _ fullStreamEnd_relayed (pipeline_inv rfl fullStream_reachable).covers.inv.published

theorem read_model_agrees_fullStream : fullStreamTold.bookings.db.bookings.map (fun b => (b.status, b.version)) = [(.cancelledByAdmin, 4)] ∧
    TellsTrue fullStreamTold.bookings.db fullStreamTold.facts ∧
    ∀ b ∈ fullStreamTold.bookings.db.bookings, b.version ≤ maxSafeInteger → ∃ f ∈ fullStreamTold.facts, FactOf fullStreamTold.bookings.db b f := by
  obtain ⟨htrue, hcaught⟩ := read_model_agrees loudConfig rfl streamValidator _ fullStreamTold_reachable fullStreamTold_readable
  exact ⟨fullStreamTold_bookings.1, htrue, hcaught fullStreamTold_caughtUp⟩

end HotelBackend.Reports
