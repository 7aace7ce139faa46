import HotelBackend.Bookings.LifecycleMessage
import HotelBackend.Outbox.Permanence

/-!
# The lifecycle relay

`BookingLifecycleRelayService.runOnce`, by any number of relays on one outbox: a cycle claims
a batch, reads it back, fails what the contract refuses, publishes the rest in one call and
finishes it by the answer. Every statement may fail, or commit and lose its reply; a publish
may fail whether or not the broker took the messages; a relay may stop anywhere, and an
exception ends its cycle. Everyone else runs the other families' statements, and inserts.

`Relays.offered` are the messages of every publish call, `Relays.published` those of the calls
that succeeded.
-/

namespace HotelBackend.Bookings

open HotelBackend.Common
open HotelBackend.Theory
open HotelBackend.Outbox
open HotelBackend.Files (QueryOutcome)
open HotelBackend.Notifications (ClassValidator)

/-! ### The rows of a batch -/

/-- A JSON column as `readClaimed` takes it: a text is parsed once more. -/
def readPayload : Json → Option Json
  | .str text => parseJson text
  | payload => some payload

/-- The row as the relay reads it. -/
def claimedRow (e : OutboxEvent) : ClaimedLifecycleRow := ⟨e.id, readPayload e.payload, (e.createdAt / 1000 : ℕ)⟩

/-- `ORDER BY created_at ASC, id ASC`. -/
def beforeCreated (e g : OutboxEvent) : Prop := e.createdAt < g.createdAt ∨ (e.createdAt = g.createdAt ∧ e.id ≤ g.id)

instance : DecidableRel beforeCreated := fun _ _ => inferInstanceAs (Decidable (_ ∨ _))

def readClaimed (rows : List OutboxEvent) (ids : List String) (claimToken : String) : List ClaimedLifecycleRow :=
  if ids = [] then []
  else ((rows.filter fun e => e.id ∈ ids && e.eventType ∈ bookingLifecycleEventTypes && e.status = .processing &&
    e.lockedBy = some claimToken).insertionSort beforeCreated).map claimedRow

/-- `parseBookingLifecyclePayload` of a payload that may be `undefined`. -/
def parsePayload (validator : ClassValidator) (payload : Option Json) : Except BookingLifecyclePayloadError BookingLifecyclePayload :=
  match payload with
  | some payload => parseBookingLifecyclePayload validator payload
  | none => .error ⟨"payload"⟩

/-- What may be published of a batch, and what never will be. -/
structure PreparedBatch where
  messages : List BookingLifecycleMessage
  publishable : List String
  invalid : List String

def prepare (validator : ClassValidator) : List ClaimedLifecycleRow → PreparedBatch
  | [] => ⟨[], [], []⟩
  | row :: rows =>
    let rest := prepare validator rows
    match parsePayload validator row.payload with
    | .ok payload => ⟨toBookingLifecycleMessage row payload :: rest.messages, row.id :: rest.publishable, rest.invalid⟩
    | .error _ => ⟨rest.messages, rest.publishable, row.id :: rest.invalid⟩

/-! ### The system -/

/-- Where a cycle is. -/
inductive RelayPhase where
  /-- The claim has committed. -/
  | claimed (ids : List String)
  | prepared (batch : PreparedBatch)
  /-- The refused rows are dealt with. -/
  | checked (messages : List BookingLifecycleMessage) (publishable : List String)
  /-- The publish call is under way. -/
  | publishing (messages : List BookingLifecycleMessage) (publishable : List String)
  | published (publishable : List String)
  /-- The publish call threw. -/
  | refused (publishable : List String)

structure RelayCycle where
  claimToken : String
  phase : RelayPhase

structure Relays where
  outbox : State
  cycles : ℕ → Option RelayCycle
  offered : List BookingLifecycleMessage
  published : List BookingLifecycleMessage

def Relays.empty : Relays := ⟨⟨[], []⟩, fun _ => none, [], []⟩

inductive RelayAction where
  /-- An insert, or a statement of another family. -/
  | other (st : Statement)
  | claim (relay : ℕ) (claimToken : String) (claimBatchSize claimLeaseMs : ℕ) (skipExpired skipDue : String → Bool)
      (outcome : QueryOutcome)
  | readClaimed (relay : ℕ) (fails : Bool)
  | markFailed (relay : ℕ) (outcome : QueryOutcome)
  | publish (relay : ℕ)
  | answer (relay : ℕ) (succeeds : Bool)
  | markRetry (relay : ℕ) (backoffInitialMs backoffMaxMs : ℕ) (rand : String → ℚ) (outcome : QueryOutcome)
  | markPublished (relay : ℕ) (outcome : QueryOutcome)
  /-- The process dies, or its loop is stopped. -/
  | stop (relay : ℕ)

namespace Relays

def move (s : Relays) (relay : ℕ) (cycle : Option RelayCycle) : Relays :=
  { s with cycles := Function.update s.cycles relay cycle }

/-- A statement of a relay's own, and the cycle after its reply. -/
def statement (s : Relays) (relay now : ℕ) (st : Statement) (next : State → Option RelayCycle) : QueryOutcome → Option Relays
  | .failed => some (s.move relay none)
  | .committed => (s.outbox.exec now st).map fun o => { s.move relay (next o) with outbox := o }
  | .lostReply => (s.outbox.exec now st).map fun o => { s.move relay none with outbox := o }

/-- The cycle after its claim: it ends if nothing was claimed. -/
def afterClaim (claimToken : String) (o : State) : Option RelayCycle :=
  let ids := (o.claims.filter (·.claimToken = claimToken)).map (·.id)
  if ids = [] then none else some ⟨claimToken, .claimed ids⟩

/-- The cycle after the refused rows: it ends if nothing is left to publish. -/
def afterMarkFailed (claimToken : String) (batch : PreparedBatch) : Option RelayCycle :=
  if batch.publishable = [] then none else some ⟨claimToken, .checked batch.messages batch.publishable⟩

def exec (validator : ClassValidator) (s : Relays) (now : ℕ) : RelayAction → Option Relays
  | .other st => if st.family = some .bookingLifecycle then none else (s.outbox.exec now st).map fun o => { s with outbox := o }
  | .claim relay claimToken claimBatchSize claimLeaseMs skipExpired skipDue outcome =>
    match s.cycles relay with
    | some _ => none
    | none => s.statement relay now (.claim .bookingLifecycle claimBatchSize claimLeaseMs claimToken skipExpired skipDue)
        (afterClaim claimToken) outcome
  | .readClaimed relay fails => do
    let c ← s.cycles relay
    match c.phase with
    | .claimed ids =>
      if fails then some (s.move relay none)
      else
        let batch := prepare validator (Bookings.readClaimed s.outbox.rows ids c.claimToken)
        some (s.move relay (some { c with phase := .prepared batch }))
    | _ => none
  | .markFailed relay outcome => do
    let c ← s.cycles relay
    match c.phase with
    | .prepared batch =>
      -- no statement for no row
      if batch.invalid = [] then some (s.move relay (afterMarkFailed c.claimToken batch))
      else
        s.statement relay now (.lifecycleFailed batch.invalid c.claimToken "BOOKING_STREAM_EVENT_INVALID")
          (fun _ => afterMarkFailed c.claimToken batch) outcome
    | _ => none
  | .publish relay => do
    let c ← s.cycles relay
    match c.phase with
    | .checked messages publishable =>
      some { s.move relay (some { c with phase := .publishing messages publishable }) with offered := s.offered ++ messages }
    | _ => none
  | .answer relay succeeds => do
    let c ← s.cycles relay
    match c.phase with
    | .publishing messages publishable =>
      if succeeds then some { s.move relay (some { c with phase := .published publishable }) with published := s.published ++ messages }
      else some (s.move relay (some { c with phase := .refused publishable }))
    | _ => none
  | .markRetry relay backoffInitialMs backoffMaxMs rand outcome => do
    let c ← s.cycles relay
    match c.phase with
    | .refused publishable =>
      s.statement relay now (.lifecycleRetry publishable c.claimToken backoffInitialMs backoffMaxMs rand "BOOKING_STREAM_PUBLISH_FAILED")
        (fun _ => none) outcome
    | _ => none
  | .markPublished relay outcome => do
    let c ← s.cycles relay
    match c.phase with
    | .published publishable => s.statement relay now (.lifecyclePublished publishable c.claimToken) (fun _ => none) outcome
    | _ => none
  | .stop relay => some (s.move relay none)

end Relays

/-- Any number of relays, in any order. -/
def relays (validator : ClassValidator) : Machine Relays (ℕ × RelayAction) where
  init s := s = .empty
  exec s a := s.exec validator a.1 a.2

/-- The id of a lifecycle row is a `randomUUID()`, and its time fits its column. -/
def Recorded (isUUID : String → Bool) (_ : Relays) : ℕ × RelayAction → Prop
  | (now, .other (.insert id eventType ..)) => eventType ∈ bookingLifecycleEventTypes → isUUID id = true ∧ now / 1000 ≤ maxDatetimeMs
  | _ => True

/-! ### What a cycle knows -/

/-- The event is in the table with a payload that was accepted, and its message is among these. -/
def Sent (validator : ClassValidator) (messages : List BookingLifecycleMessage) (e : OutboxEvent) : Prop :=
  ∃ payload, parsePayload validator (readPayload e.payload) = .ok payload ∧ toBookingLifecycleMessage (claimedRow e) payload ∈ messages

/-- The contract refuses the event's payload. -/
def Refused (validator : ClassValidator) (e : OutboxEvent) : Prop :=
  ∃ error, parsePayload validator (readPayload e.payload) = .error error

/-- The consumers accept the message. -/
def Accepted (validator : ClassValidator) (isUUID : String → Bool) (message : BookingLifecycleMessage) : Prop :=
  ∃ event, parseBookingLifecycleMessage validator isUUID (some message.value) = .ok event

/-- A property of the event under an id. -/
def OfEvent (rows : List OutboxEvent) (P : OutboxEvent → Prop) (id : String) : Prop := ∃ e ∈ rows, e.id = id ∧ P e

/-- What holds at each point of a cycle. -/
def RelayPhase.Sound (validator : ClassValidator) (isUUID : String → Bool) (rows : List OutboxEvent)
    (offered published : List BookingLifecycleMessage) : RelayPhase → Prop
  | .claimed _ | .refused _ => True
  | .prepared batch => (∀ m ∈ batch.messages, Accepted validator isUUID m) ∧
      (∀ id ∈ batch.publishable, OfEvent rows (Sent validator batch.messages) id) ∧ ∀ id ∈ batch.invalid, OfEvent rows (Refused validator) id
  | .checked messages publishable =>
      (∀ m ∈ messages, Accepted validator isUUID m) ∧ ∀ id ∈ publishable, OfEvent rows (Sent validator messages) id
  | .publishing messages publishable => messages ⊆ offered ∧ ∀ id ∈ publishable, OfEvent rows (Sent validator messages) id
  | .published publishable => ∀ id ∈ publishable, OfEvent rows (Sent validator published) id

/-- The invariant of the relays. -/
structure Relays.Inv (validator : ClassValidator) (isUUID : String → Bool) (s : Relays) : Prop where
  outbox : Outbox.Inv s.outbox
  recorded : ∀ e ∈ s.outbox.rows, e.eventType ∈ bookingLifecycleEventTypes → isUUID e.id = true ∧ e.createdAt / 1000 ≤ maxDatetimeMs
  processed : ∀ e ∈ s.outbox.rows, e.eventType ∈ bookingLifecycleEventTypes → e.status = .processed → Sent validator s.published e
  failed : ∀ e ∈ s.outbox.rows, e.eventType ∈ bookingLifecycleEventTypes → e.status = .failed → Refused validator e
  offered : ∀ m ∈ s.offered, Accepted validator isUUID m
  published : ∀ m ∈ s.published, m ∈ s.offered
  cycles : ∀ relay c, s.cycles relay = some c → c.phase.Sound validator isUUID s.outbox.rows s.offered s.published

section Steps

variable {validator : ClassValidator} {isUUID : String → Bool} {s s' : Relays} {relay now : ℕ}

/-! ### Reading a batch -/

theorem mem_readClaimed {rows : List OutboxEvent} {ids : List String} {claimToken : String} {row : ClaimedLifecycleRow}
    (h : row ∈ readClaimed rows ids claimToken) : ∃ e ∈ rows, e.eventType ∈ bookingLifecycleEventTypes ∧ claimedRow e = row := by
  unfold readClaimed at h
  split at h
  · cases h
  · obtain ⟨e, he, rfl⟩ := List.mem_map.1 h
    rw [(List.perm_insertionSort _ _).mem_iff, List.mem_filter] at he
    simp only [Bool.and_eq_true, decide_eq_true_eq] at he
    exact ⟨e, he.1, he.2.1.1.2, rfl⟩

/-- Every row of a batch goes one way. -/
structure PreparedBatch.Of (validator : ClassValidator) (batch : PreparedBatch) (rows : List ClaimedLifecycleRow) : Prop where
  messages : ∀ m ∈ batch.messages, ∃ row ∈ rows, ∃ payload, parsePayload validator row.payload = .ok payload ∧
    toBookingLifecycleMessage row payload = m
  publishable : ∀ id ∈ batch.publishable, ∃ row ∈ rows, row.id = id ∧ ∃ payload, parsePayload validator row.payload = .ok payload ∧
    toBookingLifecycleMessage row payload ∈ batch.messages
  invalid : ∀ id ∈ batch.invalid, ∃ row ∈ rows, row.id = id ∧ ∃ error, parsePayload validator row.payload = .error error

theorem prepare_of (rows : List ClaimedLifecycleRow) : (prepare validator rows).Of validator rows := by
  induction rows with
  | nil => exact ⟨fun m hm => (by cases hm), fun id hid => (by cases hid), fun id hid => (by cases hid)⟩
  | cons row rows ih =>
    rw [prepare]
    have hmessages : ∀ m ∈ (prepare validator rows).messages, ∃ r ∈ row :: rows, ∃ payload,
        parsePayload validator r.payload = .ok payload ∧ toBookingLifecycleMessage r payload = m := by
      intro m hm
      obtain ⟨r, hr, h⟩ := ih.messages m hm
      exact ⟨r, List.mem_cons_of_mem _ hr, h⟩
    have hinvalid : ∀ id ∈ (prepare validator rows).invalid, ∃ r ∈ row :: rows, r.id = id ∧
        ∃ error, parsePayload validator r.payload = .error error := by
      intro id hid
      obtain ⟨r, hr, h⟩ := ih.invalid id hid
      exact ⟨r, List.mem_cons_of_mem _ hr, h⟩
    cases hp : parsePayload validator row.payload with
    | ok payload =>
      refine ⟨?_, ?_, hinvalid⟩
      · exact List.forall_mem_cons.2 ⟨⟨row, List.mem_cons_self, payload, hp, rfl⟩, hmessages⟩
      · refine List.forall_mem_cons.2 ⟨⟨row, List.mem_cons_self, rfl, payload, hp, List.mem_cons_self⟩, fun id hid => ?_⟩
        obtain ⟨r, hr, hrid, payload, hpayload, hmem⟩ := ih.publishable id hid
        exact ⟨r, List.mem_cons_of_mem _ hr, hrid, payload, hpayload, List.mem_cons_of_mem _ hmem⟩
    | error error =>
      refine ⟨hmessages, fun id hid => ?_, ?_⟩
      · obtain ⟨r, hr, h⟩ := ih.publishable id hid
        exact ⟨r, List.mem_cons_of_mem _ hr, h⟩
      · exact List.forall_mem_cons.2 ⟨⟨row, List.mem_cons_self, rfl, error, hp⟩, hinvalid⟩

theorem valid_of_parsePayload {payload : Option Json} {p : BookingLifecyclePayload} (h : parsePayload validator payload = .ok p) :
    p.Valid validator := by
  cases payload with
  | none => cases h
  | some payload => exact valid_of_parse h

/-- A batch that was read is sound. -/
theorem sound_prepared (hi : s.Inv validator isUUID) (ids : List String) (claimToken : String) :
    RelayPhase.Sound validator isUUID s.outbox.rows s.offered s.published
      (.prepared (prepare validator (readClaimed s.outbox.rows ids claimToken))) := by
  have hof : (prepare validator _).Of validator (readClaimed s.outbox.rows ids claimToken) := prepare_of _
  refine ⟨fun m hm => ?_, fun id hid => ?_, fun id hid => ?_⟩
  · obtain ⟨row, hrow, payload, hpayload, rfl⟩ := hof.messages m hm
    obtain ⟨e, he, htype, rfl⟩ := mem_readClaimed hrow
    obtain ⟨hid, hcreated⟩ := hi.recorded e he htype
    exact ⟨_, parse_toBookingLifecycleMessage (valid_of_parsePayload hpayload) hid (isStorableYear_of_le hcreated)⟩
  · obtain ⟨row, hrow, rfl, payload, hpayload, hmem⟩ := hof.publishable id hid
    obtain ⟨e, he, -, rfl⟩ := mem_readClaimed hrow
    exact ⟨e, he, rfl, payload, hpayload, hmem⟩
  · obtain ⟨row, hrow, rfl, herror⟩ := hof.invalid id hid
    obtain ⟨e, he, -, rfl⟩ := mem_readClaimed hrow
    exact ⟨e, he, rfl, herror⟩

/-! ### Statements -/

theorem Sent.same {messages : List BookingLifecycleMessage} {e e' : OutboxEvent} (h : Sent validator messages e) (hsame : SameEvent e e') :
    Sent validator messages e' := by
  obtain ⟨payload, hpayload, hmem⟩ := h
  refine ⟨payload, by rw [hsame.payload, hpayload], ?_⟩
  rwa [claimedRow, hsame.id, hsame.payload, hsame.createdAt]

theorem Sent.mono {messages messages' : List BookingLifecycleMessage} {e : OutboxEvent} (h : Sent validator messages e)
    (hsub : messages ⊆ messages') : Sent validator messages' e := by
  obtain ⟨payload, hpayload, hmem⟩ := h
  exact ⟨payload, hpayload, hsub hmem⟩

theorem Refused.same {e e' : OutboxEvent} (h : Refused validator e) (hsame : SameEvent e e') : Refused validator e' := by
  obtain ⟨error, herror⟩ := h
  exact ⟨error, by rw [hsame.payload, herror]⟩

/-- What is known of an event by its id stays true. -/
theorem OfEvent.exec {P : OutboxEvent → Prop} (hP : ∀ e e', P e → SameEvent e e' → P e') {o o' : State} {st : Statement} {id : String}
    (h : OfEvent o.rows P id) (hi : Outbox.Inv o) (hexec : o.exec now st = some o') : OfEvent o'.rows P id := by
  obtain ⟨e, he, rfl, hp⟩ := h
  obtain ⟨e', he', hsame⟩ := kept_of_exec hi hexec he
  exact ⟨e', he', hsame.id, hP e e' hp hsame⟩

/-- What is known of the event under an id is known of each row with that id. -/
theorem OfEvent.get {P : OutboxEvent → Prop} {o : State} {e : OutboxEvent} (h : OfEvent o.rows P e.id) (hi : Outbox.Inv o)
    (he : e ∈ o.rows) : P e := by
  obtain ⟨g, hg, hid, hp⟩ := h
  exact Table.UniqueBy.of_nodup hi.ids g hg e he hid ▸ hp

/-- A statement leaves what a cycle knows. -/
theorem RelayPhase.Sound.exec {phase : RelayPhase} {offered published : List BookingLifecycleMessage} {o o' : State} {st : Statement}
    (h : phase.Sound validator isUUID o.rows offered published) (hi : Outbox.Inv o) (hexec : o.exec now st = some o') :
    phase.Sound validator isUUID o'.rows offered published := by
  cases phase with
  | claimed | refused => trivial
  | prepared batch =>
    exact ⟨h.1, fun id hid => (h.2.1 id hid).exec (fun _ _ => Sent.same) hi hexec,
      fun id hid => (h.2.2 id hid).exec (fun _ _ => Refused.same) hi hexec⟩
  | checked | publishing => exact ⟨h.1, fun id hid => (h.2 id hid).exec (fun _ _ => Sent.same) hi hexec⟩
  | published => exact fun id hid => (h id hid).exec (fun _ _ => Sent.same) hi hexec

/-- More was published. -/
theorem RelayPhase.Sound.mono {phase : RelayPhase} {rows : List OutboxEvent} {offered offered' published published' : List BookingLifecycleMessage}
    (h : phase.Sound validator isUUID rows offered published) (hoffered : offered ⊆ offered') (hpublished : published ⊆ published') :
    phase.Sound validator isUUID rows offered' published' := by
  cases phase with
  | claimed | refused | prepared | checked => exact h
  | publishing => exact ⟨List.Subset.trans h.1 hoffered, h.2⟩
  | published =>
    intro id hid
    obtain ⟨e, he, hid', hsent⟩ := h id hid
    exact ⟨e, he, hid', hsent.mono hpublished⟩

/-- A statement may be run: an insert is of a recorded row, and what it closes it may close. -/
structure Allowed (validator : ClassValidator) (isUUID : String → Bool) (s : Relays) (now : ℕ) (st : Statement) : Prop where
  recorded : ∀ id eventType payload key, st = .insert id eventType payload key → eventType ∈ bookingLifecycleEventTypes →
    isUUID id = true ∧ now / 1000 ≤ maxDatetimeMs
  processed : ∀ u, st.update now = some u → ∀ e ∈ s.outbox.rows, e.eventType ∈ bookingLifecycleEventTypes → u.pred e = true →
    (u.set e).status = .processed → Sent validator s.published e
  failed : ∀ u, st.update now = some u → ∀ e ∈ s.outbox.rows, e.eventType ∈ bookingLifecycleEventTypes → u.pred e = true →
    (u.set e).status = .failed → Refused validator e

theorem inv_exec (hi : s.Inv validator isUUID) {st : Statement} (hst : Allowed validator isUUID s now st) {o : State}
    (hexec : s.outbox.exec now st = some o) : Relays.Inv validator isUUID { s with outbox := o } where
  outbox := inv_step hi.outbox hexec
  recorded e' he' htype := by
    rcases origin_of_exec hi.outbox hexec he' with ⟨e, he, hsame⟩ | ⟨id, eventType, payload, key, hinsert, rfl⟩
    · rw [hsame.id, hsame.createdAt]
      exact hi.recorded e he (hsame.eventType ▸ htype)
    · exact hst.recorded id eventType payload key hinsert htype
  processed e' he' htype hs := by
    rcases closed_of_exec hi.outbox hexec he' (hs ▸ rfl) with he | ⟨u, hu, e, he, hp, rfl⟩
    · exact hi.processed e' he htype hs
    · have hsame := SameEvent.of_update hu e
      exact (hst.processed u hu e he (hsame.eventType ▸ htype) hp hs).same hsame
  failed e' he' htype hs := by
    rcases closed_of_exec hi.outbox hexec he' (hs ▸ rfl) with he | ⟨u, hu, e, he, hp, rfl⟩
    · exact hi.failed e' he htype hs
    · have hsame := SameEvent.of_update hu e
      exact (hst.failed u hu e he (hsame.eventType ▸ htype) hp hs).same hsame
  offered := hi.offered
  published := hi.published
  cycles relay c hc := (hi.cycles relay c hc).exec hi.outbox hexec

theorem inv_move (hi : s.Inv validator isUUID) {cycle : Option RelayCycle}
    (hc : ∀ c, cycle = some c → c.phase.Sound validator isUUID s.outbox.rows s.offered s.published) : (s.move relay cycle).Inv validator isUUID where
  outbox := hi.outbox
  recorded := hi.recorded
  processed := hi.processed
  failed := hi.failed
  offered := hi.offered
  published := hi.published
  cycles r c h := by
    change Function.update s.cycles relay cycle r = some c at h
    by_cases hr : r = relay
    · subst hr
      rw [Function.update_self] at h
      exact hc c h
    · rw [Function.update_of_ne hr] at h
      exact hi.cycles r c h

theorem inv_stop (hi : s.Inv validator isUUID) : (s.move relay none).Inv validator isUUID := inv_move hi fun _ h => (by cases h)

/-- A relay's statement, whatever becomes of it. -/
theorem inv_statement (hi : s.Inv validator isUUID) {st : Statement} {next : State → Option RelayCycle} {outcome : QueryOutcome}
    (h : s.statement relay now st next outcome = some s') (hst : Allowed validator isUUID s now st)
    (hnext : ∀ o c, next o = some c → c.phase.Sound validator isUUID s.outbox.rows s.offered s.published) : s'.Inv validator isUUID := by
  cases outcome with
  | failed =>
    obtain rfl := Option.some.inj h
    exact inv_stop hi
  | committed =>
    obtain ⟨o, hexec, rfl⟩ := Option.map_eq_some_iff.1 h
    exact inv_exec (inv_move hi (hnext o)) ⟨hst.recorded, hst.processed, hst.failed⟩ hexec
  | lostReply =>
    obtain ⟨o, hexec, rfl⟩ := Option.map_eq_some_iff.1 h
    exact inv_exec (inv_stop hi) ⟨hst.recorded, hst.processed, hst.failed⟩ hexec

/-- What everyone else runs is allowed. -/
theorem allowed_other (hi : s.Inv validator isUUID) {st : Statement} (hfamily : st.family ≠ some .bookingLifecycle)
    (hrecorded : Recorded isUUID s (now, .other st)) : Allowed validator isUUID s now st where
  recorded := by
    rintro id eventType payload key rfl
    exact hrecorded
  processed u hu e he htype hp _ := absurd (family_of_closing (f := .bookingLifecycle) hi.outbox hu he hp htype) hfamily
  failed u hu e he htype hp _ := absurd (family_of_closing (f := .bookingLifecycle) hi.outbox hu he hp htype) hfamily

/-- A finished batch has one status. -/
theorem allowed_finish (hi : s.Inv validator isUUID) {ids : List String} {claimToken : String} {outcome : Outcome} {st : Statement}
    (hu : st.update now = some (BookingLifecycleRelay.finish ids claimToken outcome now))
    (hprocessed : ∀ e, (outcome.apply now e).status = .processed → ∀ id ∈ ids, OfEvent s.outbox.rows (Sent validator s.published) id)
    (hfailed : ∀ e, (outcome.apply now e).status = .failed → ∀ id ∈ ids, OfEvent s.outbox.rows (Refused validator) id) :
    Allowed validator isUUID s now st := by
  have hids : ∀ e, (BookingLifecycleRelay.finish ids claimToken outcome now).pred e = true → e.id ∈ ids := by
    intro e hp
    simp only [BookingLifecycleRelay.finish, Bool.and_eq_true, decide_eq_true_eq] at hp
    exact hp.1.1.1
  refine ⟨?_, fun u hu' e he _ hp hs => ?_, fun u hu' e he _ hp hs => ?_⟩
  · rintro id eventType payload key rfl
    cases hu
  · obtain rfl := Option.some.inj (hu.symm.trans hu')
    exact (hprocessed e hs _ (hids e hp)).get hi.outbox he
  · obtain rfl := Option.some.inj (hu.symm.trans hu')
    exact (hfailed e hs _ (hids e hp)).get hi.outbox he

/-! ### Steps -/

/-- Messages handed to a publish call that the consumers accept. -/
theorem inv_offer (hi : s.Inv validator isUUID) {messages : List BookingLifecycleMessage} (hm : ∀ m ∈ messages, Accepted validator isUUID m) :
    Relays.Inv validator isUUID { s with offered := s.offered ++ messages } where
  outbox := hi.outbox
  recorded := hi.recorded
  processed := hi.processed
  failed := hi.failed
  offered := List.forall_mem_append.2 ⟨hi.offered, hm⟩
  published m hm := List.mem_append_left _ (hi.published m hm)
  cycles r c h := (hi.cycles r c h).mono (List.subset_append_left _ _) (List.Subset.refl _)

/-- The call succeeded. -/
theorem inv_publish (hi : s.Inv validator isUUID) {messages : List BookingLifecycleMessage} (hm : messages ⊆ s.offered) :
    Relays.Inv validator isUUID { s with published := s.published ++ messages } where
  outbox := hi.outbox
  recorded := hi.recorded
  processed e he htype hs := (hi.processed e he htype hs).mono (List.subset_append_left _ _)
  failed := hi.failed
  offered := hi.offered
  published := List.forall_mem_append.2 ⟨hi.published, fun _ h => hm h⟩
  cycles r c h := (hi.cycles r c h).mono (List.Subset.refl _) (List.subset_append_left _ _)

theorem inv_step (hi : s.Inv validator isUUID) {a : RelayAction} (hrecorded : Recorded isUUID s (now, a))
    (h : s.exec validator now a = some s') : s'.Inv validator isUUID := by
  cases a with
  | other st =>
    simp only [Relays.exec] at h
    split at h
    · cases h
    · next hfamily =>
      obtain ⟨o, hexec, rfl⟩ := Option.map_eq_some_iff.1 h
      exact inv_exec hi (allowed_other hi hfamily hrecorded) hexec
  | claim relay claimToken claimBatchSize claimLeaseMs skipExpired skipDue outcome =>
    simp only [Relays.exec] at h
    split at h
    · cases h
    · refine inv_statement hi h ⟨by rintro _ _ _ _ ⟨⟩, by rintro _ ⟨⟩, by rintro _ ⟨⟩⟩ fun o c hc => ?_
      simp only [Relays.afterClaim] at hc
      split at hc
      · cases hc
      · obtain rfl := Option.some.inj hc
        trivial
  | readClaimed relay fails =>
    obtain ⟨c, hc, h⟩ := Option.bind_eq_some_iff.1 h
    split at h
    · next ids hphase =>
      split at h
      · obtain rfl := Option.some.inj h
        exact inv_stop hi
      · obtain rfl := Option.some.inj h
        refine inv_move hi fun c' hc' => ?_
        obtain rfl := Option.some.inj hc'
        exact sound_prepared hi ids c.claimToken
    · cases h
  | markFailed relay outcome =>
    obtain ⟨c, hc, h⟩ := Option.bind_eq_some_iff.1 h
    split at h
    · next batch hphase =>
      have hsound := hi.cycles relay c hc
      rw [hphase] at hsound
      have hnext : ∀ c', Relays.afterMarkFailed c.claimToken batch = some c' →
          c'.phase.Sound validator isUUID s.outbox.rows s.offered s.published := by
        intro c' hc'
        simp only [Relays.afterMarkFailed] at hc'
        split at hc'
        · cases hc'
        · obtain rfl := Option.some.inj hc'
          exact ⟨hsound.1, hsound.2.1⟩
      split at h
      · obtain rfl := Option.some.inj h
        exact inv_move hi hnext
      · refine inv_statement hi h (allowed_finish hi rfl ?_ ?_) fun _ => hnext
        · intro e hs
          cases hs
        · exact fun _ _ => hsound.2.2
    · cases h
  | publish relay =>
    obtain ⟨c, hc, h⟩ := Option.bind_eq_some_iff.1 h
    split at h
    · next messages publishable hphase =>
      have hsound := hi.cycles relay c hc
      rw [hphase] at hsound
      obtain rfl := Option.some.inj h
      refine inv_move (inv_offer hi hsound.1) fun c' hc' => ?_
      obtain rfl := Option.some.inj hc'
      exact ⟨List.subset_append_right _ _, hsound.2⟩
    · cases h
  | answer relay succeeds =>
    obtain ⟨c, hc, h⟩ := Option.bind_eq_some_iff.1 h
    split at h
    · next messages publishable hphase =>
      have hsound := hi.cycles relay c hc
      rw [hphase] at hsound
      split at h
      · obtain rfl := Option.some.inj h
        refine inv_move (inv_publish hi hsound.1) fun c' hc' => ?_
        obtain rfl := Option.some.inj hc'
        intro id hid
        obtain ⟨e, he, hid', hsent⟩ := hsound.2 id hid
        exact ⟨e, he, hid', hsent.mono (List.subset_append_right _ _)⟩
      · obtain rfl := Option.some.inj h
        refine inv_move hi fun c' hc' => ?_
        obtain rfl := Option.some.inj hc'
        trivial
    · cases h
  | markRetry relay backoffInitialMs backoffMaxMs rand outcome =>
    obtain ⟨c, hc, h⟩ := Option.bind_eq_some_iff.1 h
    split at h
    · refine inv_statement hi h (allowed_finish hi rfl ?_ ?_) fun _ _ hnone => (by cases hnone)
      · intro e hs
        cases hs
      · intro e hs
        cases hs
    · cases h
  | markPublished relay outcome =>
    obtain ⟨c, hc, h⟩ := Option.bind_eq_some_iff.1 h
    split at h
    · next publishable hphase =>
      have hsound := hi.cycles relay c hc
      rw [hphase] at hsound
      refine inv_statement hi h (allowed_finish hi rfl ?_ ?_) fun _ _ hnone => (by cases hnone)
      · exact fun _ _ => hsound
      · intro e hs
        cases hs
    · cases h
  | stop relay =>
    obtain rfl := Option.some.inj h
    exact inv_stop hi

theorem relays_inv (h : (relays validator).Reachable (Recorded isUUID) s) : s.Inv validator isUUID := by
  apply h.invariant
  · rintro _ rfl
    refine ⟨inv_of_reachable (.init rfl), ?_, ?_, ?_, ?_, ?_, fun _ _ hc => (by cases hc)⟩
    all_goals exact fun _ hx => absurd hx List.not_mem_nil
  · rintro s ⟨now, a⟩ s' hi hrecorded hexec
    exact inv_step hi hrecorded hexec

end Steps

/-! ### The relay loses nothing -/

/-- What becomes of the lifecycle rows. -/
structure LosesNothing (validator : ClassValidator) (isUUID : String → Bool) (s : Relays) : Prop where
  /-- A PROCESSED row was published: its own message was part of a publish call that succeeded. -/
  processed : ∀ e ∈ s.outbox.rows, e.eventType ∈ bookingLifecycleEventTypes → e.status = .processed → Sent validator s.published e
  /-- A FAILED row is refused by the contract. -/
  failed : ∀ e ∈ s.outbox.rows, e.eventType ∈ bookingLifecycleEventTypes → e.status = .failed → Refused validator e
  /-- Whatever was published, or may have been, is accepted. -/
  accepted : ∀ m ∈ s.offered, Accepted validator isUUID m
  published : ∀ m ∈ s.published, m ∈ s.offered
  /-- Every other row is claimable, now or later. -/
  others : ∀ e ∈ s.outbox.rows, e.eventType ∈ bookingLifecycleEventTypes → e.status ≠ .processed → e.status ≠ .failed →
    ∃ since, Claimable .bookingLifecycle s.outbox e since

/-- **The lifecycle relay loses nothing.** -/
theorem relays_losesNothing (validator : ClassValidator) (isUUID : String → Bool) (s : Relays)
    (h : (relays validator).Reachable (Recorded isUUID) s) : LosesNothing validator isUUID s where
  processed := (relays_inv h).processed
  failed := (relays_inv h).failed
  accepted := (relays_inv h).offered
  published := (relays_inv h).published
  others e he htype hprocessed hfailed := by
    refine claimable_of_open (relays_inv h).outbox he htype ?_
    cases hs : e.status with
    | pending | processing => rfl
    | processed => exact absurd hs hprocessed
    | failed => exact absurd hs hfailed

/-! ### An outage -/

def samplePayload : BookingLifecyclePayload where
  bookingId := "01K4N8G4X8R0K1F2Q7V6S9T3AB"
  bookingVersion := 1
  fromStatus := none
  toStatus := .pending
  booking := ⟨"3", "7", "2026-10-05", "2026-10-08"⟩
  priceAmount := 3000000
  currency := "VND"
  previousStay := none

def sampleValidator : ClassValidator := ⟨fun code => code = "VND", fun _ => false⟩

/-- A relay dies after its publish call succeeded; the next one publishes again and is refused,
the third finishes. A second row has no payload to speak of. -/
def relayOutage : List (ℕ × RelayAction) :=
  let none : String → Bool := fun _ => false
  [(1000000, .other (.insert "3f1c0a52-8d3e-4b6a-9c57-2f10e6a7b841" bookingLifecycleEventType (.obj samplePayload.fields) "first-key")),
   (1000001, .other (.insert "9a0be5d1-51a6-4f0e-8b1d-6c2f4d7a1e35" bookingLifecycleEventType (.obj []) "second-key")),
   (1000002, .claim 0 "first" 10 60 none none .committed),
   (1000003, .readClaimed 0 false), (1000004, .markFailed 0 .committed), (1000005, .publish 0), (1000006, .answer 0 true), (1000007, .stop 0),
   (2000000, .claim 1 "second" 10 60 none none .committed),
   (2000001, .readClaimed 1 false), (2000002, .markFailed 1 .committed), (2000003, .publish 1), (2000004, .answer 1 false),
   (2000005, .markRetry 1 500 30000 (fun _ => 0) .committed),
   (9000000, .claim 0 "third" 10 60 none none .committed),
   (9000001, .readClaimed 0 false), (9000002, .markFailed 0 .committed), (9000003, .publish 0), (9000004, .answer 0 true),
   (9000005, .markPublished 0 .lostReply)]

theorem relayOutage_recorded : ∀ a ∈ relayOutage, ∀ s, Recorded (fun id => id.length = 36) s a := by
  have hids : "3f1c0a52-8d3e-4b6a-9c57-2f10e6a7b841".length = 36 ∧ "9a0be5d1-51a6-4f0e-8b1d-6c2f4d7a1e35".length = 36 := by decide
  intro a ha s
  simp only [relayOutage, List.mem_cons, List.not_mem_nil, or_false] at ha
  rcases ha with rfl | rfl | rfl | rfl | rfl | rfl | rfl | rfl | rfl | rfl | rfl | rfl | rfl | rfl | rfl | rfl | rfl | rfl | rfl | rfl
  case inl => exact fun _ => ⟨decide_eq_true hids.1, by decide⟩
  case inr.inl => exact fun _ => ⟨decide_eq_true hids.2, by decide⟩
  all_goals trivial

theorem relayOutage_statuses : ((relays sampleValidator).run .empty relayOutage).map (fun s => s.outbox.rows.map (·.status)) =
    some [OutboxEventStatus.processed, OutboxEventStatus.failed] := by
  decide +kernel

theorem relays_losesNothing_relayOutage : ∃ s, (relays sampleValidator).run .empty relayOutage = some s ∧
    s.outbox.rows.map (·.status) = [.processed, .failed] ∧ LosesNothing sampleValidator (fun id => id.length = 36) s := by
  obtain ⟨s, hrun, hstatuses⟩ := Option.map_eq_some_iff.1 relayOutage_statuses
  exact ⟨s, hrun, hstatuses, relays_losesNothing _ _ s (.of_run (.init rfl) relayOutage_recorded hrun)⟩

end HotelBackend.Bookings
