import HotelBackend.Bookings.LifecycleRelay

/-!
# Where messages come from

One inversion of the relays' step (`Relays.StepOf`): it leaves the outbox or runs one statement on it, it offers
messages that a cycle has at hand, and a cycle comes by messages by reading a batch only. So a message that a relay
offers is that of a lifecycle row that was accepted (`offers_of_step`), and others may share the table.
-/

namespace HotelBackend.Bookings

open HotelBackend.Common
open HotelBackend.Theory
open HotelBackend.Outbox
open HotelBackend.Files (QueryOutcome)
open HotelBackend.Notifications (ClassValidator)

section Origin

variable {validator : ClassValidator} {s s' : Relays} {relay now : ℕ} {a : RelayAction}

/-! ### Steps -/

/-- The messages that a cycle has at hand. -/
def RelayPhase.messages : RelayPhase → List BookingLifecycleMessage
  | .prepared batch => batch.messages
  | .checked messages _ | .publishing messages _ => messages
  | .claimed _ | .published _ | .refused _ => []

/-- Some cycle has the message at hand. -/
def Relays.AtHand (s : Relays) (m : BookingLifecycleMessage) : Prop := ∃ relay c, s.cycles relay = some c ∧ m ∈ c.phase.messages

/-- The message is one of a batch that is read now. -/
def Relays.Reads (validator : ClassValidator) (s : Relays) (m : BookingLifecycleMessage) : Prop :=
  ∃ ids claimToken, m ∈ (prepare validator (readClaimed s.outbox.rows ids claimToken)).messages

/-- What a step does to the outbox: nothing, or one statement. -/
def Relays.Runs (now : ℕ) (a : RelayAction) (s s' : Relays) : Prop :=
  s'.outbox = s.outbox ∨ ∃ st, s.outbox.exec now st = some s'.outbox ∧ (a = .other st ∨ st.family = some .bookingLifecycle)

/-- What a step does. -/
structure Relays.StepOf (validator : ClassValidator) (now : ℕ) (a : RelayAction) (s s' : Relays) : Prop where
  outbox : s.Runs now a s'
  offered : ∃ ms, s'.offered = s.offered ++ ms ∧ ∀ m ∈ ms, s.AtHand m
  cycles : ∀ relay c, s'.cycles relay = some c → ∀ m ∈ c.phase.messages, s.AtHand m ∨ s.Reads validator m

namespace Relays

/-- Nothing more is offered. -/
theorem offers_nothing (h : s'.offered = s.offered) : ∃ ms, s'.offered = s.offered ++ ms ∧ ∀ m ∈ ms, s.AtHand m :=
  ⟨[], h.trans (List.append_nil _).symm, fun _ hm => absurd hm List.not_mem_nil⟩

/-- A cycle goes on to a phase with messages it has or reads. -/
theorem stepOf_move {cycle : Option RelayCycle} (hc : ∀ c, cycle = some c → ∀ m ∈ c.phase.messages, s.AtHand m ∨ s.Reads validator m)
    (hcycles : ∀ r, s'.cycles r = (s.move relay cycle).cycles r) (houtbox : s.Runs now a s')
    (hoffered : ∃ ms, s'.offered = s.offered ++ ms ∧ ∀ m ∈ ms, s.AtHand m) : s.StepOf validator now a s' where
  outbox := houtbox
  offered := hoffered
  cycles r c hrc := by
    rw [hcycles] at hrc
    change Function.update s.cycles relay cycle r = some c at hrc
    by_cases hr : r = relay
    · subst hr
      rw [Function.update_self] at hrc
      exact hc c hrc
    · rw [Function.update_of_ne hr] at hrc
      exact fun m hm => .inl ⟨r, c, hrc, hm⟩

/-- A statement of a relay, whatever becomes of it. -/
theorem stepOf_statement {st : Statement} {next : State → Option RelayCycle} {outcome : QueryOutcome} (hfamily : st.family = some .bookingLifecycle)
    (he : s.statement relay now st next outcome = some s') (hnext : ∀ o c, next o = some c → ∀ m ∈ c.phase.messages, s.AtHand m) :
    s.StepOf validator now a s' := by
  have hnone : ∀ c, (none : Option RelayCycle) = some c → ∀ m ∈ c.phase.messages, s.AtHand m ∨ s.Reads validator m := fun _ hc => (by cases hc)
  cases outcome with
  | failed =>
    obtain rfl := Option.some.inj he
    exact stepOf_move hnone (fun _ => rfl) (.inl rfl) (offers_nothing rfl)
  | committed =>
    obtain ⟨o, hexec, rfl⟩ := Option.map_eq_some_iff.1 he
    exact stepOf_move (fun c hc m hm => .inl (hnext o c hc m hm)) (fun _ => rfl) (.inr ⟨st, hexec, .inr hfamily⟩) (offers_nothing rfl)
  | lostReply =>
    obtain ⟨o, hexec, rfl⟩ := Option.map_eq_some_iff.1 he
    exact stepOf_move hnone (fun _ => rfl) (.inr ⟨st, hexec, .inr hfamily⟩) (offers_nothing rfl)

/-- A cycle goes on, and the outbox stays. -/
theorem stepOf_go {cycle : Option RelayCycle} (hc : ∀ c, cycle = some c → ∀ m ∈ c.phase.messages, s.AtHand m ∨ s.Reads validator m) :
    s.StepOf validator now a (s.move relay cycle) := stepOf_move hc (fun _ => rfl) (.inl rfl) (offers_nothing rfl)

theorem stepOf_of_exec (he : s.exec validator now a = some s') : s.StepOf validator now a s' := by
  have hnone : ∀ c, (none : Option RelayCycle) = some c → ∀ m ∈ c.phase.messages, s.AtHand m ∨ s.Reads validator m := fun _ hc => (by cases hc)
  cases a with
  | other st =>
    simp only [Relays.exec] at he
    split at he
    · cases he
    · obtain ⟨o, hexec, rfl⟩ := Option.map_eq_some_iff.1 he
      exact ⟨.inr ⟨st, hexec, .inl rfl⟩, offers_nothing rfl, fun r c hrc m hm => .inl ⟨r, c, hrc, hm⟩⟩
  | claim relay claimToken claimBatchSize claimLeaseMs skipExpired skipDue outcome =>
    simp only [Relays.exec] at he
    split at he
    · cases he
    · refine stepOf_statement rfl he fun o c hc m hm => ?_
      simp only [Relays.afterClaim] at hc
      split at hc
      · cases hc
      · obtain rfl := Option.some.inj hc
        cases hm
  | readClaimed relay fails =>
    obtain ⟨c, hc, he⟩ := Option.bind_eq_some_iff.1 he
    split at he
    · next ids hphase =>
      split at he
      · obtain rfl := Option.some.inj he
        exact stepOf_go hnone
      · obtain rfl := Option.some.inj he
        refine stepOf_go fun c' hc' m hm => .inr ⟨ids, c.claimToken, ?_⟩
        obtain rfl := Option.some.inj hc'
        exact hm
    · cases he
  | markFailed relay outcome =>
    obtain ⟨c, hc, he⟩ := Option.bind_eq_some_iff.1 he
    split at he
    · next batch hphase =>
      have hnext : ∀ c', Relays.afterMarkFailed c.claimToken batch = some c' → ∀ m ∈ c'.phase.messages, s.AtHand m := by
        intro c' hc' m hm
        simp only [Relays.afterMarkFailed] at hc'
        split at hc'
        · cases hc'
        · obtain rfl := Option.some.inj hc'
          exact ⟨relay, c, hc, by rwa [hphase]⟩
      split at he
      · obtain rfl := Option.some.inj he
        exact stepOf_go fun c' hc' m hm => .inl (hnext c' hc' m hm)
      · exact stepOf_statement rfl he fun _ => hnext
    · cases he
  | publish relay =>
    obtain ⟨c, hc, he⟩ := Option.bind_eq_some_iff.1 he
    split at he
    · next messages publishable hphase =>
      have hmessages : ∀ m ∈ messages, s.AtHand m := fun m hm => ⟨relay, c, hc, by rwa [hphase]⟩
      obtain rfl := Option.some.inj he
      refine stepOf_move (fun c' hc' m hm => .inl ?_) (fun _ => rfl) (.inl rfl) ⟨messages, rfl, hmessages⟩
      obtain rfl := Option.some.inj hc'
      exact hmessages m hm
    · cases he
  | answer relay succeeds =>
    obtain ⟨c, hc, he⟩ := Option.bind_eq_some_iff.1 he
    split at he
    · next messages publishable hphase =>
      split at he
      · obtain rfl := Option.some.inj he
        refine stepOf_move (fun c' hc' m hm => ?_) (fun _ => rfl) (.inl rfl) (offers_nothing rfl)
        obtain rfl := Option.some.inj hc'
        cases hm
      · obtain rfl := Option.some.inj he
        refine stepOf_go fun c' hc' m hm => ?_
        obtain rfl := Option.some.inj hc'
        cases hm
    · cases he
  | markRetry relay backoffInitialMs backoffMaxMs rand outcome =>
    obtain ⟨c, hc, he⟩ := Option.bind_eq_some_iff.1 he
    split at he
    · exact stepOf_statement rfl he fun _ _ hc' => (by cases hc')
    · cases he
  | markPublished relay outcome =>
    obtain ⟨c, hc, he⟩ := Option.bind_eq_some_iff.1 he
    split at he
    · exact stepOf_statement rfl he fun _ _ hc' => (by cases hc')
    · cases he
  | stop relay =>
    obtain rfl := Option.some.inj he
    exact stepOf_go hnone

end Relays

/-! ### Origins -/

/-- The message is that of a lifecycle row. -/
def FromRow (validator : ClassValidator) (rows : List OutboxEvent) (m : BookingLifecycleMessage) : Prop :=
  ∃ e ∈ rows, e.eventType ∈ bookingLifecycleEventTypes ∧
    ∃ payload, parsePayload validator (readPayload e.payload) = .ok payload ∧ toBookingLifecycleMessage (claimedRow e) payload = m

/-- Every message is that of a row. -/
structure Relays.Offers (validator : ClassValidator) (s : Relays) : Prop where
  offered : ∀ m ∈ s.offered, FromRow validator s.outbox.rows m
  atHand : ∀ m, s.AtHand m → FromRow validator s.outbox.rows m

theorem fromRow_of_reads {m : BookingLifecycleMessage} (h : s.Reads validator m) : FromRow validator s.outbox.rows m := by
  obtain ⟨ids, claimToken, hm⟩ := h
  obtain ⟨row, hrow, payload, hpayload, rfl⟩ := (prepare_of _).messages m hm
  obtain ⟨e, he, htype, rfl⟩ := mem_readClaimed hrow
  exact ⟨e, he, htype, payload, hpayload, rfl⟩

/-- The row stays in the table. -/
theorem FromRow.step {m : BookingLifecycleMessage} (h : FromRow validator s.outbox.rows m) (hi : Outbox.Inv s.outbox) (hruns : s.Runs now a s') :
    FromRow validator s'.outbox.rows m := by
  rcases hruns with hsame | ⟨st, hexec, -⟩
  · rwa [hsame]
  · obtain ⟨e, he, htype, payload, hpayload, rfl⟩ := h
    obtain ⟨e', he', hsame⟩ := kept_of_exec hi hexec he
    refine ⟨e', he', hsame.eventType ▸ htype, payload, by rw [hsame.payload, hpayload], ?_⟩
    rw [claimedRow, claimedRow, hsame.id, hsame.payload, hsame.createdAt]

theorem Relays.Offers.step (h : s.Offers validator) (hi : Outbox.Inv s.outbox) (hstep : s.StepOf validator now a s') : s'.Offers validator where
  offered m hm := by
    obtain ⟨ms, hoffered, hms⟩ := hstep.offered
    rw [hoffered] at hm
    rcases List.mem_append.1 hm with hold | hnew
    · exact (h.offered m hold).step hi hstep.outbox
    · exact (h.atHand m (hms m hnew)).step hi hstep.outbox
  atHand m := by
    rintro ⟨relay, c, hc, hm⟩
    rcases hstep.cycles relay c hc m hm with hhand | hreads
    · exact (h.atHand m hhand).step hi hstep.outbox
    · exact (fromRow_of_reads hreads).step hi hstep.outbox

end Origin

end HotelBackend.Bookings
