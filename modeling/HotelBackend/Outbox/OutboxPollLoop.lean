import Mathlib.Data.List.Nodup
import Mathlib.Data.Nat.Notation
import HotelBackend.Theory.Runs

/-!
# The poll loop

`OutboxPollLoop` next to the event loop that runs it. The fields `timer`, `cycle` and `stopping` are the
object's; which timers are armed, how far each cycle is and which calls of `stop` still wait is the world's.
That the two agree is the invariant (`Inv`): the armed timer is the one the object knows, the cycle in flight is
the one it knows, and it never has both.

## The model

A callback runs to its end before another one begins, so each action is one of them, and they come in any order.
A cycle does not call its own loop before it first waits; none of the program's does. A cycle ends twice: the
promise of `cycleFn` settles, and later the continuation of `finally` runs, with which the promise that `stop`
awaits is settled as well.
-/

namespace HotelBackend.Outbox

open HotelBackend.Theory

/-! ### The object -/

/-- What `setTimeout` returns. -/
structure Timeout where
  id : ℕ
  delayMs : ℕ
  deriving DecidableEq, Repr

/-- A cycle is named by its number. -/
structure OutboxPollLoop where
  timer : Option Timeout
  cycle : Option ℕ
  stopping : Bool
  deriving DecidableEq, Repr

/-! ### The world -/

/-- How a promise settles. -/
inductive Settlement where
  | fulfilled
  | rejected
  deriving DecidableEq, Repr

inductive CyclePhase where
  | running
  /-- `cycleFn` is done, and the continuation has not run. -/
  | settled (settlement : Settlement)
  | over
  deriving DecidableEq, Repr

/-- A call of `stop`, with the cycles that were in flight then. -/
structure StopCall where
  inFlight : List ℕ
  awaited : Option ℕ
  settled : Bool
  deriving DecidableEq, Repr

structure PollLoopState where
  loop : OutboxPollLoop
  armed : List Timeout
  /-- How many timers there have been. -/
  timers : ℕ
  cycles : List CyclePhase
  stops : List StopCall
  deriving DecidableEq, Repr

namespace PollLoopState

def initial : PollLoopState := ⟨⟨none, none, false⟩, [], 0, [], []⟩

/-- The cycles whose promise is pending. -/
def inFlight (s : PollLoopState) : List ℕ := (List.range s.cycles.length).filter fun c => s.cycles[c]? = some .running

/-- `this.timer = setTimeout(…, delayMs)` -/
def schedule (delayMs : ℕ) (s : PollLoopState) : PollLoopState :=
  { s with
    loop := { s.loop with timer := some ⟨s.timers, delayMs⟩ }
    armed := s.armed ++ [⟨s.timers, delayMs⟩]
    timers := s.timers + 1 }

def start (s : PollLoopState) : PollLoopState :=
  if s.loop.timer.isSome || s.loop.cycle.isSome || s.loop.stopping then s else s.schedule 0

/-- `stop` up to its `await`. -/
def stop (s : PollLoopState) : PollLoopState :=
  { s with
    loop := { s.loop with timer := none, stopping := true }
    armed := s.armed.filter fun t => some t ≠ s.loop.timer
    stops := s.stops ++ [⟨s.inFlight, s.loop.cycle, false⟩] }

/-- The callback of a timer. A `cycleFn` that throws leaves no promise. -/
def fire (timeout : Timeout) (throws : Bool) (s : PollLoopState) : PollLoopState :=
  { s with
    loop := { s.loop with timer := none, cycle := if throws then s.loop.cycle else some s.cycles.length }
    armed := s.armed.erase timeout
    cycles := s.cycles ++ [if throws then .over else .running] }

/-- The continuation of a cycle; `intervalMs` may throw. -/
def continuation (c : ℕ) (intervalMs : Option ℕ) (s : PollLoopState) : PollLoopState :=
  let s := { s with loop := { s.loop with cycle := none }, cycles := s.cycles.set c .over }
  if s.loop.stopping then s
  else match intervalMs with
    | some delayMs => s.schedule delayMs
    | none => s

/-- The promise that a call of `stop` awaits is settled. -/
def awaitedOver (s : PollLoopState) (call : StopCall) : Bool := call.awaited.all fun c => s.cycles[c]? = some .over

end PollLoopState

inductive PollLoopAction where
  | start
  | stop
  | fire (timeout : Timeout) (throws : Bool)
  | settle (c : ℕ) (settlement : Settlement)
  | continuation (c : ℕ) (intervalMs : Option ℕ)
  /-- A call of `stop` goes on, and settles. -/
  | stopSettles (i : ℕ)
  deriving DecidableEq, Repr

def PollLoopState.exec (s : PollLoopState) : PollLoopAction → Option PollLoopState
  | .start => some s.start
  | .stop => some s.stop
  | .fire timeout throws => if timeout ∈ s.armed then some (s.fire timeout throws) else none
  | .settle c settlement =>
    if s.cycles[c]? = some .running then some { s with cycles := s.cycles.set c (.settled settlement) } else none
  | .continuation c intervalMs =>
    match s.cycles[c]? with
    | some (.settled _) => some (s.continuation c intervalMs)
    | _ => none
  | .stopSettles i =>
    match s.stops[i]? with
    | some call => if !call.settled && s.awaitedOver call then some { s with stops := s.stops.set i { call with settled := true } } else none
    | none => none

def pollLoop : Machine PollLoopState PollLoopAction where
  init s := s = .initial
  exec := PollLoopState.exec

namespace PollLoopState

/-! ### The invariant -/

structure Inv (s : PollLoopState) : Prop where
  /-- The armed timer is the one the object knows. -/
  armed : s.armed = s.loop.timer.toList
  /-- The cycle that is not over is the one the object knows. -/
  cycle : ∀ c phase, s.cycles[c]? = some phase → phase ≠ .over → s.loop.cycle = some c
  known : ∀ c, s.loop.cycle = some c → s.cycles[c]? ≠ some .over
  alone : s.loop.timer.isSome = true → s.loop.cycle = none
  stopping : s.stops ≠ [] → s.loop.stopping = true
  quiet : s.loop.stopping = true → s.loop.timer = none
  /-- A call of `stop` awaits what was in flight. -/
  awaited : ∀ call ∈ s.stops, ∀ c ∈ call.inFlight, call.awaited = some c
  /-- It awaits what the object still knows. -/
  held : ∀ call ∈ s.stops, s.loop.cycle = call.awaited ∨ s.loop.cycle = none
  settled : ∀ call ∈ s.stops, call.settled = true → ∀ c, call.awaited = some c → s.cycles[c]? = some .over

theorem inv_initial : Inv initial where
  armed := rfl
  cycle c phase h := by simp [initial] at h
  known c h := by cases h
  alone h := by cases h
  stopping h := absurd rfl h
  quiet h := by cases h
  awaited call h := by cases h
  held call h := by cases h
  settled call h := by cases h

section Steps

variable {s : PollLoopState}

theorem mem_inFlight {c : ℕ} : c ∈ s.inFlight ↔ s.cycles[c]? = some .running := by
  simp only [inFlight, List.mem_filter, List.mem_range, decide_eq_true_eq, and_iff_right_iff_imp]
  intro h
  exact (List.getElem?_eq_some_iff.1 h).1

theorem Inv.inFlight (h : Inv s) {c : ℕ} (hc : c ∈ s.inFlight) : s.loop.cycle = some c :=
  h.cycle c .running (mem_inFlight.1 hc) (by decide)

/-- A timer is scheduled where there is none, and no cycle. -/
theorem Inv.schedule (h : Inv s) (delayMs : ℕ) (htimer : s.loop.timer = none) (hcycle : s.loop.cycle = none) (hstopping : s.loop.stopping = false) :
    Inv (s.schedule delayMs) :=
  { h with
    armed := by simp [PollLoopState.schedule, h.armed, htimer]
    alone := fun _ => hcycle
    quiet := fun hquiet => by cases hstopping.symm.trans hquiet }

theorem Inv.start (h : Inv s) : Inv s.start := by
  rw [PollLoopState.start]
  split
  · exact h
  · next hnone =>
    simp only [Bool.or_eq_true, not_or, Bool.not_eq_true, Option.isSome_eq_false_iff, Option.isNone_iff_eq_none] at hnone
    exact h.schedule 0 hnone.1.1 hnone.1.2 hnone.2

theorem Inv.stop (h : Inv s) : Inv s.stop where
  armed := by
    rw [PollLoopState.stop, h.armed]
    cases s.loop.timer <;> simp
  cycle := h.cycle
  known := h.known
  alone hsome := by cases hsome
  stopping _ := rfl
  quiet _ := rfl
  awaited call hcall c hc := by
    rcases List.mem_append.1 hcall with hold | hnew
    · exact h.awaited call hold c hc
    · obtain rfl := List.mem_singleton.1 hnew
      exact h.inFlight hc
  held call hcall := by
    rcases List.mem_append.1 hcall with hold | hnew
    · exact h.held call hold
    · obtain rfl := List.mem_singleton.1 hnew
      exact .inl rfl
  settled call hcall hsettled := by
    rcases List.mem_append.1 hcall with hold | hnew
    · exact h.settled call hold hsettled
    · obtain rfl := List.mem_singleton.1 hnew
      cases hsettled

/-- A timer that fires is the one the object knows, so nothing is in flight and nobody has stopped. -/
theorem Inv.fired (h : Inv s) {timeout : Timeout} (hfire : timeout ∈ s.armed) :
    s.armed = [timeout] ∧ s.loop.cycle = none ∧ s.loop.stopping = false ∧ s.stops = [] := by
  have htimer : s.loop.timer = some timeout := by
    rw [h.armed] at hfire
    simpa using hfire
  have hstopping : s.loop.stopping = false := by
    by_contra hstop
    cases htimer.symm.trans (h.quiet (by simpa using hstop))
  refine ⟨by rw [h.armed, htimer]; rfl, h.alone (by simp [htimer]), hstopping, ?_⟩
  by_contra hstops
  cases hstopping.symm.trans (h.stopping hstops)

theorem Inv.fire (h : Inv s) {timeout : Timeout} (hfire : timeout ∈ s.armed) (throws : Bool) : Inv (s.fire timeout throws) := by
  obtain ⟨harmed, hcycle, hstopping, hstops⟩ := h.fired hfire
  have hover : ∀ (c : ℕ) (phase : CyclePhase), s.cycles[c]? = some phase → phase = .over := by
    intro c phase hphase
    by_contra hopen
    cases hcycle.symm.trans (h.cycle c phase hphase hopen)
  have hlast : ∀ (c : ℕ) (phase : CyclePhase), (s.fire timeout throws).cycles[c]? = some phase → phase ≠ .over →
      c = s.cycles.length ∧ throws = false := by
    intro c phase hphase hopen
    rw [PollLoopState.fire, List.getElem?_append] at hphase
    split at hphase
    · exact absurd (hover c phase hphase) hopen
    · next hlength =>
      obtain ⟨hindex, hnew⟩ := List.getElem?_eq_some_iff.1 hphase
      simp only [List.length_singleton] at hindex
      refine ⟨by omega, ?_⟩
      cases throws with
      | true =>
        simp only [if_true, List.getElem_singleton] at hnew
        exact absurd hnew.symm hopen
      | false => rfl
  refine
    { armed := by simp [PollLoopState.fire, harmed]
      cycle := fun c phase hphase hopen => ?_
      known := fun c hc hphase => ?_
      alone := fun hsome => by cases hsome
      stopping := fun hne => absurd hstops hne
      quiet := fun _ => rfl
      awaited := fun call hcall => by rw [PollLoopState.fire, hstops] at hcall; cases hcall
      held := fun call hcall => by rw [PollLoopState.fire, hstops] at hcall; cases hcall
      settled := fun call hcall => by rw [PollLoopState.fire, hstops] at hcall; cases hcall }
  · obtain ⟨rfl, rfl⟩ := hlast c phase hphase hopen
    rfl
  · cases throws with
    | true => cases hcycle.symm.trans hc
    | false =>
      obtain rfl : s.cycles.length = c := Option.some.inj hc
      simp [PollLoopState.fire] at hphase

/-- A cycle goes from one phase to another that is not the last. -/
theorem Inv.settle (h : Inv s) {c : ℕ} (hrunning : s.cycles[c]? = some .running) (settlement : Settlement) :
    Inv { s with cycles := s.cycles.set c (.settled settlement) } :=
  { h with
    cycle := fun c' phase hphase hopen => by
      rw [List.getElem?_set] at hphase
      split at hphase
      · next heq => exact heq ▸ h.cycle c .running hrunning (by decide)
      · exact h.cycle c' phase hphase hopen
    known := fun c' hc' hphase => by
      rw [List.getElem?_set] at hphase
      split at hphase
      · split at hphase <;> cases hphase
      · exact h.known c' hc' hphase
    settled := fun call hcall hsettled c' hc' => by
      have hover := h.settled call hcall hsettled c' hc'
      rw [List.getElem?_set]
      split
      · next heq =>
        rw [← heq, hrunning] at hover
        cases hover
      · exact hover }

/-- The continuation of a cycle runs while the object knows it. -/
theorem Inv.ended (h : Inv s) {c : ℕ} {settlement : Settlement} (hsettled : s.cycles[c]? = some (.settled settlement)) :
    s.loop.timer = none ∧ Inv { s with loop := { s.loop with cycle := none }, cycles := s.cycles.set c .over } := by
  have hcycle : s.loop.cycle = some c := h.cycle c _ hsettled (by simp)
  have htimer : s.loop.timer = none := by
    by_contra htimer
    cases hcycle.symm.trans (h.alone (Option.isSome_iff_ne_none.2 htimer))
  refine ⟨htimer, { h with cycle := ?_, known := ?_, alone := fun _ => rfl, held := fun _ _ => .inr rfl, settled := ?_ }⟩
  · intro c' phase hphase hopen
    rw [List.getElem?_set] at hphase
    split at hphase
    · split at hphase
      · exact absurd (Option.some.inj hphase).symm hopen
      · cases hphase
    · next hne => exact absurd (Option.some.inj (hcycle.symm.trans (h.cycle c' phase hphase hopen))) hne
  · intro c' hc'
    cases hc'
  · intro call hcall hover c' hc'
    rw [List.getElem?_set]
    split
    · rw [if_pos (List.getElem?_eq_some_iff.1 hsettled).1]
    · exact h.settled call hcall hover c' hc'

theorem Inv.continuation (h : Inv s) {c : ℕ} {settlement : Settlement} (hsettled : s.cycles[c]? = some (.settled settlement))
    (intervalMs : Option ℕ) : Inv (s.continuation c intervalMs) := by
  obtain ⟨htimer, hended⟩ := h.ended hsettled
  unfold PollLoopState.continuation
  dsimp only
  split
  · exact hended
  · next hstopping =>
    cases intervalMs with
    | none => exact hended
    | some delayMs => exact hended.schedule delayMs htimer rfl (by simpa using hstopping)

theorem Inv.stopSettles (h : Inv s) {i : ℕ} {call : StopCall} (hcall : s.stops[i]? = some call) (hover : s.awaitedOver call = true) :
    Inv { s with stops := s.stops.set i { call with settled := true } } := by
  have hmem : ∀ call' ∈ s.stops.set i { call with settled := true }, call' ∈ s.stops ∨ call' = { call with settled := true } := fun _ hcall' =>
    List.mem_or_eq_of_mem_set hcall'
  have hold : call ∈ s.stops := List.mem_of_getElem? hcall
  refine { h with stopping := ?_, awaited := ?_, held := ?_, settled := ?_ }
  · intro _
    exact h.stopping (List.ne_nil_of_mem hold)
  · intro call' hcall'
    rcases hmem call' hcall' with hcall' | rfl
    · exact h.awaited call' hcall'
    · exact h.awaited call hold
  · intro call' hcall'
    rcases hmem call' hcall' with hcall' | rfl
    · exact h.held call' hcall'
    · exact h.held call hold
  · intro call' hcall' hsettled c hc
    rcases hmem call' hcall' with hcall' | rfl
    · exact h.settled call' hcall' hsettled c hc
    · simp only [PollLoopState.awaitedOver] at hover
      dsimp only at hc
      rw [hc] at hover
      simpa using hover

theorem Inv.step (h : Inv s) {action : PollLoopAction} {s' : PollLoopState} (hexec : s.exec action = some s') : Inv s' := by
  cases action with
  | start => exact Option.some.inj hexec ▸ h.start
  | stop => exact Option.some.inj hexec ▸ h.stop
  | fire timeout throws =>
    rw [exec] at hexec
    split at hexec
    · next hfire => exact Option.some.inj hexec ▸ h.fire hfire throws
    · cases hexec
  | settle c settlement =>
    rw [exec] at hexec
    split at hexec
    · next hrunning => exact Option.some.inj hexec ▸ h.settle hrunning settlement
    · cases hexec
  | continuation c intervalMs =>
    rw [exec] at hexec
    split at hexec
    · next hsettled => exact Option.some.inj hexec ▸ h.continuation hsettled intervalMs
    · cases hexec
  | stopSettles i =>
    rw [exec] at hexec
    split at hexec
    · next call hcall =>
      split at hexec
      · next hover =>
        rw [Bool.and_eq_true] at hover
        exact Option.some.inj hexec ▸ h.stopSettles hcall hover.2
      · cases hexec
    · cases hexec

theorem inv_of_reachable (h : pollLoop.Reachable (fun _ _ => True) s) : Inv s := by
  apply h.invariant
  · rintro _ rfl
    exact inv_initial
  · intro s action s' hi _ hexec
    exact hi.step hexec

/-! ### After `stop` -/

/-- Once `stop` was called no timer is armed, so no cycle starts. -/
theorem Inv.stopped_step (h : Inv s) (hstopping : s.loop.stopping = true) {action : PollLoopAction} {s' : PollLoopState}
    (hexec : s.exec action = some s') : s'.loop.stopping = true ∧ s'.cycles.length = s.cycles.length := by
  have harmed : s.armed = [] := by
    rw [h.armed, h.quiet hstopping]
    rfl
  cases action with
  | start =>
    obtain rfl := Option.some.inj hexec
    simp [PollLoopState.start, hstopping]
  | stop =>
    obtain rfl := Option.some.inj hexec
    exact ⟨rfl, rfl⟩
  | fire timeout throws => simp [exec, harmed] at hexec
  | settle c settlement =>
    rw [exec] at hexec
    split at hexec
    · obtain rfl := Option.some.inj hexec
      exact ⟨hstopping, List.length_set⟩
    · cases hexec
  | continuation c intervalMs =>
    rw [exec] at hexec
    split at hexec
    · obtain rfl := Option.some.inj hexec
      simp [PollLoopState.continuation, hstopping]
    · cases hexec
  | stopSettles i =>
    rw [exec] at hexec
    split at hexec
    · split at hexec
      · obtain rfl := Option.some.inj hexec
        exact ⟨hstopping, rfl⟩
      · cases hexec
    · cases hexec

theorem Inv.stopped_run (h : Inv s) (hstopping : s.loop.stopping = true) {actions : List PollLoopAction} {s' : PollLoopState}
    (hrun : pollLoop.run s actions = some s') : s'.cycles.length = s.cycles.length := by
  have hkept : Inv s' ∧ s'.loop.stopping = true ∧ s'.cycles.length = s.cycles.length := by
    refine Machine.run_induction (P := fun _ _ => True) (I := fun t => Inv t ∧ t.loop.stopping = true ∧ t.cycles.length = s.cycles.length)
      (fun t action t' ht _ hexec => ?_) (fun _ _ _ => trivial) ⟨h, hstopping, rfl⟩ hrun
    obtain ⟨hstop, hlength⟩ := ht.1.stopped_step ht.2.1 hexec
    exact ⟨ht.1.step hexec, hstop, hlength.trans ht.2.2⟩
  exact hkept.2.2

/-- What is in flight is the one cycle the object knows. -/
theorem Inv.inFlight_length (h : Inv s) : s.inFlight.length ≤ 1 := by
  have hnodup : s.inFlight.Nodup := List.nodup_range.filter _
  cases hflight : s.inFlight with
  | nil => exact Nat.zero_le 1
  | cons c rest =>
    have hrest : rest = [] := by
      apply List.eq_nil_iff_forall_not_mem.2
      intro c' hc'
      have heq : c = c' := Option.some.inj ((h.inFlight (hflight ▸ List.mem_cons_self)).symm.trans
        (h.inFlight (hflight ▸ List.mem_cons_of_mem c hc')))
      exact (List.nodup_cons.1 (hflight ▸ hnodup)).1 (heq ▸ hc')
    rw [hrest]
    exact Nat.le_refl 1

/-- Once a call of `stop` has settled, nothing is in flight. -/
theorem Inv.inFlight_settled (h : Inv s) {call : StopCall} (hcall : call ∈ s.stops) (hsettled : call.settled = true) : s.inFlight = [] := by
  apply List.eq_nil_iff_forall_not_mem.2
  intro c hc
  have hcycle := h.inFlight hc
  rcases h.held call hcall with hawaited | hnone
  · exact h.known c hcycle (h.settled call hcall hsettled c (hawaited ▸ hcycle))
  · cases hcycle.symm.trans hnone

end Steps

end PollLoopState

/-- **The poll loop.** In every order of its callbacks: at most one cycle is in flight; a call of `stop` settles
only when the cycle that was in flight at the call is over, and then none is; and once `stop` was called, no
action starts a cycle, a later call of `start` neither. -/
theorem pollLoop_safe (s : PollLoopState) (h : pollLoop.Reachable (fun _ _ => True) s) :
    s.inFlight.length ≤ 1 ∧
    (∀ call ∈ s.stops, call.settled = true → (∀ c ∈ call.inFlight, s.cycles[c]? = some .over) ∧ s.inFlight = []) ∧
    (s.stops ≠ [] → ∀ actions s', pollLoop.run s actions = some s' → s'.cycles.length = s.cycles.length) := by
  have hi := PollLoopState.inv_of_reachable h
  refine ⟨hi.inFlight_length, fun call hcall hsettled => ⟨fun c hc => ?_, hi.inFlight_settled hcall hsettled⟩, fun hstops actions s' hrun => ?_⟩
  · exact hi.settled call hcall hsettled c (hi.awaited call hcall c hc)
  · exact hi.stopped_run (hi.stopping hstops) hrun

/-- A cycle in flight is stopped twice and started again; then it fails. -/
def stoppedInFlight : List PollLoopAction :=
  [.start, .fire ⟨0, 0⟩ false, .start, .stop, .stop, .start, .settle 0 .rejected, .continuation 0 (some 5000), .stopSettles 1]

theorem pollLoop_safe_stopped : ∃ s, pollLoop.run .initial stoppedInFlight = some s ∧ s.inFlight = [] ∧
    ∀ actions s', pollLoop.run s actions = some s' → s'.cycles.length = 1 := by
  obtain ⟨s, hrun⟩ : ∃ s, pollLoop.run .initial stoppedInFlight = some s := ⟨_, by rfl⟩
  have hreach : pollLoop.Reachable (fun _ _ => True) s := .of_run (.init rfl) (fun _ _ _ => trivial) hrun
  have hstate : s.cycles.length = 1 ∧ s.stops = [⟨[0], some 0, false⟩, ⟨[0], some 0, true⟩] := by
    obtain rfl := Option.some.inj (hrun.symm.trans (by rfl : pollLoop.run .initial stoppedInFlight = some _))
    exact ⟨rfl, rfl⟩
  obtain ⟨-, hstops, hlater⟩ := pollLoop_safe s hreach
  refine ⟨s, hrun, (hstops ⟨[0], some 0, true⟩ (by simp [hstate.2]) rfl).2, fun actions s' h => ?_⟩
  exact (hlater (by simp [hstate.2]) actions s' h).trans hstate.1

end HotelBackend.Outbox
