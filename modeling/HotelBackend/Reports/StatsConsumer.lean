import HotelBackend.Files.StorageCleanup
import HotelBackend.Reports.BookingStats
import HotelBackend.Theory.Runs

/-!
# The statistics consumer

`consumeBookingStatsBatch` over the partitions of the topic, by any number of readers: a
reader is what a member of the group does with a partition it was assigned. It fetches from
its position, calls the handler, which is one transaction, resolves the last offset and
commits the next one; it may throw, stop or be taken for stale in between, and a reader that
lost its partition may still go on. The client commits and resolves nothing by itself.

What stands below a position or a committed offset was applied (`Inv`): the facts are the
newest of a set of messages that has all of these.
-/

namespace HotelBackend.Reports

open HotelBackend.Common
open HotelBackend.Theory
open HotelBackend.Bookings
open HotelBackend.Files (QueryOutcome)

/-! ### The system -/

/-- Where a reader is with its batch of `count` messages. -/
inductive ReaderPhase where
  | idle
  | fetched (count : ℕ)
  /-- The handler was called. -/
  | handling (count : ℕ)
  /-- The handler has returned. -/
  | handled (count : ℕ)
  /-- The last offset is resolved; the commit is next. -/
  | resolved
  deriving DecidableEq, Repr

/-- A member's hold of a partition. -/
structure Reader where
  member : ℕ
  partition : ℕ
  /-- The next offset to fetch. -/
  position : ℕ
  phase : ReaderPhase
  deriving DecidableEq, Repr

/-- The topic, the group and the table. -/
structure StatsConsumers where
  /-- The messages of a partition; an offset is a place in them. -/
  log : ℕ → List (Option String)
  /-- The offset the group has committed. -/
  committed : ℕ → ℕ
  readers : ℕ → Option Reader
  facts : List BookingStatsFactRow

def StatsConsumers.empty : StatsConsumers := ⟨fun _ => [], fun _ => 0, fun _ => none, []⟩

inductive ConsumerAction where
  | produce (partition : ℕ) (message : Option String)
  /-- A member is assigned a partition, and reads on from the committed offset. -/
  | assign (reader member partition : ℕ)
  /-- The partition is taken away, or the process ends. -/
  | drop (reader : ℕ)
  | fetch (reader count : ℕ)
  /-- The first lines of `consumeBookingStatsBatch`. -/
  | enter (reader : ℕ) (isRunning isStale : Bool)
  /-- The transaction of the handler. -/
  | handle (reader : ℕ) (outcome : QueryOutcome)
  | resolveOffset (reader : ℕ)
  | commitOffsets (reader : ℕ) (outcome : QueryOutcome)

namespace StatsConsumers

def move (s : StatsConsumers) (reader : ℕ) (c : Reader) (phase : ReaderPhase) : StatsConsumers :=
  { s with readers := Function.update s.readers reader (some { c with phase := phase }) }

/-- The messages of a batch. -/
def batch (s : StatsConsumers) (c : Reader) (count : ℕ) : List (Option String) := ((s.log c.partition).drop c.position).take count

/-- The handler: what it throws, the batch throws, and the position stays. -/
def handle (v : StatsValidator) (s : StatsConsumers) (reader : ℕ) (c : Reader) (count : ℕ) : QueryOutcome → StatsConsumers
  | .failed => s.move reader c .idle
  | .committed => { s.move reader c (.handled count) with facts := applyBatch v bookingStatsUpsertChunkSize s.facts (s.batch c count) }
  | .lostReply => { s.move reader c .idle with facts := applyBatch v bookingStatsUpsertChunkSize s.facts (s.batch c count) }

/-- The offset after the last one of the batch. -/
def commitOffsets (s : StatsConsumers) (reader : ℕ) (c : Reader) : QueryOutcome → StatsConsumers
  | .failed => s.move reader c .idle
  | .committed | .lostReply => { s.move reader c .idle with committed := Function.update s.committed c.partition c.position }

def exec (v : StatsValidator) (s : StatsConsumers) : ConsumerAction → Option StatsConsumers
  | .produce partition message => some { s with log := Function.update s.log partition (s.log partition ++ [message]) }
  | .assign reader member partition =>
    match s.readers reader with
    | some _ => none
    | none => some { s with readers := Function.update s.readers reader (some ⟨member, partition, s.committed partition, .idle⟩) }
  | .drop reader => some { s with readers := Function.update s.readers reader none }
  | .fetch reader count => do
    let c ← s.readers reader
    match c.phase with
    | .idle => if c.position + count ≤ (s.log c.partition).length then some (s.move reader c (.fetched count)) else none
    | _ => none
  | .enter reader isRunning isStale => do
    let c ← s.readers reader
    match c.phase with
    | .fetched count => some (s.move reader c (if !isRunning || isStale || count = 0 then .idle else .handling count))
    | _ => none
  | .handle reader outcome => do
    let c ← s.readers reader
    match c.phase with
    | .handling count => some (s.handle v reader c count outcome)
    | _ => none
  | .resolveOffset reader => do
    let c ← s.readers reader
    match c.phase with
    | .handled count => some (s.move reader { c with position := c.position + count } .resolved)
    | _ => none
  | .commitOffsets reader outcome => do
    let c ← s.readers reader
    match c.phase with
    | .resolved => some (s.commitOffsets reader c outcome)
    | _ => none

end StatsConsumers

/-- Any number of readers, in any order. -/
def statsConsumers (v : StatsValidator) : Machine StatsConsumers ConsumerAction where
  init s := s = .empty
  exec := StatsConsumers.exec v

/-! ### What was applied -/

/-- The messages below an offset are there, and their facts are among those applied. -/
structure Seen (v : StatsValidator) (applied : Set BookingStatsFactRow) (log : List (Option String)) (offset : ℕ) : Prop where
  bound : offset ≤ log.length
  facts : ∀ m ∈ log.take offset, ∀ f, toFact v m = some f → f ∈ applied

section Seen

variable {v : StatsValidator} {applied applied' : Set BookingStatsFactRow} {log : List (Option String)} {offset : ℕ}

theorem Seen.zero : Seen v applied log 0 := ⟨Nat.zero_le _, fun m hm => absurd hm (by rw [List.take_zero]; exact List.not_mem_nil)⟩

theorem Seen.mono (h : Seen v applied log offset) (hsub : applied ⊆ applied') : Seen v applied' log offset :=
  ⟨h.bound, fun m hm f hf => hsub (h.facts m hm f hf)⟩

theorem Seen.append (h : Seen v applied log offset) (message : Option String) : Seen v applied (log ++ [message]) offset := by
  refine ⟨h.bound.trans ?_, fun m hm => h.facts m ?_⟩
  · rw [List.length_append]
    exact Nat.le_add_right _ _
  · rwa [List.take_append_of_le_length h.bound] at hm

/-- A batch that was applied. -/
theorem Seen.batch {count : ℕ} (h : Seen v applied log offset) (hbound : offset + count ≤ log.length)
    (hbatch : {f | f ∈ ((log.drop offset).take count).filterMap (toFact v)} ⊆ applied) : Seen v applied log (offset + count) := by
  refine ⟨hbound, fun m hm f hf => ?_⟩
  rw [List.take_add] at hm
  rcases List.mem_append.1 hm with hm | hm
  · exact h.facts m hm f hf
  · exact hbatch (List.mem_filterMap.2 ⟨m, hm, hf⟩)

end Seen

/-- What a reader relies on: it was applied what stands before its position, and its batch if the handler has returned. -/
structure Reader.Sound (v : StatsValidator) (applied : Set BookingStatsFactRow) (log : List (Option String)) (c : Reader) : Prop where
  position : Seen v applied log c.position
  batch : ∀ count, c.phase = .fetched count ∨ c.phase = .handling count → c.position + count ≤ log.length
  handled : ∀ count, c.phase = .handled count → Seen v applied log (c.position + count)

/-- A reader without a batch. -/
theorem Reader.Sound.of_seen {v : StatsValidator} {applied : Set BookingStatsFactRow} {log : List (Option String)} {c : Reader}
    (hseen : Seen v applied log c.position) (hphase : c.phase = .idle ∨ c.phase = .resolved) : c.Sound v applied log := by
  refine ⟨hseen, fun n hn => ?_, fun n hn => ?_⟩
  · rcases hphase with hp | hp <;> rcases hn with hn | hn <;> rw [hp] at hn <;> cases hn
  · rcases hphase with hp | hp <;> rw [hp] at hn <;> cases hn

/-- What stands below a committed offset was applied, and what a reader among `live` is past. -/
structure StatsConsumers.Read (v : StatsValidator) (applied : Set BookingStatsFactRow) (live : ℕ → Prop) (s : StatsConsumers) : Prop where
  committed : ∀ p, Seen v applied (s.log p) (s.committed p)
  readers : ∀ r c, live r → s.readers r = some c → c.Sound v applied (s.log c.partition)

/-- And the facts are the newest of what was applied. -/
structure StatsConsumers.Inv (v : StatsValidator) (applied : Set BookingStatsFactRow) (live : ℕ → Prop) (s : StatsConsumers) : Prop
    extends s.Read v applied live where
  newest : factVersioning.IsNewest applied s.facts

/-- The facts of the topic. -/
def StatsConsumers.topicFacts (v : StatsValidator) (s : StatsConsumers) : Set BookingStatsFactRow :=
  {f | ∃ p, ∃ m ∈ s.log p, toFact v m = some f}

/-- The reader an action assigns a partition to. -/
def ConsumerAction.assigned : ConsumerAction → Option ℕ
  | assign reader .. => some reader
  | _ => none

/-- The reader whose commit takes effect. -/
def ConsumerAction.commits : ConsumerAction → Option ℕ
  | commitOffsets reader outcome => if outcome = .failed then none else some reader
  | _ => none

namespace StatsConsumers

section Steps

variable {v : StatsValidator} {applied applied' : Set BookingStatsFactRow} {live live' : ℕ → Prop} {s s' : StatsConsumers}

theorem Read.weaken (h : s.Read v applied live) (hlive : ∀ r, live' r → live r) : s.Read v applied live' :=
  ⟨h.committed, fun r c hr hc => h.readers r c (hlive r hr) hc⟩

/-- A reader moves. -/
theorem Read.update (h : s.Read v applied live) {reader : ℕ} {c : Option Reader}
    (hc : ∀ c', c = some c' → live reader → c'.Sound v applied (s.log c'.partition)) :
    Read v applied live { s with readers := Function.update s.readers reader c } where
  committed := h.committed
  readers r c' hr hc' := by
    dsimp only at hc'
    by_cases hreader : r = reader
    · rw [hreader, Function.update_self] at hc'
      exact hc c' hc' (hreader ▸ hr)
    · rw [Function.update_of_ne hreader] at hc'
      exact h.readers r c' hr hc'

/-- More was applied. -/
theorem Read.apply (h : s.Read v applied live) (hsub : applied ⊆ applied') (facts : List BookingStatsFactRow) :
    Read v applied' live { s with facts := facts } where
  committed p := (h.committed p).mono hsub
  readers r c hr hc := by
    have hsound := h.readers r c hr hc
    exact ⟨hsound.position.mono hsub, hsound.batch, fun n hn => (hsound.handled n hn).mono hsub⟩

theorem Read.produce (h : s.Read v applied live) (partition : ℕ) (message : Option String) :
    Read v applied live { s with log := Function.update s.log partition (s.log partition ++ [message]) } := by
  have hlog : ∀ {p offset}, Seen v applied (s.log p) offset →
      Seen v applied (Function.update s.log partition (s.log partition ++ [message]) p) offset := by
    intro p offset hseen
    by_cases hp : p = partition
    · subst hp
      rw [Function.update_self]
      exact hseen.append message
    · rwa [Function.update_of_ne hp]
  have hlength : ∀ p, (s.log p).length ≤ (Function.update s.log partition (s.log partition ++ [message]) p).length := by
    intro p
    by_cases hp : p = partition
    · subst hp
      rw [Function.update_self, List.length_append]
      exact Nat.le_add_right _ _
    · rw [Function.update_of_ne hp]
  refine ⟨fun p => hlog (h.committed p), fun r c hr hc => ?_⟩
  have hsound := h.readers r c hr hc
  exact ⟨hlog hsound.position, fun n hn => (hsound.batch n hn).trans (hlength _), fun n hn => hlog (hsound.handled n hn)⟩

/-- What a batch applies is of the topic. -/
theorem batch_subset (c : Reader) (count : ℕ) : {f | f ∈ (s.batch c count).filterMap (toFact v)} ⊆ s.topicFacts v := by
  intro f hf
  obtain ⟨m, hm, hf⟩ := List.mem_filterMap.1 hf
  exact ⟨c.partition, m, List.mem_of_mem_drop (List.mem_of_mem_take hm), hf⟩

/-- A step applies messages of the topic; a commit is of a reader that may be relied on. -/
theorem Read.step {a : ConsumerAction} (h : s.Read v applied live) (he : s.exec v a = some s')
    (hlive : ∀ r, live' r → live r ∨ a.assigned = some r) (hcommit : ∀ r, a.commits = some r → live r) :
    ∃ applied', applied ⊆ applied' ∧ applied' ⊆ applied ∪ s.topicFacts v ∧ s'.Read v applied' live' ∧
      (factVersioning.IsNewest applied s.facts → factVersioning.IsNewest applied' s'.facts) := by
  -- all actions but one assign no partition
  have hsame : a.assigned = none → ∀ r, live' r → live r := by
    intro ha r hr
    refine (hlive r hr).resolve_right fun hassigned => ?_
    rw [ha] at hassigned
    cases hassigned
  cases a with
  | produce partition message =>
    obtain rfl := Option.some.inj he
    exact ⟨applied, subset_rfl, Set.subset_union_left, (h.produce partition message).weaken (hsame rfl), id⟩
  | assign reader member partition =>
    simp only [exec] at he
    split at he
    · cases he
    · obtain rfl := Option.some.inj he
      refine ⟨applied, subset_rfl, Set.subset_union_left, ⟨h.committed, fun r c hr hc => ?_⟩, id⟩
      dsimp only at hc
      by_cases hreader : r = reader
      · rw [hreader, Function.update_self] at hc
        obtain rfl := Option.some.inj hc
        exact .of_seen (h.committed partition) (.inl rfl)
      · rw [Function.update_of_ne hreader] at hc
        exact h.readers r c ((hlive r hr).resolve_right fun ha => hreader (Option.some.inj ha).symm) hc
  | drop reader =>
    obtain rfl := Option.some.inj he
    exact ⟨applied, subset_rfl, Set.subset_union_left, (h.update fun c hc => by cases hc).weaken (hsame rfl), id⟩
  | fetch reader count =>
    simp only [exec, Option.bind_eq_bind, Option.bind_eq_some_iff] at he
    obtain ⟨c, hc, he⟩ := he
    split at he
    case h_2 => cases he
    obtain ⟨hbound, he⟩ := Option.ite_none_right_eq_some.1 he
    obtain rfl := Option.some.inj he
    refine ⟨applied, subset_rfl, Set.subset_union_left, (h.update fun c' hc' hr => ?_).weaken (hsame rfl), id⟩
    obtain rfl := Option.some.inj hc'
    refine ⟨(h.readers reader c hr hc).position, fun n hn => ?_, fun n hn => by cases hn⟩
    rcases hn with hn | hn <;> cases hn
    exact hbound
  | enter reader isRunning isStale =>
    simp only [exec, Option.bind_eq_bind, Option.bind_eq_some_iff] at he
    obtain ⟨c, hc, he⟩ := he
    split at he
    case h_2 => cases he
    case h_1 count hphase =>
      obtain rfl := Option.some.inj he
      refine ⟨applied, subset_rfl, Set.subset_union_left, (h.update fun c' hc' hr => ?_).weaken (hsame rfl), id⟩
      obtain rfl := Option.some.inj hc'
      have hsound := h.readers reader c hr hc
      refine ⟨hsound.position, fun n hn => ?_, fun n hn => ?_⟩
      · dsimp only at hn
        split at hn
        · rcases hn with hn | hn <;> cases hn
        · rcases hn with hn | hn <;> cases hn
          exact hsound.batch count (.inl hphase)
      · dsimp only at hn
        split at hn <;> cases hn
  | handle reader outcome =>
    simp only [exec, Option.bind_eq_bind, Option.bind_eq_some_iff] at he
    obtain ⟨c, hc, he⟩ := he
    split at he
    case h_2 => cases he
    case h_1 count hphase =>
      obtain rfl := Option.some.inj he
      have hidle : ∀ {xs : Set BookingStatsFactRow} (c' : Reader), some { c with phase := .idle } = some c' →
          Seen v xs (s.log c.partition) c.position → c'.Sound v xs (s.log c'.partition) := by
        intro xs c' hc' hseen
        obtain rfl := Option.some.inj hc'
        exact .of_seen hseen (.inl rfl)
      have hsub : applied ∪ {f | f ∈ (s.batch c count).filterMap (toFact v)} ⊆ applied ∪ s.topicFacts v :=
        Set.union_subset_union_right applied (batch_subset c count)
      cases outcome with
      | failed =>
        exact ⟨applied, subset_rfl, Set.subset_union_left,
          (h.update fun c' hc' hr => hidle c' hc' (h.readers reader c hr hc).position).weaken (hsame rfl), id⟩
      | lostReply =>
        refine ⟨_, Set.subset_union_left, hsub, ?_, fun hnewest => applyBatch_newest (by decide) hnewest _⟩
        exact ((h.apply Set.subset_union_left (applyBatch v bookingStatsUpsertChunkSize s.facts (s.batch c count))).update fun c' hc' hr => hidle c' hc'
          ((h.readers reader c hr hc).position.mono Set.subset_union_left)).weaken (hsame rfl)
      | committed =>
        refine ⟨_, Set.subset_union_left, hsub, ?_, fun hnewest => applyBatch_newest (by decide) hnewest _⟩
        refine ((h.apply Set.subset_union_left (applyBatch v bookingStatsUpsertChunkSize s.facts (s.batch c count))).update fun c' hc' hr => ?_).weaken (hsame rfl)
        obtain rfl := Option.some.inj hc'
        have hsound := h.readers reader c hr hc
        have hposition := hsound.position.mono (Set.subset_union_left (t := {f | f ∈ (s.batch c count).filterMap (toFact v)}))
        refine ⟨hposition, fun n hn => ?_, fun n hn => ?_⟩
        · rcases hn with hn | hn <;> cases hn
        obtain rfl := ReaderPhase.handled.inj hn
        exact hposition.batch (hsound.batch _ (.inr hphase)) Set.subset_union_right
  | resolveOffset reader =>
    simp only [exec, Option.bind_eq_bind, Option.bind_eq_some_iff] at he
    obtain ⟨c, hc, he⟩ := he
    split at he
    case h_2 => cases he
    case h_1 count hphase =>
      obtain rfl := Option.some.inj he
      refine ⟨applied, subset_rfl, Set.subset_union_left, (h.update fun c' hc' hr => ?_).weaken (hsame rfl), id⟩
      obtain rfl := Option.some.inj hc'
      exact .of_seen ((h.readers reader c hr hc).handled count hphase) (.inr rfl)
  | commitOffsets reader outcome =>
    simp only [exec, Option.bind_eq_bind, Option.bind_eq_some_iff] at he
    obtain ⟨c, hc, he⟩ := he
    split at he
    case h_2 => cases he
    obtain rfl := Option.some.inj he
    have hidle : (s.move reader c .idle).Read v applied live := h.update fun c' hc' hr => by
      obtain rfl := Option.some.inj hc'
      exact .of_seen (h.readers reader c hr hc).position (.inl rfl)
    have hdone : outcome ≠ .failed → (s.commitOffsets reader c .committed).Read v applied live := by
      intro houtcome
      have hseen := (h.readers reader c (hcommit reader (if_neg houtcome)) hc).position
      refine ⟨fun p => ?_, hidle.readers⟩
      show Seen v applied (s.log p) (Function.update s.committed c.partition c.position p)
      by_cases hp : p = c.partition
      · rw [hp, Function.update_self]
        exact hseen
      · rw [Function.update_of_ne hp]
        exact h.committed p
    cases outcome with
    | failed => exact ⟨applied, subset_rfl, Set.subset_union_left, hidle.weaken (hsame rfl), id⟩
    | committed | lostReply => exact ⟨applied, subset_rfl, Set.subset_union_left, (hdone (by decide)).weaken (hsame rfl), id⟩

theorem Inv.step {a : ConsumerAction} (h : s.Inv v applied live) (he : s.exec v a = some s')
    (hlive : ∀ r, live' r → live r ∨ a.assigned = some r) (hcommit : ∀ r, a.commits = some r → live r) :
    ∃ applied', applied' ⊆ applied ∪ s.topicFacts v ∧ s'.Inv v applied' live' := by
  obtain ⟨applied', -, hsub, hread, hnewest⟩ := h.toRead.step he hlive hcommit
  exact ⟨applied', hsub, hread, hnewest h.newest⟩

/-- A fact that was applied is there, or a newer one of its booking. -/
theorem Inv.applied_mem (h : s.Inv v applied live) {f : BookingStatsFactRow} (hf : f ∈ applied) :
    ∃ g ∈ s.facts, g.bookingPublicId = f.bookingPublicId ∧ f.bookingVersion ≤ g.bookingVersion := by
  obtain ⟨g, hg, hkey⟩ := List.mem_map.1 (h.newest.cover f hf)
  exact ⟨g, hg, hkey, (h.newest.latest g hg).2 f hf hkey.symm⟩

theorem inv_of_reachable (h : (statsConsumers v).Reachable (fun _ _ => True) s) : ∃ applied, s.Inv v applied fun _ => True := by
  refine h.invariant (I := fun s => ∃ applied, s.Inv v applied fun _ => True) ?_ ?_
  · rintro s rfl
    exact ⟨∅, ⟨fun _ => .zero, fun _ _ _ hc => by cases hc⟩, Versioning.isNewest_nil⟩
  · rintro s a s' ⟨applied, hi⟩ - he
    obtain ⟨applied', -, hi'⟩ := hi.step he (fun r _ => .inl trivial) fun _ _ => trivial
    exact ⟨applied', hi'⟩

end Steps

end StatsConsumers

/-- **A committed offset stands for applied messages**: whatever fails, crashes, goes stale or is read again, the facts
have of every valid message below it the version it carries, or a newer one. -/
theorem committed_applied (v : StatsValidator) (s : StatsConsumers) (h : (statsConsumers v).Reachable (fun _ _ => True) s)
    (partition : ℕ) (m : Option String) (hm : m ∈ (s.log partition).take (s.committed partition)) (f : BookingStatsFactRow)
    (hf : toFact v m = some f) :
    ∃ g ∈ s.facts, g.bookingPublicId = f.bookingPublicId ∧ f.bookingVersion ≤ g.bookingVersion := by
  obtain ⟨applied, hi⟩ := StatsConsumers.inv_of_reachable h
  exact hi.applied_mem ((hi.committed partition).facts m hm f hf)

/-- A batch is applied, its handler is thought to have failed, and it is read again. -/
def readAgain (m m' : Option String) : List ConsumerAction :=
  [.produce 0 m, .produce 0 m', .assign 0 1 0, .fetch 0 2, .enter 0 true false, .handle 0 .lostReply,
   .fetch 0 2, .enter 0 true false, .handle 0 .committed, .resolveOffset 0, .commitOffsets 0 .committed]

theorem readAgain_run (v : StatsValidator) (m m' : Option String) :
    ((statsConsumers v).run .empty (readAgain m m')).map (fun s => (s.log 0, s.committed 0, s.facts)) =
      some ([m, m'], 2, applyBatch v bookingStatsUpsertChunkSize (applyBatch v bookingStatsUpsertChunkSize [] [m, m']) [m, m']) := by
  rfl

theorem committed_applied_readAgain : ∃ s, (statsConsumers statsValidator).run .empty (readAgain createdMessage approvedMessage) = some s ∧
    s.committed 0 = 2 ∧ s.facts = [lifecycleFact "01K4N8G4X8R0K1F2Q7V6S9T3AB" 2 .confirmed] ∧
    ∃ g ∈ s.facts, g.bookingPublicId = "01K4N8G4X8R0K1F2Q7V6S9T3AB" ∧ 1 ≤ g.bookingVersion := by
  obtain ⟨s, hs, hview⟩ := Option.map_eq_some_iff.1 (readAgain_run statsValidator createdMessage approvedMessage)
  simp only [Prod.mk.injEq] at hview
  obtain ⟨hlog, hcommitted, hfacts⟩ := hview
  refine ⟨s, hs, hcommitted, ?_, ?_⟩
  · rw [hfacts, applyBatch, applyBatch, batchRows_approved]
    decide +kernel
  · refine committed_applied statsValidator s (.of_run (.init rfl) (fun _ _ _ => trivial) hs) 0 createdMessage ?_ _ toFact_createdMessage
    rw [hlog, hcommitted]
    exact List.mem_cons_self

end HotelBackend.Reports
