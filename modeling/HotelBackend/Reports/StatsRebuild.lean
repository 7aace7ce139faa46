import HotelBackend.Reports.StatsConsumer

/-!
# The rebuild of the statistics

`BookingStatsRebuildService.rebuild`: the group is found without members, its offsets go back
to the earliest, the facts are deleted a batch at a time, and the group is asked for members
once more. In between, workers join and leave the group and consume as they do.

The second question is meant for a worker that joined while the rows were going. It finds no
worker that has left again, and what such a one has committed nobody reads a second time
(`joinedAndLeft`). Where a worker that committed early stays in the group until the question,
a rebuild that succeeds restores the facts of the topic (`rebuild_restores`).
-/

namespace HotelBackend.Reports

open HotelBackend.Common
open HotelBackend.Theory
open HotelBackend.Files (QueryOutcome)

/-! ### The group -/

inductive ConsumerGroupState where
  | unknown
  | preparingRebalance
  | completingRebalance
  | stable
  | dead
  | empty
  deriving DecidableEq, Repr

/-- The answer of the broker. -/
structure GroupDescription where
  members : List ℕ
  state : ConsumerGroupState
  deriving DecidableEq, Repr

/-- States in which the broker still counts members. -/
def activeGroupStates : List ConsumerGroupState := [.preparingRebalance, .completingRebalance, .stable]

def hasActiveMembers : Option GroupDescription → Bool
  | none => false
  | some group => 0 < group.members.length || group.state ∈ activeGroupStates

/-! ### The command -/

inductive BookingStatsRebuildErrorCode where
  | consumerActive
  | consumerJoined
  | topicMissing
  deriving DecidableEq, Repr

def BookingStatsRebuildErrorCode.code : BookingStatsRebuildErrorCode → String
  | consumerActive => "BOOKING_STATS_CONSUMER_ACTIVE"
  | consumerJoined => "BOOKING_STATS_CONSUMER_JOINED"
  | topicMissing => "BOOKING_STATS_TOPIC_MISSING"

def bookingStatsRebuildDeleteBatchSize : ℕ := 1000

/-- `DELETE FROM booking_stats_facts ORDER BY booking_public_id LIMIT ?`: the rows that stay. -/
def deleteBatch (facts : List BookingStatsFactRow) : List BookingStatsFactRow :=
  (facts.insertionSort fun left right => left.bookingPublicId ≤ right.bookingPublicId).drop bookingStatsRebuildDeleteBatchSize

/-- `affectedRows` -/
def deletedRows (facts : List BookingStatsFactRow) : ℕ := min facts.length bookingStatsRebuildDeleteBatchSize

/-- Where the command is; what it asks or does next is in the comments. -/
inductive RebuildPhase where
  | idle
  /-- `hasActiveMembers` -/
  | connected
  /-- `topicExists` -/
  | noMembers
  /-- `resetToEarliest` -/
  | topicFound
  /-- `deleteFacts`, with `total` rows gone -/
  | deleting (total : ℕ)
  /-- `hasActiveMembers`, the second time -/
  | emptied (total : ℕ)
  | succeeded (factsDeleted : ℕ)
  | failed (code : Option BookingStatsRebuildErrorCode)
  deriving DecidableEq, Repr

/-- The offsets went back, and the second question was not asked yet. -/
def RebuildPhase.wiping : RebuildPhase → Bool
  | deleting _ | emptied _ => true
  | _ => false

/-! ### The system -/

/-- The consumers, their group, and the command. -/
structure StatsRebuild where
  consumers : StatsConsumers
  members : List ℕ
  /-- Who has ever joined: the broker gives no member id twice. -/
  joined : List ℕ
  phase : RebuildPhase
  /-- The readers that had handled messages when the table became empty. No step reads it. -/
  early : ℕ → Bool
  /-- The members that have committed, since the offsets went back, what was handled before the table
  became empty. No step reads it. -/
  moved : List ℕ

def StatsRebuild.empty : StatsRebuild := ⟨.empty, [], [], .idle, fun _ => false, []⟩

inductive RebuildAction where
  /-- A worker becomes a member. -/
  | join (member : ℕ)
  /-- It stops, or its session expires. -/
  | leave (member : ℕ)
  | worker (action : ConsumerAction)
  /-- The command is started, and `ensureInitialized` returns. -/
  | start
  | describeGroups (group : Option GroupDescription)
  | listTopics (exist : Bool)
  | resetOffsets (outcome : QueryOutcome)
  | deleteFacts (outcome : QueryOutcome)
  /-- A question of the command is not answered. -/
  | throw

/-- Past a message, or about to be. -/
def Reader.hasHandled (c : Reader) : Bool :=
  0 < c.position || match c.phase with
    | .handled _ => true
    | _ => false

namespace StatsRebuild

/-- The broker assigns partitions to members, and takes the commits of members only. -/
def allows (s : StatsRebuild) : ConsumerAction → Bool
  | .assign _ member _ => member ∈ s.members
  | .commitOffsets reader outcome =>
    outcome = .failed || (s.consumers.readers reader).all fun c => decide (c.member ∈ s.members)
  | _ => true

def nextEarly (s : StatsRebuild) (a : ConsumerAction) : ℕ → Bool :=
  match a.assigned with
  | some reader => Function.update s.early reader false
  | none => s.early

def nextMoved (s : StatsRebuild) (a : ConsumerAction) : List ℕ :=
  match a.commits.bind fun reader => (s.consumers.readers reader).map fun c => (c.member, s.early reader), s.phase with
  | some (member, _), .deleting _ => member :: s.moved
  | some (member, true), .emptied _ => member :: s.moved
  | _, _ => s.moved

/-- What the broker says of the group is true when it says it. -/
def describes (s : StatsRebuild) : Option GroupDescription → Bool
  | none => s.members = []
  | some group => group.members = s.members

/-- The step `deleteFacts` takes in its loop. -/
def deleteStep (s : StatsRebuild) (total : ℕ) : StatsRebuild :=
  let deleted := deletedRows s.consumers.facts
  let consumers := { s.consumers with facts := deleteBatch s.consumers.facts }
  if deleted < bookingStatsRebuildDeleteBatchSize then
    { s with
      consumers := consumers
      phase := .emptied (total + deleted)
      early := fun reader => (s.consumers.readers reader).any Reader.hasHandled }
  else { s with consumers := consumers, phase := .deleting (total + deleted) }

def exec (v : StatsValidator) (s : StatsRebuild) : RebuildAction → Option StatsRebuild
  | .join member =>
    if member ∈ s.joined then none else some { s with members := member :: s.members, joined := member :: s.joined }
  | .leave member => some { s with members := s.members.filter (· ≠ member) }
  | .worker a => do
    let consumers ← s.consumers.exec v a
    if s.allows a then some { s with consumers := consumers, early := s.nextEarly a, moved := s.nextMoved a } else none
  | .start =>
    match s.phase with
    | .idle | .succeeded _ | .failed _ => some { s with phase := .connected }
    | _ => none
  | .describeGroups group =>
    match s.describes group, s.phase with
    | true, .connected =>
      some { s with phase := if hasActiveMembers group then .failed (some .consumerActive) else .noMembers }
    | true, .emptied total =>
      some { s with phase := if hasActiveMembers group then .failed (some .consumerJoined) else .succeeded total }
    | _, _ => none
  | .listTopics exist =>
    match s.phase with
    | .noMembers => some { s with phase := if exist then .topicFound else .failed (some .topicMissing) }
    | _ => none
  | .resetOffsets outcome =>
    match s.phase, outcome with
    | .topicFound, .failed => some { s with phase := .failed none }
    | .topicFound, .committed =>
      some { s with consumers := { s.consumers with committed := fun _ => 0 }, phase := .deleting 0, moved := [] }
    | .topicFound, .lostReply => some { s with consumers := { s.consumers with committed := fun _ => 0 }, phase := .failed none }
    | _, _ => none
  | .deleteFacts outcome =>
    match s.phase, outcome with
    | .deleting _, .failed => some { s with phase := .failed none }
    | .deleting total, .committed => some (s.deleteStep total)
    | .deleting _, .lostReply =>
      some { s with consumers := { s.consumers with facts := deleteBatch s.consumers.facts }, phase := .failed none }
    | _, _ => none
  | .throw =>
    match s.phase with
    | .idle | .succeeded _ | .failed _ => none
    | _ => some { s with phase := .failed none }

/-- Whoever committed early stays until the second question. -/
def stays (s : StatsRebuild) : RebuildAction → Bool
  | .leave member => !s.phase.wiping || member ∉ s.moved
  | _ => true

end StatsRebuild

/-- The command, as often as it is started, and the workers. -/
def statsRebuild (v : StatsValidator) : Machine StatsRebuild RebuildAction where
  init s := s = .empty
  exec := StatsRebuild.exec v

/-! ### What a worker does to the group -/

namespace StatsConsumers

variable {v : StatsValidator} {s s' : StatsConsumers} {a : ConsumerAction}

/-- A message comes, a partition is assigned or taken away, or a reader goes on. -/
theorem exec_cases (he : s.exec v a = some s') :
    (∃ partition message, a = .produce partition message ∧
      s' = { s with log := Function.update s.log partition (s.log partition ++ [message]) }) ∨
    (∃ reader member partition, a = .assign reader member partition ∧
      s' = { s with readers := Function.update s.readers reader (some ⟨member, partition, s.committed partition, .idle⟩) }) ∨
    (∃ reader, a = .drop reader ∧ s' = { s with readers := Function.update s.readers reader none }) ∨
    ∃ reader c next, s.readers reader = some c ∧ s'.readers = Function.update s.readers reader (some next) ∧
      next.member = c.member ∧ a.assigned = none ∧ s'.log = s.log ∧ (a.commits = none → s'.committed = s.committed) := by
  cases a with
  | produce partition message => exact .inl ⟨partition, message, rfl, (Option.some.inj he).symm⟩
  | assign reader member partition =>
    simp only [exec] at he
    split at he
    · cases he
    · exact .inr (.inl ⟨reader, member, partition, rfl, (Option.some.inj he).symm⟩)
  | drop reader => exact .inr (.inr (.inl ⟨reader, rfl, (Option.some.inj he).symm⟩))
  | fetch reader count =>
    simp only [exec, Option.bind_eq_bind, Option.bind_eq_some_iff] at he
    obtain ⟨c, hc, he⟩ := he
    split at he
    case h_2 => cases he
    obtain ⟨-, he⟩ := Option.ite_none_right_eq_some.1 he
    obtain rfl := Option.some.inj he
    exact .inr (.inr (.inr ⟨reader, c, _, hc, rfl, rfl, rfl, rfl, fun _ => rfl⟩))
  | enter reader isRunning isStale =>
    simp only [exec, Option.bind_eq_bind, Option.bind_eq_some_iff] at he
    obtain ⟨c, hc, he⟩ := he
    split at he
    case h_2 => cases he
    obtain rfl := Option.some.inj he
    exact .inr (.inr (.inr ⟨reader, c, _, hc, rfl, rfl, rfl, rfl, fun _ => rfl⟩))
  | handle reader outcome =>
    simp only [exec, Option.bind_eq_bind, Option.bind_eq_some_iff] at he
    obtain ⟨c, hc, he⟩ := he
    split at he
    case h_2 => cases he
    obtain rfl := Option.some.inj he
    cases outcome <;> exact .inr (.inr (.inr ⟨reader, c, _, hc, rfl, rfl, rfl, rfl, fun _ => rfl⟩))
  | resolveOffset reader =>
    simp only [exec, Option.bind_eq_bind, Option.bind_eq_some_iff] at he
    obtain ⟨c, hc, he⟩ := he
    split at he
    case h_2 => cases he
    obtain rfl := Option.some.inj he
    exact .inr (.inr (.inr ⟨reader, c, _, hc, rfl, rfl, rfl, rfl, fun _ => rfl⟩))
  | commitOffsets reader outcome =>
    simp only [exec, Option.bind_eq_bind, Option.bind_eq_some_iff] at he
    obtain ⟨c, hc, he⟩ := he
    split at he
    case h_2 => cases he
    obtain rfl := Option.some.inj he
    cases outcome with
    | failed => exact .inr (.inr (.inr ⟨reader, c, _, hc, rfl, rfl, rfl, rfl, fun _ => rfl⟩))
    | committed | lostReply => exact .inr (.inr (.inr ⟨reader, c, _, hc, rfl, rfl, rfl, rfl, fun hnone => by cases hnone⟩))

/-- A reader was there before, or was assigned its partition just now. -/
theorem readers_of_exec (he : s.exec v a = some s') {r : ℕ} {c' : Reader} (hc' : s'.readers r = some c') :
    (∃ partition, a = .assign r c'.member partition) ∨
    (a.assigned ≠ some r ∧ ∃ c, s.readers r = some c ∧ c.member = c'.member) := by
  rcases exec_cases he with ⟨partition, message, rfl, rfl⟩ | ⟨reader, member, partition, rfl, rfl⟩ | ⟨reader, rfl, rfl⟩ |
    ⟨reader, c, next, hc, hreaders, hmember, hassigned, -, -⟩
  · exact .inr ⟨nofun, c', hc', rfl⟩
  · by_cases hr : r = reader
    · subst hr
      obtain rfl := Option.some.inj ((Function.update_self r _ s.readers).symm.trans hc')
      exact .inl ⟨partition, rfl⟩
    · exact .inr ⟨fun h => hr (Option.some.inj h).symm, c', (Function.update_of_ne hr _ s.readers).symm.trans hc', rfl⟩
  · by_cases hr : r = reader
    · subst hr
      cases (Function.update_self r _ s.readers).symm.trans hc'
    · exact .inr ⟨nofun, c', (Function.update_of_ne hr _ s.readers).symm.trans hc', rfl⟩
  · refine .inr ⟨by rw [hassigned]; exact nofun, ?_⟩
    rw [hreaders] at hc'
    by_cases hr : r = reader
    · subst hr
      rw [Function.update_self] at hc'
      exact ⟨c, hc, by rw [← Option.some.inj hc', hmember]⟩
    · rw [Function.update_of_ne hr] at hc'
      exact ⟨c', hc', rfl⟩

/-- Only a commit moves the committed offsets. -/
theorem committed_of_exec (he : s.exec v a = some s') (ha : a.commits = none) : s'.committed = s.committed := by
  rcases exec_cases he with ⟨_, _, rfl, rfl⟩ | ⟨_, _, _, rfl, rfl⟩ | ⟨_, rfl, rfl⟩ | ⟨_, _, _, -, -, -, -, -, hcommitted⟩
  · rfl
  · rfl
  · rfl
  · exact hcommitted ha

/-- Messages stay in the topic. -/
theorem topicFacts_of_exec (he : s.exec v a = some s') : s.topicFacts v ⊆ s'.topicFacts v := by
  rintro f ⟨p, m, hm, hf⟩
  rcases exec_cases he with ⟨partition, message, rfl, rfl⟩ | ⟨_, _, _, rfl, rfl⟩ | ⟨_, rfl, rfl⟩ | ⟨_, _, _, -, -, -, -, hlog, -⟩
  · refine ⟨p, m, ?_, hf⟩
    by_cases hp : p = partition
    · subst hp
      dsimp only
      rw [Function.update_self]
      exact List.mem_append_left _ hm
    · dsimp only
      rwa [Function.update_of_ne hp]
  · exact ⟨p, m, hm, hf⟩
  · exact ⟨p, m, hm, hf⟩
  · exact ⟨p, m, hlog ▸ hm, hf⟩

end StatsConsumers

namespace StatsRebuild

/-! ### The facts are being restored -/

section Steps

variable {v : StatsValidator} {s s' : StatsRebuild}

/-- The table holds what the readers have handled since it was empty. -/
def Restoring (v : StatsValidator) (s : StatsRebuild) : Prop :=
  ∃ applied, applied ⊆ s.consumers.topicFacts v ∧ s.consumers.Inv v applied fun r => s.early r = false

/-- What holds while the command is where it is. -/
def Progress (v : StatsValidator) (s : StatsRebuild) : Prop :=
  match s.phase with
  | .deleting _ => (∀ m ∈ s.moved, m ∈ s.members) ∧ (s.moved = [] → ∀ p, s.consumers.committed p = 0)
  | .emptied _ => (∀ m ∈ s.moved, m ∈ s.members) ∧ (s.moved = [] → s.Restoring v)
  | .succeeded _ => s.Restoring v ∧ ∀ r c, s.consumers.readers r = some c → s.early r = true → c.member ∉ s.members
  | _ => True

structure Inv (v : StatsValidator) (s : StatsRebuild) : Prop where
  members : ∀ m ∈ s.members, m ∈ s.joined
  readers : ∀ r c, s.consumers.readers r = some c → c.member ∈ s.joined
  /-- Offsets and batches are within the topic. -/
  bounds : s.consumers.Read v Set.univ fun _ => True
  progress : s.Progress v

theorem inv_empty : (StatsRebuild.empty).Inv v where
  members m hm := absurd hm List.not_mem_nil
  readers r c hc := by cases hc
  bounds := ⟨fun _ => .zero, fun _ _ _ hc => by cases hc⟩
  progress := trivial

theorem nextEarly_of_ne {a : ConsumerAction} {r : ℕ} (h : a.assigned ≠ some r) : s.nextEarly a r = s.early r := by
  cases ha : a.assigned with
  | none => simp only [nextEarly, ha]
  | some reader =>
    simp only [nextEarly, ha]
    exact Function.update_of_ne (fun hr => h (ha.trans (congrArg some hr.symm))) _ _

theorem nextMoved_eq_nil {a : ConsumerAction} (h : s.nextMoved a = []) : s.moved = [] := by
  unfold nextMoved at h
  split at h
  case h_1 => cases h
  case h_2 => cases h
  case h_3 => exact h

/-- A worker acts on a table that is being restored, without a commit of what was handled early. -/
theorem Restoring.worker {a : ConsumerAction} {consumers : StatsConsumers} (h : s.Restoring v)
    (he : s.consumers.exec v a = some consumers) (hcommit : ∀ r, a.commits = some r → s.early r = false) (moved : List ℕ) :
    Restoring v { s with consumers := consumers, early := s.nextEarly a, moved := moved } := by
  obtain ⟨applied, hsub, hinv⟩ := h
  have hlive : ∀ r, s.nextEarly a r = false → s.early r = false ∨ a.assigned = some r := by
    intro r hr
    by_cases hassigned : a.assigned = some r
    · exact .inr hassigned
    · exact .inl (nextEarly_of_ne hassigned ▸ hr)
  obtain ⟨applied', hsub', hinv'⟩ := hinv.step he hlive hcommit
  refine ⟨applied', hsub'.trans ?_, hinv'⟩
  rw [Set.union_eq_right.2 hsub]
  exact StatsConsumers.topicFacts_of_exec he

/-- The table is empty, and no offset has moved: what the readers go on with they have yet to handle. -/
theorem Restoring.of_emptied (hbounds : s.consumers.Read v Set.univ fun _ => True) (hcommitted : ∀ p, s.consumers.committed p = 0)
    (hfacts : s.consumers.facts = []) (hearly : s.early = fun reader => (s.consumers.readers reader).any Reader.hasHandled) :
    s.Restoring v := by
  refine ⟨∅, Set.empty_subset _, ⟨fun p => ?_, fun r c hr hc => ?_⟩, ?_⟩
  · rw [hcommitted p]
    exact .zero
  · simp only [hearly, hc, Option.any_some, Reader.hasHandled, Bool.or_eq_false_iff, decide_eq_false_iff_not] at hr
    obtain ⟨hposition, hphase⟩ := hr
    have hzero : c.position = 0 := Nat.eq_zero_of_not_pos hposition
    refine ⟨hzero ▸ .zero, (hbounds.readers r c trivial hc).batch, fun n hn => ?_⟩
    rw [hn] at hphase
    cases hphase
  · rw [hfacts]
    exact Versioning.isNewest_nil

/-- A commit that takes effect is one of a member. -/
theorem member_of_commits {a : ConsumerAction} (hallows : s.allows a = true) {r : ℕ} (hr : a.commits = some r) {c : Reader}
    (hc : s.consumers.readers r = some c) : c.member ∈ s.members := by
  cases a with
  | commitOffsets reader outcome =>
    simp only [ConsumerAction.commits] at hr
    obtain ⟨houtcome, hr⟩ := Option.ite_none_left_eq_some.1 hr
    obtain rfl := Option.some.inj hr
    simpa [allows, houtcome, hc] using hallows
  | _ => cases hr

/-- A commit is of a reader. -/
theorem reader_of_commits {a : ConsumerAction} {consumers : StatsConsumers} (he : s.consumers.exec v a = some consumers) {r : ℕ}
    (hr : a.commits = some r) : ∃ c, s.consumers.readers r = some c := by
  cases a with
  | commitOffsets reader outcome =>
    simp only [ConsumerAction.commits] at hr
    obtain ⟨-, hr⟩ := Option.ite_none_left_eq_some.1 hr
    obtain rfl := Option.some.inj hr
    simp only [StatsConsumers.exec, Option.bind_eq_bind, Option.bind_eq_some_iff] at he
    obtain ⟨c, hc, -⟩ := he
    exact ⟨c, hc⟩
  | _ => cases hr

/-- Whoever is noted was noted before, or is a member. -/
theorem mem_members_of_nextMoved {a : ConsumerAction} (hallows : s.allows a = true) (hmoved : ∀ m ∈ s.moved, m ∈ s.members) :
    ∀ m ∈ s.nextMoved a, m ∈ s.members := by
  have hcommitter : ∀ {p : ℕ × Bool}, (a.commits.bind fun reader => (s.consumers.readers reader).map fun c => (c.member, s.early reader)) =
      some p → p.1 ∈ s.members := by
    intro p hp
    obtain ⟨r, hr, hp⟩ := Option.bind_eq_some_iff.1 hp
    obtain ⟨c, hc, rfl⟩ := Option.map_eq_some_iff.1 hp
    exact member_of_commits hallows hr hc
  unfold nextMoved
  split
  case h_1 hp _ => exact List.forall_mem_cons.2 ⟨hcommitter hp, hmoved⟩
  case h_2 hp _ => exact List.forall_mem_cons.2 ⟨hcommitter hp, hmoved⟩
  case h_3 => exact hmoved

theorem Progress.worker {a : ConsumerAction} {consumers : StatsConsumers} (h : s.Progress v)
    (he : s.consumers.exec v a = some consumers) (hallows : s.allows a = true) :
    Progress v { s with consumers := consumers, early := s.nextEarly a, moved := s.nextMoved a } := by
  unfold Progress at h ⊢
  dsimp only
  split at h
  case h_1 total hphase =>
    obtain ⟨hmoved, hcommitted⟩ := h
    refine ⟨mem_members_of_nextMoved hallows hmoved, fun hnone => ?_⟩
    cases ha : a.commits with
    | none =>
      rw [StatsConsumers.committed_of_exec he ha]
      refine hcommitted ?_
      simpa [nextMoved, ha] using hnone
    | some r =>
      -- a commit is noted
      obtain ⟨c, hc⟩ := reader_of_commits he ha
      simp [nextMoved, ha, hc, hphase] at hnone
  case h_2 total hphase =>
    obtain ⟨hmoved, hrestoring⟩ := h
    refine ⟨mem_members_of_nextMoved hallows hmoved, fun hnone => ?_⟩
    have hcommit : ∀ r, a.commits = some r → s.early r = false := by
      intro r ha
      obtain ⟨c, hc⟩ := reader_of_commits he ha
      cases hearly : s.early r with
      | false => rfl
      | true => simp [nextMoved, ha, hc, hphase, hearly] at hnone
    exact (hrestoring (nextMoved_eq_nil hnone)).worker he hcommit _
  case h_3 total hphase =>
    obtain ⟨hrestoring, hretired⟩ := h
    have hcommit : ∀ r, a.commits = some r → s.early r = false := by
      intro r ha
      obtain ⟨c, hc⟩ := reader_of_commits he ha
      exact Bool.eq_false_iff.2 fun hearly => hretired r c hc hearly (member_of_commits hallows ha hc)
    refine ⟨hrestoring.worker he hcommit _, fun r c hc hearly => ?_⟩
    rcases StatsConsumers.readers_of_exec he hc with ⟨partition, rfl⟩ | ⟨hassigned, c₀, hc₀, hmember⟩
    · simp [nextEarly, ConsumerAction.assigned] at hearly
    · rw [← hmember]
      exact hretired r c₀ hc₀ (nextEarly_of_ne hassigned ▸ hearly)
  case h_4 => trivial

theorem Inv.worker {a : ConsumerAction} {consumers : StatsConsumers} (h : s.Inv v) (he : s.consumers.exec v a = some consumers)
    (hallows : s.allows a = true) :
    Inv v { s with consumers := consumers, early := s.nextEarly a, moved := s.nextMoved a } where
  members := h.members
  readers r c hc := by
    rcases StatsConsumers.readers_of_exec he hc with ⟨partition, rfl⟩ | ⟨-, c₀, hc₀, hmember⟩
    · exact h.members c.member (by simpa [allows] using hallows)
    · exact hmember ▸ h.readers r c₀ hc₀
  bounds := by
    have hlive : ∀ r : ℕ, True → True ∨ a.assigned = some r := fun _ _ => .inl trivial
    obtain ⟨applied, happlied, -, hread, -⟩ := h.bounds.step he hlive fun _ _ => trivial
    rwa [Set.univ_subset_iff.1 happlied] at hread
  progress := h.progress.worker he hallows

/-- A new member has no reader. -/
theorem Inv.join (h : s.Inv v) {member : ℕ} (hnew : member ∉ s.joined) :
    Inv v { s with members := member :: s.members, joined := member :: s.joined } where
  members := List.forall_mem_cons.2 ⟨List.mem_cons_self, fun m hm => List.mem_cons_of_mem _ (h.members m hm)⟩
  readers r c hc := List.mem_cons_of_mem _ (h.readers r c hc)
  bounds := h.bounds
  progress := by
    have hprogress := h.progress
    unfold Progress at hprogress ⊢
    dsimp only
    split at hprogress
    case h_1 => exact ⟨fun m hm => List.mem_cons_of_mem _ (hprogress.1 m hm), hprogress.2⟩
    case h_2 => exact ⟨fun m hm => List.mem_cons_of_mem _ (hprogress.1 m hm), hprogress.2⟩
    case h_3 =>
      refine ⟨hprogress.1, fun r c hc hearly hmem => ?_⟩
      rcases List.mem_cons.1 hmem with hmember | hmem
      · exact hnew (hmember ▸ h.readers r c hc)
      · exact hprogress.2 r c hc hearly hmem
    case h_4 => trivial

theorem Inv.leave (h : s.Inv v) {member : ℕ} (hstays : s.stays (.leave member) = true) :
    Inv v { s with members := s.members.filter (· ≠ member) } where
  members m hm := h.members m (List.mem_of_mem_filter hm)
  readers := h.readers
  bounds := h.bounds
  progress := by
    have hprogress := h.progress
    unfold Progress at hprogress ⊢
    dsimp only
    -- those who have committed early are not the one that leaves
    have hkept : s.phase.wiping = true → (∀ m ∈ s.moved, m ∈ s.members) → ∀ m ∈ s.moved, m ∈ s.members.filter (· ≠ member) := by
      intro hwiping hmoved m hm
      have hmember : member ∉ s.moved := by simpa [stays, hwiping] using hstays
      exact List.mem_filter.2 ⟨hmoved m hm, decide_eq_true fun heq => hmember (heq ▸ hm)⟩
    split at hprogress
    case h_1 total hphase => exact ⟨hkept (by rw [hphase]; rfl) hprogress.1, hprogress.2⟩
    case h_2 total hphase => exact ⟨hkept (by rw [hphase]; rfl) hprogress.1, hprogress.2⟩
    case h_3 => exact ⟨hprogress.1, fun r c hc hearly hmem => hprogress.2 r c hc hearly (List.mem_of_mem_filter hmem)⟩
    case h_4 => trivial

/-- The command goes to where nothing is promised yet. -/
theorem Inv.setPhase (h : s.Inv v) {phase : RebuildPhase} (hprogress : Progress v { s with phase := phase }) :
    Inv v { s with phase := phase } := ⟨h.members, h.readers, h.bounds, hprogress⟩

/-- The offsets and the table are the command's. -/
theorem Inv.rewind (h : s.Inv v) (phase : RebuildPhase) (moved : List ℕ)
    (hprogress : Progress v { s with consumers := { s.consumers with committed := fun _ => 0 }, phase := phase, moved := moved }) :
    Inv v { s with consumers := { s.consumers with committed := fun _ => 0 }, phase := phase, moved := moved } :=
  ⟨h.members, h.readers, ⟨fun _ => .zero, h.bounds.readers⟩, hprogress⟩

theorem deleteBatch_eq_nil {facts : List BookingStatsFactRow} (h : deletedRows facts < bookingStatsRebuildDeleteBatchSize) :
    deleteBatch facts = [] := by
  have hlength : facts.length < bookingStatsRebuildDeleteBatchSize := by
    unfold deletedRows at h
    omega
  refine List.drop_eq_nil_of_le ?_
  rw [List.length_insertionSort]
  exact hlength.le

/-- Where the last batch is short, the table is empty. -/
theorem Inv.deleteStep (h : s.Inv v) {total : ℕ} (hphase : s.phase = .deleting total) : (s.deleteStep total).Inv v := by
  have hprogress := h.progress
  simp only [Progress, hphase] at hprogress
  obtain ⟨hmoved, hcommitted⟩ := hprogress
  have hbounds : { s.consumers with facts := deleteBatch s.consumers.facts }.Read v Set.univ fun _ => True :=
    h.bounds.apply subset_rfl _
  unfold StatsRebuild.deleteStep
  dsimp only
  split
  case isTrue hshort =>
    refine ⟨h.members, h.readers, hbounds, hmoved, fun hnone => ?_⟩
    exact .of_emptied hbounds (hcommitted hnone) (deleteBatch_eq_nil hshort) rfl
  case isFalse => exact ⟨h.members, h.readers, hbounds, hmoved, hcommitted⟩

/-- A group without active members has none. -/
theorem members_of_describes {group : Option GroupDescription} (h : s.describes group = true) (hactive : ¬ hasActiveMembers group = true) :
    s.members = [] := by
  cases group with
  | none => simpa [describes] using h
  | some group =>
    simp only [hasActiveMembers, Bool.or_eq_true, decide_eq_true_eq, not_or] at hactive
    simp only [describes, decide_eq_true_eq] at h
    exact h ▸ List.length_eq_zero_iff.1 (Nat.eq_zero_of_not_pos hactive.1)

theorem Inv.step {a : RebuildAction} (h : s.Inv v) (hstays : s.stays a = true) (he : s.exec v a = some s') : s'.Inv v := by
  cases a with
  | join member =>
    obtain ⟨hnew, he⟩ := Option.ite_none_left_eq_some.1 he
    obtain rfl := Option.some.inj he
    exact h.join hnew
  | leave member =>
    obtain rfl := Option.some.inj he
    exact h.leave hstays
  | worker a =>
    simp only [exec, Option.bind_eq_bind, Option.bind_eq_some_iff] at he
    obtain ⟨consumers, hexec, he⟩ := he
    obtain ⟨hallows, he⟩ := Option.ite_none_right_eq_some.1 he
    obtain rfl := Option.some.inj he
    exact h.worker hexec hallows
  | start =>
    simp only [exec] at he
    split at he <;> cases he <;> exact h.setPhase trivial
  | describeGroups group =>
    simp only [exec] at he
    split at he
    case h_1 =>
      obtain rfl := Option.some.inj he
      split <;> exact h.setPhase trivial
    case h_2 total hdescribes hphase =>
      obtain rfl := Option.some.inj he
      have hprogress := h.progress
      simp only [Progress, hphase] at hprogress
      obtain ⟨hmoved, hrestoring⟩ := hprogress
      split
      case isTrue => exact h.setPhase trivial
      case isFalse hactive =>
        have hmembers := members_of_describes hdescribes hactive
        have hnone : s.moved = [] := List.eq_nil_iff_forall_not_mem.2 fun m hm => by
          have hmem := hmoved m hm
          rw [hmembers] at hmem
          exact List.not_mem_nil hmem
        refine h.setPhase ⟨hrestoring hnone, fun r c _ _ => ?_⟩
        show c.member ∉ s.members
        rw [hmembers]
        exact List.not_mem_nil
    case h_3 => cases he
  | listTopics exist =>
    simp only [exec] at he
    split at he
    case h_1 =>
      obtain rfl := Option.some.inj he
      split <;> exact h.setPhase trivial
    case h_2 => cases he
  | resetOffsets outcome =>
    simp only [exec] at he
    split at he
    case h_1 =>
      obtain rfl := Option.some.inj he
      exact h.setPhase trivial
    case h_2 =>
      obtain rfl := Option.some.inj he
      exact h.rewind (.deleting 0) [] ⟨fun m hm => absurd hm List.not_mem_nil, fun _ _ => rfl⟩
    case h_3 =>
      obtain rfl := Option.some.inj he
      exact h.rewind (.failed none) s.moved trivial
    case h_4 => cases he
  | deleteFacts outcome =>
    simp only [exec] at he
    split at he
    case h_1 =>
      obtain rfl := Option.some.inj he
      exact h.setPhase trivial
    case h_2 total hphase =>
      obtain rfl := Option.some.inj he
      exact h.deleteStep hphase
    case h_3 =>
      obtain rfl := Option.some.inj he
      exact ⟨h.members, h.readers, h.bounds.apply subset_rfl _, trivial⟩
    case h_4 => cases he
  | throw =>
    simp only [exec] at he
    split at he
    case h_4 =>
      obtain rfl := Option.some.inj he
      exact h.setPhase trivial
    all_goals cases he

theorem inv_of_reachable (h : (statsRebuild v).Reachable (fun s a => s.stays a = true) s) : s.Inv v :=
  h.invariant (fun _ hinit => hinit ▸ inv_empty) fun _ _ _ hi hstays he => hi.step hstays he

end Steps

/-- The group has consumed a partition to its end, or one of its members has. -/
def Consumed (s : StatsRebuild) (p : ℕ) : Prop :=
  s.consumers.committed p = (s.consumers.log p).length ∨
  ∃ r c, s.consumers.readers r = some c ∧ c.member ∈ s.members ∧ c.partition = p ∧
    (c.position = (s.consumers.log p).length ∨ ∃ count, c.phase = .handled count ∧ c.position + count = (s.consumers.log p).length)

end StatsRebuild

/-- **A rebuild restores the projection**: it has returned, and once every partition is consumed to its end, the facts are
the newest of the topic. -/
theorem rebuild_restores (v : StatsValidator) (s : StatsRebuild) (h : (statsRebuild v).Reachable (fun s a => s.stays a = true) s)
    (factsDeleted : ℕ) (hsucceeded : s.phase = .succeeded factsDeleted) (hconsumed : ∀ p, s.Consumed p) :
    factVersioning.IsNewest (s.consumers.topicFacts v) s.consumers.facts ∧
    (factVersioning.Consistent (s.consumers.topicFacts v) → ∀ batches : List (ℕ × List (Option String)),
      (∀ batch ∈ batches, 0 < batch.1) → (∀ m, (∃ batch ∈ batches, m ∈ batch.2) ↔ ∃ p, m ∈ s.consumers.log p) →
      ∀ f, f ∈ s.consumers.facts ↔ f ∈ project v batches) := by
  have hprogress := (StatsRebuild.inv_of_reachable h).progress
  simp only [StatsRebuild.Progress, hsucceeded] at hprogress
  obtain ⟨⟨applied, hsub, hinv⟩, hretired⟩ := hprogress
  have hseen : ∀ p, Seen v applied (s.consumers.log p) (s.consumers.log p).length := by
    intro p
    rcases hconsumed p with hcommitted | ⟨r, c, hc, hmember, rfl, hread⟩
    · exact hcommitted ▸ hinv.committed p
    · -- whoever had handled messages early is no member any more
      have hlate : s.early r = false := Bool.eq_false_iff.2 fun hearly => hretired r c hc hearly hmember
      have hsound := hinv.readers r c hlate hc
      rcases hread with hposition | ⟨count, hphase, hcount⟩
      · exact hposition ▸ hsound.position
      · exact hcount ▸ hsound.handled count hphase
  have happlied : applied = s.consumers.topicFacts v := by
    refine hsub.antisymm ?_
    rintro f ⟨p, m, hm, hf⟩
    exact (hseen p).facts m (by rwa [List.take_length]) f hf
  have hnewest := happlied ▸ hinv.newest
  refine ⟨hnewest, fun hconsistent batches hsize hall f => ?_⟩
  have hproject := project_newest (v := v) hsize
  have hfacts : {f | ∃ batch ∈ batches, f ∈ batch.2.filterMap (toFact v)} = s.consumers.topicFacts v := by
    ext f
    constructor
    · rintro ⟨batch, hbatch, hf⟩
      obtain ⟨m, hm, hf⟩ := List.mem_filterMap.1 hf
      obtain ⟨p, hp⟩ := (hall m).1 ⟨batch, hbatch, hm⟩
      exact ⟨p, m, hp, hf⟩
    · rintro ⟨p, m, hm, hf⟩
      obtain ⟨batch, hbatch, hmb⟩ := (hall m).2 ⟨p, hm⟩
      exact ⟨batch, hbatch, List.mem_filterMap.2 ⟨m, hmb, hf⟩⟩
  rw [hfacts] at hproject
  rw [hnewest.mem_iff hconsistent, hproject.mem_iff hconsistent]

/-- A worker reads a batch of one message and commits it. -/
def consumeOne (reader member : ℕ) : List RebuildAction :=
  [.worker (.assign reader member 0), .worker (.fetch reader 1), .worker (.enter reader true false), .worker (.handle reader .committed),
   .worker (.resolveOffset reader), .worker (.commitOffsets reader .committed)]

/-- The table has one row, and is deleted. -/
def wiped (s : StatsRebuild) : StatsRebuild :=
  { s with
    consumers := { s.consumers with facts := [] }
    phase := .succeeded 1
    early := fun reader => (s.consumers.readers reader).any Reader.hasHandled }

theorem wiped_run (v : StatsValidator) {s : StatsRebuild} {f : BookingStatsFactRow} (hphase : s.phase = .deleting 0)
    (hfacts : s.consumers.facts = [f]) (hmembers : s.members = []) :
    (statsRebuild v).run s [.deleteFacts .committed, .describeGroups (some ⟨[], .empty⟩)] = some (wiped s) := by
  obtain ⟨⟨log, committed, readers, facts⟩, members, joined, phase, early, moved⟩ := s
  dsimp only at hphase hfacts hmembers
  subst hphase hfacts hmembers
  rfl

theorem applyBatch_createdMessage : applyBatch statsValidator bookingStatsUpsertChunkSize [] [createdMessage] =
    [lifecycleFact "01K4N8G4X8R0K1F2Q7V6S9T3AB" 1 .pending] := by
  rw [applyBatch, batchRows, List.filterMap_cons_some toFact_createdMessage]
  decide +kernel

/-- The worker is stopped, and the offsets go back. -/
def stopped (m : Option String) : List RebuildAction :=
  [.worker (.produce 0 m), .join 1] ++ consumeOne 0 1 ++
  [.leave 1, .start, .describeGroups (some ⟨[], .empty⟩), .listTopics true, .resetOffsets .committed]

def rewound (v : StatsValidator) (m : Option String) : StatsRebuild :=
  ((statsRebuild v).check (fun s a => s.stays a = true) .empty (stopped m)).getD .empty

theorem rewound_run (v : StatsValidator) (m : Option String) :
    (statsRebuild v).check (fun s a => s.stays a = true) .empty (stopped m) = some (rewound v m) ∧
    (rewound v m).phase = .deleting 0 ∧ (rewound v m).members = [] ∧
    (rewound v m).consumers.facts = applyBatch v bookingStatsUpsertChunkSize [] [m] := ⟨rfl, rfl, rfl, rfl⟩

/-- Another worker is started when the table is empty. -/
theorem restarted_run (v : StatsValidator) (m : Option String) :
    ((statsRebuild v).check (fun s a => s.stays a = true) (wiped (rewound v m)) (.join 2 :: consumeOne 1 2)).map
      (fun s => (s.phase, s.consumers.log, s.consumers.committed, s.consumers.facts)) =
    some (.succeeded 1, Function.update (fun _ => []) 0 [m], Function.update (fun _ => 0) 0 1,
      applyBatch v bookingStatsUpsertChunkSize [] [m]) := by rfl

/-- One message, and the offset after it. -/
theorem consumed_of_update {s : StatsRebuild} {m : Option String} (hlog : s.consumers.log = Function.update (fun _ => []) 0 [m])
    (hcommitted : s.consumers.committed = Function.update (fun _ => 0) 0 1) (p : ℕ) : s.Consumed p := by
  refine .inl ?_
  rw [hlog, hcommitted]
  by_cases hp : p = 0
  · subst hp
    rfl
  · rw [Function.update_of_ne hp, Function.update_of_ne hp]
    rfl

theorem rebuild_restores_stopped : ∃ s, (statsRebuild statsValidator).Reachable (fun s a => s.stays a = true) s ∧
    s.phase = .succeeded 1 ∧ s.consumers.facts = [lifecycleFact "01K4N8G4X8R0K1F2Q7V6S9T3AB" 1 .pending] ∧
    factVersioning.IsNewest (s.consumers.topicFacts statsValidator) s.consumers.facts := by
  obtain ⟨hrun, hphase, hmembers, hfacts⟩ := rewound_run statsValidator createdMessage
  have hstays : ∀ a ∈ [RebuildAction.deleteFacts .committed, .describeGroups (some ⟨[], .empty⟩)], ∀ s : StatsRebuild, s.stays a = true := by
    simp [StatsRebuild.stays]
  have hwiped := (Machine.Reachable.of_check (.init rfl) hrun).of_run hstays
    (wiped_run statsValidator hphase (hfacts.trans applyBatch_createdMessage) hmembers)
  obtain ⟨s, hs, hview⟩ := Option.map_eq_some_iff.1 (restarted_run statsValidator createdMessage)
  simp only [Prod.mk.injEq] at hview
  obtain ⟨hphase, hlog, hcommitted, hfacts⟩ := hview
  have hreach := hwiped.of_check hs
  exact ⟨s, hreach, hphase, hfacts.trans applyBatch_createdMessage,
    (rebuild_restores statsValidator s hreach 1 hphase (consumed_of_update hlog hcommitted)).1⟩

/-- A worker joins when the offsets have gone back, and leaves before the rows go. -/
def joinedAndLeft (m : Option String) : List RebuildAction :=
  [.worker (.produce 0 m), .start, .describeGroups (some ⟨[], .empty⟩), .listTopics true, .resetOffsets .committed, .join 1] ++
  consumeOne 0 1 ++ [.leave 1]

theorem joinedAndLeft_run (v : StatsValidator) (m : Option String) :
    ((statsRebuild v).run .empty (joinedAndLeft m)).map
      (fun s => (s.phase, s.members, s.consumers.facts, s.consumers.log, s.consumers.committed)) =
    some (.deleting 0, [], applyBatch v bookingStatsUpsertChunkSize [] [m], Function.update (fun _ => []) 0 [m],
      Function.update (fun _ => 0) 0 1) := by rfl

/-- The command succeeds, everything is consumed, and the booking is missing. -/
theorem joinedAndLeft_not_restored :
    ¬ ∀ (v : StatsValidator) (s : StatsRebuild), (statsRebuild v).Reachable (fun _ _ => True) s →
      ∀ factsDeleted, s.phase = .succeeded factsDeleted → (∀ p, s.Consumed p) →
        factVersioning.IsNewest (s.consumers.topicFacts v) s.consumers.facts ∧
        (factVersioning.Consistent (s.consumers.topicFacts v) → ∀ batches : List (ℕ × List (Option String)),
          (∀ batch ∈ batches, 0 < batch.1) → (∀ m, (∃ batch ∈ batches, m ∈ batch.2) ↔ ∃ p, m ∈ s.consumers.log p) →
          ∀ f, f ∈ s.consumers.facts ↔ f ∈ project v batches) := by
  intro h
  obtain ⟨s, hs, hview⟩ := Option.map_eq_some_iff.1 (joinedAndLeft_run statsValidator createdMessage)
  simp only [Prod.mk.injEq] at hview
  obtain ⟨hphase, hmembers, hfacts, hlog, hcommitted⟩ := hview
  have hwiped := (Machine.Reachable.of_run (.init rfl) (fun _ _ _ => trivial) hs).of_run (fun _ _ _ => trivial)
    (wiped_run statsValidator hphase (hfacts.trans applyBatch_createdMessage) hmembers)
  have hnewest := (h statsValidator _ hwiped 1 rfl (consumed_of_update hlog hcommitted)).1
  have hmem : createdMessage ∈ s.consumers.log 0 := by
    rw [hlog]
    exact List.mem_cons_self
  exact absurd (hnewest.cover _ ⟨0, createdMessage, hmem, toFact_createdMessage⟩) List.not_mem_nil

end HotelBackend.Reports
