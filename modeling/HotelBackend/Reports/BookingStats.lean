import Mathlib.Data.List.Sort
import Mathlib.Data.Multiset.Basic
import HotelBackend.Bookings.LifecyclePayload
import HotelBackend.Theory.Newest
import HotelBackend.Theory.Tables

/-!
# The statistics projection

`BookingStatsProjectionService.applyBatch` and the upsert it ends in. A fetched batch is
parsed, reduced to the newest version of each booking, sorted, and written in statements of
a bounded number of rows; the statement assigns its columns one after the other, each under
a guard on the version, the version last.

The table that comes of any batches holds the newest version of each booking among their
valid messages (`facts_newest`).
-/

namespace HotelBackend.Reports

open HotelBackend.Common
open HotelBackend.Theory
open HotelBackend.Bookings
open HotelBackend.Notifications (ClassValidator)

/-- A row of `booking_stats_facts`, and what is written to it. -/
structure BookingStatsFactRow where
  bookingPublicId : String
  bookingVersion : ℕ
  status : BookingStatus
  roomId : String
  roomTypeId : String
  checkIn : String
  checkOut : String
  priceAmount : ℕ
  currency : String
  lastEventId : String
  lastOccurredAt : ℤ
  deriving DecidableEq, Repr

/-- The checks of `class-validator` a message goes through. -/
structure StatsValidator where
  validator : ClassValidator
  isUUID : String → Bool

/-! ### Messages -/

/-- The state after the change. -/
def toBookingStatsFact (event : ReceivedBookingLifecycleEvent) : BookingStatsFactRow where
  bookingPublicId := event.payload.bookingId
  bookingVersion := event.payload.bookingVersion
  status := event.payload.toStatus
  roomId := event.payload.booking.roomId
  roomTypeId := event.payload.booking.roomTypeId
  checkIn := event.payload.booking.checkIn
  checkOut := event.payload.booking.checkOut
  priceAmount := event.payload.priceAmount
  currency := event.payload.currency
  lastEventId := event.eventId
  lastOccurredAt := event.occurredAt

/-- A message that breaks the contract has no fact. -/
def toFact (v : StatsValidator) (value : Option String) : Option BookingStatsFactRow :=
  match parseBookingLifecycleMessage v.validator v.isUUID value with
  | .ok event => some (toBookingStatsFact event)
  | .error _ => none

/-! ### The statement -/

/-- `IF(incoming.booking_version > booking_stats_facts.booking_version, incoming.column, booking_stats_facts.column)`,
of the row as it is updated so far. -/
def guarded {α : Type} (column : BookingStatsFactRow → α) (incoming stored : BookingStatsFactRow) : α :=
  if stored.bookingVersion < incoming.bookingVersion then column incoming else column stored

/-- The assignments, in their order. -/
def guardedAssignments (incoming : BookingStatsFactRow) : List (BookingStatsFactRow → BookingStatsFactRow) :=
  [fun row => { row with status := guarded (·.status) incoming row },
   fun row => { row with roomId := guarded (·.roomId) incoming row },
   fun row => { row with roomTypeId := guarded (·.roomTypeId) incoming row },
   fun row => { row with checkIn := guarded (·.checkIn) incoming row },
   fun row => { row with checkOut := guarded (·.checkOut) incoming row },
   fun row => { row with priceAmount := guarded (·.priceAmount) incoming row },
   fun row => { row with currency := guarded (·.currency) incoming row },
   fun row => { row with lastEventId := guarded (·.lastEventId) incoming row },
   fun row => { row with lastOccurredAt := guarded (·.lastOccurredAt) incoming row },
   fun row => { row with bookingVersion := max row.bookingVersion incoming.bookingVersion }]

/-- A row of the statement: inserted, or assigned where its key is taken. -/
def insertOrUpdate (facts : List BookingStatsFactRow) (incoming : BookingStatsFactRow) : List BookingStatsFactRow :=
  if facts.any (·.bookingPublicId = incoming.bookingPublicId) then
    Table.update facts (·.bookingPublicId = incoming.bookingPublicId) fun row =>
      (guardedAssignments incoming).foldl (fun row assign => assign row) row
  else facts ++ [incoming]

/-- `rows.slice(start, start + size)`, for each `start` the loop comes to. -/
def slices {α : Type} (size : ℕ) (rows : List α) : List (List α) :=
  (List.range ((rows.length + size - 1) / size)).map fun i => (rows.drop (i * size)).take size

/-- One statement for each slice. -/
def upsert (chunkSize : ℕ) (facts rows : List BookingStatsFactRow) : List BookingStatsFactRow :=
  (slices chunkSize rows).foldl (fun facts chunk => chunk.foldl insertOrUpdate facts) facts

/-! ### Batches -/

/-- `newest.set(…)`, if the booking is not known or the fact is newer. -/
def keepNewest (newest : List BookingStatsFactRow) (fact : BookingStatsFactRow) : List BookingStatsFactRow :=
  match newest.find? (·.bookingPublicId = fact.bookingPublicId) with
  | none => newest ++ [fact]
  | some known =>
    if known.bookingVersion < fact.bookingVersion then
      newest.map fun row => if row.bookingPublicId = fact.bookingPublicId then fact else row
    else newest

/-- The rows a batch writes, in the order of their ids. -/
def batchRows (v : StatsValidator) (messages : List (Option String)) : List BookingStatsFactRow :=
  ((messages.filterMap (toFact v)).foldl keepNewest []).insertionSort fun left right => left.bookingPublicId ≤ right.bookingPublicId

/-- What a batch makes of the table. -/
def applyBatch (v : StatsValidator) (chunkSize : ℕ) (facts : List BookingStatsFactRow) (messages : List (Option String)) :
    List BookingStatsFactRow :=
  let rows := batchRows v messages
  if 0 < rows.length then upsert chunkSize facts rows else facts

def bookingStatsUpsertChunkSize : ℕ := 500

/-! ### Each step is a step to the newest -/

/-- Facts by booking. -/
def factVersioning : Versioning BookingStatsFactRow String := ⟨(·.bookingPublicId), (·.bookingVersion)⟩

/-- The assignments replace the whole row or none of it. -/
theorem assign_eq {incoming row : BookingStatsFactRow} (hkey : row.bookingPublicId = incoming.bookingPublicId) :
    (guardedAssignments incoming).foldl (fun row assign => assign row) row =
      if row.bookingVersion < incoming.bookingVersion then incoming else row := by
  split
  case isTrue hlt =>
    simp only [guardedAssignments, guarded, List.foldl_cons, List.foldl_nil, hlt, if_true, max_eq_right hlt.le]
    cases row
    cases incoming
    cases hkey
    rfl
  case isFalse hge =>
    simp only [guardedAssignments, guarded, List.foldl_cons, List.foldl_nil, hge, if_false, max_eq_left (not_lt.1 hge)]

theorem insertOrUpdate_eq_put (facts : List BookingStatsFactRow) (incoming : BookingStatsFactRow) :
    insertOrUpdate facts incoming = factVersioning.put facts incoming := by
  by_cases hany : facts.any (·.bookingPublicId = incoming.bookingPublicId) = true
  · have hput : factVersioning.put facts incoming = facts.map fun row =>
        if row.bookingPublicId = incoming.bookingPublicId ∧ row.bookingVersion < incoming.bookingVersion then incoming else row := if_pos hany
    rw [hput, insertOrUpdate, if_pos hany]
    refine List.map_congr_left fun row _ => ?_
    simp only [decide_eq_true_eq]
    by_cases hkey : row.bookingPublicId = incoming.bookingPublicId
    · rw [if_pos hkey, assign_eq hkey]
      simp only [hkey, true_and]
    · simp only [hkey, false_and, if_false]
  · have hput : factVersioning.put facts incoming = facts ++ [incoming] := if_neg hany
    rw [hput, insertOrUpdate, if_neg hany]

theorem flatten_slices {α : Type} {size : ℕ} (hsize : 0 < size) (rows : List α) : (slices size rows).flatten = rows := by
  have htake : ∀ n, ((List.range n).map fun i => (rows.drop (i * size)).take size).flatten = rows.take (n * size) := by
    intro n
    induction n with
    | zero => simp
    | succ n ih =>
      rw [List.range_succ, List.map_append, List.flatten_append, ih, Nat.succ_mul, List.take_add]
      simp
  rw [slices, htake]
  refine List.take_of_length_le ?_
  have := Nat.lt_div_mul_add hsize (a := rows.length + size - 1)
  omega

theorem upsert_eq (chunkSize : ℕ) (hsize : 0 < chunkSize) (facts rows : List BookingStatsFactRow) :
    upsert chunkSize facts rows = rows.foldl factVersioning.put facts := by
  have hput : insertOrUpdate = factVersioning.put := funext fun facts => funext fun incoming => insertOrUpdate_eq_put facts incoming
  rw [upsert, hput, ← List.foldl_flatten, flatten_slices hsize]

/-- The reduction of a batch is the same step. -/
theorem keepNewest_eq_put {newest : List BookingStatsFactRow} (fact : BookingStatsFactRow)
    (hkeys : (newest.map (·.bookingPublicId)).Nodup) : keepNewest newest fact = factVersioning.put newest fact := by
  unfold keepNewest
  split
  case h_1 hnone =>
    have hany : ¬ (newest.any (factVersioning.key · = factVersioning.key fact)) = true := by
      rw [List.any_eq_true]
      rintro ⟨row, hrow, hkey⟩
      exact List.find?_eq_none.1 hnone row hrow hkey
    rw [Versioning.put, if_neg hany]
  case h_2 known hknown =>
    have hmem := List.mem_of_find?_eq_some hknown
    have hkey : known.bookingPublicId = fact.bookingPublicId := by simpa using List.find?_some hknown
    have hany : (newest.any (factVersioning.key · = factVersioning.key fact)) = true :=
      List.any_eq_true.2 ⟨known, hmem, decide_eq_true hkey⟩
    -- the row of the booking is the one that was found
    have hone : ∀ row ∈ newest, row.bookingPublicId = fact.bookingPublicId → row = known := fun row hrow hk =>
      List.inj_on_of_nodup_map hkeys hrow hmem (hk.trans hkey.symm)
    rw [Versioning.put, if_pos hany]
    split
    case isTrue hlt =>
      refine List.map_congr_left fun row hrow => if_congr ?_ rfl rfl
      exact ⟨fun hk => ⟨hk, (hone row hrow hk).symm ▸ hlt⟩, And.left⟩
    case isFalse hge =>
      refine (List.map_id newest).symm.trans (List.map_congr_left fun row hrow => (if_neg ?_).symm)
      rintro ⟨hk, hlt⟩
      exact hge (hone row hrow hk ▸ hlt)

theorem foldl_keepNewest {newest : List BookingStatsFactRow} (facts : List BookingStatsFactRow)
    (hkeys : (newest.map (·.bookingPublicId)).Nodup) : facts.foldl keepNewest newest = facts.foldl factVersioning.put newest := by
  induction facts generalizing newest with
  | nil => rfl
  | cons fact facts ih =>
    rw [List.foldl_cons, List.foldl_cons, keepNewest_eq_put fact hkeys]
    exact ih (Versioning.keys_put (V := factVersioning) hkeys)

/-- A batch writes the newest of its facts. -/
theorem batchRows_newest (v : StatsValidator) (messages : List (Option String)) :
    factVersioning.IsNewest {f | f ∈ messages.filterMap (toFact v)} (batchRows v messages) := by
  have hreduced : factVersioning.IsNewest (∅ ∪ {f | f ∈ messages.filterMap (toFact v)})
      ((messages.filterMap (toFact v)).foldl keepNewest []) := by
    have hnil : (([] : List BookingStatsFactRow).map (·.bookingPublicId)).Nodup := List.nodup_nil
    rw [foldl_keepNewest _ hnil]
    exact Versioning.isNewest_nil.foldl
  rw [Set.empty_union] at hreduced
  exact hreduced.perm (List.perm_insertionSort _ _).symm

/-- A batch adds its facts to what the table is the newest of. -/
theorem applyBatch_newest {v : StatsValidator} {chunkSize : ℕ} (hsize : 0 < chunkSize) {xs : Set BookingStatsFactRow}
    {facts : List BookingStatsFactRow} (h : factVersioning.IsNewest xs facts) (messages : List (Option String)) :
    factVersioning.IsNewest (xs ∪ {f | f ∈ messages.filterMap (toFact v)}) (applyBatch v chunkSize facts messages) := by
  have hrows := h.foldl_newest (batchRows_newest v messages)
  unfold applyBatch
  dsimp only
  split
  case isTrue =>
    rw [upsert_eq chunkSize hsize]
    exact hrows
  case isFalse hempty =>
    rw [List.length_eq_zero_iff.1 (Nat.eq_zero_of_not_pos hempty)] at hrows
    exact hrows

/-! ### The projection -/

/-- The table that comes of batches, each with the size of its statements. -/
def project (v : StatsValidator) (batches : List (ℕ × List (Option String))) : List BookingStatsFactRow :=
  batches.foldl (fun facts batch => applyBatch v batch.1 facts batch.2) []

/-- The valid messages of a batch. -/
def validMessages (v : StatsValidator) (batch : ℕ × List (Option String)) : ℕ × List (Option String) :=
  (batch.1, batch.2.filter fun m => (toFact v m).isSome)

theorem project_newest {v : StatsValidator} {batches : List (ℕ × List (Option String))} (hsize : ∀ batch ∈ batches, 0 < batch.1) :
    factVersioning.IsNewest {f | ∃ batch ∈ batches, f ∈ batch.2.filterMap (toFact v)} (project v batches) := by
  have hrun : ∀ {xs facts}, factVersioning.IsNewest xs facts →
      factVersioning.IsNewest (xs ∪ {f | ∃ batch ∈ batches, f ∈ batch.2.filterMap (toFact v)})
        (batches.foldl (fun facts batch => applyBatch v batch.1 facts batch.2) facts) := by
    induction batches with
    | nil =>
      intro xs facts h
      simpa using h
    | cons batch batches ih =>
      intro xs facts h
      have hstep := ih (fun b hb => hsize b (List.mem_cons_of_mem _ hb)) (applyBatch_newest (v := v) (hsize batch List.mem_cons_self) h batch.2)
      have hset : xs ∪ {f | ∃ b ∈ batch :: batches, f ∈ b.2.filterMap (toFact v)} =
          xs ∪ {f | f ∈ batch.2.filterMap (toFact v)} ∪ {f | ∃ b ∈ batches, f ∈ b.2.filterMap (toFact v)} := by
        ext f
        simp only [List.mem_cons, Set.mem_ofPred_eq, Set.mem_union, exists_eq_or_imp, or_assoc]
      rw [hset, List.foldl_cons]
      exact hstep
  have hall := hrun Versioning.isNewest_nil
  rwa [Set.empty_union] at hall

/-- **The projection keeps the newest of each booking**, whatever the order of the messages, how often each is delivered,
and how they are split into batches and statements; and messages that break the contract change nothing. -/
theorem facts_newest (v : StatsValidator) (messages : Multiset (Option String)) (batches : List (ℕ × List (Option String)))
    (hsize : ∀ batch ∈ batches, 0 < batch.1) (hdelivered : ∀ m, m ∈ messages ↔ ∃ batch ∈ batches, m ∈ batch.2)
    (hsame : ∀ m ∈ messages, ∀ m' ∈ messages, ∀ f f', toFact v m = some f → toFact v m' = some f' →
      f.bookingPublicId = f'.bookingPublicId → f.bookingVersion = f'.bookingVersion → f = f') :
    ((project v batches).map (·.bookingPublicId)).Nodup ∧
    (∀ f, f ∈ project v batches ↔ (∃ m ∈ messages, toFact v m = some f) ∧
      ∀ m ∈ messages, ∀ f', toFact v m = some f' → f'.bookingPublicId = f.bookingPublicId → f'.bookingVersion ≤ f.bookingVersion) ∧
    project v (batches.map (validMessages v)) = project v batches := by
  have hmem : ∀ f, (∃ batch ∈ batches, f ∈ batch.2.filterMap (toFact v)) ↔ ∃ m ∈ messages, toFact v m = some f := by
    intro f
    simp only [List.mem_filterMap]
    constructor
    · rintro ⟨batch, hbatch, m, hm, hf⟩
      exact ⟨m, (hdelivered m).2 ⟨batch, hbatch, hm⟩, hf⟩
    · rintro ⟨m, hm, hf⟩
      obtain ⟨batch, hbatch, hmb⟩ := (hdelivered m).1 hm
      exact ⟨batch, hbatch, m, hmb, hf⟩
  have hnewest := project_newest (v := v) hsize
  refine ⟨hnewest.keys, fun f => ?_, ?_⟩
  · rw [hnewest.mem_iff]
    · simp only [Versioning.Latest, Set.mem_ofPred_eq, hmem]
      refine and_congr_right fun _ => ⟨fun h m hm f' hf' hkey => h f' ⟨m, hm, hf'⟩ hkey, ?_⟩
      rintro h f' ⟨m, hm, hf'⟩ hkey
      exact h m hm f' hf' hkey
    · intro f hf f' hf' hkey hversion
      obtain ⟨m, hm, hf⟩ := (hmem f).1 hf
      obtain ⟨m', hm', hf'⟩ := (hmem f').1 hf'
      exact hsame m hm m' hm' f f' hf hf' hkey hversion
  · have hfilter : ∀ ms : List (Option String), (ms.filter fun m => (toFact v m).isSome).filterMap (toFact v) = ms.filterMap (toFact v) := by
      intro ms
      rw [List.filterMap_filter]
      refine List.filterMap_congr fun m _ => ?_
      cases toFact v m <;> rfl
    rw [project, List.foldl_map]
    refine List.foldl_ext _ _ _ fun facts batch _ => ?_
    rw [validMessages, applyBatch, batchRows, hfilter]
    rfl

/-! #### Two bookings -/

/-- The checks, as far as they matter. -/
def statsValidator : StatsValidator := ⟨⟨(· = "VND"), fun _ => false⟩, (·.length = 36)⟩

/-- A message as the relay publishes it, in pieces. -/
def lifecyclePieces (bookingId version fromStatus toStatus : String) : List String :=
  ["\x7b\"eventId\":\"", "3f1c0a52-8d3e-4b6a-9c57-2f10e6a7b841", "\",\"eventType\":\"", "booking-lifecycle.recorded",
    "\",\"occurredAt\":\"", "2026-09-01T09:30:00.000Z", "\",\"schemaVersion\":1,", "\"bookingId\":\"", bookingId,
    "\",\"bookingVersion\":", version, ",\"fromStatus\":", fromStatus, ",\"toStatus\":\"", toStatus, "\",\"booking\":\x7b",
    "\"roomId\":\"3\",\"roomTypeId\":\"7\",", "\"checkIn\":\"2026-10-05\",", "\"checkOut\":\"2026-10-08\",",
    "\"price\":\x7b\"amount\":3000000,", "\"currency\":\"VND\"\x7d\x7d,", "\"previousStay\":null\x7d"]

def lifecycleMessage (bookingId version fromStatus toStatus : String) : Option String :=
  some (String.ofList ((lifecyclePieces bookingId version fromStatus toStatus).flatMap String.toList))

/-- Its fact. -/
def lifecycleFact (bookingId : String) (version : ℕ) (status : BookingStatus) : BookingStatsFactRow where
  bookingPublicId := bookingId
  bookingVersion := version
  status := status
  roomId := "3"
  roomTypeId := "7"
  checkIn := "2026-10-05"
  checkOut := "2026-10-08"
  priceAmount := 3000000
  currency := "VND"
  lastEventId := "3f1c0a52-8d3e-4b6a-9c57-2f10e6a7b841"
  lastOccurredAt := 1788255000000

def createdMessage : Option String := lifecycleMessage "01K4N8G4X8R0K1F2Q7V6S9T3AB" "1" "null" "PENDING"

def approvedMessage : Option String := lifecycleMessage "01K4N8G4X8R0K1F2Q7V6S9T3AB" "2" "\"PENDING\"" "CONFIRMED"

theorem toFact_createdMessage : toFact statsValidator createdMessage = some (lifecycleFact "01K4N8G4X8R0K1F2Q7V6S9T3AB" 1 .pending) := by
  rw [createdMessage, lifecycleMessage, toFact, parseBookingLifecycleMessage, Option.getD_some, parseJson, String.toList_ofList]
  decide +kernel

theorem toFact_approvedMessage : toFact statsValidator approvedMessage = some (lifecycleFact "01K4N8G4X8R0K1F2Q7V6S9T3AB" 2 .confirmed) := by
  rw [approvedMessage, lifecycleMessage, toFact, parseBookingLifecycleMessage, Option.getD_some, parseJson, String.toList_ofList]
  decide +kernel

theorem batchRows_approved : batchRows statsValidator [createdMessage, approvedMessage] =
    [lifecycleFact "01K4N8G4X8R0K1F2Q7V6S9T3AB" 2 .confirmed] := by
  rw [batchRows, List.filterMap_cons_some toFact_createdMessage, List.filterMap_cons_some toFact_approvedMessage]
  decide +kernel

/-- The approval comes first, with a message that has no value, and again after the creation. -/
def redelivered : List (ℕ × List (Option String)) := [(1, [approvedMessage, none]), (500, [createdMessage, approvedMessage])]

theorem facts_newest_redelivered :
    project statsValidator redelivered = [lifecycleFact "01K4N8G4X8R0K1F2Q7V6S9T3AB" 2 .confirmed] ∧
    (∀ f, f ∈ project statsValidator redelivered ↔ (∃ m ∈ ({createdMessage, approvedMessage, none} : Multiset (Option String)),
      toFact statsValidator m = some f) ∧ ∀ m ∈ ({createdMessage, approvedMessage, none} : Multiset (Option String)), ∀ f',
        toFact statsValidator m = some f' → f'.bookingPublicId = f.bookingPublicId → f'.bookingVersion ≤ f.bookingVersion) := by
  have hnone : toFact statsValidator none = none := by decide
  constructor
  · have hfirst : batchRows statsValidator [approvedMessage, none] = [lifecycleFact "01K4N8G4X8R0K1F2Q7V6S9T3AB" 2 .confirmed] := by
      rw [batchRows, List.filterMap_cons_some toFact_approvedMessage, List.filterMap_cons_none hnone]
      decide +kernel
    simp only [project, redelivered, List.foldl_cons, List.foldl_nil, applyBatch, hfirst, batchRows_approved]
    decide
  · refine (facts_newest statsValidator {createdMessage, approvedMessage, none} redelivered (by decide) (fun m => ?_) ?_).2.1
    · simp only [redelivered, Multiset.insert_eq_cons, Multiset.mem_cons, Multiset.mem_singleton, List.mem_cons, List.not_mem_nil,
        or_false, exists_eq_or_imp, exists_eq_left]
      generalize (m = createdMessage) = created, (m = approvedMessage) = approved, (m = none) = empty
      tauto
    · -- the two facts differ in their version
      have hfacts : ∀ m ∈ ({createdMessage, approvedMessage, none} : Multiset (Option String)), ∀ f, toFact statsValidator m = some f →
          f = lifecycleFact "01K4N8G4X8R0K1F2Q7V6S9T3AB" 1 .pending ∨ f = lifecycleFact "01K4N8G4X8R0K1F2Q7V6S9T3AB" 2 .confirmed := by
        intro m hm f hf
        rw [Multiset.insert_eq_cons, Multiset.insert_eq_cons, Multiset.mem_cons, Multiset.mem_cons, Multiset.mem_singleton] at hm
        rcases hm with rfl | rfl | rfl
        · exact .inl (Option.some.inj (hf.symm.trans toFact_createdMessage))
        · exact .inr (Option.some.inj (hf.symm.trans toFact_approvedMessage))
        · cases hnone.symm.trans hf
      intro m hm m' hm' f f' hf hf' _ hversion
      rcases hfacts m hm f hf with rfl | rfl <;> rcases hfacts m' hm' f' hf' with rfl | rfl <;> first | rfl | exact absurd hversion (by decide)

end HotelBackend.Reports
