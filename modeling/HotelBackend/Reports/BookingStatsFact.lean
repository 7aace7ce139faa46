import HotelBackend.Bookings.LifecycleThrows
import HotelBackend.Reports.BookingStats

/-!
# The columns of `booking_stats_facts`

A message that the contract accepts has a fact that the table can hold: every column is wide enough and
every `CHECK` is met (`BookingStatsFactRow.Storable`). A message that it does not accept is skipped, since
the error it throws is the one that `applyBatch` catches. So no message fails the statement
(`no_poison_message`).
-/

namespace HotelBackend.Reports

open HotelBackend.Common
open HotelBackend.Theory
open HotelBackend.Bookings
open HotelBackend.Notifications (ClassValidator publicBookingIdPattern decimalIdPattern currencyPattern isCrockford)

/-! ### The columns -/

/-- `ENUM('PENDING', …)`, as the migration lists it. -/
def statusColumn : List String := ["PENDING", "CONFIRMED", "REJECTED", "CANCELLED_BY_USER", "CANCELLED_BY_ADMIN", "COMPLETED"]

/-- `CHAR(width) CHARACTER SET ascii` -/
def FitsChar (width : ℕ) (text : String) : Prop := text.toList.length ≤ width ∧ ∀ c ∈ text.toList, c.toNat < 128

/-- A number written to a `BIGINT UNSIGNED`, as text. -/
def FitsUnsignedBigint (text : String) : Prop :=
  text.toList ≠ [] ∧ text.toList.all isDigit = true ∧ digitsValue text.toList ≤ maxUnsignedBigint

/-- A day written to a `DATE`, as text. -/
def FitsDate (text : String) (day : ℤ) : Prop := text.toList = isoDay day ∧ isStorableYear (yearFromDay day) = true

/-- What the columns and the `CHECK`s of the table ask of a row. -/
structure BookingStatsFactRow.Storable (row : BookingStatsFactRow) : Prop where
  bookingPublicId : FitsChar 26 row.bookingPublicId
  bookingVersion : row.bookingVersion ≤ maxUnsignedBigint
  /-- `chk_booking_stats_facts_version` -/
  firstVersion : 1 ≤ row.bookingVersion
  status : row.status.text ∈ statusColumn
  roomId : FitsUnsignedBigint row.roomId
  roomTypeId : FitsUnsignedBigint row.roomTypeId
  /-- `check_in` and `check_out`, and `chk_booking_stats_facts_range`. -/
  stay : ∃ checkIn checkOut, FitsDate row.checkIn checkIn ∧ FitsDate row.checkOut checkOut ∧ checkIn < checkOut
  priceAmount : row.priceAmount ≤ maxUnsignedBigint
  /-- `chk_booking_stats_facts_price_safe_integer` -/
  safePrice : row.priceAmount ≤ maxSafeInteger
  currency : FitsChar 3 row.currency
  lastEventId : FitsChar 36 row.lastEventId
  /-- `DATETIME(6)`, at UTC. -/
  lastOccurredAt : isStorableYear (yearFromDay (row.lastOccurredAt / 86400000)) = true

/-- `8-4-4-4-12` hexadecimal digits. -/
def isUuidText (text : String) : Bool :=
  text.toList.length = 36 && text.toList.zipIdx.all fun c => if c.2 ∈ [8, 13, 18, 23] then c.1 = '-' else (hexDigit c.1).isSome

/-! ### Each field fits -/

section Fields

theorem isDigit_lt {c : Char} (h : isDigit c = true) : c.toNat < 128 := by
  rw [isDigit, Bool.and_eq_true, decide_eq_true_eq, decide_eq_true_eq] at h
  have hle : c.toNat ≤ 57 := h.2
  omega

theorem hexDigit_lt {c : Char} (h : (hexDigit c).isSome = true) : c.toNat < 128 := by
  unfold hexDigit at h
  split at h
  · next hd => exact isDigit_lt hd
  · split at h
    · next hl =>
      rw [Bool.and_eq_true, decide_eq_true_eq, decide_eq_true_eq] at hl
      have hle : c.toNat ≤ 102 := hl.2
      omega
    · split at h
      · next hu =>
        rw [Bool.and_eq_true, decide_eq_true_eq, decide_eq_true_eq] at hu
        have hle : c.toNat ≤ 70 := hu.2
        omega
      · cases h

theorem isCrockford_lt {c : Char} (h : isCrockford c = true) : c.toNat < 128 := by
  simp only [isCrockford, Bool.or_eq_true, Bool.and_eq_true, decide_eq_true_eq] at h
  rcases h with (((h | h) | h) | h) | h
  · exact isDigit_lt h
  · have hle : c.toNat ≤ 72 := h.2
    omega
  · simp only [List.mem_cons, List.not_mem_nil, or_false] at h
    rcases h with rfl | rfl | rfl | rfl <;> decide
  · have hle : c.toNat ≤ 84 := h.2
    omega
  · have hle : c.toNat ≤ 90 := h.2
    omega

theorem fitsChar_publicBookingId {id : String} (h : publicBookingIdPattern id = true) : FitsChar 26 id := by
  unfold publicBookingIdPattern at h
  split at h
  · next c cs heq =>
    simp only [Bool.and_eq_true, decide_eq_true_eq] at h
    obtain ⟨⟨⟨-, hfirst⟩, hlength⟩, hrest⟩ := h
    rw [FitsChar, heq, List.length_cons, hlength]
    refine ⟨le_refl _, List.forall_mem_cons.2 ⟨?_, fun d hd => isCrockford_lt (List.all_eq_true.1 hrest d hd)⟩⟩
    have hle : c.toNat ≤ 55 := hfirst
    omega
  · cases h

theorem fitsChar_currency {currency : String} (h : currencyPattern currency = true) : FitsChar 3 currency := by
  rw [currencyPattern, Bool.and_eq_true, decide_eq_true_eq, List.all_eq_true] at h
  refine ⟨h.1.le, fun c hc => ?_⟩
  have hrange := h.2 c hc
  rw [Bool.and_eq_true, decide_eq_true_eq, decide_eq_true_eq] at hrange
  have hle : c.toNat ≤ 90 := hrange.2
  omega

theorem fitsChar_uuid {id : String} (h : isUuidText id = true) : FitsChar 36 id := by
  rw [isUuidText, Bool.and_eq_true, decide_eq_true_eq, List.all_eq_true] at h
  refine ⟨h.1.le, fun c hc => ?_⟩
  obtain ⟨i, hi, rfl⟩ := List.mem_iff_getElem.1 hc
  have hchar := h.2 (id.toList[i], i) (List.mk_mem_zipIdx_iff_getElem?.2 (List.getElem?_eq_getElem hi))
  dsimp only at hchar
  split at hchar
  · rw [of_decide_eq_true hchar]
    decide
  · exact hexDigit_lt hchar

theorem fitsUnsignedBigint_of_isStoredId {id : String} (h : isStoredId id = true) : FitsUnsignedBigint id := by
  rw [isStoredId, Bool.and_eq_true, decide_eq_true_eq] at h
  refine ⟨fun hnil => ?_, digits_of_decimalId h.1, h.2⟩
  have hpattern := h.1
  rw [decimalIdPattern, hnil] at hpattern
  cases hpattern

theorem fitsDate_of_isLifecycleDate {date : String} (h : isLifecycleDate date = true) : ∃ day, FitsDate date day := by
  obtain ⟨day, hdate, hlow, hhigh⟩ := isLifecycleDate_spec h
  refine ⟨day, hdate, ?_⟩
  simp only [isStorableYear, Bool.and_eq_true, decide_eq_true_eq]
  exact ⟨hlow, hhigh⟩

theorem text_mem_statusColumn (status : BookingStatus) : status.text ∈ statusColumn := by
  cases status <;> decide

/-- Dates are ordered as their texts. -/
theorem FitsDate.lt {text text' : String} {day day' : ℤ} (h : FitsDate text day) (h' : FitsDate text' day') (hlt : text < text') : day < day' := by
  have hyear := h.2
  have hyear' := h'.2
  simp only [isStorableYear, Bool.and_eq_true, decide_eq_true_eq] at hyear hyear'
  rw [String.lt_iff_toList_lt, h.1, h'.1] at hlt
  by_contra hge
  rcases lt_or_eq_of_le (not_lt.1 hge) with hless | rfl
  · exact lt_asymm hlt (isoDay_lt hless ⟨by omega, hyear'.2⟩ ⟨by omega, hyear.2⟩)
  · exact lt_irrefl _ hlt

end Fields

/-! ### Messages and batches -/

section Batches

variable {v : StatsValidator}

/-- What the contract accepts fits. -/
theorem storable_of_message (huuid : ∀ id, v.isUUID id = true → isUuidText id = true) {value : Option String} {event : ReceivedBookingLifecycleEvent}
    (h : parseBookingLifecycleMessage v.validator v.isUUID value = .ok event) : (toBookingStatsFact event).Storable := by
  obtain ⟨_, -, ⟨-, hid⟩, -, ⟨-, hyear⟩, -⟩ := parseMessage_eq_ok.1 h
  have hvalid := valid_of_message h
  have hsafe : maxSafeInteger ≤ maxUnsignedBigint := by decide
  obtain ⟨first, hfirst⟩ := fitsDate_of_isLifecycleDate hvalid.booking.checkIn
  obtain ⟨last, hlast⟩ := fitsDate_of_isLifecycleDate hvalid.booking.checkOut
  constructor
  · exact fitsChar_publicBookingId hvalid.bookingId
  · exact hvalid.bookingVersion.1.trans hsafe
  · exact hvalid.bookingVersion.2
  · exact text_mem_statusColumn _
  · exact fitsUnsignedBigint_of_isStoredId hvalid.booking.roomId
  · exact fitsUnsignedBigint_of_isStoredId hvalid.booking.roomTypeId
  · exact ⟨first, last, hfirst, hlast, hfirst.lt hlast hvalid.booking.nights⟩
  · exact hvalid.amount.trans hsafe
  · exact hvalid.amount
  · exact fitsChar_currency hvalid.currency.1
  · exact fitsChar_uuid (huuid _ hid)
  · exact hyear

/-- A batch writes facts of its messages. -/
theorem mem_batchRows {messages : List (Option String)} {row : BookingStatsFactRow} (h : row ∈ batchRows v messages) :
    ∃ m ∈ messages, toFact v m = some row := List.mem_filterMap.1 ((batchRows_newest v messages).latest row h).1

/-- A row of the statement leaves a table of its row and of rows that were there. -/
theorem forall_insertOrUpdate {P : BookingStatsFactRow → Prop} {facts : List BookingStatsFactRow} {incoming : BookingStatsFactRow}
    (h : ∀ row ∈ facts, P row) (hincoming : P incoming) : ∀ row ∈ insertOrUpdate facts incoming, P row := by
  intro row hrow
  rw [insertOrUpdate_eq_put] at hrow
  rcases Versioning.of_mem_put hrow with ⟨hmem, -⟩ | ⟨rfl, -⟩
  · exact h row hmem
  · exact hincoming

theorem forall_applyBatch {P : BookingStatsFactRow → Prop} {chunkSize : ℕ} {facts : List BookingStatsFactRow} {messages : List (Option String)}
    (h : ∀ row ∈ facts, P row) (hrows : ∀ row ∈ batchRows v messages, P row) : ∀ row ∈ applyBatch v chunkSize facts messages, P row := by
  have hchunk : ∀ chunk : List BookingStatsFactRow, (∀ row ∈ chunk, P row) → ∀ facts, (∀ row ∈ facts, P row) →
      ∀ row ∈ chunk.foldl insertOrUpdate facts, P row := by
    intro chunk
    induction chunk with
    | nil => exact fun _ _ h => h
    | cons incoming chunk ih =>
      intro hchunk facts h
      exact ih (fun row hrow => hchunk row (List.mem_cons_of_mem _ hrow)) _ (forall_insertOrUpdate h (hchunk _ List.mem_cons_self))
  have hslices : ∀ chunks : List (List BookingStatsFactRow), (∀ chunk ∈ chunks, ∀ row ∈ chunk, P row) → ∀ facts, (∀ row ∈ facts, P row) →
      ∀ row ∈ chunks.foldl (fun facts chunk => chunk.foldl insertOrUpdate facts) facts, P row := by
    intro chunks
    induction chunks with
    | nil => exact fun _ _ h => h
    | cons chunk chunks ih =>
      intro hchunks facts h
      exact ih (fun c hc => hchunks c (List.mem_cons_of_mem _ hc)) _ (hchunk _ (hchunks _ List.mem_cons_self) _ h)
  unfold applyBatch
  dsimp only
  split
  · refine hslices _ (fun chunk hc row hrow => hrows row ?_) facts h
    obtain ⟨i, -, rfl⟩ := List.mem_map.1 hc
    exact List.mem_of_mem_drop (List.mem_of_mem_take hrow)
  · exact h

end Batches

/-! ### The result -/

/-- **No message holds its partition.** Whatever its text, the parser throws the error that is skipped or the
fact of the message fits the table; so a batch writes rows that fit, and the table stays one of such rows.
What the engine reads as a date beyond the standard's format does not matter. -/
theorem no_poison_message (engine : String → Option ℤ) (v : StatsValidator) (huuid : ∀ id, v.isUUID id = true → isUuidText id = true) :
    (∀ value : Option String,
      (∃ e, Throwing.parseBookingLifecycleMessage engine v.validator v.isUUID value = .error (.lifecycle e)) ∨
      ∃ event, Throwing.parseBookingLifecycleMessage engine v.validator v.isUUID value = .ok event ∧ (toBookingStatsFact event).Storable) ∧
    ∀ (chunkSize : ℕ) (facts : List BookingStatsFactRow) (messages : List (Option String)), (∀ row ∈ facts, row.Storable) →
      (∀ row ∈ batchRows v messages, row.Storable) ∧ ∀ row ∈ applyBatch v chunkSize facts messages, row.Storable := by
  constructor
  · intro value
    rw [Throwing.parseMessage_eq]
    cases h : parseBookingLifecycleMessage v.validator v.isUUID value with
    | error e => exact .inl ⟨e, rfl⟩
    | ok event => exact .inr ⟨event, rfl, storable_of_message huuid h⟩
  · intro chunkSize facts messages hfacts
    have hrows : ∀ row ∈ batchRows v messages, row.Storable := by
      intro row hrow
      obtain ⟨m, -, hm⟩ := mem_batchRows hrow
      unfold toFact at hm
      split at hm
      · next event h => exact Option.some.inj hm ▸ storable_of_message huuid h
      · cases hm
    exact ⟨hrows, forall_applyBatch hfacts hrows⟩

/-- A message of the relay and one without a value, each alone and both in a batch. -/
theorem no_poison_message_created : let v : StatsValidator := ⟨⟨(· = "VND"), fun _ => false⟩, isUuidText⟩
    ((∃ e, Throwing.parseBookingLifecycleMessage (fun _ => none) v.validator v.isUUID none = .error (.lifecycle e)) ∨
      ∃ event, Throwing.parseBookingLifecycleMessage (fun _ => none) v.validator v.isUUID none = .ok event ∧ (toBookingStatsFact event).Storable) ∧
    ∀ row ∈ applyBatch v 500 [] [createdMessage, none], row.Storable := by
  intro v
  obtain ⟨hmessage, hbatch⟩ := no_poison_message (fun _ => none) v fun _ h => h
  exact ⟨hmessage none, (hbatch 500 [] [createdMessage, none] fun _ hmem => absurd hmem List.not_mem_nil).2⟩

end HotelBackend.Reports
