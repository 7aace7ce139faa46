import HotelBackend.Bookings.LifecycleMessage

/-!
# What the lifecycle parsers can throw

`BigInt` throws on a text that is no number and `toISOString` on a date that is none, so the parsers might
throw more than the error of the contract, which is the only one a consumer skips. Here they are with these
calls as they stand in the source. They throw that error and no other (`parseMessage_eq`): every call that
could throw stands behind a check that excludes it.
-/

namespace HotelBackend.Bookings

open HotelBackend.Common
open HotelBackend.Theory
open HotelBackend.Outbox
open HotelBackend.Notifications (ClassValidator publicBookingIdPattern decimalIdPattern currencyPattern hotelDatePattern field)

inductive Thrown where
  | lifecycle (e : BookingLifecyclePayloadError)
  | syntaxError
  | rangeError
  deriving DecidableEq, Repr

/-- The largest time value of a `Date`. -/
def maxTimeValue : ℕ := 8640000000000000

/-- `new Date(text)`, `none` for an invalid one. What a text of another format means is left to the engine. -/
def newDate (engine : String → Option ℤ) (text : String) : Option ℤ :=
  match parseInstant text with
  | some ms => some ms
  | none => (engine text).filter (·.natAbs ≤ maxTimeValue)

/-- `date.toISOString()` -/
def dateToISOString (date : Option ℤ) : Except Thrown (List Char) :=
  match date with
  | some ms => .ok (isoInstant ms)
  | none => .error .rangeError

/-- `BigInt(text)`; the signs, spaces and prefixes it also takes do not pass the patterns before it. -/
def bigInt (text : String) : Except Thrown ℕ :=
  if text.toList.all isDigit then .ok (digitsValue text.toList) else .error .syntaxError

/-- `throw new BookingLifecyclePayloadError(path)` -/
def invalidField {α : Type} (path : String) : Except Thrown α := .error (.lifecycle ⟨path⟩)

/-! ### The parsers -/

namespace Throwing

/-- A check that throws by itself only. -/
def checked {α : Type} (x : Except BookingLifecyclePayloadError α) : Except Thrown α := x.mapError .lifecycle

section Parsers

variable (engine : String → Option ℤ) (validator : ClassValidator)

def requireHotelDate (value : Option Json) (path : String) : Except Thrown String := do
  let date ← checked (Lifecycle.requireString value path hotelDatePattern)
  let parsed := newDate engine (date ++ "T00:00:00.000Z")
  if parsed.isNone then invalidField path
  else
    let iso ← dateToISOString parsed
    if iso.take 10 = date.toList then return date else invalidField path

def requireStoredId (value : Option Json) (path : String) : Except Thrown String := do
  let id ← checked (Lifecycle.requireString value path decimalIdPattern)
  let stored ← bigInt id
  if stored ≤ maxUnsignedBigint then return id else invalidField path

def requireStayFields (value : List (String × Json)) (path : String) : Except Thrown ReceivedStay := do
  let checkIn ← requireHotelDate engine (field value "checkIn") s!"{path}.checkIn"
  let checkOut ← requireHotelDate engine (field value "checkOut") s!"{path}.checkOut"
  checked (Result.require (checkIn < checkOut) ⟨s!"{path}.checkOut"⟩)
  let roomId ← requireStoredId (field value "roomId") s!"{path}.roomId"
  let roomTypeId ← requireStoredId (field value "roomTypeId") s!"{path}.roomTypeId"
  return ⟨roomId, roomTypeId, checkIn, checkOut⟩

def requireStay (input : Option Json) (path : String) : Except Thrown ReceivedStay := do
  requireStayFields engine (← checked (Lifecycle.requireRecord input path stayKeys)) path

def requirePreviousStay (value : Option Json) : Except Thrown (Option ReceivedStay) :=
  match value with
  | some .null => .ok none
  | value => do return some (← requireStay engine value "previousStay")

open Lifecycle in
def parseBookingLifecyclePayload (input : Json) : Except Thrown BookingLifecyclePayload := do
  let value ← checked (requireRecord (some input) "payload" payloadKeys)
  checked (Result.require (isNumber (field value "schemaVersion") 1) ⟨"schemaVersion"⟩)
  let bookingId ← checked (requireString (field value "bookingId") "bookingId" publicBookingIdPattern)
  let bookingVersion ← checked (requireSafeInteger (field value "bookingVersion") "bookingVersion" 1)
  let fromStatus ← checked (requireNullable (field value "fromStatus") (requireStatus · "fromStatus"))
  let toStatus ← checked (requireStatus (field value "toStatus") "toStatus")
  let booking ← checked (requireRecord (field value "booking") "booking" (stayKeys ++ ["price"]))
  let price ← checked (requireRecord (field booking "price") "booking.price" ["amount", "currency"])
  let amount ← checked (requireSafeInteger (field price "amount") "booking.price.amount" 0)
  let currency ← checked (requireString (field price "currency") "booking.price.currency" currencyPattern)
  checked (Result.require (validator.isISO4217CurrencyCode currency) ⟨"booking.price.currency"⟩)
  let previousStay ← requirePreviousStay engine (field value "previousStay")
  checked (Result.require ((fromStatus, toStatus) ∈ bookingLifecycleTransitions) ⟨"toStatus"⟩)
  checked (Result.require (!(previousStay.isSome && fromStatus ≠ some toStatus)) ⟨"previousStay"⟩)
  checked (Result.require (!(previousStay.isNone && fromStatus = some toStatus)) ⟨"toStatus"⟩)
  let stay ← requireStayFields engine booking "booking"
  return ⟨bookingId, bookingVersion, fromStatus, toStatus, stay, amount, currency, previousStay⟩

def requireInstant (value : Option Json) : Except Thrown ℤ :=
  match value with
  | some (.str text) =>
    match newDate engine text with
    | none => invalidField "occurredAt"
    | some ms => do
      let iso ← dateToISOString (some ms)
      if iso = text.toList ∧ isStorableYear (yearFromDay (ms / 86400000)) = true then return ms else invalidField "occurredAt"
  | _ => invalidField "occurredAt"

def parseBookingLifecycleMessage (isUUID : String → Bool) (value : Option String) : Except Thrown ReceivedBookingLifecycleEvent :=
  -- `JSON.parse` throws inside a `try`
  match parseJson (value.getD "") with
  | none => invalidField "value"
  | some (.obj record) => do
    let eventId ← checked (Lifecycle.requireString (field record "eventId") "eventId" isUUID)
    let _ ← checked (Lifecycle.requireString (field record "eventType") "eventType" (· = bookingLifecycleEventType))
    let occurredAt ← requireInstant engine (field record "occurredAt")
    let payload ← parseBookingLifecyclePayload engine validator (.obj (record.filter fun f => f.1 ∉ envelopeKeys))
    return ⟨eventId, occurredAt, payload⟩
  | some _ => invalidField "value"

end Parsers

/-! ### They throw one error -/

section Checked

variable {α β : Type}

theorem checked_bind (x : Except BookingLifecyclePayloadError α) (f : α → Except BookingLifecyclePayloadError β) :
    checked (x >>= f) = checked x >>= fun a => checked (f a) := by
  cases x <;> rfl

theorem checked_pure (a : α) : checked (pure a) = (pure a : Except Thrown α) := rfl

theorem checked_require (c : Bool) (path : String) (a : α) :
    checked (Result.require c ⟨path⟩ >>= fun _ => pure a) = if c = true then pure a else invalidField path := by
  cases c <;> rfl

/-- What follows a check need agree only where the check returns. -/
theorem checked_congr {x : Except BookingLifecyclePayloadError α} {f g : α → Except Thrown β} (h : ∀ a, x = .ok a → f a = g a) :
    checked x >>= f = checked x >>= g := by
  cases x with
  | error e => rfl
  | ok a => exact h a rfl

end Checked

section Leaves

variable {engine : String → Option ℤ}

theorem newDate_of_parse {text : String} {ms : ℤ} (h : parseInstant text = some ms) : newDate engine text = some ms := by
  rw [newDate, h]

/-- The start of a day, spelled. -/
theorem isoInstant_startOfDay (day : ℤ) : isoInstant (day * 86400000) = isoDay day ++ "T00:00:00.000Z".toList := by
  have hday : day * 86400000 / 86400000 = day := by omega
  have hhour : (day * 86400000 / 3600000 % 24).toNat = 0 := by omega
  have hminute : (day * 86400000 / 60000 % 60).toNat = 0 := by omega
  have hsecond : (day * 86400000 / 1000 % 60).toNat = 0 := by omega
  have hrest : (day * 86400000 % 1000).toNat = 0 := by omega
  rw [isoInstant_eq, isoTime, hday, hhour, hminute, hsecond, hrest]
  rfl

/-- A date that a sign does not start is one of a four-digit year. -/
theorem year_of_matchDate {date : String} {day : ℤ} (hmatch : (matchDate date).isSome = true) {rest : List Char}
    (hdate : (isoDay day ++ rest).take 10 = date.toList) : 0 ≤ yearFromDay day ∧ yearFromDay day ≤ 9999 := by
  by_contra hn
  rw [isoDay] at hdate
  simp only [if_neg hn, List.cons_append, List.take_succ_cons] at hdate
  rw [matchDate, ← hdate] at hmatch
  split at hmatch
  · next heq =>
    have hsign := (List.cons.inj heq).1
    split at hmatch
    · next hdigits =>
      simp only [List.all_cons, Bool.and_eq_true] at hdigits
      rw [← hsign] at hdigits
      split at hdigits
      · exact absurd hdigits.1 (by decide)
      · exact absurd hdigits.1 (by decide)
    · cases hmatch
  · cases hmatch

/-- A day of the contract's years is read as it was spelled. -/
theorem parseHotelDate_isoDay {date : String} {day : ℤ} (hdate : date.toList = isoDay day)
    (hyear : 100 ≤ yearFromDay day ∧ yearFromDay day ≤ 9999) : parseHotelDate date = some day := by
  have hspelled : date = String.ofList (isoDay day) := by rw [← hdate, String.ofList_toList]
  have hbounds := dateFromDay_bounds day
  have hday : makeDay ((yearFromDay day).toNat : ℕ) ((monthFromDay day + 1 : ℕ) - 1) ((dateFromDay day).toNat : ℕ) = day := by
    rw [Int.toNat_of_nonneg (by omega), Int.toNat_of_nonneg (by omega), Nat.cast_add, Nat.cast_one, add_sub_cancel_right, makeDay_of_day]
  have hiso : isoDate day = date := by
    rw [isoDate, hspelled, List.take_of_length_le]
    rw [isoDay_of_year ⟨by omega, hyear.2⟩]
    simp [padDigits_length]
  rw [parseHotelDate, hspelled, matchDate_isoDay ⟨by omega, hyear.2⟩, ← hspelled]
  simp only [Option.bind_eq_bind, Option.bind_some]
  have hcentury : ¬ (yearFromDay day).toNat < 100 := by omega
  rw [if_neg hcentury, hday, if_pos hiso]

/-- The check of a hotel date, whatever the engine makes of other texts. -/
theorem newDate_hotelDate {date : String} (hpattern : hotelDatePattern date = true) :
    (∃ ms, newDate engine (date ++ "T00:00:00.000Z") = some ms ∧ (isoInstant ms).take 10 = date.toList) ↔
      (parseHotelDate date).isSome = true := by
  constructor
  · rintro ⟨ms, -, htake⟩
    rw [isoInstant_eq] at htake
    have hmatch : (matchDate date).isSome = true := by
      rw [hotelDatePattern, Bool.and_eq_true] at hpattern
      exact hpattern.1
    have hyear := year_of_matchDate hmatch htake
    have hlength : (isoDay (ms / 86400000)).length = 10 := by
      rw [isoDay_of_year hyear]
      simp [padDigits_length]
    rw [List.take_left' hlength] at htake
    have hthousand := year_of_hotelDatePattern htake.symm hyear hpattern
    rw [parseHotelDate_isoDay htake.symm ⟨by omega, hyear.2⟩]
    rfl
  · intro hsome
    obtain ⟨day, hday⟩ := Option.isSome_iff_exists.1 hsome
    obtain ⟨hdate, hyear⟩ := parseHotelDate_spec hday
    have hstart : day * 86400000 / 86400000 = day := by omega
    have htext : date ++ "T00:00:00.000Z" = String.ofList (isoInstant (day * 86400000)) := by
      rw [isoInstant_startOfDay, ← hdate, ← String.toList_append, String.ofList_toList]
    refine ⟨day * 86400000, newDate_of_parse ?_, ?_⟩
    · rw [htext, parseInstant_isoInstant]
      rwa [hstart]
    · rw [isoInstant_startOfDay, hdate, List.take_left']
      rw [isoDay_of_year hyear]
      simp [padDigits_length]

theorem requireHotelDate_eq (value : Option Json) (path : String) :
    requireHotelDate engine value path = checked (Lifecycle.requireHotelDate value path) := by
  rw [requireHotelDate, Lifecycle.requireHotelDate, checked_bind]
  refine checked_congr fun date hdate => ?_
  have hiff := @newDate_hotelDate engine _ (requireString_eq_ok.1 hdate).2
  rw [checked_require]
  cases hparsed : newDate engine (date ++ "T00:00:00.000Z") with
  | none =>
    have hnone : ¬ (parseHotelDate date).isSome = true := fun hsome => by simpa [hparsed] using hiff.2 hsome
    rw [if_neg hnone]
    rfl
  | some ms =>
    simp only [hparsed, Option.some.injEq, exists_eq_left'] at hiff
    by_cases hsame : (isoInstant ms).take 10 = date.toList
    · rw [if_pos (hiff.1 hsame)]
      exact if_pos hsame
    · rw [if_neg fun hsome => hsame (hiff.2 hsome)]
      exact if_neg hsame

theorem requireStoredId_eq (value : Option Json) (path : String) :
    requireStoredId value path = checked (Lifecycle.requireStoredId value path) := by
  rw [requireStoredId, Lifecycle.requireStoredId, checked_bind]
  refine checked_congr fun id hid => ?_
  have hdigits : id.toList.all isDigit = true := digits_of_decimalId (requireString_eq_ok.1 hid).2
  rw [checked_require, bigInt, if_pos hdigits]
  simp only [decide_eq_true_eq]
  rfl

theorem requireInstant_text (text : String) : requireInstant engine (some (.str text)) = checked (Bookings.requireInstant (some (.str text))) := by
  simp only [requireInstant, Bookings.requireInstant]
  cases hparsed : parseInstant text with
  | some ms =>
    have hiso : isoInstant ms = text.toList := by rw [isoInstant_of_parse hparsed, String.toList_ofList]
    rw [newDate_of_parse hparsed, Option.filter_some]
    by_cases hyear : isStorableYear (yearFromDay (ms / 86400000)) = true
    · rw [if_pos hyear]
      exact if_pos ⟨hiso, hyear⟩
    · rw [if_neg hyear]
      exact if_neg fun h => hyear h.2
  | none =>
    rw [newDate, hparsed, Option.filter_none]
    dsimp only
    split
    · rfl
    · next ms _ =>
      -- a text that prints back the same in such a year would have been read as an instant
      refine if_neg fun h => ?_
      have hyear := h.2
      simp only [isStorableYear, Bool.and_eq_true, decide_eq_true_eq] at hyear
      have hread := parseInstant_isoInstant (show 0 ≤ yearFromDay (ms / 86400000) ∧ yearFromDay (ms / 86400000) ≤ 9999 by omega)
      rw [h.1, String.ofList_toList, hparsed] at hread
      cases hread

theorem requireInstant_eq (value : Option Json) : requireInstant engine value = checked (Bookings.requireInstant value) := by
  cases value with
  | none => rfl
  | some v =>
    cases v with
    | str text => exact requireInstant_text text
    | null | bool | num | arr | obj => rfl

end Leaves

section Parsers

variable {engine : String → Option ℤ} {validator : ClassValidator}

theorem requireStayFields_eq (value : List (String × Json)) (path : String) :
    requireStayFields engine value path = checked (Lifecycle.requireStayFields value path) := by
  simp only [requireStayFields, Lifecycle.requireStayFields, checked_bind, checked_pure, requireHotelDate_eq, requireStoredId_eq]

theorem requireStay_eq (input : Option Json) (path : String) :
    requireStay engine input path = checked (Lifecycle.requireStay input path) := by
  simp only [requireStay, Lifecycle.requireStay, checked_bind, requireStayFields_eq]

theorem requirePreviousStay_eq (value : Option Json) : requirePreviousStay engine value =
    checked (Lifecycle.requireNullable value (Lifecycle.requireStay · "previousStay")) := by
  have hstay : ∀ v, (do return some (← requireStay engine v "previousStay")) =
      checked (do return some (← Lifecycle.requireStay v "previousStay")) := by
    intro v
    rw [requireStay_eq, checked_bind]
    rfl
  cases value with
  | none => exact hstay none
  | some v =>
    cases v with
    | null => rfl
    | bool | num | str | arr | obj => exact hstay _

theorem parsePayload_eq (input : Json) :
    parseBookingLifecyclePayload engine validator input = checked (Bookings.parseBookingLifecyclePayload validator input) := by
  simp only [parseBookingLifecyclePayload, Bookings.parseBookingLifecyclePayload, checked_bind, checked_pure, requirePreviousStay_eq,
    requireStayFields_eq]

/-- **The parser throws the error of the contract only**, on the texts that the contract refuses. -/
theorem parseMessage_eq (isUUID : String → Bool) (value : Option String) : parseBookingLifecycleMessage engine validator isUUID value =
    checked (Bookings.parseBookingLifecycleMessage validator isUUID value) := by
  rw [parseBookingLifecycleMessage, Bookings.parseBookingLifecycleMessage, checked_bind]
  cases parseJson (value.getD "") with
  | none => rfl
  | some decoded =>
    cases decoded with
    | obj record =>
      have hdecoded : ∀ f : Json → Except BookingLifecyclePayloadError ReceivedBookingLifecycleEvent,
          (checked (Result.orThrow (some (.obj record)) ⟨"value"⟩) >>= fun decoded => checked (f decoded)) = checked (f (.obj record)) :=
        fun _ => rfl
      rw [hdecoded]
      simp only [requireInstant_eq, parsePayload_eq, checked_bind, checked_pure]
    | null | bool | num | str | arr => rfl

end Parsers

end Throwing

end HotelBackend.Bookings
