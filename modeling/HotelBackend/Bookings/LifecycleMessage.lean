import HotelBackend.Bookings.LifecyclePayload
import HotelBackend.Common.JsonStringify

/-!
# The lifecycle contract, written

`toBookingLifecycleMessage`, which wraps a checked payload in the published envelope. What it
builds is read back by `parseBookingLifecycleMessage` as the row's id, instant and payload
(`parse_toBookingLifecycleMessage`), so whatever the relay publishes its consumers accept.
-/

namespace HotelBackend.Bookings

open HotelBackend.Common
open HotelBackend.Theory
open HotelBackend.Outbox
open HotelBackend.Notifications (ClassValidator publicBookingIdPattern decimalIdPattern currencyPattern hotelDatePattern field)

/-! ### Messages -/

/-- A claimed row as the relay reads it back; `createdAt` is a `Date`, in milliseconds. -/
structure ClaimedLifecycleRow where
  id : String
  /-- `none` is `undefined`. -/
  payload : Option Json
  createdAt : ℤ

/-- A publishable message. -/
structure BookingLifecycleMessage where
  key : String
  value : String
  timestampMs : ℤ
  headers : List (String × String)
  deriving DecidableEq, Repr

def ReceivedStay.fields (s : ReceivedStay) : List (String × Json) :=
  [("roomId", .str s.roomId), ("roomTypeId", .str s.roomTypeId), ("checkIn", .str s.checkIn), ("checkOut", .str s.checkOut)]

/-- A payload, as an object. -/
def BookingLifecyclePayload.fields (p : BookingLifecyclePayload) : List (String × Json) :=
  [("schemaVersion", .num 1),
    ("bookingId", .str p.bookingId),
    ("bookingVersion", .num p.bookingVersion),
    ("fromStatus", match p.fromStatus with
      | some status => .str status.text
      | none => .null),
    ("toStatus", .str p.toStatus.text),
    ("booking", .obj (p.booking.fields ++ [("price", .obj [("amount", .num p.priceAmount), ("currency", .str p.currency)])])),
    ("previousStay", match p.previousStay with
      | some previous => .obj previous.fields
      | none => .null)]

/-- What the envelope adds to a payload. -/
def envelopeFields (row : ClaimedLifecycleRow) : List (String × Json) :=
  [("eventId", .str row.id), ("eventType", .str bookingLifecycleEventType),
    ("occurredAt", .str (String.ofList (isoInstant row.createdAt)))]

/-- The value of a message, before it is spelled. -/
def envelope (row : ClaimedLifecycleRow) (payload : BookingLifecyclePayload) : Json := .obj (envelopeFields row ++ payload.fields)

def toBookingLifecycleMessage (row : ClaimedLifecycleRow) (payload : BookingLifecyclePayload) : BookingLifecycleMessage where
  key := payload.bookingId
  value := stringify (envelope row payload)
  timestampMs := row.createdAt
  headers := [("event-id", row.id), ("event-type", bookingLifecycleEventType), ("schema-version", toString 1)]

/-! ### Instants read back -/

theorem digitsValue_append (digits : List Char) (c : Char) : digitsValue (digits ++ [c]) = 10 * digitsValue digits + (c.toNat - 48) := by
  simp only [digitsValue, List.foldl_append, List.foldl_cons, List.foldl_nil]

theorem toNat_digit : ∀ d < 10, (Char.ofNat (48 + d)).toNat - 48 = d := by decide

theorem isDigit_digit : ∀ d < 10, isDigit (Char.ofNat (48 + d)) = true := by decide

theorem digitsValue_padDigits (w n : ℕ) : digitsValue (padDigits w n) = n % 10 ^ w := by
  induction w generalizing n with
  | zero => rw [pow_zero, Nat.mod_one]; rfl
  | succ w ih =>
    rw [padDigits, digitsValue_append, ih, toNat_digit _ (Nat.mod_lt _ (by omega)), pow_succ', Nat.mod_mul]
    omega

theorem all_isDigit_padDigits (w n : ℕ) : (padDigits w n).all isDigit = true := by
  induction w generalizing n with
  | zero => rfl
  | succ w ih => simp [padDigits, ih, isDigit_digit _ (Nat.mod_lt n (by omega : 10 > 0))]

/-- A day of a four-digit year is matched as it was spelled. -/
theorem matchDate_isoDay {day : ℤ} (h : 0 ≤ yearFromDay day ∧ yearFromDay day ≤ 9999) :
    matchDate (String.ofList (isoDay day)) = some ((yearFromDay day).toNat, monthFromDay day + 1, (dateFromDay day).toNat) := by
  have hmonth := monthFromDay_lt day
  have hdate := dateFromDay_bounds day
  have hyear : ∃ a b c d, padDigits 4 (yearFromDay day).toNat = [a, b, c, d] := ⟨_, _, _, _, rfl⟩
  have hmonths : ∃ a b, padDigits 2 (monthFromDay day + 1) = [a, b] := ⟨_, _, rfl⟩
  have hdates : ∃ a b, padDigits 2 (dateFromDay day).toNat = [a, b] := ⟨_, _, rfl⟩
  obtain ⟨a, b, c, d, hy⟩ := hyear
  obtain ⟨e, f, hm⟩ := hmonths
  obtain ⟨g, k, hd⟩ := hdates
  have hyall := hy ▸ all_isDigit_padDigits 4 (yearFromDay day).toNat
  have hmall := hm ▸ all_isDigit_padDigits 2 (monthFromDay day + 1)
  have hdall := hd ▸ all_isDigit_padDigits 2 (dateFromDay day).toNat
  have hyv := hy ▸ digitsValue_padDigits 4 (yearFromDay day).toNat
  have hmv := hm ▸ digitsValue_padDigits 2 (monthFromDay day + 1)
  have hdv := hd ▸ digitsValue_padDigits 2 (dateFromDay day).toNat
  have hall : [a, b, c, d, e, f, g, k].all isDigit = true := by
    simp only [List.all_cons, List.all_nil, Bool.and_true, Bool.and_eq_true] at hyall hmall hdall ⊢
    exact ⟨hyall.1, hyall.2.1, hyall.2.2.1, hyall.2.2.2, hmall.1, hmall.2, hdall.1, hdall.2⟩
  rw [isoDay_of_year h, hy, hm, hd, matchDate, String.toList_ofList]
  simp only [List.cons_append, List.nil_append]
  rw [if_pos hall, hyv, hmv, hdv]
  congr 2
  · omega
  · congr 1 <;> omega

/-- The time of an instant, spelled. -/
def isoTime (ms : ℤ) : List Char :=
  'T' :: padDigits 2 (ms / 3600000 % 24).toNat ++ ':' :: padDigits 2 (ms / 60000 % 60).toNat ++
    ':' :: padDigits 2 (ms / 1000 % 60).toNat ++ '.' :: padDigits 3 (ms % 1000).toNat ++ ['Z']

theorem isoInstant_eq (ms : ℤ) : isoInstant ms = isoDay (ms / 86400000) ++ isoTime ms := by
  simp only [isoInstant, isoTime, List.append_assoc, List.cons_append]

/-- Hours, minutes, seconds and milliseconds make up the time. -/
theorem time_sum (n : ℕ) : 3600000 * (n / 3600000) + 60000 * (n / 60000 % 60) + 1000 * (n / 1000 % 60) + n % 1000 = n := by
  omega

theorem time_parts {ms : ℤ} {n : ℕ} (h : (ms % 86400000).toNat = n) : (ms / 3600000 % 24).toNat = n / 3600000 ∧
    (ms / 60000 % 60).toNat = n / 60000 % 60 ∧ (ms / 1000 % 60).toNat = n / 1000 % 60 ∧ (ms % 1000).toNat = n % 1000 := by
  refine ⟨?_, ?_, ?_, ?_⟩ <;> omega

theorem matchTime_isoTime (ms : ℤ) : matchTime (isoTime ms) = some (ms % 86400000).toNat := by
  have htwo : ∀ n, ∃ a b, padDigits 2 n = [a, b] := fun n => ⟨_, _, rfl⟩
  have hthree : ∀ n, ∃ a b c, padDigits 3 n = [a, b, c] := fun n => ⟨_, _, _, rfl⟩
  obtain ⟨a, b, hh⟩ := htwo (ms / 3600000 % 24).toNat
  obtain ⟨c, d, hm⟩ := htwo (ms / 60000 % 60).toNat
  obtain ⟨e, f, hs⟩ := htwo (ms / 1000 % 60).toNat
  obtain ⟨g, k, l, hr⟩ := hthree (ms % 1000).toNat
  have hhall := hh ▸ all_isDigit_padDigits 2 (ms / 3600000 % 24).toNat
  have hmall := hm ▸ all_isDigit_padDigits 2 (ms / 60000 % 60).toNat
  have hsall := hs ▸ all_isDigit_padDigits 2 (ms / 1000 % 60).toNat
  have hrall := hr ▸ all_isDigit_padDigits 3 (ms % 1000).toNat
  have hhv := hh ▸ digitsValue_padDigits 2 (ms / 3600000 % 24).toNat
  have hmv := hm ▸ digitsValue_padDigits 2 (ms / 60000 % 60).toNat
  have hsv := hs ▸ digitsValue_padDigits 2 (ms / 1000 % 60).toNat
  have hrv := hr ▸ digitsValue_padDigits 3 (ms % 1000).toNat
  have hall : [a, b, c, d, e, f, g, k, l].all isDigit = true := by
    simp only [List.all_cons, List.all_nil, Bool.and_true, Bool.and_eq_true] at hhall hmall hsall hrall ⊢
    exact ⟨hhall.1, hhall.2, hmall.1, hmall.2, hsall.1, hsall.2, hrall.1, hrall.2.1, hrall.2.2⟩
  rw [isoTime, hh, hm, hs, hr]
  simp only [List.cons_append, List.nil_append, matchTime]
  rw [if_pos hall, hhv, hmv, hsv, hrv]
  -- the four numbers are those of the time of the day
  obtain ⟨n, hn⟩ : ∃ n, (ms % 86400000).toNat = n := ⟨_, rfl⟩
  obtain ⟨hhour, hminute, hsecond, hrest⟩ := time_parts hn
  have hhour' : n / 3600000 < 10 ^ 2 := by omega
  have hminute' : n / 60000 % 60 < 10 ^ 2 := (Nat.mod_lt _ (by decide)).trans (by decide)
  have hsecond' : n / 1000 % 60 < 10 ^ 2 := (Nat.mod_lt _ (by decide)).trans (by decide)
  have hrest' : n % 1000 < 10 ^ 3 := Nat.mod_lt _ (by decide)
  rw [hhour, hminute, hsecond, hrest, hn, Nat.mod_eq_of_lt hhour', Nat.mod_eq_of_lt hminute', Nat.mod_eq_of_lt hsecond',
    Nat.mod_eq_of_lt hrest', time_sum]

/-- An instant of a four-digit year is read as it was spelled. -/
theorem parseInstant_isoInstant {ms : ℤ} (h : 0 ≤ yearFromDay (ms / 86400000) ∧ yearFromDay (ms / 86400000) ≤ 9999) :
    parseInstant (String.ofList (isoInstant ms)) = some ms := by
  have hlength : (isoDay (ms / 86400000)).length = 10 := by
    rw [isoDay_of_year h]
    simp [padDigits_length]
  have htake : (isoInstant ms).take 10 = isoDay (ms / 86400000) := by
    rw [isoInstant_eq, List.take_left' hlength]
  have hdrop : (isoInstant ms).drop 10 = isoTime ms := by
    rw [isoInstant_eq, List.drop_left' hlength]
  have hdate := dateFromDay_bounds (ms / 86400000)
  have hday : makeDay ((yearFromDay (ms / 86400000)).toNat : ℕ) ((monthFromDay (ms / 86400000) + 1 : ℕ) - 1)
      ((dateFromDay (ms / 86400000)).toNat : ℕ) = ms / 86400000 := by
    rw [Int.toNat_of_nonneg h.1, Int.toNat_of_nonneg (by omega), Nat.cast_add, Nat.cast_one, add_sub_cancel_right,
      makeDay_of_day]
  have hms : ms / 86400000 * 86400000 + ((ms % 86400000).toNat : ℤ) = ms := by omega
  unfold parseInstant
  rw [String.toList_ofList, htake, hdrop, matchDate_isoDay h, matchTime_isoTime]
  simp only [Option.bind_eq_bind, Option.bind_some, hday, hms, if_true]

/-- What is read as an instant spells it. -/
theorem isoInstant_of_parse {text : String} {ms : ℤ} (h : parseInstant text = some ms) : text = String.ofList (isoInstant ms) := by
  simp only [parseInstant, Option.bind_eq_bind, Option.bind_eq_some_iff] at h
  obtain ⟨_, -, _, -, h⟩ := h
  rw [Option.ite_none_right_eq_some, Option.some.injEq] at h
  rw [← h.2, h.1, String.ofList_toList]

theorem requireInstant_eq_ok {value : Option Json} {ms : ℤ} : requireInstant value = .ok ms ↔
    value = some (.str (String.ofList (isoInstant ms))) ∧ isStorableYear (yearFromDay (ms / 86400000)) = true := by
  unfold requireInstant
  constructor
  · intro h
    split at h
    · next text =>
      rw [Result.orThrow_eq_ok, Option.filter_eq_some_iff] at h
      rw [isoInstant_of_parse h.1]
      exact ⟨rfl, h.2⟩
    · cases h
  · rintro ⟨rfl, hyear⟩
    have hyear' := hyear
    simp only [isStorableYear, Bool.and_eq_true, decide_eq_true_eq] at hyear'
    dsimp only
    rw [Result.orThrow_eq_ok, parseInstant_isoInstant ⟨by omega, hyear'.2⟩, Option.filter_some, if_pos hyear]

/-- The end of the year 9999, in milliseconds: the `DATETIME` columns hold no later instant. -/
def maxDatetimeMs : ℕ := 253402300799999

theorem isStorableYear_of_le {ms : ℕ} (h : ms ≤ maxDatetimeMs) : isStorableYear (yearFromDay ((ms : ℤ) / 86400000)) = true := by
  have hfirst : yearFromDay 0 = 1970 := by decide
  have hlast : yearFromDay ((maxDatetimeMs : ℤ) / 86400000) = 9999 := by decide
  have hlow := yearFromDay_mono (show 0 ≤ (ms : ℤ) / 86400000 by omega)
  have hhigh := yearFromDay_mono (Int.ediv_le_ediv (show (0 : ℤ) < 86400000 by omega) (show (ms : ℤ) ≤ (maxDatetimeMs : ℕ) by omega))
  simp only [isStorableYear, Bool.and_eq_true, decide_eq_true_eq]
  omega

/-! ### Checked fields -/

section Fields

variable {value : Option Json} {path : String}

theorem requireString_eq_ok {pattern : String → Bool} {s : String} :
    Lifecycle.requireString value path pattern = .ok s ↔ value = some (.str s) ∧ pattern s = true := by
  unfold Lifecycle.requireString
  split
  · next text =>
    split
    · next h =>
      simp only [Except.ok.injEq, Option.some.injEq, Json.str.injEq]
      exact ⟨fun hs => ⟨hs, hs ▸ h⟩, And.left⟩
    · next h =>
      refine ⟨fun hs => (by cases hs), fun hs => ?_⟩
      simp only [Option.some.injEq, Json.str.injEq] at hs
      exact absurd (hs.1 ▸ hs.2) h
  · next hne => exact ⟨fun hs => (by cases hs), fun hs => absurd hs.1 (hne s)⟩

theorem requireSafeInteger_eq_ok {minimum n : ℕ} :
    Lifecycle.requireSafeInteger value path minimum = .ok n ↔ value = some (.num n) ∧ n ≤ maxSafeInteger ∧ minimum ≤ n := by
  unfold Lifecycle.requireSafeInteger
  split
  · next q =>
    split
    · next h =>
      rw [Bool.and_eq_true, decide_eq_true_eq] at h
      have hden : q.den = 1 := by
        have := h.1
        simp only [isSafeInteger, Bool.and_eq_true, beq_iff_eq] at this
        exact this.1
      have hnonneg : 0 ≤ q.num := Rat.num_nonneg.2 ((Nat.cast_nonneg minimum).trans h.2)
      have hq : q = (q.num.toNat : ℕ) := by
        rw [← Int.cast_natCast, Int.toNat_of_nonneg hnonneg]
        exact (Rat.den_eq_one_iff q).1 hden |>.symm
      have hsafe := h.1
      have hmin := h.2
      rw [hq] at hsafe hmin
      rw [isSafeInteger_natCast] at hsafe
      rw [Nat.cast_le] at hmin
      simp only [Except.ok.injEq, Option.some.injEq, Json.num.injEq]
      constructor
      · rintro rfl
        exact ⟨hq, hsafe, hmin⟩
      · rintro ⟨heq, -, -⟩
        rw [heq, Rat.num_natCast, Int.toNat_natCast]
    · next h =>
      refine ⟨fun hs => (by cases hs), fun hs => ?_⟩
      simp only [Option.some.injEq, Json.num.injEq] at hs
      obtain ⟨rfl, hsafe, hmin⟩ := hs
      refine absurd ?_ h
      rw [Bool.and_eq_true, isSafeInteger_natCast, decide_eq_true_eq, Nat.cast_le]
      exact ⟨hsafe, hmin⟩
  · next hne => exact ⟨fun hs => (by cases hs), fun hs => absurd hs.1 (hne n)⟩

/-- A status is found by its own text only. -/
theorem find?_bookingStatuses {s : String} {status : BookingStatus} :
    bookingStatuses.find? (·.text = s) = some status ↔ s = status.text := by
  constructor
  · intro h
    have htext := List.find?_some h
    exact (of_decide_eq_true htext).symm
  · rintro rfl
    cases status <;> rfl

theorem requireStatus_eq_ok {status : BookingStatus} :
    Lifecycle.requireStatus value path = .ok status ↔ value = some (.str status.text) := by
  unfold Lifecycle.requireStatus
  split
  · rw [Result.orThrow_eq_ok, find?_bookingStatuses, Option.some.injEq, Json.str.injEq]
  · next hne => exact ⟨fun hs => (by cases hs), fun hs => absurd hs (hne _)⟩

theorem requireNullable_eq_ok {α : Type} {require : Option Json → Except BookingLifecyclePayloadError α} {a : Option α}
    (hnull : ∀ b, require (some .null) ≠ .ok b) : Lifecycle.requireNullable value require = .ok a ↔
      (a = none ∧ value = some .null) ∨ ∃ b, a = some b ∧ require value = .ok b := by
  unfold Lifecycle.requireNullable
  split
  · simp only [Except.ok.injEq, and_true]
    constructor
    · exact fun h => .inl h.symm
    · rintro (h | ⟨b, -, hb⟩)
      · exact h.symm
      · exact absurd hb (hnull b)
  · next hne =>
    simp only [Result.bind_eq_ok, Result.pure_eq_ok]
    constructor
    · rintro ⟨b, hb, rfl⟩
      exact .inr ⟨b, rfl, hb⟩
    · rintro (⟨-, h⟩ | ⟨b, rfl, hb⟩)
      · exact absurd h hne
      · exact ⟨b, hb, rfl⟩

/-- A date of the calendar. -/
def isLifecycleDate (date : String) : Bool := hotelDatePattern date && (parseHotelDate date).isSome

/-- A four-digit year does not start with a zero from 1000 on. -/
theorem year_of_hotelDatePattern {date : String} {day : ℤ} (hdate : date.toList = isoDay day)
    (hyear : 0 ≤ yearFromDay day ∧ yearFromDay day ≤ 9999) (h : hotelDatePattern date = true) : 1000 ≤ yearFromDay day := by
  rw [hotelDatePattern, Bool.and_eq_true, hdate, isoDay_of_year hyear] at h
  obtain ⟨a, b, c, d, hy⟩ : ∃ a b c d, padDigits 4 (yearFromDay day).toNat = [a, b, c, d] := ⟨_, _, _, _, rfl⟩
  have hvalue := digitsValue_padDigits 4 (yearFromDay day).toNat
  rw [hy] at h hvalue
  have hfirst : 49 ≤ a.toNat := by
    have : ('1' ≤ a) := by simpa using h.2
    exact this
  simp only [digitsValue, List.foldl_cons, List.foldl_nil] at hvalue
  omega

/-- A date of the contract is a day of the years that the columns hold. -/
theorem isLifecycleDate_spec {date : String} (h : isLifecycleDate date = true) :
    ∃ day, date.toList = isoDay day ∧ 1000 ≤ yearFromDay day ∧ yearFromDay day ≤ 9999 := by
  rw [isLifecycleDate, Bool.and_eq_true] at h
  obtain ⟨day, hday⟩ := Option.isSome_iff_exists.1 h.2
  obtain ⟨hdate, hyear⟩ := parseHotelDate_spec hday
  exact ⟨day, hdate, year_of_hotelDatePattern hdate hyear h.1, hyear.2⟩

theorem requireHotelDate_eq_ok {date : String} :
    Lifecycle.requireHotelDate value path = .ok date ↔ value = some (.str date) ∧ isLifecycleDate date = true := by
  simp only [Lifecycle.requireHotelDate, Result.bind_eq_ok, requireString_eq_ok, Result.require_eq_ok, Result.pure_eq_ok,
    isLifecycleDate, Bool.and_eq_true]
  constructor
  · rintro ⟨_, ⟨hvalue, hpattern⟩, _, hdate, rfl⟩
    exact ⟨hvalue, hpattern, hdate⟩
  · rintro ⟨hvalue, hpattern, hdate⟩
    exact ⟨date, ⟨hvalue, hpattern⟩, (), hdate, rfl⟩

/-- A stored id. -/
def isStoredId (id : String) : Bool := decimalIdPattern id && digitsValue id.toList ≤ maxUnsignedBigint

theorem digits_of_decimalId {id : String} (h : decimalIdPattern id = true) : id.toList.all isDigit = true := by
  unfold decimalIdPattern at h
  split at h
  · next c cs heq =>
    simp only [Bool.and_eq_true, decide_eq_true_eq] at h
    rw [heq, List.all_cons, h.2, Bool.and_true, isDigit, Bool.and_eq_true, decide_eq_true_eq, decide_eq_true_eq]
    exact ⟨le_trans (by decide) h.1.1.1, h.1.1.2⟩
  · cases h

theorem requireStoredId_eq_ok {id : String} :
    Lifecycle.requireStoredId value path = .ok id ↔ value = some (.str id) ∧ isStoredId id = true := by
  simp only [Lifecycle.requireStoredId, Result.bind_eq_ok, requireString_eq_ok, Result.require_eq_ok, Result.pure_eq_ok,
    isStoredId, Bool.and_eq_true]
  constructor
  · rintro ⟨_, ⟨hvalue, hpattern⟩, _, hle, rfl⟩
    exact ⟨hvalue, hpattern, hle⟩
  · rintro ⟨hvalue, hpattern, hle⟩
    exact ⟨id, ⟨hvalue, hpattern⟩, (), hle, rfl⟩

theorem requireRecord_eq_ok {keys : List String} {fields : List (String × Json)} :
    Lifecycle.requireRecord value path keys = .ok fields ↔ value = some (.obj fields) ∧ (fields.map (·.1)).isPerm keys = true := by
  unfold Lifecycle.requireRecord
  split
  · next found =>
    split
    · next h =>
      simp only [Except.ok.injEq, Option.some.injEq, Json.obj.injEq]
      exact ⟨fun hs => ⟨hs, hs ▸ h⟩, And.left⟩
    · next h =>
      refine ⟨fun hs => (by cases hs), fun hs => ?_⟩
      simp only [Option.some.injEq, Json.obj.injEq] at hs
      exact absurd (hs.1 ▸ hs.2) h
  · next hne => exact ⟨fun hs => (by cases hs), fun hs => absurd hs.1 (hne fields)⟩

end Fields

/-! ### Payloads read back -/

/-- What the contract asks of a stay. -/
structure ReceivedStay.Valid (s : ReceivedStay) : Prop where
  checkIn : isLifecycleDate s.checkIn = true
  checkOut : isLifecycleDate s.checkOut = true
  nights : s.checkIn < s.checkOut
  roomId : isStoredId s.roomId = true
  roomTypeId : isStoredId s.roomTypeId = true

theorem requireStayFields_eq_ok {value : List (String × Json)} {path : String} {s : ReceivedStay} :
    Lifecycle.requireStayFields value path = .ok s ↔ s.Valid ∧ field value "checkIn" = some (.str s.checkIn) ∧
      field value "checkOut" = some (.str s.checkOut) ∧ field value "roomId" = some (.str s.roomId) ∧
      field value "roomTypeId" = some (.str s.roomTypeId) := by
  simp only [Lifecycle.requireStayFields, Result.bind_eq_ok, requireHotelDate_eq_ok, requireStoredId_eq_ok, Result.require_eq_ok,
    Result.pure_eq_ok, decide_eq_true_eq]
  constructor
  · rintro ⟨_, ⟨hin, hin'⟩, _, ⟨hout, hout'⟩, _, hlt, _, ⟨hroom, hroom'⟩, _, ⟨htype, htype'⟩, rfl⟩
    exact ⟨⟨hin', hout', hlt, hroom', htype'⟩, hin, hout, hroom, htype⟩
  · rintro ⟨hs, hin, hout, hroom, htype⟩
    exact ⟨_, ⟨hin, hs.checkIn⟩, _, ⟨hout, hs.checkOut⟩, (), hs.nights, _, ⟨hroom, hs.roomId⟩, _, ⟨htype, hs.roomTypeId⟩, rfl⟩

/-- What the contract asks of a payload. -/
structure BookingLifecyclePayload.Valid (validator : ClassValidator) (p : BookingLifecyclePayload) : Prop where
  bookingId : publicBookingIdPattern p.bookingId = true
  bookingVersion : p.bookingVersion ≤ maxSafeInteger ∧ 1 ≤ p.bookingVersion
  amount : p.priceAmount ≤ maxSafeInteger
  currency : currencyPattern p.currency = true ∧ validator.isISO4217CurrencyCode p.currency = true
  booking : p.booking.Valid
  previousStay : ∀ s, p.previousStay = some s → s.Valid
  transition : (p.fromStatus, p.toStatus) ∈ bookingLifecycleTransitions
  stayChange : p.previousStay.isSome = true → p.fromStatus = some p.toStatus
  statusChange : p.previousStay.isNone = true → p.fromStatus ≠ some p.toStatus

theorem requireStatus_null {path : String} (status : BookingStatus) : Lifecycle.requireStatus (some .null) path ≠ .ok status := by
  rw [Ne, requireStatus_eq_ok]
  exact fun h => (by cases h)

theorem requireStay_eq_ok {value : Option Json} {path : String} {s : ReceivedStay} : Lifecycle.requireStay value path = .ok s ↔
    ∃ fields, Lifecycle.requireRecord value path stayKeys = .ok fields ∧ Lifecycle.requireStayFields fields path = .ok s := by
  rw [Lifecycle.requireStay, Result.bind_eq_ok]

theorem requireStay_null {path : String} (s : ReceivedStay) : Lifecycle.requireStay (some .null) path ≠ .ok s := by
  rw [Ne, requireStay_eq_ok]
  rintro ⟨fields, h, -⟩
  cases (requireRecord_eq_ok.1 h).1

/-- A checked payload keeps the contract. -/
theorem valid_of_parse {validator : ClassValidator} {input : Json} {p : BookingLifecyclePayload}
    (h : parseBookingLifecyclePayload validator input = .ok p) : p.Valid validator := by
  simp only [parseBookingLifecyclePayload, Result.bind_eq_ok, Result.require_eq_ok, Result.pure_eq_ok] at h
  obtain ⟨_, -, _, -, id, hid, version, hversion, fromStatus, -, toStatus, -, _, -, _, -, amount, hamount, currency, hcurrency, _, hiso,
    previous, hprevious, _, htransition, _, hstay, _, hstatus, stay, hbooking, rfl⟩ := h
  rw [requireString_eq_ok] at hid hcurrency
  rw [requireSafeInteger_eq_ok] at hversion hamount
  refine ⟨hid.2, hversion.2, hamount.2.1, ⟨hcurrency.2, hiso⟩, (requireStayFields_eq_ok.1 hbooking).1, ?_, of_decide_eq_true htransition,
    ?_, ?_⟩
  · rintro s rfl
    rcases (requireNullable_eq_ok requireStay_null).1 hprevious with ⟨hnone, -⟩ | ⟨s', hs, hs'⟩
    · cases hnone
    · obtain rfl := Option.some.inj hs
      obtain ⟨fields, -, hfields⟩ := requireStay_eq_ok.1 hs'
      exact (requireStayFields_eq_ok.1 hfields).1
  · intro hsome
    by_contra hne
    simp [hsome, hne] at hstay
  · intro hnone heq
    dsimp only at hnone heq
    simp [hnone, heq] at hstatus

theorem requireStay_fields {s : ReceivedStay} (h : s.Valid) (path : String) : Lifecycle.requireStay (some (.obj s.fields)) path = .ok s :=
  requireStay_eq_ok.2 ⟨s.fields, requireRecord_eq_ok.2 ⟨rfl, rfl⟩, requireStayFields_eq_ok.2 ⟨h, rfl, rfl, rfl, rfl⟩⟩

/-- A payload that keeps the contract is read as it was written. -/
theorem parse_fields {validator : ClassValidator} {p : BookingLifecyclePayload} (h : p.Valid validator) :
    parseBookingLifecyclePayload validator (.obj p.fields) = .ok p := by
  have hfrom : Lifecycle.requireNullable (field p.fields "fromStatus") (Lifecycle.requireStatus · "fromStatus") = .ok p.fromStatus := by
    rw [requireNullable_eq_ok requireStatus_null]
    cases hs : p.fromStatus with
    | none => exact .inl ⟨rfl, by simp [field, BookingLifecyclePayload.fields, hs]⟩
    | some status => exact .inr ⟨status, rfl, requireStatus_eq_ok.2 (by simp [field, BookingLifecyclePayload.fields, hs])⟩
  have hprevious : Lifecycle.requireNullable (field p.fields "previousStay") (Lifecycle.requireStay · "previousStay") = .ok p.previousStay := by
    rw [requireNullable_eq_ok requireStay_null]
    cases hs : p.previousStay with
    | none => exact .inl ⟨rfl, by simp [field, BookingLifecyclePayload.fields, hs]⟩
    | some previous =>
      refine .inr ⟨previous, rfl, ?_⟩
      have hfield : field p.fields "previousStay" = some (.obj previous.fields) := by
        simp [field, BookingLifecyclePayload.fields, hs]
      rw [hfield, requireStay_fields (h.previousStay _ hs)]
  simp only [parseBookingLifecyclePayload, Result.bind_eq_ok, Result.require_eq_ok, Result.pure_eq_ok]
  refine ⟨_, requireRecord_eq_ok.2 ⟨rfl, rfl⟩, (), rfl, _, requireString_eq_ok.2 ⟨rfl, h.bookingId⟩, _,
    requireSafeInteger_eq_ok.2 ⟨rfl, h.bookingVersion⟩, _, hfrom, _, requireStatus_eq_ok.2 rfl, _, requireRecord_eq_ok.2 ⟨rfl, rfl⟩,
    _, requireRecord_eq_ok.2 ⟨rfl, rfl⟩, _, requireSafeInteger_eq_ok.2 ⟨rfl, h.amount, Nat.zero_le _⟩, _,
    requireString_eq_ok.2 ⟨rfl, h.currency.1⟩, (), h.currency.2, _, hprevious, (), decide_eq_true h.transition, (), ?_, (), ?_, _,
    requireStayFields_eq_ok.2 ⟨h.booking, rfl, rfl, rfl, rfl⟩, rfl⟩
  · cases hs : p.previousStay with
    | none => rfl
    | some s => simp [h.stayChange (by rw [hs]; rfl)]
  · cases hs : p.previousStay with
    | none => simp [h.statusChange (by rw [hs]; rfl)]
    | some s => rfl

/-! ### Messages read back -/

theorem plain_stay (s : ReceivedStay) : ∀ f ∈ s.fields, f.2.Plain := by
  intro f hf
  simp only [ReceivedStay.fields, List.mem_cons, List.not_mem_nil, or_false] at hf
  rcases hf with rfl | rfl | rfl | rfl <;> exact .str _

theorem plain_envelope {validator : ClassValidator} {p : BookingLifecyclePayload} (h : p.Valid validator) (row : ClaimedLifecycleRow) :
    (envelope row p).Plain := by
  have hprice : (Json.obj [("amount", .num p.priceAmount), ("currency", .str p.currency)]).Plain := by
    refine .obj (show ["amount", "currency"].Nodup by decide) fun f hf => ?_
    simp only [List.mem_cons, List.not_mem_nil, or_false] at hf
    rcases hf with rfl | rfl
    · exact .num h.amount
    · exact .str _
  have hbooking : (Json.obj (p.booking.fields ++ [("price", .obj [("amount", .num p.priceAmount), ("currency", .str p.currency)])])).Plain := by
    refine .obj (show (stayKeys ++ ["price"]).Nodup by decide) fun f hf => ?_
    rcases List.mem_append.1 hf with hf | hf
    · exact plain_stay _ f hf
    · rw [List.mem_singleton.1 hf]
      exact hprice
  have hone : (Json.num 1).Plain := .num (n := 1) (by decide)
  refine .obj (show (envelopeKeys ++ payloadKeys).Nodup by decide) fun f hf => ?_
  simp only [envelopeFields, BookingLifecyclePayload.fields, List.cons_append, List.nil_append, List.mem_cons, List.not_mem_nil, or_false] at hf
  rcases hf with rfl | rfl | rfl | rfl | rfl | rfl | rfl | rfl | rfl | rfl
  · exact .str _
  · exact .str _
  · exact .str _
  · exact hone
  · exact .str _
  · exact .num h.bookingVersion.1
  · cases p.fromStatus with
    | none => exact .null
    | some status => exact .str _
  · exact .str _
  · exact hbooking
  · cases p.previousStay with
    | none => exact .null
    | some previous => exact .obj (show stayKeys.Nodup by decide) (plain_stay previous)

/-- When a message is accepted, and as what. -/
theorem parseMessage_eq_ok {validator : ClassValidator} {isUUID : String → Bool} {value : Option String} {e : ReceivedBookingLifecycleEvent} :
    parseBookingLifecycleMessage validator isUUID value = .ok e ↔ ∃ record, parseJson (value.getD "") = some (.obj record) ∧
      (field record "eventId" = some (.str e.eventId) ∧ isUUID e.eventId = true) ∧
      field record "eventType" = some (.str bookingLifecycleEventType) ∧
      (field record "occurredAt" = some (.str (String.ofList (isoInstant e.occurredAt))) ∧
        isStorableYear (yearFromDay (e.occurredAt / 86400000)) = true) ∧
      parseBookingLifecyclePayload validator (.obj (record.filter fun f => f.1 ∉ envelopeKeys)) = .ok e.payload := by
  unfold parseBookingLifecycleMessage
  rw [Result.bind_eq_ok]
  constructor
  · rintro ⟨decoded, hdecoded, h⟩
    rw [Result.orThrow_eq_ok] at hdecoded
    cases decoded with
    | obj record =>
      simp only [Result.bind_eq_ok, Result.pure_eq_ok, requireString_eq_ok, requireInstant_eq_ok] at h
      obtain ⟨id, hid, type, ⟨htype, htype'⟩, occurredAt, hoccurred, p, hp, rfl⟩ := h
      exact ⟨record, hdecoded, hid, of_decide_eq_true htype' ▸ htype, hoccurred, hp⟩
    | null | bool | num | str | arr => cases h
  · rintro ⟨record, hdecoded, hid, htype, hoccurred, hp⟩
    refine ⟨.obj record, Result.orThrow_eq_ok.2 hdecoded, ?_⟩
    simp only [Result.bind_eq_ok, Result.pure_eq_ok, requireString_eq_ok, requireInstant_eq_ok]
    exact ⟨_, hid, _, ⟨htype, decide_eq_true rfl⟩, _, hoccurred, _, hp, rfl⟩

/-- **What the relay publishes is accepted**, as the row's own event. -/
theorem parse_toBookingLifecycleMessage {validator : ClassValidator} {isUUID : String → Bool} {row : ClaimedLifecycleRow}
    {p : BookingLifecyclePayload} (h : p.Valid validator) (hid : isUUID row.id = true)
    (hcreated : isStorableYear (yearFromDay (row.createdAt / 86400000)) = true) :
    parseBookingLifecycleMessage validator isUUID (some (toBookingLifecycleMessage row p).value) = .ok ⟨row.id, row.createdAt, p⟩ := by
  have hrest : (envelopeFields row ++ p.fields).filter (fun f => f.1 ∉ envelopeKeys) = p.fields := by
    rw [List.filter_append, List.filter_eq_nil_iff.2 (by simp [envelopeFields, envelopeKeys]), List.nil_append,
      List.filter_eq_self.2 (by simp [BookingLifecyclePayload.fields, envelopeKeys])]
  have hparsed : parseJson ((some (stringify (envelope row p))).getD "") = some (envelope row p) := by
    rw [Option.getD_some, parseJson_stringify (plain_envelope h row)]
  rw [toBookingLifecycleMessage, parseMessage_eq_ok]
  exact ⟨_, hparsed, ⟨rfl, hid⟩, rfl, ⟨rfl, hcreated⟩, by rw [hrest, parse_fields h]⟩

/-- An accepted message keeps the contract. -/
theorem valid_of_message {validator : ClassValidator} {isUUID : String → Bool} {value : Option String} {e : ReceivedBookingLifecycleEvent}
    (h : parseBookingLifecycleMessage validator isUUID value = .ok e) : e.payload.Valid validator := by
  obtain ⟨_, -, -, -, -, hpayload⟩ := parseMessage_eq_ok.1 h
  exact valid_of_parse hpayload

end HotelBackend.Bookings
