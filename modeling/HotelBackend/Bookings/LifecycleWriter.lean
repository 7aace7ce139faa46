import HotelBackend.Bookings.LifecycleCodec
import HotelBackend.Bookings.Entries

/-!
# What the recorder writes, the relay reads

The payload that a booking transaction writes is built from the booking and its room, and
`parseBookingLifecyclePayload` is the relay's gate on it. A change of a booking that the service lets through
(`SoundChange`) passes the gate as long as its version is an exact number in JavaScript, and not beyond
(`parse_toBookingLifecyclePayload`).
-/

namespace HotelBackend.Bookings

open HotelBackend.Common
open HotelBackend.Theory
open HotelBackend.Rooms
open HotelBackend.Notifications (ClassValidator publicBookingIdPattern decimalIdPattern currencyPattern hotelDatePattern field)

/-! ### Ids in decimal -/

theorem digitsValue_toString (n : ℕ) : digitsValue (toString n).toList = n := by
  rw [Nat.toString_eq_repr, Nat.toList_repr]
  exact Nat.ofDigitChars_ten_toDigits

/-- A number from one on does not start with a zero. -/
theorem toDigits_head {n : ℕ} (h : 1 ≤ n) : ∃ c cs, Nat.toDigits 10 n = c :: cs ∧ '1' ≤ c ∧ c ≤ '9' := by
  induction n using Nat.strong_induction_on with
  | _ n ih =>
    rw [Nat.toDigits_eq_if (by decide)]
    split
    case isTrue hlt =>
      have hall : ∀ n < 10, 1 ≤ n → '1' ≤ n.digitChar ∧ n.digitChar ≤ '9' := by decide
      exact ⟨_, [], rfl, hall n hlt h⟩
    case isFalse hge =>
      obtain ⟨c, cs, hcs, hc⟩ := ih (n / 10) (by omega) (by omega)
      exact ⟨c, cs ++ [Nat.digitChar (n % 10)], by rw [hcs, List.cons_append], hc⟩

/-- An id of a `BIGINT UNSIGNED` column, as it is spelled. -/
theorem isStoredId_toString {n : ℕ} (h : 1 ≤ n) (hn : n ≤ maxUnsignedBigint) : isStoredId (toString n) = true := by
  obtain ⟨c, cs, hcs, hc⟩ := toDigits_head h
  have hlength : (Nat.toDigits 10 n).length ≤ 20 := (Nat.length_toDigits_le_iff (by decide) (by decide)).2 (hn.trans_lt (by decide))
  have hdigits : (c :: cs).all isDigit = true := by
    refine List.all_eq_true.2 fun d hd => ?_
    have hdigit := Nat.isDigit_of_mem_toDigits (n := n) (by decide) (by decide) (hcs ▸ hd)
    simp only [Char.isDigit, Bool.and_eq_true, decide_eq_true_eq] at hdigit
    simp only [isDigit, Bool.and_eq_true, decide_eq_true_eq]
    exact hdigit
  rw [isStoredId, Bool.and_eq_true, digitsValue_toString, decide_eq_true_eq]
  refine ⟨?_, hn⟩
  rw [decimalIdPattern, Nat.toString_eq_repr, Nat.toList_repr, hcs]
  rw [hcs, List.length_cons] at hlength
  rw [List.all_cons, Bool.and_eq_true] at hdigits
  simp only [Bool.and_eq_true, decide_eq_true_eq]
  exact ⟨⟨hc, by omega⟩, hdigits.2⟩

/-! ### Sound changes -/

/-- A room as the columns and the room administration keep it. -/
structure LegalRoom (validator : ClassValidator) (room : Room) : Prop where
  id : 1 ≤ room.id ∧ room.id ≤ maxUnsignedBigint
  roomTypeId : 1 ≤ room.roomTypeId ∧ room.roomTypeId ≤ maxUnsignedBigint
  currency : currencyPattern room.currency = true ∧ validator.isISO4217CurrencyCode room.currency = true

/-- Dates that a guest may stay. -/
structure SoundStay (checkIn checkOut : String) : Prop where
  first : isLifecycleDate checkIn = true
  last : isLifecycleDate checkOut = true
  nights : checkIn < checkOut

/-- A booking of a hotel with these rooms. -/
structure SoundBooking (rooms : List Room) (b : Booking) : Prop where
  stay : SoundStay b.checkIn b.checkOut
  price : b.priceAmount ≤ maxSafeInteger
  currency : ∃ room ∈ rooms, room.currency = b.currency
  version : 1 ≤ b.version

/-- A change that the service lets through. -/
structure SoundChange (rooms : List Room) (change : BookingLifecycleChange) : Prop where
  booking : SoundBooking rooms change.booking
  room : ∃ room ∈ rooms, change.room = ⟨room.id, room.roomTypeId⟩
  transition : (change.fromStatus, change.booking.status) ∈ bookingLifecycleTransitions
  previousStay : ∀ s, change.previousStay = some s →
    SoundStay s.checkIn s.checkOut ∧ ∃ room ∈ rooms, s.roomId = room.id ∧ s.roomTypeId = room.roomTypeId
  moved : change.previousStay.isSome = true ↔ change.fromStatus = some change.booking.status

/-- A stay as it is received. -/
def BookingLifecycleStay.received (s : BookingLifecycleStay) : ReceivedStay :=
  ⟨toString s.roomId, toString s.roomTypeId, s.checkIn, s.checkOut⟩

/-- A change as it is received. -/
def BookingLifecycleChange.received (c : BookingLifecycleChange) : BookingLifecyclePayload where
  bookingId := c.booking.publicId
  bookingVersion := c.booking.version
  fromStatus := c.fromStatus
  toStatus := c.booking.status
  booking := BookingLifecycleStay.received ⟨c.room.id, c.room.roomTypeId, c.booking.checkIn, c.booking.checkOut⟩
  priceAmount := c.booking.priceAmount
  currency := c.booking.currency
  previousStay := c.previousStay.map (·.received)

section Sound

variable {validator : ClassValidator} {rooms : List Room} {change : BookingLifecycleChange}

/-- What is written is what is received, if its numbers are exact. -/
theorem toBookingLifecyclePayload_eq (hversion : change.booking.version ≤ maxSafeInteger) (hprice : change.booking.priceAmount ≤ maxSafeInteger) :
    toBookingLifecyclePayload change = .obj change.received.fields := by
  rw [toBookingLifecyclePayload, jsNumber_of_le hversion, jsNumber_of_le hprice]
  obtain ⟨booking, room, fromStatus, previousStay⟩ := change
  cases previousStay <;> rfl

theorem SoundStay.received (hrooms : ∀ room ∈ rooms, LegalRoom validator room) {s : BookingLifecycleStay} (hstay : SoundStay s.checkIn s.checkOut)
    {room : Room} (hroom : room ∈ rooms) (hid : s.roomId = room.id ∧ s.roomTypeId = room.roomTypeId) : s.received.Valid where
  checkIn := hstay.first
  checkOut := hstay.last
  nights := hstay.nights
  roomId := isStoredId_toString (hid.1 ▸ (hrooms room hroom).id.1) (hid.1 ▸ (hrooms room hroom).id.2)
  roomTypeId := isStoredId_toString (hid.2 ▸ (hrooms room hroom).roomTypeId.1) (hid.2 ▸ (hrooms room hroom).roomTypeId.2)

/-- A sound change keeps the contract, if its version is exact. -/
theorem SoundChange.valid (h : SoundChange rooms change) (hrooms : ∀ room ∈ rooms, LegalRoom validator room)
    (hid : publicBookingIdPattern change.booking.publicId = true) (hversion : change.booking.version ≤ maxSafeInteger) :
    change.received.Valid validator where
  bookingId := hid
  bookingVersion := ⟨hversion, h.booking.version⟩
  amount := h.booking.price
  currency := by
    obtain ⟨room, hroom, heq⟩ := h.booking.currency
    show currencyPattern change.booking.currency = true ∧ validator.isISO4217CurrencyCode change.booking.currency = true
    rw [← heq]
    exact (hrooms room hroom).currency
  booking := by
    obtain ⟨room, hroom, heq⟩ := h.room
    exact h.booking.stay.received hrooms hroom ⟨congrArg LifecycleRoom.id heq, congrArg LifecycleRoom.roomTypeId heq⟩
  previousStay s hs := by
    obtain ⟨previous, hprevious, rfl⟩ := Option.map_eq_some_iff.1 hs
    obtain ⟨hstay, room, hroom, hroomId⟩ := h.previousStay previous hprevious
    exact hstay.received hrooms hroom hroomId
  transition := h.transition
  stayChange hsome := h.moved.1 (by simpa [BookingLifecycleChange.received] using hsome)
  statusChange hnone hsame := by
    have hsome := h.moved.2 hsame
    simp [BookingLifecycleChange.received] at hnone
    rw [hnone] at hsome
    cases hsome

/-- The payload of a sound change passes the gate exactly as long as its version is exact. -/
theorem parse_toBookingLifecyclePayload (h : SoundChange rooms change) (hrooms : ∀ room ∈ rooms, LegalRoom validator room)
    (hid : publicBookingIdPattern change.booking.publicId = true) :
    (∃ p, parseBookingLifecyclePayload validator (toBookingLifecyclePayload change) = .ok p) ↔ change.booking.version ≤ maxSafeInteger := by
  constructor
  · rintro ⟨p, hp⟩
    have hvalid := valid_of_parse hp
    have hread := (payload_reorders hp).of_mem (f := ("bookingVersion", .num (jsNumber change.booking.version)))
      (g := ("bookingVersion", .num p.bookingVersion)) (by simp) (by simp [BookingLifecyclePayload.fields]) rfl
    have hnumber : ((jsNumber change.booking.version : ℕ) : ℚ) = (p.bookingVersion : ℕ) := by
      generalize ((jsNumber change.booking.version : ℕ) : ℚ) = q at hread
      generalize ((p.bookingVersion : ℕ) : ℚ) = q' at hread
      cases hread
      rfl
    rw [← jsNumber_le_iff, Nat.cast_inj.1 hnumber]
    exact hvalid.bookingVersion.1
  · intro hversion
    rw [toBookingLifecyclePayload_eq hversion h.booking.price]
    exact ⟨_, parse_fields (h.valid hrooms hid hversion)⟩

end Sound

end HotelBackend.Bookings
