import Mathlib.Data.Nat.Notation

/-!
# Rooms and their windows

The rows of `rooms` and `room_times`. A room time is a window `[availableFrom,
availableTo)` in which the room can be booked. Ids are the `BIGINT` keys; dates are
hotel dates, whose order as strings is their order in time.
-/

namespace HotelBackend.Rooms

/-- Whether a room takes bookings. -/
inductive RoomStatus where
  | active
  | inactive
  | maintenance
  deriving DecidableEq, Repr

/-- Whether a window takes bookings. -/
inductive RoomTimeStatus where
  | active
  | inactive
  deriving DecidableEq, Repr

/-- A row of `rooms`, as a locking read of it returns it. -/
structure Room where
  id : ℕ
  roomTypeId : ℕ
  roomNumber : String
  basePriceAmount : ℕ
  currency : String
  status : RoomStatus
  deriving DecidableEq, Repr

/-- A row of `room_times`. -/
structure RoomTime where
  id : ℕ
  roomId : ℕ
  availableFrom : String
  availableTo : String
  status : RoomTimeStatus
  deriving DecidableEq, Repr

/-- A row of `room_types`, as far as a booking response names it. -/
structure RoomType where
  id : ℕ
  name : String
  deriving DecidableEq, Repr

/-- Two half-open ranges `[from, to)` of dates share a day. -/
def overlaps (from₁ to₁ from₂ to₂ : String) : Prop := from₁ < to₂ ∧ from₂ < to₁

instance (from₁ to₁ from₂ to₂ : String) : Decidable (overlaps from₁ to₁ from₂ to₂) :=
  inferInstanceAs (Decidable (_ ∧ _))

/-- The window covers the stay `[checkIn, checkOut)`. -/
def RoomTime.covers (t : RoomTime) (checkIn checkOut : String) : Prop :=
  t.availableFrom ≤ checkIn ∧ checkOut ≤ t.availableTo

instance (t : RoomTime) (checkIn checkOut : String) : Decidable (t.covers checkIn checkOut) :=
  inferInstanceAs (Decidable (_ ∧ _))

end HotelBackend.Rooms
