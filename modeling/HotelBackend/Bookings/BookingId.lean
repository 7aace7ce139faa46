import HotelBackend.Theory.Positional
import HotelBackend.Theory.Runs
import HotelBackend.Notifications.NotificationEvent

/-!
# Booking identifiers

`createMonotonicBookingId` keeps the last timestamp and the last random tail of the process.
A clock that has moved on takes a fresh tail; one that stands still or goes back keeps the
timestamp and counts the tail up, until it is exhausted. Side by side the two parts are one
number of 128 bits (`UlidState.ordinal`), which every call raises, and the text is that number
in 26 digits of base 32; the alphabet ascends, so texts are ordered as the numbers are.
-/

namespace HotelBackend.Bookings

open HotelBackend.Theory
open HotelBackend.Notifications (publicBookingIdPattern isCrockford)

/-! ### The encoding -/

def ulidAlphabet : String := "0123456789ABCDEFGHJKMNPQRSTVWXYZ"

/-- `ulidAlphabet[i]`; five bits never leave the alphabet. -/
def ulidDigit (i : ℕ) : Char := ulidAlphabet.toList.getD i '0'

/-- The loop of `encodeUlidPart`: `& 31n` and `>>= 5n` are the remainder and the floor of a division
by 32, below zero too. -/
def encodeUlidLoop : ℕ → String → ℤ → String
  | 0, encoded, _ => encoded
  | index + 1, encoded, remaining =>
    encodeUlidLoop index (String.singleton (ulidDigit (remaining % 32).toNat) ++ encoded) (remaining / 32)

def encodeUlidPart (value : ℤ) (length : ℕ) : String := encodeUlidLoop length "" value

/-- `/^[0-7][0-9A-HJKMNP-TV-Z]{25}$/`, which the consumers of an event spell out again. -/
def bookingPublicIdPattern (value : String) : Bool := publicBookingIdPattern value

theorem ulidDigit_lt : ∀ i j, i < j → j < 32 → ulidDigit i < ulidDigit j := by
  have hall : ∀ j < 32, ∀ i < j, ulidDigit i < ulidDigit j := by decide +kernel
  exact fun i j hij hj => hall j hj i hij

/-- What the loop has still to write stands before what it has written. -/
theorem encodeUlidLoop_eq (length : ℕ) (encoded : String) (n : ℕ) :
    encodeUlidLoop length encoded n = String.ofList (Positional.encode 32 ulidDigit length n ++ encoded.toList) := by
  induction length generalizing encoded n with
  | zero => simp [encodeUlidLoop, Positional.encode]
  | succ length ih =>
    have hmod : ((n : ℤ) % 32).toNat = n % 32 := by omega
    have hdiv : (n : ℤ) / 32 = ((n / 32 : ℕ) : ℤ) := by omega
    rw [encodeUlidLoop, hmod, hdiv, ih, Positional.encode]
    simp

theorem encodeUlidPart_eq (n length : ℕ) : encodeUlidPart n length = String.ofList (Positional.encode 32 ulidDigit length n) := by
  rw [encodeUlidPart, encodeUlidLoop_eq]
  simp

/-! ### The generator -/

/-- What `randomBytes(10)` answers. -/
structure RandomBytes where
  bytes : List (Fin 256)
  length_eq : bytes.length = 10

/-- The bytes in hexadecimal, read as a `BigInt`. -/
def RandomBytes.toBigInt (r : RandomBytes) : ℕ := r.bytes.foldl (fun value byte => value * 256 + byte.val) 0

def ulidRandomMaximum : ℕ := 2 ^ 80 - 1

/-- What the module keeps from call to call. -/
structure UlidState where
  lastTimestamp : ℤ
  lastRandom : ℕ
  deriving DecidableEq

/-- As the module is loaded. -/
def UlidState.initial : UlidState := ⟨-1, 0⟩

/-- The identifier of the parts. -/
def UlidState.text (s : UlidState) : String := encodeUlidPart s.lastTimestamp 10 ++ encodeUlidPart s.lastRandom 16

def ulidExhausted : String := "ULID random component exhausted in one millisecond"

/-- What the call returns or throws, and what it leaves in the module. -/
def createMonotonicBookingId (s : UlidState) (now : ℤ) (randomBytes : RandomBytes) : Except String String × UlidState :=
  if s.lastTimestamp < now then
    let s := UlidState.mk now randomBytes.toBigInt
    (.ok s.text, s)
  else if s.lastRandom = ulidRandomMaximum then (.error ulidExhausted, s)
  else
    let s := UlidState.mk s.lastTimestamp (s.lastRandom + 1)
    (.ok s.text, s)

theorem foldl_bytes_lt (bytes : List (Fin 256)) (value : ℕ) :
    bytes.foldl (fun value byte => value * 256 + byte.val) value < (value + 1) * 256 ^ bytes.length := by
  induction bytes generalizing value with
  | nil => simp
  | cons byte bytes ih =>
    have hbyte : value * 256 + byte + 1 ≤ (value + 1) * 256 := by omega
    have hmul := Nat.mul_le_mul_right (256 ^ bytes.length) hbyte
    have hnext := ih (value * 256 + byte)
    rw [List.foldl_cons, List.length_cons, Nat.pow_succ', ← Nat.mul_assoc]
    omega

theorem RandomBytes.toBigInt_le (r : RandomBytes) : r.toBigInt ≤ ulidRandomMaximum := by
  have hlt := foldl_bytes_lt r.bytes 0
  rw [r.length_eq] at hlt
  simp only [RandomBytes.toBigInt, ulidRandomMaximum]
  omega

/-! ### The order of the texts -/

/-- The state has issued an identifier: its parts fit 48 and 80 bits. -/
structure UlidState.Issued (s : UlidState) : Prop where
  nonneg : 0 ≤ s.lastTimestamp
  timestamp : s.lastTimestamp < 2 ^ 48
  random : s.lastRandom ≤ ulidRandomMaximum

/-- The two parts as one number. -/
def UlidState.ordinal (s : UlidState) : ℕ := s.lastTimestamp.toNat * 2 ^ 80 + s.lastRandom

namespace UlidState

variable {s t : UlidState}

theorem Issued.ordinal_lt (h : s.Issued) : s.ordinal < 2 ^ 128 := by
  have h₁ := h.timestamp
  have h₂ := h.random
  simp only [ordinal, ulidRandomMaximum] at h₂ ⊢
  omega

/-- The text is the number in 26 digits. -/
theorem Issued.text_eq (h : s.Issued) : s.text = String.ofList (Positional.encode 32 ulidDigit 26 s.ordinal) := by
  have htimestamp : ((s.lastTimestamp.toNat : ℕ) : ℤ) = s.lastTimestamp := Int.toNat_of_nonneg h.nonneg
  have hrandom : s.lastRandom < 32 ^ 16 := by
    have hle := h.random
    simp only [ulidRandomMaximum] at hle
    omega
  have happend : Positional.encode 32 ulidDigit 10 s.lastTimestamp.toNat ++ Positional.encode 32 ulidDigit 16 s.lastRandom = _ :=
    Positional.encode_append 10 s.lastTimestamp.toNat hrandom
  rw [text, ← htimestamp, encodeUlidPart_eq, encodeUlidPart_eq, ← String.ofList_append, happend]
  rfl

/-- The order of the texts is the order of the parts. -/
theorem Issued.text_lt_iff (hs : s.Issued) (ht : t.Issued) : s.text < t.text ↔ s.ordinal < t.ordinal := by
  have hs' := hs.ordinal_lt
  have ht' := ht.ordinal_lt
  rw [hs.text_eq, ht.text_eq, String.lt_iff_toList_lt, String.toList_ofList, String.toList_ofList]
  apply Positional.encode_lt_encode_iff (by decide) ulidDigit_lt <;> omega

theorem isCrockford_ulidDigit : ∀ i < 32, isCrockford (ulidDigit i) = true := by decide +kernel

theorem ulidDigit_le : ∀ i < 8, '0' ≤ ulidDigit i ∧ ulidDigit i ≤ '7' := by decide +kernel

/-- Three of the 130 bits are never set, so the first digit is at most a seven. -/
theorem Issued.canonical (h : s.Issued) : bookingPublicIdPattern s.text = true := by
  have hhead : s.ordinal / 32 ^ 25 < 8 := Nat.div_lt_of_lt_mul (h.ordinal_lt.trans_le (by decide))
  rw [h.text_eq, bookingPublicIdPattern, publicBookingIdPattern, String.toList_ofList, Positional.encode_succ,
    Nat.mod_eq_of_lt (hhead.trans (by decide))]
  obtain ⟨hzero, hseven⟩ := ulidDigit_le _ hhead
  simp only [hzero, hseven, Positional.length_encode, decide_true, Bool.and_self, Bool.true_and, List.all_eq_true]
  intro c hc
  obtain ⟨i, hi, rfl⟩ := Positional.exists_of_mem_encode (by decide) hc
  exact isCrockford_ulidDigit i hi

end UlidState

/-! ### One call -/

/-- The clock reads between the epoch and the last instant of 48 bits. -/
def InClock (now : ℤ) : Prop := 0 ≤ now ∧ now < 2 ^ 48

instance (now : ℤ) : Decidable (InClock now) := inferInstanceAs (Decidable (_ ∧ _))

/-- A call issues a state after every one before it, or throws and changes nothing. -/
theorem createMonotonicBookingId_cases {s : UlidState} {now : ℤ} (randomBytes : RandomBytes) (hs : s = .initial ∨ s.Issued) (hnow : InClock now) :
    (∃ s' : UlidState, createMonotonicBookingId s now randomBytes = (.ok s'.text, s') ∧ s'.Issued ∧ (s.Issued → s.ordinal < s'.ordinal)) ∨
      (createMonotonicBookingId s now randomBytes = (.error ulidExhausted, s) ∧ s.Issued) := by
  have hrandom := randomBytes.toBigInt_le
  obtain ⟨hzero, hlast⟩ := hnow
  unfold createMonotonicBookingId
  by_cases hclock : s.lastTimestamp < now
  · rw [if_pos hclock]
    refine .inl ⟨_, rfl, ⟨hzero, hlast, hrandom⟩, fun h => ?_⟩
    have hmax := h.random
    simp only [UlidState.ordinal, ulidRandomMaximum] at hmax ⊢
    have hnonneg := h.nonneg
    omega
  · -- only a state that has issued something is not behind the clock
    have hissued : s.Issued := by
      rcases hs with rfl | hs
      · simp only [UlidState.initial] at hclock
        omega
      · exact hs
    rw [if_neg hclock]
    by_cases hmax : s.lastRandom = ulidRandomMaximum
    · rw [if_pos hmax]
      exact .inr ⟨rfl, hissued⟩
    · rw [if_neg hmax]
      have hle := hissued.random
      refine .inl ⟨_, rfl, ⟨hissued.nonneg, hissued.timestamp, by dsimp only; omega⟩, fun _ => ?_⟩
      simp only [UlidState.ordinal]
      omega

/-! ### Any sequence of calls -/

/-- The process: what the module keeps, and what the calls have returned, in their order. -/
structure BookingIds where
  ulid : UlidState
  issued : List String
  deriving DecidableEq

/-- A call at a reading of the clock. -/
structure ClockReading where
  now : ℤ
  randomBytes : RandomBytes

def BookingIds.exec (s : BookingIds) (reading : ClockReading) : Option BookingIds :=
  match createMonotonicBookingId s.ulid reading.now reading.randomBytes with
  | (.ok id, ulid) => some ⟨ulid, s.issued ++ [id]⟩
  | (.error _, ulid) => some ⟨ulid, s.issued⟩

def bookingIds : Machine BookingIds ClockReading where
  init s := s = ⟨.initial, []⟩
  exec := BookingIds.exec

/-- What has been issued are the texts of states that rise up to the present one. -/
structure BookingIds.Inv (s : BookingIds) : Prop where
  ulid : s.ulid = .initial ∨ s.ulid.Issued
  issued : ∃ states : List UlidState, s.issued = states.map (·.text) ∧ states.Pairwise (·.ordinal < ·.ordinal) ∧
    ∀ t ∈ states, t.Issued ∧ s.ulid.Issued ∧ t.ordinal ≤ s.ulid.ordinal

theorem BookingIds.Inv.step {s s' : BookingIds} {reading : ClockReading} (hi : s.Inv) (hnow : InClock reading.now)
    (h : s.exec reading = some s') : s'.Inv := by
  obtain ⟨states, htexts, hrise, hstates⟩ := hi.issued
  unfold exec at h
  rcases createMonotonicBookingId_cases reading.randomBytes hi.ulid hnow with ⟨ulid, hcall, hissued, hlt⟩ | ⟨hcall, -⟩
  · rw [hcall] at h
    obtain rfl := Option.some.inj h
    refine ⟨.inr hissued, states ++ [ulid], by simp [htexts], ?_, ?_⟩
    · rw [List.pairwise_append]
      refine ⟨hrise, List.pairwise_singleton _ _, fun t ht u hu => ?_⟩
      obtain ⟨-, hs, hle⟩ := hstates t ht
      rw [List.mem_singleton.1 hu]
      exact hle.trans_lt (hlt hs)
    · intro t ht
      rcases List.mem_append.1 ht with ht | ht
      · obtain ⟨ht, hs, hle⟩ := hstates t ht
        exact ⟨ht, hissued, hle.trans (hlt hs).le⟩
      · rw [List.mem_singleton.1 ht]
        exact ⟨hissued, hissued, le_rfl⟩
  · rw [hcall] at h
    obtain rfl := Option.some.inj h
    exact ⟨hi.ulid, states, htexts, hrise, hstates⟩

/-- What holds of a process after any sequence of calls. -/
structure StrictlyMonotonic (s : BookingIds) : Prop where
  increasing : s.issued.Pairwise (· < ·)
  canonical : ∀ id ∈ s.issued, bookingPublicIdPattern id = true
  /-- The next call returns one that is greater than all of them, or throws. -/
  next : ∀ now randomBytes, InClock now →
    (∃ id s', createMonotonicBookingId s.ulid now randomBytes = (.ok id, s') ∧ bookingPublicIdPattern id = true ∧ ∀ old ∈ s.issued, old < id) ∨
      createMonotonicBookingId s.ulid now randomBytes = (.error ulidExhausted, s.ulid)

/-- **Booking identifiers are strictly monotonic**, whatever the clock reads and the tails are. -/
theorem booking_ids_monotonic (s : BookingIds) (h : bookingIds.Reachable (fun _ reading => InClock reading.now) s) : StrictlyMonotonic s := by
  have hi : s.Inv := by
    apply h.invariant
    · rintro _ rfl
      exact ⟨.inl rfl, [], rfl, .nil, fun _ ht => absurd ht List.not_mem_nil⟩
    · exact fun _ _ _ hi hnow he => hi.step hnow he
  obtain ⟨states, htexts, hrise, hstates⟩ := hi.issued
  refine ⟨?_, ?_, fun now randomBytes hnow => ?_⟩
  · rw [htexts, List.pairwise_map]
    apply hrise.imp_of_mem
    exact fun ht hu hlt => ((hstates _ ht).1.text_lt_iff (hstates _ hu).1).2 hlt
  · rw [htexts]
    rintro id hid
    obtain ⟨t, ht, rfl⟩ := List.mem_map.1 hid
    exact (hstates t ht).1.canonical
  · rcases createMonotonicBookingId_cases randomBytes hi.ulid hnow with ⟨ulid, hcall, hissued, hlt⟩ | ⟨hcall, -⟩
    · refine .inl ⟨_, _, hcall, hissued.canonical, ?_⟩
      rw [htexts]
      rintro old hold
      obtain ⟨t, ht, rfl⟩ := List.mem_map.1 hold
      obtain ⟨ht, hs, hle⟩ := hstates t ht
      exact (ht.text_lt_iff hissued).2 (hle.trans_lt (hlt hs))
    · exact .inr hcall

/-- Ten equal bytes. -/
def RandomBytes.replicate (byte : Fin 256) : RandomBytes := ⟨List.replicate 10 byte, List.length_replicate⟩

/-- The clock stands still, goes back, moves on to the greatest tail, which two calls find exhausted, and moves on again. -/
def unsteadyClock : List ClockReading :=
  [⟨5, .replicate 0⟩, ⟨5, .replicate 1⟩, ⟨3, .replicate 2⟩, ⟨6, .replicate 255⟩, ⟨6, .replicate 0⟩, ⟨2, .replicate 0⟩, ⟨7, .replicate 0⟩]

theorem booking_ids_monotonic_unsteadyClock :
    ∃ s, bookingIds.check (fun _ reading => InClock reading.now) ⟨.initial, []⟩ unsteadyClock = some s ∧
      s.issued = ["00000000050000000000000000", "00000000050000000000000001", "00000000050000000000000002",
        "0000000006ZZZZZZZZZZZZZZZZ", "00000000070000000000000000"] ∧ StrictlyMonotonic s := by
  have hissued : (bookingIds.check (fun _ reading => InClock reading.now) ⟨.initial, []⟩ unsteadyClock).map (·.issued) =
      some ["00000000050000000000000000", "00000000050000000000000001", "00000000050000000000000002",
        "0000000006ZZZZZZZZZZZZZZZZ", "00000000070000000000000000"] := by decide +kernel
  obtain ⟨s, hs, hissued⟩ := Option.map_eq_some_iff.1 hissued
  exact ⟨s, hs, hissued, booking_ids_monotonic s (.of_check (.init rfl) hs)⟩

end HotelBackend.Bookings
