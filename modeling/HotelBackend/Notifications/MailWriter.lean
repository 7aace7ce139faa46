import HotelBackend.Bookings.LatestRow

/-!
# What the booking service mails about, the workers read

The payload of a mail intent is built by the booking transactions and read by `parseNotificationEvent` in another
process. Two texts in it are free: the room number and the reason. A mail about a booking that the service lets
through is read as it was written if these are legible and the version is exact, and else it is refused with the
path of the field (`parse_written`). In every state that the calls can reach each mail row is such a mail, of the
booking as the lifecycle row of that version tells it (`mails_read`).
-/

namespace HotelBackend.Notifications

open HotelBackend.Common
open HotelBackend.Theory
open HotelBackend.Theory.Transactions
open HotelBackend.Bookings
open HotelBackend.Rooms (Room)
open HotelBackend.Outbox

/-! ### Texts that are always accepted -/

/-- Printable ASCII. -/
def Plain (text : String) : Prop := ∀ c ∈ text.toList, 32 ≤ c.toNat ∧ c.toNat < 127

theorem plain_digit {c : Char} (h : isDigit c = true) : 32 ≤ c.toNat ∧ c.toNat < 127 := by
  rw [isDigit, Bool.and_eq_true, decide_eq_true_eq, decide_eq_true_eq] at h
  have hlow : 48 ≤ c.toNat := h.1
  have hhigh : c.toNat ≤ 57 := h.2
  omega

theorem plain_crockford {c : Char} (h : isCrockford c = true) : 32 ≤ c.toNat ∧ c.toNat < 127 := by
  simp only [isCrockford, Bool.or_eq_true, Bool.and_eq_true, decide_eq_true_eq] at h
  rcases h with (((h | h) | h) | h) | h
  · exact plain_digit h
  · have hlow : 65 ≤ c.toNat := h.1
    have hhigh : c.toNat ≤ 72 := h.2
    omega
  · simp only [List.mem_cons, List.not_mem_nil, or_false] at h
    rcases h with rfl | rfl | rfl | rfl <;> decide
  · have hlow : 80 ≤ c.toNat := h.1
    have hhigh : c.toNat ≤ 84 := h.2
    omega
  · have hlow : 86 ≤ c.toNat := h.1
    have hhigh : c.toNat ≤ 90 := h.2
    omega

/-- A plain text of the right length that matches is accepted. -/
theorem accepted_of_plain {text : String} {minimum maximum : ℕ} {pattern : String → Bool} (h : Plain text)
    (hlength : minimum ≤ text.toList.length ∧ text.toList.length ≤ maximum) (hpattern : pattern text = true) :
    isAcceptedString text minimum maximum pattern false = true := by
  have hsize : utf16Length text = text.toList.length := by
    conv_lhs => rw [← String.ofList_toList (s := text)]
    exact utf16Length_ofList fun c hc => (h c hc).2.trans (by decide)
  have hcontrol : hasUnsafeBodyControl text = false := List.any_eq_false.2 fun c hc hunsafe => by
    have hrange := h c hc
    simp only [isUnsafeControl, Bool.or_eq_true, Bool.and_eq_true, decide_eq_true_eq] at hunsafe
    omega
  simp [isAcceptedString, hsize, hcontrol, hlength, hpattern]

theorem accepted_decimalId {id : String} (h : decimalIdPattern id = true) : isAcceptedString id 1 20 decimalIdPattern false = true := by
  have hdigits := digits_of_decimalId h
  refine accepted_of_plain (fun c hc => plain_digit (List.all_eq_true.1 hdigits c hc)) ?_ h
  unfold decimalIdPattern at h
  split at h
  case h_1 c cs heq =>
    simp only [Bool.and_eq_true, decide_eq_true_eq] at h
    rw [heq, List.length_cons]
    omega
  case h_2 => cases h

theorem accepted_publicBookingId {id : String} (h : publicBookingIdPattern id = true) :
    isAcceptedString id 26 26 publicBookingIdPattern false = true := by
  have hpattern := h
  unfold publicBookingIdPattern at h
  split at h
  case h_1 c cs heq =>
    simp only [Bool.and_eq_true, decide_eq_true_eq] at h
    obtain ⟨⟨⟨hlow, hhigh⟩, hlength⟩, hrest⟩ := h
    refine accepted_of_plain (fun d hd => ?_) ?_ hpattern
    · rcases List.mem_cons.1 (heq ▸ hd) with rfl | hd
      · have hlow : 48 ≤ d.toNat := hlow
        have hhigh : d.toNat ≤ 55 := hhigh
        omega
      · exact plain_crockford (List.all_eq_true.1 hrest d hd)
    · rw [heq, List.length_cons, hlength]
      exact ⟨le_rfl, le_rfl⟩
  case h_2 => cases h

theorem accepted_currency {currency : String} (h : currencyPattern currency = true) : isAcceptedString currency 3 3 currencyPattern false = true := by
  have hpattern := h
  rw [currencyPattern, Bool.and_eq_true, decide_eq_true_eq, List.all_eq_true] at h
  refine accepted_of_plain (fun c hc => ?_) ⟨h.1.ge, h.1.le⟩ hpattern
  have hrange := h.2 c hc
  rw [Bool.and_eq_true, decide_eq_true_eq, decide_eq_true_eq] at hrange
  have hlow : 65 ≤ c.toNat := hrange.1
  have hhigh : c.toNat ≤ 90 := hrange.2
  omega

theorem accepted_hotelDate {date : String} (h : hotelDatePattern date = true) : isAcceptedString date 10 10 hotelDatePattern false = true := by
  have hpattern := h
  rw [hotelDatePattern, Bool.and_eq_true] at h
  have hmatch := h.1
  unfold matchDate at hmatch
  split at hmatch
  case h_1 heq =>
    split at hmatch
    case isTrue hdigits =>
      simp only [List.all_cons, List.all_nil, Bool.and_true, Bool.and_eq_true] at hdigits
      refine accepted_of_plain (fun x hx => ?_) (by rw [heq]; exact ⟨le_rfl, le_rfl⟩) hpattern
      rw [heq] at hx
      simp only [List.mem_cons, List.not_mem_nil, or_false] at hx
      have hhyphen : 32 ≤ '-'.toNat ∧ '-'.toNat < 127 := by decide
      rcases hx with rfl | rfl | rfl | rfl | rfl | rfl | rfl | rfl | rfl | rfl
      all_goals first
        | exact hhyphen
        | exact plain_digit (by simp only [hdigits])
    case isFalse => cases hmatch
  case h_2 => cases hmatch

/-! ### Mails -/

/-- What a mail is about, beside the booking and its room. -/
inductive MailIntent where
  | confirmed
  | rejected (reason : String)
  | changed (reason : String) (before : BookingChangeOutboxEndpoint)
  | cancelledByAdmin (reason : String)

namespace MailIntent

def eventType : MailIntent → BookingOutboxEventType
  | confirmed => .confirmed
  | rejected _ => .rejected
  | changed .. => .changed
  | cancelledByAdmin _ => .cancelledByAdmin

def reason : MailIntent → Option String
  | confirmed => none
  | rejected reason | changed reason _ | cancelledByAdmin reason => some reason

/-- The statuses of a booking that is mailed about. -/
def statuses : MailIntent → List BookingStatus
  | confirmed => [.confirmed]
  | rejected _ => [.rejected]
  | changed .. => [.pending, .confirmed]
  | cancelledByAdmin _ => [.cancelledByAdmin]

/-- The stay of the booking. -/
def after (b : Booking) (room : Room) : BookingChangeOutboxEndpoint := ⟨room.id, b.checkIn, b.checkOut⟩

def change (m : MailIntent) (b : Booking) (room : Room) : Option BookingChangeOutboxDetail :=
  match m with
  | changed _ before => some ⟨before, after b room⟩
  | _ => none

/-- As the service writes it. -/
def event (m : MailIntent) (b : Booking) (room : Room) (x : Supply) : OutboxEvent :=
  mailEvent b m.eventType ⟨room.id, room.roomNumber⟩ m.reason (m.change b room) x

/-- As a worker reads it. -/
def received (m : MailIntent) (b : Booking) (room : Room) : NotificationEvent :=
  let base : NotificationEventBase := ⟨b.publicId, toString b.userId, b.version⟩
  let booking : NotificationBookingSnapshot :=
    ⟨⟨toString room.id, room.roomNumber⟩, b.checkIn, b.checkOut, b.status, ⟨b.priceAmount, b.currency⟩⟩
  let endpoint (e : BookingChangeOutboxEndpoint) : NotificationChangeEndpoint := ⟨toString e.roomId, e.checkIn, e.checkOut⟩
  match m with
  | confirmed => .confirmed base booking
  | rejected reason => .rejected base { booking with reason := reason }
  | changed reason before => .changed base { booking with reason := reason } (endpoint before) (endpoint (after b room))
  | cancelledByAdmin reason => .cancelledByAdmin base { booking with reason := reason }

end MailIntent

/-- A text that a mail may carry: not empty, not too long, trimmed, and without control characters. -/
def legible (maximum : ℕ) (text : String) : Bool := isAcceptedString text 1 maximum anyString true

/-- What a worker makes of a mail. -/
def MailIntent.read (m : MailIntent) (b : Booking) (room : Room) : Except NotificationEventError NotificationEvent :=
  if maxSafeInteger < b.version then .error (invalid "bookingVersion")
  else if !legible 50 room.roomNumber then .error (invalid "booking.room.roomNumber")
  else if !m.reason.all (legible 1000) then .error (invalid "booking.reason")
  else .ok (m.received b room)

/-- A mail that the service lets through, of a hotel with these rooms. -/
structure SoundMail (rooms : List Room) (m : MailIntent) (b : Booking) (room : Room) : Prop where
  booking : SoundBooking rooms b
  house : room ∈ rooms
  status : b.status ∈ m.statuses
  before : ∀ reason e, m = .changed reason e → SoundStay e.checkIn e.checkOut ∧ (∃ source ∈ rooms, e.roomId = source.id) ∧
    ¬ (e.roomId = room.id ∧ e.checkIn = b.checkIn ∧ e.checkOut = b.checkOut)

section Read

variable {validator : ClassValidator} {rooms : List Room} {m : MailIntent} {b : Booking} {room : Room}

theorem requireString_written {text path : String} {minimum maximum : ℕ} {pattern : String → Bool} {trimmed : Bool}
    (h : isAcceptedString text minimum maximum pattern trimmed = true) :
    requireString (some (.str text)) path minimum maximum pattern trimmed = .ok text := requireString_eq_ok.2 ⟨rfl, h⟩

theorem requireSafeInteger_written {n minimum : ℕ} (path : String) (hn : n ≤ maxSafeInteger) (hmin : minimum ≤ n) :
    requireSafeInteger (some (.num (jsNumber n))) path minimum = .ok n := by
  have hle : ((minimum : ℚ) ≤ n) := Nat.cast_le.2 hmin
  rw [jsNumber_of_le hn, requireSafeInteger, (isSafeInteger_natCast n).2 hn]
  simp [hle]

theorem requireHotelDate_written {date : String} (path : String) (h : isLifecycleDate date = true) :
    requireHotelDate (some (.str date)) path = .ok date := by
  rw [isLifecycleDate, Bool.and_eq_true] at h
  rw [requireHotelDate, requireString_written (accepted_hotelDate h.1)]
  show (Result.require _ _ >>= fun _ => _) = _
  rw [h.2]
  rfl

theorem requireCurrency_written {currency : String} (h : currencyPattern currency = true ∧ validator.isISO4217CurrencyCode currency = true) :
    requireCurrency validator (some (.str currency)) = .ok currency := by
  rw [requireCurrency, requireString_written (accepted_currency h.1)]
  show (Result.require _ _ >>= fun _ => _) = _
  rw [h.2]
  rfl

theorem requireId_written {id : ℕ} (path : String) (h : 1 ≤ id ∧ id ≤ maxUnsignedBigint) :
    requireString (some (.str (toString id))) path 1 20 decimalIdPattern false = .ok (toString id) :=
  requireString_written (accepted_decimalId (Bool.and_eq_true_iff.1 (isStoredId_toString h.1 h.2)).1)

theorem status_text_injective {status status' : BookingStatus} (h : status.text = status'.text) : status = status' := by
  cases status <;> cases status' <;> first | rfl | exact absurd h (by decide)

theorem requireEnum_written {status : BookingStatus} {allowed : List BookingStatus} (path : String) (h : status ∈ allowed) :
    requireEnum (some (.str status.text)) path allowed = .ok status := by
  have hunique : Table.UniqueBy BookingStatus.text allowed := fun _ _ _ _ htext => status_text_injective htext
  exact Result.orThrow_eq_ok.2 (Table.find?_of_key hunique h (decide_eq_true rfl) fun _ htext => of_decide_eq_true htext)

/-- The booking of a payload. -/
def bookingFields (b : Booking) (room : Room) (reason : Option String) : List (String × Json) :=
  [("room", .obj [("id", .str (toString room.id)), ("roomNumber", .str room.roomNumber)]), ("checkIn", .str b.checkIn),
    ("checkOut", .str b.checkOut), ("status", .str b.status.text),
    ("price", .obj [("amount", .num (jsNumber b.priceAmount)), ("currency", .str b.currency)])] ++ (reason.map fun r => ("reason", Json.str r)).toList

/-- The room number is the one text of it that may be refused. -/
theorem requireBookingSnapshot_written (hrooms : ∀ room ∈ rooms, LegalRoom validator room) (hbooking : SoundBooking rooms b) (hroom : room ∈ rooms)
    {allowed : List BookingStatus} (hstatus : b.status ∈ allowed) (reason : Option String) :
    requireBookingSnapshot validator (some (.obj (bookingFields b room reason))) allowed reason.isSome =
      if legible 50 room.roomNumber then
        .ok (⟨⟨toString room.id, room.roomNumber⟩, b.checkIn, b.checkOut, b.status, ⟨b.priceAmount, b.currency⟩⟩, bookingFields b room reason)
      else .error (invalid "booking.room.roomNumber") := by
  generalize hfields : bookingFields b room reason = fields
  have hkeys : requireExactKeys fields (if reason.isSome then bookingKeys ++ ["reason"] else bookingKeys) "booking" = .ok () := by
    subst hfields
    cases reason <;> rfl
  obtain ⟨hroomField, hprice, hcheckIn, hcheckOut, hstatusField⟩ :
      field fields "room" = some (.obj [("id", .str (toString room.id)), ("roomNumber", .str room.roomNumber)]) ∧
      field fields "price" = some (.obj [("amount", .num (jsNumber b.priceAmount)), ("currency", .str b.currency)]) ∧
      field fields "checkIn" = some (.str b.checkIn) ∧ field fields "checkOut" = some (.str b.checkOut) ∧
      field fields "status" = some (.str b.status.text) := by
    subst hfields
    exact ⟨rfl, rfl, rfl, rfl, rfl⟩
  have hnights : Result.require (decide (b.checkIn < b.checkOut)) (invalid "booking.checkOut") = .ok () :=
    Result.require_eq_ok.2 (decide_eq_true hbooking.stay.nights)
  have hcurrency : currencyPattern b.currency = true ∧ validator.isISO4217CurrencyCode b.currency = true := by
    obtain ⟨other, hother, heq⟩ := hbooking.currency
    exact heq ▸ (hrooms other hother).currency
  have hroomFields : ∀ id text : Json, requireExactKeys [("id", id), ("roomNumber", text)] ["id", "roomNumber"] "booking.room" = .ok () ∧
      field [("id", id), ("roomNumber", text)] "id" = some id ∧ field [("id", id), ("roomNumber", text)] "roomNumber" = some text :=
    fun _ _ => ⟨rfl, rfl, rfl⟩
  have hpriceFields : ∀ amount currency : Json,
      requireExactKeys [("amount", amount), ("currency", currency)] ["amount", "currency"] "booking.price" = .ok () ∧
      field [("amount", amount), ("currency", currency)] "amount" = some amount ∧
      field [("amount", amount), ("currency", currency)] "currency" = some currency := fun _ _ => ⟨rfl, rfl, rfl⟩
  have hnumber : requireString (some (.str room.roomNumber)) "booking.room.roomNumber" 1 50 anyString true =
      if legible 50 room.roomNumber then .ok room.roomNumber else .error (invalid "booking.room.roomNumber") := rfl
  simp only [requireBookingSnapshot, requireRecord, hkeys, hroomField, hprice, hcheckIn, hcheckOut, hstatusField, hroomFields, hpriceFields,
    requireHotelDate_written _ hbooking.stay.first, requireHotelDate_written _ hbooking.stay.last, hnights, requireEnum_written _ hstatus,
    requireId_written _ (hrooms room hroom).id, requireSafeInteger_written _ hbooking.price (Nat.zero_le _), requireCurrency_written hcurrency,
    hnumber, Result.ok_bind]
  split
  · rfl
  · rfl

/-- Then the reason may be. -/
theorem requireBookingSnapshotWithReason_written (hrooms : ∀ room ∈ rooms, LegalRoom validator room) (hbooking : SoundBooking rooms b)
    (hroom : room ∈ rooms) {allowed : List BookingStatus} (hstatus : b.status ∈ allowed) (reason : String) :
    requireBookingSnapshotWithReason validator (some (.obj (bookingFields b room (some reason)))) allowed =
      if !legible 50 room.roomNumber then .error (invalid "booking.room.roomNumber")
      else if !legible 1000 reason then .error (invalid "booking.reason")
      else .ok ⟨⟨⟨toString room.id, room.roomNumber⟩, b.checkIn, b.checkOut, b.status, ⟨b.priceAmount, b.currency⟩⟩, reason⟩ := by
  have hsnapshot := requireBookingSnapshot_written hrooms hbooking hroom hstatus (some reason)
  have hreason : requireString (field (bookingFields b room (some reason)) "reason") "booking.reason" 1 1000 anyString true =
      if legible 1000 reason then .ok reason else .error (invalid "booking.reason") := rfl
  rw [Option.isSome_some] at hsnapshot
  rw [requireBookingSnapshotWithReason, hsnapshot]
  cases hnumber : legible 50 room.roomNumber with
  | false => rfl
  | true =>
    simp only [if_true, Result.ok_bind, hreason]
    cases hlegible : legible 1000 reason with
    | false => rfl
    | true => rfl

theorem requireChangeEndpoint_written {e : BookingChangeOutboxEndpoint} (path : String) (hstay : SoundStay e.checkIn e.checkOut)
    (hid : 1 ≤ e.roomId ∧ e.roomId ≤ maxUnsignedBigint) : requireChangeEndpoint (some e.toJson) path = .ok ⟨toString e.roomId, e.checkIn, e.checkOut⟩ := by
  have hfields : ∀ id checkIn checkOut : Json,
      requireExactKeys [("roomId", id), ("checkIn", checkIn), ("checkOut", checkOut)] ["roomId", "checkIn", "checkOut"] path = .ok () ∧
      field [("roomId", id), ("checkIn", checkIn), ("checkOut", checkOut)] "roomId" = some id ∧
      field [("roomId", id), ("checkIn", checkIn), ("checkOut", checkOut)] "checkIn" = some checkIn ∧
      field [("roomId", id), ("checkIn", checkIn), ("checkOut", checkOut)] "checkOut" = some checkOut := fun _ _ _ => ⟨rfl, rfl, rfl, rfl⟩
  have hnights : ∀ error : NotificationEventError, Result.require (decide (e.checkIn < e.checkOut)) error = .ok () :=
    fun _ => Result.require_eq_ok.2 (decide_eq_true hstay.nights)
  simp only [requireChangeEndpoint, BookingChangeOutboxEndpoint.toJson, requireRecord, hfields, requireHotelDate_written _ hstay.first,
    requireHotelDate_written _ hstay.last, hnights, requireId_written _ hid, Result.ok_bind]
  rfl

/-! ### A mail, read -/

theorem toString_id_injective {n k : ℕ} (h : toString n = toString k) : n = k := by
  rw [← digitsValue_toString n, h, digitsValue_toString]

/-- The base of a mail: a version that is not exact is refused. -/
theorem requireBase_written (fields : List (String × Json)) (hfields : field fields "bookingId" = some (.str b.publicId) ∧
      field fields "ownerUserId" = some (.str (toString b.userId)) ∧ field fields "bookingVersion" = some (.num (jsNumber b.version)))
    (hid : publicBookingIdPattern b.publicId = true) (howner : 1 ≤ b.userId ∧ b.userId ≤ maxUnsignedBigint) (hversion : 1 ≤ b.version) :
    requireBase fields =
      if maxSafeInteger < b.version then .error (invalid "bookingVersion") else .ok ⟨b.publicId, toString b.userId, b.version⟩ := by
  simp only [requireBase, hfields, requireString_written (accepted_publicBookingId hid), requireId_written _ howner, Result.ok_bind]
  split
  case isTrue hlt =>
    have hunsafe : isSafeInteger (jsNumber b.version : ℚ) = false := by
      rw [Bool.eq_false_iff]
      intro hsafe
      exact absurd ((isSafeInteger_natCast _).1 hsafe) (not_le.2 (maxSafeInteger_lt_jsNumber hlt))
    rw [requireSafeInteger, hunsafe]
    rfl
  case isFalse hle =>
    rw [requireSafeInteger_written _ (not_lt.1 hle) hversion]
    rfl

/-- The worker's name of the type. -/
def MailIntent.type : MailIntent → NotificationEventType
  | confirmed => .confirmed
  | rejected _ => .rejected
  | changed .. => .changed
  | cancelledByAdmin _ => .cancelledByAdmin

/-- The fields of a payload. -/
def MailIntent.fields (m : MailIntent) (b : Booking) (room : Room) : List (String × Json) :=
  [("schemaVersion", .num 1), ("bookingId", .str b.publicId), ("ownerUserId", .str (toString b.userId)), ("bookingVersion", .num (jsNumber b.version)),
    ("booking", .obj (bookingFields b room m.reason))] ++
    match m with
    | changed _ before => [("before", before.toJson), ("after", (after b room).toJson)]
    | _ => []

theorem payload_event (m : MailIntent) (b : Booking) (room : Room) (x : Supply) : (m.event b room x).payload = .obj (m.fields b room) := by
  cases m <;> rfl

theorem MailIntent.field_booking (m : MailIntent) (b : Booking) (room : Room) :
    field (m.fields b room) "booking" = some (.obj (bookingFields b room m.reason)) := by
  cases m <;> rfl

theorem MailIntent.read_of_version (m : MailIntent) (room : Room) (h : ¬ maxSafeInteger < b.version) : m.read b room =
    if !legible 50 room.roomNumber then .error (invalid "booking.room.roomNumber")
    else if !m.reason.all (legible 1000) then .error (invalid "booking.reason") else .ok (m.received b room) := if_neg h

/-- A mail without a change. -/
theorem read_withReason (hrooms : ∀ room ∈ rooms, LegalRoom validator room) (h : SoundMail rooms m b room) {reason : String}
    (hreason : m.reason = some reason) {β : Type} (f : NotificationBookingSnapshotWithReason → Except NotificationEventError β) :
    (requireBookingSnapshotWithReason validator (field (m.fields b room) "booking") m.statuses >>= f) =
      if !legible 50 room.roomNumber then .error (invalid "booking.room.roomNumber")
      else if !m.reason.all (legible 1000) then .error (invalid "booking.reason")
      else f ⟨⟨⟨toString room.id, room.roomNumber⟩, b.checkIn, b.checkOut, b.status, ⟨b.priceAmount, b.currency⟩⟩, reason⟩ := by
  rw [m.field_booking, hreason, requireBookingSnapshotWithReason_written hrooms h.booking h.house h.status reason, Option.all_some]
  cases legible 50 room.roomNumber with
  | false => rfl
  | true =>
    cases legible 1000 reason with
    | false => rfl
    | true => rfl

/-- **A mail is read as it was written**, or refused for its version, its room number or its reason. -/
theorem parse_written (hrooms : ∀ room ∈ rooms, LegalRoom validator room) (h : SoundMail rooms m b room) (hid : publicBookingIdPattern b.publicId = true)
    (howner : 1 ≤ b.userId ∧ b.userId ≤ maxUnsignedBigint) (x : Supply) :
    parseNotificationEvent validator (m.event b room x).eventType (m.event b room x).payload = m.read b room := by
  have htype : NotificationEventType.all.find? (·.text = (m.event b room x).eventType) = some m.type := by cases m <;> rfl
  have hkeys : requireExactKeys (m.fields b room) (if m.type = .changed then basePayloadKeys ++ ["before", "after"] else basePayloadKeys) "payload" =
      .ok () := by cases m <;> rfl
  have hbase := requireBase_written (m.fields b room) (by cases m <;> exact ⟨rfl, rfl, rfl⟩) hid howner h.booking.version
  have hschema : requireSchemaVersion (field (m.fields b room) "schemaVersion") = .ok () := by cases m <;> rfl
  rw [payload_event, parseNotificationEvent, htype]
  simp only [Result.orThrow, requireRecord, hschema, hkeys, hbase, Result.ok_bind]
  split
  case isTrue hlt =>
    rw [MailIntent.read, if_pos hlt]
    rfl
  case isFalse hversion =>
    rw [m.read_of_version room hversion, Result.ok_bind]
    cases m with
    | confirmed =>
      have hsnapshot := requireBookingSnapshot_written hrooms h.booking h.house h.status none
      show (requireBookingSnapshot validator (some (.obj (bookingFields b room none))) _ _ >>= _) = _
      rw [Option.isSome_none] at hsnapshot
      simp only [MailIntent.statuses] at hsnapshot
      rw [hsnapshot]
      cases legible 50 room.roomNumber with
      | false => rfl
      | true => rfl
    | rejected reason => exact read_withReason hrooms h rfl _
    | cancelledByAdmin reason => exact read_withReason hrooms h rfl _
    | changed reason before =>
      obtain ⟨hstay, ⟨source, hsource, hsourceId⟩, hmoved⟩ := h.before reason before rfl
      have hbefore : requireChangeEndpoint (field (MailIntent.fields (.changed reason before) b room) "before") "before" =
          .ok ⟨toString before.roomId, before.checkIn, before.checkOut⟩ :=
        requireChangeEndpoint_written "before" hstay (hsourceId ▸ (hrooms source hsource).id)
      have hafter : requireChangeEndpoint (field (MailIntent.fields (.changed reason before) b room) "after") "after" =
          .ok ⟨toString room.id, b.checkIn, b.checkOut⟩ :=
        requireChangeEndpoint_written (e := MailIntent.after b room) "after" h.booking.stay (hrooms room h.house).id
      have hsame : Result.require (!(decide (toString before.roomId = toString room.id) && decide (before.checkIn = b.checkIn) &&
          decide (before.checkOut = b.checkOut))) (invalid "before") = .ok () := by
        refine Result.require_eq_ok.2 ?_
        rw [Bool.not_eq_true', Bool.eq_false_iff]
        intro hall
        simp only [Bool.and_eq_true, decide_eq_true_eq] at hall
        exact hmoved ⟨toString_id_injective hall.1.1, hall.1.2, hall.2⟩
      refine (read_withReason hrooms h rfl _).trans ?_
      simp only [hbefore, hafter, hsame, Result.ok_bind, decide_true, Bool.and_self]
      rfl

end Read

/-! ### Every mail row -/

/-- The history has the change that is mailed about, with the reason. -/
def MailIntent.Filed (t : BookingTables) (b : Booking) : MailIntent → Prop
  | changed reason before => ∃ row ∈ t.changeHistory, row.bookingId = b.id ∧ row.reason = reason ∧ row.fromCheckIn = before.checkIn ∧
      row.fromCheckOut = before.checkOut ∧ row.toRoomTimeId = b.roomTimeId ∧ row.toCheckIn = b.checkIn ∧ row.toCheckOut = b.checkOut
  | m => ∃ row ∈ t.statusHistory, row.bookingId = b.id ∧ row.toStatus = b.status ∧ row.reason = m.reason

/-- What stands beside a mail: the lifecycle row of that version, its history row, and the booking as it went on. -/
structure MailIntent.Told (rooms : List Room) (t : BookingTables) (m : MailIntent) (b : Booking) (room : Room) : Prop where
  sound : SoundMail rooms m b room
  lifecycle : ∃ change x, lifecycleEvent change x ∈ t.outboxEvents ∧ change.booking = b ∧ change.room = ⟨room.id, room.roomTypeId⟩
  filed : m.Filed t b
  current : ∃ b' ∈ t.bookings, Continues b b'

/-- The row is a mail about a booking. -/
def IsMail (rooms : List Room) (t : BookingTables) (e : OutboxEvent) : Prop := ∃ m b room x, e = MailIntent.event m b room x ∧ m.Told rooms t b room

section Rows

variable {cfg : Config} {rooms : List Room} {call : Call} {d : Draft} {r : Rows} {t t' : BookingTables}

theorem MailIntent.Filed.mono {m : MailIntent} {b : Booking} (h : m.Filed t b) (hstatus : t.statusHistory ⊆ t'.statusHistory)
    (hchange : t.changeHistory ⊆ t'.changeHistory) : m.Filed t' b := by
  cases m with
  | changed reason before =>
    obtain ⟨row, hrow, hrest⟩ := h
    exact ⟨row, hchange hrow, hrest⟩
  | confirmed | rejected | cancelledByAdmin =>
    obtain ⟨row, hrow, hrest⟩ := h
    exact ⟨row, hstatus hrow, hrest⟩

/-- What is told stays told. -/
theorem IsMail.write {e : OutboxEvent} (h : IsMail rooms t e) (hentry : Entry cfg rooms call d r) (hkeyed : Keyed t) (hown : d.Own t) :
    IsMail rooms (t.write d r) e := by
  obtain ⟨m, b, room, x, rfl, hsound, ⟨change, y, hrow, hlifecycle⟩, hfiled, current, hcurrent, hcontinues⟩ := h
  obtain ⟨next, hnext, hnextContinues⟩ := hentry.continues hkeyed hown hcurrent
  exact ⟨m, b, room, x, rfl, hsound, ⟨change, y, List.mem_append_left _ hrow, hlifecycle⟩,
    hfiled.mono (List.subset_append_left _ _) (List.subset_append_left _ _), next, hnext, hcontinues.trans hnextContinues⟩

/-- The mail of a transition. -/
theorem mail_of_makes {tr : Transition} (h : call.Makes tr) {eventType : BookingOutboxEventType} (hevent : tr.eventType = some eventType) :
    ∃ m : MailIntent, m.eventType = eventType ∧ m.reason = tr.reason ∧ tr.toStatus ∈ m.statuses ∧ (∀ b room, m.change b room = none) ∧
      ∀ reason before, m ≠ .changed reason before := by
  cases h with
  | cancelOwn => cases hevent
  | approve =>
    obtain rfl := Option.some.inj hevent
    exact ⟨.confirmed, rfl, rfl, List.mem_singleton.2 rfl, fun _ _ => rfl, fun _ _ h => by cases h⟩
  | reject actorUserId publicId reason =>
    obtain rfl := Option.some.inj hevent
    exact ⟨.rejected reason, rfl, rfl, List.mem_singleton.2 rfl, fun _ _ => rfl, fun _ _ h => by cases h⟩
  | cancelAdmin actorUserId publicId reason hactive =>
    obtain rfl := Option.some.inj hevent
    exact ⟨.cancelledByAdmin reason, rfl, rfl, List.mem_singleton.2 rfl, fun _ _ => rfl, fun _ _ h => by cases h⟩

theorem lifecycle_not_mail (change : BookingLifecycleChange) (x : Supply) : (lifecycleEvent change x).eventType ∉ notificationEventTypes := by
  show bookingLifecycleEventType ∉ notificationEventTypes
  decide

/-- An entry's mails are told. -/
theorem mails_of_entry (h : Entry cfg rooms call d r) (hon : cfg.lifecycleEnabled = true) (hown : d.Own t) (hsound : ∀ b ∈ t.bookings, SoundBooking rooms b)
    (hbooking : SoundBooking rooms d.booking) {e : OutboxEvent} (he : e ∈ r.events) (htype : e.eventType ∈ notificationEventTypes) :
    IsMail rooms (t.write d r) e := by
  have hone : ∀ {change events}, RecordedRows change cfg.lifecycleEnabled events → ∃ x, events = [lifecycleEvent change x] := by
    rw [hon]
    rintro _ _ ⟨⟩
    exact ⟨_, rfl⟩
  have hcurrent : ∃ b' ∈ (t.write d r).bookings, Continues d.booking b' := ⟨d.booking, (Draft.mem_apply hown).2 (.inl rfl), .refl _⟩
  cases h with
  | created x y hroom hid hstay hprice hevents =>
    obtain ⟨z, rfl⟩ := hone hevents
    rw [List.mem_singleton.1 he] at htype
    exact absurd htype (lifecycle_not_mail _ z)
  | @moved _ tr old now x events ht hid hstatus hevents =>
    cases hevents with
    | nothing hoff =>
      rw [hon] at hoff
      cases hoff
    | @room room hroom _ y hrecorded =>
      obtain ⟨z, rfl⟩ := hone hrecorded
      rcases List.mem_cons.1 he with rfl | hmail
      · exact absurd htype (lifecycle_not_mail _ z)
      obtain ⟨eventType, hevent, rfl⟩ := Option.map_eq_some_iff.1 (Option.mem_toList.1 hmail)
      obtain ⟨m, hmtype, hreason, hstatuses, hchange, hnot⟩ := mail_of_makes ht hevent
      refine ⟨m, _, room, y, ?_, ⟨hbooking, hroom, hstatuses, fun reason before heq => absurd heq (hnot reason before)⟩,
        ⟨_, z, List.mem_append_right _ List.mem_cons_self, rfl, rfl⟩, ?_, hcurrent⟩
      · rw [MailIntent.event, hmtype, hreason, hchange]
        rfl
      · have hrow : tr.row old.id x ∈ t.statusHistory ++ [tr.row old.id x] := List.mem_append_right _ List.mem_cons_self
        cases m with
        | changed reason before => exact absurd rfl (hnot reason before)
        | confirmed | rejected | cancelledByAdmin => exact ⟨_, hrow, rfl, rfl, hreason.symm⟩
  | @edited today actorUserId publicId body old e now x y events hid he' hevents =>
    obtain ⟨z, rfl⟩ := hone hevents
    rcases List.mem_append.1 he with hmem | hmem
    · rw [List.mem_singleton.1 hmem] at htype
      exact absurd htype (lifecycle_not_mail _ z)
    obtain rfl := List.mem_singleton.1 hmem
    refine ⟨.changed body.reason ⟨e.source.id, old.checkIn, old.checkOut⟩, e.apply old now, e.destination, y, rfl, ⟨hbooking, he'.destination, ?_, ?_⟩,
      ⟨_, z, List.mem_append_right _ (List.mem_append_left _ List.mem_cons_self), rfl, rfl⟩, ⟨_, List.mem_append_right _ List.mem_cons_self, ?_⟩, hcurrent⟩
    · have hactive := he'.active
      show old.status ∈ [BookingStatus.pending, .confirmed]
      cases hstatus : old.status <;> simp_all [BookingStatus.isActive]
    · rintro _ _ ⟨⟩
      refine ⟨(hsound old hown.1).stay, ⟨_, he'.source, rfl⟩, fun hsame => he'.changed ⟨hsame.1.symm, hsame.2.1.symm, hsame.2.2.symm⟩⟩
    · exact ⟨rfl, rfl, rfl, rfl, rfl, rfl, rfl⟩

end Rows

section Runs

variable {cfg : Config} {s s' : BookingSys}

/-- The mail rows that are there are mails about bookings. -/
def Mailed (rooms : List Room) (db : Db) : Prop := ∀ e ∈ db.outboxEvents, e.eventType ∈ notificationEventTypes → IsMail rooms db.tables e

theorem mailed_step {rooms : List Room} {a : Act Supply Call} {start : Db → Prop} (h : Audit cfg rooms s) (hon : cfg.lifecycleEnabled = true)
    (hcheck : DatesChecked s a) (he : (machine (Call.run cfg) start).exec s a = some s') (hmailed : Mailed rooms s.db) : Mailed rooms s'.db := by
  have h' := h.step hon hcheck he
  rcases (h.promised.step (run_records cfg rooms) he).2 with hidle | ⟨p, call, answer, hcommit, hstep⟩
  · rw [hidle.1]
    exact hmailed
  · rw [BookingPromise] at hstep
    show ∀ e ∈ s'.db.tables.outboxEvents, e.eventType ∈ notificationEventTypes → IsMail rooms s'.db.tables e
    generalize s'.db.tables = t at hstep
    cases hstep with
    | idle hanswer => exact hmailed
    | @entered d r hentry hown hfits hanswer =>
      have hcall : call.DatesChecked := h'.checked p call _ hcommit.committed
      intro e hmem htype
      rcases List.mem_append.1 hmem with hold | hnew
      · exact (hmailed e hold htype).write hentry h.promised.good.inv.1 hown
      · exact mails_of_entry hentry hon hown h.journal.sound (hentry.sound hcall hown h.journal.sound) hnew htype

theorem mailed_of_reachable (hon : cfg.lifecycleEnabled = true) (h : (bookingSystem cfg).Reachable DatesChecked s) : Mailed s.db.rooms s.db := by
  obtain ⟨db, ⟨roomTypes, rooms, rfl⟩, hreach⟩ := exists_start h
  have hall : Audit cfg rooms s ∧ Mailed rooms s.db := by
    refine hreach.invariant (I := fun s => Audit cfg rooms s ∧ Mailed rooms s.db) ?_ ?_
    · rintro _ ⟨db, rfl, rfl⟩
      exact ⟨audit_start roomTypes, fun _ hmem => absurd hmem List.not_mem_nil⟩
    · rintro s a s' ⟨haudit, hmailed⟩ hcheck he
      exact ⟨haudit.step hon hcheck he, mailed_step haudit hon hcheck he hmailed⟩
  have hrooms : s.db.rooms = rooms := hall.1.promised.good.inv.2
  exact hrooms ▸ hall.2

end Runs

/-- The rows as far as a mail may name them. -/
structure Nameable (validator : ClassValidator) (db : Db) : Prop where
  rooms : ∀ room ∈ db.rooms, LegalRoom validator room
  bookings : ∀ b ∈ db.bookings, publicBookingIdPattern b.publicId = true ∧ 1 ≤ b.userId ∧ b.userId ≤ maxUnsignedBigint

/-- **What the booking service mails about, the workers read.** -/
theorem mails_read (validator : ClassValidator) (cfg : Config) (hon : cfg.lifecycleEnabled = true) (s : BookingSys)
    (h : (bookingSystem cfg).Reachable DatesChecked s) (hname : Nameable validator s.db) :
    ∀ e ∈ s.db.outboxEvents, e.eventType ∈ notificationEventTypes → ∃ (m : MailIntent) (b : Booking) (room : Room), m.Told s.db.rooms s.db.tables b room ∧
      e.eventType = m.eventType.text ∧ parseNotificationEvent validator e.eventType e.payload = m.read b room := by
  intro e hmem htype
  obtain ⟨m, b, room, x, rfl, htold⟩ := mailed_of_reachable hon h e hmem htype
  obtain ⟨current, hcurrent, hcontinues⟩ := htold.current
  obtain ⟨hid, howner⟩ := hname.bookings current hcurrent
  rw [hcontinues.publicId] at hid
  rw [hcontinues.userId] at howner
  exact ⟨m, b, room, htold, rfl, parse_written hname.rooms htold.sound hid howner x⟩

theorem mails_read_fullStay :
    let s := fullStayEnd.get fullStayEnd_isSome
    (s.db.outboxEvents.filter (·.eventType ∈ notificationEventTypes)).map (·.eventType) =
        ["booking.confirmed", "booking.changed", "booking.cancelled_by_admin"] ∧
      ∀ e ∈ s.db.outboxEvents, e.eventType ∈ notificationEventTypes → ∃ (m : MailIntent) (b : Booking) (room : Room), m.Told s.db.rooms s.db.tables b room ∧
        e.eventType = m.eventType.text ∧ parseNotificationEvent hotelValidator e.eventType e.payload = m.read b room := by
  refine ⟨by decide +kernel, mails_read hotelValidator loudConfig rfl _ fullStay_reachable ⟨?_, by decide +kernel⟩⟩
  have hrooms : (fullStayEnd.get fullStayEnd_isSome).db.rooms = [⟨1, 7, "A-201", 1000000, "VND", .active⟩] := by decide +kernel
  rw [hrooms]
  exact List.forall_mem_singleton.2 ⟨by decide, by decide, by decide⟩

end HotelBackend.Notifications
