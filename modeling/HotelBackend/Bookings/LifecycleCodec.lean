import HotelBackend.Bookings.LifecycleMessage
import HotelBackend.Common.JsonKeys
import HotelBackend.Common.JsonOrder

/-!
# The lifecycle contract, both ways

The encoder and the two parsers of the contract agree: what is encoded is decoded as it was, and what is
decoded says what the encoding of its result says, up to the order of keys. So no consumer accepts a
message that the relay would not have published, and a key too many or too few is refused at every level.
-/

namespace HotelBackend.Bookings

open HotelBackend.Common
open HotelBackend.Theory
open HotelBackend.Outbox
open HotelBackend.Notifications (ClassValidator field)

/-! ### Payloads -/

section Payloads

variable {validator : ClassValidator} {fields : List (String × Json)}

theorem mem_of_field {key : String} {value : Json} (h : field fields key = some value) : (key, value) ∈ fields := by
  obtain ⟨f, hf, rfl⟩ := Option.map_eq_some_iff.1 h
  have hkey : f.1 = key := by simpa using List.find?_some hf
  exact hkey ▸ List.mem_of_find?_eq_some hf

theorem isNumber_iff {value : Option Json} {n : ℕ} : Lifecycle.isNumber value n = true ↔ value = some (.num n) := by
  unfold Lifecycle.isNumber
  split
  · rw [decide_eq_true_eq, Option.some.injEq, Json.num.injEq]
  · next hne => exact ⟨fun h => (by cases h), fun h => absurd h (hne _)⟩

/-- The four fields of a stay stand in an object as they were read. -/
theorem stay_mem {path : String} {s : ReceivedStay} (h : Lifecycle.requireStayFields fields path = .ok s) :
    ∀ g ∈ s.fields, ∃ value, (g.1, value) ∈ fields ∧ value.Reorders g.2 := by
  obtain ⟨-, hin, hout, hroom, htype⟩ := requireStayFields_eq_ok.1 h
  simp only [ReceivedStay.fields, List.forall_mem_cons]
  exact ⟨⟨_, mem_of_field hroom, .str _⟩, ⟨_, mem_of_field htype, .str _⟩, ⟨_, mem_of_field hin, .str _⟩, ⟨_, mem_of_field hout, .str _⟩,
    fun _ hmem => absurd hmem List.not_mem_nil⟩

theorem stay_reorders {value : Option Json} {path : String} {s : ReceivedStay} (h : Lifecycle.requireStay value path = .ok s) :
    ∃ stay, value = some stay ∧ stay.Reorders (.obj s.fields) := by
  obtain ⟨fields, hrecord, hfields⟩ := requireStay_eq_ok.1 h
  obtain ⟨rfl, hperm⟩ := requireRecord_eq_ok.1 hrecord
  exact ⟨_, rfl, .of_forall_right (List.isPerm_iff.1 hperm) (show stayKeys.Nodup by decide) (stay_mem hfields)⟩

/-- What may be null is there, as null or as it was read. -/
theorem nullable_reorders {α : Type} {value : Option Json} {require : Option Json → Except BookingLifecyclePayloadError α} {encode : α → Json}
    (hnull : ∀ b, require (some .null) ≠ .ok b) (hsome : ∀ b, require value = .ok b → ∃ v, value = some v ∧ v.Reorders (encode b))
    {a : Option α} (h : Lifecycle.requireNullable value require = .ok a) : ∃ v, value = some v ∧
      v.Reorders (a.elim .null encode) := by
  rcases (requireNullable_eq_ok hnull).1 h with ⟨rfl, hvalue⟩ | ⟨b, rfl, hb⟩
  · exact ⟨_, hvalue, .null⟩
  · exact hsome b hb

theorem BookingLifecyclePayload.fields_eq (p : BookingLifecyclePayload) : p.fields = [("schemaVersion", .num 1),
    ("bookingId", .str p.bookingId),
    ("bookingVersion", .num p.bookingVersion),
    ("fromStatus", p.fromStatus.elim .null fun status => .str status.text),
    ("toStatus", .str p.toStatus.text),
    ("booking", .obj (p.booking.fields ++ [("price", .obj [("amount", .num p.priceAmount), ("currency", .str p.currency)])])),
    ("previousStay", p.previousStay.elim .null fun previous => .obj previous.fields)] := by
  unfold BookingLifecyclePayload.fields
  cases p.fromStatus <;> cases p.previousStay <;> rfl

/-- The payload parser returns what it was given. -/
theorem payload_reorders {input : Json} {p : BookingLifecyclePayload} (h : parseBookingLifecyclePayload validator input = .ok p) :
    input.Reorders (.obj p.fields) := by
  simp only [parseBookingLifecyclePayload, Result.bind_eq_ok, Result.require_eq_ok, Result.pure_eq_ok] at h
  obtain ⟨fields, hrecord, _, hschema, id, hid, version, hversion, fromStatus, hfrom, toStatus, hto, booking, hbooking, price, hprice, amount,
    hamount, currency, hcurrency, _, -, previous, hprevious, _, -, _, -, _, -, stay, hstay, rfl⟩ := h
  obtain ⟨hinput, hperm⟩ := requireRecord_eq_ok.1 hrecord
  obtain rfl := Option.some.inj hinput
  obtain ⟨hbooking, hbookingKeys⟩ := requireRecord_eq_ok.1 hbooking
  obtain ⟨hprice, hpriceKeys⟩ := requireRecord_eq_ok.1 hprice
  have hamount' := mem_of_field (requireSafeInteger_eq_ok.1 hamount).1
  have hcurrency' := mem_of_field (requireString_eq_ok.1 hcurrency).1
  obtain ⟨_, hfromField, hfrom'⟩ := nullable_reorders requireStatus_null (fun status hs => ⟨_, requireStatus_eq_ok.1 hs, .str _⟩) hfrom
  obtain ⟨_, hpreviousField, hprevious'⟩ := nullable_reorders requireStay_null (fun _ hs => stay_reorders hs) hprevious
  have hprice' : (Json.obj price).Reorders (.obj [("amount", .num amount), ("currency", .str currency)]) := by
    refine .of_forall_right (List.isPerm_iff.1 hpriceKeys) (show ["amount", "currency"].Nodup by decide) ?_
    simp only [List.forall_mem_cons]
    exact ⟨⟨_, hamount', .num _⟩, ⟨_, hcurrency', .str _⟩, fun _ hmem => absurd hmem List.not_mem_nil⟩
  have hbooking' : (Json.obj booking).Reorders (.obj (stay.fields ++ [("price", .obj [("amount", .num amount), ("currency", .str currency)])])) := by
    refine .of_forall_right (List.isPerm_iff.1 hbookingKeys) (show (stayKeys ++ ["price"]).Nodup by decide) ?_
    simp only [List.forall_mem_append, List.forall_mem_singleton]
    exact ⟨stay_mem hstay, ⟨_, mem_of_field hprice, hprice'⟩⟩
  refine .of_forall_right (List.isPerm_iff.1 hperm) (show payloadKeys.Nodup by decide) ?_
  simp only [BookingLifecyclePayload.fields_eq, List.forall_mem_cons]
  exact ⟨⟨_, mem_of_field (isNumber_iff.1 hschema), .num _⟩, ⟨_, mem_of_field (requireString_eq_ok.1 hid).1, .str _⟩,
    ⟨_, mem_of_field (requireSafeInteger_eq_ok.1 hversion).1, .num _⟩, ⟨_, mem_of_field hfromField, hfrom'⟩,
    ⟨_, mem_of_field (requireStatus_eq_ok.1 hto), .str _⟩, ⟨_, mem_of_field hbooking, hbooking'⟩,
    ⟨_, mem_of_field hpreviousField, hprevious'⟩, fun _ hmem => absurd hmem List.not_mem_nil⟩

end Payloads

/-! ### Messages -/

/-- A row that is relayed as this event. -/
def ReceivedBookingLifecycleEvent.row (e : ReceivedBookingLifecycleEvent) : ClaimedLifecycleRow :=
  ⟨e.eventId, some (.obj e.payload.fields), e.occurredAt⟩

/-- The keys of a message are those of the contract, at every level. -/
structure ExactKeys (fields : List (String × Json)) : Prop where
  message : (fields.map (·.1)).Perm (envelopeKeys ++ payloadKeys)
  booking : ∀ v, ("booking", v) ∈ fields → v.HasKeys (stayKeys ++ ["price"])
  price : ∀ booking v, ("booking", .obj booking) ∈ fields → ("price", v) ∈ booking → v.HasKeys ["amount", "currency"]
  previousStay : ∀ v, ("previousStay", v) ∈ fields → v = .null ∨ v.HasKeys stayKeys

section Messages

variable {validator : ClassValidator} {isUUID : String → Bool} {value : Option String} {e : ReceivedBookingLifecycleEvent}

/-- What is decoded says what the encoding of its result says. -/
theorem message_reorders (h : parseBookingLifecycleMessage validator isUUID value = .ok e) :
    ∃ fields, parseJson (value.getD "") = some (.obj fields) ∧ (Json.obj fields).Reorders (envelope e.row e.payload) := by
  obtain ⟨record, hdecoded, ⟨hid, -⟩, htype, ⟨hoccurred, -⟩, hp⟩ := parseMessage_eq_ok.1 h
  have hrest := payload_reorders hp
  have hkeys := (keyed_of_parse hdecoded).nodup
  have hperm : ((record.filter fun f => f.1 ∉ envelopeKeys).map (·.1)).Perm payloadKeys := by
    cases hrest with
    | obj hperm _ => exact hperm
  have hall : ∀ g ∈ envelopeFields e.row ++ e.payload.fields, ∃ value, (g.1, value) ∈ record ∧ value.Reorders g.2 := by
    simp only [List.forall_mem_append]
    constructor
    · simp only [envelopeFields, List.forall_mem_cons]
      exact ⟨⟨_, mem_of_field hid, .str _⟩, ⟨_, mem_of_field htype, .str _⟩, ⟨_, mem_of_field hoccurred, .str _⟩,
        fun _ hmem => absurd hmem List.not_mem_nil⟩
    · intro g hg
      obtain ⟨f, hf, hkey⟩ := Json.exists_of_perm hperm hg
      exact ⟨f.2, hkey ▸ (List.mem_filter.1 hf).1, hrest.of_mem hf hg hkey⟩
  refine ⟨record, hdecoded, .of_forall_right ?_ (show (envelopeKeys ++ payloadKeys).Nodup by decide) hall⟩
  -- the keys of the envelope were each found, the others are those of the payload
  refine (List.perm_ext_iff_of_nodup hkeys (show (envelopeKeys ++ payloadKeys).Nodup by decide)).2 fun key => ⟨fun hkey => ?_, fun hkey => ?_⟩
  · obtain ⟨f, hf, rfl⟩ := List.mem_map.1 hkey
    by_cases henvelope : f.1 ∈ envelopeKeys
    · exact List.mem_append_left _ henvelope
    · have hmem : f ∈ record.filter fun f => f.1 ∉ envelopeKeys := List.mem_filter.2 ⟨hf, decide_eq_true henvelope⟩
      exact List.mem_append_right _ (hperm.mem_iff.1 (List.mem_map_of_mem hmem))
  · obtain ⟨g, hg, rfl⟩ : ∃ g ∈ envelopeFields e.row ++ e.payload.fields, g.1 = key := List.mem_map.1 hkey
    obtain ⟨value, hvalue, -⟩ := hall g hg
    exact List.mem_map.2 ⟨_, hvalue, rfl⟩

/-- An accepted message has exactly the keys of the contract. -/
theorem exactKeys_of_parse (h : parseBookingLifecycleMessage validator isUUID value = .ok e) :
    ∃ fields, parseJson (value.getD "") = some (.obj fields) ∧ ExactKeys fields := by
  obtain ⟨fields, hdecoded, hreorders⟩ := message_reorders h
  have hbooking : ("booking", Json.obj (e.payload.booking.fields ++
      [("price", .obj [("amount", .num e.payload.priceAmount), ("currency", .str e.payload.currency)])])) ∈
      envelopeFields e.row ++ e.payload.fields := List.mem_append_right _ (by simp [BookingLifecyclePayload.fields])
  have hprevious : ("previousStay", e.payload.previousStay.elim Json.null fun previous => .obj previous.fields) ∈
      envelopeFields e.row ++ e.payload.fields := List.mem_append_right _ (by simp [BookingLifecyclePayload.fields_eq])
  refine ⟨fields, hdecoded, ?_, fun v hv => ?_, fun booking v hv hprice => ?_, fun v hv => ?_⟩
  · cases hreorders with
    | obj hperm _ => exact hperm
  · exact (hreorders.of_mem hv hbooking rfl).hasKeys ⟨_, rfl, .refl _⟩
  · have hinner := hreorders.of_mem hv hbooking rfl
    exact (hinner.of_mem hprice (List.mem_append_right _ (List.mem_singleton_self _)) rfl).hasKeys ⟨_, rfl, .refl _⟩
  · have hinner := hreorders.of_mem hv hprevious rfl
    cases hs : e.payload.previousStay with
    | none =>
      rw [hs] at hinner
      cases hinner
      exact .inl rfl
    | some previous =>
      rw [hs] at hinner
      exact .inr (hinner.hasKeys ⟨_, rfl, .refl _⟩)

end Messages

/-- **The codec of lifecycle messages.** What is encoded is decoded; what is decoded says what the encoding
of its result says, up to the order of keys; a payload is returned as it was given; and a message with a
key too many or too few, at any level, is refused. -/
theorem lifecycle_codec (validator : ClassValidator) (isUUID : String → Bool) :
    (∀ (input : Json) (p : BookingLifecyclePayload) (row : ClaimedLifecycleRow), parseBookingLifecyclePayload validator input = .ok p →
      isUUID row.id = true → 1000 ≤ yearFromDay (row.createdAt / 86400000) → yearFromDay (row.createdAt / 86400000) ≤ 9999 →
      parseBookingLifecycleMessage validator isUUID (some (toBookingLifecycleMessage row p).value) = .ok ⟨row.id, row.createdAt, p⟩) ∧
    (∀ (value : Option String) (e : ReceivedBookingLifecycleEvent), parseBookingLifecycleMessage validator isUUID value = .ok e →
      ∃ decoded written, parseJson (value.getD "") = some decoded ∧ parseJson (toBookingLifecycleMessage e.row e.payload).value = some written ∧
        decoded.Reorders written) ∧
    (∀ (input : Json) (p : BookingLifecyclePayload), parseBookingLifecyclePayload validator input = .ok p → input.Reorders (.obj p.fields)) ∧
    ∀ (value : Option String) (decoded : Json), parseJson (value.getD "") = some decoded →
      (∀ fields, decoded = .obj fields → ¬ ExactKeys fields) → ∃ error, parseBookingLifecycleMessage validator isUUID value = .error error := by
  refine ⟨fun input p row hp hid hlow hhigh => ?_, fun value e he => ?_, fun input p hp => payload_reorders hp, fun value decoded hdecoded hkeys => ?_⟩
  · refine parse_toBookingLifecycleMessage (valid_of_parse hp) hid ?_
    simp only [isStorableYear, Bool.and_eq_true, decide_eq_true_eq]
    exact ⟨hlow, hhigh⟩
  · obtain ⟨fields, hdecoded, hreorders⟩ := message_reorders he
    exact ⟨_, _, hdecoded, parseJson_stringify (plain_envelope (valid_of_message he) e.row), hreorders⟩
  · cases he : parseBookingLifecycleMessage validator isUUID value with
    | error error => exact ⟨error, rfl⟩
    | ok e =>
      obtain ⟨fields, hdecoded', hexact⟩ := exactKeys_of_parse he
      rw [hdecoded'] at hdecoded
      exact absurd hexact (hkeys fields (Option.some.inj hdecoded).symm)

/-- A confirmed stay moves by a night. -/
def movedStay : BookingLifecyclePayload where
  bookingId := "01K4N8G4X8R0K1F2Q7V6S9T3AB"
  bookingVersion := 3
  fromStatus := some .confirmed
  toStatus := .confirmed
  booking := ⟨"3", "7", "2026-10-05", "2026-10-08"⟩
  priceAmount := 3000000
  currency := "VND"
  previousStay := some ⟨"3", "7", "2026-10-04", "2026-10-08"⟩

def hotelValidator : ClassValidator := ⟨(· = "VND"), fun _ => false⟩

theorem movedStay_valid : movedStay.Valid hotelValidator where
  bookingId := by decide
  bookingVersion := by decide
  amount := by decide
  currency := by decide
  booking := ⟨by decide, by decide, by decide, by decide, by decide⟩
  previousStay s hs := by
    obtain rfl := Option.some.inj hs
    exact ⟨by decide, by decide, by decide, by decide, by decide⟩
  transition := by decide
  stayChange _ := rfl
  statusChange h := by cases h

/-- The move, recorded in the last millisecond of the year 1969. -/
def movedStayEvent : ReceivedBookingLifecycleEvent := ⟨"3f1c0a52-8d3e-4b6a-9c57-2f10e6a7b841", -1, movedStay⟩

/-- The move there and back, and a message without keys. -/
theorem lifecycle_codec_movedStay :
    let value := (toBookingLifecycleMessage movedStayEvent.row movedStay).value
    parseBookingLifecycleMessage hotelValidator (·.length = 36) (some value) = .ok movedStayEvent ∧
    (∃ decoded written, parseJson value = some decoded ∧ parseJson value = some written ∧ decoded.Reorders written) ∧
    (Json.obj movedStay.fields).Reorders (.obj movedStay.fields) ∧
    ∃ error, parseBookingLifecycleMessage hotelValidator (·.length = 36) (some "\x7b\x7d") = .error error := by
  intro value
  obtain ⟨hdecode, hencode, hpayload, hrefuse⟩ := lifecycle_codec hotelValidator (·.length = 36)
  have hparsed := parse_fields movedStay_valid
  have hread := hdecode _ movedStay movedStayEvent.row hparsed (by decide) (by decide) (by decide)
  have hempty : parseJson ((some "\x7b\x7d").getD "") = some (.obj []) := by rfl
  refine ⟨hread, ?_, hpayload _ _ hparsed, hrefuse _ _ hempty fun fields hfields hkeys => ?_⟩
  · have hsame := hencode _ _ hread
    rwa [Option.getD_some] at hsame
  obtain rfl := Json.obj.inj hfields
  exact absurd hkeys.message.length_eq (by decide)

end HotelBackend.Bookings
