import HotelBackend.Bookings.LifecycleMessage
import HotelBackend.Reports.RoomExportSnapshot

/-!
# What a worker thread is asked

`toWorkbookRows`, which makes cells of a snapshot and neutralizes those a spreadsheet would read as formulas,
and `parseRoomExportGenerateRequest`, which the thread reads its request with and which counts the characters
of the cells again. The reader counts a cell before it is neutralized, and one quote too few for it; it counts
two characters too many for a room with amenities. So the thread refuses a snapshot that was read whenever the
quotes outweigh that slack and the limit is as close (`generate_accepted_iff`).
-/

namespace HotelBackend.Reports

open HotelBackend.Common
open HotelBackend.Theory
open HotelBackend.Rooms
open HotelBackend.Bookings (isStorableYear isoInstant isoInstant_eq isoTime all_isDigit_padDigits)
open HotelBackend.Notifications (field)

/-! ### Cells -/

/-- `CODE - Name; CODE - Name` -/
def roomExportAmenitySeparator : String := "; "

def roomExportFormulaPrefixes : List Char := ['=', '+', '-', '@']

def roomExportQuotePrefix : String := "'"

/-- `roomExportFormulaPrefixes.some((prefix) => value.startsWith(prefix))` -/
def formulaLike (value : String) : Bool := value.toList.head?.any (· ∈ roomExportFormulaPrefixes)

def neutralize (value : String) : String := if formulaLike value then roomExportQuotePrefix ++ value else value

structure RoomExportWorkbookRow where
  roomId : String
  roomNumber : String
  roomType : String
  beds : ℕ
  view : Option String
  basePriceMinorUnits : String
  currency : String
  status : String
  amenities : String
  version : String
  createdAtUtc : String
  updatedAtUtc : String
  deriving DecidableEq, Repr

/-- The amenities of a row, joined. -/
def amenitiesCell (row : RoomSnapshotRow) : String :=
  roomExportAmenitySeparator.intercalate (row.amenities.map fun amenity => amenity.code ++ " - " ++ amenity.name)

def toWorkbookRow (row : RoomSnapshotRow) : RoomExportWorkbookRow where
  roomId := neutralize row.id
  roomNumber := neutralize row.roomNumber
  roomType := neutralize row.roomTypeName
  beds := row.bedCount
  view := row.viewCode.map neutralize
  basePriceMinorUnits := neutralize row.basePriceAmount
  currency := neutralize row.currency
  status := neutralize row.status
  amenities := neutralize (amenitiesCell row)
  version := neutralize row.version
  createdAtUtc := String.ofList (isoInstant row.createdAt)
  updatedAtUtc := String.ofList (isoInstant row.updatedAt)

def toWorkbookRows (rows : List RoomSnapshotRow) : List RoomExportWorkbookRow := rows.map toWorkbookRow

/-! ### The request -/

def roomExportProtocolVersion : ℕ := 1

/-- The bounds of a generation; the configuration has positive ones. -/
structure RoomExportGenerateLimits where
  maxRows : ℕ
  maxSnapshotChars : ℕ
  maxFileBytes : ℕ
  maxOldGenerationMb : ℕ
  positive : 1 ≤ maxRows ∧ 1 ≤ maxSnapshotChars ∧ 1 ≤ maxFileBytes ∧ 1 ≤ maxOldGenerationMb
  safe : maxRows ≤ maxSafeInteger ∧ maxSnapshotChars ≤ maxSafeInteger ∧ maxFileBytes ≤ maxSafeInteger ∧ maxOldGenerationMb ≤ maxSafeInteger

/-- An attempt at a job: the first is 1. -/
structure RoomExportAttempt where
  jobId : String
  attempt : ℕ
  named : jobId ≠ ""
  counted : 1 ≤ attempt ∧ attempt ≤ maxSafeInteger

def RoomExportWorkbookRow.json (row : RoomExportWorkbookRow) : Json :=
  .obj [("roomId", .str row.roomId), ("roomNumber", .str row.roomNumber), ("roomType", .str row.roomType), ("beds", .num row.beds),
    ("view", (row.view.map .str).getD .null), ("basePriceMinorUnits", .str row.basePriceMinorUnits), ("currency", .str row.currency),
    ("status", .str row.status), ("amenities", .str row.amenities), ("version", .str row.version),
    ("createdAtUtc", .str row.createdAtUtc), ("updatedAtUtc", .str row.updatedAtUtc)]

/-- The `workerData` of a generation. -/
def generateRequest (attempt : RoomExportAttempt) (limits : RoomExportGenerateLimits) (rows : List RoomExportWorkbookRow) : Json :=
  .obj [("protocolVersion", .num roomExportProtocolVersion), ("jobId", .str attempt.jobId), ("attempt", .num attempt.attempt),
    ("limits", .obj [("maxRows", .num limits.maxRows), ("maxSnapshotChars", .num limits.maxSnapshotChars),
      ("maxFileBytes", .num limits.maxFileBytes), ("maxOldGenerationMb", .num limits.maxOldGenerationMb)]),
    ("rows", .arr (rows.map (·.json)))]

/-- A request that was read. -/
structure RoomExportGenerateRequest where
  jobId : String
  attempt : ℕ
  maxRows : ℕ
  maxSnapshotChars : ℕ
  maxFileBytes : ℕ
  maxOldGenerationMb : ℕ
  rows : List RoomExportWorkbookRow

/-! ### Reading it -/

def requestKeys : List String := ["protocolVersion", "jobId", "attempt", "limits", "rows"]

def limitKeys : List String := ["maxRows", "maxSnapshotChars", "maxFileBytes", "maxOldGenerationMb"]

def workbookRowKeys : List String :=
  ["roomId", "roomNumber", "roomType", "beds", "view", "basePriceMinorUnits", "currency", "status", "amenities", "version", "createdAtUtc",
    "updatedAtUtc"]

mutual

/-- `String(value)` -/
def jsonText : Json → String
  | .null => "null"
  | .bool b => if b then "true" else "false"
  | .num q => stringify (.num q)
  | .str s => s
  | .arr items => ",".intercalate (itemTexts items)
  | .obj _ => "[object Object]"

/-- The items of an array, joined; `null` leaves its place empty. -/
def itemTexts : List Json → List String
  | [] => []
  | .null :: items => "" :: itemTexts items
  | item :: items => jsonText item :: itemTexts items

end

namespace Protocol

def requireExactObject (value : Option Json) (keys : List String) (label : String) : Except RoomExportError (List (String × Json)) :=
  match value with
  | some (.obj fields) =>
    let unexpected := ((fields.map (·.1)).filter (· ∉ keys)).insertionSort (· ≤ ·)
    let missing := (keys.filter fun key => (field fields key).isNone).insertionSort (· ≤ ·)
    let unexpectedKeys := ", ".intercalate unexpected
    let missingKeys := ", ".intercalate missing
    if unexpected ≠ [] then .error (invalid s!"{label} holds unexpected keys: {unexpectedKeys}")
    else if missing ≠ [] then .error (invalid s!"{label} is missing: {missingKeys}")
    else .ok fields
  | _ => .error (invalid s!"{label} must be an object")

def requireProtocolVersion (value : Option Json) : Except RoomExportError Unit :=
  let received := (value.map jsonText).getD "undefined"
  match value with
  | some (.num q) =>
    if q = roomExportProtocolVersion then .ok ()
    else .error (.protocol .versionUnsupported s!"protocolVersion must be {roomExportProtocolVersion}, received {received}")
  | _ => .error (.protocol .versionUnsupported s!"protocolVersion must be {roomExportProtocolVersion}, received {received}")

def requireString (value : Option Json) (label : String) : Except RoomExportError String :=
  match value with
  | some (.str text) => .ok text
  | _ => .error (invalid s!"{label} must be a string")

def requireNonEmptyString (value : Option Json) (label : String) : Except RoomExportError String := do
  let text ← requireString value label
  Result.require (text ≠ "") (invalid s!"{label} must not be empty")
  return text

def requireNullableString (value : Option Json) (label : String) : Except RoomExportError (Option String) :=
  match value with
  | some .null => .ok none
  | value => do return some (← requireString value label)

def requireInteger (value : Option Json) (label : String) : Except RoomExportError ℤ :=
  match value with
  | some (.num q) => if isSafeInteger q then .ok q.num else .error (invalid s!"{label} must be a safe integer")
  | _ => .error (invalid s!"{label} must be a safe integer")

def requirePositiveInteger (value : Option Json) (label : String) : Except RoomExportError ℕ := do
  let count ← requireInteger value label
  Result.require (1 ≤ count) (invalid s!"{label} must be at least 1")
  return count.toNat

def requireCount (value : Option Json) (label : String) : Except RoomExportError ℕ := do
  let count ← requireInteger value label
  Result.require (0 ≤ count) (invalid s!"{label} must not be negative")
  return count.toNat

def parseWorkbookRow (value : Json) (index : ℕ) : Except RoomExportError RoomExportWorkbookRow := do
  let label := s!"request.rows[{index}]"
  let row ← requireExactObject (some value) workbookRowKeys label
  let roomId ← requireNonEmptyString (field row "roomId") s!"{label}.roomId"
  let roomNumber ← requireString (field row "roomNumber") s!"{label}.roomNumber"
  let roomType ← requireString (field row "roomType") s!"{label}.roomType"
  let beds ← requireCount (field row "beds") s!"{label}.beds"
  let view ← requireNullableString (field row "view") s!"{label}.view"
  let basePriceMinorUnits ← requireString (field row "basePriceMinorUnits") s!"{label}.basePriceMinorUnits"
  let currency ← requireString (field row "currency") s!"{label}.currency"
  let status ← requireString (field row "status") s!"{label}.status"
  let amenities ← requireString (field row "amenities") s!"{label}.amenities"
  let version ← requireString (field row "version") s!"{label}.version"
  let createdAtUtc ← requireString (field row "createdAtUtc") s!"{label}.createdAtUtc"
  let updatedAtUtc ← requireString (field row "updatedAtUtc") s!"{label}.updatedAtUtc"
  return ⟨roomId, roomNumber, roomType, beds, view, basePriceMinorUnits, currency, status, amenities, version, createdAtUtc, updatedAtUtc⟩

/-- Rows from the one at `index` on. -/
def parseWorkbookRows : List Json → ℕ → Except RoomExportError (List RoomExportWorkbookRow)
  | [], _ => .ok []
  | value :: values, index => do
    let row ← parseWorkbookRow value index
    let rows ← parseWorkbookRows values (index + 1)
    return row :: rows

end Protocol

/-- Every character a cell of the row will hold. -/
def countCellCharacters (row : RoomExportWorkbookRow) : ℕ :=
  utf16Length row.roomId + utf16Length row.roomNumber + utf16Length row.roomType + utf16Length (row.view.getD "") +
    utf16Length row.basePriceMinorUnits + utf16Length row.currency + utf16Length row.status + utf16Length row.amenities +
    utf16Length row.version + utf16Length row.createdAtUtc + utf16Length row.updatedAtUtc

def countSnapshotCharacters (rows : List RoomExportWorkbookRow) : ℕ := (rows.map countCellCharacters).sum

open Protocol in
def parseRoomExportGenerateRequest (value : Json) : Except RoomExportError RoomExportGenerateRequest := do
  let message ← requireExactObject (some value) requestKeys "request"
  requireProtocolVersion (field message "protocolVersion")
  let jobId ← requireNonEmptyString (field message "jobId") "request.jobId"
  let attempt ← requirePositiveInteger (field message "attempt") "request.attempt"
  let limits ← requireExactObject (field message "limits") limitKeys "request.limits"
  let maxRows ← requirePositiveInteger (field limits "maxRows") "request.limits.maxRows"
  let maxSnapshotChars ← requirePositiveInteger (field limits "maxSnapshotChars") "request.limits.maxSnapshotChars"
  let maxFileBytes ← requirePositiveInteger (field limits "maxFileBytes") "request.limits.maxFileBytes"
  let maxOldGenerationMb ← requirePositiveInteger (field limits "maxOldGenerationMb") "request.limits.maxOldGenerationMb"
  match field message "rows" with
  | some (.arr values) => do
    let count := values.length
    Result.require (count ≤ maxRows) (.protocol .rowLimitExceeded s!"request.rows holds {count} rows against a limit of {maxRows}")
    let rows ← parseWorkbookRows values 0
    let characters := countSnapshotCharacters rows
    Result.require (characters ≤ maxSnapshotChars)
      (.protocol .snapshotTooLarge s!"request.rows carries {characters} characters against a limit of {maxSnapshotChars}")
    return ⟨jobId, attempt, maxRows, maxSnapshotChars, maxFileBytes, maxOldGenerationMb, rows⟩
  | _ => .error (invalid "request.rows must be an array")

/-! ### What a request says is read -/

section Reading

variable {label : String}

theorem requireExactObject_ok {fields : List (String × Json)} {keys : List String} (h : fields.map (·.1) = keys) :
    Protocol.requireExactObject (some (.obj fields)) keys label = .ok fields := by
  have hunexpected : (fields.map (·.1)).filter (· ∉ keys) = [] :=
    List.filter_eq_nil_iff.2 fun key hkey => by simpa using h ▸ hkey
  have hmissing : (keys.filter fun key => (field fields key).isNone) = [] := by
    refine List.filter_eq_nil_iff.2 fun key hkey => ?_
    obtain ⟨f, hf, rfl⟩ := List.mem_map.1 (h ▸ hkey : key ∈ fields.map (·.1))
    have hfound : (fields.find? (·.1 = f.1)).isSome = true := List.find?_isSome.2 ⟨f, hf, decide_eq_true rfl⟩
    obtain ⟨g, hg⟩ := Option.isSome_iff_exists.1 hfound
    rw [field, hg]
    exact Bool.false_ne_true
  unfold Protocol.requireExactObject
  simp only [hunexpected, hmissing, List.insertionSort_nil, ne_eq, not_true_eq_false, if_false]

theorem requireProtocolVersion_ok : Protocol.requireProtocolVersion (some (.num (roomExportProtocolVersion : ℕ))) = .ok () := by
  unfold Protocol.requireProtocolVersion
  exact if_pos rfl

theorem requireInteger_natCast {n : ℕ} (h : n ≤ maxSafeInteger) : Protocol.requireInteger (some (.num n)) label = .ok n := by
  rw [Protocol.requireInteger, if_pos ((isSafeInteger_natCast n).2 h), Rat.num_natCast]

theorem requirePositiveInteger_natCast {n : ℕ} (h : 1 ≤ n ∧ n ≤ maxSafeInteger) :
    Protocol.requirePositiveInteger (some (.num n)) label = .ok n := by
  have hpositive : decide ((1 : ℤ) ≤ n) = true := decide_eq_true (by omega)
  rw [Protocol.requirePositiveInteger, requireInteger_natCast h.2]
  simp only [Result.bind_eq_ok, Result.require_eq_ok, Result.pure_eq_ok]
  exact ⟨_, rfl, (), hpositive, rfl⟩

theorem requireCount_natCast {n : ℕ} (h : n ≤ maxSafeInteger) : Protocol.requireCount (some (.num n)) label = .ok n := by
  have hnonneg : decide ((0 : ℤ) ≤ n) = true := decide_eq_true (by omega)
  rw [Protocol.requireCount, requireInteger_natCast h]
  simp only [Result.bind_eq_ok, Result.require_eq_ok, Result.pure_eq_ok]
  exact ⟨_, rfl, (), hnonneg, rfl⟩

theorem requireNonEmptyString_str {text : String} (h : text ≠ "") : Protocol.requireNonEmptyString (some (.str text)) label = .ok text := by
  rw [Protocol.requireNonEmptyString]
  simp only [Result.bind_eq_ok, Result.require_eq_ok, Result.pure_eq_ok]
  exact ⟨_, rfl, (), decide_eq_true h, rfl⟩

/-- What the protocol asks of a row. -/
structure RoomExportWorkbookRow.Readable (row : RoomExportWorkbookRow) : Prop where
  roomId : row.roomId ≠ ""
  beds : row.beds ≤ maxSafeInteger

theorem parseWorkbookRow_json {row : RoomExportWorkbookRow} (h : row.Readable) (index : ℕ) : Protocol.parseWorkbookRow row.json index = .ok row := by
  have hview : ∀ label, Protocol.requireNullableString (some ((row.view.map .str).getD .null)) label = .ok row.view := by
    intro label
    cases row.view <;> rfl
  unfold Protocol.parseWorkbookRow RoomExportWorkbookRow.json
  simp only [Result.bind_eq_ok, Result.pure_eq_ok]
  exact ⟨_, requireExactObject_ok rfl, _, requireNonEmptyString_str h.roomId, _, rfl, _, rfl, _, requireCount_natCast h.beds, _, hview _, _, rfl, _, rfl, _, rfl, _, rfl,
    _, rfl, _, rfl, _, rfl, rfl⟩

theorem parseWorkbookRows_json {rows : List RoomExportWorkbookRow} (h : ∀ row ∈ rows, row.Readable) (index : ℕ) :
    Protocol.parseWorkbookRows (rows.map (·.json)) index = .ok rows := by
  induction rows generalizing index with
  | nil => rfl
  | cons row rows ih =>
    rw [List.map_cons, Protocol.parseWorkbookRows, parseWorkbookRow_json (h row List.mem_cons_self)]
    simp only [Result.bind_eq_ok, Result.pure_eq_ok]
    exact ⟨_, rfl, _, ih (fun r hr => h r (List.mem_cons_of_mem _ hr)) _, rfl⟩

variable {attempt : RoomExportAttempt} {limits : RoomExportGenerateLimits} {rows : List RoomExportWorkbookRow}

theorem bind_of_ok {α β : Type} {x : Except RoomExportError α} {a : α} (h : x = .ok a) (f : α → Except RoomExportError β) : (x >>= f) = f a := by
  rw [h]
  rfl

/-- Of a request that is well formed only the two bounds are left to check. -/
theorem parse_generateRequest (h : ∀ row ∈ rows, row.Readable) : parseRoomExportGenerateRequest (generateRequest attempt limits rows) = (do
    Result.require (rows.length ≤ limits.maxRows)
      (.protocol .rowLimitExceeded s!"request.rows holds {rows.length} rows against a limit of {limits.maxRows}")
    Result.require (countSnapshotCharacters rows ≤ limits.maxSnapshotChars) (.protocol .snapshotTooLarge
      s!"request.rows carries {countSnapshotCharacters rows} characters against a limit of {limits.maxSnapshotChars}")
    return ⟨attempt.jobId, attempt.attempt, limits.maxRows, limits.maxSnapshotChars, limits.maxFileBytes, limits.maxOldGenerationMb, rows⟩) := by
  obtain ⟨hrows, hchars, hbytes, hheap⟩ := limits.positive
  obtain ⟨hrows', hchars', hbytes', hheap'⟩ := limits.safe
  unfold parseRoomExportGenerateRequest generateRequest
  refine (bind_of_ok (requireExactObject_ok rfl) _).trans ?_
  refine (bind_of_ok requireProtocolVersion_ok _).trans ?_
  refine (bind_of_ok (requireNonEmptyString_str attempt.named) _).trans ?_
  refine (bind_of_ok (requirePositiveInteger_natCast attempt.counted) _).trans ?_
  refine (bind_of_ok (requireExactObject_ok rfl) _).trans ?_
  refine (bind_of_ok (requirePositiveInteger_natCast ⟨hrows, hrows'⟩) _).trans ?_
  refine (bind_of_ok (requirePositiveInteger_natCast ⟨hchars, hchars'⟩) _).trans ?_
  refine (bind_of_ok (requirePositiveInteger_natCast ⟨hbytes, hbytes'⟩) _).trans ?_
  refine (bind_of_ok (requirePositiveInteger_natCast ⟨hheap, hheap'⟩) _).trans ?_
  have hfield : field [("protocolVersion", .num (roomExportProtocolVersion : ℕ)), ("jobId", .str attempt.jobId), ("attempt", .num attempt.attempt),
      ("limits", .obj [("maxRows", .num limits.maxRows), ("maxSnapshotChars", .num limits.maxSnapshotChars),
        ("maxFileBytes", .num limits.maxFileBytes), ("maxOldGenerationMb", .num limits.maxOldGenerationMb)]),
      ("rows", .arr (rows.map (·.json)))] "rows" = some (.arr (rows.map (·.json))) := rfl
  rw [hfield]
  dsimp only
  rw [List.length_map, parseWorkbookRows_json h]
  rfl

end Reading

/-! ### Two counts of a row -/

section Counts

/-- The texts of a row that are neutralized. -/
def neutralizedTexts (row : RoomSnapshotRow) : List String :=
  [row.id, row.roomNumber, row.roomTypeName, row.viewCode.getD "", row.basePriceAmount, row.currency, row.status, amenitiesCell row, row.version]

/-- How many of them look like formulas. -/
def formulaCells (row : RoomSnapshotRow) : ℕ := (neutralizedTexts row).countP formulaLike

/-- The separator that is counted and not written. -/
def separatorSlack (row : RoomSnapshotRow) : ℕ := if row.amenities = [] then 0 else utf16Length roomExportAmenitySeparator

theorem utf16Length_neutralize (value : String) : utf16Length (neutralize value) = utf16Length value + if formulaLike value then 1 else 0 := by
  have hquote : utf16Length roomExportQuotePrefix = 1 := by decide
  unfold neutralize
  split
  · rw [utf16Length_append, hquote, Nat.add_comm]
  · rfl

theorem utf16Length_view (view : Option String) :
    utf16Length ((view.map neutralize).getD "") = utf16Length (view.getD "") + if formulaLike (view.getD "") then 1 else 0 := by
  cases view with
  | none => rfl
  | some value => exact utf16Length_neutralize value

theorem utf16Length_amenitiesCell (row : RoomSnapshotRow) : utf16Length (amenitiesCell row) + separatorSlack row =
    (row.amenities.map fun amenity => utf16Length amenity.code + utf16Length amenity.name + amenitySeparatorLength).sum := by
  have hdash : utf16Length " - " = 3 := by decide
  have hseparator : utf16Length roomExportAmenitySeparator = 2 := by decide
  have hcell : ∀ amenity : SnapshotAmenity, utf16Length (amenity.code ++ " - " ++ amenity.name) + utf16Length roomExportAmenitySeparator =
      utf16Length amenity.code + utf16Length amenity.name + amenitySeparatorLength := by
    intro amenity
    rw [utf16Length_append, utf16Length_append, hdash, hseparator, amenitySeparatorLength]
    omega
  unfold separatorSlack amenitiesCell
  by_cases hnone : row.amenities = []
  · rw [if_pos hnone, hnone]
    rfl
  · rw [if_neg hnone, utf16Length_intercalate _ _ (by simpa using hnone), List.map_map]
    simp only [Function.comp_def, hcell]

/-- An instant of a four-digit year takes as many characters as the reader counts. -/
theorem utf16Length_isoInstant {ms : ℤ} (h : isStorableYear (yearFromDay (ms / 86400000)) = true) :
    utf16Length (String.ofList (isoInstant ms)) = isoTimestampLength := by
  rw [isStorableYear, Bool.and_eq_true, decide_eq_true_eq, decide_eq_true_eq] at h
  have hdigits : ∀ w n, ∀ c ∈ padDigits w n, c.toNat < 128 := by
    intro w n c hc
    have hdigit := List.all_eq_true.1 (all_isDigit_padDigits w n) c hc
    rw [isDigit, Bool.and_eq_true, decide_eq_true_eq, decide_eq_true_eq] at hdigit
    have hle : c.toNat ≤ 57 := hdigit.2
    omega
  rw [utf16Length_ofList, isoInstant_eq, isoTime, isoDay_of_year ⟨by omega, h.2⟩]
  · simp [padDigits_length, isoTimestampLength]
  · rw [isoInstant_eq, isoTime, isoDay_of_year ⟨by omega, h.2⟩]
    simp only [List.forall_mem_append, List.forall_mem_cons]
    simp
    exact ⟨⟨hdigits _ _, hdigits _ _, hdigits _ _⟩, ⟨⟨hdigits _ _, hdigits _ _⟩, hdigits _ _⟩, hdigits _ _⟩

/-- The cells of a row hold what the reader counted, with a quote for each formula and without the slack. -/
theorem countCellCharacters_toWorkbookRow {row : RoomSnapshotRow} (hcreated : isStorableYear (yearFromDay (row.createdAt / 86400000)) = true)
    (hupdated : isStorableYear (yearFromDay (row.updatedAt / 86400000)) = true) :
    countCellCharacters (toWorkbookRow row) + separatorSlack row = countRowCharacters row + formulaCells row := by
  have hcell := utf16Length_amenitiesCell row
  simp only [countCellCharacters, toWorkbookRow, countRowCharacters, utf16Length_neutralize, utf16Length_view, utf16Length_isoInstant hcreated,
    utf16Length_isoInstant hupdated, formulaCells, neutralizedTexts, List.countP_cons, List.countP_nil, ← hcell]
  omega

end Counts

/-! ### The result -/

section Agreement

variable {sql : Collation} {catalogue : RoomCatalogue sql}

/-- What the thread relies on holds of every row that is read. -/
theorem readable_snapshotRow {filters : RoomExportFilters} {row : CatalogueRoom × RoomType} (h : row ∈ matching catalogue filters) :
    (toWorkbookRow (snapshotRow catalogue row)).Readable ∧
      countCellCharacters (toWorkbookRow (snapshotRow catalogue row)) + separatorSlack (snapshotRow catalogue row) =
        countRowCharacters (snapshotRow catalogue row) + formulaCells (snapshotRow catalogue row) := by
  have hroom : row.1 ∈ catalogue.rooms := by
    obtain ⟨room, hroom, hrow⟩ := List.mem_flatMap.1 (List.mem_filter.1 h).1
    obtain ⟨roomType, -, rfl⟩ := List.mem_map.1 hrow
    exact hroom
  obtain ⟨hcreated, hupdated⟩ := catalogue.instants _ hroom
  have hbeds := (catalogue.bedCounts _ hroom).2
  refine ⟨⟨?_, ?_⟩, countCellCharacters_toWorkbookRow hcreated hupdated⟩
  · have hid : toString row.1.id ≠ "" := by
      intro hempty
      have hdigits := congrArg String.toList hempty
      rw [Nat.toString_eq_repr, Nat.toList_repr] at hdigits
      exact Nat.toDigits_ne_nil hdigits
    show neutralize (toString row.1.id) ≠ ""
    unfold neutralize
    split
    · exact fun hempty => absurd (congrArg String.toList hempty) (by simp [roomExportQuotePrefix])
    · exact hid
  · exact hbeds.trans (by decide)

/-- **The thread accepts what was read** exactly if the quotes of the cells that look like formulas fit in what
the reader left of the limit and counted for separators that are not written. -/
theorem generate_accepted_iff (filters : RoomExportFilters) (limits : RoomExportGenerateLimits) (queryPageSize : ℕ) (hpage : 1 ≤ queryPageSize)
    (attempt : RoomExportAttempt) (fuel : ℕ) (snapshot : RoomExportSnapshot)
    (hread : readPages catalogue ⟨limits.maxRows, limits.maxSnapshotChars, queryPageSize⟩ filters fuel none ⟨[], 0⟩ = some (.ok snapshot)) :
    (∃ request, parseRoomExportGenerateRequest (generateRequest attempt limits (toWorkbookRows snapshot.rows)) = .ok request) ↔
      (snapshot.rows.map countRowCharacters).sum + (snapshot.rows.map formulaCells).sum ≤
        limits.maxSnapshotChars + (snapshot.rows.map separatorSlack).sum := by
  obtain ⟨rows, hperm, hrows, hlength, -⟩ := snapshot_of_readPages hpage hread
  have hreadable : ∀ row ∈ snapshot.rows, (toWorkbookRow row).Readable ∧
      countCellCharacters (toWorkbookRow row) + separatorSlack row = countRowCharacters row + formulaCells row := by
    intro row hrow
    obtain ⟨pair, hpair, rfl⟩ := List.mem_map.1 (hrows ▸ hrow)
    exact readable_snapshotRow (hperm.mem_iff.1 hpair)
  have hcells : countSnapshotCharacters (toWorkbookRows snapshot.rows) + (snapshot.rows.map separatorSlack).sum =
      (snapshot.rows.map countRowCharacters).sum + (snapshot.rows.map formulaCells).sum := by
    rw [countSnapshotCharacters, toWorkbookRows, List.map_map, ← List.sum_map_add, ← List.sum_map_add]
    exact congrArg List.sum (List.map_congr_left fun row hrow => (hreadable row hrow).2)
  have hall : ∀ row ∈ toWorkbookRows snapshot.rows, row.Readable := by
    intro row hrow
    obtain ⟨source, hsource, rfl⟩ := List.mem_map.1 hrow
    exact (hreadable source hsource).1
  have hrowsLength : (toWorkbookRows snapshot.rows).length = snapshot.rows.length := List.length_map _
  rw [parse_generateRequest hall, hrowsLength]
  simp only [Result.bind_eq_ok, Result.require_eq_ok, Result.pure_eq_ok, decide_eq_true_eq]
  constructor
  · rintro ⟨_, _, -, _, hchars, -⟩
    omega
  · intro hchars
    exact ⟨_, (), hlength, (), by omega, rfl⟩

end Agreement

/-! #### A room number that looks like a formula -/

/-- Room `=1`, of a type that looks like a formula as well. -/
def formulaRoom : RoomCatalogue binaryCollation where
  rooms := [⟨9, 7, "=1", 1, none, 800000, "VND", .active, 3, 1756600000000, 1756700000000⟩]
  roomTypes := [⟨7, "=D"⟩]
  amenities := []
  roomAmenities := []
  roomIds := by decide
  roomTypeIds := by decide
  amenityCodes := by decide
  bedCounts := by decide
  instants := by decide

def firstAttempt : RoomExportAttempt := ⟨"5b1f6d9e-0c64-4b54-9f60-0a4b6c1d2e3f", 1, by decide, by decide⟩

/-- A limit on characters, beside the others. -/
def charactersLimit (maxSnapshotChars : ℕ) (h : 1 ≤ maxSnapshotChars ∧ maxSnapshotChars ≤ maxSafeInteger) : RoomExportGenerateLimits :=
  ⟨10000, maxSnapshotChars, 26214400, 128, ⟨by decide, h.1, by decide, by decide⟩, ⟨by decide, h.2, by decide, by decide⟩⟩

/-- What is read of it, in 69 characters. -/
def formulaSnapshot : RoomExportSnapshot where
  rows := [⟨"9", "=1", "=D", 1, none, "800000", "VND", "ACTIVE", "3", 1756600000000, 1756700000000, []⟩]
  characters := 69

/-- The one row of the read. -/
def formulaRow : CatalogueRoom × RoomType :=
  (⟨9, 7, "=1", 1, none, 800000, "VND", .active, 3, 1756600000000, 1756700000000⟩, ⟨7, "=D"⟩)

theorem readPages_formulaRoom {maxSnapshotChars : ℕ} (h : 69 ≤ maxSnapshotChars) :
    readPages formulaRoom ⟨10000, maxSnapshotChars, 500⟩ noFilters 2 none ⟨[], 0⟩ = some (.ok formulaSnapshot) := by
  have hrooms : Keyset.inOrder (·.1.id) (matching formulaRoom noFilters) = [formulaRow] := by rfl
  have hcount : totalCharacters formulaRoom [formulaRow] = 69 := by decide
  obtain ⟨hread, -⟩ := @foldlM_addOwnRow _ formulaRoom ⟨10000, maxSnapshotChars, 500⟩ [formulaRow] ⟨[], 0⟩ (Nat.zero_le _) (Nat.zero_le _)
  rw [hcount] at hread
  rw [readPages_eq (show 1 ≤ 500 by decide) (by decide), hrooms, hread ⟨show 0 + 1 ≤ 10000 by decide, by simpa using h⟩]
  rfl

/-- At a limit of 69 characters the room is read and its request refused; two more are enough. -/
theorem generate_accepted_iff_formulaRoom :
    (¬ ∃ request, parseRoomExportGenerateRequest
      (generateRequest firstAttempt (charactersLimit 69 (by decide)) (toWorkbookRows formulaSnapshot.rows)) = .ok request) ∧
    ∃ request, parseRoomExportGenerateRequest
      (generateRequest firstAttempt (charactersLimit 71 (by decide)) (toWorkbookRows formulaSnapshot.rows)) = .ok request := by
  constructor
  · rw [generate_accepted_iff noFilters (charactersLimit 69 (by decide)) 500 (by decide) firstAttempt 2 formulaSnapshot
      (readPages_formulaRoom (by decide))]
    decide
  · rw [generate_accepted_iff noFilters (charactersLimit 71 (by decide)) 500 (by decide) firstAttempt 2 formulaSnapshot
      (readPages_formulaRoom (by decide))]
    decide

/-- A snapshot that was read can be one the thread refuses. -/
theorem thread_refuses : ¬ ∀ (sql : Collation) (catalogue : RoomCatalogue sql) (filters : RoomExportFilters)
    (limits : RoomExportGenerateLimits) (queryPageSize : ℕ), 1 ≤ queryPageSize → ∀ (attempt : RoomExportAttempt) (fuel : ℕ) (snapshot : RoomExportSnapshot),
      readPages catalogue ⟨limits.maxRows, limits.maxSnapshotChars, queryPageSize⟩ filters fuel none ⟨[], 0⟩ = some (.ok snapshot) →
      ∃ request, parseRoomExportGenerateRequest (generateRequest attempt limits (toWorkbookRows snapshot.rows)) = .ok request := by
  intro h
  obtain ⟨request, hrequest⟩ := h binaryCollation formulaRoom noFilters (charactersLimit 69 (by decide)) 500 (by decide) firstAttempt 2
    formulaSnapshot (readPages_formulaRoom (by decide))
  have hrows : ∀ row ∈ toWorkbookRows formulaSnapshot.rows, row.Readable := by
    intro row hrow
    obtain ⟨source, hsource, rfl⟩ := List.mem_map.1 hrow
    obtain rfl := List.mem_singleton.1 hsource
    exact ⟨by decide, by decide⟩
  have hcells : countSnapshotCharacters (toWorkbookRows formulaSnapshot.rows) = 71 := by decide
  rw [parse_generateRequest hrows, hcells] at hrequest
  cases hrequest

end HotelBackend.Reports
