import HotelBackend.Theory.Guarantees
import HotelBackend.Bookings.EventKeys
import HotelBackend.Reports.CreateRequests

/-!
# What a request promises

What the requests agree on: a committed key row has its response, actor, operation and key tell the row, and
who does not hold the lock of a key leaves its row alone. A creation either finds the row of its key and
answers from it, or writes it in the transaction that makes the booking or the job (`Serves`). Any other
request writes no key row, and removes none that has not expired (`Spares`).
-/

namespace HotelBackend.Reports

open HotelBackend.Common
open HotelBackend.Theory
open HotelBackend.Theory.Transactions
open HotelBackend.Bookings
open HotelBackend.Rooms

/-! ### Key rows -/

/-- `uq_idempotency_keys_actor_operation_key` -/
structure KeyIdentity where
  actorUserId : ℕ
  operation : String
  key : String
  deriving DecidableEq

def identity (row : IdempotencyKey) : KeyIdentity := ⟨row.actorUserId, row.operation, row.idempotencyKey⟩

def KeyIdentity.lock (κ : KeyIdentity) : RequestKey := .hotel (.idempotencyKey κ.actorUserId κ.operation κ.key)

theorem isKeyRow_iff {actorUserId : ℕ} {operation key : String} {row : IdempotencyKey} :
    isKeyRow actorUserId operation key row = true ↔ identity row = ⟨actorUserId, operation, key⟩ := by
  simp only [isKeyRow, identity, decide_eq_true_eq, KeyIdentity.mk.injEq]

/-- The tables a creation is told by. -/
structure Ledger where
  keys : List IdempotencyKey
  bookings : List Booking
  exportJobs : List StoredExportJob

def RequestDb.ledger (db : RequestDb) : Ledger := ⟨db.hotel.idempotencyKeys, db.hotel.bookings, db.exportJobs⟩

/-- What holds of the committed key rows. -/
structure KeyTable (keys : List IdempotencyKey) : Prop where
  ids : Table.UniqueBy (·.id) keys
  identities : Table.UniqueBy identity keys
  answered : ∀ row ∈ keys, row.status = .completed ∧ ∃ body, row.responseBody = some body

/-- What a request may do to the rows under a key it does not hold. -/
def KeysKept (k : RequestKey) (a b : Ledger) : Prop :=
  match k with
  | .hotel (.idempotencyKey actorUserId operation key) =>
    ∀ row, identity row = ⟨actorUserId, operation, key⟩ → (row ∈ a.keys ↔ row ∈ b.keys)
  | .hotel (.idempotencyRow id) => ∀ row ∈ b.keys, row.id = id → row ∈ a.keys
  | .exportJob id => ∀ job ∈ b.exportJobs, job.id = id → job ∈ a.exportJobs
  | _ => True

theorem KeysKept.refl (k : RequestKey) (a : Ledger) : KeysKept k a a := by
  unfold KeysKept
  split
  · exact fun _ _ => Iff.rfl
  · exact fun _ hrow _ => hrow
  · exact fun _ hjob _ => hjob
  · trivial

theorem KeysKept.trans {k : RequestKey} {a b c : Ledger} (hab : KeysKept k a b) (hbc : KeysKept k b c) : KeysKept k a c := by
  unfold KeysKept at *
  split at hab
  · exact fun row hrow => (hab row hrow).trans (hbc row hrow)
  · exact fun row hrow hid => hab row (hbc row hrow hid) hid
  · exact fun job hjob hid => hab job (hbc job hjob hid) hid
  · trivial

/-- What the requests agree on. -/
def keyDiscipline : Discipline RequestDb RequestKey where
  Inv db := KeyTable db.ledger.keys
  Keeps k a b := KeysKept k a.ledger b.ledger
  refl k db := .refl k db.ledger
  trans _ _ _ _ hab hbc := hab.trans hbc

abbrev RequestMid : Type := Local RequestDb RequestKey

section Rely

variable {held : Set RequestKey} {a b : RequestDb}

theorem key_iff_of_rely (hr : keyDiscipline.Rely held a b) {κ : KeyIdentity} (hk : κ.lock ∈ held) {row : IdempotencyKey}
    (hrow : identity row = κ) : row ∈ a.ledger.keys ↔ row ∈ b.ledger.keys :=
  hr.2 _ hk row hrow

theorem row_of_rely (hr : keyDiscipline.Rely held a b) {id : ℕ} (hk : .hotel (.idempotencyRow id) ∈ held) {row : IdempotencyKey}
    (hrow : row ∈ b.ledger.keys) (hid : row.id = id) : row ∈ a.ledger.keys :=
  hr.2 _ hk row hrow hid

theorem job_of_rely (hr : keyDiscipline.Rely held a b) {id : String} (hk : .exportJob id ∈ held) {job : StoredExportJob}
    (hjob : job ∈ b.ledger.exportJobs) (hid : job.id = id) : job ∈ a.ledger.exportJobs :=
  hr.2 _ hk job hjob hid

end Rely

/-! ### In the middle of a creation -/

/-- A creation has claimed `row`, which nobody else has, and made the bookings and jobs. -/
structure Midway (row : IdempotencyKey) (bookings : List Booking) (jobs : List StoredExportJob) (l : RequestMid) : Prop where
  inv : KeyTable l.db.ledger.keys
  locked : (identity row).lock ∈ l.held
  rowLocked : .hotel (.idempotencyRow row.id) ∈ l.held
  jobsLocked : ∀ job ∈ jobs, .exportJob job.id ∈ l.held
  fresh : ∀ r ∈ l.db.ledger.keys, identity r ≠ identity row ∧ r.id ≠ row.id
  pend : ∀ db, keyDiscipline.Rely l.held l.db db →
    (l.pend db).ledger = ⟨db.ledger.keys ++ [row], db.ledger.bookings ++ bookings, db.ledger.exportJobs ++ jobs⟩

namespace Midway

variable {row : IdempotencyKey} {bookings : List Booking} {jobs : List StoredExportJob} {l l' : RequestMid}

/-- Nobody else takes the key or the id. -/
theorem fresh_of_rely (h : Midway row bookings jobs l) {db : RequestDb} (hr : keyDiscipline.Rely l.held l.db db) :
    ∀ r ∈ db.ledger.keys, identity r ≠ identity row ∧ r.id ≠ row.id := by
  refine fun r hmem => ⟨fun hid => ?_, fun hid => ?_⟩
  · exact (h.fresh r ((key_iff_of_rely hr h.locked hid).2 hmem)).1 hid
  · exact (h.fresh r (row_of_rely hr h.rowLocked hmem hid)).2 hid

/-- Others move, and the creation writes something else. -/
theorem still (h : Midway row bookings jobs l) (hr : keyDiscipline.Rely l.held l.db l'.db) (hheld : l.held ⊆ l'.held)
    (hpend : ∀ db, (l'.pend db).ledger = (l.pend db).ledger) : Midway row bookings jobs l' where
  inv := hr.1
  locked := hheld h.locked
  rowLocked := hheld h.rowLocked
  jobsLocked job hjob := hheld (h.jobsLocked job hjob)
  fresh := h.fresh_of_rely hr
  pend db hr' := by
    rw [hpend]
    exact h.pend db (hr.trans hr' hheld)

/-- It writes one more booking or job. -/
theorem write (h : Midway row bookings jobs l) {db : RequestDb} (hr : keyDiscipline.Rely l.held l.db db) {ks : Set RequestKey}
    {u : RequestDb → RequestDb} {bookings' : List Booking} {jobs' : List StoredExportJob}
    (hu : ∀ s, (u s).ledger = ⟨s.ledger.keys, s.ledger.bookings ++ bookings', s.ledger.exportJobs ++ jobs'⟩)
    (hjobs : ∀ job ∈ jobs', .exportJob job.id ∈ ks) :
    Midway row (bookings ++ bookings') (jobs ++ jobs') { l with db := db, held := l.held ∪ ks, pend := u ∘ l.pend } where
  inv := hr.1
  locked := .inl h.locked
  rowLocked := .inl h.rowLocked
  jobsLocked job hjob := (List.mem_append.1 hjob).elim (fun hold => .inl (h.jobsLocked job hold)) fun hnew => .inr (hjobs job hnew)
  fresh := h.fresh_of_rely hr
  pend db' hr' := by
    show (u (l.pend db')).ledger = _
    rw [hu, h.pend db' (hr.trans hr' Set.subset_union_left), List.append_assoc, List.append_assoc]

/-- It stores its response in the row. -/
theorem store (h : Midway row bookings jobs l) {db : RequestDb} (hr : keyDiscipline.Rely l.held l.db db) {ks : Set RequestKey}
    {u : RequestDb → RequestDb} {f : IdempotencyKey → IdempotencyKey} (hid : identity (f row) = identity row) (hrow : (f row).id = row.id)
    (hu : ∀ s, (u s).ledger = ⟨Table.update s.ledger.keys (·.id = row.id) f, s.ledger.bookings, s.ledger.exportJobs⟩) :
    Midway (f row) bookings jobs { l with db := db, held := l.held ∪ ks, pend := u ∘ l.pend } where
  inv := hr.1
  locked := hid ▸ .inl h.locked
  rowLocked := hrow ▸ .inl h.rowLocked
  jobsLocked job hjob := .inl (h.jobsLocked job hjob)
  fresh := by
    rw [hid, hrow]
    exact h.fresh_of_rely hr
  pend db' hr' := by
    have hr' := hr.trans hr' Set.subset_union_left
    have hothers : Table.update db'.ledger.keys (·.id = row.id) f = db'.ledger.keys :=
      Table.update_eq_self (List.any_eq_false.2 fun r hmem hsame => (h.fresh_of_rely hr' r hmem).2 (of_decide_eq_true hsame))
    have hown : Table.update [row] (·.id = row.id) f = [f row] := by simp [Table.update]
    show (u (l.pend db')).ledger = _
    rw [hu, h.pend db' hr', Table.update, List.map_append]
    exact congrArg₂ (fun old new => Ledger.mk (old ++ new) _ _) hothers hown

/-- Its rows are in place, and its response stored: it may commit. -/
theorem commit (h : Midway row bookings jobs l) (hstatus : row.status = .completed) {body : Json} (hbody : row.responseBody = some body)
    {db : RequestDb} (hr : keyDiscipline.Rely l.held l.db db) :
    keyDiscipline.Inv (l.pend db) ∧ ∀ k, k ∉ l.held → keyDiscipline.Keeps k db (l.pend db) := by
  have hfresh := h.fresh_of_rely hr
  refine ⟨?_, fun k hk => ?_⟩
  · show KeyTable (l.pend db).ledger.keys
    rw [h.pend db hr]
    refine ⟨hr.1.ids.insert fun r hmem => (hfresh r hmem).2, hr.1.identities.insert fun r hmem => (hfresh r hmem).1, fun r hmem => ?_⟩
    rcases List.mem_append.1 hmem with hold | hnew
    · exact hr.1.answered r hold
    · obtain rfl := List.mem_singleton.1 hnew
      exact ⟨hstatus, body, hbody⟩
  · show KeysKept k db.ledger (l.pend db).ledger
    rw [h.pend db hr]
    unfold KeysKept
    split
    · intro r hid
      refine ⟨fun hmem => List.mem_append_left _ hmem, fun hmem => ?_⟩
      rcases List.mem_append.1 hmem with hold | hnew
      · exact hold
      · obtain rfl := List.mem_singleton.1 hnew
        have hlock := h.locked
        rw [hid] at hlock
        exact absurd hlock hk
    · intro r hmem hid
      rcases List.mem_append.1 hmem with hold | hnew
      · exact hold
      · obtain rfl := List.mem_singleton.1 hnew
        exact absurd (hid ▸ h.rowLocked) hk
    · intro job hmem hid
      rcases List.mem_append.1 hmem with hold | hnew
      · exact hold
      · exact absurd (hid ▸ h.jobsLocked job hnew) hk
    · trivial

end Midway

/-! ### Statements -/

/-- Key rows and bookings stay as they are. -/
def SameBooks (a b : Bookings.Db) : Prop := b.idempotencyKeys = a.idempotencyKeys ∧ b.bookings = a.bookings

def SameLedger (a b : RequestDb) : Prop := b.ledger = a.ledger

theorem SameLedger.refl (a : RequestDb) : SameLedger a a := rfl

theorem SameLedger.trans {a b c : RequestDb} (hab : SameLedger a b) (hbc : SameLedger b c) : SameLedger a c := Eq.trans hbc hab

theorem sameLedger_of_lifts {a b : RequestDb} (h : hotelPart.Lifts SameBooks a b) : SameLedger a b := by
  have hset := congrArg RequestDb.exportJobs (h.2 a.hotel)
  have hjobs : b.exportJobs = a.exportJobs := hset
  have hkeys : b.hotel.idempotencyKeys = a.hotel.idempotencyKeys := h.1.1
  have hbookings : b.hotel.bookings = a.hotel.bookings := h.1.2
  rw [SameLedger, RequestDb.ledger, hkeys, hbookings, hjobs, RequestDb.ledger]

section InHotel

variable {α β : Type}

theorem inHotel_bind (c : Tx α) (f : α → Tx β) : inHotel (c >>= f) = inHotel c >>= fun a => inHotel (f a) := Txn.zoom_bind ..

theorem inHotel_pure (a : α) : inHotel (pure a) = pure a := rfl

theorem inHotel_orThrow (o : Option α) (e : AppError) : inHotel (Txn.orThrow o e) = Txn.orThrow o (.hotel e) := Txn.zoom_orThrow ..

theorem inHotel_require (c : Prop) [Decidable c] (e : AppError) : inHotel (Txn.require c e) = Txn.require c (.hotel e) := Txn.zoom_require ..

theorem inHotel_findLocked {ρ : Type} (table : Bookings.Db → List ρ) (key : ρ → Bookings.Key) (p : ρ → Bool) :
    inHotel (findLocked table key p) =
      Txn.locking (fun s => ((table s.hotel).find? p).toList.map fun r => .hotel (key r)) fun s => (table s.hotel).find? p := by
  rw [inHotel, findLocked, Txn.zoom_locking]
  simp only [List.map_map, hotelPart]
  rfl

/-- What the hotel writes leaves the ledger alone. -/
theorem writes_inHotel {c : Tx α} (hc : c.Writes SameBooks) : (inHotel c).Writes SameLedger :=
  hc.zoom.mono fun _ _ h => sameLedger_of_lifts h

end InHotel

section Statements

variable {α : Type} {l : RequestMid} {row : IdempotencyKey} {bookings : List Booking} {jobs : List StoredExportJob}

/-- A part of a creation that leaves the ledger alone. -/
theorem wp_midway {c : RequestTx α} {Q : α → RequestMid → Prop} (hc : c.Writes SameLedger)
    (h : Midway row bookings jobs l) (hQ : ∀ a l', Midway row bookings jobs l' → Q a l') : c.wp keyDiscipline Q l :=
  Txn.wp_of_writes SameLedger.refl (fun _ _ _ => SameLedger.trans) hc h.inv fun a l' hr hheld hpend => hQ a l' (h.still hr hheld hpend)

/-- The row as it is claimed. -/
def claimedRow (cfg : Config) (actorUserId : ℕ) (operation key fingerprint : String) (x : Supply) : IdempotencyKey :=
  ⟨x.id, actorUserId, operation, key, fingerprint, .pending, none, none, x.now + cfg.retentionHours * 3600000000⟩

/-- `INSERT … ON DUPLICATE KEY UPDATE` of a row. -/
def claimWrite (row : IdempotencyKey) (db : RequestDb) : RequestDb :=
  hotelPart.set db (if db.hotel.idempotencyKeys.any (isKeyRow row.actorUserId row.operation row.idempotencyKey) then db.hotel
    else { db.hotel with idempotencyKeys := db.hotel.idempotencyKeys ++ [row] })

theorem claimWrite_of_mem {db : RequestDb} {r : IdempotencyKey} (hr : r ∈ db.ledger.keys) (hid : identity r = identity row) :
    claimWrite row db = db := by
  have hany : db.hotel.idempotencyKeys.any (isKeyRow row.actorUserId row.operation row.idempotencyKey) = true :=
    List.any_eq_true.2 ⟨r, hr, isKeyRow_iff.2 hid⟩
  rw [claimWrite, if_pos hany]
  rfl

theorem ledger_claimWrite {db : RequestDb} (h : ∀ r ∈ db.ledger.keys, identity r ≠ identity row) :
    (claimWrite row db).ledger = ⟨db.ledger.keys ++ [row], db.ledger.bookings, db.ledger.exportJobs⟩ := by
  have hnone : ¬ db.hotel.idempotencyKeys.any (isKeyRow row.actorUserId row.operation row.idempotencyKey) = true := by
    intro hany
    obtain ⟨r, hr, hkey⟩ := List.any_eq_true.1 hany
    exact h r hr (isKeyRow_iff.1 hkey)
  rw [claimWrite, if_neg hnone]
  rfl

/-- The row of its key is there, and stays; the creation has changed nothing. -/
def Found (row : IdempotencyKey) (l : RequestMid) : Prop :=
  ∀ db, keyDiscipline.Rely l.held l.db db → l.pend db = db ∧ row ∈ db.ledger.keys

/-- A row of the key is found. -/
theorem found_of_mem {r : IdempotencyKey} (hpend : l.pend = claimWrite row) (hr : r ∈ l.db.ledger.keys) (hid : identity r = identity row)
    (hlock : (identity row).lock ∈ l.held) : Found r l := by
  intro db hrely
  have hmem := (key_iff_of_rely hrely hlock hid).1 hr
  rw [hpend]
  exact ⟨claimWrite_of_mem hmem hid, hmem⟩

/-- No row of the key is there, and nobody has the id. -/
theorem midway_of_claim (hpend : l.pend = claimWrite row) (hinv : KeyTable l.db.ledger.keys)
    (hnone : ∀ r ∈ l.db.ledger.keys, identity r ≠ identity row) (hids : ∀ r ∈ l.db.ledger.keys, r.id ≠ row.id)
    (hlock : (identity row).lock ∈ l.held) (hrow : .hotel (.idempotencyRow row.id) ∈ l.held) : Midway row [] [] l where
  inv := hinv
  locked := hlock
  rowLocked := hrow
  jobsLocked _ hjob := nomatch hjob
  fresh r hr := ⟨hnone r hr, hids r hr⟩
  pend db hrely := by
    rw [hpend, ledger_claimWrite fun r hr hid => hnone r ((key_iff_of_rely hrely hlock hid).2 hr) hid, List.append_nil, List.append_nil]

/-- The lock finds a row that is answered, or writes one. -/
theorem wp_lock {cfg : Config} {actorUserId : ℕ} {operation key fingerprint : String} {Q : IdempotencyKey → RequestMid → Prop}
    (hpend : l.pend = id)
    (hfound : ∀ row l', identity row = ⟨actorUserId, operation, key⟩ → row.requestFingerprint = fingerprint →
      row.status = .completed → Found row l' → Q row l')
    (hclaimed : ∀ row l', identity row = ⟨actorUserId, operation, key⟩ → row.requestFingerprint = fingerprint →
      row.status = .pending → l'.view = l.view → Midway row [] [] l' → Q row l') :
    (inHotel (IdempotencyRepository.lock cfg actorUserId operation key fingerprint)).wp keyDiscipline Q l := by
  rw [IdempotencyRepository.lock, inHotel_bind, Txn.wp_bind, IdempotencyRepository.claim, inHotel, Txn.zoom_writing, Txn.wp_writing]
  intro db₁ hr₁ x hok
  have hids : ∀ r ∈ db₁.ledger.keys, r.id < x.id := by
    rw [hpend] at hok
    exact fun r hr => of_decide_eq_true (List.all_eq_true.1 hok r hr)
  let claimed := claimedRow cfg actorUserId operation key fingerprint x
  rw [hpend, inHotel_bind, Txn.wp_bind, inHotel_findLocked]
  refine Txn.wp_locking_find (fun db₂ _ _ => ?_) fun db₂ hr₂ r hmem hkey => ?_
  · rw [inHotel_bind, inHotel_orThrow, Txn.wp_bind, Txn.wp_orThrow]
    exact fun _ ha => nomatch ha
  rw [inHotel_bind, inHotel_orThrow, Txn.wp_bind, Txn.wp_orThrow]
  rintro _ ⟨⟩
  rw [inHotel_bind, inHotel_require, Txn.wp_bind, Txn.wp_require]
  intro hfingerprint
  have hid : identity r = identity claimed := isKeyRow_iff.1 hkey
  have hmem : r ∈ (claimWrite claimed db₂).ledger.keys := hmem
  by_cases hthere : ∃ r' ∈ db₂.ledger.keys, identity r' = identity claimed
  · obtain ⟨r', hr', hid'⟩ := hthere
    rw [claimWrite_of_mem hr' hid'] at hmem
    refine hfound r _ hid hfingerprint (hr₂.1.answered r hmem).1 (found_of_mem (rfl : _ = claimWrite claimed) hmem hid ?_)
    exact .inl (.inr (by simp [KeyIdentity.lock, identity, claimed, claimedRow]))
  · push Not at hthere
    have hids₂ : ∀ r' ∈ db₂.ledger.keys, r'.id ≠ x.id := by
      intro r' hr' hx
      refine absurd (hids r' (row_of_rely hr₂ (.inr ?_) hr' hx)) (by omega)
      simp
    rw [ledger_claimWrite hthere, List.mem_append, List.mem_singleton] at hmem
    obtain rfl := hmem.resolve_left fun hold => hthere r hold hid
    refine hclaimed _ _ hid rfl rfl rfl (midway_of_claim rfl hr₂.1 hthere hids₂ ?_ ?_)
    · exact .inr rfl
    · exact .inl (.inr (by simp [claimed, claimedRow]))

theorem wp_insertBooking {make : Supply → Booking} {Q : Booking → RequestMid → Prop} (h : Midway row bookings jobs l)
    (hQ : ∀ x l', Midway row (bookings ++ [make x]) jobs l' → Q (make x) l') : (inHotel (insertBooking make)).wp keyDiscipline Q l := by
  rw [insertBooking, inHotel_bind, Txn.wp_bind, inHotel, Txn.zoom_writing, Txn.wp_writing]
  intro db hr x _
  rw [inHotel_pure, Txn.wp_pure]
  refine hQ x _ ?_
  rw [← List.append_nil jobs]
  refine h.write hr (fun s => ?_) fun _ hjob => by cases hjob
  rw [List.append_nil]
  rfl

/-- The row with its response. -/
def completedRow (row : IdempotencyKey) (responseStatus : ℕ) (responseBody : Json) : IdempotencyKey :=
  { row with status := .completed, responseStatus := some responseStatus, responseBody := some responseBody }

theorem wp_complete {responseStatus : ℕ} {responseBody : Json} {Q : Supply → RequestMid → Prop} (h : Midway row bookings jobs l)
    (hQ : ∀ x l', Midway (completedRow row responseStatus responseBody) bookings jobs l' → Q x l') :
    (inHotel (IdempotencyRepository.complete row responseStatus responseBody)).wp keyDiscipline Q l := by
  rw [IdempotencyRepository.complete, inHotel, Txn.zoom_writing, Txn.wp_writing]
  intro db hr x _
  exact hQ x _ (h.store (f := fun r => completedRow r responseStatus responseBody) hr rfl rfl fun _ => rfl)

end Statements

/-! ### What a request promises -/

/-- The key row a creation claims, and the fingerprint it claims it with; none where it is refused before. -/
def Request.claim (cfg : RequestConfig) : Request → Option (KeyIdentity × String)
  | .hotel (.create _ actorUserId idempotencyKey input) => (idempotencyKey.filter idempotencyKeyValid).map fun key =>
    (⟨actorUserId, bookingCreateOperation, key⟩, bookingCreateFingerprint cfg.toConfig actorUserId input)
  | .roomExport actorUserId idempotencyKey filters =>
    if cfg.exportsEnabled then (idempotencyKey.filter idempotencyKeyValid).map fun key =>
      (⟨actorUserId, roomExportCreateOperation, key⟩, roomExportCreateFingerprint cfg actorUserId filters)
    else none
  | _ => none

/-- The response to a creation, of the body in the row of its key. -/
def Request.replay (body : Json) : Request → Response
  | .roomExport _ _ _ => .roomExport (Reports.replay .roomExportCreate body)
  | _ => .hotel (.created (Reports.replay .bookingCreate body))

/-- The request has made one booking, or one job, and its response is about that. -/
inductive Creates (a b : Ledger) : Request → Json → Prop where
  | booking {today : String} {actorUserId : ℕ} {key : Option String} {input : BookingCreateInput} {booking : Booking} {room : Room}
      {roomType : RoomType} {nights : ℕ} (howner : booking.userId = actorUserId) (hbookings : b.bookings = a.bookings ++ [booking])
      (hjobs : b.exportJobs = a.exportJobs) :
      Creates a b (.hotel (.create today actorUserId key input)) (BookingsService.toCreateResponse booking room roomType nights)
  | roomExport {actorUserId : ℕ} {key : Option String} {filters : RoomExportFilters} {job : StoredExportJob}
      (howner : job.requestedBy = actorUserId) (hfilters : job.filters = filters.toJson)
      (hbookings : b.bookings = a.bookings) (hjobs : b.exportJobs = a.exportJobs ++ [job]) :
      Creates a b (.roomExport actorUserId key filters) (createdResponse job.id job.createdAt)

/-- A creation with this key and fingerprint is answered from the row, or writes it and what it is about. -/
inductive Serves (κ : KeyIdentity) (fingerprint : String) (i : Request) (x : Response) (a b : RequestDb) : Prop where
  | replays {row : IdempotencyKey} {body : Json} (hmem : row ∈ a.ledger.keys) (hid : identity row = κ)
      (hfingerprint : row.requestFingerprint = fingerprint) (hbody : row.responseBody = some body) (hx : x = i.replay body) (hsame : b = a)
  | creates {row : IdempotencyKey} {body : Json} (hnone : ∀ r ∈ a.ledger.keys, identity r ≠ κ) (hkeys : b.ledger.keys = a.ledger.keys ++ [row])
      (hid : identity row = κ) (hfingerprint : row.requestFingerprint = fingerprint) (hbody : row.responseBody = some body)
      (hx : x = i.replay body) (hcreates : Creates a.ledger b.ledger i body)

/-- Any other request writes no key row, and removes none that has not expired. -/
structure Spares (i : Request) (a b : RequestDb) : Prop where
  mem : ∀ row ∈ b.ledger.keys, row ∈ a.ledger.keys
  kept : ∀ row ∈ a.ledger.keys, row ∈ b.ledger.keys ∨ ∃ now batchSize, i = .purge now batchSize ∧ row.expiresAt ≤ now

def Promise (cfg : RequestConfig) (i : Request) (x : Response) (a b : RequestDb) : Prop :=
  match i.claim cfg with
  | some (κ, fingerprint) => Serves κ fingerprint i x a b
  | none => Spares i a b

section Promises

variable {cfg : RequestConfig} {i : Request} {l : RequestMid}

theorem promise_of_claim {κ : KeyIdentity} {fingerprint : String} {x : Response} {a b : RequestDb} (hclaim : i.claim cfg = some (κ, fingerprint))
    (h : Serves κ fingerprint i x a b) : Promise cfg i x a b := by
  rw [Promise, hclaim]
  exact h

/-- A creation that has found its row may commit. -/
theorem ensures_of_found {κ : KeyIdentity} {fingerprint : String} {row : IdempotencyKey} {x : Response}
    (hclaim : i.claim cfg = some (κ, fingerprint)) (hid : identity row = κ) (hfingerprint : row.requestFingerprint = fingerprint)
    (hx : x = i.replay (row.responseBody.getD .null)) (h : Found row l) : keyDiscipline.Ensures (Promise cfg i) x l := by
  intro db hr
  obtain ⟨hsame, hmem⟩ := h db hr
  obtain ⟨-, body, hbody⟩ := hr.1.answered row hmem
  rw [hsame]
  rw [hbody, Option.getD_some] at hx
  exact ⟨hr.1, fun k _ => .refl k db.ledger, promise_of_claim hclaim (.replays hmem hid hfingerprint hbody hx rfl)⟩

/-- A creation that has written its row, with its response, may commit. -/
theorem ensures_of_midway {κ : KeyIdentity} {fingerprint : String} {row : IdempotencyKey} {bookings : List Booking} {jobs : List StoredExportJob}
    {responseStatus : ℕ} {body : Json} {x : Response} (hclaim : i.claim cfg = some (κ, fingerprint)) (hid : identity row = κ)
    (hfingerprint : row.requestFingerprint = fingerprint) (hx : x = i.replay body)
    (h : Midway (completedRow row responseStatus body) bookings jobs l)
    (hcreates : ∀ a b : Ledger, b.bookings = a.bookings ++ bookings → b.exportJobs = a.exportJobs ++ jobs → Creates a b i body) :
    keyDiscipline.Ensures (Promise cfg i) x l := by
  intro db hr
  obtain ⟨hinv, hkeep⟩ := h.commit rfl rfl hr
  have hpend := h.pend db hr
  refine ⟨hinv, hkeep, promise_of_claim hclaim (.creates ?_ (?_ : _ = _ ++ [completedRow row responseStatus body]) hid hfingerprint rfl hx ?_)⟩
  · rintro r hmem rfl
    exact (h.fresh_of_rely hr r hmem).1 hid.symm
  · rw [hpend]
  · refine hcreates _ _ ?_ ?_
    · rw [hpend]
    · rw [hpend]

end Promises

/-! ### The creation of a booking -/

section Booking

variable (cfg : RequestConfig)

theorem books_insertStatusHistory {bookingId : ℕ} {fromStatus : Option BookingStatus} {toStatus : BookingStatus}
    {actorType : BookingActorType} {actorUserId : Option ℕ} {reason : Option String} :
    (insertStatusHistory bookingId fromStatus toStatus actorType actorUserId reason).Writes SameBooks := .writing fun _ _ => ⟨rfl, rfl⟩

theorem books_insertOutboxEvent {eventType key : String} {payload : Json} : (insertOutboxEvent eventType payload key).Writes SameBooks :=
  .writing fun _ _ => ⟨rfl, rfl⟩

theorem books_record {enabled : Bool} {change : BookingLifecycleChange} : (record enabled change).Writes SameBooks := by
  unfold record
  split
  · exact books_insertOutboxEvent.bind fun _ => .pure _
  · exact .pure _

theorem books_lockBookingTarget {input : BookingCreateInput} : (BookingsService.lockBookingTarget input).Writes SameBooks :=
  writes_lockRoom.bind fun _ => Txn.Writes.bind (.require _ _) fun _ => writes_lockContainingWindow.bind fun _ => .pure _

theorem create_promises (today : String) (actorUserId : ℕ) (idempotencyKey : Option String) (input : BookingCreateInput) (db : RequestDb) :
    (Request.run cfg (.hotel (.create today actorUserId idempotencyKey input))).wp keyDiscipline
      (keyDiscipline.Ensures (Promise cfg (.hotel (.create today actorUserId idempotencyKey input)))) ⟨∅, id, none, db⟩ := by
  rw [Request.run, Txn.wp_bind, Call.run, inHotel_bind, Txn.wp_bind, BookingsService.create, inHotel_bind, Txn.wp_bind, inHotel_orThrow,
    Txn.wp_orThrow]
  intro key hkey
  have hclaim : Request.claim cfg (.hotel (.create today actorUserId idempotencyKey input)) =
      some (⟨actorUserId, bookingCreateOperation, key⟩, bookingCreateFingerprint cfg.toConfig actorUserId input) := by
    rw [Request.claim, hkey, Option.map_some]
  rw [BookingsService.createInTransaction, inHotel_bind, Txn.wp_bind]
  refine wp_lock rfl (fun row l hid hfingerprint hstatus hfound => ?_) fun row l hid hfingerprint hstatus _ hmid => ?_
  · rw [if_pos hstatus]
    exact ensures_of_found hclaim hid hfingerprint rfl hfound
  rw [if_neg (by rw [hstatus]; decide)]
  dsimp only
  rw [inHotel_bind, Txn.wp_bind, inHotel_require, Txn.wp_require]
  intro _
  rw [inHotel_bind, Txn.wp_bind]
  refine wp_midway (writes_inHotel books_lockBookingTarget) hmid fun target l₁ hmid₁ => ?_
  obtain ⟨room, roomTime⟩ := target
  rw [inHotel_bind, Txn.wp_bind, inHotel_require, Txn.wp_require]
  intro _
  rw [inHotel_bind, Txn.wp_bind, BookingsService.createPendingBooking, inHotel_bind, Txn.wp_bind]
  refine wp_insertBooking hmid₁ fun x l₂ hmid₂ => ?_
  rw [inHotel_bind, Txn.wp_bind]
  refine wp_midway (writes_inHotel books_insertStatusHistory) hmid₂ fun _ l₃ hmid₃ => ?_
  rw [inHotel_pure, Txn.wp_pure, inHotel_bind, Txn.wp_bind]
  refine wp_midway (writes_inHotel books_record) hmid₃ fun _ l₄ hmid₄ => ?_
  rw [inHotel_bind, Txn.wp_bind]
  refine wp_midway (writes_inHotel writes_findOneOrFail) hmid₄ fun roomType l₅ hmid₅ => ?_
  rw [inHotel_bind, Txn.wp_bind]
  refine wp_complete hmid₅ fun _ l₆ hmid₆ => ?_
  exact ensures_of_midway hclaim hid hfingerprint rfl hmid₆ fun a b hbookings hjobs =>
    .booking rfl hbookings (hjobs.trans (List.append_nil _))

end Booking

/-! ### The creation of an export -/

section Export

variable (cfg : RequestConfig) {l : RequestMid} {row : IdempotencyKey} {bookings : List Booking} {jobs : List StoredExportJob}

/-- A write that leaves the ledger alone, and takes no snapshot. -/
theorem wp_writing_midway {ks : Supply → RequestDb → List RequestKey} {ok : Supply → RequestDb → Bool} {u : Supply → RequestDb → RequestDb}
    {Q : Supply → RequestMid → Prop} (hu : ∀ x db, SameLedger db (u x db)) (h : Midway row bookings jobs l)
    (hQ : ∀ x l', l'.view = l.view → Midway row bookings jobs l' → Q x l') : (Txn.writing ks ok u : RequestTx Supply).wp keyDiscipline Q l := by
  rw [Txn.wp_writing]
  intro db hr x _
  exact hQ x _ rfl (h.still hr Set.subset_union_left fun db' => hu x (l.pend db'))

theorem wp_insertJob {job : ExportJob} {Q : Supply → RequestMid → Prop} (h : Midway row bookings [] l)
    (hQ : ∀ x l', l'.view = l.view → Midway row bookings [⟨job, x.now⟩] l' → (∀ j ∈ l'.db.exportJobs, j.id ≠ job.id) → Q x l') :
    (ExportJobRepository.insertJob job).wp keyDiscipline Q l := by
  rw [ExportJobRepository.insertJob, Txn.wp_writing]
  intro db hr x hok
  have hjobs : (l.pend db).exportJobs = db.exportJobs := (congrArg Ledger.exportJobs (h.pend db hr)).trans (List.append_nil _)
  refine hQ x _ rfl ?_ fun j hj => ?_
  · rw [← List.append_nil bookings]
    refine h.write hr (fun s => ?_) fun (j : StoredExportJob) (hj : j ∈ [⟨job, x.now⟩]) => ?_
    · rw [List.append_nil]
      rfl
    · obtain rfl := List.mem_singleton.1 hj
      exact List.mem_singleton_self _
  · rw [hjobs] at hok
    exact (of_decide_eq_true (List.all_eq_true.1 hok j hj)).1

/-- The job that is read back is the one that was written. -/
theorem wp_createJob {requestedBy : ℕ} {filters : Json} {Q : StoredExportJob → RequestMid → Prop} (hview : l.view = none)
    (h : Midway row bookings [] l)
    (hQ : ∀ (job : StoredExportJob) l', job.requestedBy = requestedBy → job.filters = filters → Midway row bookings [job] l' → Q job l') :
    (ExportJobRepository.create requestedBy filters).wp keyDiscipline Q l := by
  rw [ExportJobRepository.create, Txn.wp_bind, ExportJobRepository.randomUUID, Txn.wp_bind]
  refine wp_writing_midway (fun _ db => .refl db) h fun x₁ l₁ hview₁ h₁ => ?_
  rw [Txn.wp_pure, Txn.wp_bind, insertOutboxEvent, inHotel, Txn.zoom_writing]
  refine wp_writing_midway (fun _ _ => rfl) h₁ fun x₂ l₂ hview₂ h₂ => ?_
  rw [Txn.wp_bind]
  refine wp_insertJob h₂ fun x₃ l₃ hview₃ h₃ hnew => ?_
  rw [Txn.wp_bind, Txn.wp_reading]
  intro db hr
  rw [Txn.wp_orThrow]
  rintro job hfind
  have hview : l₃.view = none := by rw [hview₃, hview₂, hview₁, hview]
  have hjobs : (l₃.pend db).exportJobs = db.exportJobs ++ [⟨.queued x₁.uuid requestedBy x₂.uuid filters, x₃.now⟩] :=
    congrArg Ledger.exportJobs (h₃.pend db hr)
  rw [hview, Option.getD_none, hjobs] at hfind
  have hmem := List.mem_of_find?_eq_some hfind
  have hid : job.id = x₁.uuid := by simpa using List.find?_some hfind
  have hlocked := h₃.jobsLocked _ (List.mem_singleton_self _)
  -- nobody else has inserted a job with the id
  obtain rfl : job = ⟨.queued x₁.uuid requestedBy x₂.uuid filters, x₃.now⟩ := by
    rcases List.mem_append.1 hmem with hold | hown
    · exact absurd hid (hnew job (job_of_rely hr hlocked hold hid))
    · exact List.mem_singleton.1 hown
  exact hQ _ _ rfl rfl (h₃.still hr subset_rfl fun _ => rfl)

theorem roomExport_promises (actorUserId : ℕ) (idempotencyKey : Option String) (filters : RoomExportFilters) (db : RequestDb) :
    (Request.run cfg (.roomExport actorUserId idempotencyKey filters)).wp keyDiscipline
      (keyDiscipline.Ensures (Promise cfg (.roomExport actorUserId idempotencyKey filters))) ⟨∅, id, none, db⟩ := by
  rw [Request.run, Txn.wp_bind, RoomExportService.create, Txn.wp_bind, Txn.wp_require]
  intro henabled
  rw [Txn.wp_bind, Txn.wp_orThrow]
  intro key hkey
  have hclaim : Request.claim cfg (.roomExport actorUserId idempotencyKey filters) =
      some (⟨actorUserId, roomExportCreateOperation, key⟩, roomExportCreateFingerprint cfg actorUserId filters) := by
    rw [Request.claim, if_pos henabled, hkey, Option.map_some]
  rw [RoomExportService.createInTransaction, Txn.wp_bind]
  refine wp_lock rfl (fun row l hid hfingerprint hstatus hfound => ?_) fun row l hid hfingerprint hstatus hview hmid => ?_
  · rw [if_pos hstatus]
    exact ensures_of_found hclaim hid hfingerprint rfl hfound
  rw [if_neg (by rw [hstatus]; decide), Txn.wp_bind]
  refine wp_createJob hview hmid fun job l₁ howner hfilters hmid₁ => ?_
  dsimp only
  rw [Txn.wp_bind]
  refine wp_complete hmid₁ fun _ l₂ hmid₂ => ?_
  exact ensures_of_midway hclaim hid hfingerprint rfl hmid₂ fun a b hbookings hjobs =>
    .roomExport howner hfilters (hbookings.trans (List.append_nil _)) hjobs

end Export

/-! ### The other requests -/

theorem of_mem_dueKeys {now batchSize : ℕ} {db : Bookings.Db} {row : IdempotencyKey} (h : row ∈ dueKeys now batchSize db) :
    row ∈ db.idempotencyKeys ∧ row.expiresAt ≤ now := by
  have hmem := List.mem_of_mem_take h
  rwa [List.mem_insertionSort, List.mem_filter, decide_eq_true_eq] at hmem

/-- A batch removes the rows it has locked, which have expired. -/
theorem purge_promises (cfg : RequestConfig) (now batchSize : ℕ) (db : RequestDb) :
    (Request.run cfg (.purge now batchSize)).wp keyDiscipline (keyDiscipline.Ensures (Promise cfg (.purge now batchSize)))
      ⟨∅, id, none, db⟩ := by
  rw [Request.run, Txn.wp_bind, purgeKeys, inHotel_bind, Txn.wp_bind, inHotel, Txn.zoom_locking, Txn.wp_locking]
  intro db₁ _
  rw [inHotel_bind, Txn.wp_bind, inHotel, Txn.zoom_writing, Txn.wp_writing]
  intro db₂ hr₂ x _
  rw [inHotel_pure, Txn.wp_pure, Txn.wp_pure]
  intro db₃ hr₃
  let due := dueKeys now batchSize db₁.hotel
  let left := Table.delete db₃.ledger.keys fun r => due.any fun d => d.id = r.id
  have hlocked : ∀ d ∈ due, (identity d).lock ∈ (∅ ∪ {k | k ∈ (due.map rowLock).map RequestKey.hotel} : Set RequestKey) := by
    intro d hd
    have hlock : RequestKey.hotel (rowLock d) ∈ (due.map rowLock).map RequestKey.hotel := List.mem_map_of_mem (List.mem_map_of_mem hd)
    exact .inr hlock
  -- the rows it has locked are still there, and their ids are theirs
  have hthere : ∀ d ∈ due, d ∈ db₃.ledger.keys := fun d hd =>
    (key_iff_of_rely (hr₂.trans hr₃ Set.subset_union_left) (hlocked d hd) rfl).1 (of_mem_dueKeys hd).1
  have hdue : ∀ r ∈ db₃.ledger.keys, r ∈ left ∨ r ∈ due := by
    intro r hr
    by_cases hany : (due.any fun d => d.id = r.id) = true
    · obtain ⟨d, hd, hid⟩ := List.any_eq_true.1 hany
      exact .inr (hr₃.1.ids d (hthere d hd) r hr (of_decide_eq_true hid) ▸ hd)
    · exact .inl (Table.mem_delete.2 ⟨hr, Bool.not_eq_true _ ▸ hany⟩)
  have hleft : ∀ r ∈ left, r ∈ db₃.ledger.keys := fun r hr => (Table.mem_delete.1 hr).1
  refine ⟨⟨hr₃.1.ids.delete, hr₃.1.identities.delete, fun r hr => hr₃.1.answered r (hleft r hr)⟩, fun k hk => ?_, ?_⟩
  · show KeysKept k db₃.ledger ⟨left, db₃.ledger.bookings, db₃.ledger.exportJobs⟩
    unfold KeysKept
    split
    · refine fun r hid => ⟨fun hr => (hdue r hr).resolve_right fun hd => hk ?_, hleft r⟩
      have hlock := hlocked r hd
      rw [hid] at hlock
      exact .inl hlock
    · exact fun r hr _ => hleft r hr
    · exact fun _ hjob _ => hjob
    · trivial
  · show Spares _ _ _
    exact ⟨hleft, fun r hr => (hdue r hr).imp_right fun hd => ⟨now, batchSize, rfl, (of_mem_dueKeys hd).2⟩⟩

/-- Key rows stay as they are. -/
def SameKeys (a b : Bookings.Db) : Prop := b.idempotencyKeys = a.idempotencyKeys

theorem SameKeys.refl (a : Bookings.Db) : SameKeys a a := rfl

theorem SameKeys.trans {a b c : Bookings.Db} (hab : SameKeys a b) (hbc : SameKeys b c) : SameKeys a c := Eq.trans hbc hab

section Calls

variable {cfg : Config}

theorem keys_insertStatusHistory {bookingId : ℕ} {fromStatus : Option BookingStatus} {toStatus : BookingStatus}
    {actorType : BookingActorType} {actorUserId : Option ℕ} {reason : Option String} :
    (insertStatusHistory bookingId fromStatus toStatus actorType actorUserId reason).Writes SameKeys := .writing fun _ _ => rfl

theorem keys_insertOutbox {booking : Booking} {eventType : BookingOutboxEventType} {room : OutboxRoom} {reason : Option String}
    {change : Option BookingChangeOutboxDetail} : (insertOutbox booking eventType room reason change).Writes SameKeys :=
  .writing fun _ _ => rfl

theorem keys_record {enabled : Bool} {change : BookingLifecycleChange} : (record enabled change).Writes SameKeys :=
  books_record.mono fun _ _ h => h.1

theorem keys_saveBooking {b : Booking} : (saveBooking b).Writes SameKeys :=
  Txn.Writes.bind (.reading _) fun _ => Txn.Writes.bind (.writing fun _ _ => rfl) fun _ => .pure _

theorem keys_appendTransitionAndOutbox {booking : Booking} {actorUserId : ℕ} {reason : Option String}
    {eventType : BookingOutboxEventType} {room : Room} :
    (appendTransitionAndOutbox cfg booking actorUserId reason eventType room).Writes SameKeys :=
  keys_insertStatusHistory.bind fun _ => keys_record.bind fun _ => keys_insertOutbox.bind fun _ => .pure _

theorem keys_recordLifecycleByRoomTime {booking : Booking} {fromStatus : BookingStatus} :
    (recordLifecycleByRoomTime cfg booking fromStatus).Writes SameKeys := by
  unfold recordLifecycleByRoomTime
  split
  · exact writes_findRoomOfWindow.bind fun _ => keys_record
  · exact .pure _

theorem writes_lockBooking {publicId : String} {R : Bookings.Db → Bookings.Db → Prop} : (lockBooking publicId).Writes R :=
  writes_findLocked.bind fun _ => .orThrow _ _

/-- Only a creation of a booking writes a key row. -/
theorem keys_of_call {call : Call} (h : ∀ today actorUserId key input, call ≠ .create today actorUserId key input) :
    (call.run cfg).Writes SameKeys := by
  cases call with
  | create today actorUserId key input => exact absurd rfl (h today actorUserId key input)
  | approve actorUserId publicId =>
    refine Txn.Writes.bind (writes_bookingSourceSnapshot.bind fun _ => writes_lockRoom.bind fun _ => writes_lockBooking.bind fun b => ?_)
      fun _ => .pure _
    split
    · exact .pure _
    · exact Txn.Writes.bind (.require _ _) fun _ => Txn.Writes.bind (.require _ _) fun _ => writes_findLocked.bind fun _ =>
        Txn.Writes.bind (.orThrow _ _) fun _ => Txn.Writes.bind (.require _ _) fun _ => writes_assertNoConfirmedOverlap.bind fun _ =>
        keys_saveBooking.bind fun _ => keys_appendTransitionAndOutbox.bind fun _ => .pure _
  | reject actorUserId publicId reason =>
    refine Txn.Writes.bind (writes_lockBooking.bind fun b => ?_) fun _ => .pure _
    split
    · exact Txn.Writes.bind (.require _ _) fun _ => .pure _
    · exact Txn.Writes.bind (.require _ _) fun _ => keys_saveBooking.bind fun _ => writes_findRoomOfWindow.bind fun _ =>
        keys_appendTransitionAndOutbox.bind fun _ => .pure _
  | updateAdmin today actorUserId publicId expectedVersion body =>
    refine Txn.Writes.bind ?_ fun _ => .pure _
    exact writes_bookingSourceSnapshot.bind fun _ => Txn.Writes.bind (.require _ _) fun _ => writes_lockRooms.bind fun _ =>
      writes_lockBooking.bind fun _ => Txn.Writes.bind (.require _ _) fun _ => Txn.Writes.bind (.require _ _) fun _ =>
      writes_findLocked.bind fun _ => Txn.Writes.bind (.require _ _) fun _ => Txn.Writes.bind (.require _ _) fun _ =>
      Txn.Writes.bind (.require _ _) fun _ => Txn.Writes.bind (.require _ _) fun _ => Txn.Writes.bind (.orThrow _ _) fun _ =>
      Txn.Writes.bind (.require _ _) fun _ => writes_lockContainingWindow.bind fun _ =>
      Txn.Writes.bind (.when _ writes_assertNoConfirmedOverlap) fun _ => keys_saveBooking.bind fun _ =>
      Txn.Writes.bind (.writing fun _ _ => rfl) fun _ => Txn.Writes.bind (.orThrow _ _) fun _ => keys_record.bind fun _ =>
      keys_insertOutbox.bind fun _ => .pure _
  | cancelOwn actorUserId publicId =>
    refine Txn.Writes.bind (writes_findLocked.bind fun _ => Txn.Writes.bind (.orThrow _ _) fun b => ?_) fun _ => .pure _
    split
    · exact .pure _
    · exact Txn.Writes.bind (.require _ _) fun _ => keys_saveBooking.bind fun _ => keys_insertStatusHistory.bind fun _ =>
        keys_recordLifecycleByRoomTime.bind fun _ => .pure _
  | cancelAdmin actorUserId publicId reason =>
    refine Txn.Writes.bind (writes_lockBooking.bind fun b => ?_) fun _ => .pure _
    split
    · exact Txn.Writes.bind (.reading _) fun _ => Txn.Writes.bind (.require _ _) fun _ => .pure _
    · exact Txn.Writes.bind (.require _ _) fun _ => keys_saveBooking.bind fun _ => writes_findRoomOfWindow.bind fun _ =>
        keys_insertStatusHistory.bind fun _ => keys_record.bind fun _ => keys_insertOutbox.bind fun _ => .pure _
  | createRoomTime roomId body =>
    refine Txn.Writes.bind ?_ fun _ => .pure _
    exact Txn.Writes.bind (.ofExcept _) fun _ => writes_lockRoom.bind fun _ => writes_assertNoActiveOverlap.bind fun _ =>
      Txn.Writes.bind (Txn.Writes.bind (.writing fun _ _ => rfl) fun _ => .pure _) fun _ => .pure _
  | updateRoomTime roomId roomTimeId body =>
    refine Txn.Writes.bind ?_ fun _ => .pure _
    exact Txn.Writes.bind (.require _ _) fun _ => writes_lockRoom.bind fun _ => writes_findLockedRoomTime.bind fun _ =>
      writes_loadUsage.bind fun _ => Txn.Writes.bind (.ofExcept _) fun _ => writes_assertNoActiveOverlap.bind fun _ =>
      Txn.Writes.bind (Txn.Writes.bind (.reading _) fun _ => Txn.Writes.bind (.writing fun _ _ => rfl) fun _ => .pure _) fun _ => .pure _
  | deleteRoomTime roomId roomTimeId =>
    refine Txn.Writes.bind ?_ fun _ => .pure _
    exact writes_lockRoom.bind fun _ => writes_findLockedRoomTime.bind fun _ => writes_loadUsage.bind fun _ =>
      Txn.Writes.bind (.ofExcept _) fun _ => Txn.Writes.bind (.locking _ _) fun _ => Txn.Writes.bind (.require _ _) fun _ =>
      Txn.Writes.bind (.writing fun _ _ => rfl) fun _ => .pure _

end Calls

/-- A request that writes no key row and no job. -/
theorem other_promises {cfg : RequestConfig} {i : Request} (hclaim : i.claim cfg = none) {c : Tx Answer} (hc : c.Writes SameKeys) (db : RequestDb)
    (hinv : KeyTable db.ledger.keys) :
    (do let answer ← inHotel c; pure (Response.hotel answer) : RequestTx Response).wp keyDiscipline (keyDiscipline.Ensures (Promise cfg i))
      ⟨∅, id, none, db⟩ := by
  rw [Txn.wp_bind]
  refine Txn.wp_of_writes (Part.Lifts.refl SameKeys.refl) (fun _ _ _ => Part.Lifts.trans fun _ _ _ => SameKeys.trans) hc.zoom hinv
    fun answer l _ _ hlifts => ?_
  rw [Txn.wp_pure]
  intro db' hr
  have hkeys : (l.pend db').ledger.keys = db'.ledger.keys := (hlifts db').1
  have hset := congrArg RequestDb.exportJobs ((hlifts db').2 db'.hotel)
  have hjobs : (l.pend db').ledger.exportJobs = db'.ledger.exportJobs := hset
  refine ⟨?_, fun k _ => ?_, ?_⟩
  · show KeyTable (l.pend db').ledger.keys
    rw [hkeys]
    exact hr.1
  · show KeysKept k db'.ledger (l.pend db').ledger
    unfold KeysKept
    rw [hkeys, hjobs]
    exact KeysKept.refl k db'.ledger
  · rw [Promise, hclaim]
    refine ⟨fun row hrow => ?_, fun row hrow => .inl ?_⟩
    · rwa [← hkeys]
    · rwa [hkeys]

/-- Every request does what it promises. -/
theorem run_promises (cfg : RequestConfig) (i : Request) (db : RequestDb) (hinv : keyDiscipline.Inv db) :
    (i.run cfg).wp keyDiscipline (keyDiscipline.Ensures (Promise cfg i)) ⟨∅, id, none, db⟩ := by
  cases i with
  | hotel call =>
    by_cases hcreate : ∃ today actorUserId key input, call = .create today actorUserId key input
    · obtain ⟨today, actorUserId, key, input, rfl⟩ := hcreate
      exact create_promises cfg today actorUserId key input db
    · push Not at hcreate
      refine other_promises ?_ (keys_of_call hcreate) db hinv
      cases call with
      | create today actorUserId key input => exact absurd rfl (hcreate today actorUserId key input)
      | _ => rfl
  | roomExport actorUserId key filters => exact roomExport_promises cfg actorUserId key filters db
  | purge now batchSize => exact purge_promises cfg now batchSize db

end HotelBackend.Reports
