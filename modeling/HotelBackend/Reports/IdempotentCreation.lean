import HotelBackend.Theory.Solo
import HotelBackend.Theory.Throughout
import HotelBackend.Bookings.Availability
import HotelBackend.Reports.CreatePromises

/-!
# Creations are idempotent

Of all creations that share an actor, an operation and a key, however they interleave, at most one creates
while the row of the key is retained, and every other one that succeeds answers what that one answered
(`creation_idempotent`). One with another fingerprint is refused, whether it comes later or has been waiting
for the row, and one that is rolled back changes nothing. A committed row is never `PENDING`, so what the
purge removes has been answered.
-/

namespace HotelBackend.Reports

open HotelBackend.Common
open HotelBackend.Theory
open HotelBackend.Theory.Transactions
open HotelBackend.Bookings
open HotelBackend.Rooms

variable {cfg : RequestConfig} {κ : KeyIdentity} {f g : String} {i j : Request} {s t u : RequestSys}

/-! ### A creation begins with its key row -/

/-- The statements that claim the row of the key `κ` and return it locked. -/
def lockRow (cfg : RequestConfig) (κ : KeyIdentity) (f : String) : RequestTx IdempotencyKey :=
  inHotel (IdempotencyRepository.lock cfg.toConfig κ.actorUserId κ.operation κ.key f)

/-- The program locks the row of the key, and answers from it if it is completed. -/
def LocksFirst (cfg : RequestConfig) (κ : KeyIdentity) (f : String) (i : Request) (c : RequestTx Response) : Prop :=
  ∃ rest : IdempotencyKey → RequestTx Response, c = lockRow cfg κ f >>= rest ∧
    ∀ row, row.status = .completed → rest row = pure (i.replay (row.responseBody.getD .null))

theorem locksFirst_of_eq {α : Type} {k : IdempotencyKey → RequestTx α} {m : α → RequestTx Response} {c : RequestTx Response}
    (hc : c = lockRow cfg κ f >>= k >>= m)
    (hk : ∀ row, row.status = .completed → k row >>= m = pure (i.replay (row.responseBody.getD .null))) :
    LocksFirst cfg κ f i c := ⟨_, hc.trans (Txn.bind_assoc _ _ _), hk⟩

theorem run_locksFirst (h : i.claim cfg = some (κ, f)) : LocksFirst cfg κ f i (i.run cfg) := by
  cases i with
  | purge now batchSize => cases h
  | roomExport actorUserId idempotencyKey filters =>
    rw [Request.claim] at h
    split at h
    case isFalse => cases h
    case isTrue henabled =>
      rw [Option.map_eq_some_iff] at h
      obtain ⟨key, hkey, heq⟩ := h
      cases heq
      rw [Request.run, RoomExportService.create, hkey, Txn.require, if_pos henabled]
      refine locksFirst_of_eq (m := fun body => pure (.roomExport body)) rfl fun row hrow => ?_
      dsimp only
      rw [if_pos hrow]
      rfl
  | hotel call =>
    cases call with
    | create today actorUserId idempotencyKey input =>
      rw [Request.claim, Option.map_eq_some_iff] at h
      obtain ⟨key, hkey, heq⟩ := h
      cases heq
      have hcreate : BookingsService.create cfg.toConfig today actorUserId idempotencyKey input =
          BookingsService.createInTransaction cfg.toConfig today actorUserId key (bookingCreateFingerprint cfg.toConfig actorUserId input) input := by
        rw [BookingsService.create, hkey]
        rfl
      rw [Request.run, Call.run, hcreate, BookingsService.createInTransaction, inHotel_bind, inHotel_bind, Txn.bind_assoc]
      refine locksFirst_of_eq rfl fun row hrow => ?_
      dsimp only
      rw [if_pos hrow]
      rfl
    | _ => cases h

/-! ### A key used for another request -/

/-- The row is committed. -/
def Stands (row : IdempotencyKey) (db : RequestDb) : Prop := KeyTable db.ledger.keys ∧ row ∈ db.ledger.keys

theorem find?_of_stands {row : IdempotencyKey} {db : RequestDb} (h : Stands row db) :
    db.hotel.idempotencyKeys.find? (isKeyRow (identity row).actorUserId (identity row).operation (identity row).key) = some row := by
  refine Table.find?_of_key h.1.identities h.2 (isKeyRow_iff.2 rfl) fun r hr => ?_
  exact isKeyRow_iff.1 hr

section Locks

variable {row : IdempotencyKey}

/-- The statements of the lock, one after the other. -/
theorem lockRow_eq : lockRow cfg κ f =
    Txn.writing (fun x _ => [κ.lock, .hotel (.idempotencyRow x.id)]) (fun x db => above db.hotel.idempotencyKeys (·.id) x.id)
      (fun x => claimWrite (claimedRow cfg.toConfig κ.actorUserId κ.operation κ.key f x)) >>= fun _ =>
    Txn.locking (fun db => (db.hotel.idempotencyKeys.find? (isKeyRow κ.actorUserId κ.operation κ.key)).toList.map fun r => .hotel (rowLock r))
      (fun db => db.hotel.idempotencyKeys.find? (isKeyRow κ.actorUserId κ.operation κ.key)) >>= fun found =>
    Txn.orThrow found (.hotel .internal) >>= fun row =>
    Txn.require (row.requestFingerprint = f) (.hotel .idempotencyKeyReused) >>= fun _ => pure row := by
  rw [lockRow, IdempotencyRepository.lock, inHotel_bind, IdempotencyRepository.claim, inHotel, Txn.zoom_writing]
  refine congrArg (Txn.bind _) (funext fun _ => ?_)
  rw [inHotel_bind, inHotel_findLocked]
  refine congrArg (Txn.bind _) (funext fun found => ?_)
  rw [inHotel_bind, inHotel_orThrow]
  refine congrArg (Txn.bind _) (funext fun row => ?_)
  rw [inHotel_bind, inHotel_require]
  rfl

theorem lockRow_takesFirst (rest : IdempotencyKey → RequestTx Response) : (lockRow cfg κ f >>= rest).TakesFirst κ.lock := by
  rw [lockRow_eq]
  intro x db
  exact List.mem_cons_self

/-- Nothing is written over a row that stands. -/
theorem claimWrite_of_stands {db : RequestDb} (h : Stands row db) (x : Supply) :
    claimWrite (claimedRow cfg.toConfig (identity row).actorUserId (identity row).operation (identity row).key f x) db = db :=
  claimWrite_of_mem h.2 rfl

/-- Where the row of the key stands, another fingerprint is refused. -/
theorem within_lockRow (hid : identity row = κ) (hf : f ≠ row.requestFingerprint) {Q : IdempotencyKey → (RequestDb → RequestDb) → Prop} :
    (lockRow cfg κ f).within (Stands row) Q (· = .hotel .idempotencyKeyReused) id := by
  subst hid
  rw [lockRow_eq, Txn.within_bind, Txn.within_writing]
  intro db₁ x h₁ _
  rw [Txn.within_bind, Txn.within_locking]
  intro db₂ h₂
  rw [Function.comp_id, claimWrite_of_stands h₂, find?_of_stands h₂, Txn.within_bind, Txn.within_orThrow_some, Txn.within_bind,
    Txn.within_require_neg hf.symm]

/-- Alone, a retry finds the row, and another request is refused. -/
theorem alone_lockRow {db : RequestDb} (h : Stands row db) (hid : identity row = κ) {Q : IdempotencyKey → RequestDb → Prop}
    {E : RequestError → Prop} (hQ : f = row.requestFingerprint → Q row db) (hE : f ≠ row.requestFingerprint → E (.hotel .idempotencyKeyReused)) :
    (lockRow cfg κ f).alone db Q E db := by
  subst hid
  obtain ⟨id, hid⟩ := exists_above db.hotel.idempotencyKeys (·.id)
  rw [lockRow_eq, Txn.alone_bind, Txn.alone_writing]
  refine ⟨⟨⟨id, "", "", 0⟩, hid⟩, fun x _ => ?_⟩
  rw [Txn.alone_bind, Txn.alone_locking, claimWrite_of_stands h, find?_of_stands h, Txn.alone_bind, Txn.alone_orThrow_some, Txn.alone_bind]
  by_cases hf : row.requestFingerprint = f
  · rw [Txn.alone_require_pos hf]
    exact hQ hf.symm
  · rw [Txn.alone_require_neg hf]
    exact hE (Ne.symm hf)

end Locks

/-- The lock that a request takes first. -/
def Request.key (cfg : RequestConfig) (i : Request) : Option RequestKey := (i.claim cfg).map (·.1.lock)

theorem run_takesFirst (i : Request) (k : RequestKey) (h : i.key cfg = some k) : (i.run cfg).TakesFirst k := by
  rw [Request.key, Option.map_eq_some_iff] at h
  obtain ⟨⟨κ, f⟩, hclaim, rfl⟩ := h
  obtain ⟨rest, hrun, -⟩ := run_locksFirst hclaim
  rw [hrun]
  exact lockRow_takesFirst rest

/-- Where the row of its key stands, a request of another fingerprint can only be refused. -/
theorem run_within {row : IdempotencyKey} (h : i.claim cfg = some (κ, f)) (hid : identity row = κ) (hf : f ≠ row.requestFingerprint) :
    (i.run cfg).within (Stands row) (fun _ _ => False) (· = .hotel .idempotencyKeyReused) id := by
  obtain ⟨rest, hrun, -⟩ := run_locksFirst h
  rw [hrun, Txn.within_bind]
  exact within_lockRow hid hf

/-- Alone, a request whose key has a row is answered from it, or refused. -/
theorem run_alone {row : IdempotencyKey} {db : RequestDb} (hrow : Stands row db) (h : i.claim cfg = some (identity row, f)) :
    (i.run cfg).alone db (fun x db' => f = row.requestFingerprint ∧ x = i.replay (row.responseBody.getD .null) ∧ db' = db)
      (fun e => f ≠ row.requestFingerprint ∧ e = .hotel .idempotencyKeyReused) db := by
  obtain ⟨rest, hrun, hrest⟩ := run_locksFirst h
  rw [hrun, Txn.alone_bind]
  refine alone_lockRow hrow rfl (fun hf => ?_) fun hf => ⟨hf, rfl⟩
  rw [hrest row (hrow.1.answered row hrow.2).1, Txn.alone_pure]
  exact ⟨hf, rfl, rfl⟩

/-! ### Requests of one key -/

/-- A row of the key is there. -/
def Retains (κ : KeyIdentity) (s : RequestSys) : Prop := ∃ row ∈ s.db.ledger.keys, identity row = κ

/-- A request of the key commits, and answers `x`. -/
def Succeeds (cfg : RequestConfig) (κ : KeyIdentity) (f : String) (x : Response) (s t : RequestSys) : Prop :=
  ∃ a p i, (requestSystem cfg).exec s a = some t ∧ Sys.Commits p i x s t ∧ i.claim cfg = some (κ, f)

abbrev Promised (cfg : RequestConfig) (s : RequestSys) : Prop := Sys.Promised keyDiscipline (Promise cfg) s

theorem promised_of_requests (h : (requestSystem cfg).Reachable (fun _ _ => True) s) : Promised cfg s := by
  refine promised_of_reachable ?_ (run_promises cfg) h
  rintro _ ⟨roomTypes, rooms, rfl⟩
  refine ⟨?_, ?_, ?_⟩ <;> exact fun _ hrow => by cases hrow

section Steps

variable {a : Act Supply Request} {row : IdempotencyKey}

/-- A row is removed by the purge, which takes those that have expired. -/
theorem kept_of_exec (h : Promised cfg s) (he : (requestSystem cfg).exec s a = some t) (hrow : row ∈ s.db.ledger.keys) :
    row ∈ t.db.ledger.keys ∨ ∃ p now batchSize x, Sys.Commits p (.purge now batchSize) x s t ∧ row.expiresAt ≤ now := by
  rcases (h.step (run_promises cfg) he).2 with hidle | ⟨p, i, x, hcommit, hpromise⟩
  · rw [hidle.1]
    exact .inl hrow
  rw [Promise] at hpromise
  split at hpromise
  · cases hpromise with
    | replays hmem hid hfingerprint hbody hx hsame =>
      rw [hsame]
      exact .inl hrow
    | creates hnone hkeys hid hfingerprint hbody hx hcreates =>
      rw [hkeys]
      exact .inl (List.mem_append_left _ hrow)
  · refine (hpromise.kept row hrow).imp_right ?_
    rintro ⟨now, batchSize, rfl, hexpired⟩
    exact ⟨p, now, batchSize, x, hcommit, hexpired⟩

/-- As long as there is a row of the key, it is the same. -/
theorem mem_of_exec (h : Promised cfg s) (he : (requestSystem cfg).exec s a = some t) (hrow : row ∈ s.db.ledger.keys)
    (hretains : Retains (identity row) t) : row ∈ t.db.ledger.keys := by
  rcases (h.step (run_promises cfg) he).2 with hidle | ⟨p, i, x, hcommit, hpromise⟩
  · rwa [hidle.1]
  rw [Promise] at hpromise
  split at hpromise
  · cases hpromise with
    | replays hmem hid hfingerprint hbody hx hsame => rwa [hsame]
    | creates hnone hkeys hid hfingerprint hbody hx hcreates =>
      rw [hkeys]
      exact List.mem_append_left _ hrow
  · obtain ⟨r, hr, hid⟩ := hretains
    obtain rfl := h.good.inv.identities r (hpromise.mem r hr) row hrow hid
    exact hr

theorem stands_of_through (h : Promised cfg s) (hrow : row ∈ s.db.ledger.keys)
    (hthrough : (requestSystem cfg).Through (Retains (identity row)) s t) :
    Promised cfg t ∧ (requestSystem cfg).Through (fun u => Stands row u.db) s t := by
  have hboth := hthrough.keeps (J := fun u => Promised cfg u ∧ row ∈ u.db.ledger.keys) ⟨h, hrow⟩
    fun u v a hu hretains he => ⟨(hu.1.step (run_promises cfg) he).1, mem_of_exec hu.1 he hu.2 hretains⟩
  exact ⟨hboth.last.1, hboth.mono fun u hu => ⟨hu.1.good.inv, hu.2⟩⟩

end Steps

/-! ### What a success settles -/

theorem operations_ne : bookingCreateOperation ≠ roomExportCreateOperation := by decide

/-- How a request answers a body is told by its key. -/
theorem replay_of_claim (h : i.claim cfg = some (κ, f)) (body : Json) : i.replay body =
    if κ.operation = roomExportCreateOperation then .roomExport (replay .roomExportCreate body) else .hotel (.created (replay .bookingCreate body)) := by
  cases i with
  | purge now batchSize => cases h
  | roomExport actorUserId idempotencyKey filters =>
    rw [Request.claim] at h
    split at h
    case isFalse => cases h
    case isTrue =>
      obtain ⟨key, -, heq⟩ := Option.map_eq_some_iff.1 h
      cases heq
      rw [if_pos rfl]
      rfl
  | hotel call =>
    cases call with
    | create today actorUserId idempotencyKey input =>
      obtain ⟨key, -, heq⟩ := Option.map_eq_some_iff.1 h
      cases heq
      rw [if_neg operations_ne]
      rfl
    | _ => cases h

theorem serves_of_commits {a : Act Supply Request} {p : ℕ} {x : Response} (h : Promised cfg s) (he : (requestSystem cfg).exec s a = some t)
    (hc : Sys.Commits p i x s t) (hi : i.claim cfg = some (κ, f)) : Serves κ f i x s.db t.db := by
  have hpromise := h.of_commits (run_promises cfg) he hc
  rwa [Promise, hi] at hpromise

/-- The row that a success leaves. -/
theorem row_of_serves {x : Response} {db db' : RequestDb} (h : Serves κ f i x db db') :
    ∃ row ∈ db'.ledger.keys, identity row = κ ∧ row.requestFingerprint = f ∧ ∃ body, row.responseBody = some body ∧ x = i.replay body := by
  cases h with
  | replays hmem hid hfingerprint hbody hx hsame =>
    subst hsame
    exact ⟨_, hmem, hid, hfingerprint, _, hbody, hx⟩
  | creates hnone hkeys hid hfingerprint hbody hx hcreates =>
    refine ⟨_, ?_, hid, hfingerprint, _, hbody, hx⟩
    rw [hkeys]
    exact List.mem_append_right _ (List.mem_singleton_self _)

/-- Where the row stands, a success is a replay of it. -/
theorem replays_of_stands {row : IdempotencyKey} {y : Response} {db db' : RequestDb} (hrow : Stands row db) (hid : identity row = κ)
    (h : Serves κ g j y db db') : g = row.requestFingerprint ∧ db' = db ∧ ∃ body, row.responseBody = some body ∧ y = j.replay body := by
  cases h with
  | replays hmem hid' hfingerprint hbody hy hsame =>
    obtain rfl := hrow.1.identities _ hmem row hrow.2 (hid'.trans hid.symm)
    exact ⟨hfingerprint.symm, hsame, _, hbody, hy⟩
  | creates hnone hkeys hid' hfingerprint hbody hy hcreates => exact absurd hid (hnone row hrow.2)

/-- Program `p` is or may become the request `j`, and has not ended. -/
def Pending (p : ℕ) (j : Request) (s : RequestSys) : Prop := s.proc p = none ∨ ∃ code pend view, s.proc p = some (j, .running code pend view)

/-- A request of another fingerprint that has not ended when the row is committed is refused from there. -/
theorem refuses_of_commits {a : Act Supply Request} {p q : ℕ} {x : Response} {row : IdempotencyKey}
    (h : (requestSystem cfg).Reachable (fun _ _ => True) s) (he : (requestSystem cfg).exec s a = some t) (hc : Sys.Commits p i x s t)
    (hi : i.claim cfg = some (κ, f)) (hj : j.claim cfg = some (κ, g)) (hid : identity row = κ) (hg : g ≠ row.requestFingerprint)
    (hpending : Pending q j t) : t.Refuses (Stands row) (· = .hotel .idempotencyKeyReused) q j := by
  intro ph hph
  rcases hpending with hnone | ⟨code, pend, view, hrun⟩
  · rw [hnone] at hph
    cases hph
  · rw [hrun] at hph
    cases hph
    have hqp : q ≠ p := by
      rintro rfl
      have hcommitted := hc.committed
      rw [hrun] at hcommitted
      cases hcommitted
    have hkey : ∀ {k : Request} {g : String}, k.claim cfg = some (κ, g) → k.key cfg = some κ.lock := fun hk => by rw [Request.key, hk, Option.map_some]
    rw [hc.others q hqp] at hrun
    -- it has been waiting for the row since its first statement
    obtain ⟨rfl, rfl, rfl⟩ := atStart_of_commits run_takesFirst (queues_of_reachable run_takesFirst h) he hc (hkey hi) hqp (hkey hj) hrun
    refine ⟨run_within hj hid hg, fun _ hview => ?_⟩
    cases hview

/-! ### A guest who retries -/

/-- A digest that tells requests by their last field. -/
def lastField : Json → String
  | .obj fields =>
    match fields.getLast? with
    | some (_, .str value) => value
    | _ => ""
  | _ => ""

def retryConfig : RequestConfig := { lifecycleEnabled := false, retentionHours := 24, sha256 := lastField, exportsEnabled := true }

/-- Guest 41 asks for the nights from 5 October, always with one key. -/
def guestStay (checkOut : String) : Request := .hotel (.create "2026-09-01" 41 (some "key-of-guest-41") ⟨1, "2026-10-05", checkOut⟩)

def adminExport : Request := .roomExport 9 (some "key-of-admin-9") ⟨none, none, none, none, none⟩

/-- A window is opened. The guest asks, and asks again, and for one night more, before the first is answered; then
an administrator exports the rooms, twice. -/
def retries : List (Act Supply Request) :=
  let steps (p n : ℕ) : List (Act Supply Request) := List.replicate n (.step p (supplyOf p))
  .start 0 (.hotel (.createRoomTime 1 ⟨"2026-10-01", "2026-12-01", none⟩)) :: steps 0 4 ++
  .start 1 (guestStay "2026-10-08") :: .start 2 (guestStay "2026-10-08") :: .start 3 (guestStay "2026-10-09") ::
    steps 1 9 ++ steps 2 3 ++ steps 3 3 ++
  .start 4 adminExport :: .start 5 adminExport :: steps 4 8 ++ steps 5 3

def retriesStart : RequestSys := .start (.opening [⟨7, "Deluxe"⟩] [⟨1, 7, "A-201", 1000000, "VND", .active⟩])

/-- Where they end. -/
def retriesEnd : Option RequestSys := (requestSystem retryConfig).run retriesStart retries

theorem retriesEnd_isSome : retriesEnd.isSome = true := by decide

theorem retries_reachable : (requestSystem retryConfig).Reachable (fun _ _ => True) (retriesEnd.get retriesEnd_isSome) :=
  .of_run (.init ⟨_, ⟨_, _, rfl⟩, rfl⟩) (fun _ _ _ => trivial) (Option.some_get retriesEnd_isSome).symm

/-! ### The result -/

/-- What holds of a state of the requests, and of the steps and runs that go on from it. -/
structure IdempotentCreation (cfg : RequestConfig) (s : RequestSys) : Prop where
  /-- No committed row is `PENDING`. -/
  answered : ∀ row ∈ s.db.ledger.keys, row.status = .completed ∧ ∃ body, row.responseBody = some body
  /-- Only the purge removes a row. -/
  removed : ∀ a t, (requestSystem cfg).exec s a = some t → ∀ row ∈ s.db.ledger.keys, row ∉ t.db.ledger.keys →
    ∃ p now batchSize x, Sys.Commits p (.purge now batchSize) x s t ∧ row.expiresAt ≤ now
  /-- An attempt that is rolled back has changed nothing. -/
  rolledBack : ∀ a t as u i e, (requestSystem cfg).exec s a = some t → (requestSystem cfg).run t as = some u →
    u.proc a.program = some (i, .rolledBack e) → t.db = s.db
  /-- A success is a replay, or creates one booking, or one job, and the row that has the response. -/
  serves : ∀ a t p i x κ f, (requestSystem cfg).exec s a = some t → Sys.Commits p i x s t → i.claim cfg = some (κ, f) →
    Serves κ f i x s.db t.db
  /-- While the row is retained, the other successes are of the same request, answer the same and change nothing. -/
  replays : ∀ κ f x t, Succeeds cfg κ f x s t → ∀ u, (requestSystem cfg).Through (Retains κ) t u → ∀ g y v, Succeeds cfg κ g y u v →
    g = f ∧ y = x ∧ v.db = u.db
  /-- While the row is retained, another request that uses the key is refused and changes nothing. -/
  conflicts : ∀ κ f x t, Succeeds cfg κ f x s t → ∀ q j g, j.claim cfg = some (κ, g) → g ≠ f → Pending q j t →
    ∀ u, (requestSystem cfg).Through (Retains κ) t u → (∀ y, u.proc q ≠ some (j, .committed y)) ∧
      (∀ e, u.proc q = some (j, .rolledBack (some e)) → e = .hotel .idempotencyKeyReused) ∧
      ∀ a v, (requestSystem cfg).exec u a = some v → a.program = q → (∃ ph, v.proc q = some (j, ph)) → v.db = u.db
  /-- Alone, a request whose key has a row ends: it is answered from the row, or refused. -/
  alone : ∀ row ∈ s.db.ledger.keys, ∀ j g, j.claim cfg = some (identity row, g) →
    (∃ ph db, EndsAlone (requestSystem cfg) s.db j ph db) ∧ ∀ ph db, EndsAlone (requestSystem cfg) s.db j ph db → db = s.db ∧
      ph = if g = row.requestFingerprint then .committed (j.replay (row.responseBody.getD .null)) else .rolledBack (some (.hotel .idempotencyKeyReused))

/-- **Creations are idempotent**: bookings and export jobs, in every interleaving of requests and purges. -/
theorem creation_idempotent (cfg : RequestConfig) (s : RequestSys) (h : (requestSystem cfg).Reachable (fun _ _ => True) s) :
    IdempotentCreation cfg s := by
  have hs : Promised cfg s := promised_of_requests h
  refine ⟨hs.good.inv.answered, ?_, ?_, ?_, ?_, ?_, ?_⟩
  · intro a t he row hrow hgone
    exact (kept_of_exec hs he hrow).resolve_left hgone
  · intro a t as u i e he hr hp
    exact db_of_rolledBack (run_promises cfg) hs he hr hp
  · intro a t p i x κ f he hc hi
    exact serves_of_commits hs he hc hi
  · rintro κ f x t ⟨a, p, i, he, hc, hi⟩ u hthrough g y v ⟨b, q, j, he', hc', hj⟩
    have ht := (hs.step (run_promises cfg) he).1
    obtain ⟨row, hrow, rfl, rfl, body, hbody, rfl⟩ := row_of_serves (serves_of_commits hs he hc hi)
    obtain ⟨hu, hstands⟩ := stands_of_through ht hrow hthrough
    obtain ⟨hg, hdb, body', hbody', rfl⟩ := replays_of_stands hstands.last rfl (serves_of_commits hu he' hc' hj)
    rw [hbody] at hbody'
    cases hbody'
    exact ⟨hg, (replay_of_claim hj body).trans (replay_of_claim hi body).symm, hdb⟩
  · rintro κ f x t ⟨a, p, i, he, hc, hi⟩ q j g hj hg hpending u hthrough
    have ht := (hs.step (run_promises cfg) he).1
    obtain ⟨row, hrow, rfl, rfl, -⟩ := row_of_serves (serves_of_commits hs he hc hi)
    obtain ⟨-, hstands⟩ := stands_of_through ht hrow hthrough
    have hrefuses := refused_of_through (run_within hj rfl hg) (refuses_of_commits h he hc hi hj rfl hg hpending) hstands
    refine ⟨fun y hy => hrefuses _ hy, fun e hp => hrefuses _ hp e rfl, ?_⟩
    rintro b v he' rfl ⟨ph, hph⟩
    exact (hrefuses.own (run_within hj rfl hg) hstands.last he' hph).2
  · intro row hrow j g hj
    have halone := run_alone ⟨hs.good.inv, hrow⟩ hj
    refine ⟨endsAlone_of_alone halone, fun ph db hend => ?_⟩
    rcases alone_of_endsAlone halone hend with ⟨x, rfl, hg, rfl, hdb⟩ | ⟨e, rfl, ⟨hg, rfl⟩, hdb⟩
    · rw [if_pos hg]
      exact ⟨hdb, rfl⟩
    · rw [if_neg hg]
      exact ⟨hdb, rfl⟩

theorem creation_idempotent_retries :
    ((retriesEnd.get retriesEnd_isSome).db.hotel.bookings.length = 1 ∧ (retriesEnd.get retriesEnd_isSome).db.exportJobs.length = 1) ∧
      IdempotentCreation retryConfig (retriesEnd.get retriesEnd_isSome) :=
  ⟨by decide, creation_idempotent retryConfig _ retries_reachable⟩

end HotelBackend.Reports
