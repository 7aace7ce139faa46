import HotelBackend.Auth.Rotation

/-!
# No live session of an inactive user

The database with Redis beside it: after a call has committed, its caller marks the sessions it revoked,
at any time or never; a mark runs out by itself. A request gets past the guard with whatever Redis
answers, and only such a request logs its session out.

A session that is marked was revoked when the call that marks it committed, and a session that is
revoked stays so: Redis never speaks against MySQL (`Platform.Inv.marked`).
-/

namespace HotelBackend.Auth

open HotelBackend.Theory
open HotelBackend.Theory.Transactions
open HotelBackend.Users
open Access

/-- MySQL and Redis, and the sessions whose requests have got past the guard. -/
structure Platform where
  sys : AuthSys
  /-- The sessions marked as revoked in Redis. -/
  marked : List String
  authenticated : List String

inductive PlatformAct where
  /-- A call starts, executes a statement or is rolled back. -/
  | call (a : Act AuthSupply AuthCall)
  /-- The guard lets a request in, at `now`; `reachable` is whether Redis answers. -/
  | authenticate (claims : SessionService.AccessTokenClaims) (now : ℕ) (reachable : Bool)
  /-- A call that has committed marks a session it revoked. -/
  | markRevoked (p : ℕ) (sessionId : String)
  /-- A mark runs out. -/
  | expire (sessionId : String)

/-- `isRevoked` -/
def Platform.isRevoked (s : Platform) (sessionId : String) (reachable : Bool) : Option Bool :=
  if reachable then some (sessionId ∈ s.marked) else none

/-- A logout is a request that has got past the guard. -/
def Platform.admits (s : Platform) : Act AuthSupply AuthCall → Bool
  | .start _ (.revoke sessionId) => sessionId ∈ s.authenticated
  | _ => true

/-- Any number of calls and requests, from users of whom none is logged in. -/
def authPlatform (cfg : AuthConfig) : Machine Platform PlatformAct where
  init s := (authSystem cfg).init s.sys ∧ s.marked = [] ∧ s.authenticated = []
  exec s
    | .call a => if s.admits a then ((authSystem cfg).exec s.sys a).map fun sys => { s with sys := sys } else none
    | .authenticate claims now reachable =>
      match SessionService.authenticateAccessToken s.sys.db claims (s.isRevoked claims.sid reachable) now with
      | .ok principal => some { s with authenticated := principal.sessionId :: s.authenticated }
      | .error _ => none
    | .markRevoked p sessionId =>
      match s.sys.proc p with
      | some (i, .committed a) => if sessionId ∈ i.marks a then some { s with marked := sessionId :: s.marked } else none
      | _ => none
    | .expire sessionId => some { s with marked := s.marked.filter (· ≠ sessionId) }

/-- A session with the id is in the database. -/
def Exists (db : AuthDb) (sessionId : String) : Prop := ∃ x ∈ db.sessions, x.id = sessionId

/-- What is marked is revoked, what is to be marked is, and who logs out has a session. -/
structure Platform.Inv (cfg : AuthConfig) (s : Platform) : Prop where
  promised : s.sys.Promised (authDiscipline cfg) (authEffect cfg)
  marked : ∀ id ∈ s.marked, IsRevoked s.sys.db id
  marks : ∀ p i a, s.sys.proc p = some (i, .committed a) → ∀ id ∈ i.marks a, IsRevoked s.sys.db id
  authenticated : ∀ id ∈ s.authenticated, Exists s.sys.db id
  logouts : ∀ p id ph, s.sys.proc p = some (.revoke id, ph) → Exists s.sys.db id

section

variable {cfg : AuthConfig} {s s' : Platform}

theorem exists_step {a b : AuthDb} (h : Step a.access b.access) {id : String} (hid : Exists a id) : Exists b id := by
  obtain ⟨x, hx, rfl⟩ := hid
  obtain ⟨y, hy, hid, -⟩ := h.sessions x hx
  exact ⟨y, hy, hid⟩

theorem isRevoked_step {a b : AuthDb} (h : Step a.access b.access) {id : String} (hid : IsRevoked a id) : IsRevoked b id := by
  obtain ⟨x, hx, rfl, hrevoked⟩ := hid
  obtain ⟨y, hy, -, -, hsame⟩ := h.sessions x hx
  obtain rfl := hsame hrevoked
  exact ⟨y, hy, rfl, hrevoked⟩

/-- A call keeps what is known of the sessions. -/
theorem Platform.Inv.call {sys : AuthSys} {a : Act AuthSupply AuthCall} (h : s.Inv cfg) (hadmits : s.admits a = true)
    (he : (authSystem cfg).exec s.sys a = some sys) : Platform.Inv cfg { s with sys := sys } := by
  obtain ⟨hpromised, hmoves⟩ := h.promised.step (fun i => authCall_promises cfg i) he
  have hstep : Step s.sys.db.access sys.db.access := step_of_exec h.promised he
  have hlogouts : ∀ p id ph, sys.proc p = some (.revoke id, ph) → Exists s.sys.db id := by
    intro p id ph hp
    rcases call_of_exec he hp with rfl | ⟨ph', hp'⟩
    · exact h.authenticated id (of_decide_eq_true hadmits)
    · exact h.logouts p id ph' hp'
  refine ⟨hpromised, fun id hid => isRevoked_step hstep (h.marked id hid), fun p i a hp id hid => ?_,
    fun id hid => exists_step hstep (h.authenticated id hid), fun p id ph hp => exists_step hstep (hlogouts p id ph hp)⟩
  have hold : s.sys.proc p = some (i, .committed a) → IsRevoked sys.db id := fun hp' => isRevoked_step hstep (h.marks p i a hp' id hid)
  rcases hmoves with hidle | ⟨q, j, x, hcommit, heffect⟩
  · exact hold (hidle.2 p i a hp)
  by_cases hpq : p = q
  · subst hpq
    have hsame := hcommit.committed
    have hp' : sys.proc p = some (i, .committed a) := hp
    rw [hp'] at hsame
    cases hsame
    rcases heffect.marked id hid with hrevoked | ⟨rfl, hnone⟩
    · exact hrevoked
    · -- the session of a logout is there
      obtain ⟨y, hy, hid⟩ := exists_step hstep (hlogouts p id _ hp)
      exact absurd hid (hnone y hy)
  · exact hold ((hcommit.others p hpq).symm.trans hp)

theorem authenticated_exists {db : AuthDb} {claims : SessionService.AccessTokenClaims} {cachedRevocation : Option Bool} {now : ℕ}
    {principal : SessionService.AuthenticatedPrincipal}
    (h : SessionService.authenticateAccessToken db claims cachedRevocation now = .ok principal) : Exists db principal.sessionId := by
  unfold SessionService.authenticateAccessToken at h
  split at h
  · cases h
  split at h
  · cases h
  next session hs =>
  split at h
  · cases h
  split at h
  · cases h
  split at h
  · cases h
  · cases h
    exact ⟨session, List.mem_of_find?_eq_some hs, rfl⟩

theorem Platform.Inv.exec {a : PlatformAct} (h : s.Inv cfg) (he : (authPlatform cfg).exec s a = some s') : s'.Inv cfg := by
  cases a with
  | call a =>
    simp only [authPlatform, Option.ite_none_right_eq_some, Option.map_eq_some_iff] at he
    obtain ⟨hadmits, sys, he, rfl⟩ := he
    exact h.call hadmits he
  | authenticate claims now reachable =>
    simp only [authPlatform] at he
    split at he
    case h_2 => cases he
    case h_1 principal hprincipal =>
      cases he
      refine ⟨h.promised, h.marked, h.marks, fun id hid => ?_, h.logouts⟩
      rcases List.mem_cons.1 hid with rfl | hid
      · exact authenticated_exists hprincipal
      · exact h.authenticated id hid
  | markRevoked p sessionId =>
    simp only [authPlatform] at he
    split at he
    case h_2 => cases he
    case h_1 i a hp =>
      simp only [Option.ite_none_right_eq_some] at he
      obtain ⟨hmem, he⟩ := he
      cases he
      refine ⟨h.promised, fun id hid => ?_, h.marks, h.authenticated, h.logouts⟩
      rcases List.mem_cons.1 hid with rfl | hid
      · exact h.marks p i a hp id hmem
      · exact h.marked id hid
  | expire sessionId =>
    cases he
    exact ⟨h.promised, fun id hid => h.marked id (List.mem_filter.1 hid).1, h.marks, h.authenticated, h.logouts⟩

theorem Platform.inv_of_reachable {C : Platform → PlatformAct → Prop} (h : (authPlatform cfg).Reachable C s) : s.Inv cfg := by
  refine h.invariant ?_ fun _ _ _ hs _ he => hs.exec he
  rintro s ⟨hinit, hmarked, hauthenticated⟩
  have hpromised := authSystem_promised (C := fun _ _ => True) (.init hinit)
  obtain ⟨db, -, hsys⟩ := hinit
  refine ⟨hpromised, fun id hid => ?_, fun p i a hp => ?_, fun id hid => ?_, fun p id ph hp => ?_⟩
  · rw [hmarked] at hid
    cases hid
  · rw [hsys] at hp
    cases hp
  · rw [hauthenticated] at hid
    cases hid
  · rw [hsys] at hp
    cases hp

/-- A session that is revoked stays as it is, whatever happens. -/
theorem Platform.Inv.revoked_stays (h : s.Inv cfg) {as : List PlatformAct} (hr : (authPlatform cfg).run s as = some s') {x : AuthSession}
    (hx : x ∈ s.sys.db.sessions) (hrevoked : x.revokedAt.isSome = true) : x ∈ s'.sys.db.sessions := by
  have hall := Machine.run_induction (M := authPlatform cfg) (P := fun _ _ => True) (I := fun t => t.Inv cfg ∧ x ∈ t.sys.db.sessions) ?_
    (fun _ _ _ => trivial) ⟨h, hx⟩ hr
  · exact hall.2
  rintro t a t' ⟨hinv, hmem⟩ - he
  refine ⟨hinv.exec he, ?_⟩
  cases a with
  | call a =>
    simp only [authPlatform, Option.ite_none_right_eq_some, Option.map_eq_some_iff] at he
    obtain ⟨-, sys, he, rfl⟩ := he
    obtain ⟨y, hy, -, -, hsame⟩ := (step_of_exec hinv.promised he).sessions x hmem
    exact hsame hrevoked ▸ hy
  | authenticate claims now reachable =>
    simp only [authPlatform] at he
    split at he
    · cases he
      exact hmem
    · cases he
  | markRevoked p sessionId =>
    simp only [authPlatform] at he
    split at he
    · simp only [Option.ite_none_right_eq_some] at he
      obtain ⟨-, he⟩ := he
      cases he
      exact hmem
    · cases he
  | expire sessionId =>
    cases he
    exact hmem

/-- **An inactive user has no live session, gets none back, and Redis marks no session that MySQL holds live.** -/
theorem inactive_noLiveSession (h : (authPlatform cfg).Reachable (fun _ _ => True) s) :
    (∀ u ∈ s.sys.db.users, u.status = .inactive → ∀ x ∈ s.sys.db.sessions, x.userId = u.id → x.revokedAt.isSome = true) ∧
    (∀ as s', (authPlatform cfg).run s as = some s' → ∀ x ∈ s.sys.db.sessions, x.revokedAt.isSome = true → x ∈ s'.sys.db.sessions) ∧
    ∀ x ∈ s.sys.db.sessions, x.revokedAt = none → x.id ∉ s.marked := by
  have hinv := Platform.inv_of_reachable h
  refine ⟨hinv.promised.good.inv.closed, fun as s' hr x hx => hinv.revoked_stays hr hx, fun x hx hopen hmarked => ?_⟩
  obtain ⟨y, hy, hid, hrevoked⟩ := hinv.marked x.id hmarked
  rw [hinv.promised.good.inv.sessionIds y hy x hx hid, hopen] at hrevoked
  cases hrevoked

end

/-! ### A user who comes back -/

/-- One administrator, and nobody logged in. -/
def oneAdmin : Platform := ⟨Sys.start (AuthDb.opening [⟨1, "ada@example.com", "Ada", .admin, .active, 0⟩] []), [], []⟩

/-- Call `i` alone, in `n` statements. -/
def alone (p n : ℕ) (i : AuthCall) (x : AuthSupply) : List PlatformAct := .call (.start p i) :: List.replicate n (.call (.step p x))

/-- Bob logs in, and is made inactive. -/
def bobLeaves : List PlatformAct :=
  alone 0 6 (.login ⟨"g-2", "bob@example.com", "Bob"⟩) ⟨2, "6f1c2a34-5b6d-4e7f-8a9b-0c1d2e3f4a5b", "AAAAAAAAAAAAAAAAAAAAAAAAAAAAAAAAAAAAAAAAAAA", 0⟩ ++
    alone 1 8 (.updateStatus ⟨1, 2, .inactive, "left"⟩ .inOrder .inOrder) ⟨1, "", "", 5⟩

/-- His session is marked, and he is made active again. -/
def bobReturns : List PlatformAct :=
  .markRevoked 1 "6f1c2a34-5b6d-4e7f-8a9b-0c1d2e3f4a5b" :: alone 2 5 (.updateStatus ⟨1, 2, .active, "back"⟩ .inOrder .inOrder) ⟨2, "", "", 6⟩

theorem bobLeaves_run : ((authPlatform (.thirtyDays digests)).run oneAdmin bobLeaves).bind (fun s =>
    ((authPlatform (.thirtyDays digests)).run s bobReturns).map fun s' => (s.sys.db.users.map (·.status), s'.sys.db.users.map (·.status),
      s'.sys.db.sessions.map (·.revokedAt), s'.marked)) =
    some ([.active, .inactive], [.active, .active], [some 5], ["6f1c2a34-5b6d-4e7f-8a9b-0c1d2e3f4a5b"]) := by rfl

theorem inactive_noLiveSession_returns : ∃ s s' : Platform, s.sys.db.users.map (·.status) = [.active, .inactive] ∧
    s'.sys.db.users.map (·.status) = [.active, .active] ∧ s'.sys.db.sessions.map (·.revokedAt) = [some 5] ∧
    (∀ u ∈ s.sys.db.users, u.status = .inactive → ∀ x ∈ s.sys.db.sessions, x.userId = u.id → x.revokedAt.isSome = true) ∧
    (∀ x ∈ s.sys.db.sessions, x.revokedAt.isSome = true → x ∈ s'.sys.db.sessions) ∧
    ∀ x ∈ s.sys.db.sessions, x.revokedAt = none → x.id ∉ s.marked := by
  obtain ⟨s, hs, hrun⟩ := Option.bind_eq_some_iff.1 bobLeaves_run
  obtain ⟨s', hs', hrun⟩ := Option.map_eq_some_iff.1 hrun
  obtain ⟨hleft, hback, hrevoked, -⟩ : _ ∧ _ ∧ _ ∧ _ := by simpa only [Prod.mk.injEq] using hrun
  have hstart : (authPlatform (.thirtyDays digests)).Reachable (fun _ _ => True) oneAdmin :=
    .init ⟨⟨_, ⟨[⟨1, "ada@example.com", "Ada", .admin, .active, 0⟩], [], by decide, rfl⟩, rfl⟩, rfl, rfl⟩
  obtain ⟨hclosed, hstays, hmarks⟩ := inactive_noLiveSession (hstart.of_run (fun _ _ _ => trivial) hs)
  exact ⟨s, s', hleft, hback, hrevoked, hclosed, hstays _ s' hs', hmarks⟩

end HotelBackend.Auth
