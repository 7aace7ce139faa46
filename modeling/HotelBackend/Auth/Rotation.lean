import HotelBackend.Auth.Promises
import Mathlib.Logic.Equiv.Basic
import Mathlib.Algebra.Group.End

/-!
# Refresh tokens are used once

What holds of the refresh tokens in every interleaving, read off what each call does. The tokens of a
session that were accepted are those that were issued, but the last, in the order of their issue
(`Chained`), and no two calls succeed with one token (`AcceptedOnce`). A wrong token of a live session
revokes it, and the call that revokes it commits (`WrongTokensRevoke`). A session that is revoked, or
whose user is inactive, stays shut: whatever Redis answers, its tokens get nobody in (`StaysShut`).
-/

namespace HotelBackend.Auth

open HotelBackend.Theory
open HotelBackend.Theory.Transactions
open HotelBackend.Users
open Access

/-- A state of the system. -/
abbrev AuthSys := Sys AuthDb AuthKey AuthSupply AuthError AuthAnswer AuthCall

/-- The accepted tokens of a session are the issued ones, but the last, in their order. -/
def Chained (db : AuthDb) : Prop :=
  ∀ sessionId, db.access.acceptedOf sessionId = (db.access.issuedOf sessionId).dropLast ∧ (db.access.issuedOf sessionId).Nodup

/-- The history of the tokens is what the answers of the calls make it. -/
def Recorded (s s' : AuthSys) : Prop :=
  s'.db = s.db ∨ ∃ p i a, Sys.Commits p i a s s' ∧ s'.db.issued = s.db.issued ++ a.issued ∧ s'.db.accepted = s.db.accepted ++ i.accepted a

/-- Call `p` has refreshed its session with `token`. -/
def SucceedsWith (s : AuthSys) (p : ℕ) (token : String) : Prop :=
  ∃ now session, s.proc p = some (.refresh (some token) now, .committed (.refreshed (.success session)))

/-- No token is accepted twice. -/
def AcceptedOnce (s : AuthSys) : Prop := ∀ p q token, SucceedsWith s p token → SucceedsWith s q token → p = q

/-- The session of an id is revoked. -/
def IsRevoked (db : AuthDb) (sessionId : String) : Prop := ∃ s ∈ db.sessions, s.id = sessionId ∧ s.revokedAt.isSome = true

/-- The session of an id is revoked, or its user is inactive. -/
def IsShut (db : AuthDb) (sessionId : String) : Prop :=
  ∃ s ∈ db.sessions, s.id = sessionId ∧ (s.revokedAt.isSome = true ∨ ∃ u ∈ db.users, u.id = s.userId ∧ u.status = .inactive)

/-- A refresh with a well-formed token throws nothing; when it has committed with a token that is not the last of its session,
and the session is live, the session is revoked and the caller refused. -/
def WrongTokensRevoke (cfg : AuthConfig) (s : AuthSys) : Prop :=
  (∀ p token now e, s.proc p = some (.refresh (some token) now, .rolledBack (some e)) → parseRefreshToken (some token) = none) ∧
  ∀ a s' p token now result, (authSystem cfg).exec s a = some s' → Sys.Commits p (.refresh (some token) now) (.refreshed result) s s' →
    ∀ session ∈ s.db.sessions, parseRefreshToken (some token) = some session.id → session.revokedAt = none →
      now < session.refreshExpiresAt → (s.db.access.issuedOf session.id).getLast? ≠ some token →
      IsRevoked s'.db session.id ∧ ∃ e, SessionService.refreshAnswer result = .error e

/-- Calls that start after a session was shut are refused it. -/
def StaysShut (cfg : AuthConfig) (s : AuthSys) : Prop :=
  ∀ as s' sessionId, (authSystem cfg).run s as = some s' → IsShut s.db sessionId →
    (∀ p token now result, s.proc p = none → s'.proc p = some (.refresh (some token) now, .committed (.refreshed result)) →
      parseRefreshToken (some token) = some sessionId → ∃ e, SessionService.refreshAnswer result = .error e) ∧
    ∀ claims cachedRevocation now, claims.sid = sessionId →
      ∃ e, SessionService.authenticateAccessToken s'.db claims cachedRevocation now = .error e

/-! ### The chain -/

section

variable {cfg : AuthConfig} {s s' : AuthSys} {a : Act AuthSupply AuthCall}

theorem chained_of_inv (hhash : Function.Injective cfg.sha256) {db : AuthDb} (h : (authDiscipline cfg).Inv db) : Chained db :=
  fun id => ⟨(List.map_injective_iff.2 hhash) (by rw [h.tokens.chain, List.map_dropLast]), h.tokens.fresh id⟩

theorem recorded_of_exec (h : s.Promised (authDiscipline cfg) (authEffect cfg)) (he : (authSystem cfg).exec s a = some s') : Recorded s s' := by
  rcases (h.step (fun i => authCall_promises cfg i) he).2 with hidle | ⟨p, i, x, hcommit, heffect⟩
  · exact .inl hidle.1
  · exact .inr ⟨p, i, x, hcommit, heffect.issued, heffect.accepted⟩

/-- A token that is accepted was not accepted before. -/
theorem not_mem_accepted (hhash : Function.Injective cfg.sha256) {db : AuthDb} (h : (authDiscipline cfg).Inv db) {accepted : List TokenUse}
    {t : TokenUse} (hdb : db.accepted = accepted ++ [t]) : ∀ t' ∈ accepted, t'.token ≠ t.token := by
  intro t' ht' htoken
  have hmem : t ∈ db.accepted := hdb ▸ List.mem_append_right _ List.mem_cons_self
  have hmem' : t' ∈ db.accepted := hdb ▸ List.mem_append_left _ ht'
  -- a token names its session
  have hsession : t'.sessionId = t.sessionId := by
    have hname := h.tokens.named t hmem
    have hname' := h.tokens.named t' hmem'
    rw [htoken, hname, Option.some.injEq] at hname'
    exact hname'.symm
  have hchain := (chained_of_inv hhash h t.sessionId)
  have hnodup : (db.access.acceptedOf t.sessionId).Nodup := hchain.1 ▸ hchain.2.sublist (List.dropLast_sublist _)
  have haccepted : db.access.acceptedOf t.sessionId = (accepted.filter (·.sessionId = t.sessionId)).map (·.token) ++ [t.token] := by
    show (db.accepted.filter _).map _ = _
    rw [hdb, issuedOf_append, if_pos rfl]
  rw [haccepted, List.nodup_append] at hnodup
  refine hnodup.2.2 t'.token ?_ t.token List.mem_cons_self htoken
  exact List.mem_map_of_mem (List.mem_filter.2 ⟨ht', decide_eq_true hsession⟩)

/-- A commit with a token is a new one. -/
theorem succeedsWith_of_idles {p : ℕ} {token : String} (h : Sys.Idles s s') (hs : SucceedsWith s' p token) : SucceedsWith s p token := by
  obtain ⟨now, session, hp⟩ := hs
  exact ⟨now, session, h.2 p _ _ hp⟩

/-- Every token a call has succeeded with was accepted, and for one call. -/
theorem acceptedOnce_of_reachable (hhash : Function.Injective cfg.sha256) {C : AuthSys → Act AuthSupply AuthCall → Prop}
    (h : (authSystem cfg).Reachable C s) : AcceptedOnce s := by
  have hall : s.Promised (authDiscipline cfg) (authEffect cfg) ∧ (∀ p token, SucceedsWith s p token → ∃ t ∈ s.db.accepted, t.token = token) ∧
      AcceptedOnce s := by
    apply h.invariant (I := fun s => s.Promised (authDiscipline cfg) (authEffect cfg) ∧
      (∀ p token, SucceedsWith s p token → ∃ t ∈ s.db.accepted, t.token = token) ∧ AcceptedOnce s)
    · intro s hs
      refine ⟨authSystem_promised (C := C) (.init hs), ?_, ?_⟩
      · rintro p token ⟨now, session, hp⟩
        obtain ⟨db, -, rfl⟩ := hs
        cases hp
      · rintro p q token ⟨now, session, hp⟩ -
        obtain ⟨db, -, rfl⟩ := hs
        cases hp
    · rintro s a s' ⟨hpromised, hknown, honce⟩ - he
      obtain ⟨hpromised', hmoves⟩ := hpromised.step (fun i => authCall_promises cfg i) he
      refine ⟨hpromised', ?_⟩
      rcases hmoves with hidle | ⟨r, i, x, hcommit, heffect⟩
      · refine ⟨fun p token hp => ?_, fun p q token hp hq => ?_⟩
        · rw [hidle.1]
          exact hknown p token (succeedsWith_of_idles hidle hp)
        · exact honce p q token (succeedsWith_of_idles hidle hp) (succeedsWith_of_idles hidle hq)
      · have hother : ∀ p token, p ≠ r → SucceedsWith s' p token → SucceedsWith s p token := by
          rintro p token hne ⟨now, session, hp⟩
          exact ⟨now, session, (hcommit.others p hne).symm.trans hp⟩
        have hself : ∀ token, SucceedsWith s' r token → ∃ id, s'.db.accepted = s.db.accepted ++ [⟨id, token⟩] := by
          rintro token ⟨now, session, hp⟩
          rw [hcommit.committed] at hp
          cases hp
          exact ⟨_, heffect.accepted⟩
        -- nobody succeeded before with the token of this commit
        have hnew : ∀ p token, p ≠ r → SucceedsWith s' p token → ¬ SucceedsWith s' r token := by
          intro p token hne hp hr
          obtain ⟨t, ht, rfl⟩ := hknown p token (hother p token hne hp)
          obtain ⟨id, haccepted⟩ := hself t.token hr
          exact not_mem_accepted hhash hpromised'.good.inv haccepted t ht rfl
        refine ⟨fun p token hp => ?_, fun p q token hp hq => ?_⟩
        · by_cases hpr : p = r
          · subst hpr
            obtain ⟨id, haccepted⟩ := hself token hp
            exact ⟨_, haccepted ▸ List.mem_append_right _ List.mem_cons_self, rfl⟩
          · obtain ⟨t, ht, htoken⟩ := hknown p token (hother p token hpr hp)
            refine ⟨t, ?_, htoken⟩
            have haccepted : s'.db.accepted = s.db.accepted ++ i.accepted x := heffect.accepted
            rw [haccepted]
            exact List.mem_append_left _ ht
        · by_cases hpr : p = r <;> by_cases hqr : q = r
          · exact hpr.trans hqr.symm
          · exact absurd (hpr ▸ hp) (hnew q token hqr hq)
          · exact absurd (hqr ▸ hq) (hnew p token hpr hp)
          · exact honce p q token (hother p token hpr hp) (hother q token hqr hq)
  exact hall.2.2

/-! ### Wrong tokens -/

theorem refreshAnswer_error {result : RefreshResult} (h : ∀ x, result ≠ .success x) : ∃ e, SessionService.refreshAnswer result = .error e := by
  cases result with
  | success session => exact absurd rfl (h session)
  | invalid revokedSessionId => exact ⟨_, rfl⟩
  | inactive revokedSessionId => exact ⟨_, rfl⟩

/-- A refresh with a well-formed token throws nothing. -/
theorem refresh_returns {token sessionId : String} {now : ℕ} (hparse : parseRefreshToken (some token) = some sessionId) :
    (AuthCall.run cfg (.refresh (some token) now)).Returns := by
  rw [AuthCall.run]
  refine Txn.Returns.bind ?_ fun _ => trivial
  rw [SessionService.refresh]
  refine .orThrow rfl (.orThrow hparse (.bind (fun _ => trivial) fun found => ?_))
  cases found with
  | none => trivial
  | some session =>
    refine .bind (fun _ => trivial) fun owner => ?_
    cases owner with
    | none => trivial
    | some user =>
      dsimp only
      split
      · trivial
      split
      · exact fun _ => trivial
      split
      · exact fun _ => trivial
      · exact fun _ => trivial

/-- A success is with the token whose hash the session has. -/
theorem refreshes_of_commits (h : s.Promised (authDiscipline cfg) (authEffect cfg)) (he : (authSystem cfg).exec s a = some s') {p : ℕ} {token : String}
    {now : ℕ} {result : RefreshResult} (hc : Sys.Commits p (.refresh (some token) now) (.refreshed result) s s') :
    Refreshes cfg.sha256 token now result s.db.access s'.db.access :=
  (h.of_commits (fun i => authCall_promises cfg i) he hc).refreshes token now result rfl rfl

theorem wrongTokensRevoke (hhash : Function.Injective cfg.sha256) {C : AuthSys → Act AuthSupply AuthCall → Prop} (h : (authSystem cfg).Reachable C s) :
    WrongTokensRevoke cfg s := by
  have hpromised := authSystem_promised h
  constructor
  · intro p token now e hp
    cases hparse : parseRefreshToken (some token) with
    | none => rfl
    | some sessionId => exact absurd (calm_of_reachable (refresh_returns hparse) h p _ hp) (by simp [Phase.Calm])
  · intro a s' p token now result he hc session hs hparse hrevoked hnow hlast
    have hrefreshes := refreshes_of_commits hpromised he hc
    have hwrong : session.refreshTokenHash ≠ cfg.sha256 token := by
      obtain ⟨last, hget, hcurrent⟩ := hpromised.good.inv.tokens.current session hs
      intro hsame
      rw [hcurrent] at hsame
      exact hlast (hhash hsame ▸ hget)
    refine ⟨hrefreshes.caught session hs hparse hrevoked hnow hwrong, refreshAnswer_error fun x hx => ?_⟩
    obtain ⟨y, hy, hparse', -, -, hsame⟩ := hrefreshes.accepted x hx
    rw [hparse, Option.some.injEq] at hparse'
    exact hwrong (hpromised.good.inv.sessionIds session hs y hy hparse' ▸ hsame)

/-! ### Sessions that are shut -/

theorem isRevoked_of_isShut {db : AuthDb} (h : (authDiscipline cfg).Inv db) {sessionId : String} (hs : IsShut db sessionId) : IsRevoked db sessionId := by
  obtain ⟨x, hx, hid, hrevoked | ⟨u, hu, howner, hin⟩⟩ := hs
  · exact ⟨x, hx, hid, hrevoked⟩
  · exact ⟨x, hx, hid, h.closed u hu hin x hx howner.symm⟩

/-- The guard refuses a session that is revoked, whatever Redis says of it. -/
theorem authenticateAccessToken_error {db : AuthDb} (h : (authDiscipline cfg).Inv db) {claims : SessionService.AccessTokenClaims}
    (hs : IsRevoked db claims.sid) (cachedRevocation : Option Bool) (now : ℕ) :
    ∃ e, SessionService.authenticateAccessToken db claims cachedRevocation now = .error e := by
  obtain ⟨x, hx, hid, hrevoked⟩ := hs
  unfold SessionService.authenticateAccessToken
  split
  · exact ⟨_, rfl⟩
  split
  · exact ⟨_, rfl⟩
  next y hy =>
  split
  · exact ⟨_, rfl⟩
  next user hu =>
  have hfound := List.find?_some hy
  rw [Bool.and_eq_true, decide_eq_true_eq] at hfound
  obtain rfl := h.sessionIds y (List.mem_of_find?_eq_some hy) x hx (hfound.1.trans hid.symm)
  rw [if_pos (.inl hrevoked)]
  exact ⟨_, rfl⟩

/-- A session that is revoked stays as it is. -/
theorem revoked_stays (h : s.Promised (authDiscipline cfg) (authEffect cfg)) {as : List (Act AuthSupply AuthCall)}
    (hr : (authSystem cfg).run s as = some s') {x : AuthSession} (hx : x ∈ s.db.sessions) (hrevoked : x.revokedAt.isSome = true) :
    x ∈ s'.db.sessions := by
  refine h.run_induction (I := fun db => x ∈ db.sessions) (fun i => authCall_promises cfg i) (fun i a db db' _ heffect hmem => ?_) hr hx
  obtain ⟨y, hy, -, -, hsame⟩ := heffect.step.sessions x hmem
  exact hsame hrevoked ▸ hy

theorem staysShut (h : s.Promised (authDiscipline cfg) (authEffect cfg)) : StaysShut cfg s := by
  intro as s' sessionId hr hshut
  obtain ⟨x, hx, hid, hrevoked⟩ := isRevoked_of_isShut h.good.inv hshut
  have hall := Machine.run_induction (M := authSystem cfg) (P := fun _ _ => True) (I := fun t =>
    t.Promised (authDiscipline cfg) (authEffect cfg) ∧ x ∈ t.db.sessions ∧ ∀ p token now result, s.proc p = none →
      t.proc p = some (.refresh (some token) now, .committed (.refreshed result)) → parseRefreshToken (some token) = some sessionId →
        ∃ e, SessionService.refreshAnswer result = .error e) ?_ (fun _ _ _ => trivial) ⟨h, hx, fun p _ _ _ hnone hp => ?_⟩ hr
  · refine ⟨hall.2.2, fun claims cachedRevocation now hsid => ?_⟩
    exact authenticateAccessToken_error hall.1.good.inv ⟨x, hall.2.1, hid.trans hsid.symm, hrevoked⟩ cachedRevocation now
  · rintro t a t' ⟨hpromised, hmem, hfailed⟩ - he
    obtain ⟨hpromised', hmoves⟩ := hpromised.step (fun i => authCall_promises cfg i) he
    have hrun : (authSystem cfg).run t [a] = some t' := by
      rw [Machine.run_cons, he]
      rfl
    refine ⟨hpromised', revoked_stays hpromised hrun hmem hrevoked, fun p token now result hnone hp hparse => ?_⟩
    rcases hmoves with hidle | ⟨r, i, y, hcommit, heffect⟩
    · exact hfailed p token now result hnone (hidle.2 p _ _ hp) hparse
    by_cases hpr : p = r
    · subst hpr
      rw [hcommit.committed] at hp
      cases hp
      refine refreshAnswer_error fun session hsession => ?_
      obtain ⟨z, hz, hparse', -, hopen, -⟩ := (heffect.refreshes token now result rfl rfl).accepted session hsession
      rw [hparse, Option.some.injEq] at hparse'
      rw [hpromised.good.inv.sessionIds z hz x hmem (hparse'.symm.trans hid.symm)] at hopen
      rw [hopen] at hrevoked
      cases hrevoked
    · exact hfailed p token now result hnone ((hcommit.others p hpr).symm.trans hp) hparse
  · rw [hnone] at hp
    cases hp

/-- **Refresh tokens are used once, in the order of their issue; a wrong one shuts its session, for good.** -/
theorem refreshToken_rotation (hhash : Function.Injective cfg.sha256) (h : (authSystem cfg).Reachable (fun _ _ => True) s) :
    Chained s.db ∧ (∀ a s', (authSystem cfg).exec s a = some s' → Recorded s s') ∧ AcceptedOnce s ∧ WrongTokensRevoke cfg s ∧
      StaysShut cfg s := by
  have hpromised := authSystem_promised h
  refine ⟨chained_of_inv hhash hpromised.good.inv, fun a s' he => recorded_of_exec hpromised he, acceptedOnce_of_reachable hhash h,
    wrongTokensRevoke hhash h, staysShut hpromised⟩

end

/-! ### A token that is presented again -/

def firstToken : String := "6f1c2a34-5b6d-4e7f-8a9b-0c1d2e3f4a5b.AAAAAAAAAAAAAAAAAAAAAAAAAAAAAAAAAAAAAAAAAAA"

def secondToken : String := "6f1c2a34-5b6d-4e7f-8a9b-0c1d2e3f4a5b.BBBBBBBBBBBBBBBBBBBBBBBBBBBBBBBBBBBBBBBBBBB"

/-- The digests of the two tokens; no other text is hashed with them. -/
def digests : Equiv.Perm String :=
  Equiv.swap firstToken "78d1a24fb5a5afc4fb95d8d4f6d27418de085816771110c8ab74606627ce44c3" *
    Equiv.swap secondToken "65ff11a4effdc40e8d27a8591ce80f4cbd7503328dcbcc9ac09704fd029cdae2"

/-- Two requests race with one token: the second finds that it was used. -/
def racingRefreshes : List (Act AuthSupply AuthCall) :=
  let sessionId := "6f1c2a34-5b6d-4e7f-8a9b-0c1d2e3f4a5b"
  .start 0 (.createSession 1) :: List.replicate 3 (.step 0 ⟨0, sessionId, "AAAAAAAAAAAAAAAAAAAAAAAAAAAAAAAAAAAAAAAAAAA", 0⟩) ++
    [.start 1 (.refresh (some firstToken) 5), .start 2 (.refresh (some firstToken) 6)] ++
    List.replicate 4 (.step 1 ⟨0, "", "BBBBBBBBBBBBBBBBBBBBBBBBBBBBBBBBBBBBBBBBBBB", 5⟩) ++ List.replicate 4 (.step 2 ⟨0, "", "", 6⟩)

theorem racingRefreshes_run : ((authSystem (.thirtyDays digests)).run
    (Sys.start (AuthDb.opening [⟨1, "ada@example.com", "Ada", .user, .active, 0⟩] [])) racingRefreshes).map
    (fun s => (s.db.accepted.map (·.token), s.db.sessions.map (·.revokedAt))) = some ([firstToken], [some 6]) := by rfl

theorem refreshToken_rotation_racing : ∃ s, s.db.accepted.map (·.token) = [firstToken] ∧ s.db.sessions.map (·.revokedAt) = [some 6] ∧
    Chained s.db ∧ AcceptedOnce s ∧ WrongTokensRevoke (.thirtyDays digests) s ∧ StaysShut (.thirtyDays digests) s := by
  obtain ⟨s, hs, hrun⟩ := Option.map_eq_some_iff.1 racingRefreshes_run
  obtain ⟨haccepted, hrevoked⟩ := Prod.mk.inj hrun
  have hstart : (authSystem (.thirtyDays digests)).Reachable (fun _ _ => True)
      (Sys.start (AuthDb.opening [⟨1, "ada@example.com", "Ada", .user, .active, 0⟩] [])) :=
    .init ⟨_, ⟨[⟨1, "ada@example.com", "Ada", .user, .active, 0⟩], [], by decide, rfl⟩, rfl⟩
  have hreachable := hstart.of_run (fun _ _ _ => trivial) hs
  obtain ⟨hchained, -, honce, hwrong, hshut⟩ := refreshToken_rotation digests.injective hreachable
  exact ⟨s, haccepted, hrevoked, hchained, honce, hwrong, hshut⟩

end HotelBackend.Auth
