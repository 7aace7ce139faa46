import HotelBackend.Auth.Discipline

/-!
# What each call does to the sessions

Every call follows the discipline, and does what its answer says (`authCall_promises`), which the
results on whole runs are read off: a token it hands out is the next of its session, a token it accepts
was the last, a session it is to mark in Redis is revoked.

The proof of a call walks through its statements. What a locking read has found is carried to the commit
by its lock; the writes are then one change of `Auth.Access`.
-/

namespace HotelBackend.Auth

open HotelBackend.Theory
open HotelBackend.Theory.Transactions
open HotelBackend.Users
open Access

/-! ### The calls -/

/-- Call `i` follows the discipline, and does what its answer says. -/
def Promises (cfg : AuthConfig) (i : AuthCall) : Prop := ∀ db, (authDiscipline cfg).Inv db →
  (i.run cfg).wp (authDiscipline cfg) ((authDiscipline cfg).Ensures (authEffect cfg i)) ⟨∅, id, none, db⟩

theorem createSession_promises (cfg : AuthConfig) (userId : ℕ) : Promises cfg (.createSession userId) := by
  intro db₀ hinv
  rw [AuthCall.run, Txn.wp_bind, SessionService.create, Txn.wp_bind]
  refine wp_findLocked (fun _ _ _ => ?_) fun db hr user hu _ => ?_
  · rw [Txn.wp_bind, Txn.wp_orThrow]
    exact fun _ h => nomatch h
  · rw [Txn.wp_bind, Txn.wp_orThrow]
    rintro _ ⟨⟩
    exact wp_createWithManager (signing_held hr.1 does_start hu (.inr rfl)) fun _ => ⟨rfl, rfl⟩

/-- A returning user may have taken a new address. -/
theorem wp_updateReturningIdentity {cfg : AuthConfig} {l : AuthMid} {identity : AuthIdentity} {user : User} {claims : GoogleIdentityClaims}
    (h : Signing cfg l user id) (hu : user ∈ l.db.users) :
    (AuthService.updateReturningIdentity cfg identity user claims).wp (authDiscipline cfg)
      (fun x => (authDiscipline cfg).Ensures (authEffect cfg (.login claims)) (.session x)) l := by
  have hsession : ∀ l' g, Signing cfg l' user g → ((saveIdentityEmail identity.id claims.email).when (identity.providerEmail ≠ claims.email)).wp
      (authDiscipline cfg) (fun _ => (SessionService.createWithManager cfg { user with email := claims.email }).wp (authDiscipline cfg)
        fun x => (authDiscipline cfg).Ensures (authEffect cfg (.login claims)) (.session x)) l' := by
    intro l' g hl'
    have hcreate : ∀ l'', Signing cfg l'' user g → (SessionService.createWithManager cfg { user with email := claims.email }).wp
        (authDiscipline cfg) (fun x => (authDiscipline cfg).Ensures (authEffect cfg (.login claims)) (.session x)) l'' :=
      fun l'' hl'' => wp_createWithManager ⟨hl''.inv, hl''.does, hl''.held, hl''.change⟩ fun _ => ⟨rfl, rfl⟩
    rw [Txn.wp_when]
    exact ⟨fun _ => wp_saveIdentityEmail fun l'' hlater hpend => hcreate l'' (hl'.later hlater hpend), fun _ => hcreate l' hl'⟩
  rw [AuthService.updateReturningIdentity, Txn.wp_bind, Txn.wp_require]
  intro _
  rw [Txn.wp_bind, Txn.wp_when]
  refine ⟨fun _ => ?_, fun _ => ?_⟩
  · rw [Txn.wp_bind, findShared, Txn.wp_locking]
    intro db hr
    rw [Txn.wp_bind, Txn.wp_require]
    intro _
    refine wp_saveUserEmail fun l' hlater hpend => ?_
    rw [Txn.wp_bind]
    have hfirst : Later cfg l l' := (Later.mk hr Set.subset_union_left).trans hlater
    exact hsession l' _ (h.saveEmail hu hfirst hpend)
  · rw [Txn.wp_bind]
    exact hsession l id h

theorem login_promises (cfg : AuthConfig) (claims : GoogleIdentityClaims) : Promises cfg (.login claims) := by
  intro db₀ hinv
  rw [AuthCall.run, Txn.wp_bind, AuthService.resolveIdentityAndCreateSession, Txn.wp_bind]
  refine wp_findLocked (fun db hr _ => ?_) fun db hr identity _ _ => ?_
  · rw [Txn.wp_bind, findShared, Txn.wp_locking]
    intro db' hr'
    rw [Txn.wp_bind, Txn.wp_require]
    intro _
    rw [Txn.wp_bind]
    refine wp_insertUser does_start (fun _ => ⟨rfl, rfl⟩) fun x l' _ hsigning => ?_
    rw [Txn.wp_bind]
    exact wp_insertIdentity fun _ l'' hlater hpend => wp_createWithManager (hsigning.later hlater hpend) fun _ => ⟨rfl, rfl⟩
  · rw [Txn.wp_bind]
    refine wp_findLocked (fun _ _ _ => ?_) fun db' hr' user hu _ => ?_
    · rw [Txn.wp_bind, Txn.wp_orThrow]
      exact fun _ h => nomatch h
    · rw [Txn.wp_bind, Txn.wp_orThrow]
      rintro _ ⟨⟩
      exact wp_updateReturningIdentity (signing_held hr'.1 does_start hu (.inr rfl)) hu

/-- A refresh that does nothing: its token names no session that it could be of. -/
theorem effect_invalid {hash : String → String} {token : String} {now : ℕ} {b : Access} (h : ∀ s ∈ b.sessions,
    parseRefreshToken (some token) = some s.id → s.revokedAt = none → now < s.refreshExpiresAt → False) :
    Effect hash (.refresh (some token) now) (.refreshed (.invalid none)) b b where
  step := .refl b
  issued := (List.append_nil _).symm
  accepted := (List.append_nil _).symm
  marked id hid := nomatch hid
  refreshes token' now' result hcall ha := by
    cases hcall
    cases ha
    exact ⟨fun x hx => (nomatch hx), fun s hs hparse hrevoked hnow _ => (h s hs hparse hrevoked hnow).elim⟩

theorem ensures_invalid {cfg : AuthConfig} {token : String} {now : ℕ} {l : AuthMid} (hdoes : Does l id)
    (h : ∀ db, (authDiscipline cfg).Rely l.held l.db db → ∀ s ∈ db.sessions, parseRefreshToken (some token) = some s.id →
      s.revokedAt = none → now < s.refreshExpiresAt → False) :
    (authDiscipline cfg).Ensures (authEffect cfg (.refresh (some token) now)) (.refreshed (.invalid none)) l :=
  ensures_of_does hdoes fun db hr => .refl hr.1 (effect_invalid (h db hr))

theorem refresh_promises (cfg : AuthConfig) (rawToken : Option String) (now : ℕ) : Promises cfg (.refresh rawToken now) := by
  intro db₀ hinv
  rw [AuthCall.run, Txn.wp_bind, SessionService.refresh, Txn.wp_bind, Txn.wp_orThrow]
  rintro token rfl
  rw [Txn.wp_bind, Txn.wp_orThrow]
  intro sessionId hparse
  rw [Txn.wp_bind]
  refine wp_findSessionLocked (fun db hr hnone => ?_) fun db hr session hs hid => ?_
  · refine ensures_invalid does_start fun db' hr' s hs hparse' _ _ => ?_
    rw [hparse, Option.some.injEq] at hparse'
    exact hnone s (((hr'.2 (.session sessionId) (.inr rfl)).row s hparse'.symm).1 hs) hparse'.symm
  subst hid
  rw [Txn.wp_bind]
  refine wp_findLocked (fun db' hr' hnone => ?_) fun db' hr' user hu huser => ?_
  · obtain ⟨u, hu, howner⟩ := hr'.1.owners session (session_mem_of_rely hr' (.inr rfl) hs)
    exact absurd (decide_eq_true howner) (List.find?_eq_none.1 hnone u hu)
  have hheld : AuthKey.session session.id ∈ (∅ ∪ {.session session.id} ∪ {.user user.id} : Set AuthKey) := .inl (.inr rfl)
  have hs' : session ∈ db'.sessions := session_mem_of_rely hr' (.inr rfl) hs
  have hone : ∀ db'', (authDiscipline cfg).Rely (∅ ∪ {.session session.id} ∪ {.user user.id}) db' db'' → ∀ s ∈ db''.sessions,
      parseRefreshToken (some token) = some s.id → s = session := by
    intro db'' hr'' s hmem hparse'
    rw [hparse, Option.some.injEq] at hparse'
    exact hr''.1.sessionIds s hmem session (session_mem_of_rely hr'' hheld hs') hparse'.symm
  dsimp only
  split
  · next hclosed =>
    refine ensures_invalid does_start fun db'' hr'' s hmem hparse' hrevoked hnow => ?_
    obtain rfl := hone db'' hr'' s hmem hparse'
    rcases hclosed with hclosed | hclosed
    · rw [hrevoked] at hclosed
      cases hclosed
    · omega
  next hopen =>
  have hrevoked : session.revokedAt = none := by
    cases hr : session.revokedAt with
    | none => rfl
    | some _ => exact absurd (.inl (by rw [hr]; rfl)) hopen
  split
  · rw [Txn.wp_bind]
    refine wp_revokeHeld does_start hs' hheld hrevoked ⟨rfl, rfl⟩ (fun id hid => (List.mem_singleton.1 hid)) fun token' now' result hcall ha => ?_
    cases hcall
    cases ha
    exact ⟨fun x hx => (nomatch hx), hparse⟩
  next hhash =>
  split
  · rw [Txn.wp_bind]
    refine wp_revokeHeld does_start hs' hheld hrevoked ⟨rfl, rfl⟩ (fun id hid => (List.mem_singleton.1 hid)) fun token' now' result hcall ha => ?_
    cases hcall
    cases ha
    exact ⟨fun x hx => (nomatch hx), hparse⟩
  · rw [Txn.wp_bind, saveRotated, Txn.wp_writing]
    intro db₂ hr₂ x hok
    refine ensures_of_does (f := fun b => b.rotate cfg.sha256 session.id (createRefreshToken session.id x.secret) token) (fun _ => rfl) fun db₃ hr₃ => ?_
    have hmem := session_mem_of_rely hr₂ hheld hs'
    refine allowed_rotate hr₃.1 (session_mem_of_rely hr₃ (.inl hheld) hmem) hrevoked (.inl hheld) (not_not.1 hhash) ?_ hparse ⟨rfl, rfl⟩
    intro htoken
    rw [(hr₃.2 (.session session.id) (.inl hheld)).issued, mem_issuedOf] at htoken
    exact of_decide_eq_true (List.all_eq_true.1 hok _ htoken) rfl

theorem revoke_promises (cfg : AuthConfig) (sessionId : String) : Promises cfg (.revoke sessionId) := by
  intro db₀ hinv
  rw [AuthCall.run, Txn.wp_bind, SessionService.revoke, Txn.wp_bind]
  refine wp_findSessionLocked (fun db hr hnone => ?_) fun db hr session hs hid => ?_
  · refine ensures_of_does does_start fun db' hr' => .refl hr'.1 ⟨.refl _, (List.append_nil _).symm, (List.append_nil _).symm, fun id hid => ?_,
      fun _ _ _ hcall _ => nomatch hcall⟩
    obtain rfl := List.mem_singleton.1 hid
    exact .inr ⟨rfl, fun s hs he => hnone s (((hr'.2 (.session id) (.inr rfl)).row s he).1 hs) he⟩
  subst hid
  dsimp only
  split
  · next hrevoked =>
    refine ensures_of_does does_start fun db' hr' => .refl hr'.1 ⟨.refl _, (List.append_nil _).symm, (List.append_nil _).symm, fun id hid => ?_,
      fun _ _ _ hcall _ => nomatch hcall⟩
    exact .inl ⟨session, session_mem_of_rely hr' (.inr rfl) hs, (List.mem_singleton.1 hid).symm, hrevoked⟩
  · next hopen =>
    rw [Txn.wp_bind]
    refine wp_revokeHeld does_start hs (.inr rfl) ?_ ⟨rfl, rfl⟩ (fun id hid => List.mem_singleton.1 hid) fun _ _ _ hcall _ => nomatch hcall
    rwa [Bool.not_eq_true, Option.isSome_eq_false_iff, Option.isNone_iff_eq_none] at hopen

/-- A call that does nothing, and says so. -/
theorem ensures_nothing {cfg : AuthConfig} {i : AuthCall} {a : AuthAnswer} {l : AuthMid} (hdoes : Does l id)
    (hi : a.issued = [] ∧ i.accepted a = [] ∧ i.marks a = []) (ha : ∀ result, a ≠ .refreshed result) :
    (authDiscipline cfg).Ensures (authEffect cfg i) a l :=
  ensures_of_does hdoes fun _ hr => allowed_withUsers hr.1 (.refl hr.1.userIds) hi ha

/-- The users' rows that are held change, and nobody is closed out. -/
theorem ensures_saveUser {cfg : AuthConfig} {i : AuthCall} {a : AuthAnswer} {l : AuthMid} {user : User} {f : User → User}
    (hdoes : Does l fun b => b.withUsers (Table.update b.users (·.id = user.id) f)) (hu : user ∈ l.db.users) (hheld : .user user.id ∈ l.held)
    (hid : ∀ u : User, (f u).id = u.id) (hinactive : (f user).status = .inactive → user.status = .inactive)
    (hadmin : UsersService.isActiveAdmin user = true → UsersService.isActiveAdmin (f user) = true)
    (hi : a.issued = [] ∧ i.accepted a = [] ∧ i.marks a = []) (ha : ∀ result, a ≠ .refreshed result) :
    (authDiscipline cfg).Ensures (authEffect cfg i) a l :=
  ensures_of_does hdoes fun _ hr =>
    allowed_withUsers hr.1 (.update hr.1.userIds (user_mem_of_rely hr hheld hu) hheld hid hinactive hadmin) hi ha

theorem promote_promises (cfg : AuthConfig) (input : AdminBootstrapService.PromoteInput) : Promises cfg (.promote input) := by
  intro db₀ hinv
  rw [AuthCall.run, Txn.wp_bind, AdminBootstrapService.promote]
  rw [Txn.wp_bind, Txn.wp_require]
  intro _
  rw [Txn.wp_bind, Txn.wp_require]
  intro _
  rw [Txn.wp_bind]
  refine wp_findLocked (fun _ _ _ => ?_) fun db hr user hu _ => ?_
  · rw [Txn.wp_bind, Txn.wp_orThrow]
    exact fun _ h => nomatch h
  rw [Txn.wp_bind, Txn.wp_orThrow]
  rintro _ ⟨⟩
  rw [Txn.wp_bind, Txn.wp_require]
  intro _
  rw [Txn.wp_bind, Txn.wp_require]
  intro hactive
  split
  · exact ensures_nothing does_start ⟨rfl, rfl, rfl⟩ fun _ h => nomatch h
  · rw [Txn.wp_bind]
    refine wp_saveUser fun l hl _ hpend => ?_
    rw [Txn.wp_bind]
    refine wp_insertUserRoleHistory fun x l' hl' hpend' => ?_
    have hlater := hl.trans hl'
    refine ensures_saveUser (f := fun u => { u with role := .admin }) (fun db => ?_) (hlater.user_mem (.inr rfl) hu) (hlater.held (.inr rfl))
      (fun _ => rfl) id (fun _ => ?_) ⟨rfl, rfl, rfl⟩ fun _ h => nomatch h
    · rw [hpend' db, hpend db]
      rfl
    · simp [UsersService.isActiveAdmin, hactive]

/-- Where a user may be made inactive, an administrator other than the user is held. -/
theorem wp_assertDeactivationAllowed {cfg : AuthConfig} {l : AuthMid} {actorUserId : ℕ} {target : User} {order : ScanOrder ℕ}
    {Q : Unit → AuthMid → Prop} (hinv : (authDiscipline cfg).Inv l.db) (hdoes : Does l id)
    (h : ∀ l', Scanning cfg l l' → (target.role = .admin → ∃ u ∈ l'.db.users, u.id ≠ target.id ∧ UsersService.isActiveAdmin u = true ∧
      .user u.id ∈ l'.held) → Q () l') : (UsersService.assertDeactivationAllowed actorUserId target order).wp (authDiscipline cfg) Q l := by
  rw [UsersService.assertDeactivationAllowed, Txn.wp_bind, Txn.wp_require]
  intro _
  rw [Txn.wp_when]
  refine ⟨fun _ => ?_, fun hrole => h l (.refl hinv) fun hadmin => absurd hadmin hrole⟩
  rw [Txn.wp_bind]
  refine wp_lockActiveAdmins hdoes fun l' admins hl' hids hadmins => ?_
  rw [Txn.wp_require]
  intro hmany
  refine h l' hl' fun _ => ?_
  -- of two administrators one is not the user
  by_contra hno
  refine hmany ?_
  rw [← List.length_map (·.id)]
  refine Table.length_le_one hids fun x hx y hy => ?_
  have htarget : ∀ x ∈ admins.map (·.id), x = target.id := by
    intro x hx
    obtain ⟨u, hu, rfl⟩ := List.mem_map.1 hx
    obtain ⟨hactive, hmem, hheld⟩ := hadmins u hu
    by_contra hne
    exact hno ⟨u, hmem, hne, hactive, hheld⟩
  rw [htarget x hx, htarget y hy]

/-- A user who is held is made inactive, and the user's sessions are revoked. -/
theorem wp_deactivate {cfg : AuthConfig} {l : AuthMid} {input : UsersService.UpdateStatusInput} {target : User} {admins : ScanOrder ℕ}
    {order : ScanOrder String} (hdoes : Does l fun b => b.withUsers (Table.update b.users (·.id = target.id) fun u => { u with status := .inactive }))
    (hheld : .user target.id ∈ l.held) (htarget : target ∈ l.db.users) (hadmin : target.role = .admin →
      ∃ u ∈ l.db.users, u.id ≠ target.id ∧ UsersService.isActiveAdmin u = true ∧ .user u.id ∈ l.held) {user : User} :
    (UsersService.revokeSessions target.id order).wp (authDiscipline cfg)
      (fun ids => (authDiscipline cfg).Ensures (authEffect cfg (.updateStatus input admins order)) (.status user ids)) l := by
  rw [UsersService.revokeSessions, Txn.wp_bind]
  refine wp_lockUnrevokedSessions (fun db => congrArg Access.sessions (hdoes db)) hheld fun l' sessions hl' hfound hall => ?_
  -- both with and without a session to revoke
  have hensures : ∀ l'' now, Later cfg l' l'' → Does l'' (fun b => (b.withUsers (Table.update b.users (·.id = target.id)
      fun u => { u with status := .inactive })).revoke (sessions.map (·.id)) now) → (authDiscipline cfg).Ensures
      (authEffect cfg (.updateStatus input admins order)) (.status user (sessions.map (·.id))) l'' := by
    intro l'' now hl'' hdoes''
    refine ensures_of_does hdoes'' fun db hr => ?_
    have hlater : Later cfg l' ⟨l''.held, l''.pend, l''.view, db⟩ := ⟨hl''.rely.trans hr hl''.held, hl''.held⟩
    have hfirst := hl'.toLater.trans hlater
    refine allowed_close hr.1 (hfirst.held hheld) (fun id hid => ?_) (fun s hs hsu hrevoked => ?_) fun hactive => ?_
    · obtain ⟨s, hs, rfl⟩ := List.mem_map.1 hid
      obtain ⟨hrevoked, hmem, hsheld⟩ := hfound s hs
      exact ⟨hl''.held hsheld, s, session_mem_of_rely hlater.rely hsheld hmem, rfl, hrevoked⟩
    · obtain ⟨x, hx, hxid, hxu, hxr⟩ := (hlater.rely.2 (.user target.id) (hl'.held hheld)).sessions s hs hsu hrevoked
      exact hxid ▸ hall x hx hxu hxr
    · by_cases hrole : target.role = .admin
      · obtain ⟨u, hu, hne, hadm, huheld⟩ := hadmin hrole
        exact ⟨u, hfirst.user_mem huheld hu, hne, hadm⟩
      · obtain ⟨u, hu, hadm⟩ := hactive
        refine ⟨u, hu, fun he => hrole ?_, hadm⟩
        rw [← hr.1.user_unique u hu target (hfirst.user_mem hheld htarget) he]
        rw [UsersService.isActiveAdmin, Bool.and_eq_true, decide_eq_true_eq] at hadm
        exact hadm.1
  rw [Txn.wp_bind, Txn.wp_when]
  refine ⟨fun _ => ?_, fun hnone => ?_⟩
  · rw [Txn.wp_bind]
    refine wp_saveRevoked fun x l'' hl'' _ hpend => hensures l'' x.now hl'' fun db => ?_
    rw [hpend db, hl'.pend, hdoes db]
  · refine hensures l' 0 ⟨.refl hl'.rely.1, subset_rfl⟩ fun db => ?_
    rw [hl'.pend, hdoes db, not_not.1 hnone]
    exact revoke_nil.symm

theorem updateStatus_promises (cfg : AuthConfig) (input : UsersService.UpdateStatusInput) (admins : ScanOrder ℕ) (order : ScanOrder String) :
    Promises cfg (.updateStatus input admins order) := by
  intro db₀ hinv
  rw [AuthCall.run, Txn.wp_bind, UsersService.updateStatus, Txn.wp_bind]
  refine wp_findLocked (fun _ _ _ => ?_) fun db hr target hu _ => ?_
  · rw [Txn.wp_bind, Txn.wp_orThrow]
    exact fun _ h => nomatch h
  rw [Txn.wp_bind, Txn.wp_orThrow]
  rintro _ ⟨⟩
  split
  · exact ensures_nothing does_start ⟨rfl, rfl, rfl⟩ fun _ h => nomatch h
  next hchange =>
  rw [Txn.wp_bind, Txn.wp_when]
  refine ⟨fun hinactive => ?_, fun hactive => ?_⟩
  · refine wp_assertDeactivationAllowed hr.1 does_start fun l hl hadmin => ?_
    rw [Txn.wp_bind]
    refine wp_saveUser fun l' hl' _ hpend => ?_
    rw [Txn.wp_bind]
    refine wp_insertUserStatusHistory fun x l'' hl'' hpend' => ?_
    have hlater := hl'.trans hl''
    rw [if_pos hinactive, Txn.wp_bind]
    refine wp_deactivate (fun db => ?_) (hlater.held (hl.held (.inr rfl))) (hlater.user_mem (hl.held (.inr rfl)) (hl.user_mem (.inr rfl) hu))
      fun hrole => ?_
    · rw [hpend' db, hpend db, hl.pend, hinactive]
      rfl
    · obtain ⟨u, hmem, hne, hadm, hheld⟩ := hadmin hrole
      exact ⟨u, hlater.user_mem hheld hmem, hne, hadm, hlater.held hheld⟩
  · rw [Txn.wp_bind]
    refine wp_saveUser fun l hl _ hpend => ?_
    rw [Txn.wp_bind]
    refine wp_insertUserStatusHistory fun x l' hl' hpend' => ?_
    rw [if_neg hactive]
    have hlater := hl.trans hl'
    refine ensures_saveUser (f := fun u => { u with status := input.status }) (fun db => ?_) (hlater.user_mem (.inr rfl) hu)
      (hlater.held (.inr rfl)) (fun _ => rfl) (fun h => absurd h hactive) (fun hadm => ?_) ⟨rfl, rfl, rfl⟩ fun _ h => nomatch h
    · rw [hpend' db, hpend db]
      rfl
    · rw [UsersService.isActiveAdmin, Bool.and_eq_true] at hadm ⊢
      refine ⟨hadm.1, decide_eq_true ?_⟩
      cases hstatus : input.status with
      | active => rfl
      | inactive => exact absurd hstatus hactive

/-- Every call follows the discipline, and does what its answer says. -/
theorem authCall_promises (cfg : AuthConfig) (i : AuthCall) : Promises cfg i := by
  cases i with
  | login claims => exact login_promises cfg claims
  | createSession userId => exact createSession_promises cfg userId
  | refresh rawToken now => exact refresh_promises cfg rawToken now
  | revoke sessionId => exact revoke_promises cfg sessionId
  | updateStatus input admins order => exact updateStatus_promises cfg input admins order
  | promote input => exact promote_promises cfg input

theorem inv_opening (cfg : AuthConfig) {users : List User} (identities : List AuthIdentity) (hids : (users.map (·.id)).Nodup) :
    (authDiscipline cfg).Inv (AuthDb.opening users identities) where
  userIds := hids
  sessionIds := fun _ hs => nomatch hs
  owners := fun _ hs => nomatch hs
  closed := fun _ _ _ _ hs => nomatch hs
  tokens := ⟨fun _ h => (nomatch h), fun _ h => (nomatch h), fun _ => rfl, fun _ => List.nodup_nil, fun _ h => (nomatch h)⟩

/-- Every interleaving of calls does what they promise. -/
theorem authSystem_promised {cfg : AuthConfig} {C : Sys AuthDb AuthKey AuthSupply AuthError AuthAnswer AuthCall → Act AuthSupply AuthCall → Prop}
    {s : Sys AuthDb AuthKey AuthSupply AuthError AuthAnswer AuthCall} (h : (authSystem cfg).Reachable C s) :
    s.Promised (authDiscipline cfg) (authEffect cfg) := by
  refine promised_of_reachable ?_ (fun i => authCall_promises cfg i) h
  rintro _ ⟨users, identities, hids, rfl⟩
  exact inv_opening cfg identities hids

/-- A step of the system revives no session and loses no last administrator. -/
theorem step_of_exec {cfg : AuthConfig} {s s' : Sys AuthDb AuthKey AuthSupply AuthError AuthAnswer AuthCall} {a : Act AuthSupply AuthCall}
    (h : s.Promised (authDiscipline cfg) (authEffect cfg)) (he : (authSystem cfg).exec s a = some s') : Step s.db.access s'.db.access := by
  rcases (h.step (fun i => authCall_promises cfg i) he).2 with hidle | ⟨p, i, x, -, heffect⟩
  · rw [hidle.1]
    exact .refl _
  · exact heffect.step

end HotelBackend.Auth
