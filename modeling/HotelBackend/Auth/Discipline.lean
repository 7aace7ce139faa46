import HotelBackend.Auth.Access
import HotelBackend.Theory.Guarantees
import Mathlib.Data.List.Forall2
import Mathlib.Data.List.ReduceOption

/-!
# The discipline of the session transactions

What the transactions of `Auth.Services` agree on (`authDiscipline`): `Access.Inv` is the invariant, and
a transaction that does not hold the lock of a user or a session keeps it in the sense of `Auth.Access`.
`Effect` is what a call has done when it has committed with an answer.

Below are the changes that may be committed (`Allowed`), and what each statement, and a scan of many
rows, leaves to the statements after it.
-/

namespace HotelBackend.Auth

open HotelBackend.Theory
open HotelBackend.Theory.Transactions
open HotelBackend.Users
open Access

/-- Who may get in, of the database. -/
def AuthDb.access (db : AuthDb) : Access := ⟨db.users, db.sessions, db.issued, db.accepted⟩

/-- What the transactions agree on. -/
def authDiscipline (cfg : AuthConfig) : Discipline AuthDb AuthKey where
  Inv db := db.access.Inv cfg.sha256
  Keeps
    | .user id, a, b => KeepsUser id a.access b.access
    | .session id, a, b => KeepsSession id a.access b.access
    | _, _, _ => True
  refl k db := by
    cases k with
    | user id => exact .refl id db.access
    | session id => exact .refl id db.access
    | _ => trivial
  trans k a b c hab hbc := by
    cases k with
    | user id => exact KeepsUser.trans hab hbc
    | session id => exact KeepsSession.trans hab hbc
    | _ => trivial

/-! ### What an answer says -/

/-- The tokens an answer hands out. -/
def AuthAnswer.issued : AuthAnswer → List TokenUse
  | .session x => [⟨x.sessionId, x.refreshToken⟩]
  | .refreshed (.success x) => [⟨x.sessionId, x.refreshToken⟩]
  | _ => []

/-- The token a call was made with, if the answer accepts it. -/
def AuthCall.accepted : AuthCall → AuthAnswer → List TokenUse
  | .refresh (some token) _, .refreshed (.success x) => [⟨x.sessionId, token⟩]
  | _, _ => []

/-- A refresh succeeds with the last token of a session that is not revoked; a wrong token of such a session
revokes it. -/
structure Refreshes (hash : String → String) (token : String) (now : ℕ) (result : RefreshResult) (b c : Access) : Prop where
  accepted : ∀ x, result = .success x → ∃ s ∈ b.sessions, parseRefreshToken (some token) = some s.id ∧ x.sessionId = s.id ∧
    s.revokedAt = none ∧ s.refreshTokenHash = hash token
  caught : ∀ s ∈ b.sessions, parseRefreshToken (some token) = some s.id → s.revokedAt = none → now < s.refreshExpiresAt →
    s.refreshTokenHash ≠ hash token → ∃ s' ∈ c.sessions, s'.id = s.id ∧ s'.revokedAt.isSome = true

/-- What call `i` with the answer `a` does. -/
structure Effect (hash : String → String) (i : AuthCall) (a : AuthAnswer) (b c : Access) : Prop where
  step : Step b c
  issued : c.issued = b.issued ++ a.issued
  accepted : c.accepted = b.accepted ++ i.accepted a
  /-- A session it is to mark is revoked, or was not there to be. -/
  marked : ∀ id ∈ i.marks a, (∃ s ∈ c.sessions, s.id = id ∧ s.revokedAt.isSome = true) ∨ i = .revoke id ∧ ∀ s ∈ c.sessions, s.id ≠ id
  refreshes : ∀ token now result, i = .refresh (some token) now → a = .refreshed result → Refreshes hash token now result b c

/-- What every call of the system promises. -/
def authEffect (cfg : AuthConfig) (i : AuthCall) (a : AuthAnswer) (b c : AuthDb) : Prop := Effect cfg.sha256 i a b.access c.access

/-- A program in the middle of its transaction. -/
abbrev AuthMid := Local AuthDb AuthKey

/-- Its writes are the change `f`. -/
def Does (l : AuthMid) (f : Access → Access) : Prop := ∀ db, (l.pend db).access = f db.access

theorem does_start {held : Set AuthKey} {view : Option AuthDb} {db : AuthDb} : Does ⟨held, id, view, db⟩ id := fun _ => rfl

/-- A change a program with the keys `held` may commit as call `i` with the answer `a`. -/
structure Allowed (hash : String → String) (held : Set AuthKey) (i : AuthCall) (a : AuthAnswer) (b c : Access) : Prop where
  inv : c.Inv hash
  users : ∀ id, .user id ∉ held → KeepsUser id b c
  sessions : ∀ id, .session id ∉ held → KeepsSession id b c
  effect : Effect hash i a b c

section Commits

variable {cfg : AuthConfig} {i : AuthCall} {a : AuthAnswer} {l : AuthMid}

theorem ensures_of_does {f : Access → Access} (hdoes : Does l f) (h : ∀ db, (authDiscipline cfg).Rely l.held l.db db →
    Allowed cfg.sha256 l.held i a db.access (f db.access)) : (authDiscipline cfg).Ensures (authEffect cfg i) a l := by
  intro db hr
  have hallowed := h db hr
  rw [← hdoes db] at hallowed
  refine ⟨hallowed.inv, fun k hk => ?_, hallowed.effect⟩
  cases k with
  | user id => exact hallowed.users id hk
  | session id => exact hallowed.sessions id hk
  | _ => trivial

/-- Nothing was done. -/
theorem Allowed.refl {hash : String → String} {held : Set AuthKey} {b : Access} (hinv : b.Inv hash) (heffect : Effect hash i a b b) :
    Allowed hash held i a b b :=
  ⟨hinv, fun id _ => .refl id b, fun id _ => .refl id b, heffect⟩

theorem user_mem_of_rely {held : Set AuthKey} {a b : AuthDb} (hr : (authDiscipline cfg).Rely held a b) {u : User} (hheld : .user u.id ∈ held)
    (hu : u ∈ a.users) : u ∈ b.users :=
  ((hr.2 (.user u.id) hheld).row u rfl).2 hu

theorem session_mem_of_rely {held : Set AuthKey} {a b : AuthDb} (hr : (authDiscipline cfg).Rely held a b) {s : AuthSession}
    (hheld : .session s.id ∈ held) (hs : s ∈ a.sessions) : s ∈ b.sessions :=
  ((hr.2 (.session s.id) hheld).row s rfl).2 hs

/-! ### Changes that may be committed -/

theorem not_mem_of_union {held ks : Set AuthKey} {k : AuthKey} (h : k ∉ held ∪ ks) : k ∉ held := fun hk => h (.inl hk)

/-- The users change, and a session is added for one of them. -/
theorem allowed_addSession {held : Set AuthKey} {b : Access} {us : List User} {s : AuthSession} {token : String} {u : User}
    (hinv : b.Inv cfg.sha256) (hus : UserChange (fun id => .user id ∈ held) b.users us) (hu : u ∈ us) (howner : u.id = s.userId)
    (hactive : u.status = .active) (hheld : .user s.userId ∈ held) (hsession : .session s.id ∈ held)
    (hnew : ∀ x ∈ b.sessions, x.id ≠ s.id) (hhash : s.refreshTokenHash = cfg.sha256 token) {x : IssuedSession}
    (hx : x.sessionId = s.id ∧ x.refreshToken = token) (hi : i.accepted (.session x) = [] ∧ i.marks (.session x) = []) :
    Allowed cfg.sha256 held i (.session x) b ((b.withUsers us).addSession s token) where
  inv := (hinv.withUsers hus).addSession hnew hhash hu howner hactive
  users id hid := (keepsUser_withUsers hus hid).trans (keepsUser_addSession fun he => hid (he ▸ hheld))
  sessions id hid := (keepsSession_withUsers id).trans (keepsSession_addSession fun he => hid (he ▸ hsession))
  effect :=
    { step := (step_withUsers hus).trans step_addSession
      issued := by
        rw [AuthAnswer.issued, hx.1, hx.2]
        rfl
      accepted := by
        rw [hi.1, List.append_nil]
        rfl
      marked := fun id hid => by
        rw [hi.2] at hid
        cases hid
      refreshes := fun _ _ _ _ ha => nomatch ha }

/-- The users change, and nothing else. -/
theorem allowed_withUsers {held : Set AuthKey} {b : Access} {us : List User} (hinv : b.Inv cfg.sha256)
    (hus : UserChange (fun id => .user id ∈ held) b.users us) (hi : a.issued = [] ∧ i.accepted a = [] ∧ i.marks a = [])
    (ha : ∀ result, a ≠ .refreshed result) : Allowed cfg.sha256 held i a b (b.withUsers us) where
  inv := hinv.withUsers hus
  users id hid := keepsUser_withUsers hus hid
  sessions id _ := keepsSession_withUsers id
  effect :=
    { step := step_withUsers hus
      issued := by
        rw [hi.1, List.append_nil]
        rfl
      accepted := by
        rw [hi.2.1, List.append_nil]
        rfl
      marked := fun id hid => by
        rw [hi.2.2] at hid
        cases hid
      refreshes := fun _ _ result _ he => absurd he (ha result) }

/-- A session is revoked. -/
theorem allowed_revoke {held : Set AuthKey} {b : Access} {s : AuthSession} {now : ℕ} (hinv : b.Inv cfg.sha256) (hs : s ∈ b.sessions)
    (hrevoked : s.revokedAt = none) (hheld : .session s.id ∈ held) (hi : a.issued = [] ∧ i.accepted a = [])
    (hmarks : ∀ id ∈ i.marks a, id = s.id) (hrefreshes : ∀ token now result, i = .refresh (some token) now → a = .refreshed result →
      (∀ x, result ≠ .success x) ∧ parseRefreshToken (some token) = some s.id) :
    Allowed cfg.sha256 held i a b (b.revoke [s.id] now) where
  inv := hinv.revoke hinv.userIds (fun u hu => ⟨u, hu, rfl⟩) fun u hu hin => .inl ⟨u, hu, rfl, hin⟩
  users id _ := keepsUser_revoke
  sessions id hid := keepsSession_revoke fun he => hid (List.mem_singleton.1 he ▸ hheld)
  effect :=
    have hmem : { s with revokedAt := some now } ∈ (b.revoke [s.id] now).sessions :=
      Table.mem_update_of_pos hs (decide_eq_true List.mem_cons_self)
    { step := step_revoke fun x hx hid => by
        rw [hinv.sessionIds x hx s hs (List.mem_singleton.1 hid)]
        exact hrevoked
      issued := by
        rw [hi.1, List.append_nil]
        rfl
      accepted := by
        rw [hi.2, List.append_nil]
        rfl
      marked := fun id hid => .inl ⟨_, hmem, (hmarks id hid).symm, rfl⟩
      refreshes := fun token now result hcall ha => by
        obtain ⟨hfail, hparse⟩ := hrefreshes token now result hcall ha
        refine ⟨fun x hx => absurd hx (hfail x), fun y hy hparse' _ _ _ => ⟨_, hmem, ?_, rfl⟩⟩
        rw [hparse] at hparse'
        exact Option.some.inj hparse' }

/-- A session takes a new token. -/
theorem allowed_rotate {held : Set AuthKey} {b : Access} {s : AuthSession} {token presented : String} {now : ℕ} {x : IssuedSession}
    (hinv : b.Inv cfg.sha256) (hs : s ∈ b.sessions) (hrevoked : s.revokedAt = none) (hheld : .session s.id ∈ held)
    (hpresented : cfg.sha256 presented = s.refreshTokenHash) (hfresh : token ∉ b.issuedOf s.id)
    (hnamed : parseRefreshToken (some presented) = some s.id) (hx : x.sessionId = s.id ∧ x.refreshToken = token) :
    Allowed cfg.sha256 held (.refresh (some presented) now) (.refreshed (.success x)) b (b.rotate cfg.sha256 s.id token presented) where
  inv := hinv.rotate hs hpresented hfresh hnamed
  users id _ := keepsUser_rotate
  sessions id hid := keepsSession_rotate fun he => hid (he ▸ hheld)
  effect :=
    { step := step_rotate hinv.sessionIds hs hrevoked
      issued := by
        rw [AuthAnswer.issued, hx.1, hx.2]
        rfl
      accepted := by
        rw [AuthCall.accepted, hx.1]
        rfl
      marked := fun id hid => nomatch hid
      refreshes := fun token' now' result hcall ha => by
        cases hcall
        cases ha
        refine ⟨fun y hy => ?_, fun y hy hparse _ _ hne => ?_⟩
        · cases hy
          exact ⟨s, hs, hnamed, hx.1, hrevoked, hpresented.symm⟩
        · rw [hnamed, Option.some.injEq] at hparse
          exact absurd (hinv.sessionIds y hy s hs hparse.symm ▸ hpresented.symm) hne }

/-- A user becomes inactive, and with it the user's sessions are revoked; another administrator stays. -/
theorem allowed_close {held : Set AuthKey} {b : Access} {target user : User} {ids : List String} {now : ℕ}
    {input : UsersService.UpdateStatusInput} {admins : ScanOrder ℕ} {order : ScanOrder String} (hinv : b.Inv cfg.sha256)
    (hheld : .user target.id ∈ held)
    (hids : ∀ id ∈ ids, .session id ∈ held ∧ ∃ s ∈ b.sessions, s.id = id ∧ s.revokedAt = none)
    (hall : ∀ s ∈ b.sessions, s.userId = target.id → s.revokedAt = none → s.id ∈ ids)
    (hadmins : b.HasActiveAdmin → ∃ u ∈ b.users, u.id ≠ target.id ∧ UsersService.isActiveAdmin u = true) :
    Allowed cfg.sha256 held (.updateStatus input admins order) (.status user ids) b
      ((b.withUsers (Table.update b.users (·.id = target.id) fun u => { u with status := .inactive })).revoke ids now) where
  inv := by
    refine hinv.revoke (nodup_update hinv.userIds fun _ => rfl) (exists_update fun _ => rfl) fun u' hu' hin => ?_
    obtain ⟨u, hu, ⟨hid, rfl⟩ | ⟨-, rfl⟩⟩ := Table.mem_update.1 hu'
    · exact .inr fun s hs hsu => hall s hs (hsu.trans (of_decide_eq_true hid))
    · exact .inl ⟨u, hu, rfl, hin⟩
  users id hid :=
    { row := fun u hu => by
        apply mem_update_of_ne
        · exact fun _ => rfl
        · intro he
          rw [← hu, he] at hid
          exact hid hheld
      sessions := (keepsUser_revoke (a := b.withUsers _)).sessions }
  sessions id hid := (keepsSession_withUsers id).trans (keepsSession_revoke fun he => hid (hids id he).1)
  effect :=
    { step :=
        { sessions := (step_revoke (a := b.withUsers _) fun s hs hid => by
            obtain ⟨-, x, hx, hxs, hrevoked⟩ := hids s.id hid
            rwa [hinv.sessionIds s hs x hx hxs.symm]).sessions
          admins := fun hadmin => by
            obtain ⟨u, hu, hne, hactive⟩ := hadmins hadmin
            exact ⟨u, Table.mem_update_of_neg hu (decide_eq_false hne), hactive⟩ }
      issued := (List.append_nil _).symm
      accepted := (List.append_nil _).symm
      marked := fun id hid => by
        obtain ⟨-, x, hx, rfl, -⟩ := hids id hid
        exact .inl ⟨_, Table.mem_update_of_pos hx (decide_eq_true hid), rfl, rfl⟩
      refreshes := fun _ _ _ hcall _ => nomatch hcall }

end Commits

/-! ### Statements -/

/-- What a program knows when it goes on: others did what its locks allow, and it gave up none. -/
structure Later (cfg : AuthConfig) (l l' : AuthMid) : Prop where
  rely : (authDiscipline cfg).Rely l.held l.db l'.db
  held : l.held ⊆ l'.held

section Statements

variable {cfg : AuthConfig} {l l' : AuthMid}

theorem Later.user_mem {u : User} (h : Later cfg l l') (hheld : .user u.id ∈ l.held) (hu : u ∈ l.db.users) : u ∈ l'.db.users :=
  user_mem_of_rely h.rely hheld hu

theorem Later.trans {l'' : AuthMid} (h : Later cfg l l') (h' : Later cfg l' l'') : Later cfg l l'' :=
  ⟨h.rely.trans h'.rely h.held, h.held.trans h'.held⟩

theorem wp_findLocked {ρ : Type} {table : AuthDb → List ρ} {key : ρ → AuthKey} {p : ρ → Bool} {Q : Option ρ → AuthMid → Prop}
    (hnone : ∀ db, (authDiscipline cfg).Rely l.held l.db db → (table (l.pend db)).find? p = none → Q none { l with db := db })
    (hsome : ∀ db, (authDiscipline cfg).Rely l.held l.db db → ∀ r ∈ table (l.pend db), p r = true →
      Q (some r) { l with db := db, held := l.held ∪ {key r} }) : (findLocked table key p).wp (authDiscipline cfg) Q l :=
  Txn.wp_locking_find hnone hsome

theorem wp_saveUser {id : ℕ} {columns : User → User} {Q : Unit → AuthMid → Prop} (h : ∀ l', Later cfg l l' → .user id ∈ l'.held →
    (∀ db, l'.pend db = { l.pend db with users := Table.update (l.pend db).users (·.id = id) columns }) → Q () l') :
    (saveUser id columns).wp (authDiscipline cfg) Q l := by
  rw [saveUser, Txn.wp_bind, Txn.wp_reading]
  intro db hr
  rw [Txn.wp_bind, Txn.wp_writing]
  intro db' hr' x _
  exact h _ ⟨hr.trans hr' subset_rfl, Set.subset_union_left⟩ (.inr List.mem_cons_self) fun _ => rfl

theorem wp_saveUserEmail {id : ℕ} {email : String} {Q : Unit → AuthMid → Prop} (h : ∀ l', Later cfg l l' →
    (∀ db, l'.pend db = { l.pend db with users := Table.update (l.pend db).users (·.id = id) fun u => { u with email := email } }) → Q () l') :
    (saveUserEmail cfg id email).wp (authDiscipline cfg) Q l := by
  rw [saveUserEmail, Txn.wp_bind, Txn.wp_reading]
  intro db hr
  rw [Txn.wp_bind, Txn.wp_writing]
  intro db' hr' x _
  exact h _ ⟨hr.trans hr' subset_rfl, Set.subset_union_left⟩ fun _ => rfl

theorem wp_saveIdentityEmail {id : ℕ} {email : String} {Q : Unit → AuthMid → Prop} (h : ∀ l', Later cfg l l' →
    (∀ db, (l'.pend db).access = (l.pend db).access) → Q () l') : (saveIdentityEmail id email).wp (authDiscipline cfg) Q l := by
  rw [saveIdentityEmail, Txn.wp_bind, Txn.wp_reading]
  intro db hr
  rw [Txn.wp_bind, Txn.wp_writing]
  intro db' hr' x _
  exact h _ ⟨hr.trans hr' subset_rfl, Set.subset_union_left⟩ fun _ => rfl

/-- The program has changed the users to `g` and holds `user`. -/
structure Signing (cfg : AuthConfig) (l : AuthMid) (user : User) (g : List User → List User) : Prop where
  inv : (authDiscipline cfg).Inv l.db
  does : Does l fun a => a.withUsers (g a.users)
  held : .user user.id ∈ l.held
  change : ∀ db, (authDiscipline cfg).Rely l.held l.db db → UserChange (fun id => .user id ∈ l.held) db.users (g db.users) ∧
    ∃ u ∈ g db.users, u.id = user.id ∧ u.status = user.status

theorem Signing.later {user : User} {g : List User → List User} (h : Signing cfg l user g) (hl : Later cfg l l')
    (hpend : ∀ db, (l'.pend db).access = (l.pend db).access) : Signing cfg l' user g where
  inv := hl.rely.1
  does db := (hpend db).trans (h.does db)
  held := hl.held h.held
  change db hr := by
    obtain ⟨hchange, hu⟩ := h.change db (hl.rely.trans hr hl.held)
    exact ⟨hchange.mono fun id hid => hl.held hid, hu⟩

/-- A session is added for a user who is held. -/
theorem wp_createWithManager {i : AuthCall} {user : User} {g : List User → List User} (h : Signing cfg l user g)
    (hi : ∀ x, i.accepted (.session x) = [] ∧ i.marks (.session x) = []) :
    (SessionService.createWithManager cfg user).wp (authDiscipline cfg)
      (fun x => (authDiscipline cfg).Ensures (authEffect cfg i) (.session x)) l := by
  rw [SessionService.createWithManager, Txn.wp_bind, Txn.wp_require]
  intro hactive
  rw [Txn.wp_bind, insertSession, Txn.wp_writing]
  intro db hr x hok
  refine ensures_of_does (f := fun a => (a.withUsers (g a.users)).addSession
    ⟨x.uuid, user.id, cfg.sha256 (createRefreshToken x.uuid x.secret), x.now + cfg.refreshTtlSeconds * 1000, none⟩
    (createRefreshToken x.uuid x.secret)) (fun db => ?_) fun db' hr' => ?_
  · show (l.pend db).access.addSession _ _ = _
    rw [h.does db]
  · have hrely := hr.trans hr' Set.subset_union_left
    obtain ⟨hchange, u, hu, hid, hstatus⟩ := h.change db' hrely
    have hnew : ∀ s ∈ db'.sessions, s.id ≠ x.uuid := by
      intro s hs he
      have hs' := ((hr'.2 (.session x.uuid) (.inr List.mem_cons_self)).row s he).1 hs
      have hok := of_decide_eq_true (List.all_eq_true.1 hok s (by
        rw [show (l.pend db).sessions = db.sessions from congrArg Access.sessions (h.does db)]
        exact hs'))
      exact hok he
    apply allowed_addSession hr'.1 (hchange.mono fun id hid => .inl hid) hu
    · exact hid
    · exact hstatus.trans hactive
    · exact .inl h.held
    · exact .inr List.mem_cons_self
    · exact hnew
    · rfl
    · exact ⟨rfl, rfl⟩
    · exact hi _

theorem wp_insertIdentity {row : AuthSupply → AuthIdentity} {Q : AuthSupply → AuthMid → Prop} (h : ∀ x l', Later cfg l l' →
    (∀ db, (l'.pend db).access = (l.pend db).access) → Q x l') : (insertIdentity row).wp (authDiscipline cfg) Q l := by
  rw [insertIdentity, Txn.wp_writing]
  intro db hr x _
  exact h x _ ⟨hr, Set.subset_union_left⟩ fun _ => rfl

theorem wp_insertUserStatusHistory {userId actorUserId : ℕ} {fromStatus toStatus : UserStatus} {reason : String} {Q : AuthSupply → AuthMid → Prop}
    (h : ∀ x l', Later cfg l l' → (∀ db, (l'.pend db).access = (l.pend db).access) → Q x l') :
    (insertUserStatusHistory userId actorUserId fromStatus toStatus reason).wp (authDiscipline cfg) Q l := by
  rw [insertUserStatusHistory, Txn.wp_writing]
  intro db hr x _
  exact h x _ ⟨hr, Set.subset_union_left⟩ fun _ => rfl

theorem wp_insertUserRoleHistory {userId : ℕ} {actorType : RoleActorType} {actorUserId : Option ℕ} {fromRole toRole : UserRole}
    {reason : String} {Q : AuthSupply → AuthMid → Prop}
    (h : ∀ x l', Later cfg l l' → (∀ db, (l'.pend db).access = (l.pend db).access) → Q x l') :
    (insertUserRoleHistory userId actorType actorUserId fromRole toRole reason).wp (authDiscipline cfg) Q l := by
  rw [insertUserRoleHistory, Txn.wp_writing]
  intro db hr x _
  exact h x _ ⟨hr, Set.subset_union_left⟩ fun _ => rfl

/-- A user that is held and was read. -/
theorem signing_held {user : User} (hinv : (authDiscipline cfg).Inv l.db) (hdoes : Does l id) (hu : user ∈ l.db.users)
    (hheld : .user user.id ∈ l.held) : Signing cfg l user id where
  inv := hinv
  does := hdoes
  held := hheld
  change _ hr := ⟨.refl hr.1.userIds, user, user_mem_of_rely hr hheld hu, rfl, rfl⟩

/-- A user that is held takes a new address. -/
theorem Signing.saveEmail {user : User} {email : String} (h : Signing cfg l user id) (hu : user ∈ l.db.users) (hl : Later cfg l l')
    (hpend : ∀ db, l'.pend db = { l.pend db with users := Table.update (l.pend db).users (·.id = user.id) fun u => { u with email := email } }) :
    Signing cfg l' user fun us => Table.update us (·.id = user.id) fun u => { u with email := email } where
  inv := hl.rely.1
  does db := by
    rw [hpend db]
    show (l.pend db).access.withUsers (Table.update (l.pend db).access.users _ _) = _
    rw [h.does db]
    rfl
  held := hl.held h.held
  change db hr := by
    have hmem := user_mem_of_rely hr (hl.held h.held) (hl.user_mem h.held hu)
    refine ⟨?_, _, Table.mem_update_of_pos hmem (decide_eq_true rfl), rfl, rfl⟩
    exact .update hr.1.userIds hmem (hl.held h.held) (fun _ => rfl) id id

/-- A new user. -/
theorem wp_insertUser {row : AuthSupply → User} {Q : User → AuthMid → Prop} (hdoes : Does l id) (hrow : ∀ x, (row x).id = x.id ∧ (row x).status = .active)
    (h : ∀ x l', Later cfg l l' → Signing cfg l' (row x) (fun us => us ++ [row x]) → Q (row x) l') :
    (insertUser cfg row).wp (authDiscipline cfg) Q l := by
  rw [insertUser, Txn.wp_bind, Txn.wp_writing]
  intro db hr x hok
  refine h x _ ⟨hr, Set.subset_union_left⟩ ⟨hr.1, fun db' => ?_, .inr ?_, fun db' hr' => ?_⟩
  · show (l.pend db').access.withUsers ((l.pend db').access.users ++ [row x]) = _
    rw [hdoes db']
    rfl
  · rw [(hrow x).1]
    exact List.mem_cons_self
  · rw [Bool.and_eq_true] at hok
    have hnew : ∀ u ∈ db'.users, u.id ≠ (row x).id := by
      intro u hu hid
      have hheld : AuthKey.user x.id ∈ l.held ∪ {y | y ∈ [AuthKey.user x.id, .userEmail (cfg.collate (row x).email)]} := .inr List.mem_cons_self
      have hu' := ((hr'.2 (.user x.id) hheld).row u (hid.trans (hrow x).1)).1 hu
      have hbelow := below_iff.1 hok.1 u (by
        rw [show (l.pend db).users = db.users from congrArg Access.users (hdoes db)]
        exact hu')
      have hrow := (hrow x).1
      omega
    refine ⟨.insert hr'.1.userIds hnew ?_ (hrow x).2, row x, List.mem_append_right _ List.mem_cons_self, rfl, rfl⟩
    rw [(hrow x).1]
    exact .inr List.mem_cons_self

/-- A session is read, and its id is held. -/
theorem wp_findSessionLocked {id : String} {Q : Option AuthSession → AuthMid → Prop}
    (hnone : ∀ db, (authDiscipline cfg).Rely l.held l.db db → (∀ s ∈ (l.pend db).sessions, s.id ≠ id) →
      Q none { l with db := db, held := l.held ∪ {.session id} })
    (hsome : ∀ db, (authDiscipline cfg).Rely l.held l.db db → ∀ s ∈ (l.pend db).sessions, s.id = id →
      Q (some s) { l with db := db, held := l.held ∪ {.session id} }) : (findSessionLocked id).wp (authDiscipline cfg) Q l := by
  rw [findSessionLocked, Txn.wp_locking]
  intro db hr
  have hheld : {k | k ∈ [AuthKey.session id]} = {AuthKey.session id} := by
    ext
    simp
  rw [hheld]
  cases hfind : (l.pend db).sessions.find? (·.id = id) with
  | none => exact hnone db hr fun s hs he => List.find?_eq_none.1 hfind s hs (decide_eq_true he)
  | some s => exact hsome db hr s (List.mem_of_find?_eq_some hfind) (of_decide_eq_true (List.find?_some hfind :))

theorem wp_saveRevoked {ids : List String} {Q : AuthSupply → AuthMid → Prop} (h : ∀ x l', Later cfg l l' → (∀ id ∈ ids, .session id ∈ l'.held) →
    (∀ db, (l'.pend db).access = (l.pend db).access.revoke ids x.now) → Q x l') : (saveRevoked ids).wp (authDiscipline cfg) Q l := by
  rw [saveRevoked, Txn.wp_writing]
  intro db hr x _
  exact h x _ ⟨hr, Set.subset_union_left⟩ (fun id hid => .inr (List.mem_map_of_mem hid)) fun _ => rfl

/-- A session that is held is revoked. -/
theorem wp_revokeHeld {i : AuthCall} {a : AuthAnswer} {s : AuthSession} (hdoes : Does l id) (hs : s ∈ l.db.sessions)
    (hheld : .session s.id ∈ l.held) (hrevoked : s.revokedAt = none) (hi : a.issued = [] ∧ i.accepted a = [])
    (hmarks : ∀ id ∈ i.marks a, id = s.id) (hrefreshes : ∀ token now result, i = .refresh (some token) now → a = .refreshed result →
      (∀ x, result ≠ .success x) ∧ parseRefreshToken (some token) = some s.id) :
    (saveRevoked [s.id]).wp (authDiscipline cfg) (fun _ => (authDiscipline cfg).Ensures (authEffect cfg i) a) l := by
  refine wp_saveRevoked fun x l' hlater _ hpend => ?_
  refine ensures_of_does (f := fun b => b.revoke [s.id] x.now) (fun db => ?_) fun db hr => ?_
  · rw [hpend db, hdoes db]
    rfl
  · have hmem := session_mem_of_rely (hlater.rely.trans hr hlater.held) hheld hs
    exact allowed_revoke hr.1 hmem hrevoked (hlater.held hheld) hi hmarks hrefreshes

end Statements

/-! ### Scans -/

/-- The program has only read and locked. -/
structure Scanning (cfg : AuthConfig) (l l' : AuthMid) : Prop extends Later cfg l l' where
  pend : l'.pend = l.pend

section Scans

variable {cfg : AuthConfig} {ρ κ : Type} {row : κ → AuthDb → Option ρ} {key : κ → AuthKey} {P : κ → Option ρ → AuthMid → Prop}
  {Q : List ρ → AuthMid → Prop} {l : AuthMid}

theorem Scanning.refl (hinv : (authDiscipline cfg).Inv l.db) : Scanning cfg l l := ⟨⟨.refl hinv, subset_rfl⟩, rfl⟩

theorem Scanning.trans {l' l'' : AuthMid} (h : Scanning cfg l l') (h' : Scanning cfg l' l'') : Scanning cfg l l'' :=
  ⟨h.toLater.trans h'.toLater, h'.pend.trans h.pend⟩

/-- What is so of a row when the scan comes to it, and stays so, is so of each at the end. -/
theorem wp_lockEach {ids : List κ} (hinv : (authDiscipline cfg).Inv l.db)
    (hvisit : ∀ id l', Scanning cfg l l' →
      P id (row id (l'.pend l'.db)) { l' with held := l'.held ∪ {k | k ∈ ((row id (l'.pend l'.db)).map fun _ => key id).toList} })
    (hstays : ∀ id o l' l'', Scanning cfg l l' → Scanning cfg l' l'' → P id o l' → P id o l'')
    (h : ∀ l' os, Scanning cfg l l' → List.Forall₂ (fun id o => P id o l') ids os → Q os.reduceOption l') :
    (lockEach row key ids).wp (authDiscipline cfg) Q l := by
  induction ids generalizing l Q with
  | nil => exact h l [] (.refl hinv) .nil
  | cons id ids ih =>
    rw [lockEach, Txn.wp_bind, Txn.wp_locking]
    intro db hr
    have hmoved : Scanning cfg l { l with db := db } := ⟨⟨hr, subset_rfl⟩, rfl⟩
    have hlocked : Scanning cfg l { l with db := db, held := l.held ∪ {k | k ∈ ((row id (l.pend db)).map fun _ => key id).toList} } :=
      ⟨⟨hr, Set.subset_union_left⟩, rfl⟩
    rw [Txn.wp_bind]
    refine ih hr.1 (fun id' l' hl' => hvisit id' l' (hlocked.trans hl'))
      (fun id' o l' l'' hl' => hstays id' o l' l'' (hlocked.trans hl')) fun l' os hl' hos => ?_
    have hfirst := hstays id _ _ l' hlocked hl' (hvisit id _ hmoved)
    have hall := h l' _ (hlocked.trans hl') (.cons hfirst hos)
    cases hrow : row id (l.pend db) with
    | none =>
      rw [hrow, List.reduceOption_cons_of_none] at hall
      exact hall
    | some r =>
      rw [hrow, List.reduceOption_cons_of_some] at hall
      exact hall

/-- A scan of the ids that were there at its start. -/
theorem wp_findManyLocked {table : AuthDb → List ρ} {rowId : ρ → κ} {order : ScanOrder κ}
    (hvisit : ∀ id l', Scanning cfg l l' →
      P id (row id (l'.pend l'.db)) { l' with held := l'.held ∪ {k | k ∈ ((row id (l'.pend l'.db)).map fun _ => key id).toList} })
    (hstays : ∀ id o l' l'', Scanning cfg l l' → Scanning cfg l' l'' → P id o l' → P id o l'')
    (h : ∀ db l' ids os, Scanning cfg l { l with db := db } → Scanning cfg { l with db := db } l' →
      ids.Perm ((table (l.pend db)).map rowId) → List.Forall₂ (fun id o => P id o l') ids os → Q os.reduceOption l') :
    (findManyLocked table rowId order row key).wp (authDiscipline cfg) Q l := by
  rw [findManyLocked, Txn.wp_bind, Txn.wp_locking]
  intro db hr
  have hheld : l.held ∪ {k | k ∈ ([] : List AuthKey)} = l.held := by
    ext
    simp
  rw [hheld]
  have hmoved : Scanning cfg l { l with db := db } := ⟨⟨hr, subset_rfl⟩, rfl⟩
  exact wp_lockEach hr.1 (fun id l' hl' => hvisit id l' (hmoved.trans hl')) (fun id o l' l'' hl' => hstays id o l' l'' (hmoved.trans hl'))
    fun l' os hl' hos => h db l' _ os hmoved hl' (order.perm _) hos

/-- The rows that were met, in the order of the ids. -/
theorem sublist_of_forall₂ {rowId : ρ → κ} {ids : List κ} {os : List (Option ρ)}
    (h : List.Forall₂ (fun id o => ∀ r, o = some r → rowId r = id) ids os) : (os.reduceOption.map rowId).Sublist ids := by
  induction h with
  | nil => exact List.Sublist.slnil
  | @cons id o ids os ho _ ih =>
    cases o with
    | none => exact ih.cons id
    | some r =>
      rw [List.reduceOption_cons_of_some, List.map_cons, ho r rfl]
      exact ih.cons_cons id

/-- An id the scan came to. -/
theorem exists_of_forall₂ {R : κ → Option ρ → Prop} {ids : List κ} {os : List (Option ρ)} (h : List.Forall₂ R ids os) :
    (∀ id ∈ ids, ∃ o ∈ os, R id o) ∧ ∀ o ∈ os, ∃ id ∈ ids, R id o := by
  induction h with
  | nil => exact ⟨fun _ h => (nomatch h), fun _ h => (nomatch h)⟩
  | cons ho _ ih =>
    constructor
    · intro id hid
      rcases List.mem_cons.1 hid with rfl | hid
      · exact ⟨_, List.mem_cons_self, ho⟩
      · obtain ⟨o, hmem, ho'⟩ := ih.1 id hid
        exact ⟨o, List.mem_cons_of_mem _ hmem, ho'⟩
    · intro o hmem
      rcases List.mem_cons.1 hmem with rfl | hmem
      · exact ⟨_, List.mem_cons_self, ho⟩
      · obtain ⟨id, hid, ho'⟩ := ih.2 o hmem
        exact ⟨id, List.mem_cons_of_mem _ hid, ho'⟩

end Scans

section Scans

variable {cfg : AuthConfig} {l : AuthMid}

/-- The administrators that were found are active, and are held. -/
theorem wp_lockActiveAdmins {order : ScanOrder ℕ} {Q : List User → AuthMid → Prop} (hdoes : Does l id)
    (h : ∀ l' admins, Scanning cfg l l' → (admins.map (·.id)).Nodup →
      (∀ u ∈ admins, UsersService.isActiveAdmin u = true ∧ u ∈ l'.db.users ∧ .user u.id ∈ l'.held) → Q admins l') :
    (UsersService.lockActiveAdmins order).wp (authDiscipline cfg) Q l := by
  have husers : ∀ l', Scanning cfg l l' → ∀ db, (l'.pend db).users = db.users := fun l' hl' db => by
    rw [hl'.pend]
    exact congrArg Access.users (hdoes db)
  apply wp_findManyLocked (P := fun id o l' => ∀ u, o = some u → u.id = id ∧ UsersService.isActiveAdmin u = true ∧ u ∈ l'.db.users ∧
    .user id ∈ l'.held)
  · intro id l' hl' u hu
    have hmem := List.mem_of_find?_eq_some hu
    have hrow := List.find?_some hu
    rw [husers l' hl'] at hmem
    rw [Bool.and_eq_true, decide_eq_true_eq] at hrow
    refine ⟨hrow.1, hrow.2, hmem, .inr ?_⟩
    show AuthKey.user id ∈ (Option.map _ _).toList
    rw [hu]
    exact List.mem_singleton_self _
  · intro id o l' l'' _ hl'' hP u hu
    obtain ⟨hid, hactive, hmem, hheld⟩ := hP u hu
    exact ⟨hid, hactive, hl''.user_mem (hid ▸ hheld) hmem, hl''.held hheld⟩
  · intro db l' ids os hdb hl' hperm hos
    refine h l' _ (hdb.trans hl') ?_ fun u hu => ?_
    · have hids : ids.Nodup := by
        rw [hperm.nodup_iff, husers _ hdb]
        exact hdb.rely.1.userIds
      exact (sublist_of_forall₂ (hos.imp fun id o hP u hu => (hP u hu).1)).nodup hids
    · obtain ⟨id, -, hP⟩ := (exists_of_forall₂ hos).2 _ (List.reduceOption_mem_iff.1 hu)
      obtain ⟨rfl, hactive, hmem, hheld⟩ := hP u rfl
      exact ⟨hactive, hmem, hheld⟩

/-- The sessions that were found are all the user has that are not revoked, and are held. -/
theorem wp_lockUnrevokedSessions {userId : ℕ} {order : ScanOrder String} {Q : List AuthSession → AuthMid → Prop}
    (hsessions : ∀ db, (l.pend db).sessions = db.sessions) (huser : .user userId ∈ l.held) (h : ∀ l' sessions, Scanning cfg l l' →
      (∀ s ∈ sessions, s.revokedAt = none ∧ s ∈ l'.db.sessions ∧ .session s.id ∈ l'.held) →
      (∀ s ∈ l'.db.sessions, s.userId = userId → s.revokedAt = none → s.id ∈ sessions.map (·.id)) → Q sessions l') :
    (UsersService.lockUnrevokedSessions userId order).wp (authDiscipline cfg) Q l := by
  have hpend : ∀ l', Scanning cfg l l' → ∀ db, (l'.pend db).sessions = db.sessions := fun l' hl' db => by
    rw [hl'.pend]
    exact hsessions db
  -- a session of the user that is not revoked was there before
  have hbefore : ∀ l' l'', Scanning cfg l l' → Scanning cfg l' l'' → KeepsUser userId l'.db.access l''.db.access :=
    fun l' l'' hl' hl'' => hl''.rely.2 (.user userId) (hl'.held huser)
  apply wp_findManyLocked (P := fun id o l' => match o with
    | some s => s.id = id ∧ s.revokedAt = none ∧ s ∈ l'.db.sessions ∧ .session id ∈ l'.held
    | none => ∀ s ∈ l'.db.sessions, s.id = id → s.userId = userId → s.revokedAt ≠ none)
  · intro id l' hl'
    cases hrow : (l'.pend l'.db).sessions.find? fun s => s.id = id && s.userId = userId && s.revokedAt.isNone with
    | none =>
      rw [hpend l' hl'] at hrow
      intro s hs hid hsu hrevoked
      have hno := List.find?_eq_none.1 hrow s hs
      simp [hid, hsu, hrevoked] at hno
    | some s =>
      have hmem := List.mem_of_find?_eq_some hrow
      have hs := List.find?_some hrow
      rw [hpend l' hl'] at hmem
      rw [Bool.and_eq_true, Bool.and_eq_true, decide_eq_true_eq, Option.isNone_iff_eq_none] at hs
      exact ⟨hs.1.1, hs.2, hmem, .inr (List.mem_singleton_self _)⟩
  · intro id o l' l'' hl' hl'' hP
    cases o with
    | none =>
      intro s hs hid hsu hrevoked
      obtain ⟨x, hx, hxid, hxu, hxr⟩ := (hbefore l' l'' hl' hl'').sessions s hs hsu hrevoked
      exact hP x hx (hxid.trans hid) hxu hxr
    | some s =>
      obtain ⟨hid, hrevoked, hmem, hheld⟩ := hP
      exact ⟨hid, hrevoked, session_mem_of_rely hl''.rely (hid ▸ hheld) hmem, hl''.held hheld⟩
  · intro db l' ids os hdb hl' hperm hos
    refine h l' _ (hdb.trans hl') (fun s hs => ?_) fun s hs hsu hrevoked => ?_
    · obtain ⟨id, -, hP⟩ := (exists_of_forall₂ hos).2 _ (List.reduceOption_mem_iff.1 hs)
      obtain ⟨rfl, hrevoked, hmem, hheld⟩ := hP
      exact ⟨hrevoked, hmem, hheld⟩
    · obtain ⟨x, hx, hxid, -⟩ := (hbefore _ l' hdb hl').sessions s hs hsu hrevoked
      have hid : s.id ∈ ids := by
        rw [hperm.mem_iff, hpend _ hdb]
        exact List.mem_map.2 ⟨x, hx, hxid⟩
      obtain ⟨o, ho, hP⟩ := (exists_of_forall₂ hos).1 s.id hid
      cases o with
      | none => exact absurd hrevoked (hP s hs rfl hsu)
      | some y => exact List.mem_map.2 ⟨y, List.reduceOption_mem_iff.2 ho, hP.1⟩

end Scans

end HotelBackend.Auth
