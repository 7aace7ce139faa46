import HotelBackend.Auth.Services

/-!
# Who may get in

What the login, session and user transactions are for, without their programs: the users,
their sessions, and the refresh tokens of each session (`Access`), the invariant they keep,
and the changes a transaction may make.

A session has one chain of tokens. The last one that was issued is the one whose hash the
row has; each token before it was accepted once, in the order of their issue, and nothing
else was, as far as hashes tell (`Tokens`). An inactive user has no session that is not revoked (`Inv.closed`):
a session is added under the lock of its user, and so is the user made inactive.
-/

namespace HotelBackend.Auth

open HotelBackend.Theory
open HotelBackend.Users

/-- The users, the sessions, and what became of the tokens. -/
structure Access where
  users : List User
  sessions : List AuthSession
  issued : List TokenUse
  accepted : List TokenUse

namespace Access

/-- The tokens of a session, in the order of their issue. -/
def issuedOf (a : Access) (sessionId : String) : List String := (a.issued.filter (·.sessionId = sessionId)).map (·.token)

/-- Those that were accepted, in the order in which they were. -/
def acceptedOf (a : Access) (sessionId : String) : List String := (a.accepted.filter (·.sessionId = sessionId)).map (·.token)

theorem mem_issuedOf {a : Access} {id token : String} : token ∈ a.issuedOf id ↔ ⟨id, token⟩ ∈ a.issued := by
  simp only [issuedOf, List.mem_map, List.mem_filter, decide_eq_true_eq]
  constructor
  · rintro ⟨t, ⟨ht, rfl⟩, rfl⟩
    exact ht
  · exact fun ht => ⟨_, ⟨ht, rfl⟩, rfl⟩

def HasActiveAdmin (a : Access) : Prop := ∃ u ∈ a.users, UsersService.isActiveAdmin u = true

/-- The tokens of a session are one chain. -/
structure Tokens (hash : String → String) (a : Access) : Prop where
  known : ∀ t ∈ a.issued, ∃ s ∈ a.sessions, s.id = t.sessionId
  /-- A session has the hash of its last token. -/
  current : ∀ s ∈ a.sessions, ∃ token, (a.issuedOf s.id).getLast? = some token ∧ s.refreshTokenHash = hash token
  /-- All but the last token were accepted. -/
  chain : ∀ id, (a.acceptedOf id).map hash = (a.issuedOf id).dropLast.map hash
  fresh : ∀ id, (a.issuedOf id).Nodup
  named : ∀ t ∈ a.accepted, parseRefreshToken (some t.token) = some t.sessionId

structure Inv (hash : String → String) (a : Access) : Prop where
  userIds : (a.users.map (·.id)).Nodup
  sessionIds : Table.UniqueBy (·.id) a.sessions
  owners : ∀ s ∈ a.sessions, ∃ u ∈ a.users, u.id = s.userId
  /-- An inactive user has no session that is not revoked. -/
  closed : ∀ u ∈ a.users, u.status = .inactive → ∀ s ∈ a.sessions, s.userId = u.id → s.revokedAt.isSome = true
  tokens : a.Tokens hash

theorem Inv.user_unique {hash : String → String} {a : Access} (h : a.Inv hash) : Table.UniqueBy (·.id) a.users := .of_nodup h.userIds

/-! ### What the locks keep -/

/-- The user's row is as it was, and a session of the user that is not revoked was there before. -/
structure KeepsUser (id : ℕ) (a b : Access) : Prop where
  row : ∀ u : User, u.id = id → (u ∈ b.users ↔ u ∈ a.users)
  sessions : ∀ s ∈ b.sessions, s.userId = id → s.revokedAt = none →
    ∃ s' ∈ a.sessions, s'.id = s.id ∧ s'.userId = id ∧ s'.revokedAt = none

/-- The session's row and its tokens are as they were. -/
structure KeepsSession (id : String) (a b : Access) : Prop where
  row : ∀ s : AuthSession, s.id = id → (s ∈ b.sessions ↔ s ∈ a.sessions)
  issued : b.issuedOf id = a.issuedOf id
  accepted : b.acceptedOf id = a.acceptedOf id

/-- What every commit keeps: a session stays, as it is if it is revoked, and the last administrator stays. -/
structure Step (a b : Access) : Prop where
  sessions : ∀ s ∈ a.sessions, ∃ s' ∈ b.sessions, s'.id = s.id ∧ s'.userId = s.userId ∧ (s.revokedAt.isSome = true → s' = s)
  admins : a.HasActiveAdmin → b.HasActiveAdmin

section Keeps

variable {a b c : Access}

theorem KeepsUser.refl (id : ℕ) (a : Access) : KeepsUser id a a := ⟨fun _ _ => Iff.rfl, fun s hs hu hr => ⟨s, hs, rfl, hu, hr⟩⟩

theorem KeepsUser.trans {id : ℕ} (h : KeepsUser id a b) (h' : KeepsUser id b c) : KeepsUser id a c where
  row u hu := (h'.row u hu).trans (h.row u hu)
  sessions s hs hu hr := by
    obtain ⟨s', hs', hid', hu', hr'⟩ := h'.sessions s hs hu hr
    obtain ⟨s'', hs'', hid'', hu'', hr''⟩ := h.sessions s' hs' hu' hr'
    exact ⟨s'', hs'', hid''.trans hid', hu'', hr''⟩

theorem KeepsSession.refl (id : String) (a : Access) : KeepsSession id a a := ⟨fun _ _ => Iff.rfl, rfl, rfl⟩

theorem KeepsSession.trans {id : String} (h : KeepsSession id a b) (h' : KeepsSession id b c) : KeepsSession id a c where
  row s hs := (h'.row s hs).trans (h.row s hs)
  issued := h'.issued.trans h.issued
  accepted := h'.accepted.trans h.accepted

theorem Step.refl (a : Access) : Step a a := ⟨fun s hs => ⟨s, hs, rfl, rfl, fun _ => rfl⟩, id⟩

theorem Step.trans (h : Step a b) (h' : Step b c) : Step a c where
  sessions s hs := by
    obtain ⟨s', hs', hid', hu', hr'⟩ := h.sessions s hs
    obtain ⟨s'', hs'', hid'', hu'', hr''⟩ := h'.sessions s' hs'
    refine ⟨s'', hs'', hid''.trans hid', hu''.trans hu', fun hrevoked => ?_⟩
    obtain rfl := hr' hrevoked
    exact hr'' hrevoked
  admins hadmin := h'.admins (h.admins hadmin)

end Keeps

/-! ### Changes of the users -/

/-- A change of the users that closes nobody out: under the locks `held`, nobody becomes inactive and no
administrator is lost. -/
structure UserChange (held : ℕ → Prop) (us us' : List User) : Prop where
  ids : (us'.map (·.id)).Nodup
  stay : ∀ u ∈ us, ∃ u' ∈ us', u'.id = u.id
  inactive : ∀ u' ∈ us', u'.status = .inactive → ∃ u ∈ us, u.id = u'.id ∧ u.status = .inactive
  keeps : ∀ u : User, ¬ held u.id → (u ∈ us' ↔ u ∈ us)
  admins : (∃ u ∈ us, UsersService.isActiveAdmin u = true) → ∃ u ∈ us', UsersService.isActiveAdmin u = true

section UserChange

variable {held : ℕ → Prop} {us us' : List User} {x : User} {f : User → User}

theorem UserChange.refl (hids : (us.map (·.id)).Nodup) : UserChange held us us :=
  ⟨hids, fun u hu => ⟨u, hu, rfl⟩, fun u hu hin => ⟨u, hu, rfl, hin⟩, fun _ _ => Iff.rfl, id⟩

/-- A row changes under its lock. -/
theorem mem_update_of_ne (hid : ∀ u : User, (f u).id = u.id) {u : User} (hne : u.id ≠ x.id) :
    u ∈ Table.update us (·.id = x.id) f ↔ u ∈ us := by
  rw [Table.mem_update]
  constructor
  · rintro ⟨y, hy, ⟨hyx, rfl⟩ | ⟨-, rfl⟩⟩
    · exact absurd ((hid y).trans (of_decide_eq_true hyx)) hne
    · exact hy
  · exact fun hu => ⟨u, hu, .inr ⟨decide_eq_false hne, rfl⟩⟩

theorem exists_update {p : User → Bool} (hid : ∀ u : User, (f u).id = u.id) : ∀ u ∈ us, ∃ u' ∈ Table.update us p f, u'.id = u.id := by
  intro u hu
  cases hp : p u with
  | true => exact ⟨f u, Table.mem_update_of_pos hu hp, hid u⟩
  | false => exact ⟨u, Table.mem_update_of_neg hu hp, rfl⟩

theorem UserChange.mono {held' : ℕ → Prop} (h : UserChange held us us') (hheld : ∀ id, held id → held' id) : UserChange held' us us' :=
  ⟨h.ids, h.stay, h.inactive, fun u hu => h.keeps u fun hid => hu (hheld _ hid), h.admins⟩

theorem nodup_update {p : User → Bool} (hids : (us.map (·.id)).Nodup) (hid : ∀ u : User, (f u).id = u.id) :
    ((Table.update us p f).map (·.id)).Nodup := by
  rw [Table.map_update fun u _ _ => hid u]
  exact hids

theorem UserChange.update (hids : (us.map (·.id)).Nodup) (hx : x ∈ us) (hheld : held x.id) (hid : ∀ u : User, (f u).id = u.id)
    (hinactive : (f x).status = .inactive → x.status = .inactive)
    (hadmin : UsersService.isActiveAdmin x = true → UsersService.isActiveAdmin (f x) = true) :
    UserChange held us (Table.update us (·.id = x.id) f) where
  ids := nodup_update hids hid
  stay := exists_update hid
  inactive u' hu' hin := by
    obtain ⟨u, hu, ⟨hux, rfl⟩ | ⟨-, rfl⟩⟩ := Table.mem_update.1 hu'
    · obtain rfl := Table.UniqueBy.of_nodup hids u hu x hx (of_decide_eq_true hux)
      exact ⟨u, hu, (hid u).symm, hinactive hin⟩
    · exact ⟨u, hu, rfl, hin⟩
  keeps u hu := mem_update_of_ne hid fun hux => hu (hux ▸ hheld)
  admins := by
    rintro ⟨u, hu, hadm⟩
    by_cases hux : u.id = x.id
    · obtain rfl := Table.UniqueBy.of_nodup hids u hu x hx hux
      exact ⟨f u, Table.mem_update_of_pos hu (decide_eq_true rfl), hadmin hadm⟩
    · exact ⟨u, (mem_update_of_ne hid hux).2 hu, hadm⟩

/-- A new active user. -/
theorem UserChange.insert (hids : (us.map (·.id)).Nodup) (hnew : ∀ u ∈ us, u.id ≠ x.id) (hheld : held x.id) (hactive : x.status = .active) :
    UserChange held us (us ++ [x]) where
  ids := by
    rw [List.map_append]
    exact hids.append (List.nodup_singleton x.id) fun id hid hx => by
      obtain ⟨u, hu, rfl⟩ := List.mem_map.1 hid
      exact hnew u hu (List.mem_singleton.1 hx)
  stay u hu := ⟨u, List.mem_append_left _ hu, rfl⟩
  inactive u' hu' hin := by
    rcases List.mem_append.1 hu' with hu | hu
    · exact ⟨u', hu, rfl, hin⟩
    · obtain rfl := List.mem_singleton.1 hu
      rw [hactive] at hin
      cases hin
  keeps u hu := by
    rw [List.mem_append, List.mem_singleton]
    exact ⟨fun h => h.resolve_right fun hux => hu (hux ▸ hheld), .inl⟩
  admins := by
    rintro ⟨u, hu, hadm⟩
    exact ⟨u, List.mem_append_left _ hu, hadm⟩

end UserChange

/-! ### The changes -/

def withUsers (a : Access) (users : List User) : Access := { a with users := users }

/-- A session with its first token. -/
def addSession (a : Access) (s : AuthSession) (token : String) : Access :=
  { a with sessions := a.sessions ++ [s], issued := a.issued ++ [⟨s.id, token⟩] }

/-- A session takes the token for the one presented. -/
def rotate (hash : String → String) (a : Access) (id token presented : String) : Access :=
  { a with
    sessions := Table.update a.sessions (·.id = id) fun s => { s with refreshTokenHash := hash token }
    issued := a.issued ++ [⟨id, token⟩]
    accepted := a.accepted ++ [⟨id, presented⟩] }

def revoke (a : Access) (ids : List String) (now : ℕ) : Access :=
  { a with sessions := Table.update a.sessions (·.id ∈ ids) fun s => { s with revokedAt := some now } }

section Changes

variable {hash : String → String} {a : Access} {held : ℕ → Prop} {us : List User} {s : AuthSession} {token presented : String}
  {ids : List String} {now : ℕ}

theorem tokens_withUsers (h : a.Tokens hash) : (a.withUsers us).Tokens hash := ⟨h.known, h.current, h.chain, h.fresh, h.named⟩

theorem Inv.withUsers (h : a.Inv hash) (hu : UserChange held a.users us) : (a.withUsers us).Inv hash where
  userIds := hu.ids
  sessionIds := h.sessionIds
  owners s hs := by
    obtain ⟨u, hmem, hid⟩ := h.owners s hs
    obtain ⟨u', hmem', hid'⟩ := hu.stay u hmem
    exact ⟨u', hmem', hid'.trans hid⟩
  closed u' hu' hin s hs hsu := by
    obtain ⟨u, hmem, hid, hin'⟩ := hu.inactive u' hu' hin
    exact h.closed u hmem hin' s hs (hsu.trans hid.symm)
  tokens := tokens_withUsers h.tokens

theorem keepsUser_withUsers (hu : UserChange held a.users us) {id : ℕ} (hid : ¬ held id) : KeepsUser id a (a.withUsers us) where
  row u hux := hu.keeps u (hux ▸ hid)
  sessions s hs hsu hr := ⟨s, hs, rfl, hsu, hr⟩

theorem keepsSession_withUsers (id : String) : KeepsSession id a (a.withUsers us) := ⟨fun _ _ => Iff.rfl, rfl, rfl⟩

theorem step_withUsers (hu : UserChange held a.users us) : Step a (a.withUsers us) :=
  ⟨fun s hs => ⟨s, hs, rfl, rfl, fun _ => rfl⟩, hu.admins⟩

/-- The tokens of a session, one more. -/
theorem issuedOf_append {t : TokenUse} (issued : List TokenUse) (id : String) :
    ((issued ++ [t]).filter (·.sessionId = id)).map (·.token) =
      (issued.filter (·.sessionId = id)).map (·.token) ++ if t.sessionId = id then [t.token] else [] := by
  by_cases ht : t.sessionId = id
  · simp [ht]
  · simp [ht]

/-- A session that is not there has no tokens. -/
theorem Tokens.issuedOf_eq_nil (h : a.Tokens hash) {id : String} (hnone : ∀ s ∈ a.sessions, s.id ≠ id) : a.issuedOf id = [] := by
  rw [issuedOf, List.map_eq_nil_iff, List.filter_eq_nil_iff]
  intro t ht htid
  obtain ⟨s, hs, hst⟩ := h.known t ht
  exact hnone s hs (hst.trans (of_decide_eq_true htid))

theorem Tokens.addSession (h : a.Tokens hash) (hnew : ∀ x ∈ a.sessions, x.id ≠ s.id) (hhash : s.refreshTokenHash = hash token) :
    (a.addSession s token).Tokens hash := by
  have hold : ∀ id, id ≠ s.id → (a.addSession s token).issuedOf id = a.issuedOf id := fun id hid =>
    (issuedOf_append a.issued id).trans (by rw [if_neg hid.symm, List.append_nil]; rfl)
  have hone : (a.addSession s token).issuedOf s.id = [token] :=
    (issuedOf_append a.issued s.id).trans (by rw [if_pos rfl, ← issuedOf, h.issuedOf_eq_nil hnew]; rfl)
  refine ⟨fun t ht => ?_, fun x hx => ?_, fun id => ?_, fun id => ?_, h.named⟩
  · rcases List.mem_append.1 ht with ht | ht
    · obtain ⟨x, hx, hxt⟩ := h.known t ht
      exact ⟨x, List.mem_append_left _ hx, hxt⟩
    · obtain rfl := List.mem_singleton.1 ht
      exact ⟨s, List.mem_append_right _ List.mem_cons_self, rfl⟩
  · rcases List.mem_append.1 hx with hx | hx
    · rw [hold x.id (hnew x hx)]
      exact h.current x hx
    · obtain rfl := List.mem_singleton.1 hx
      exact ⟨token, by rw [hone]; rfl, hhash⟩
  · by_cases hid : id = s.id
    · subst hid
      rw [hone]
      exact (h.chain s.id).trans (by rw [h.issuedOf_eq_nil hnew]; rfl)
    · rw [hold id hid]
      exact h.chain id
  · by_cases hid : id = s.id
    · subst hid
      rw [hone]
      exact List.nodup_singleton token
    · rw [hold id hid]
      exact h.fresh id

theorem Inv.addSession (h : a.Inv hash) (hnew : ∀ x ∈ a.sessions, x.id ≠ s.id) (hhash : s.refreshTokenHash = hash token)
    {u : User} (hu : u ∈ a.users) (howner : u.id = s.userId) (hactive : u.status = .active) : (a.addSession s token).Inv hash where
  userIds := h.userIds
  sessionIds := h.sessionIds.insert hnew
  owners x hx := by
    rcases List.mem_append.1 hx with hx | hx
    · exact h.owners x hx
    · obtain rfl := List.mem_singleton.1 hx
      exact ⟨u, hu, howner⟩
  closed y hy hin x hx hxy := by
    rcases List.mem_append.1 hx with hx | hx
    · exact h.closed y hy hin x hx hxy
    · obtain rfl := List.mem_singleton.1 hx
      rw [h.user_unique y hy u hu (hxy.symm.trans howner.symm), hactive] at hin
      cases hin
  tokens := h.tokens.addSession hnew hhash

theorem keepsUser_addSession {id : ℕ} (hid : s.userId ≠ id) : KeepsUser id a (a.addSession s token) where
  row _ _ := Iff.rfl
  sessions x hx hxu hr := by
    rcases List.mem_append.1 hx with hx | hx
    · exact ⟨x, hx, rfl, hxu, hr⟩
    · obtain rfl := List.mem_singleton.1 hx
      exact absurd hxu hid

theorem keepsSession_addSession {id : String} (hid : s.id ≠ id) : KeepsSession id a (a.addSession s token) where
  row x hx := by
    show x ∈ a.sessions ++ [s] ↔ x ∈ a.sessions
    rw [List.mem_append, List.mem_singleton]
    exact ⟨fun h => h.resolve_right fun hxs => hid (hxs ▸ hx), .inl⟩
  issued := (issuedOf_append a.issued id).trans (by rw [if_neg hid, List.append_nil]; rfl)
  accepted := rfl

theorem step_addSession : Step a (a.addSession s token) :=
  ⟨fun x hx => ⟨x, List.mem_append_left _ hx, rfl, rfl, fun _ => rfl⟩, id⟩

/-- The session takes a fresh token for its last one. -/
theorem Tokens.rotate {x : AuthSession} (h : a.Tokens hash) (hx : x ∈ a.sessions)
    (hpresented : hash presented = x.refreshTokenHash) (hfresh : token ∉ a.issuedOf x.id)
    (hnamed : parseRefreshToken (some presented) = some x.id) : (a.rotate hash x.id token presented).Tokens hash := by
  have hissued : ∀ id, (a.rotate hash x.id token presented).issuedOf id = a.issuedOf id ++ if x.id = id then [token] else [] :=
    fun id => issuedOf_append a.issued id
  have haccepted : ∀ id, (a.rotate hash x.id token presented).acceptedOf id = a.acceptedOf id ++ if x.id = id then [presented] else [] :=
    fun id => issuedOf_append a.accepted id
  refine ⟨fun t ht => ?_, fun s hs => ?_, fun id => ?_, fun id => ?_, fun t ht => ?_⟩
  · have hid : ∃ s ∈ a.sessions, s.id = t.sessionId := by
      rcases List.mem_append.1 ht with ht | ht
      · exact h.known t ht
      · obtain rfl := List.mem_singleton.1 ht
        exact ⟨x, hx, rfl⟩
    obtain ⟨s, hs, hst⟩ := hid
    by_cases hsx : s.id = x.id
    · exact ⟨_, Table.mem_update_of_pos hs (decide_eq_true hsx), hst⟩
    · exact ⟨s, Table.mem_update_of_neg hs (decide_eq_false hsx), hst⟩
  · obtain ⟨y, hy, ⟨hyx, rfl⟩ | ⟨hyx, rfl⟩⟩ := Table.mem_update.1 hs
    · refine ⟨token, ?_, rfl⟩
      rw [hissued, if_pos (of_decide_eq_true hyx).symm, List.getLast?_append]
      rfl
    · rw [hissued, if_neg fun hxy => of_decide_eq_false hyx hxy.symm, List.append_nil]
      exact h.current y hy
  · rw [hissued, haccepted]
    by_cases hid : x.id = id
    · subst hid
      -- all that was issued is what was accepted, and the token presented
      obtain ⟨last, hlast, hhash⟩ := h.current x hx
      rw [if_pos rfl, if_pos rfl, List.dropLast_concat, List.map_append, h.chain, List.map_singleton, hpresented, hhash, ← List.map_singleton,
        ← List.map_append, List.dropLast_append_getLast? last hlast]
    · rw [if_neg hid, if_neg hid, List.append_nil, List.append_nil]
      exact h.chain id
  · rw [hissued]
    by_cases hid : x.id = id
    · subst hid
      rw [if_pos rfl]
      exact (h.fresh x.id).append (List.nodup_singleton token) fun y hy hyt => hfresh (List.mem_singleton.1 hyt ▸ hy)
    · rw [if_neg hid, List.append_nil]
      exact h.fresh id
  · rcases List.mem_append.1 ht with ht | ht
    · exact h.named t ht
    · obtain rfl := List.mem_singleton.1 ht
      exact hnamed

theorem Inv.rotate {x : AuthSession} (h : a.Inv hash) (hx : x ∈ a.sessions) (hpresented : hash presented = x.refreshTokenHash)
    (hfresh : token ∉ a.issuedOf x.id) (hnamed : parseRefreshToken (some presented) = some x.id) :
    (a.rotate hash x.id token presented).Inv hash where
  userIds := h.userIds
  sessionIds := h.sessionIds.update fun _ => rfl
  owners s hs := by
    obtain ⟨y, hy, ⟨-, rfl⟩ | ⟨-, rfl⟩⟩ := Table.mem_update.1 hs
    · exact h.owners y hy
    · exact h.owners y hy
  closed u hu hin s hs hsu := by
    obtain ⟨y, hy, ⟨-, rfl⟩ | ⟨-, rfl⟩⟩ := Table.mem_update.1 hs
    · exact h.closed u hu hin y hy hsu
    · exact h.closed u hu hin y hy hsu
  tokens := h.tokens.rotate hx hpresented hfresh hnamed

theorem keepsUser_rotate {id : ℕ} {sessionId : String} : KeepsUser id a (a.rotate hash sessionId token presented) where
  row _ _ := Iff.rfl
  sessions s hs hsu hr := by
    obtain ⟨y, hy, ⟨-, rfl⟩ | ⟨-, rfl⟩⟩ := Table.mem_update.1 hs
    · exact ⟨y, hy, rfl, hsu, hr⟩
    · exact ⟨y, hy, rfl, hsu, hr⟩

/-- The rows of other sessions. -/
theorem mem_sessions_update {p : AuthSession → Bool} {f : AuthSession → AuthSession} (hf : ∀ s, (f s).id = s.id) {x : AuthSession}
    (hp : ∀ s : AuthSession, s.id = x.id → ¬ p s = true) : x ∈ Table.update a.sessions p f ↔ x ∈ a.sessions := by
  rw [Table.mem_update]
  constructor
  · rintro ⟨s, hs, ⟨hps, rfl⟩ | ⟨-, rfl⟩⟩
    · exact absurd hps (hp s (hf s).symm)
    · exact hs
  · exact fun hx => ⟨x, hx, .inr ⟨Bool.eq_false_iff.2 (hp x rfl), rfl⟩⟩

theorem keepsSession_rotate {id sessionId : String} (hid : sessionId ≠ id) :
    KeepsSession id a (a.rotate hash sessionId token presented) where
  row s hs := by
    apply mem_sessions_update
    · exact fun _ => rfl
    · intro y hy hyid
      exact hid (by rw [← of_decide_eq_true hyid, hy, hs])
  issued := (issuedOf_append a.issued id).trans (by rw [if_neg hid, List.append_nil]; rfl)
  accepted := (issuedOf_append a.accepted id).trans (by rw [if_neg hid, List.append_nil]; rfl)

theorem step_rotate {x : AuthSession} (hids : Table.UniqueBy (·.id) a.sessions) (hx : x ∈ a.sessions) (hrevoked : x.revokedAt = none) :
    Step a (a.rotate hash x.id token presented) where
  sessions s hs := by
    by_cases hsx : s.id = x.id
    · obtain rfl := hids s hs x hx hsx
      refine ⟨_, Table.mem_update_of_pos hs (decide_eq_true rfl), rfl, rfl, fun h => ?_⟩
      rw [hrevoked] at h
      cases h
    · exact ⟨s, Table.mem_update_of_neg hs (decide_eq_false hsx), rfl, rfl, fun _ => rfl⟩
  admins := id

theorem tokens_revoke (h : a.Tokens hash) : (a.revoke ids now).Tokens hash where
  known t ht := by
    obtain ⟨s, hs, hst⟩ := h.known t ht
    by_cases hp : s.id ∈ ids
    · exact ⟨_, Table.mem_update_of_pos hs (decide_eq_true hp), hst⟩
    · exact ⟨s, Table.mem_update_of_neg hs (decide_eq_false hp), hst⟩
  current s hs := by
    obtain ⟨y, hy, ⟨-, rfl⟩ | ⟨-, rfl⟩⟩ := Table.mem_update.1 hs
    · exact h.current y hy
    · exact h.current y hy
  chain := h.chain
  fresh := h.fresh
  named := h.named

/-- No session is revoked. -/
theorem revoke_nil : a.revoke [] now = a := by
  have hsame : (Table.update a.sessions (·.id ∈ ([] : List String)) fun s => { s with revokedAt := some now }) = a.sessions :=
    Table.update_eq_self (by simp)
  rw [revoke, hsame]

/-- A session that is in the change is revoked, and every other is as it was. -/
theorem revoked_of_mem_revoke {x : AuthSession} (hx : x ∈ (a.revoke ids now).sessions) :
    x.revokedAt.isSome = true ∨ x ∈ a.sessions ∧ x.id ∉ ids := by
  obtain ⟨s, hs, ⟨-, rfl⟩ | ⟨hp, rfl⟩⟩ := Table.mem_update.1 hx
  · exact .inl rfl
  · exact .inr ⟨hs, of_decide_eq_false hp⟩

/-- The users may change with it: one who becomes inactive has no other session that is not revoked. -/
theorem Inv.revoke (h : a.Inv hash) (hids : (us.map (·.id)).Nodup) (hstay : ∀ u ∈ a.users, ∃ u' ∈ us, u'.id = u.id)
    (hclosed : ∀ u' ∈ us, u'.status = .inactive → (∃ u ∈ a.users, u.id = u'.id ∧ u.status = .inactive) ∨
      ∀ s ∈ a.sessions, s.userId = u'.id → s.revokedAt = none → s.id ∈ ids) :
    ((a.withUsers us).revoke ids now).Inv hash where
  userIds := hids
  sessionIds := h.sessionIds.update fun _ => rfl
  owners s hs := by
    have howner : ∃ u ∈ a.users, u.id = s.userId := by
      obtain ⟨y, hy, ⟨-, rfl⟩ | ⟨-, rfl⟩⟩ := Table.mem_update.1 hs
      · exact h.owners y hy
      · exact h.owners y hy
    obtain ⟨u, hu, hid⟩ := howner
    obtain ⟨u', hu', hid'⟩ := hstay u hu
    exact ⟨u', hu', hid'.trans hid⟩
  closed u' hu' hin x hx hxu := by
    rcases revoked_of_mem_revoke hx with hrevoked | ⟨hmem, hnot⟩
    · exact hrevoked
    · rcases hclosed u' hu' hin with ⟨u, hu, hid, hin'⟩ | hall
      · exact h.closed u hu hin' x hmem (hxu.trans hid.symm)
      · cases hr : x.revokedAt with
        | some _ => rfl
        | none => exact absurd (hall x hmem hxu hr) hnot
  tokens := tokens_revoke (tokens_withUsers h.tokens)

theorem keepsUser_revoke {id : ℕ} : KeepsUser id a (a.revoke ids now) where
  row _ _ := Iff.rfl
  sessions s hs hsu hr := by
    obtain ⟨y, hy, ⟨-, rfl⟩ | ⟨-, rfl⟩⟩ := Table.mem_update.1 hs
    · cases hr
    · exact ⟨y, hy, rfl, hsu, hr⟩

theorem keepsSession_revoke {id : String} (hid : id ∉ ids) : KeepsSession id a (a.revoke ids now) where
  row s hs := by
    apply mem_sessions_update
    · exact fun _ => rfl
    · intro y hy hmem
      rw [hy, hs] at hmem
      exact hid (of_decide_eq_true hmem)
  issued := rfl
  accepted := rfl

theorem step_revoke (hopen : ∀ s ∈ a.sessions, s.id ∈ ids → s.revokedAt = none) : Step a (a.revoke ids now) where
  sessions s hs := by
    by_cases hp : s.id ∈ ids
    · refine ⟨_, Table.mem_update_of_pos hs (decide_eq_true hp), rfl, rfl, fun h => ?_⟩
      rw [hopen s hs hp] at h
      cases h
    · exact ⟨s, Table.mem_update_of_neg hs (decide_eq_false hp), rfl, rfl, fun _ => rfl⟩
  admins := id

end Changes

end Access

end HotelBackend.Auth
