import HotelBackend.Auth.Directory
import HotelBackend.Auth.Rotation
import HotelBackend.Common.JsonStringify

/-!
# Google logins

`beginGoogleLogin`, `completeGoogleLogin` and the OAuth transactions in Redis, beside the database. A
callback takes the transaction of its state out of Redis, exchanges its code, and then tries its
database transaction up to three times: one that is rolled back for a duplicate key or a deadlock is
tried again. Redis executes a command at once or not at all, and the reply may be lost; a transaction
runs out by itself. What Google answers is whatever it answers.

`googleLogins_stable` says that a subject has one user for good, that a login gets a session of that
user, and that a state is taken once.
-/

namespace HotelBackend.Auth

open HotelBackend.Common
open HotelBackend.Theory
open HotelBackend.Theory.Transactions
open HotelBackend.Users
open HotelBackend.Notifications (fits field)
open Access

/-! ### The requests -/

inductive GoogleLoginError where
  | rateLimited
  | oauthTransactionInvalid
  | googleAuthenticationFailed
  | googleAuthenticationUnavailable
  | call (e : AuthError)
  deriving DecidableEq, Repr

structure GoogleLoginConfig where
  auth : AuthConfig
  redisKeyPrefix : String
  /-- `@MaxLength`, of class-validator. -/
  maxLength : String → ℕ → Bool

/-- What the query parser has made of the parameters; `none` is `undefined`. -/
structure GoogleCallbackQueryDto where
  state : Option Json
  code : Option Json
  error : Option Json

structure OAuthTransaction where
  nonce : String
  codeVerifier : String
  deriving DecidableEq, Repr

/-- What is drawn for a login. -/
structure GoogleAuthorizationRequest where
  state : String
  transaction : OAuthTransaction

structure GoogleCodeExchange where
  code : String
  codeVerifier : String
  expectedNonce : String

/-- What the rate limiter answers. -/
inductive RateLimitAnswer where
  | allowed
  | refused
  | unreachable

def assertRateLimit : RateLimitAnswer → Except GoogleLoginError Unit
  | .allowed => .ok ()
  | .refused => .error .rateLimited
  | .unreachable => .error (.call .authorizationUnavailable)

/-- `/^[A-Za-z0-9_-]{43}$/`, of a string. -/
def validatedQueryState (query : GoogleCallbackQueryDto) : Except GoogleLoginError String :=
  match query.state with
  | some (.str state) => if fits (List.replicate 43 isBase64Url) state.toList then .ok state else .error .oauthTransactionInvalid
  | _ => .error .oauthTransactionInvalid

def validatedAuthorizationCode (cfg : GoogleLoginConfig) (query : GoogleCallbackQueryDto) : Except GoogleLoginError String :=
  match query.error, query.code with
  | none, some (.str code) => if cfg.maxLength code 2048 && jsTrim code ≠ "" then .ok code else .error .googleAuthenticationFailed
  | _, _ => .error .googleAuthenticationFailed

/-- What a callback checks before it asks Redis: the state it takes. -/
def callbackState (limit : RateLimitAnswer) (query : GoogleCallbackQueryDto) (cookieState : Option String) : Except GoogleLoginError String := do
  assertRateLimit limit
  let queryState ← validatedQueryState query
  Result.require (cookieState = some queryState) .oauthTransactionInvalid
  return queryState

/-! ### Redis -/

def oauthKey (cfg : GoogleLoginConfig) (state : String) : String := s!"{cfg.redisKeyPrefix}:oauth:{cfg.auth.sha256 state}"

/-- The text `storeOAuthTransaction` writes. -/
def OAuthTransaction.text (transaction : OAuthTransaction) : String :=
  stringify (.obj [("nonce", .str transaction.nonce), ("codeVerifier", .str transaction.codeVerifier)])

/-- What `consumeOAuthTransaction` makes of the text it has got. -/
def readOAuthTransaction (value : Option String) : Except GoogleLoginError (Option OAuthTransaction) :=
  match value with
  | none | some "" => .ok none
  | some text =>
    match parseJson text with
    | none => .ok none
    -- a property of `null`: a `TypeError`
    | some .null => .error (.call .authorizationUnavailable)
    | some (.obj fields) =>
      match field fields "nonce", field fields "codeVerifier" with
      | some (.str nonce), some (.str codeVerifier) => .ok (some ⟨nonce, codeVerifier⟩)
      | _, _ => .ok none
    | some _ => .ok none

/-- What is stored is what is read. -/
theorem readOAuthTransaction_text (transaction : OAuthTransaction) :
    readOAuthTransaction (some transaction.text) = .ok (some transaction) := by
  have hplain : Json.Plain (.obj [("nonce", .str transaction.nonce), ("codeVerifier", .str transaction.codeVerifier)]) := by
    refine .obj (by simp) ?_
    rintro f hf
    simp only [List.mem_cons, List.not_mem_nil, or_false] at hf
    rcases hf with rfl | rfl
    · exact .str _
    · exact .str _
  have hparse := parseJson_stringify hplain
  have hne : transaction.text ≠ "" := by
    intro he
    rw [OAuthTransaction.text] at he
    rw [he] at hparse
    cases hparse
  rw [← OAuthTransaction.text] at hparse
  unfold readOAuthTransaction
  split
  · next he => exact absurd he (Option.some_ne_none _)
  · next he => exact absurd (Option.some.inj he) hne
  · next text _ he =>
    obtain rfl := Option.some.inj he
    simp [hparse, field]

/-- How a command ends. -/
inductive RedisOutcome where
  | answered
  /-- Executed, and reported as failed. -/
  | lostReply
  | failed
  deriving DecidableEq

/-! ### The system -/

/-- How far a login start has come. -/
inductive BeginPhase where
  | redirecting (state : String)
  /-- There is no URL: the transaction is taken back. -/
  | abandoning (state : String)
  | begun (state : String)
  | failed (e : GoogleLoginError)

/-- How far a callback has come. -/
inductive CallbackPhase where
  | consuming (query : GoogleCallbackQueryDto) (state : String)
  | exchanging (request : GoogleCodeExchange)
  /-- Before its attempt, of 0, 1 and 2. -/
  | attempting (claims : GoogleIdentityClaims) (attempt : ℕ)
  /-- In it, as program `p`. -/
  | running (claims : GoogleIdentityClaims) (attempt p : ℕ)
  | answered (claims : GoogleIdentityClaims) (session : IssuedSession)
  | failed (e : GoogleLoginError)

/-- Callback `callback` has taken the transaction of `state`. -/
structure OAuthUse where
  callback : ℕ
  state : String

/-- MySQL, Redis, and the requests. -/
structure GoogleLogins where
  sys : AuthSys
  /-- What Redis holds. -/
  oauth : String → Option String
  /-- The states that were drawn. -/
  drawn : List String
  begins : ℕ → Option BeginPhase
  callbacks : ℕ → Option CallbackPhase
  /-- Who has taken what. -/
  consumed : List OAuthUse

inductive GoogleLoginAct where
  /-- Login start `b`, and its store command. -/
  | begin (b : ℕ) (limit : RateLimitAnswer) (request : GoogleAuthorizationRequest) (outcome : RedisOutcome)
  /-- The URL is made; `enabled` is whether there is a Google client. -/
  | redirect (b : ℕ) (enabled : Bool)
  | abandon (b : ℕ) (outcome : RedisOutcome)
  /-- A key runs out. -/
  | expire (key : String)
  | callback (c : ℕ) (limit : RateLimitAnswer) (query : GoogleCallbackQueryDto) (cookieState : Option String)
  | consume (c : ℕ) (outcome : RedisOutcome)
  /-- `exchangeAndVerify` ends, and then `ensureInitialized`. -/
  | exchange (c : ℕ) (result : Except GoogleLoginError GoogleIdentityClaims) (initialized : Bool)
  /-- An attempt starts, as program `p`. -/
  | attempt (c p : ℕ)
  /-- The program of an attempt has ended; `replied` is whether a commit was reported, `retryable` whether a rollback was for a
  duplicate key or a deadlock. -/
  | settle (c : ℕ) (replied retryable : Bool)
  /-- A program of the database executes a statement or is rolled back, or a call other than a login starts. -/
  | call (a : Act AuthSupply AuthCall)

namespace GoogleLogins

variable (cfg : GoogleLoginConfig)

/-- A state no login start has drawn before: 32 random bytes. -/
def Fresh (s : GoogleLogins) (state : String) : Prop := ∀ x ∈ s.drawn, oauthKey cfg x ≠ oauthKey cfg state

instance (s : GoogleLogins) (state : String) : Decidable (s.Fresh cfg state) :=
  inferInstanceAs (Decidable (∀ x ∈ s.drawn, oauthKey cfg x ≠ oauthKey cfg state))

def setBegin (s : GoogleLogins) (b : ℕ) (phase : BeginPhase) : GoogleLogins := { s with begins := Function.update s.begins b (some phase) }

def setCallback (s : GoogleLogins) (c : ℕ) (phase : CallbackPhase) : GoogleLogins :=
  { s with callbacks := Function.update s.callbacks c (some phase) }

/-- `storeOAuthTransaction`: a key that is there is left as it is. -/
def store (s : GoogleLogins) (b : ℕ) (request : GoogleAuthorizationRequest) (outcome : RedisOutcome) : GoogleLogins :=
  let vacant := (s.oauth (oauthKey cfg request.state)).isNone
  let drawn := { s with drawn := request.state :: s.drawn }
  let stored : GoogleLogins :=
    if outcome ≠ .failed ∧ vacant then
      { drawn with oauth := Function.update drawn.oauth (oauthKey cfg request.state) (some request.transaction.text) }
    else drawn
  stored.setBegin b (if outcome = .answered ∧ vacant then .redirecting request.state else .failed (.call .authorizationUnavailable))

/-- The key of a state is read and deleted. -/
def getdel (s : GoogleLogins) (state : String) (outcome : RedisOutcome) : GoogleLogins :=
  if outcome = .failed then s else { s with oauth := Function.update s.oauth (oauthKey cfg state) none }

/-- What a callback does with what it has got for its state. -/
def afterConsume (query : GoogleCallbackQueryDto) (value : Option String) : CallbackPhase :=
  match readOAuthTransaction value with
  | .error e => .failed e
  | .ok none => .failed .oauthTransactionInvalid
  | .ok (some transaction) =>
    -- the code is checked when the state is taken
    match validatedAuthorizationCode cfg query with
    | .error e => .failed e
    | .ok code => .exchanging ⟨code, transaction.codeVerifier, transaction.nonce⟩

/-- `consumeOAuthTransaction`, by callback `c`. -/
def consume (s : GoogleLogins) (c : ℕ) (query : GoogleCallbackQueryDto) (state : String) (outcome : RedisOutcome) : GoogleLogins :=
  let value := s.oauth (oauthKey cfg state)
  let taken : GoogleLogins :=
    if outcome ≠ .failed ∧ value.isSome then { (s.getdel cfg state outcome) with consumed := ⟨c, state⟩ :: s.consumed } else s
  taken.setCallback c (if outcome = .answered then afterConsume cfg query value else .failed (.call .authorizationUnavailable))

/-- What follows the end of an attempt. -/
def afterAttempt (claims : GoogleIdentityClaims) (attempt : ℕ) (replied retryable : Bool) :
    Phase AuthDb AuthKey AuthSupply AuthError AuthAnswer → Option CallbackPhase
  | .committed (.session session) => some (if replied then .answered claims session else .failed (.call .internal))
  | .rolledBack (some e) => some (.failed (.call e))
  | .rolledBack none =>
    some (if ¬ retryable then .failed (.call .internal)
      else if attempt = 2 then .failed (.call .identityConflict)
      else .attempting claims (attempt + 1))
  | _ => none

/-- Logins start with a callback. -/
def startsLogin : Act AuthSupply AuthCall → Bool
  | .start _ (.login _) => true
  | _ => false

end GoogleLogins

open GoogleLogins

/-- Any number of login starts and callbacks among the other calls, from users nobody of whom is logged in. -/
def googleLogins (cfg : GoogleLoginConfig) : Machine GoogleLogins GoogleLoginAct where
  init s := (authSystem cfg.auth).init s.sys ∧ (s.sys.db.directory cfg.auth).Inv ∧ s.oauth = (fun _ => none) ∧ s.drawn = [] ∧
    s.begins = (fun _ => none) ∧ s.callbacks = (fun _ => none) ∧ s.consumed = []
  exec s
    | .begin b limit request outcome =>
      match s.begins b, assertRateLimit limit with
      | some _, _ => none
      | none, .error e => some (s.setBegin b (.failed e))
      | none, .ok () => if s.Fresh cfg request.state then some (s.store cfg b request outcome) else none
    | .redirect b enabled =>
      match s.begins b with
      | some (.redirecting state) => some (s.setBegin b (if enabled then .begun state else .abandoning state))
      | _ => none
    | .abandon b outcome =>
      match s.begins b with
      | some (.abandoning state) =>
        some ((s.getdel cfg state outcome).setBegin b
          (.failed (if outcome = .answered then .googleAuthenticationUnavailable else .call .authorizationUnavailable)))
      | _ => none
    | .expire key => some { s with oauth := Function.update s.oauth key none }
    | .callback c limit query cookieState =>
      match s.callbacks c, callbackState limit query cookieState with
      | some _, _ => none
      | none, .error e => some (s.setCallback c (.failed e))
      | none, .ok state => some (s.setCallback c (.consuming query state))
    | .consume c outcome =>
      match s.callbacks c with
      | some (.consuming query state) => some (s.consume cfg c query state outcome)
      | _ => none
    | .exchange c result initialized =>
      match s.callbacks c, result with
      | some (.exchanging _), .error e => some (s.setCallback c (.failed e))
      | some (.exchanging _), .ok claims =>
        some (s.setCallback c (if initialized then .attempting claims 0 else .failed (.call .internal)))
      | _, _ => none
    | .attempt c p =>
      match s.callbacks c with
      | some (.attempting claims attempt) =>
        ((authSystem cfg.auth).exec s.sys (.start p (.login claims))).map fun sys =>
          { (s.setCallback c (.running claims attempt p)) with sys := sys }
      | _ => none
    | .settle c replied retryable =>
      match s.callbacks c with
      | some (.running claims attempt p) =>
        (s.sys.proc p).bind fun x => (afterAttempt claims attempt replied retryable x.2).map (s.setCallback c)
      | _ => none
    | .call a => if startsLogin a then none else ((authSystem cfg.auth).exec s.sys a).map fun sys => { s with sys := sys }

/-! ### What stays -/

/-- The subject of a login is linked to the user of its session, and no other subject is. -/
structure SignedIn (cfg : AuthConfig) (db : AuthDb) (subject : String) (session : IssuedSession) : Prop where
  linked : (db.directory cfg).Linked subject session.userId
  session : ∃ x ∈ db.sessions, x.id = session.sessionId ∧ x.userId = session.userId

/-- What every step of the database keeps: links and sessions. -/
structure Grows (cfg : AuthConfig) (a b : AuthDb) : Prop where
  links : ∀ x ∈ (a.directory cfg).links, x ∈ (b.directory cfg).links
  sessions : ∀ x ∈ a.sessions, ∃ y ∈ b.sessions, y.id = x.id ∧ y.userId = x.userId

section Stability

variable {cfg : AuthConfig} {a b c : AuthDb} {subject : String} {session : IssuedSession} {userId : ℕ}

theorem Grows.refl (db : AuthDb) : Grows cfg db db := ⟨fun _ hx => hx, fun x hx => ⟨x, hx, rfl, rfl⟩⟩

theorem Grows.linked (h : Grows cfg a b) (hl : (a.directory cfg).Linked subject userId) : (b.directory cfg).Linked subject userId := by
  obtain ⟨x, hx, hlink⟩ := hl
  exact ⟨x, h.links x hx, hlink⟩

theorem SignedIn.grows (h : SignedIn cfg a subject session) (hg : Grows cfg a b) : SignedIn cfg b subject session := by
  obtain ⟨x, hx, hid, huser⟩ := h.session
  obtain ⟨y, hy, hid', huser'⟩ := hg.sessions x hx
  exact ⟨hg.linked h.linked, y, hy, hid'.trans hid, huser'.trans huser⟩

/-- The database keeps both disciplines, and its logins have signed in. -/
structure Stable (cfg : AuthConfig) (sys : AuthSys) : Prop where
  promised : sys.Promised (authDiscipline cfg) (authEffect cfg)
  directory : sys.Promised (directoryDiscipline cfg) (DirectoryEffect cfg)
  logins : ∀ p claims session, sys.proc p = some (.login claims, .committed (.session session)) → SignedIn cfg sys.db claims.subject session

theorem Stable.exec {sys sys' : AuthSys} {x : Act AuthSupply AuthCall} (h : Stable cfg sys) (he : (authSystem cfg).exec sys x = some sys') :
    Stable cfg sys' ∧ Grows cfg sys.db sys'.db := by
  obtain ⟨hpromised, -⟩ := h.promised.step (fun i => authCall_promises cfg i) he
  obtain ⟨hdirectory, hmoves⟩ := h.directory.step (fun i => directory_promises cfg i) he
  have hstep : Step sys.db.access sys'.db.access := step_of_exec h.promised he
  have hsessions : ∀ x ∈ sys.db.sessions, ∃ y ∈ sys'.db.sessions, y.id = x.id ∧ y.userId = x.userId := by
    intro x hx
    obtain ⟨y, hy, hid, huser, -⟩ := hstep.sessions x hx
    exact ⟨y, hy, hid, huser⟩
  rcases hmoves with hidle | ⟨q, i, answer, hcommit, heffect⟩
  · have hgrows : Grows cfg sys.db sys'.db := ⟨fun x hx => hidle.1 ▸ hx, hsessions⟩
    exact ⟨⟨hpromised, hdirectory, fun p claims session hp => (h.logins p claims session (hidle.2 p _ _ hp)).grows hgrows⟩, hgrows⟩
  · have hgrows : Grows cfg sys.db sys'.db := ⟨heffect.links, hsessions⟩
    refine ⟨⟨hpromised, hdirectory, fun p claims session hp => ?_⟩, hgrows⟩
    by_cases hpq : p = q
    · subst hpq
      have hsame := hcommit.committed
      rw [hp] at hsame
      cases hsame
      obtain ⟨hlinked, hsession⟩ := heffect.login claims session rfl rfl
      exact ⟨hlinked, hsession⟩
    · rw [hcommit.others p hpq] at hp
      exact (h.logins p claims session hp).grows hgrows

end Stability

/-! ### The invariant -/

/-- A callback that has come past Redis. -/
def CallbackPhase.Past : CallbackPhase → Prop
  | .consuming _ _ => False
  | .failed _ => False
  | _ => True

namespace GoogleLogins

structure Inv (cfg : GoogleLoginConfig) (s : GoogleLogins) : Prop where
  stable : Stable cfg.auth s.sys
  running : ∀ c claims attempt p, s.callbacks c = some (.running claims attempt p) → ∃ ph, s.sys.proc p = some (.login claims, ph)
  answered : ∀ c claims session, s.callbacks c = some (.answered claims session) → SignedIn cfg.auth s.sys.db claims.subject session
  /-- What Redis holds was drawn, and nobody has taken it. -/
  stored : ∀ key, s.oauth key ≠ none → key ∈ s.drawn.map (oauthKey cfg) ∧ key ∉ s.consumed.map fun u => oauthKey cfg u.state
  drawn : ∀ u ∈ s.consumed, oauthKey cfg u.state ∈ s.drawn.map (oauthKey cfg)
  once : (s.consumed.map fun u => oauthKey cfg u.state).Nodup
  past : ∀ c phase, s.callbacks c = some phase → phase.Past → ∃ state, ⟨c, state⟩ ∈ s.consumed

section Steps

variable {cfg : GoogleLoginConfig} {s s' : GoogleLogins}

theorem Inv.setBegin (h : s.Inv cfg) (b : ℕ) (phase : BeginPhase) : (s.setBegin b phase).Inv cfg :=
  ⟨h.stable, h.running, h.answered, h.stored, h.drawn, h.once, h.past⟩

/-- A callback moves on. -/
theorem Inv.setCallback {c : ℕ} {phase : CallbackPhase} (h : s.Inv cfg)
    (hrunning : ∀ claims attempt p, phase = .running claims attempt p → ∃ ph, s.sys.proc p = some (.login claims, ph))
    (hanswered : ∀ claims session, phase = .answered claims session → SignedIn cfg.auth s.sys.db claims.subject session)
    (hpast : phase.Past → ∃ state, ⟨c, state⟩ ∈ s.consumed) : (s.setCallback c phase).Inv cfg := by
  have hphase : ∀ d ph, (s.setCallback c phase).callbacks d = some ph → d = c ∧ ph = phase ∨ s.callbacks d = some ph := by
    intro d ph hd
    change Function.update s.callbacks c (some phase) d = some ph at hd
    by_cases hdc : d = c
    · subst hdc
      rw [Function.update_self, Option.some.injEq] at hd
      exact .inl ⟨rfl, hd.symm⟩
    · rw [Function.update_of_ne hdc] at hd
      exact .inr hd
  refine ⟨h.stable, fun d claims attempt p hd => ?_, fun d claims session hd => ?_, h.stored, h.drawn, h.once, fun d ph hd hph => ?_⟩
  · rcases hphase d _ hd with ⟨-, he⟩ | hd
    · exact hrunning claims attempt p he.symm
    · exact h.running d claims attempt p hd
  · rcases hphase d _ hd with ⟨-, he⟩ | hd
    · exact hanswered claims session he.symm
    · exact h.answered d claims session hd
  · rcases hphase d ph hd with ⟨rfl, rfl⟩ | hd
    · exact hpast hph
    · exact h.past d ph hd hph

/-- A callback fails. -/
theorem Inv.fails (h : s.Inv cfg) (c : ℕ) (e : GoogleLoginError) : (s.setCallback c (.failed e)).Inv cfg :=
  h.setCallback (fun _ _ _ he => nomatch he) (fun _ _ he => nomatch he) False.elim

/-- A key is gone. -/
theorem Inv.erase (h : s.Inv cfg) (key : String) : Inv cfg { s with oauth := Function.update s.oauth key none } := by
  refine ⟨h.stable, h.running, h.answered, fun k hk => h.stored k fun hnone => hk ?_, h.drawn, h.once, h.past⟩
  by_cases hkk : k = key
  · subst hkk
    exact Function.update_self ..
  · exact (Function.update_of_ne hkk ..).trans hnone

theorem Inv.getdel (h : s.Inv cfg) (state : String) (outcome : RedisOutcome) : (s.getdel cfg state outcome).Inv cfg := by
  unfold GoogleLogins.getdel
  split
  · exact h
  · exact h.erase _

/-- A fresh state is drawn and stored. -/
theorem Inv.store {b : ℕ} {request : GoogleAuthorizationRequest} {outcome : RedisOutcome} (h : s.Inv cfg) (hfresh : s.Fresh cfg request.state) :
    (s.store cfg b request outcome).Inv cfg := by
  have hdrawn : Inv cfg { s with drawn := request.state :: s.drawn } :=
    ⟨h.stable, h.running, h.answered, fun key hkey => ⟨List.mem_cons_of_mem _ (h.stored key hkey).1, (h.stored key hkey).2⟩,
      fun u hu => List.mem_cons_of_mem _ (h.drawn u hu), h.once, h.past⟩
  unfold GoogleLogins.store
  dsimp only
  split
  · have hstored : ∀ oauth : String → Option String, (∀ key, oauth key ≠ none → key ∈ (request.state :: s.drawn).map (oauthKey cfg) ∧
        key ∉ s.consumed.map fun u => oauthKey cfg u.state) → Inv cfg { s with drawn := request.state :: s.drawn, oauth := oauth } :=
      fun oauth ho => ⟨h.stable, h.running, h.answered, ho, hdrawn.drawn, h.once, h.past⟩
    refine (hstored _ fun key hkey => ?_).setBegin _ _
    by_cases hk : key = oauthKey cfg request.state
    · subst hk
      refine ⟨List.mem_cons_self, fun hmem => ?_⟩
      -- what was taken was drawn before
      obtain ⟨u, hu, hukey⟩ := List.mem_map.1 hmem
      obtain ⟨x, hx, hxkey⟩ := List.mem_map.1 (h.drawn u hu)
      exact hfresh x hx (hxkey.trans hukey)
    · rw [Function.update_of_ne hk] at hkey
      exact hdrawn.stored key hkey
  · exact hdrawn.setBegin _ _

/-- A callback asks Redis, and takes what is there. -/
theorem Inv.consume {c : ℕ} {query : GoogleCallbackQueryDto} {state : String} {outcome : RedisOutcome} (h : s.Inv cfg) :
    (s.consume cfg c query state outcome).Inv cfg := by
  have hafter : ∀ t : GoogleLogins, t.Inv cfg → (s.oauth (oauthKey cfg state) ≠ none → outcome = .answered → ⟨c, state⟩ ∈ t.consumed) →
      (t.setCallback c (if outcome = .answered then afterConsume cfg query (s.oauth (oauthKey cfg state))
        else .failed (.call .authorizationUnavailable))).Inv cfg := by
    intro t ht hmem
    split
    · next hanswered =>
      unfold afterConsume
      split
      · exact ht.fails c _
      · exact ht.fails c _
      · next transaction hread =>
        split
        · exact ht.fails c _
        · refine ht.setCallback (fun _ _ _ he => nomatch he) (fun _ _ he => nomatch he) fun _ => ⟨state, hmem (fun hnone => ?_) hanswered⟩
          rw [hnone] at hread
          cases hread
    · exact ht.fails c _
  unfold GoogleLogins.consume
  dsimp only
  split
  · next htaken =>
    refine hafter _ ?_ fun _ _ => List.mem_cons_self
    have hvalue : s.oauth (oauthKey cfg state) ≠ none := Option.isSome_iff_ne_none.1 htaken.2
    obtain ⟨hdrawn, hnew⟩ := h.stored _ hvalue
    rw [GoogleLogins.getdel, if_neg htaken.1]
    refine ⟨h.stable, h.running, h.answered, fun key hkey => ?_, fun u hu => ?_, List.nodup_cons.2 ⟨hnew, h.once⟩, fun d phase hd hpast => ?_⟩
    · by_cases hk : key = oauthKey cfg state
      · subst hk
        exact absurd (Function.update_self ..) hkey
      · have hkey' : s.oauth key ≠ none := fun hnone => hkey ((Function.update_of_ne hk ..).trans hnone)
        refine ⟨(h.stored key hkey').1, fun hmem => ?_⟩
        rcases List.mem_cons.1 hmem with he | hmem
        · exact hk he
        · exact (h.stored key hkey').2 hmem
    · rcases List.mem_cons.1 hu with rfl | hu
      · exact hdrawn
      · exact h.drawn u hu
    · obtain ⟨x, hx⟩ := h.past d phase hd hpast
      exact ⟨x, List.mem_cons_of_mem _ hx⟩
  · next htaken =>
    refine hafter s h fun hvalue hanswered => absurd ⟨?_, Option.isSome_iff_ne_none.2 hvalue⟩ htaken
    rw [hanswered]
    exact RedisOutcome.noConfusion

/-- The database moves. -/
theorem Inv.database {sys : AuthSys} {x : Act AuthSupply AuthCall} (h : s.Inv cfg) (he : (authSystem cfg.auth).exec s.sys x = some sys) :
    Inv cfg { s with sys := sys } := by
  obtain ⟨hstable, hgrows⟩ := h.stable.exec he
  refine ⟨hstable, fun c claims attempt p hc => ?_, fun c claims session hc => (h.answered c claims session hc).grows hgrows, h.stored,
    h.drawn, h.once, h.past⟩
  obtain ⟨ph, hp⟩ := h.running c claims attempt p hc
  exact call_stays he hp

/-- An attempt ends. -/
theorem Inv.settle {c attempt p : ℕ} {claims : GoogleIdentityClaims} {replied retryable : Bool} {i : AuthCall}
    {ph : Phase AuthDb AuthKey AuthSupply AuthError AuthAnswer} {phase : CallbackPhase} (h : s.Inv cfg)
    (hc : s.callbacks c = some (.running claims attempt p)) (hp : s.sys.proc p = some (i, ph))
    (hafter : afterAttempt claims attempt replied retryable ph = some phase) : (s.setCallback c phase).Inv cfg := by
  obtain ⟨ph', hp'⟩ := h.running c claims attempt p hc
  rw [hp, Option.some.injEq, Prod.mk.injEq] at hp'
  obtain ⟨rfl, rfl⟩ := hp'
  have hpast := h.past c _ hc trivial
  unfold afterAttempt at hafter
  split at hafter
  · next session =>
    cases hafter
    split
    · refine h.setCallback (fun _ _ _ he => nomatch he) (fun claims' session' he => ?_) fun _ => hpast
      cases he
      exact h.stable.logins p claims session hp
    · exact h.fails c _
  · cases hafter
    exact h.fails c _
  · cases hafter
    split
    · exact h.fails c _
    · split
      · exact h.fails c _
      · exact h.setCallback (fun _ _ _ he => nomatch he) (fun _ _ he => nomatch he) fun _ => hpast
  · cases hafter

theorem Inv.exec {a : GoogleLoginAct} (h : s.Inv cfg) (he : (googleLogins cfg).exec s a = some s') : s'.Inv cfg := by
  cases a with
  | begin b limit request outcome =>
    simp only [googleLogins] at he
    split at he
    · cases he
    · cases he
      exact h.setBegin _ _
    · rw [Option.ite_none_right_eq_some] at he
      obtain ⟨hfresh, he⟩ := he
      cases he
      exact h.store hfresh
  | redirect b enabled =>
    simp only [googleLogins] at he
    split at he
    · cases he
      exact h.setBegin _ _
    · cases he
  | abandon b outcome =>
    simp only [googleLogins] at he
    split at he
    · cases he
      exact (h.getdel _ _).setBegin _ _
    · cases he
  | expire key =>
    cases he
    exact h.erase key
  | callback c limit query cookieState =>
    simp only [googleLogins] at he
    split at he
    · cases he
    · cases he
      exact h.fails c _
    · cases he
      exact h.setCallback (fun _ _ _ he => nomatch he) (fun _ _ he => nomatch he) False.elim
  | consume c outcome =>
    simp only [googleLogins] at he
    split at he
    · cases he
      exact h.consume
    · cases he
  | exchange c result initialized =>
    simp only [googleLogins] at he
    split at he
    · cases he
      exact h.fails c _
    · next hc =>
      cases he
      split
      · exact h.setCallback (fun _ _ _ he => nomatch he) (fun _ _ he => nomatch he) fun _ => h.past c _ hc trivial
      · exact h.fails c _
    · cases he
  | attempt c p =>
    simp only [googleLogins] at he
    split at he
    · next claims attempt hc =>
      obtain ⟨sys, hstart, rfl⟩ := Option.map_eq_some_iff.1 he
      refine (h.database hstart).setCallback (fun claims' attempt' q hq => ?_) (fun _ _ he => nomatch he) fun _ => h.past c _ hc trivial
      cases hq
      obtain ⟨i, ph, hproc, hwas⟩ := proc_of_exec hstart
      rcases hwas with ⟨hi, -⟩ | ⟨code, pend, view, hrun, -⟩
      · cases hi
        exact ⟨ph, by rw [hproc]; exact if_pos rfl⟩
      · -- a program that runs does not start
        simp only [authSystem, machine] at hstart
        rw [show s.sys.proc p = _ from hrun] at hstart
        cases hstart
    · cases he
  | settle c replied retryable =>
    simp only [googleLogins] at he
    split at he
    · next claims attempt p hc =>
      obtain ⟨⟨i, ph⟩, hp, he⟩ := Option.bind_eq_some_iff.1 he
      obtain ⟨phase, hafter, rfl⟩ := Option.map_eq_some_iff.1 he
      exact h.settle hc hp hafter
    · cases he
  | call x =>
    simp only [googleLogins] at he
    split at he
    · cases he
    · obtain ⟨sys, hexec, rfl⟩ := Option.map_eq_some_iff.1 he
      exact h.database hexec

/-- A step of the machine is a step of the database, or leaves it alone. -/
theorem sys_of_exec {a : GoogleLoginAct} (he : (googleLogins cfg).exec s a = some s') :
    s'.sys = s.sys ∨ ∃ x, (authSystem cfg.auth).exec s.sys x = some s'.sys := by
  cases a with
  | begin b limit request outcome =>
    simp only [googleLogins] at he
    split at he
    · cases he
    · cases he
      exact .inl rfl
    · rw [Option.ite_none_right_eq_some] at he
      obtain ⟨-, he⟩ := he
      cases he
      refine .inl ?_
      unfold GoogleLogins.store
      dsimp only
      split <;> rfl
  | redirect b enabled =>
    simp only [googleLogins] at he
    split at he
    · cases he
      exact .inl rfl
    · cases he
  | abandon b outcome =>
    simp only [googleLogins] at he
    split at he
    · cases he
      refine .inl ?_
      unfold GoogleLogins.getdel
      split <;> rfl
    · cases he
  | expire key =>
    cases he
    exact .inl rfl
  | callback c limit query cookieState =>
    simp only [googleLogins] at he
    split at he
    · cases he
    · cases he
      exact .inl rfl
    · cases he
      exact .inl rfl
  | consume c outcome =>
    simp only [googleLogins] at he
    split at he
    · cases he
      refine .inl ?_
      unfold GoogleLogins.consume GoogleLogins.getdel
      dsimp only
      split
      · split <;> rfl
      · rfl
    · cases he
  | exchange c result initialized =>
    simp only [googleLogins] at he
    split at he
    · cases he
      exact .inl rfl
    · cases he
      exact .inl rfl
    · cases he
  | attempt c p =>
    simp only [googleLogins] at he
    split at he
    · obtain ⟨sys, hexec, rfl⟩ := Option.map_eq_some_iff.1 he
      exact .inr ⟨_, hexec⟩
    · cases he
  | settle c replied retryable =>
    simp only [googleLogins] at he
    split at he
    · obtain ⟨⟨i, ph⟩, -, he⟩ := Option.bind_eq_some_iff.1 he
      obtain ⟨phase, -, rfl⟩ := Option.map_eq_some_iff.1 he
      exact .inl rfl
    · cases he
  | call x =>
    simp only [googleLogins] at he
    split at he
    · cases he
    · obtain ⟨sys, hexec, rfl⟩ := Option.map_eq_some_iff.1 he
      exact .inr ⟨_, hexec⟩

theorem inv_of_reachable {C : GoogleLogins → GoogleLoginAct → Prop} (h : (googleLogins cfg).Reachable C s) : s.Inv cfg := by
  apply h.invariant
  · rintro s ⟨hinit, hdirectory, hoauth, hdrawn, -, hcallbacks, hconsumed⟩
    have hpromised := authSystem_promised (C := fun _ _ => True) (.init hinit)
    obtain ⟨db, -, hsys⟩ := hinit
    rw [hsys] at hdirectory
    have hstart : s.sys.Promised (directoryDiscipline cfg.auth) (DirectoryEffect cfg.auth) := by
      rw [hsys]
      exact ⟨.start hdirectory, fun p i code pend view hp => by simp [Sys.start] at hp⟩
    refine ⟨⟨hpromised, hstart, fun p claims session hp => ?_⟩, fun c claims attempt p hc => ?_, fun c claims session hc => ?_,
      fun key hkey => ?_, fun u hu => ?_, ?_, fun c phase hc => ?_⟩
    · rw [hsys] at hp
      cases hp
    · rw [hcallbacks] at hc
      cases hc
    · rw [hcallbacks] at hc
      cases hc
    · rw [hoauth] at hkey
      exact absurd rfl hkey
    · rw [hconsumed] at hu
      cases hu
    · rw [hconsumed]
      exact List.nodup_nil
    · rw [hcallbacks] at hc
      cases hc
  · exact fun _ _ _ hs _ he => hs.exec he

end Steps

end GoogleLogins

/-! ### Accounts -/

/-- A session for the subject of a login, and for nobody else. -/
structure Belongs (cfg : AuthConfig) (db : AuthDb) (subject : String) (session : IssuedSession) : Prop where
  linked : (db.directory cfg).Linked subject session.userId
  only : ∀ other, (db.directory cfg).Linked other session.userId → other = subject
  row : ∃ x ∈ db.sessions, x.id = session.sessionId
  rows : ∀ x ∈ db.sessions, x.id = session.sessionId → x.userId = session.userId

/-- A login with the claims has committed the session, or a callback has answered it. -/
def GoogleLogins.Yields (s : GoogleLogins) (claims : GoogleIdentityClaims) (session : IssuedSession) : Prop :=
  (∃ p, s.sys.proc p = some (.login claims, .committed (.session session))) ∨ ∃ c, s.callbacks c = some (.answered claims session)

section Accounts

variable {cfg : GoogleLoginConfig} {s : GoogleLogins}

theorem linked_unique {d : Directory} (h : d.Inv) {subject : String} {u v : ℕ} (hu : d.Linked subject u) (hv : d.Linked subject v) : u = v := by
  obtain ⟨x, hx, hxp, hxs, rfl⟩ := hu
  obtain ⟨y, hy, hyp, hys, rfl⟩ := hv
  rw [h.subjects x hx y hy (by simp [hxp, hyp, hxs, hys])]

theorem subject_unique {d : Directory} (h : d.Inv) {subject other : String} {u : ℕ} (hs : d.Linked subject u) (ho : d.Linked other u) :
    other = subject := by
  obtain ⟨x, hx, hxp, rfl, hxu⟩ := hs
  obtain ⟨y, hy, hyp, rfl, hyu⟩ := ho
  rw [h.users x hx y hy (by simp [hxp, hyp, hxu, hyu])]

theorem SignedIn.belongs {sys : AuthSys} {subject : String} {session : IssuedSession} (h : SignedIn cfg.auth sys.db subject session)
    (hsys : Stable cfg.auth sys) : Belongs cfg.auth sys.db subject session := by
  obtain ⟨x, hx, hid, huser⟩ := h.session
  refine ⟨h.linked, fun other ho => subject_unique hsys.directory.good.inv h.linked ho, ⟨x, hx, hid⟩, fun y hy hyid => ?_⟩
  rw [hsys.promised.good.inv.sessionIds y hy x hx (hyid.trans hid.symm), huser]

/-- Links stay. -/
theorem GoogleLogins.Inv.links (h : s.Inv cfg) {as : List GoogleLoginAct} {s' : GoogleLogins} (hr : (googleLogins cfg).run s as = some s')
    {subject : String} {userId : ℕ} (hl : (s.sys.db.directory cfg.auth).Linked subject userId) :
    (s'.sys.db.directory cfg.auth).Linked subject userId := by
  have hrun := Machine.run_induction (M := googleLogins cfg) (P := fun _ _ => True)
    (I := fun t => t.Inv cfg ∧ (t.sys.db.directory cfg.auth).Linked subject userId) ?_ (fun _ _ _ => trivial) ⟨h, hl⟩ hr
  · exact hrun.2
  rintro t a t' ⟨hinv, hlinked⟩ - he
  refine ⟨hinv.exec he, ?_⟩
  rcases sys_of_exec he with hsame | ⟨x, hexec⟩
  · rwa [hsame]
  · exact (hinv.stable.exec hexec).2.linked hlinked

/-- **A Google subject has one user for good, a login gets a session of its subject's user and of no other subject's, no two users share
an address, and a state is taken by one callback, without which there is no session.** -/
theorem googleLogins_stable (h : (googleLogins cfg).Reachable (fun _ _ => True) s) :
    (∀ subject u v, (s.sys.db.directory cfg.auth).Linked subject u → (s.sys.db.directory cfg.auth).Linked subject v → u = v) ∧
    (∀ as s', (googleLogins cfg).run s as = some s' → ∀ subject u, (s.sys.db.directory cfg.auth).Linked subject u →
      (s'.sys.db.directory cfg.auth).Linked subject u) ∧
    (∀ claims session, s.Yields claims session → Belongs cfg.auth s.sys.db claims.subject session) ∧
    (∀ u ∈ s.sys.db.users, ∀ v ∈ s.sys.db.users, cfg.auth.collate u.email = cfg.auth.collate v.email → u = v) ∧
    (s.consumed.map (·.state)).Nodup ∧
    ∀ c claims session, s.callbacks c = some (.answered claims session) → ∃ state, ⟨c, state⟩ ∈ s.consumed := by
  have hinv := GoogleLogins.inv_of_reachable h
  have hdirectory := hinv.stable.directory.good.inv
  refine ⟨fun subject u v hu hv => linked_unique hdirectory hu hv, fun as s' hr subject u hu => hinv.links hr hu, ?_, ?_, ?_, ?_⟩
  · rintro claims session (⟨p, hp⟩ | ⟨c, hc⟩)
    · exact (hinv.stable.logins p claims session hp).belongs hinv.stable
    · exact (hinv.answered c claims session hc).belongs hinv.stable
  · intro u hu v hv hemail
    have haddress : u.id = v.id :=
      hdirectory.addresses (addressOf cfg.auth u) (List.mem_map_of_mem hu) (addressOf cfg.auth v) (List.mem_map_of_mem hv) hemail
    exact hinv.stable.promised.good.inv.user_unique u hu v hv haddress
  · -- states of one key are one
    apply List.Nodup.of_map (oauthKey cfg)
    rw [List.map_map]
    exact hinv.once
  · exact fun c claims session hc => hinv.past c _ hc trivial

end Accounts

/-! ### Two tabs -/

/-- The digests of the texts below. -/
def tabDigests : List (String × String) :=
  [("CCCCCCCCCCCCCCCCCCCCCCCCCCCCCCCCCCCCCCCCCCC", "942014af03195c97fc8a6121a03e1660b89027a538325a101eba426dacd7e587"),
    ("DDDDDDDDDDDDDDDDDDDDDDDDDDDDDDDDDDDDDDDDDDD", "391ab01bf8d16cd248fe06202b6e6dfc149cb16c96d6163b34ec399297ab765b"),
    ("6f1c2a34-5b6d-4e7f-8a9b-0c1d2e3f4a5b.AAAAAAAAAAAAAAAAAAAAAAAAAAAAAAAAAAAAAAAAAAA", "78d1a24fb5a5afc4fb95d8d4f6d27418de085816771110c8ab74606627ce44c3"),
    ("0d9c8b7a-6f5e-4d3c-9b2a-1f0e9d8c7b6a.BBBBBBBBBBBBBBBBBBBBBBBBBBBBBBBBBBBBBBBBBBB", "9bc7b521a17dcfc20f6082e36effce69f33b3010735a893104f9584a24d54d15")]

def tabConfig : GoogleLoginConfig where
  auth := .thirtyDays fun text => (tabDigests.lookup text).getD ""
  redisKeyPrefix := "hotel"
  maxLength text n := utf16Length text ≤ n

def firstState : String := "CCCCCCCCCCCCCCCCCCCCCCCCCCCCCCCCCCCCCCCCCCC"

def secondState : String := "DDDDDDDDDDDDDDDDDDDDDDDDDDDDDDDDDDDDDDDDDDD"

/-- The query of a callback. -/
def callbackQuery (state : String) : GoogleCallbackQueryDto := ⟨some (.str state), some (.str "4/0AX4XfWh"), none⟩

/-- A callback as far as its first attempt. -/
def tab (c : ℕ) (state : String) : List GoogleLoginAct :=
  [.begin c .allowed ⟨state, "nonce", "verifier"⟩ .answered, .redirect c true, .callback c .allowed (callbackQuery state) (some state),
    .consume c .answered, .exchange c (.ok ⟨"108", "eve@example.com", "Eve"⟩) true, .attempt c c]

/-- Somebody new logs in from two tabs at once: the second insert of the user fails, and its callback tries again. -/
def twoTabs : List GoogleLoginAct :=
  let first : AuthSupply := ⟨2, "6f1c2a34-5b6d-4e7f-8a9b-0c1d2e3f4a5b", "AAAAAAAAAAAAAAAAAAAAAAAAAAAAAAAAAAAAAAAAAAA", 0⟩
  let second : AuthSupply := ⟨3, "0d9c8b7a-6f5e-4d3c-9b2a-1f0e9d8c7b6a", "BBBBBBBBBBBBBBBBBBBBBBBBBBBBBBBBBBBBBBBBBBB", 1⟩
  tab 0 firstState ++ tab 1 secondState ++
    [.call (.step 0 first), .call (.step 1 second), .call (.step 0 first), .call (.step 1 second), .call (.step 0 first), .call (.abort 1)] ++
    List.replicate 3 (.call (.step 0 first)) ++ [.settle 1 true true, .attempt 1 2] ++ List.replicate 4 (.call (.step 2 second)) ++
    [.settle 0 true false, .settle 1 true false]

def tabStart : GoogleLogins where
  sys := Sys.start (AuthDb.opening [⟨1, "ada@example.com", "Ada", .admin, .active, 0⟩] [])
  oauth := fun _ => none
  drawn := []
  begins := fun _ => none
  callbacks := fun _ => none
  consumed := []

/-- What the two callbacks have answered. -/
def tabAnswers (s : GoogleLogins) : List (Option (ℕ × String)) :=
  [0, 1].map fun c => match s.callbacks c with
    | some (.answered _ session) => some (session.userId, session.sessionId)
    | _ => none

theorem twoTabs_run : ((googleLogins tabConfig).run tabStart twoTabs).map (fun s => (tabAnswers s, s.consumed.map (·.state))) =
    some ([some (2, "6f1c2a34-5b6d-4e7f-8a9b-0c1d2e3f4a5b"), some (2, "0d9c8b7a-6f5e-4d3c-9b2a-1f0e9d8c7b6a")], [secondState, firstState]) := by
  decide +kernel

theorem googleLogins_stable_twoTabs : ∃ s, (googleLogins tabConfig).run tabStart twoTabs = some s ∧
    tabAnswers s = [some (2, "6f1c2a34-5b6d-4e7f-8a9b-0c1d2e3f4a5b"), some (2, "0d9c8b7a-6f5e-4d3c-9b2a-1f0e9d8c7b6a")] ∧
    (∀ subject u v, (s.sys.db.directory tabConfig.auth).Linked subject u → (s.sys.db.directory tabConfig.auth).Linked subject v → u = v) ∧
    (∀ claims session, s.Yields claims session → Belongs tabConfig.auth s.sys.db claims.subject session) ∧
    (s.consumed.map (·.state)).Nodup := by
  obtain ⟨s, hs, hrun⟩ := Option.map_eq_some_iff.1 twoTabs_run
  have hstart : (googleLogins tabConfig).Reachable (fun _ _ => True) tabStart := by
    refine .init ⟨⟨_, ⟨[⟨1, "ada@example.com", "Ada", .admin, .active, 0⟩], [], by decide, rfl⟩, rfl⟩, ⟨?_, ?_, ?_⟩, rfl, rfl, rfl, rfl, rfl⟩
    · intro x hx y hy _
      rw [List.mem_singleton.1 hx, List.mem_singleton.1 hy]
    · exact fun _ hx => nomatch hx
    · exact fun _ hx => nomatch hx
  obtain ⟨hone, -, hyields, -, honce, -⟩ := googleLogins_stable (hstart.of_run (fun _ _ _ => trivial) hs)
  exact ⟨s, hs, (Prod.mk.inj hrun).1, hone, hyields, honce⟩

end HotelBackend.Auth
