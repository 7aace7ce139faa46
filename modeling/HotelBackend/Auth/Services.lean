import HotelBackend.Auth.Database

/-!
# Sessions and users

`SessionService`, `AuthService`, `UsersService.updateStatus` and
`AdminBootstrapService.promote`, statement by statement: the transactions with their locks
in the coded order. What a call answers carries what the caller does after the commit: the
tokens it hands out and the sessions it marks as revoked in Redis. The access token is
signed outside the database and is left out. A login that loses a race is retried by its
caller, which is a call again.
-/

namespace HotelBackend.Auth

open HotelBackend.Common
open HotelBackend.Theory
open HotelBackend.Theory.Transactions
open HotelBackend.Users
open HotelBackend.Notifications (decimalIdPattern)

/-- What a login or a refresh hands out. -/
structure IssuedSession where
  userId : ℕ
  sessionId : String
  refreshToken : String
  refreshExpiresAt : ℕ
  deriving DecidableEq, Repr

/-- What the transaction of a refresh results in. -/
inductive RefreshResult where
  | success (session : IssuedSession)
  | invalid (revokedSessionId : Option String)
  | inactive (revokedSessionId : Option String)
  deriving DecidableEq, Repr

/-! ### Sessions -/

namespace SessionService

def createWithManager (cfg : AuthConfig) (user : User) : AuthTx IssuedSession := do
  Txn.require (user.status = .active) .userInactive
  let x ← insertSession
    (fun x => ⟨x.uuid, user.id, cfg.sha256 (createRefreshToken x.uuid x.secret), x.now + cfg.refreshTtlSeconds * 1000, none⟩)
    fun x => createRefreshToken x.uuid x.secret
  pure ⟨user.id, x.uuid, createRefreshToken x.uuid x.secret, x.now + cfg.refreshTtlSeconds * 1000⟩

def create (cfg : AuthConfig) (userId : ℕ) : AuthTx IssuedSession := do
  let found ← findLocked (·.users) (fun u => .user u.id) (·.id = userId)
  let lockedUser ← Txn.orThrow found .sessionInvalid
  createWithManager cfg lockedUser

/-- The transaction of `refresh`; `now` is when it looks at the clock. -/
def refresh (cfg : AuthConfig) (rawToken : Option String) (now : ℕ) : AuthTx RefreshResult := do
  let token ← Txn.orThrow rawToken .sessionInvalid
  let sessionId ← Txn.orThrow (parseRefreshToken (some token)) .sessionInvalid
  -- the join locks the session, then its user
  let found ← findSessionLocked sessionId
  match found with
  | none => pure (.invalid none)
  | some session => do
    let owner ← findLocked (·.users) (fun u => .user u.id) (·.id = session.userId)
    match owner with
    | none => pure (.invalid none)
    | some user =>
      if session.revokedAt.isSome ∨ session.refreshExpiresAt ≤ now then pure (.invalid none)
      else if cfg.sha256 token ≠ session.refreshTokenHash then do
        let _ ← saveRevoked [session.id]
        pure (.invalid (some session.id))
      else if user.status ≠ .active then do
        let _ ← saveRevoked [session.id]
        pure (.inactive (some session.id))
      else do
        let x ← saveRotated cfg session token
        pure (.success ⟨user.id, session.id, createRefreshToken session.id x.secret, session.refreshExpiresAt⟩)

/-- What `refresh` answers to its caller. -/
def refreshAnswer : RefreshResult → Except AuthError IssuedSession
  | .success session => .ok session
  | .invalid _ => .error .sessionInvalid
  | .inactive _ => .error .userInactive

def revoke (sessionId : String) : AuthTx Unit := do
  let found ← findSessionLocked sessionId
  match found with
  | none => pure ()
  | some session =>
    if session.revokedAt.isSome then pure ()
    else do
      let _ ← saveRevoked [session.id]
      pure ()

/-- The claims of a verified access token. -/
structure AccessTokenClaims where
  sub : ℕ
  sid : String

structure AuthenticatedPrincipal where
  userId : ℕ
  sessionId : String
  email : String
  displayName : String
  role : UserRole
  status : UserStatus
  deriving DecidableEq, Repr

/-- `authenticateAccessToken`, of what Redis answers (nothing, where it fails), the committed rows, and the clock. -/
def authenticateAccessToken (db : AuthDb) (claims : AccessTokenClaims) (cachedRevocation : Option Bool) (now : ℕ) :
    Except AuthError AuthenticatedPrincipal :=
  if cachedRevocation = some true then .error .sessionInvalid
  else
    match db.sessions.find? fun s => s.id = claims.sid && s.userId = claims.sub with
    | none => .error .sessionInvalid
    | some session =>
      match db.users.find? (·.id = session.userId) with
      | none => .error .sessionInvalid
      | some user =>
        if session.revokedAt.isSome ∨ session.refreshExpiresAt ≤ now then .error .sessionInvalid
        else if user.status ≠ .active then .error .userInactive
        else .ok ⟨user.id, session.id, user.email, user.displayName, user.role, user.status⟩

end SessionService

/-! ### Logins -/

structure GoogleIdentityClaims where
  subject : String
  email : String
  displayName : String

namespace AuthService

def updateReturningIdentity (cfg : AuthConfig) (identity : AuthIdentity) (user : User) (claims : GoogleIdentityClaims) :
    AuthTx IssuedSession := do
  Txn.require (user.status = .active) .userInactive
  (do
    let emailOwner ← findShared (·.users) fun u => cfg.collate u.email = cfg.collate claims.email
    Txn.require (∀ owner, emailOwner = some owner → owner.id = user.id) .identityConflict
    saveUserEmail cfg user.id claims.email : AuthTx Unit).when (user.email ≠ claims.email)
  (saveIdentityEmail identity.id claims.email).when (identity.providerEmail ≠ claims.email)
  SessionService.createWithManager cfg { user with email := claims.email }

def resolveIdentityAndCreateSession (cfg : AuthConfig) (claims : GoogleIdentityClaims) : AuthTx IssuedSession := do
  let found ← findLocked (·.identities) (fun i => .identity i.id) fun i => i.provider = .google && i.providerSubject = claims.subject
  match found with
  | some identity => do
    let owner ← findLocked (·.users) (fun u => .user u.id) (·.id = identity.userId)
    let user ← Txn.orThrow owner .internal
    updateReturningIdentity cfg identity user claims
  | none => do
    let emailOwner ← findShared (·.users) fun u => cfg.collate u.email = cfg.collate claims.email
    Txn.require emailOwner.isNone .identityConflict
    let user ← insertUser cfg fun x => ⟨x.id, claims.email, claims.displayName, .user, .active, x.now⟩
    let _ ← insertIdentity fun x => ⟨x.id, user.id, .google, claims.subject, claims.email⟩
    SessionService.createWithManager cfg user

end AuthService

/-! ### User administration -/

namespace UsersService

structure UpdateStatusInput where
  actorUserId : ℕ
  targetUserId : ℕ
  status : UserStatus
  reason : String

def isActiveAdmin (user : User) : Bool := user.role = .admin && user.status = .active

/-- The active administrators, locked. -/
def lockActiveAdmins (order : ScanOrder ℕ) : AuthTx (List User) :=
  findManyLocked (·.users) (·.id) order (fun id db => db.users.find? fun u => u.id = id && isActiveAdmin u) .user

/-- The sessions of a user that are not revoked, locked. -/
def lockUnrevokedSessions (userId : ℕ) (order : ScanOrder String) : AuthTx (List AuthSession) :=
  findManyLocked (·.sessions) (·.id) order
    (fun id db => db.sessions.find? fun s => s.id = id && s.userId = userId && s.revokedAt.isNone) .session

/-- What keeps an administrator from being switched off. -/
def assertDeactivationAllowed (actorUserId : ℕ) (target : User) (admins : ScanOrder ℕ) : AuthTx Unit := do
  Txn.require (target.id ≠ actorUserId) .selfDeactivationForbidden
  (do
    let activeAdmins ← lockActiveAdmins admins
    Txn.require (¬ activeAdmins.length ≤ 1) .lastAdminDeactivationForbidden : AuthTx Unit).when (target.role = .admin)

/-- The sessions are revoked at one time. -/
def revokeSessions (userId : ℕ) (order : ScanOrder String) : AuthTx (List String) := do
  let sessions ← lockUnrevokedSessions userId order
  (do
    let _ ← saveRevoked (sessions.map (·.id))
    pure () : AuthTx Unit).when (sessions ≠ [])
  pure (sessions.map (·.id))

/-- The user as it is answered, and the sessions to mark in Redis. -/
def updateStatus (input : UpdateStatusInput) (admins : ScanOrder ℕ) (order : ScanOrder String) : AuthTx (User × List String) := do
  let found ← findLocked (·.users) (fun u => .user u.id) (·.id = input.targetUserId)
  let target ← Txn.orThrow found .userNotFound
  if target.status = input.status then pure (target, [])
  else do
    (assertDeactivationAllowed input.actorUserId target admins).when (input.status = .inactive)
    saveUser target.id fun u => { u with status := input.status }
    let _ ← insertUserStatusHistory target.id input.actorUserId target.status input.status input.reason
    if input.status = .inactive then do
      let revokedSessionIds ← revokeSessions target.id order
      pure ({ target with status := input.status }, revokedSessionIds)
    else pure ({ target with status := input.status }, [])

end UsersService

namespace AdminBootstrapService

inductive AdminBootstrapResult where
  | alreadyAdmin
  | promoted
  deriving DecidableEq, Repr

structure PromoteInput where
  userId : String
  email : String
  reason : String

def promote (cfg : AuthConfig) (input : PromoteInput) : AuthTx AdminBootstrapResult := do
  let email := cfg.toLowerCase (jsTrim input.email)
  let reason := jsTrim input.reason
  Txn.require (decimalIdPattern input.userId) .invalidUserId
  Txn.require (email ≠ "" ∧ reason ≠ "" ∧ utf16Length reason ≤ 1000) .invalidBootstrapInput
  let found ← findLocked (·.users) (fun u => .user u.id) fun u => toString u.id = input.userId
  let user ← Txn.orThrow found .userIdentityMismatch
  Txn.require (user.email = email) .userIdentityMismatch
  Txn.require (user.status = .active) .userInactive
  if user.role = .admin then pure .alreadyAdmin
  else do
    saveUser user.id fun u => { u with role := .admin }
    let _ ← insertUserRoleHistory user.id .cli none user.role .admin reason
    pure .promoted

end AdminBootstrapService

/-! ### The calls of the system -/

inductive AuthCall where
  | login (claims : GoogleIdentityClaims)
  | createSession (userId : ℕ)
  | refresh (rawToken : Option String) (now : ℕ)
  | revoke (sessionId : String)
  | updateStatus (input : UsersService.UpdateStatusInput) (admins : ScanOrder ℕ) (sessions : ScanOrder String)
  | promote (input : AdminBootstrapService.PromoteInput)

inductive AuthAnswer where
  | session (session : IssuedSession)
  | refreshed (result : RefreshResult)
  | revoked
  | status (user : User) (revokedSessionIds : List String)
  | promotion (result : AdminBootstrapService.AdminBootstrapResult)

/-- The transaction of a call. -/
def AuthCall.run (cfg : AuthConfig) : AuthCall → AuthTx AuthAnswer
  | .login claims => do
    let session ← AuthService.resolveIdentityAndCreateSession cfg claims
    pure (.session session)
  | .createSession userId => do
    let session ← SessionService.create cfg userId
    pure (.session session)
  | .refresh rawToken now => do
    let result ← SessionService.refresh cfg rawToken now
    pure (.refreshed result)
  | .revoke sessionId => do
    SessionService.revoke sessionId
    pure .revoked
  | .updateStatus input admins sessions => do
    let result ← UsersService.updateStatus input admins sessions
    pure (.status result.1 result.2)
  | .promote input => do
    let result ← AdminBootstrapService.promote cfg input
    pure (.promotion result)

/-- The sessions a call marks as revoked in Redis, when it has committed. -/
def AuthCall.marks : AuthCall → AuthAnswer → List String
  | .refresh _ _, .refreshed (.invalid revokedSessionId) => revokedSessionId.toList
  | .refresh _ _, .refreshed (.inactive revokedSessionId) => revokedSessionId.toList
  | .revoke sessionId, _ => [sessionId]
  | .updateStatus _ _ _, .status _ revokedSessionIds => revokedSessionIds
  | _, _ => []

/-- Any number of calls, interleaved, from users of whom none is logged in. -/
def authSystem (cfg : AuthConfig) : Machine (Sys AuthDb AuthKey AuthSupply AuthError AuthAnswer AuthCall) (Act AuthSupply AuthCall) :=
  machine (AuthCall.run cfg) fun db =>
    ∃ users identities, (users.map (·.id)).Nodup ∧ db = AuthDb.opening users identities

end HotelBackend.Auth
