import HotelBackend.Notifications.EmailTemplate
import HotelBackend.Theory.Transactions
import HotelBackend.Theory.Tables
import HotelBackend.Users.Entities

/-!
# The database of users and sessions

The tables the login, session and user-administration transactions touch, the rows they
lock, and their statements. A `SELECT … FOR UPDATE` that matches many rows visits them one
after the other, in an order the store chooses, and locks each as it meets it. A shared
lock excludes less than the locks here do: such a read is one that locks nothing, and
nothing relies on what it has read.

Two columns of the database are not in it: the refresh tokens that were issued and those
that were accepted, in the order of the commits. They are there to state what happened;
a new secret is one that was not drawn before, and no statement reads them otherwise.
-/

namespace HotelBackend.Auth

open HotelBackend.Theory
open HotelBackend.Theory.Transactions
open HotelBackend.Users
open HotelBackend.Notifications (isHexDigit isHyphen fits)

/-! ### Refresh tokens -/

/-- `[A-Za-z0-9_-]` -/
def isBase64Url (c : Char) : Bool :=
  ('A' ≤ c && c ≤ 'Z') || ('a' ≤ c && c ≤ 'z') || ('0' ≤ c && c ≤ '9') || c = '_' || c = '-'

def isDot (c : Char) : Bool := c = '.'

/-- `[0-9a-f]{8}-[0-9a-f]{4}-4[0-9a-f]{3}-[89ab][0-9a-f]{3}-[0-9a-f]{12}`, in either case -/
def sessionIdShape : List (Char → Bool) :=
  List.replicate 8 isHexDigit ++ isHyphen :: List.replicate 4 isHexDigit ++ isHyphen ::
    (fun c => c = '4') :: List.replicate 3 isHexDigit ++ isHyphen ::
    (fun c => c ∈ ['8', '9', 'a', 'b', 'A', 'B']) :: List.replicate 3 isHexDigit ++ isHyphen :: List.replicate 12 isHexDigit

/-- The session id and the secret, with a dot between them. -/
def refreshTokenShape : List (Char → Bool) := sessionIdShape ++ isDot :: List.replicate 43 isBase64Url

/-- The session a token names, if it is well formed. -/
def parseRefreshToken : Option String → Option String
  | none => none
  | some token =>
    if fits refreshTokenShape token.toList then some (String.ofList ((token.toList.take sessionIdShape.length).map Char.toLower))
    else none

/-- `secret` is 32 random bytes in base64url. -/
def createRefreshToken (sessionId secret : String) : String := sessionId ++ "." ++ secret

/-- A session has one token for each secret. -/
theorem createRefreshToken_inj {sessionId secret secret' : String}
    (h : createRefreshToken sessionId secret = createRefreshToken sessionId secret') : secret = secret' := by
  have hlist := congrArg String.toList h
  simp only [createRefreshToken, String.toList_append] at hlist
  exact String.toList_inj.1 (List.append_cancel_left hlist)

/-! ### Tables -/

inductive AuthProvider where
  | google
  deriving DecidableEq, Repr

/-- A row of `auth_identities`. -/
structure AuthIdentity where
  id : ℕ
  userId : ℕ
  provider : AuthProvider
  providerSubject : String
  providerEmail : String
  deriving DecidableEq, Repr

/-- A row of `auth_sessions`. -/
structure AuthSession where
  id : String
  userId : ℕ
  refreshTokenHash : String
  refreshExpiresAt : ℕ
  revokedAt : Option ℕ
  deriving DecidableEq, Repr

/-- A refresh token of a session. -/
structure TokenUse where
  sessionId : String
  token : String
  deriving DecidableEq, Repr

/-- The tables, and what has happened to the tokens. -/
structure AuthDb where
  users : List User
  identities : List AuthIdentity
  sessions : List AuthSession
  userStatusHistory : List UserStatusHistory
  userRoleHistory : List UserRoleHistory
  issued : List TokenUse
  accepted : List TokenUse

/-- Users, and nobody has logged in yet. -/
def AuthDb.opening (users : List User) (identities : List AuthIdentity) : AuthDb where
  users := users
  identities := identities
  sessions := []
  userStatusHistory := []
  userRoleHistory := []
  issued := []
  accepted := []

/-- What a transaction can lock. -/
inductive AuthKey where
  | user (id : ℕ)
  | userEmail (weight : String)
  | identity (id : ℕ)
  | identitySubject (provider : AuthProvider) (subject : String)
  | identityUser (userId : ℕ) (provider : AuthProvider)
  | session (id : String)
  | userStatusHistory (id : ℕ)
  | userRoleHistory (id : ℕ)
  deriving DecidableEq

/-- What is drawn for a write: an auto-increment id, a UUID, a secret, the time. -/
structure AuthSupply where
  id : ℕ
  uuid : String
  secret : String
  now : ℕ
  deriving DecidableEq

/-- The errors a call can answer with, by their codes. -/
inductive AuthError where
  | identityConflict
  | sessionInvalid
  | userInactive
  | authorizationUnavailable
  | userNotFound
  | selfDeactivationForbidden
  | lastAdminDeactivationForbidden
  | invalidUserId
  | invalidBootstrapInput
  | userIdentityMismatch
  | internal
  deriving DecidableEq, Repr

/-- The configuration the services read, and the functions of the platform they call. -/
structure AuthConfig where
  refreshTtlSeconds : ℕ
  /-- `sha256` of a text, in hex. -/
  sha256 : String → String
  /-- `value.toLowerCase()` -/
  toLowerCase : String → String
  /-- The weight of a text in the collation of the e-mail columns, which compares by weight. -/
  collate : String → String

/-- Refresh tokens last thirty days. -/
def AuthConfig.thirtyDays (sha256 : String → String) : AuthConfig where
  refreshTtlSeconds := 2592000
  sha256 := sha256
  toLowerCase value := String.ofList (value.toList.map Char.toLower)
  collate value := String.ofList (value.toList.map Char.toLower)

/-- A transaction of this database. -/
abbrev AuthTx (α : Type) : Type 1 := Txn AuthDb AuthKey AuthSupply AuthError α

/-! ### Reads -/

/-- `findOne … FOR UPDATE` -/
def findLocked {ρ : Type} (table : AuthDb → List ρ) (key : ρ → AuthKey) (p : ρ → Bool) : AuthTx (Option ρ) :=
  .locking (fun db => ((table db).find? p).toList.map key) fun db => (table db).find? p

/-- The session with an id, `FOR UPDATE`: a locking read of a primary key that finds nothing keeps the id from being inserted. -/
def findSessionLocked (sessionId : String) : AuthTx (Option AuthSession) :=
  .locking (fun _ => [.session sessionId]) fun db => db.sessions.find? (·.id = sessionId)

/-- `findOne … FOR SHARE`: the lock is not relied on. -/
def findShared {ρ : Type} (table : AuthDb → List ρ) (p : ρ → Bool) : AuthTx (Option ρ) :=
  .locking (fun _ => []) fun db => (table db).find? p

/-- The order in which a scan meets the rows: the store's choice. -/
structure ScanOrder (κ : Type) where
  visit : List κ → List κ
  perm : ∀ ids, (visit ids).Perm ids

/-- In the order of the table. -/
def ScanOrder.inOrder {κ : Type} : ScanOrder κ := ⟨id, fun _ => .refl _⟩

/-- The rows a scan comes to, one after the other. -/
def lockEach {ρ κ : Type} (row : κ → AuthDb → Option ρ) (key : κ → AuthKey) : List κ → AuthTx (List ρ)
  | [] => pure []
  | id :: ids => do
    let met ← .locking (fun db => ((row id db).map fun _ => key id).toList) (row id)
    let rest ← lockEach row key ids
    pure (met.toList ++ rest)

/-- `getMany … FOR UPDATE`: the rows of the table that match when the scan comes to them. -/
def findManyLocked {ρ κ : Type} (table : AuthDb → List ρ) (rowId : ρ → κ) (order : ScanOrder κ) (row : κ → AuthDb → Option ρ)
    (key : κ → AuthKey) : AuthTx (List ρ) := do
  let ids ← .locking (fun _ => []) fun db => (table db).map rowId
  lockEach row key (order.visit ids)

/-! ### Writes -/

/-- The rows' ids are all below `id`. -/
def below {ρ : Type} (rows : List ρ) (rowId : ρ → ℕ) (id : ℕ) : Bool := rows.all fun r => rowId r < id

theorem below_iff {ρ : Type} {rows : List ρ} {rowId : ρ → ℕ} {id : ℕ} : below rows rowId id = true ↔ ∀ r ∈ rows, rowId r < id := by
  simp [below]

/-- An insert into `users`. -/
def insertUser (cfg : AuthConfig) (row : AuthSupply → User) : AuthTx User := do
  let x ← .writing (fun x _ => [.user x.id, .userEmail (cfg.collate (row x).email)])
    (fun x db => below db.users (·.id) x.id && db.users.all fun u => cfg.collate u.email ≠ cfg.collate (row x).email)
    fun x db => { db with users := db.users ++ [row x] }
  pure (row x)

/-- `manager.save` of a loaded user: the row is read, and the columns that changed are written. -/
def saveUser (id : ℕ) (columns : User → User) : AuthTx Unit := do
  let _ ← Txn.reading fun db => db.users.find? (·.id = id)
  let _ ← .writing (fun _ _ => [.user id]) (fun _ _ => true)
    fun _ db => { db with users := Table.update db.users (·.id = id) columns }
  pure ()

/-- A new address, which no other user has. -/
def saveUserEmail (cfg : AuthConfig) (id : ℕ) (email : String) : AuthTx Unit := do
  let _ ← Txn.reading fun db => db.users.find? (·.id = id)
  let _ ← .writing (fun _ _ => [.user id, .userEmail (cfg.collate email)])
    (fun _ db => db.users.all fun u => u.id = id || cfg.collate u.email ≠ cfg.collate email)
    fun _ db => { db with users := Table.update db.users (·.id = id) fun u => { u with email := email } }
  pure ()

/-- An insert into `auth_identities`. -/
def insertIdentity (row : AuthSupply → AuthIdentity) : AuthTx AuthSupply :=
  .writing
    (fun x _ => [.identity x.id, .identitySubject (row x).provider (row x).providerSubject, .identityUser (row x).userId (row x).provider])
    (fun x db => below db.identities (·.id) x.id && db.identities.all fun i =>
      (i.provider ≠ (row x).provider || i.providerSubject ≠ (row x).providerSubject) &&
        (i.userId ≠ (row x).userId || i.provider ≠ (row x).provider))
    fun x db => { db with identities := db.identities ++ [row x] }

def saveIdentityEmail (id : ℕ) (email : String) : AuthTx Unit := do
  let _ ← Txn.reading fun db => db.identities.find? (·.id = id)
  let _ ← .writing (fun _ _ => [.identity id]) (fun _ _ => true)
    fun _ db => { db with identities := Table.update db.identities (·.id = id) fun i => { i with providerEmail := email } }
  pure ()

/-- An insert into `auth_sessions`, of a session with its first token. -/
def insertSession (row : AuthSupply → AuthSession) (token : AuthSupply → String) : AuthTx AuthSupply :=
  .writing (fun x _ => [.session x.uuid]) (fun x db => db.sessions.all fun s => s.id ≠ x.uuid)
    fun x db => { db with sessions := db.sessions ++ [row x], issued := db.issued ++ [⟨x.uuid, token x⟩] }

/-- Sessions are revoked. -/
def saveRevoked (ids : List String) : AuthTx AuthSupply :=
  .writing (fun _ _ => ids.map .session) (fun _ _ => true)
    fun x db => { db with sessions := Table.update db.sessions (·.id ∈ ids) fun s => { s with revokedAt := some x.now } }

/-- A session takes a new token for the one that was presented. -/
def saveRotated (cfg : AuthConfig) (session : AuthSession) (presented : String) : AuthTx AuthSupply :=
  .writing (fun _ _ => [.session session.id])
    (fun x db => db.issued.all fun t => t ≠ ⟨session.id, createRefreshToken session.id x.secret⟩)
    fun x db =>
      { db with
        sessions := Table.update db.sessions (·.id = session.id) fun s =>
          { s with refreshTokenHash := cfg.sha256 (createRefreshToken session.id x.secret) }
        issued := db.issued ++ [⟨session.id, createRefreshToken session.id x.secret⟩]
        accepted := db.accepted ++ [⟨session.id, presented⟩] }

def insertUserStatusHistory (userId actorUserId : ℕ) (fromStatus toStatus : UserStatus) (reason : String) : AuthTx AuthSupply :=
  .writing (fun x _ => [.userStatusHistory x.id]) (fun x db => below db.userStatusHistory (·.id) x.id)
    fun x db => { db with userStatusHistory := db.userStatusHistory ++ [⟨x.id, userId, actorUserId, fromStatus, toStatus, reason⟩] }

def insertUserRoleHistory (userId : ℕ) (actorType : RoleActorType) (actorUserId : Option ℕ) (fromRole toRole : UserRole)
    (reason : String) : AuthTx AuthSupply :=
  .writing (fun x _ => [.userRoleHistory x.id]) (fun x db => below db.userRoleHistory (·.id) x.id)
    fun x db => { db with userRoleHistory := db.userRoleHistory ++ [⟨x.id, userId, actorType, actorUserId, fromRole, toRole, reason⟩] }

end HotelBackend.Auth
