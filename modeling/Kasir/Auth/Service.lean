/-
  Kasir.Auth.Service

  `AuthService`: login, pinLogin, refresh and logout, and `UsersService.setPin`.

  The statements a method sends outside a transaction stand in the same body as
  its last transaction: at Read Committed, and without a lock or a change of
  theirs, that makes no difference.  The serializable transaction of
  `recordFailedPin` reads one row and updates it; its snapshot is what its first
  statement reads, and its update breaks off if the row has changed since.

  bcrypt, SHA-256, the signature of access tokens and the validator's notion of an
  email address are parameters.
-/

import Kasir.Auth.Schema
import Kasir.Txn.Alone

namespace Kasir.Auth

open Txn Js

-- ============================================================================
-- Configuration
-- ============================================================================

/-- What `positiveIntegerConfig` lets the constructor set up. -/
structure Config where
  pinMaxFailedAttempts : Nat := 5
  pinLockDurationMs : Time := 15 * 60 * 1000
  refreshTokenTtlMs : Time := 30 * 24 * 60 * 60 * 1000
  pinMaxFailedAttempts_pos : 0 < pinMaxFailedAttempts := by decide
  pinLockDurationMs_pos : 0 < pinLockDurationMs := by decide
  refreshTokenTtlMs_pos : 0 < refreshTokenTtlMs := by decide

/-- The libraries: `bcrypt.compare`, the SHA-256 digest of a refresh token,
    `jwtService.sign`, and `isEmail` of the validator. -/
structure Crypto where
  compare : String → String → Bool
  hashRefreshToken : String → String
  sign : JwtPayload → String
  isEmail : String → Bool

/-- The largest value of an INTEGER column. -/
def int4Max : Nat := 2147483647

-- ============================================================================
-- Requests, answers and errors
-- ============================================================================

/-- `LoginDto`. -/
structure LoginDto where
  email : String
  password : String
  tenantId : String
deriving DecidableEq, Repr

def LoginDto.valid (crypto : Crypto) (dto : LoginDto) : Bool :=
  crypto.isEmail dto.email && dto.password ≠ "" && isUUID dto.tenantId

/-- `PinLoginDto`. -/
structure PinLoginDto where
  tenantId : String
  userId : String
  pin : String
  deviceId : String
  deviceName : Option String := none
deriving DecidableEq, Repr

/-- `@Matches(/^\d{6}$/)`. -/
def isPin (pin : String) : Bool := pin.length == 6 && pin.toList.all Char.isDigit

def PinLoginDto.valid (dto : PinLoginDto) : Bool :=
  isUUID dto.tenantId && isUUID dto.userId && isPin dto.pin && isUUID dto.deviceId &&
    dto.deviceName.all fun name => validatorLength name ≤ 100

/-- `RefreshTokenDto`. -/
structure RefreshTokenDto where
  refreshToken : String
deriving DecidableEq, Repr

def RefreshTokenDto.valid (dto : RefreshTokenDto) : Bool :=
  32 ≤ validatorLength dto.refreshToken && validatorLength dto.refreshToken ≤ 512

/-- `SetUserPinDto`. -/
structure SetUserPinDto where
  pin : String
deriving DecidableEq, Repr

def SetUserPinDto.valid (dto : SetUserPinDto) : Bool := isPin dto.pin

/-- `tokenResponse`. -/
structure TokenResponse where
  accessToken : String
  refreshToken : String
  expiresIn : Nat
deriving DecidableEq, Repr

/-- What a call is answered with once its transactions are over. -/
inductive Response
  | tokens (response : TokenResponse)
  | accessToken (token : String)
  | noContent
deriving DecidableEq, Repr

/-- `ACCESS_TOKEN_EXPIRES_IN_SECONDS`. -/
def accessTokenExpiresInSeconds : Nat := 24 * 60 * 60

def invalidLogin : Exc :=
  .http { status := .unauthorized, message := "Email atau password salah" }

def invalidPinCredentials : Exc :=
  .http { status := .unauthorized, errorCode := some "INVALID_CREDENTIALS"
          message := "User or PIN is invalid" }

def invalidRefreshToken : Exc :=
  .http { status := .unauthorized, errorCode := some "INVALID_REFRESH_TOKEN"
          message := "Refresh token is invalid or expired" }

/-- `Math.max(1, Math.ceil((lockedUntil - now) / 1000))`. -/
def retryAfterSeconds (lockedUntil now : Time) : Int := max 1 (-((now - lockedUntil) / 1000))

def pinLocked (lockedUntil now : Time) : Exc :=
  .http { status := .locked, errorCode := some "PIN_LOCKED"
          message := "PIN login is temporarily locked"
          retryAfterSeconds := some (retryAfterSeconds lockedUntil now) }

def pinLoginRetryRequired : Exc :=
  .http { status := .serviceUnavailable, errorCode := some "PIN_LOGIN_RETRY_REQUIRED"
          message := "PIN login changed concurrently; please retry" }

def userNotFound : Exc :=
  .http { status := .notFound, errorCode := some "USER_NOT_FOUND", message := "User not found" }

/-- What the validation pipe answers to a malformed body. -/
def validationPipeError : Exc := .http { status := .badRequest, message := "Bad Request Exception" }

/-- The text of a role in a token. -/
def Role.text : Role → String
  | .owner => "OWNER"
  | .admin => "ADMIN"
  | .cashier => "CASHIER"

section Methods

variable (config : Config) (crypto : Crypto)

/-- The payload of a user's access token. -/
def accessTokenOf (user : User) : String :=
  crypto.sign
    { sub := user.id, tenantId := user.tenantId, role := Role.text user.role
      outletId := user.outletId }

def tokenResponse (user : User) (refreshToken : String) : TokenResponse where
  accessToken := accessTokenOf crypto user
  refreshToken := refreshToken
  expiresIn := accessTokenExpiresInSeconds

-- ============================================================================
-- login
-- ============================================================================

/-- `users.findUnique` of `login`; a UUID column compares without regard to case. -/
def findLoginUser (dto : LoginDto) (db : Db) : Option User :=
  db.users.find? fun u => u.tenantId == toLowerCase dto.tenantId && u.email == dto.email

/-- `login`.  It asks whether the user is active, and not whether the tenant is. -/
def login (dto : LoginDto) : Body (Except Exc Response) := do
  let found ← query (findLoginUser dto)
  let user ← Prog.require (found.filter User.isActive) invalidLogin
  Prog.guard (crypto.compare dto.password user.passwordHash) invalidLogin
  pure (.ok (.accessToken (accessTokenOf crypto user)))

-- ============================================================================
-- pinLogin
-- ============================================================================

/-- `locked_until`, as far as it can be compared with another time. -/
def User.readLock (u : User) : Option Time := u.lockedUntil.bind readBack

/-- `locked_until && locked_until > now`. -/
def User.lockedAt (u : User) (now : Time) : Bool := u.readLock.any fun l => now < l

/-- The user of the id, active, of the tenant. -/
def activeUserOf (userId tenantId : Id) (u : User) : Bool :=
  u.id == userId && u.tenantId == tenantId && u.isActive

/-- The same, with this PIN hash. -/
def activeUserWithPin (userId tenantId : Id) (pinHash : String) (u : User) : Bool :=
  activeUserOf userId tenantId u && u.pinHash == some pinHash

/-- The tenant is active. -/
def Db.tenantActive (db : Db) (tenantId : Id) : Bool :=
  db.tenants.any fun t => t.id == tenantId && t.isActive

/-- `users.findFirst` of `pinLogin`. -/
def findPinUser (userId tenantId : Id) (db : Db) : Option User :=
  db.users.find? fun u => activeUserOf userId tenantId u && db.tenantActive u.tenantId

/-- The mark of a guess that will pass: the user is not locked and the PIN is
    right. -/
def admittedMarks (pin : String) (now : Time) : Option User → List Token
  | none => []
  | some u =>
      if !u.lockedAt now && u.pinHash.any (crypto.compare pin) then [.admitted u.id now] else []

/-- `PinFailureResult`. -/
structure PinFailure where
  failedAttempts : Nat
  lockedUntil : Option Time
deriving DecidableEq, Repr

/-- What a failed guess makes of the counter and the lock. -/
def nextFailure (current : User) (failedAt : Time) : PinFailure :=
  let previousAttempts :=
    if current.readLock.any fun l => l ≤ failedAt then 0 else current.pinFailedAttempts
  let failedAttempts := previousAttempts + 1
  { failedAttempts
    lockedUntil :=
      if config.pinMaxFailedAttempts ≤ failedAttempts then
        some (failedAt + config.pinLockDurationMs)
      else none }

/-- `recordFailedPin`, with this many attempts left. -/
def recordFailedPin (userId tenantId : Id) (expectedPinHash : String) (failedAt : Time) :
    Nat → Body (Option PinFailure)
  | 0 => Prog.throw pinLoginRetryRequired
  | attempts + 1 => do
      let shown ← query fun db =>
        db.users.filter (activeUserWithPin userId tenantId expectedPinHash)
      match shown.head? with
      | none => pure none
      | some current =>
          match current.readLock.filter fun l => failedAt < l with
          | some lockedUntil =>
              pure (some { failedAttempts := current.pinFailedAttempts
                           lockedUntil := some lockedUntil })
          | none => do
              let failure := nextFailure config current failedAt
              Prog.guard (failure.failedAttempts ≤ int4Max &&
                failure.lockedUntil.all fun l => l ≤ maxTime) .prisma
              let result ← users.updateShown shown
                (fun u => if failure.lockedUntil.isSome then [.locking u.id] else [])
                (fun u => { u with pinFailedAttempts := failure.failedAttempts
                                   lockedUntil := failure.lockedUntil })
                Env.serializationFailure
              match result with
              | none => recordFailedPin userId tenantId expectedPinHash failedAt attempts
              | some count => if count ≠ 1 then pure none else pure (some failure)

/-- The session a PIN login creates. -/
def newDeviceSession (user : User) (dto : PinLoginDto) (now : Time) (refreshToken : String)
    (id : Id) : DeviceSession where
  id := id
  tenantId := user.tenantId
  userId := user.id
  deviceId := toLowerCase dto.deviceId
  -- `dto.device_name?.trim() || null`
  deviceName := (dto.deviceName.map trim).filter fun name => name ≠ ""
  refreshTokenHash := crypto.hashRefreshToken refreshToken
  status := .active
  createdAt := now
  lastUsedAt := now
  expiresAt := now + config.refreshTokenTtlMs

/-- The transaction of a right guess; whether it created a session. -/
def createPinSession (user : User) (pinHash : String) (dto : PinLoginDto) (now : Time)
    (refreshToken : String) : Body Bool := do
  let current ← query fun db => db.users.find? fun u =>
    activeUserWithPin user.id user.tenantId pinHash u && db.tenantActive u.tenantId
  if current.isNone then pure false
  else do
    let reset ← users.update (activeUserWithPin user.id user.tenantId pinHash) (fun _ => [])
      fun u => { u with pinFailedAttempts := 0, lockedUntil := none }
    if reset ≠ 1 then pure false
    else do
      createDeviceSession (newDeviceSession config crypto user dto now refreshToken)
      pure true

/-- `pinLogin`; `now` and `refreshToken` are what the call draws from the clock and
    the random generator. -/
def pinLogin (dto : PinLoginDto) (now : Time) (refreshToken : String) :
    Body (Except Exc Response) := do
  let tenantId := toLowerCase dto.tenantId
  let userId := toLowerCase dto.userId
  let found ← queryMarked (findPinUser userId tenantId) (admittedMarks crypto dto.pin now)
  let user ← Prog.require found invalidPinCredentials
  let pinHash ← Prog.require user.pinHash invalidPinCredentials
  match user.readLock.filter fun l => now < l with
  | some lockedUntil => Prog.throw (pinLocked lockedUntil now)
  | none =>
      if crypto.compare dto.pin pinHash then do
        let sessionCreated ← createPinSession config crypto user pinHash dto now refreshToken
        if sessionCreated then pure (.ok (.tokens (tokenResponse crypto user refreshToken)))
        else pure (.error invalidPinCredentials)
      else do
        let failure ← recordFailedPin config user.id user.tenantId pinHash now 3
        match failure.bind PinFailure.lockedUntil with
        | some lockedUntil => pure (.error (pinLocked lockedUntil now))
        | none => pure (.error invalidPinCredentials)

-- ============================================================================
-- refresh and logout
-- ============================================================================

/-- A session with its user and its tenant. -/
structure SessionRecord where
  session : DeviceSession
  user : User
  tenant : Tenant
deriving DecidableEq, Repr

/-- The session of the token. -/
def sessionOfToken (refreshTokenHash : String) (db : Db) : Option DeviceSession :=
  db.deviceSessions.find? fun s => s.refreshTokenHash == refreshTokenHash

/-- The user of a session. -/
def userOfSession (session : DeviceSession) (db : Db) : Option User :=
  db.users.find? fun u => u.id == session.userId && u.tenantId == session.tenantId

/-- The tenant of a session. -/
def tenantOfSession (session : DeviceSession) (db : Db) : Option Tenant :=
  db.tenants.find? fun t => t.id == session.tenantId

/-- `device_sessions.findFirst` of `refresh`: the client reads the session, then its
    user and its tenant, which foreign keys make be there. -/
def findSession (refreshTokenHash : String) : Body (Option SessionRecord) := do
  let found ← query (sessionOfToken refreshTokenHash)
  match found with
  | none => pure none
  | some session => do
      let user ← query (userOfSession session)
      let user ← Prog.require user .prisma
      let tenant ← query (tenantOfSession session)
      let tenant ← Prog.require tenant .prisma
      pure (some { session, user, tenant })

def SessionRecord.usable (r : SessionRecord) (now : Time) : Bool :=
  r.session.status == .active && (readBack r.session.expiresAt).any (fun t => now < t) &&
    r.user.isActive && r.tenant.isActive

/-- The ACTIVE session of the id, the tenant and the token. -/
def activeSessionOf (id tenantId : Id) (refreshTokenHash : String) (s : DeviceSession) : Bool :=
  s.id == id && s.tenantId == tenantId && s.refreshTokenHash == refreshTokenHash &&
    s.status == .active

def revoke (now : Time) (s : DeviceSession) : DeviceSession :=
  { s with status := .revoked, revokedAt := some now }

/-- The session a rotation creates. -/
def rotatedSession (session : DeviceSession) (now : Time) (nextToken : String) (id : Id) :
    DeviceSession where
  id := id
  tenantId := session.tenantId
  userId := session.userId
  deviceId := session.deviceId
  deviceName := session.deviceName
  refreshTokenHash := crypto.hashRefreshToken nextToken
  status := .active
  createdAt := now
  lastUsedAt := now
  expiresAt := now + config.refreshTokenTtlMs

/-- `refresh`; `now` and `nextToken` are what the call draws from the clock and the
    random generator. -/
def refresh (dto : RefreshTokenDto) (now : Time) (nextToken : String) :
    Body (Except Exc Response) := do
  let currentTokenHash := crypto.hashRefreshToken dto.refreshToken
  let found ← findSession currentTokenHash
  match found with
  | none => pure (.error invalidRefreshToken)
  | some record =>
      let session := record.session
      if !record.usable now then do
        if session.status == .active then do
          let _ ← deviceSessions.update
            (activeSessionOf session.id session.tenantId currentTokenHash) (fun _ => [])
            fun s => { revoke now s with lastUsedAt := now }
          pure (.error invalidRefreshToken)
        else pure (.error invalidRefreshToken)
      else do
        let revoked ← deviceSessions.update
          (fun s => activeSessionOf session.id session.tenantId currentTokenHash s &&
            s.userId == session.userId) (fun _ => [])
          fun s => { revoke now s with rotatedAt := some now, lastUsedAt := now }
        if revoked ≠ 1 then pure (.error invalidRefreshToken)
        else do
          createDeviceSession (rotatedSession config crypto session now nextToken)
          pure (.ok (.tokens (tokenResponse crypto record.user nextToken)))

/-- `logout`; `now` is the clock at its second statement. -/
def logout (dto : RefreshTokenDto) (now : Time) : Body (Except Exc Response) := do
  let refreshTokenHash := crypto.hashRefreshToken dto.refreshToken
  let found ← query fun db =>
    db.deviceSessions.find? fun s => s.refreshTokenHash == refreshTokenHash
  match found with
  | none => pure (.ok .noContent)
  | some session => do
      let _ ← deviceSessions.update
        (activeSessionOf session.id session.tenantId refreshTokenHash) (fun _ => [])
        (revoke now)
      pure (.ok .noContent)

-- ============================================================================
-- UsersService.setPin
-- ============================================================================

/-- `setPin`; `pinHash` is what `bcrypt.hash` makes of the PIN and a fresh salt, and
    `now` the clock.  A UUID column compares identifiers without regard to case. -/
def setPin (user : JwtPayload) (targetUserId : String) (pinHash : String) (now : Time) :
    Body (Except Exc Response) := do
  let targetId := toLowerCase targetUserId
  let tenantId := toLowerCase user.tenantId
  let target ← query fun db => db.users.find? (activeUserOf targetId tenantId)
  let target ← Prog.require target userNotFound
  let result ← users.update (activeUserOf target.id tenantId) (fun _ => []) fun u =>
    { u with pinHash := some pinHash, pinChangedAt := some now, pinFailedAttempts := 0
             lockedUntil := none }
  if result ≠ 1 then pure (.error userNotFound) else pure (.ok .noContent)

end Methods

-- ============================================================================
-- The application
-- ============================================================================

/-- A call of a service method, with its arguments and what it draws from the clock
    and the random generator. -/
inductive Call
  /-- `AuthService.login` -/
  | login (dto : LoginDto)
  /-- `AuthService.pinLogin` -/
  | pinLogin (dto : PinLoginDto) (now : Time) (refreshToken : String)
  /-- `AuthService.refresh` -/
  | refresh (dto : RefreshTokenDto) (now : Time) (nextToken : String)
  /-- `AuthService.logout` -/
  | logout (dto : RefreshTokenDto) (now : Time)
  /-- `UsersService.setPin` -/
  | setPin (user : JwtPayload) (targetUserId : String) (dto : SetUserPinDto) (pinHash : String)
      (now : Time)
  /-- an administrator activates or deactivates a user -/
  | setUserActive (id : Id) (isActive : Bool)
  /-- an administrator activates or deactivates a tenant -/
  | setTenantActive (id : Id) (isActive : Bool)
  /-- time passes -/
  | tick (clock : Time)
deriving DecidableEq, Repr

/-- What a call answers after its commit. -/
abbrev Result := Except Exc Response

section Application

variable (config : Config) (crypto : Crypto)

namespace Call

/-- What is checked before the method runs. -/
def precheck : Call → Option Exc
  | .login dto => if dto.valid crypto then none else some validationPipeError
  | .pinLogin dto .. => if dto.valid then none else some validationPipeError
  | .refresh dto .. | .logout dto _ => if dto.valid then none else some validationPipeError
  | .setPin _ _ dto .. => if dto.valid then none else some validationPipeError
  | .setUserActive .. | .setTenantActive .. | .tick _ => none

def body : Call → Body Result
  | .login dto => Auth.login crypto dto
  | .pinLogin dto now refreshToken => Auth.pinLogin config crypto dto now refreshToken
  | .refresh dto now nextToken => Auth.refresh config crypto dto now nextToken
  | .logout dto now => Auth.logout crypto dto now
  | .setPin user targetUserId _ pinHash now => Auth.setPin user targetUserId pinHash now
  | .setUserActive id isActive => do
      let _ ← users.update (fun u => u.id == id) (fun _ => []) fun u => { u with isActive }
      pure (.ok .noContent)
  | .setTenantActive id isActive =>
      Prog.write
        (fun _ db => { db with tenants := db.tenants.map fun t =>
          if t.id == id then { t with isActive } else t })
        fun _ => .ok .noContent
  | .tick clock =>
      Prog.write (fun _ db => { db with clock := max db.clock clock }) fun _ => .ok .noContent

end Call

/-- Authentication on its database.  The database may break a transaction off at any
    statement and at the commit. -/
def auth : App Db Env Token Exc Exc Call Result where
  precheck := Call.precheck crypto
  iso _ := .readCommitted
  body := Call.body config crypto
  handle _ _ e := some e
  fault e := e == .prisma
  blocks := Token.blocks
  legal := Db.legal

end Application

/-- A state of authentication. -/
abbrev State := Sys Db Env Token Exc Exc Call Result

/-- A commit of authentication. -/
abbrev AuthCommit := Commit Db Call Result

end Kasir.Auth
