/-
  Kasir.Auth.Schema

  The tables behind authentication: tenants, users with their PIN columns, and
  device sessions; the errors the services raise and the locks their statements
  take.

  The wall clock is part of the world these tables are in: `clock` is what
  `new Date()` yields to a call that starts now.
-/

import Kasir.Schema
import Kasir.Transactions.Dto
import Kasir.Txn.Table

namespace Kasir.Auth

open Txn

/-- Milliseconds, as of `Date.getTime()`. -/
abbrev Time := Int

/-- The latest time a `Date` holds; the client refuses an invalid one. -/
def maxTime : Time := 8640000000000000

/-- The last millisecond of the year 9999. -/
def maxReadTime : Time := 253402300799999

/-- A time as the client reads it back from the database.  One after the year 9999
    comes back as an invalid `Date`, with which every comparison is false. -/
def readBack (t : Time) : Option Time := if t ≤ maxReadTime then some t else none

theorem readBack_eq {t : Time} (h : t ≤ maxReadTime) : readBack t = some t := if_pos h

theorem readBack_some {t s : Time} (h : readBack t = some s) : t = s ∧ t ≤ maxReadTime := by
  unfold readBack at h
  split at h
  · exact ⟨Option.some.inj h, by assumption⟩
  · cases h

/-- A comparison that is true is one with the time itself. -/
theorem lt_of_readBack {t now : Time} (h : (readBack t).any (fun s => now < s) = true) :
    now < t := by
  obtain ⟨s, hs, hlt⟩ := (Option.any_eq_true _ _).mp h
  obtain ⟨rfl, -⟩ := readBack_some hs
  exact of_decide_eq_true hlt

-- ============================================================================
-- Tables
-- ============================================================================

structure Tenant where
  id : Id
  isActive : Bool
deriving DecidableEq, Repr

structure User where
  id : Id
  tenantId : Id
  outletId : Option Id
  role : Role
  isActive : Bool
  email : String := ""
  passwordHash : String := ""
  pinHash : Option String := none
  pinFailedAttempts : Nat := 0
  lockedUntil : Option Time := none
  pinChangedAt : Option Time := none
deriving DecidableEq, Repr

/-- `chk_device_sessions_status`. -/
inductive DeviceSessionStatus
  | active
  | revoked
deriving DecidableEq, Repr

structure DeviceSession where
  id : Id
  tenantId : Id
  userId : Id
  deviceId : Id
  deviceName : Option String
  refreshTokenHash : String
  status : DeviceSessionStatus
  createdAt : Time
  lastUsedAt : Time
  expiresAt : Time
  rotatedAt : Option Time := none
  revokedAt : Option Time := none
deriving DecidableEq, Repr

/-- What the database takes: the expiry is a valid `Date`, and the name of the device
    fits its column. -/
def DeviceSession.sendable (s : DeviceSession) : Bool :=
  s.expiresAt ≤ maxTime && s.deviceName.all (varchar 100)

structure Db where
  tenants : List Tenant := []
  users : List User := []
  deviceSessions : List DeviceSession := []
  clock : Time := 0
deriving DecidableEq, Repr

/-- `chk_device_sessions_revocation_state`. -/
def DeviceSession.revocationState (s : DeviceSession) : Bool :=
  (s.status == .active && s.revokedAt.isNone) || (s.status == .revoked && s.revokedAt.isSome)

/-- `chk_device_sessions_expiry`. -/
def DeviceSession.expiry (s : DeviceSession) : Bool := s.createdAt < s.expiresAt

/-- The primary keys, `uq_device_sessions_refresh_token_hash` and the CHECK
    constraints. -/
def Db.legal (db : Db) : Bool :=
  distinct Tenant.id db.tenants &&
  distinct User.id db.users &&
  distinct DeviceSession.id db.deviceSessions &&
  distinct DeviceSession.refreshTokenHash db.deviceSessions &&
  db.deviceSessions.all fun s => s.revocationState && s.expiry

-- ============================================================================
-- Errors
-- ============================================================================

/-- The exception classes of the framework. -/
inductive HttpStatus
  | badRequest
  | unauthorized
  | notFound
  | locked
  | serviceUnavailable
deriving DecidableEq, Repr

/-- `HttpException`, with the fields of its body. -/
structure HttpException where
  status : HttpStatus
  errorCode : Option String := none
  message : String
  retryAfterSeconds : Option Int := none
deriving DecidableEq, Repr

/-- Whatever a call may be answered with instead of a result; the services look at
    no error of the database but `P2034`, which is part of `updateShown`. -/
inductive Exc
  | http (e : HttpException)
  | prisma
deriving DecidableEq, Repr

-- ============================================================================
-- What a statement is supplied with
-- ============================================================================

/-- The identifier `gen_random_uuid()` yields, and whether the database breaks a
    serializable transaction off. -/
structure Env where
  fresh : Id
  serializationFailure : Bool := false
deriving DecidableEq, Repr

/-- What a transaction may hold to its end. -/
inductive Token
  /-- a `users` row -/
  | user (id : Id)
  /-- a `device_sessions` row -/
  | deviceSession (id : Id)
  /-- an entry of `uq_device_sessions_refresh_token_hash` -/
  | refreshTokenHash (hash : String)
  /-- a mark, no lock: a guess of the right PIN, made at this time, has found the
      user not locked -/
  | admitted (userId : Id) (now : Time)
  /-- a mark, no lock: a failed guess locks the user -/
  | locking (userId : Id)
deriving DecidableEq, Repr

/-- The tokens that block: locks, not marks. -/
def Token.isLock : Token → Bool
  | .user _ | .deviceSession _ | .refreshTokenHash _ => true
  | .admitted .. | .locking _ => false

/-- Row locks and index entries are exclusive. -/
def Token.blocks (l l' : Token) : Bool := l.isLock && decide (l = l')

theorem Token.blocks_comm (l l' : Token) : l.blocks l' = l'.blocks l := by
  unfold Token.blocks
  by_cases h : l = l'
  · rw [h]
  · rw [decide_eq_false h, decide_eq_false (Ne.symm h), Bool.and_false, Bool.and_false]

-- ============================================================================
-- Statements
-- ============================================================================

/-- A transaction body of this application. -/
abbrev Body := Prog Db Env Token Exc

namespace Db

def modifyUsers (f : User → User) (db : Db) : Db := { db with users := db.users.map f }

def modifyDeviceSessions (f : DeviceSession → DeviceSession) (db : Db) : Db :=
  { db with deviceSessions := db.deviceSessions.map f }

def addDeviceSession (row : DeviceSession) (db : Db) : Db :=
  { db with deviceSessions := db.deviceSessions ++ [row] }

end Db

/-- `users`. -/
def users : RowTable Db Token User where
  rows := Db.users
  modify := Db.modifyUsers
  lock u := .user u.id

/-- `device_sessions`. -/
def deviceSessions : RowTable Db Token DeviceSession where
  rows := Db.deviceSessions
  modify := Db.modifyDeviceSessions
  lock s := .deviceSession s.id

/-- A SELECT. -/
def query {α : Type} (f : Db → α) : Body α := Prog.read fun v => f v.snap

/-- A SELECT that leaves a mark. -/
def queryMarked {α : Type} (f : Db → α) (marks : α → List Token) : Body α :=
  Prog.stmt (fun v => marks (f v.snap)) (fun _ => id) fun v => .ret (f v.snap)

/-- `device_sessions.create`: an INSERT under the unique index on the token's
    hash.  A second inserter of the same hash waits for the first one. -/
def createDeviceSession (mk : Id → DeviceSession) : Body Unit :=
  let refused := fun (v : View Db Env) => !(mk v.env.fresh).sendable ||
    v.cur.deviceSessions.any fun s => s.refreshTokenHash == (mk v.env.fresh).refreshTokenHash
  Prog.stmt (fun v => [.refreshTokenHash (mk v.env.fresh).refreshTokenHash])
    (fun v => if refused v then id else Db.addDeviceSession (mk v.env.fresh))
    (fun v => if refused v then .throw .prisma else .ret ())

end Kasir.Auth
