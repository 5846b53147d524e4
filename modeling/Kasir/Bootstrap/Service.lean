/-
  Kasir.Bootstrap.Service

  `ProductionBootstrapService`: the call that puts the first tenant, its outlet and its
  owner into an empty production database.

  The three counts and the three inserts run in one Serializable transaction.  No
  unique key keeps two calls apart: each inserts rows of its own.
-/

import Kasir.Js.Sort
import Kasir.Js.Text
import Kasir.Schema
import Kasir.Txn.Serial

namespace Kasir.Bootstrap

open Txn Js

-- ============================================================================
-- Tables
-- ============================================================================

structure Tenant where
  id : Id
  storeCode : Option String
  name : String
  address : Option String
  isActive : Bool
deriving DecidableEq, Repr

structure Outlet where
  id : Id
  tenantId : Id
  name : String
  address : Option String
  isActive : Bool
deriving DecidableEq, Repr

structure User where
  id : Id
  tenantId : Id
  outletId : Option Id
  name : String
  email : String
  passwordHash : String
  pinHash : Option String
  role : Role
  pinFailedAttempts : Nat
  lockedUntil : Option Int
  pinChangedAt : Option Int
  isActive : Bool
deriving DecidableEq, Repr

structure Db where
  tenants : List Tenant := []
  outlets : List Outlet := []
  users : List User := []
deriving DecidableEq, Repr

/-- The primary keys, the unique indexes and the foreign keys. -/
def Db.legal (db : Db) : Bool :=
  distinct Tenant.id db.tenants && distinct Outlet.id db.outlets && distinct User.id db.users &&
    decide (db.tenants.filterMap Tenant.storeCode).Nodup &&
    distinct (fun u => (u.tenantId, u.email)) db.users &&
    (db.outlets.all fun o => db.tenants.any fun t => t.id == o.tenantId) &&
    (db.users.all fun u => db.tenants.any fun t => t.id == u.tenantId)

/-- `^[A-Z0-9-]{3,32}$`, the check of the service and of the column. -/
def storeCodeFormat (s : String) : Bool :=
  s.toList.all (fun c => c.isUpper || c.isDigit || c == '-') && 3 ≤ s.length && s.length ≤ 32

def Tenant.fits (t : Tenant) : Bool :=
  (t.storeCode.all fun code => varchar 32 code && storeCodeFormat code) && varchar 100 t.name &&
    t.address.all storable

def Outlet.fits (o : Outlet) : Bool := varchar 100 o.name && o.address.all storable

def User.fits (u : User) : Bool :=
  varchar 100 u.name && varchar 255 u.email && storable u.passwordHash && u.pinHash.all storable

-- ============================================================================
-- Inputs
-- ============================================================================

structure BootstrapInputs where
  storeCode : String
  tenantName : String
  tenantAddress : Option String := none
  outletName : String
  outletAddress : Option String := none
  ownerName : String
  ownerEmail : String
  ownerPassword : String
  ownerPin : String
deriving DecidableEq, Repr

structure BootstrapResult where
  tenantId : Id
  storeCode : String
  outletId : Id
  ownerId : Id
  ownerEmail : String
deriving DecidableEq, Repr

inductive Error
  | message (text : String)
  /-- What Prisma throws when the database refuses a statement or the commit. -/
  | prisma
deriving DecidableEq, Repr

/-- `!s || s.trim().length === 0`. -/
def blank (s : String) : Bool := s == "" || utf16Length (trim s) == 0

/-- `/^[^\s@]+@[^\s@]+\.[^\s@]+$/`: one `@`, and behind it a dot that is neither the
    first nor the last character. -/
def emailFormat (s : String) : Bool :=
  let plain := fun c => !isSpace c && c != '@'
  let isLocal := s.toList.takeWhile fun c => c != '@'
  match s.toList.dropWhile fun c => c != '@' with
  | [] => false
  | _ :: domain =>
      isLocal != [] && isLocal.all plain && domain.all plain && (domain.tail.dropLast).contains '.'

/-- `/^\d{6}$/`. -/
def pinFormat (s : String) : Bool := s.toList.all Char.isDigit && s.length == 6

/-- A check of `validateInputs`. -/
def check (ok : Bool) (text : String) : Except Error Unit :=
  if ok then .ok () else .error (.message text)

/-- `validateInputs`. -/
def validateInputs (inputs : BootstrapInputs) : Except Error Unit := do
  check (storeCodeFormat inputs.storeCode) "Store code must match ^[A-Z0-9-]\x7b3,32\x7d$"
  check (!blank inputs.tenantName) "Tenant name is required"
  check (utf16Length inputs.tenantName ≤ 100) "Tenant name exceeds 100 characters"
  check (!blank inputs.outletName) "Outlet name is required"
  check (utf16Length inputs.outletName ≤ 100) "Outlet name exceeds 100 characters"
  check (!blank inputs.ownerName) "Owner name is required"
  check (utf16Length inputs.ownerName ≤ 150) "Owner name exceeds 150 characters"
  check (emailFormat inputs.ownerEmail) "Valid email is required"
  check (utf16Length inputs.ownerEmail ≤ 255) "Email exceeds 255 characters"
  check (inputs.ownerPassword != "") "Owner password is required"
  check (inputs.ownerPassword.utf8ByteSize ≤ 72) "Password exceeds bcrypt 72-byte limit"
  check (pinFormat inputs.ownerPin) "PIN must be exactly 6 digits"

-- ============================================================================
-- bootstrap
-- ============================================================================

/-- What the outside world supplies to a statement. -/
structure Env where
  fresh : Id

abbrev Body := Prog Db Env Empty Error

/-- An INSERT, which the columns may refuse. -/
def create {ρ : Type} (fits : ρ → Bool) (add : ρ → Db → Db) (row : Id → ρ) : Body ρ :=
  Prog.stmt (fun _ => [])
    (fun v => if fits (row v.env.fresh) then add (row v.env.fresh) else id)
    (fun v => if fits (row v.env.fresh) then .ret (row v.env.fresh) else .throw .prisma)

def Db.addTenant (t : Tenant) (db : Db) : Db := { db with tenants := db.tenants ++ [t] }

def Db.addOutlet (o : Outlet) (db : Db) : Db := { db with outlets := db.outlets ++ [o] }

def Db.addUser (u : User) (db : Db) : Db := { db with users := db.users ++ [u] }

/-- A call; `passwordHash` and `pinHash` are what `bcrypt.hash` yields to it and `now`
    is its clock. -/
structure Call where
  inputs : BootstrapInputs
  passwordHash : String
  pinHash : String
  now : Int

def newTenant (inputs : BootstrapInputs) (id : Id) : Tenant where
  id := id
  storeCode := some inputs.storeCode
  name := inputs.tenantName
  -- `inputs.tenantAddress || null`
  address := inputs.tenantAddress.filter fun address => address ≠ ""
  isActive := true

def newOutlet (inputs : BootstrapInputs) (tenantId id : Id) : Outlet where
  id := id
  tenantId := tenantId
  name := inputs.outletName
  address := inputs.outletAddress.filter fun address => address ≠ ""
  isActive := true

def newOwner (c : Call) (tenantId id : Id) : User where
  id := id
  tenantId := tenantId
  outletId := none
  name := c.inputs.ownerName
  email := c.inputs.ownerEmail
  passwordHash := c.passwordHash
  pinHash := some c.pinHash
  role := .owner
  pinFailedAttempts := 0
  lockedUntil := none
  pinChangedAt := some c.now
  isActive := true

def refused : Error := .message "Production bootstrap refused: business data already exists"

/-- The transaction of `bootstrap`. -/
def bootstrap (c : Call) : Body BootstrapResult := do
  let tenantCount ← Prog.read fun v => v.snap.tenants.length
  let userCount ← Prog.read fun v => v.snap.users.length
  let outletCount ← Prog.read fun v => v.snap.outlets.length
  if tenantCount > 0 || userCount > 0 || outletCount > 0 then Prog.throw refused
  else do
    let tenant ← create Tenant.fits Db.addTenant (newTenant c.inputs)
    let outlet ← create Outlet.fits Db.addOutlet (newOutlet c.inputs tenant.id)
    let owner ← create User.fits Db.addUser (newOwner c tenant.id)
    pure
      { tenantId := tenant.id
        storeCode := tenant.storeCode.getD c.inputs.storeCode
        outletId := outlet.id
        ownerId := owner.id
        ownerEmail := owner.email }

/-- Bootstrap on its database. -/
def application : App Db Env Empty Error Error Call BootstrapResult where
  precheck c :=
    match validateInputs c.inputs with
    | .ok () => none
    | .error e => some e
  iso _ := .serializable
  body := bootstrap
  handle _ _ e := some e
  fault e := e == .prisma
  blocks l := nomatch l
  legal := Db.legal

abbrev State := Sys Db Env Empty Error Error Call BootstrapResult

end Kasir.Bootstrap
