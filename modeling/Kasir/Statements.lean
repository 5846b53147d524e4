/-
  Kasir.Statements

  The database statements the services are written with, as transaction bodies.

  - `query`: a SELECT; it sees the statement's snapshot.
  - `insert`: an INSERT of rows whose keys nobody else can hold.
  - `insertUnique`: an INSERT under a unique index.  A second inserter of the
    same entry waits for the first one, then sees whether it committed.
  - `updateMany`: an UPDATE with a WHERE.  It locks the rows that satisfy the
    condition.  At Read Committed snapshot and committed state are one state
    here, because a statement that waits is a statement sent later; in a
    transaction with a fixed snapshot a row that has changed since raises P2034.
-/

import Kasir.Schema
import Kasir.Txn.System

namespace Kasir

open Txn

/-- A transaction body of this application. -/
abbrev Body := Prog Db Env Token Exc

/-- `Prisma.TransactionClient`: the transaction a service works in, known by its
    isolation level. -/
abbrev TransactionClient := Isolation

/-- The largest value of an INTEGER column. -/
def int4Max : Int := 2147483647

/-- `Number.MAX_SAFE_INTEGER`. -/
def maxSafeInteger : Int := 9007199254740991

/-- The value can be stored in a nullable `VARCHAR(n)` column. -/
def fitsVarchar (n : Nat) (s : Option String) : Bool := s.all (varchar n)

-- ============================================================================
-- Changes to the tables
-- ============================================================================

namespace Db

def addTransaction (t : Transaction) (db : Db) : Db :=
  { db with sales := { db.sales with transactions := db.sales.transactions ++ [t] } }

def addTransactionItems (rows : List TransactionItem) (db : Db) : Db :=
  { db with sales := { db.sales with transactionItems := db.sales.transactionItems ++ rows } }

def addTransactionItemModifiers (rows : List TransactionItemModifier) (db : Db) : Db :=
  { db with sales := { db.sales with
      transactionItemModifiers := db.sales.transactionItemModifiers ++ rows } }

def addPayment (p : Payment) (db : Db) : Db :=
  { db with sales := { db.sales with payments := db.sales.payments ++ [p] } }

def modifyTransactions (f : Transaction → Transaction) (db : Db) : Db :=
  { db with sales := { db.sales with transactions := db.sales.transactions.map f } }

def addProductStocks (rows : List ProductStock) (db : Db) : Db :=
  { db with stocks := { db.stocks with productStocks := db.stocks.productStocks ++ rows } }

def modifyProductStocks (f : ProductStock → ProductStock) (db : Db) : Db :=
  { db with stocks := { db.stocks with productStocks := db.stocks.productStocks.map f } }

def addStockMovements (rows : List StockMovement) (db : Db) : Db :=
  { db with stocks := { db.stocks with stockMovements := db.stocks.stockMovements ++ rows } }

def addStockAdjustment (row : StockAdjustment) (db : Db) : Db :=
  { db with stocks := { db.stocks with stockAdjustments := db.stocks.stockAdjustments ++ [row] } }

def addCashierSession (row : CashierSession) (db : Db) : Db :=
  { db with cashierSessions := db.cashierSessions ++ [row] }

def modifyCashierSessions (f : CashierSession → CashierSession) (db : Db) : Db :=
  { db with cashierSessions := db.cashierSessions.map f }

def addHeldOrder (row : HeldOrder) (db : Db) : Db :=
  { db with held := { db.held with heldOrders := db.held.heldOrders ++ [row] } }

def modifyHeldOrders (f : HeldOrder → HeldOrder) (db : Db) : Db :=
  { db with held := { db.held with heldOrders := db.held.heldOrders.map f } }

def addHeldOrderItems (rows : List HeldOrderItem) (db : Db) : Db :=
  { db with held := { db.held with heldOrderItems := db.held.heldOrderItems ++ rows } }

def addHeldOrderItemModifiers (rows : List HeldOrderItemModifier) (db : Db) : Db :=
  { db with held := { db.held with
      heldOrderItemModifiers := db.held.heldOrderItemModifiers ++ rows } }

/-- Delete the items with these identifiers; their modifiers go with them
    (ON DELETE CASCADE). -/
def removeHeldOrderItems (ids : List Id) (db : Db) : Db :=
  { db with held := { db.held with
      heldOrderItems := db.held.heldOrderItems.filter fun i => !ids.contains i.id
      heldOrderItemModifiers := db.held.heldOrderItemModifiers.filter fun m =>
        !ids.contains m.heldOrderItemId } }

def modifyCatalog (f : Catalog → Catalog) (db : Db) : Db := { db with catalog := f db.catalog }

end Db

-- ============================================================================
-- Statements
-- ============================================================================

/-- A SELECT. -/
def query {α : Type} (f : Db → α) : Body α := Prog.read fun v => f v.snap

/-- A SELECT whose rows the database may return in any order. -/
def queryRanked {α : Type} (f : (Id → Nat) → Db → α) : Body α :=
  Prog.read fun v => f v.env.rank v.snap

/-- A SELECT, with the time at which it was answered. -/
def queryNow {α : Type} (f : Db → α) : Body (α × Nat) := Prog.read fun v => (f v.snap, v.env.now)

/-- An INSERT of what `mk` makes of the generated identifiers and the clock. -/
def insert {α : Type} (mk : Env → α) (add : α → Db → Db) : Body α :=
  Prog.write (fun v => add (mk v.env)) fun v => mk v.env

/-- An INSERT of several rows; no statement is sent for none. -/
def createMany {α : Type} (n : Nat) (mk : Env → List α) (add : List α → Db → Db) : Body Unit :=
  if n = 0 then Prog.ret () else insert mk add >>= fun _ => Prog.ret ()

/-- An INSERT of a row whose entry in a unique index is `entry`; `taken` tells
    whether a committed row has the entry already. -/
def insertUnique {α : Type} (entry : Token) (marks : Env → List Token) (taken : Db → Bool)
    (index : UniqueIndex) (mk : Env → α) (add : α → Db → Db) : Body α :=
  Prog.stmt (fun v => entry :: marks v.env)
    (fun v => if taken v.cur then id else add (mk v.env))
    (fun v => if taken v.cur then .throw (.prisma (.P2002 index)) else .ret (mk v.env))

/-- A table whose rows are updated in place: its rows, how to change them, and
    the lock of a row, which identifies it. -/
structure Table (ρ : Type) where
  rows : Db → List ρ
  modify : (ρ → ρ) → Db → Db
  lock : ρ → Token

/-- `product_stocks`. -/
def productStocks : Table ProductStock where
  rows db := db.stocks.productStocks
  modify := Db.modifyProductStocks
  lock s := .stock s.outletId s.productId

/-- `cashier_sessions`. -/
def cashierSessions : Table CashierSession where
  rows db := db.cashierSessions
  modify := Db.modifyCashierSessions
  lock s := .session s.id

/-- `held_orders`. -/
def heldOrders : Table HeldOrder where
  rows db := db.held.heldOrders
  modify := Db.modifyHeldOrders
  lock o := .order o.id

/-- The change of an UPDATE: the rows whose locks are in `hit` are changed. -/
def Table.change {ρ : Type} (table : Table ρ) (hit : List Token) (f : ρ → ρ) (db : Db) : Db :=
  table.modify (fun r => if table.lock r ∈ hit then f r else r) db

/-- An UPDATE of the rows that satisfy `p`; it returns their number.  `fits`
    tells whether the new values fit their columns. -/
def updateMany {ρ : Type} [DecidableEq ρ] (table : Table ρ) (marks : ρ → List Token)
    (p : Db → ρ → Bool) (f : Env → ρ → ρ) (fits : ρ → Bool) : Body Nat :=
  let hits := fun (db : Db) => (table.rows db).filter (p db)
  Prog.stmt
    (fun v => (hits v.snap).map table.lock ++ (hits v.snap).flatMap marks)
    (fun v => table.change ((hits v.snap).map table.lock) (f v.env))
    (fun v =>
      if (hits v.snap).all fun r => r ∈ table.rows v.cur then
        if (hits v.snap).all fun r => fits (f v.env r) then .ret (hits v.snap).length
        else .throw (.prisma .other)
      else .throw (.prisma .P2034))

/-- `SELECT … FOR UPDATE` of a session.  A session that is not there cannot be
    locked; the mark left instead blocks nobody. -/
def selectSessionForUpdate (id tenantId : Id) : Body Unit :=
  Prog.lock fun v =>
    if v.snap.cashierSessions.any fun s => s.id == id && s.tenantId == tenantId then
      [.session id]
    else [.sessionSought id]

/-- The body goes on only if the condition holds. -/
abbrev ensure (c : Bool) (e : Exc) : Body Unit := Prog.guard c e

end Kasir
