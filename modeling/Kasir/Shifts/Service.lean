/-
  Kasir.Shifts.Service

  `ShiftsService`: open, close and summary.
-/

import Kasir.HeldOrders.Service
import Kasir.Js.Number

namespace Kasir.Shifts

open Txn Js Transactions

-- ============================================================================
-- Actor
-- ============================================================================

/-- `ActorContext`. -/
structure ActorContext where
  tenantId : Id
  userId : Id
  role : Role
  outletId : Option Id
deriving DecidableEq, Repr

/-- `actorContext`. -/
def actorContext (user : JwtPayload) : Body ActorContext := do
  ensure (isUUID user.sub && isUUID user.tenantId) invalidUserContext
  let actor ← HeldOrders.principal user.normalized
  pure { tenantId := toLowerCase user.tenantId, userId := toLowerCase user.sub
         role := actor.role, outletId := actor.outletId }

-- ============================================================================
-- Summary
-- ============================================================================

structure ProductQuantity where
  productId : Id
  productName : String
  quantity : Int
deriving DecidableEq, Repr

structure ShiftTotals where
  sales : Int
  cash : Int
  qris : Int
  edc : Int
deriving DecidableEq, Repr

/-- `{ select: { id: true, name: true } }`. -/
structure NamedRow where
  id : Id
  name : String
deriving DecidableEq, Repr

/-- `ShiftRecord`: a shift with its outlet and its user. -/
structure ShiftRecord extends CashierSession where
  outlets : Option NamedRow
  users : Option NamedRow
deriving DecidableEq, Repr

/-- `shiftSelect`. -/
def shiftSelect (accounts : Accounts) (s : CashierSession) : ShiftRecord where
  toCashierSession := s
  outlets := (accounts.outlets.find? fun o =>
    o.id == s.outletId && o.tenantId == s.tenantId).map fun o => ⟨o.id, o.name⟩
  users := (accounts.users.find? fun u =>
    u.id == s.userId && u.tenantId == s.tenantId).map fun u => ⟨u.id, u.name⟩

@[simp] theorem shiftSelect_toCashierSession (accounts : Accounts) (s : CashierSession) :
    (shiftSelect accounts s).toCashierSession = s := rfl

/-- What `deriveSummary` computes of the sales. -/
structure ShiftFigures where
  shiftId : Id
  status : SessionStatus
  transactionCount : Nat
  totals : ShiftTotals
  products : List ProductQuantity
deriving DecidableEq, Repr

/-- The answer of `deriveSummary`. -/
structure ShiftSummary extends ShiftFigures where
  outlet : Option NamedRow
  cashier : Option NamedRow
  openedAt : Nat
  closedAt : Option Nat
  generatedAt : Nat
deriving DecidableEq, Repr

/-- The COMPLETED sales of a shift. -/
def saleOf (tenantId shiftId : Id) (t : Transaction) : Bool :=
  t.tenantId == tenantId && t.cashierSessionId == some shiftId && t.status == .completed

/-- A row of the summary's second query. -/
structure SummarySale where
  payments : List (PaymentMethod × Int)
  items : List (TransactionItem × Option String)
deriving DecidableEq, Repr

/-- The text of the identifiers decides ties of `created_at`. -/
def orderById {α : Type} (key : α → Nat) (id : α → Id) (rows : List α) : List α :=
  rows.insertionSort fun a b => key a < key b ∨ (key a = key b ∧ id a ≤ id b)

theorem orderById_perm {α : Type} (key : α → Nat) (id : α → Id) (rows : List α) :
    (orderById key id rows).Perm rows := List.perm_insertionSort _ rows

/-- The sales of the shift with their PAID payments and their items. -/
def summarySales (tenantId shiftId : Id) (db : Db) : List SummarySale :=
  (orderById Transaction.createdAt Transaction.id
    (db.sales.transactions.filter (saleOf tenantId shiftId))).map fun t =>
      { payments := (db.sales.payments.filter fun p =>
            paymentOf t p && p.tenantId == tenantId && p.status == .paid).map fun p =>
              (p.method, p.amount)
        items := (orderById (fun _ => 0) TransactionItem.id
          (db.sales.transactionItems.filter fun i => itemOf t i && i.tenantId == tenantId)).map
            fun i => (i, (db.catalog.products.find? fun p =>
              p.id == i.productId && p.tenantId == i.tenantId).map Product.name) }

def unknownProduct : String := "Unknown product"

/-- One item joins the list of products.  Quantities are numbers, amounts are bigints. -/
def addProduct (productId : Id) (name : String) (quantity : Int) :
    List ProductQuantity → List ProductQuantity
  | [] => [{ productId, productName := name, quantity }]
  | p :: ps =>
      if p.productId == productId then
        { p with
          quantity := addNumber p.quantity quantity
          productName :=
            if p.productName == unknownProduct && name != unknownProduct then name
            else p.productName } :: ps
      else p :: addProduct productId name quantity ps

/-- The products of all items, in the order of their first sale. -/
def productQuantities (sales : List SummarySale) : List ProductQuantity :=
  (sales.flatMap SummarySale.items).foldl
    (fun ps x =>
      addProduct x.1.productId ((x.1.productNameSnapshot.or x.2).getD unknownProduct)
        x.1.quantity ps)
    []

/-- The amounts paid by one method. -/
def paidBy (method : PaymentMethod) (sales : List SummarySale) : Int :=
  (((sales.flatMap SummarySale.payments).filter fun p => p.1 == method).map Prod.snd).sum

/-- `assertSafeMoney`. -/
def assertSafeMoney (value : Int) : Except Exc Unit :=
  if value < -maxSafeInteger ∨ maxSafeInteger < value then
    .error (.plain .internalServerError "Shift cash value exceeds supported integer range")
  else .ok ()

/-- `optionalMoney`. -/
def optionalMoney (value : Option Int) : Except Exc Unit :=
  match value with
  | none => .ok ()
  | some value => assertSafeMoney value

/-- The first query of `deriveSummary`: number and sum of totals. -/
def aggregateSales (tenantId shiftId : Id) (db : Db) : Nat × Int :=
  let sales := db.sales.transactions.filter (saleOf tenantId shiftId)
  (sales.length, (sales.map Transaction.total).sum)

/-- The figures of a shift from the results of the two queries. -/
def summarize (shift : CashierSession) (aggregate : Nat × Int) (sales : List SummarySale) :
    ShiftFigures where
  shiftId := shift.id
  status := shift.status
  transactionCount := aggregate.1
  totals :=
    { sales := aggregate.2, cash := paidBy .cash sales, qris := paidBy .qris sales
      edc := paidBy .edc sales }
  products := productQuantities sales

/-- The figures with what is shown of the shift. -/
def summaryOf (shift : ShiftRecord) (figures : ShiftFigures) (now : Nat) : ShiftSummary where
  toShiftFigures := figures
  outlet := shift.outlets
  cashier := shift.users
  openedAt := shift.openedAt
  closedAt := shift.closedAt
  generatedAt := now

/-- `deriveSummary`. -/
def deriveSummary (tenantId : Id) (shift : ShiftRecord) : Body ShiftSummary := do
  let aggregate ← query (aggregateSales tenantId shift.id)
  let (sales, now) ← queryNow (summarySales tenantId shift.id)
  let figures := summarize shift.toCashierSession aggregate sales
  Prog.lift ([figures.totals.sales, figures.totals.cash, figures.totals.qris,
    figures.totals.edc].forM assertSafeMoney)
  pure (summaryOf shift figures now)

-- ============================================================================
-- Open
-- ============================================================================

inductive ReconciliationMode
  | legacy
  | none
deriving DecidableEq, Repr

/-- `toResponse`: the shift and how it was reconciled. -/
structure ShiftResponse where
  shift : CashierSession
  reconciliationMode : ReconciliationMode
deriving DecidableEq, Repr

def shiftResponse (shift : CashierSession) : ShiftResponse where
  shift := shift
  reconciliationMode :=
    if shift.openingCash.isSome || shift.closingCash.isSome || shift.expectedCash.isSome ||
      shift.difference.isSome then .legacy else .none

def toResponse (shift : CashierSession) : Except Exc ShiftResponse := do
  [shift.openingCash, shift.closingCash, shift.expectedCash, shift.difference].forM optionalMoney
  .ok (shiftResponse shift)

/-- `alreadyOpen`. -/
def alreadyOpen : Exc := .coded .conflict "User already has an open shift" "SHIFT_ALREADY_OPEN"

def outletAccessDenied : Exc := .coded .forbidden "Outlet access denied" "OUTLET_ACCESS_DENIED"

/-- `validDto(OpenShiftDto)`. -/
def prepareOpen (outletId : String) : Except Exc Id :=
  if isUUID outletId then .ok (toLowerCase outletId)
  else .error (.coded .badRequest "Invalid shift input" "INVALID_INPUT")

/-- An open session of the user. -/
def openSessionOf (tenantId userId : Id) (s : CashierSession) : Bool :=
  s.tenantId == tenantId && s.userId == userId && s.status == .open

/-- The row of a new shift. -/
def sessionRow (actor : ActorContext) (outletId : Id) (env : Env) : CashierSession where
  id := env.fresh 0
  tenantId := actor.tenantId
  outletId := outletId
  userId := actor.userId
  openingCash := none
  closingCash := none
  expectedCash := none
  difference := none
  status := .open
  openedAt := env.now
  closedAt := none

/-- The transaction of `open`. -/
def openBody (user : JwtPayload) (outletId : String) : Body ShiftResponse := do
  let outletId ← Prog.lift (prepareOpen outletId)
  let actor ← actorContext user
  ensure (!(actor.role == .cashier && actor.outletId != some outletId)) outletAccessDenied
  HeldOrders.findOutlet actor.tenantId outletId
  let activeShift ← query fun db =>
    db.cashierSessions.find? (openSessionOf actor.tenantId actor.userId)
  ensure activeShift.isNone alreadyOpen
  let shift ← insertUnique (.openUser actor.tenantId actor.userId)
    (fun env => [.sessionInserted (env.fresh 0)])
    (fun db => db.cashierSessions.any (openSessionOf actor.tenantId actor.userId))
    .cashierSessionsOpenUser (sessionRow actor outletId) Db.addCashierSession
  Prog.lift (toResponse shift)

-- ============================================================================
-- Close
-- ============================================================================

/-- What `close` and `summary` check first. -/
def prepareShift (id : String) : Except Exc Id :=
  if isUUID id then .ok (toLowerCase id) else .error (.plain .badRequest "Invalid shift ID")

/-- The shift of the tenant with this id. -/
def shiftOf (tenantId shiftId : Id) (s : CashierSession) : Bool :=
  s.id == shiftId && s.tenantId == tenantId

def findShift (tenantId shiftId : Id) (e : Exc) : Body ShiftRecord := do
  let shift ← query fun db =>
    (db.cashierSessions.find? (shiftOf tenantId shiftId)).map (shiftSelect db.accounts)
  Prog.require shift e

/-- An OPEN held order of the shift. -/
def openOrderOf (tenantId shiftId : Id) (o : HeldOrder) : Bool :=
  o.tenantId == tenantId && o.originCashierSessionId == shiftId && o.status == .open

/-- The row of a closed shift. -/
def closedRow (env : Env) (s : CashierSession) : CashierSession :=
  { s with status := .closed, closingCash := none, expectedCash := none, difference := none
           closedAt := some env.now }

/-- The OPEN to CLOSED transition. -/
def closeSession (tenantId shiftId : Id) : Body Unit := do
  let updated ← updateMany cashierSessions (fun s => [.closing s.id])
    (fun _ s => shiftOf tenantId shiftId s && s.status == .open) closedRow (fun _ => true)
  ensure (updated == 1) (.coded .conflict "Shift was already closed" "SHIFT_ALREADY_CLOSED")

/-- The transaction of `close`.  The session is locked before the OPEN orders are
    counted. -/
def closeBody (user : JwtPayload) (id : String) : Body ShiftResponse := do
  let shiftId ← Prog.lift (prepareShift id)
  let actor ← actorContext user
  let shift ← findShift actor.tenantId shiftId (.plain .notFound "Shift not found")
  ensure (!(actor.role == .cashier && shift.userId != actor.userId))
    (.coded .forbidden "Cashier can only close their own shift" "SHIFT_ACCESS_DENIED")
  ensure (shift.status == .open)
    (.coded .conflict "Shift is already closed" "SHIFT_ALREADY_CLOSED")
  selectSessionForUpdate shift.id actor.tenantId
  let openHeldOrders ← query fun db =>
    db.held.heldOrders.countP (openOrderOf actor.tenantId shift.id)
  ensure (openHeldOrders == 0)
    (.http { status := .conflict, message := "Shift has OPEN Held Orders"
             errorCode := some "OPEN_HELD_ORDERS_EXIST"
             detail := .openHeldOrderCount openHeldOrders })
  let _ ← deriveSummary actor.tenantId shift
  closeSession actor.tenantId shift.id
  let closedShift ← findShift actor.tenantId shift.id
    (.plain .internalServerError "Unable to read closed shift")
  Prog.lift (toResponse closedShift.toCashierSession)

-- ============================================================================
-- Reading a summary
-- ============================================================================

/-- The transaction of `summary`. -/
def summaryBody (user : JwtPayload) (id : String) : Body ShiftSummary := do
  let shiftId ← Prog.lift (prepareShift id)
  let actor ← actorContext user
  let shift ← findShift actor.tenantId shiftId
    (.coded .notFound "Shift not found" "SHIFT_NOT_FOUND")
  ensure (!(actor.role == .cashier && shift.userId != actor.userId))
    (.coded .forbidden "Shift access denied" "SHIFT_ACCESS_DENIED")
  deriveSummary actor.tenantId shift

-- ============================================================================
-- Errors
-- ============================================================================

/-- The error handling of `serializableWrite`: attempts 0, 1 and 2. -/
def handleWrite (opening : Bool) (attempt : Nat) (e : Exc) : Option Exc :=
  match e with
  | .http _ => some e
  | .prisma (.P2002 _) => if opening then some alreadyOpen else some e
  | .prisma .P2034 =>
      if attempt < 2 then none
      else some (.coded .serviceUnavailable "Shift changed concurrently; please retry"
        "SHIFT_RETRY_REQUIRED")
  | .prisma _ => some e

end Kasir.Shifts
