/-
  Kasir.Receipts.Service

  `ReceiptsService.findOne`: the receipt of a sale.
-/

import Kasir.Transactions.FindOne
import Kasir.Shifts.Service

namespace Kasir.Receipts

open Txn Js Transactions

-- ============================================================================
-- The record
-- ============================================================================

/-- `receiptSelect`: a sale with its children, ordered by `created_at` and then by
    identifier, and with the parties it names. -/
structure ReceiptRecord where
  transaction : Transaction
  store : Option Tenant
  outlet : Option Outlet
  cashier : Option User
  customer : Option Customer
  items : List ItemRecord
  payments : List Payment
deriving DecidableEq, Repr

def receiptRecordOf (db : Db) (t : Transaction) : ReceiptRecord where
  transaction := t
  store := db.accounts.tenants.find? fun x => x.id == t.tenantId
  outlet := db.accounts.outlets.find? fun x => x.id == t.outletId && x.tenantId == t.tenantId
  cashier := db.accounts.users.find? fun x => x.id == t.userId && x.tenantId == t.tenantId
  customer := db.accounts.customers.find? fun x =>
    some x.id == t.customerId && x.tenantId == t.tenantId
  items :=
    (Shifts.orderById TransactionItem.createdAt TransactionItem.id
      (db.sales.transactionItems.filter (itemOf t))).map fun i =>
        { item := i
          modifiers := Shifts.orderById TransactionItemModifier.createdAt
            TransactionItemModifier.id (db.sales.transactionItemModifiers.filter (modifierOf i)) }
  payments := Shifts.orderById Payment.createdAt Payment.id (db.sales.payments.filter (paymentOf t))

-- ============================================================================
-- The receipt
-- ============================================================================

/-- A store or an outlet. -/
structure Place where
  id : Id
  name : String
  address : Option String
deriving DecidableEq, Repr

structure Person where
  id : Id
  name : String
  phone : Option String := none
  email : Option String := none
deriving DecidableEq, Repr

structure ReceiptModifier where
  id : Id
  modifierGroupId : Option Id
  modifierOptionId : Option Id
  groupName : String
  optionName : String
  priceDelta : Int
deriving DecidableEq, Repr

structure ReceiptItem where
  itemId : Id
  productId : Id
  productName : Option String
  sku : Option String
  quantity : Int
  basePrice : Option Int
  effectivePrice : Option Int
  unitPrice : Int
  subtotal : Int
  note : Option String
  modifiers : List ReceiptModifier
deriving DecidableEq, Repr

structure ReceiptPayment where
  id : Id
  method : PaymentMethod
  status : PaymentStatus
  amount : Int
  amountReceived : Option Int
  changeAmount : Option Int
  provider : Option String
  providerReference : Option String
  paidAt : Option Nat
deriving DecidableEq, Repr

structure Receipt where
  transactionId : Id
  clientTransactionId : Id
  status : TransactionStatus
  createdAt : Nat
  store : Option Place
  outlet : Option Place
  cashier : Option Person
  customer : Option Person
  items : List ReceiptItem
  payment : Option ReceiptPayment
  totals : Totals
  change : Option Int
deriving DecidableEq, Repr

/-- `money`. -/
def money (value : Int) : Except Exc Unit :=
  if value < 0 ∨ maxSafeInteger < value then
    .error (.plain .internalServerError "Receipt value exceeds supported integer range")
  else .ok ()

/-- The payment a receipt shows: the first PAID one, or else the first one. -/
def ReceiptRecord.payment (rec : ReceiptRecord) : Option Payment :=
  (rec.payments.find? fun p => p.status == .paid).or rec.payments.head?

/-- The change of a receipt.  Historical rows stored the tender in `amount`. -/
def ReceiptRecord.change (rec : ReceiptRecord) : Option Int :=
  match rec.payment with
  | none => none
  | some p =>
      if p.method == .cash && p.status == .paid then
        match p.changeAmount with
        | some change => some change
        | none =>
            if p.amountReceived.isNone && decide (p.amount ≥ rec.transaction.total) then
              some (p.amount - rec.transaction.total)
            else none
      else none

/-- A name snapshot identifies a V1 line, whose snapshots are all authoritative. -/
def receiptItem (legacyProducts : Id → Option LegacyProduct) (r : ItemRecord) : ReceiptItem :=
  let i := r.item
  let isV1Snapshot := i.productNameSnapshot.isSome
  let legacyProduct := legacyProducts i.productId
  { itemId := i.id
    productId := i.productId
    productName :=
      if isV1Snapshot then i.productNameSnapshot else legacyProduct.map LegacyProduct.name
    sku := if isV1Snapshot then i.skuSnapshot else legacyProduct.map LegacyProduct.sku
    quantity := i.quantity
    basePrice := if isV1Snapshot then i.basePriceSnapshot else some i.unitPrice
    effectivePrice := if isV1Snapshot then i.effectivePriceSnapshot else some i.unitPrice
    unitPrice := i.unitPrice
    subtotal := i.subtotal
    note := i.noteSnapshot
    modifiers := r.modifiers.map fun m =>
      { id := m.id, modifierGroupId := m.modifierGroupId, modifierOptionId := m.modifierOptionId
        groupName := m.groupNameSnapshot, optionName := m.optionNameSnapshot
        priceDelta := m.priceDeltaSnapshot } }

def receiptPayment (p : Payment) : ReceiptPayment where
  id := p.id
  method := p.method
  status := p.status
  amount := p.amount
  amountReceived := p.amountReceived
  changeAmount := p.changeAmount
  provider := p.provider
  providerReference := p.providerReference
  paidAt := p.paidAt

/-- The amounts that `toReceipt` converts, in its order. -/
def ReceiptRecord.amounts (rec : ReceiptRecord) : List Int :=
  rec.change.toList ++
  (rec.items.flatMap fun r =>
    let i := receiptItem noLegacyProducts r
    i.basePrice.toList ++ i.effectivePrice.toList ++ [i.unitPrice, i.subtotal]) ++
  (rec.payment.toList.flatMap fun p =>
    p.amount :: (p.amountReceived.toList ++ p.changeAmount.toList)) ++
  [rec.transaction.subtotal, rec.transaction.discount, rec.transaction.tax, rec.transaction.total]

/-- The receipt without the range checks. -/
def ReceiptRecord.receipt (rec : ReceiptRecord) (legacyProducts : Id → Option LegacyProduct) :
    Receipt where
  transactionId := rec.transaction.id
  clientTransactionId := rec.transaction.clientTransactionId
  status := rec.transaction.status
  createdAt := rec.transaction.createdAt
  store := rec.store.map fun t => { id := t.id, name := t.name, address := t.address }
  outlet := rec.outlet.map fun o => { id := o.id, name := o.name, address := o.address }
  cashier := rec.cashier.map fun u => { id := u.id, name := u.name }
  customer := rec.customer.map fun c =>
    { id := c.id, name := c.name, phone := c.phone, email := c.email }
  items := rec.items.map (receiptItem legacyProducts)
  payment := rec.payment.map receiptPayment
  totals :=
    { subtotal := rec.transaction.subtotal, discount := rec.transaction.discount
      tax := rec.transaction.tax, total := rec.transaction.total }
  change := rec.change

/-- `toReceipt`. -/
def toReceipt (rec : ReceiptRecord) (legacyProducts : Id → Option LegacyProduct) :
    Except Exc Receipt := do
  rec.amounts.forM money
  .ok (rec.receipt legacyProducts)

-- ============================================================================
-- Finding it
-- ============================================================================

/-- `receiptScope`: unlike `readScope`, it does not look for the outlet. -/
def receiptScope (user : JwtPayload) : Body ReadScope := do
  ensure (isUUID user.sub && isUUID user.tenantId) invalidUserContext
  let actor ← HeldOrders.principal user.normalized
  let tenantId := toLowerCase user.tenantId
  match actor.role with
  | .owner | .admin => pure { tenantId, outletId := none }
  | .cashier => do
      let outletId ← Prog.require actor.outletId outletAccessDenied
      pure { tenantId, outletId := some outletId }

/-- The part of the record that the lookup of legacy products depends on. -/
def ReceiptRecord.sale (rec : ReceiptRecord) : TransactionRecord where
  transaction := rec.transaction
  items := rec.items
  payments := rec.payments

/-- `findOne`: a transaction that only reads, from one state. -/
def findOneBody (user : JwtPayload) (transactionId : String) : Body Receipt := do
  ensure (isUUID transactionId) (.plain .badRequest "Invalid transaction ID")
  let scope ← receiptScope user
  let transaction ← query fun db =>
    (db.sales.transactions.find? fun t => scope.admits t && t.id == toLowerCase transactionId).map
      (receiptRecordOf db)
  let transaction ← Prog.require transaction (.plain .notFound "Receipt not found")
  let legacyProducts ← findLegacyProducts scope.tenantId transaction.sale
  Prog.lift (toReceipt transaction legacyProducts)

/-- What `findOne` answers from a state. -/
def findOne (user : JwtPayload) (transactionId : String) (db : Db) (envs : Nat → Env) :
    Except Exc Receipt :=
  ((findOneBody user transactionId).solo db envs 0 fun d => d).result

end Kasir.Receipts
