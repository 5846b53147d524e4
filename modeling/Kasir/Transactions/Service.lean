/-
  Kasir.Transactions.Service

  `TransactionsService`: `create`, `createLegacySync` and the sale core
  `executeTransactionCore`, which held-order conversion shares.
-/

import Kasir.Transactions.Checkout
import Kasir.Statements

namespace Kasir.Transactions

open Txn

-- ============================================================================
-- Authorization and idempotency
-- ============================================================================

/-- The acting user and tenant, both active.  The role check that follows in the
    source admits every role the database admits. -/
def authorize (user : JwtPayload) : Body (User × Tenant) := do
  let actor ← query fun db => db.accounts.users.find? fun u =>
    u.id == user.sub && u.tenantId == user.tenantId && u.isActive
  let tenant ← query fun db => db.accounts.tenants.find? fun t =>
    t.id == user.tenantId && t.isActive
  match actor, tenant with
  | some actor, some tenant => pure (actor, tenant)
  | _, _ => Prog.throw (.plain .unauthorized "User or tenant is inactive")

/-- The row has this entry of `uq_transactions_client_id`. -/
def hasKey (tenantId clientTransactionId : Id) (t : Transaction) : Bool :=
  t.tenantId == tenantId && t.clientTransactionId == clientTransactionId

/-- The transaction with this key, with its children. -/
def findByKey (tenantId clientTransactionId : Id) : Body (Option TransactionRecord) :=
  queryRanked fun rank db =>
    (db.sales.transactions.find? (hasKey tenantId clientTransactionId)).map
      (recordOf db.sales rank)

-- ============================================================================
-- Operational checks
-- ============================================================================

/-- The session is the actor's own and open. -/
def ownOpenSession (user : JwtPayload) (sessionId : Option Id) (s : CashierSession) : Bool :=
  some s.id == sessionId && s.tenantId == user.tenantId && s.userId == user.sub &&
    s.status == .open

/-- The explicitly supplied session.  A plain SELECT: at Read Committed nothing
    keeps the session as it was read, which the mark records. -/
def findSession (tx : TransactionClient) (user : JwtPayload) (sessionId : Option Id) :
    Body (Option CashierSession) :=
  Prog.stmt
    (fun v =>
      match tx, v.snap.cashierSessions.find? (ownOpenSession user sessionId) with
      | .readCommitted, some s => [.sessionRead s.id]
      | _, _ => [])
    (fun _ => id)
    (fun v => .ret (v.snap.cashierSessions.find? (ownOpenSession user sessionId)))

def checkSession (tx : TransactionClient) (user : JwtPayload) (dto : CheckoutDto)
    (mode : CheckoutMode) : Body Unit :=
  match mode with
  | .legacySync => pure ()
  | .v1 => do
      let session ← findSession tx user dto.cashierSessionId
      let session ← Prog.require session
        (.coded .forbidden
          "Cashier session not found, not open, or does not belong to this actor"
          "INVALID_CASHIER_SESSION")
      ensure (session.outletId == dto.outletId)
        (.coded .forbidden "Cashier session outlet does not match transaction outlet"
          "SESSION_OUTLET_MISMATCH")

/-- Outlet, customer and the right to give a discount. -/
def checkParties (user : JwtPayload) (actor : User) (dto : CheckoutDto) : Body Unit := do
  let outlet ← query fun db => db.accounts.outlets.find? fun o =>
    o.id == dto.outletId && o.tenantId == user.tenantId && o.isActive
  ensure outlet.isSome (.plain .notFound "Outlet not found")
  match dto.customerId with
  | none => pure ()
  | some customerId =>
      let customer ← query fun db => db.accounts.customers.find? fun c =>
        c.id == customerId && c.tenantId == user.tenantId
      ensure customer.isSome (.plain .notFound "Customer not found")
  ensure (!(decide (dto.discount.getD 0 > 0) && actor.role == .cashier))
    (.plain .forbidden "Manual discount requires OWNER or ADMIN")

-- ============================================================================
-- Loading the catalog
-- ============================================================================

/-- The distinct products of the lines. -/
def uniqueProductIds (items : List CreateTransactionItemDto) : List Id :=
  (items.map CreateTransactionItemDto.productId).eraseDups

/-- The active products among the given ones. -/
def selectProducts (tenantId : Id) (ids : List Id) (db : Db) : List Product :=
  db.catalog.products.filter fun p =>
    p.tenantId == tenantId && p.isActive && ids.contains p.id

/-- The group an assignment refers to. -/
def groupOf (catalog : Catalog) (a : ProductModifierGroup) : Option ModifierGroup :=
  catalog.modifierGroups.find? fun g => g.id == a.modifierGroupId && g.tenantId == a.tenantId

/-- The assignments of the given products to active groups.  The order of rows
    decides only which of several violated rules is reported. -/
def selectAssignments (tenantId : Id) (ids : List Id) (db : Db) : List LoadedAssignment :=
  (db.catalog.productModifierGroups.filter fun a =>
      a.tenantId == tenantId && ids.contains a.productId).filterMap fun a =>
    match groupOf db.catalog a with
    | some g =>
        if g.isActive then
          some { productId := a.productId, modifierGroupId := a.modifierGroupId
                 required := a.required, selectionType := a.selectionType, groupName := g.name }
        else none
    | none => none

/-- The active options of the given groups. -/
def selectGroupOptions (tenantId : Id) (groupIds : List Id) (db : Db) : List ModifierOption :=
  db.catalog.modifierOptions.filter fun o =>
    o.tenantId == tenantId && groupIds.contains o.modifierGroupId && o.isActive

/-- Products, assignments and options of the lines. -/
def loadCatalog (tenantId : Id) (items : List CreateTransactionItemDto) :
    Body LoadedCatalog := do
  let ids := uniqueProductIds items
  let products ← query (selectProducts tenantId ids)
  ensure (products.length == ids.length)
    (.plain .notFound "One or more products not found or inactive")
  let assignments ← query (selectAssignments tenantId ids)
  let groupIds := (assignments.map LoadedAssignment.modifierGroupId).eraseDups
  let options ←
    if groupIds.length > 0 then query (selectGroupOptions tenantId groupIds) else pure []
  pure { products, assignments, options }

-- ============================================================================
-- Writing the sale
-- ============================================================================

/-- The row of a new sale. -/
def transactionRow (user : JwtPayload) (dto : CheckoutDto) (totals : Totals) (env : Env) :
    Transaction where
  id := env.fresh 0
  tenantId := user.tenantId
  outletId := dto.outletId
  userId := user.sub
  customerId := dto.customerId
  cashierSessionId := dto.cashierSessionId
  clientTransactionId := dto.clientTransactionId
  status := .pending
  subtotal := totals.subtotal
  discount := totals.discount
  tax := totals.tax
  total := totals.total
  createdAt := env.now

/-- The row of a line. -/
def itemRow (user : JwtPayload) (transactionId : Id) (i : ValidatedItem) (env : Env) :
    TransactionItem where
  id := env.fresh 0
  tenantId := user.tenantId
  transactionId := transactionId
  productId := i.product.id
  quantity := i.quantity
  unitPrice := i.effectivePrice
  unitCost := i.product.cost
  subtotal := i.lineSubtotal
  productNameSnapshot := some i.product.name
  skuSnapshot := some i.product.sku
  basePriceSnapshot := some i.product.price
  effectivePriceSnapshot := some i.effectivePrice
  noteSnapshot := i.note
  createdAt := env.now

/-- Lines are created one by one, so that each identifier stays with its line. -/
def createItem (user : JwtPayload) (transactionId : Id) (i : ValidatedItem) :
    Body TransactionItem := do
  ensure (fitsVarchar 255 i.note) (.prisma .other)
  insert (itemRow user transactionId i) fun row => Db.addTransactionItems [row]

/-- The snapshots of the options of a line, still without identifiers. -/
def modifierRows (user : JwtPayload) (transactionId : Id) (i : ValidatedItem)
    (row : TransactionItem) : List TransactionItemModifier :=
  i.options.map fun o =>
    { id := "", tenantId := user.tenantId, transactionId, transactionItemId := row.id
      modifierGroupId := some o.modifierGroupId, modifierOptionId := some o.id
      groupNameSnapshot := o.groupName, optionNameSnapshot := o.optionName
      priceDeltaSnapshot := o.priceDelta, createdAt := 0 }

/-- The snapshots of all lines, each paired with the row of its line. -/
def modifierSnapshots (user : JwtPayload) (transactionId : Id) (items : List ValidatedItem)
    (rows : List TransactionItem) : List TransactionItemModifier :=
  (List.zipWith (modifierRows user transactionId) items rows).flatten

/-- Rows as `createMany` stores them. -/
def TransactionItemModifier.stored (rows : List TransactionItemModifier) (env : Env) :
    List TransactionItemModifier :=
  rows.zipIdx.map fun x => { x.1 with id := env.fresh x.2, createdAt := env.now }

/-- The `product_stocks` row can give `qty`. -/
def stockRow (user : JwtPayload) (outletId productId : Id) (db : Db) (s : ProductStock) : Bool :=
  s.outletId == outletId && s.productId == productId &&
    (db.accounts.outlets.any fun o => o.id == s.outletId && o.tenantId == user.tenantId) &&
    (db.catalog.products.any fun p => p.id == s.productId && p.tenantId == user.tenantId)

/-- Check and decrement in one statement. -/
def decrementStock (user : JwtPayload) (outletId : Id) (entry : Id × Int) : Body Unit := do
  -- the quantity is sent as an INTEGER
  ensure (decide (entry.2 ≤ int4Max)) (.prisma .other)
  let updated ← updateMany productStocks (fun _ => [])
    (fun db s => stockRow user outletId entry.1 db s && decide (s.stock ≥ entry.2))
    (fun _ s => { s with stock := s.stock - entry.2 }) (fun _ => true)
  ensure (updated == 1)
    (.http { status := .conflict, message := "Insufficient stock"
             errorCode := some "INSUFFICIENT_STOCK", detail := .productId entry.1 })

/-- The movements of a sale. -/
def movementRows (user : JwtPayload) (outletId transactionId : Id) (entries : List (Id × Int))
    (env : Env) : List StockMovement :=
  entries.zipIdx.map fun x =>
    { id := env.fresh x.2, tenantId := user.tenantId, outletId, productId := x.1.1
      userId := user.sub, type := .sale, quantity := -x.1.2
      referenceType := some "TRANSACTION", referenceId := some transactionId, reason := none }

/-- The payment of a sale. -/
def paymentRow (user : JwtPayload) (transactionId : Id) (method : PaymentMethod) (total : Int)
    (tender : Option Int) (env : Env) : Payment where
  id := env.fresh 0
  tenantId := user.tenantId
  transactionId := transactionId
  method := method
  status := .paid
  amount := total
  amountReceived := tender
  changeAmount := tender.map fun t => t - total
  paidAt := some env.now
  createdAt := env.now

/-- The status change of one transaction. -/
def complete (id tenantId : Id) (t : Transaction) : Transaction :=
  if t.id == id && t.tenantId == tenantId then { t with status := .completed } else t

/-- The last statement of a sale: its row becomes COMPLETED and is read back. -/
def completeTransaction (id tenantId : Id) : Body (Option TransactionRecord) :=
  Prog.write (fun _ => Db.modifyTransactions (complete id tenantId)) fun v =>
    let sales := (v.snap.modifyTransactions (complete id tenantId)).sales
    (sales.transactions.find? fun t => t.id == id && t.tenantId == tenantId).map
      (recordOf sales v.env.rank)

/-- Write a validated sale. -/
def persist (user : JwtPayload) (dto : CheckoutDto) (items : List ValidatedItem)
    (totals : Totals) (tender : Option Int) : Body TransactionRecord := do
  let transaction ← insertUnique (.saleKey user.tenantId dto.clientTransactionId) (fun _ => [])
    (fun db => db.sales.transactions.any (hasKey user.tenantId dto.clientTransactionId))
    .transactionsClientId (transactionRow user dto totals) Db.addTransaction
  let rows ← Prog.each (createItem user transaction.id) items
  let snapshots := modifierSnapshots user transaction.id items rows
  createMany snapshots.length (TransactionItemModifier.stored snapshots)
    Db.addTransactionItemModifiers
  let entries := stockByProduct items
  let _ ← Prog.each (decrementStock user dto.outletId) entries
  createMany entries.length (movementRows user dto.outletId transaction.id entries)
    Db.addStockMovements
  let _ ← insert (paymentRow user transaction.id dto.payment.method totals.total tender)
    Db.addPayment
  let completed ← completeTransaction transaction.id user.tenantId
  Prog.require completed (.prisma .P2025)

-- ============================================================================
-- The sale core
-- ============================================================================

/-- The part of `checkout` after the idempotency lookup found nothing. -/
def sell (tx : TransactionClient) (user : JwtPayload) (dto : CheckoutDto) (mode : CheckoutMode)
    (actor : User) (tenant : Tenant) : Body TransactionResponse := do
  checkSession tx user dto mode
  checkParties user actor dto
  let catalog ← loadCatalog user.tenantId dto.items
  let items ← Prog.lift (validateItems catalog dto.items)
  let totals ← Prog.lift (checkoutTotals tenant (dto.discount.getD 0) items)
  let tender ← Prog.lift (checkTender dto.payment totals.total)
  let completed ← persist user dto items totals tender
  -- serialized before the commit, so that a range failure rolls the sale back
  Prog.lift (toResponse completed noLegacyProducts)

/-- `checkout`. -/
def checkout (tx : TransactionClient) (user : JwtPayload) (dto : CheckoutDto)
    (mode : CheckoutMode) : Body TransactionResponse := do
  let (actor, tenant) ← authorize user
  let existing ← findByKey user.tenantId dto.clientTransactionId
  match existing with
  | some existing => do
      Prog.lift (assertSameRequest existing user dto)
      Prog.lift (toResponse existing noLegacyProducts)
  | none => sell tx user dto mode actor tenant

/-- What the core makes of its input before it touches the database. -/
def prepareCore (dto : CheckoutDto) (mode : CheckoutMode) : Except Exc CheckoutDto := do
  let validated ← assertCheckoutInput dto mode
  let normalized := normalizeCheckoutDto validated mode
  assertPaymentShape normalized
  .ok normalized

/-- `executeTransactionCore`. -/
def executeTransactionCore (tx : TransactionClient) (user : JwtPayload) (dto : CheckoutDto)
    (mode : CheckoutMode) : Body TransactionResponse := do
  let normalized ← Prog.lift (prepareCore dto mode)
  checkout tx user normalized mode

-- ============================================================================
-- Entry points
-- ============================================================================

/-- What `createInternal` does before it opens a transaction. -/
def prepare (user : JwtPayload) (input : CheckoutDto) (mode : CheckoutMode) :
    Except Exc (JwtPayload × CheckoutDto) :=
  if !Js.isUUID user.sub || !Js.isUUID user.tenantId then .error invalidUserContext
  else do
    let dto ← assertCheckoutInput input mode
    assertPaymentShape dto
    .ok (user.normalized, normalizeCheckoutDto dto mode)

/-- The transaction of `createInternal`. -/
def createBody (user : JwtPayload) (input : CheckoutDto) (mode : CheckoutMode) :
    Body TransactionResponse := do
  let (actorContext, normalizedDto) ← Prog.lift (prepare user input mode)
  executeTransactionCore .readCommitted actorContext normalizedDto mode

/-- What `createLegacySync` checks first. -/
def prepareLegacySync (dto : LegacySyncTransactionDto) : Except Exc CheckoutDto :=
  if !dto.valid then
    .error (.coded .badRequest "Invalid legacy sync transaction" "INVALID_INPUT")
  else .ok dto.toCheckoutDto

/-- The error handling of `createInternal`: attempts 0, 1 and 2. -/
def handleCreate (attempt : Nat) (e : Exc) : Option Exc :=
  match e with
  | .http _ => some e
  | .prisma (.P2002 .transactionsClientId) | .prisma .P2034 =>
      if attempt < 2 then none
      else some (.coded .serviceUnavailable "Please retry with the same client_transaction_id"
        "TRANSACTION_RETRY_REQUIRED")
  | .prisma .P2003 | .prisma .P2025 =>
      some (.coded .conflict "A transaction resource changed; please retry"
        "TRANSACTION_RESOURCE_CONFLICT")
  | .prisma _ => some (.plain .internalServerError "Unable to create transaction")

end Kasir.Transactions
