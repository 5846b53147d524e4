/-
  Kasir.HeldOrders.Service

  `HeldOrdersService`: create, update, cancel and checkout.
-/

import Kasir.HeldOrders.Pricing

namespace Kasir.HeldOrders

open Txn Js Transactions

-- ============================================================================
-- Records and responses
-- ============================================================================

structure HeldItemRecord where
  item : HeldOrderItem
  modifiers : List HeldOrderItemModifier
deriving DecidableEq, Repr

/-- `detailInclude`: an order with its cashier's name, its lines in display order
    and their modifiers. -/
structure HeldOrderRecord where
  order : HeldOrder
  cashierName : Option String
  items : List HeldItemRecord
deriving DecidableEq, Repr

def heldItemOf (o : HeldOrder) (i : HeldOrderItem) : Bool :=
  i.heldOrderId == o.id && i.tenantId == o.tenantId

def heldModifierOf (i : HeldOrderItem) (m : HeldOrderItemModifier) : Bool :=
  m.heldOrderItemId == i.id && m.tenantId == i.tenantId

def heldRecordOf (db : Db) (rank : Id → Nat) (o : HeldOrder) : HeldOrderRecord where
  order := o
  cashierName := (db.accounts.users.find? fun u =>
    u.id == o.cashierUserId && u.tenantId == o.tenantId).map User.name
  items :=
    (orderBy rank HeldOrderItem.displayOrder HeldOrderItem.id
      (db.held.heldOrderItems.filter (heldItemOf o))).map fun i =>
        { item := i
          modifiers := orderBy rank HeldOrderItemModifier.createdAt HeldOrderItemModifier.id
            (db.held.heldOrderItemModifiers.filter (heldModifierOf i)) }

/-- `toDetail`: the record, and the role of the actor where the caller passes it. -/
structure HeldOrderDetail where
  record : HeldOrderRecord
  actorRole : Option Role
deriving DecidableEq, Repr

/-- `CheckoutHeldOrderResult`. -/
structure CheckoutHeldOrderResult where
  transaction : TransactionResponse
  replayed : Bool
deriving DecidableEq, Repr

-- ============================================================================
-- Errors
-- ============================================================================

def heldOrderNotFound : Exc := .coded .notFound "Held order not found" "HELD_ORDER_NOT_FOUND"

def versionConflict : Exc :=
  .coded .conflict "Held order version is stale" "HELD_ORDER_VERSION_CONFLICT"

def heldOrderNotOpen : Exc := .coded .conflict "Held order is not open" "HELD_ORDER_NOT_OPEN"

def resourceConflict (message : String) : Exc :=
  .coded .conflict message "HELD_ORDER_RESOURCE_CONFLICT"

-- ============================================================================
-- Authorization
-- ============================================================================

/-- `actorContext`. -/
def actorContext (user : JwtPayload) : Except Exc JwtPayload :=
  if !isUUID user.sub || !isUUID user.tenantId then .error invalidUserContext
  else .ok user.normalized

/-- `principal`: the active user of an active tenant. -/
def principal (user : JwtPayload) : Body User := do
  let principal ← query fun db => db.accounts.users.find? fun u =>
    u.id == user.sub && u.tenantId == user.tenantId && u.isActive &&
      db.accounts.tenants.any fun t => t.id == u.tenantId && t.isActive
  Prog.require principal (.plain .unauthorized "User or tenant is inactive")

/-- The orders an actor may see. -/
structure Scope where
  tenantId : Id
  outletId : Option Id
deriving DecidableEq, Repr

def Scope.contains (scope : Scope) (o : HeldOrder) : Bool :=
  o.tenantId == scope.tenantId &&
  (match scope.outletId with
    | none => true
    | some outletId => o.outletId == outletId)

def findOutlet (tenantId outletId : Id) : Body Unit := do
  let outlet ← query fun db => db.accounts.outlets.find? fun o =>
    o.id == outletId && o.tenantId == tenantId && o.isActive
  ensure outlet.isSome (.plain .notFound "Outlet not found")

/-- `readScope` without a requested outlet. -/
def readScope (user : JwtPayload) : Body Scope := do
  let principal ← principal user
  match principal.role with
  | .owner | .admin => pure { tenantId := user.tenantId, outletId := none }
  | .cashier => do
      let outletId ← Prog.require principal.outletId (.plain .forbidden "Outlet access denied")
      findOutlet user.tenantId outletId
      pure { tenantId := user.tenantId, outletId := some outletId }

def activeTenant (tenantId : Id) : Body Tenant := do
  let tenant ← query fun db => db.accounts.tenants.find? fun t => t.id == tenantId && t.isActive
  Prog.require tenant (.plain .unauthorized "Tenant is inactive")

/-- `authorizeWrite`.  The origin session is locked before it is validated. -/
def authorizeWrite (user : JwtPayload) (outletId sessionId : Id) : Body (Tenant × User) := do
  let principal ← principal user
  ensure (!(principal.role == .cashier && principal.outletId != some outletId))
    (.coded .forbidden "Outlet access denied" "OUTLET_ACCESS_DENIED")
  let tenant ← activeTenant user.tenantId
  findOutlet user.tenantId outletId
  selectSessionForUpdate sessionId user.tenantId
  let session ← query fun db => db.cashierSessions.find? (ownOpenSession user (some sessionId))
  let session ← Prog.require session
    (.coded .forbidden "Cashier session is not open or owned by this actor"
      "INVALID_CASHIER_SESSION")
  ensure (session.outletId == outletId)
    (.coded .forbidden "Cashier session outlet does not match held order outlet"
      "SESSION_OUTLET_MISMATCH")
  pure (tenant, principal)

-- ============================================================================
-- Lines
-- ============================================================================

/-- The active options among the given ones. -/
def selectOptions (tenantId : Id) (ids : List Id) (db : Db) : List ModifierOption :=
  db.catalog.modifierOptions.filter fun o =>
    o.tenantId == tenantId && ids.contains o.id && o.isActive

/-- The options the lines select. -/
def requestedOptionIds (items : List CreateTransactionItemDto) : List Id :=
  (items.flatMap fun i => i.modifierOptionIds.getD []).eraseDups

/-- `resolveItems`. -/
def resolveItems (tenantId : Id) (rawItems : List CreateTransactionItemDto) :
    Body (List ResolvedItem) := do
  let items := rawItems.map CreateTransactionItemDto.normalized
  let ids := uniqueProductIds items
  let products ← query (selectProducts tenantId ids)
  ensure (products.length == ids.length)
    (.coded .conflict "One or more products are unavailable" "HELD_ORDER_CATALOG_CONFLICT")
  let assignments ← query (selectAssignments tenantId ids)
  let optionIds := requestedOptionIds items
  let options ←
    if optionIds.length > 0 then query (selectOptions tenantId optionIds) else pure []
  Prog.lift (resolveLines { products, assignments, options } items)

/-- The row of a line. -/
def itemRow (tenantId heldOrderId : Id) (i : ResolvedItem) (displayOrder : Nat) (env : Env) :
    HeldOrderItem where
  id := env.fresh 0
  tenantId := tenantId
  heldOrderId := heldOrderId
  productId := i.product.id
  quantity := i.quantity
  productNameSnapshot := i.product.name
  skuSnapshot := i.product.sku
  basePriceSnapshot := i.product.price
  effectivePriceSnapshot := i.effectivePrice
  lineSubtotal := i.lineTotal
  lineDiscount := 0
  lineTotal := i.lineTotal
  noteSnapshot := i.note
  displayOrder := displayOrder

/-- The rows of the options of a line. -/
def modifierRows (tenantId heldOrderItemId : Id) (options : List ResolvedOption) (env : Env) :
    List HeldOrderItemModifier :=
  options.zipIdx.map fun x =>
    { id := env.fresh x.2, tenantId, heldOrderItemId
      modifierGroupId := some x.1.modifierGroupId, modifierOptionId := some x.1.id
      groupNameSnapshot := x.1.groupName, optionNameSnapshot := x.1.optionName
      priceDeltaSnapshot := x.1.priceDelta, createdAt := env.now }

def persistItem (tenantId heldOrderId : Id) (x : ResolvedItem × Nat) : Body Unit := do
  ensure (fitsVarchar 255 x.1.note) (.prisma .other)
  let persisted ← insert (itemRow tenantId heldOrderId x.1 x.2)
    fun row => Db.addHeldOrderItems [row]
  createMany x.1.options.length (modifierRows tenantId persisted.id x.1.options)
    Db.addHeldOrderItemModifiers

/-- `persistItems`. -/
def persistItems (tenantId heldOrderId : Id) (items : List ResolvedItem) : Body Unit := do
  let _ ← Prog.each (persistItem tenantId heldOrderId) items.zipIdx
  pure ()

/-- `deleteMany` of the lines of an order, whose row is locked. -/
def deleteItems (tenantId heldOrderId : Id) : Body Unit :=
  Prog.write
    (fun v => Db.removeHeldOrderItems
      ((v.snap.held.heldOrderItems.filter fun i =>
        i.tenantId == tenantId && i.heldOrderId == heldOrderId).map HeldOrderItem.id))
    fun _ => ()

-- ============================================================================
-- Create
-- ============================================================================

/-- What `create` does before it opens a transaction. -/
def prepareCreate (user : JwtPayload) (input : CreateHeldOrderDto) :
    Except Exc (JwtPayload × CreateHeldOrderDto) := do
  let actor ← actorContext user
  let dto := { input with items := input.items.map CreateTransactionItemDto.transformed }
  if dto.valid then .ok (actor, normalizeCreate dto) else .error invalidHeldOrderInput

/-- The row of a new order. -/
def orderRow (actor : JwtPayload) (dto : CreateHeldOrderDto) (estimates : Estimates) (env : Env) :
    HeldOrder where
  id := env.fresh 0
  tenantId := actor.tenantId
  outletId := dto.outletId
  originCashierSessionId := dto.cashierSessionId
  cashierUserId := actor.sub
  label := label dto.label
  status := .open
  version := 1
  subtotalEstimate := estimates.subtotalEstimate
  taxEstimate := estimates.taxEstimate
  totalEstimate := estimates.totalEstimate
  convertedTransactionId := none
  createdAt := env.now
  cancelledAt := none
  convertedAt := none

/-- The order with this id and tenant, with its details. -/
def findRecord (tenantId orderId : Id) (e : Exc) : Body HeldOrderRecord := do
  let record ← queryRanked fun rank db =>
    (db.held.heldOrders.find? fun o => o.id == orderId && o.tenantId == tenantId).map
      (heldRecordOf db rank)
  Prog.require record e

/-- The transaction of `create`. -/
def createBody (user : JwtPayload) (input : CreateHeldOrderDto) : Body HeldOrderDetail := do
  let (actor, dto) ← Prog.lift (prepareCreate user input)
  let (tenant, principal) ← authorizeWrite actor dto.outletId dto.cashierSessionId
  let resolved ← resolveItems actor.tenantId dto.items
  let estimates ← Prog.lift (totals resolved tenant)
  ensure (fitsVarchar 100 (label dto.label)) (.prisma .other)
  let order ← insert (orderRow actor dto estimates) Db.addHeldOrder
  persistItems actor.tenantId order.id resolved
  let created ← findRecord actor.tenantId order.id
    (resourceConflict "Held order changed during creation")
  pure { record := created, actorRole := some principal.role }

-- ============================================================================
-- Update and cancel
-- ============================================================================

/-- What the methods on an existing order check first; they work on the
    lower-case identifier. -/
def prepareOrder (user : JwtPayload) (id : String) : Except Exc (JwtPayload × Id) := do
  let actor ← actorContext user
  if isUUID id then .ok (actor, toLowerCase id)
  else .error (.plain .badRequest "Invalid held order ID")

/-- The order in the actor's scope. -/
def findInScope (scope : Scope) (orderId : Id) : Body HeldOrderRecord := do
  let record ← queryRanked fun rank db =>
    (db.held.heldOrders.find? fun o => scope.contains o && o.id == orderId).map
      (heldRecordOf db rank)
  Prog.require record heldOrderNotFound

/-- `assertOpenVersion`. -/
def assertOpenVersion (order : HeldOrder) (expectedVersion : Int) : Except Exc Unit :=
  if order.status ≠ .open then .error heldOrderNotOpen
  else if order.version ≠ expectedVersion then .error versionConflict
  else .ok ()

/-- The condition of every compare-and-swap on an order. -/
def openAt (tenantId orderId : Id) (version : Int) (o : HeldOrder) : Bool :=
  o.id == orderId && o.tenantId == tenantId && o.status == .open && o.version == version

/-- The new version fits its column. -/
def versionFits (o : HeldOrder) : Bool := decide (o.version ≤ int4Max)

/-- A compare-and-swap on an order. -/
def swapOrder (tenantId orderId : Id) (version : Int) (f : Env → HeldOrder → HeldOrder)
    (fits : HeldOrder → Bool) (e : Exc) : Body Unit := do
  let updated ← updateMany heldOrders (fun _ => []) (fun _ o => openAt tenantId orderId version o)
    f fits
  ensure (updated == 1) e

/-- What `update` does before it opens a transaction. -/
def prepareUpdate (user : JwtPayload) (id : String) (input : UpdateHeldOrderDto) :
    Except Exc (JwtPayload × Id × UpdateHeldOrderDto) := do
  let (actor, orderId) ← prepareOrder user id
  let dto := { input with
    items := input.items.map fun items => items.map CreateTransactionItemDto.transformed }
  if dto.valid then .ok (actor, orderId, dto) else .error invalidHeldOrderInput

/-- The resolved lines and estimates of an update that carries lines. -/
def reprice (tenantId : Id) (items : List CreateTransactionItemDto) :
    Body (List ResolvedItem × Estimates) := do
  let tenant ← activeTenant tenantId
  let resolved ← resolveItems tenantId items
  let estimates ← Prog.lift (totals resolved tenant)
  pure (resolved, estimates)

/-- `reprice`, if there are lines. -/
def repriceIf (tenantId : Id) (items : Option (List CreateTransactionItemDto)) :
    Body (Option (List ResolvedItem × Estimates)) :=
  match items with
  | none => pure none
  | some items => do
      let repriced ← reprice tenantId items
      pure (some repriced)

/-- The row after an update. -/
def updatedRow (newLabel : Option (Option String)) (estimates : Option Estimates)
    (o : HeldOrder) : HeldOrder :=
  let o :=
    match newLabel with
    | none => o
    | some value => { o with label := label value }
  let o :=
    match estimates with
    | none => o
    | some e =>
        { o with subtotalEstimate := e.subtotalEstimate, taxEstimate := e.taxEstimate
                 totalEstimate := e.totalEstimate }
  { o with version := o.version + 1 }

/-- The lines of an order are replaced. -/
def replaceItems (tenantId orderId : Id) (resolved : Option (List ResolvedItem)) : Body Unit :=
  match resolved with
  | none => pure ()
  | some resolved => do
      deleteItems tenantId orderId
      persistItems tenantId orderId resolved

/-- The transaction of `update`. -/
def updateBody (user : JwtPayload) (id : String) (input : UpdateHeldOrderDto) :
    Body HeldOrderDetail := do
  let (actor, orderId, dto) ← Prog.lift (prepareUpdate user id input)
  let scope ← readScope actor
  let current ← findInScope scope orderId
  Prog.lift (assertOpenVersion current.order dto.expectedVersion)
  let repriced ← repriceIf actor.tenantId dto.items
  swapOrder actor.tenantId orderId dto.expectedVersion
    (fun _ => updatedRow dto.label (repriced.map Prod.snd))
    (fun o => versionFits o && fitsVarchar 100 o.label) versionConflict
  replaceItems actor.tenantId orderId (repriced.map Prod.fst)
  let result ← findRecord actor.tenantId orderId
    (resourceConflict "Held order changed during update")
  pure { record := result, actorRole := none }

/-- The row after a cancellation. -/
def cancelledRow (env : Env) (o : HeldOrder) : HeldOrder :=
  { o with status := .cancelled, cancelledAt := some env.now, version := o.version + 1 }

/-- The transaction of `cancel`. -/
def cancelBody (user : JwtPayload) (id : String) (input : CancelHeldOrderDto) :
    Body HeldOrderDetail := do
  let (actor, orderId) ← Prog.lift (prepareOrder user id)
  let scope ← readScope actor
  let current ← findInScope scope orderId
  Prog.lift (assertOpenVersion current.order input.expectedVersion)
  swapOrder actor.tenantId orderId input.expectedVersion cancelledRow versionFits versionConflict
  let result ← findRecord actor.tenantId orderId
    (resourceConflict "Held order changed during cancellation")
  pure { record := result, actorRole := none }

-- ============================================================================
-- Checkout
-- ============================================================================

/-- What `checkout` does before it opens a transaction. -/
def prepareCheckout (user : JwtPayload) (id : String) (input : CheckoutHeldOrderDto) :
    Except Exc (JwtPayload × Id × CheckoutHeldOrderDto) := do
  let (actor, orderId) ← prepareOrder user id
  if input.valid then .ok (actor, orderId, input) else .error invalidHeldOrderInput

/-- The sale line of a persisted sale line. -/
def replayItem (r : ItemRecord) : CreateTransactionItemDto where
  productId := r.item.productId
  quantity := r.item.quantity
  modifierOptionIds := some (r.modifiers.filterMap TransactionItemModifier.modifierOptionId)
  note := r.item.noteSnapshot

/-- The sale with this key, its lines and their modifiers in any order. -/
def findLinked (tenantId clientTransactionId : Id) : Body (Option TransactionRecord) :=
  queryRanked fun rank db =>
    (db.sales.transactions.find? (hasKey tenantId clientTransactionId)).map fun t =>
      { transaction := t
        items := (unordered rank TransactionItem.id
          (db.sales.transactionItems.filter (itemOf t))).map fun i =>
            { item := i
              modifiers := unordered rank TransactionItemModifier.id
                (db.sales.transactionItemModifiers.filter (modifierOf i)) }
        payments := unordered rank Payment.id (db.sales.payments.filter (paymentOf t)) }

/-- The request an already converted order is compared with. -/
def replayDto (order : HeldOrder) (existing : TransactionRecord) (dto : CheckoutHeldOrderDto) :
    CheckoutDto where
  clientTransactionId := toLowerCase dto.clientTransactionId
  outletId := order.outletId
  cashierSessionId := some order.originCashierSessionId
  discount := some existing.transaction.discount
  items := existing.items.map replayItem
  payment := dto.payment

/-- The branch for an order that is already CONVERTED. -/
def replayConversion (tx : TransactionClient) (actor : JwtPayload) (order : HeldOrder)
    (dto : CheckoutHeldOrderDto) : Body CheckoutHeldOrderResult := do
  let existing ← findLinked actor.tenantId (toLowerCase dto.clientTransactionId)
  let existing ← Prog.require existing
    (.coded .conflict "Held order is converted but linked transaction not found"
      "HELD_ORDER_CONVERTED_NO_LINK")
  ensure (some existing.transaction.id == order.convertedTransactionId)
    (.coded .conflict "Held order converted to a different transaction"
      "HELD_ORDER_LINK_MISMATCH")
  let result ← executeTransactionCore tx actor (replayDto order existing dto) .v1
  pure { transaction := result, replayed := true }

/-- The sale line of a held line: no snapshot prices. -/
def checkoutItem (r : HeldItemRecord) : CreateTransactionItemDto where
  productId := r.item.productId
  quantity := r.item.quantity
  modifierOptionIds := some (r.modifiers.filterMap HeldOrderItemModifier.modifierOptionId)
  note := r.item.noteSnapshot

/-- The sale request built from a held order. -/
def heldCheckoutDto (record : HeldOrderRecord) (dto : CheckoutHeldOrderDto) : CheckoutDto where
  clientTransactionId := toLowerCase dto.clientTransactionId
  outletId := record.order.outletId
  cashierSessionId := some record.order.originCashierSessionId
  discount := some 0
  items := record.items.map checkoutItem
  payment := dto.payment

/-- Outlet access of a cashier, by the role the token claims. -/
def checkOutletAccess (actor : JwtPayload) (order : HeldOrder) : Body Unit :=
  if actor.role == "CASHIER" then do
    let principal ← query fun db => db.accounts.users.find? fun u =>
      u.id == actor.sub && u.tenantId == actor.tenantId
    ensure ((principal.bind User.outletId) == some order.outletId)
      (.coded .forbidden "Outlet access denied" "OUTLET_ACCESS_DENIED")
  else pure ()

/-- The origin session is open, at the order's outlet and of the order's cashier. -/
def checkOriginSession (actor : JwtPayload) (order : HeldOrder) : Body Unit := do
  let session ← query fun db => db.cashierSessions.find? fun s =>
    s.id == order.originCashierSessionId && s.tenantId == actor.tenantId && s.status == .open &&
      s.closedAt.isNone
  let session ← Prog.require session
    (.coded .forbidden "Origin cashier session is not open or closed" "INVALID_CASHIER_SESSION")
  ensure (session.outletId == order.outletId)
    (.coded .forbidden "Origin cashier session outlet does not match held order outlet"
      "SESSION_OUTLET_MISMATCH")
  ensure (session.userId == order.cashierUserId)
    (.coded .forbidden "Origin cashier session user does not match held order cashier"
      "SESSION_USER_MISMATCH")

/-- The claim: the version goes up, the order stays OPEN. -/
def claimedRow (o : HeldOrder) : HeldOrder := { o with version := o.version + 1 }

/-- The terminal transition. -/
def convertedRow (transactionId : Id) (env : Env) (o : HeldOrder) : HeldOrder :=
  { o with status := .converted, convertedTransactionId := some transactionId
           convertedAt := some env.now }

/-- The branch for an OPEN order: claim, sell, mark CONVERTED. -/
def convertOpen (tx : TransactionClient) (actor : JwtPayload) (orderId : Id)
    (record : HeldOrderRecord) (dto : CheckoutHeldOrderDto) : Body CheckoutHeldOrderResult := do
  checkOutletAccess actor record.order
  checkOriginSession actor record.order
  swapOrder actor.tenantId orderId dto.expectedVersion (fun _ => claimedRow) versionFits
    versionConflict
  let result ← executeTransactionCore tx actor (heldCheckoutDto record dto) .v1
  swapOrder actor.tenantId orderId (dto.expectedVersion + 1) (convertedRow result.transactionId)
    versionFits (resourceConflict "Held order changed after claim")
  pure { transaction := result, replayed := false }

/-- `convertHeldOrder`. -/
def convertHeldOrder (tx : TransactionClient) (actor : JwtPayload) (orderId : Id)
    (dto : CheckoutHeldOrderDto) : Body CheckoutHeldOrderResult := do
  let scope ← readScope actor
  let record ← findInScope scope orderId
  if record.order.status = .converted then replayConversion tx actor record.order dto
  else do
    Prog.lift (assertOpenVersion record.order dto.expectedVersion)
    convertOpen tx actor orderId record dto

/-- The transaction of `checkout`. -/
def checkoutBody (user : JwtPayload) (id : String) (input : CheckoutHeldOrderDto) :
    Body CheckoutHeldOrderResult := do
  let (actor, orderId, dto) ← Prog.lift (prepareCheckout user id input)
  convertHeldOrder .serializable actor orderId dto

/-- The error handling of `checkout`: attempts 1, 2 and 3, counted from 0. -/
def handleCheckout (attempt : Nat) (e : Exc) : Option Exc :=
  match e with
  | .http _ => some e
  | .prisma (.P2002 .transactionsClientId) | .prisma .P2034 =>
      if attempt < 2 then none
      else some (.coded .serviceUnavailable "Please retry with the same client_transaction_id"
        "TRANSACTION_RETRY_REQUIRED")
  | .prisma .P2003 | .prisma .P2025 =>
      some (.coded .conflict "A conversion resource changed; please retry"
        "TRANSACTION_RESOURCE_CONFLICT")
  | .prisma _ =>
      some (.coded .internalServerError "Unable to convert held order"
        "HELD_ORDER_CONVERSION_FAILED")

end Kasir.HeldOrders
