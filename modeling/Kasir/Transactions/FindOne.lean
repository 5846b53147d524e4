/-
  Kasir.Transactions.FindOne

  `TransactionsService.findOne`: one sale, as its readers may see it.
-/

import Kasir.HeldOrders.Service

namespace Kasir.Transactions

open Txn Js

-- ============================================================================
-- Scope
-- ============================================================================

/-- The sales a user may see: those of the tenant, and of one outlet for a cashier. -/
structure ReadScope where
  tenantId : Id
  outletId : Option Id
deriving DecidableEq, Repr

def ReadScope.admits (scope : ReadScope) (t : Transaction) : Bool :=
  t.tenantId == scope.tenantId && scope.outletId.all fun outletId => t.outletId == outletId

def outletAccessDenied : Exc := .plain .forbidden "Outlet access denied"

/-- `readScope` without a requested outlet. -/
def readScope (user : JwtPayload) : Body ReadScope := do
  ensure (isUUID user.sub && isUUID user.tenantId) invalidUserContext
  let actor ← HeldOrders.principal user.normalized
  let tenantId := toLowerCase user.tenantId
  match actor.role with
  | .owner | .admin => pure { tenantId, outletId := none }
  | .cashier => do
      let outletId ← Prog.require actor.outletId outletAccessDenied
      let outlet ← query fun db => db.accounts.outlets.find? fun o =>
        o.id == outletId && o.tenantId == tenantId
      ensure outlet.isSome (.plain .notFound "Outlet not found")
      pure { tenantId, outletId := some outletId }

-- ============================================================================
-- Products of lines without snapshots
-- ============================================================================

/-- The products of the items that have no snapshot. -/
def TransactionRecord.legacyProductIds (rec : TransactionRecord) : List Id :=
  ((rec.items.filter fun i => i.item.productNameSnapshot.isNone).map
    fun i => i.item.productId).eraseDups

/-- The names of the given products, as they are now. -/
def selectLegacyProducts (tenantId : Id) (ids : List Id) (db : Db) : List Product :=
  db.catalog.products.filter fun p => p.tenantId == tenantId && ids.contains p.id

/-- `new Map(legacyProducts.map((p) => [p.id, p]))`. -/
def legacyMap (products : List Product) (id : Id) : Option LegacyProduct :=
  (products.find? fun p => p.id == id).map fun p => { name := p.name, sku := p.sku }

/-- One lookup for all such products, and none if there are none. -/
def loadLegacyProducts (tenantId : Id) (ids : List Id) : Body (List Product) :=
  if ids.length > 0 then query (selectLegacyProducts tenantId ids) else pure []

def findLegacyProducts (tenantId : Id) (rec : TransactionRecord) :
    Body (Id → Option LegacyProduct) := do
  let products ← loadLegacyProducts tenantId rec.legacyProductIds
  pure (legacyMap products)

-- ============================================================================
-- The sale
-- ============================================================================

/-- `findOne`: a transaction that only reads, from one state. -/
def findOneBody (user : JwtPayload) (id : String) : Body TransactionResponse := do
  ensure (isUUID id) (.plain .badRequest "Invalid transaction ID")
  let scope ← readScope user
  let transaction ← queryRanked fun rank db =>
    (db.sales.transactions.find? fun t => scope.admits t && t.id == toLowerCase id).map
      (recordOf db.sales rank)
  let transaction ← Prog.require transaction (.plain .notFound "Transaction not found")
  let legacyProducts ← findLegacyProducts scope.tenantId transaction
  Prog.lift (toResponse transaction legacyProducts)

/-- What `findOne` answers from a state. -/
def findOne (user : JwtPayload) (id : String) (db : Db) (envs : Nat → Env) :
    Except Exc TransactionResponse :=
  ((findOneBody user id).solo db envs 0 fun d => d).result

end Kasir.Transactions
