/-
  Kasir.Stock.Service

  `StockService.createAdjustment`.
-/

import Kasir.Transactions.Service

namespace Kasir.Stock

open Txn Js Transactions

/-- `CreateStockAdjustmentDto`. -/
structure CreateStockAdjustmentDto where
  outletId : String
  productId : String
  adjustmentType : AdjustmentType
  quantity : Int
  reason : Option String := none
deriving DecidableEq, Repr

/-- The rules the request pipe applies. -/
def CreateStockAdjustmentDto.valid (dto : CreateStockAdjustmentDto) : Bool :=
  isUUID dto.outletId && isUUID dto.productId && decide (1 ≤ dto.quantity) &&
    (match dto.reason with
      | none => true
      | some reason => reason.toList.any fun c => !isSpace c)

/-- `DEFAULT_STOCK_ADJUSTMENT_REASON`. -/
def defaultReason : String := "Manual stock adjustment"

/-- The identifiers of a request as the uuid columns they are compared with hold
    them. -/
structure Scope where
  tenantId : Id
  outletId : Id
  productId : Id
deriving DecidableEq, Repr

def scopeOf (user : JwtPayload) (dto : CreateStockAdjustmentDto) : Scope where
  tenantId := toLowerCase user.tenantId
  outletId := toLowerCase dto.outletId
  productId := toLowerCase dto.productId

/-- The `product_stocks` row of the scope. -/
def Scope.contains (scope : Scope) (db : Db) (s : ProductStock) : Bool :=
  s.outletId == scope.outletId && s.productId == scope.productId &&
    (db.accounts.outlets.any fun o => o.id == s.outletId && o.tenantId == scope.tenantId) &&
    (db.catalog.products.any fun p => p.id == s.productId && p.tenantId == scope.tenantId)

/-- Outlet, product and user, and that the product's stock is tracked. -/
def checkScope (user : JwtPayload) (scope : Scope) : Body Unit := do
  let outlet ← query fun db => db.accounts.outlets.find? fun o =>
    o.id == scope.outletId && o.tenantId == scope.tenantId
  ensure outlet.isSome (.plain .notFound "Outlet not found")
  let product ← query fun db => db.catalog.products.find? fun p =>
    p.id == scope.productId && p.tenantId == scope.tenantId
  let product ← Prog.require product (.plain .notFound "Product not found")
  ensure product.trackStock
    (.http { status := .conflict, message := "Stock tracking is disabled for this product"
             errorCode := some "STOCK_TRACKING_DISABLED", detail := .productId product.id })
  let actor ← query fun db => db.accounts.users.find? fun u =>
    u.id == toLowerCase user.sub && u.tenantId == scope.tenantId
  ensure actor.isSome (.plain .notFound "User not found")

/-- `createMany` with `skipDuplicates`: a row with stock 0, unless there is one. -/
def ensureRow (scope : Scope) : Body Unit :=
  let there := fun (db : Db) => db.stocks.productStocks.any fun s =>
    s.outletId == scope.outletId && s.productId == scope.productId
  Prog.stmt
    (fun v => if there v.cur then [] else [.stock scope.outletId scope.productId])
    (fun v => if there v.cur then id else Db.addProductStocks
      [{ outletId := scope.outletId, productId := scope.productId, stock := 0 }])
    (fun _ => .ret ())

/-- Only an ADD creates a missing row. -/
def ensureRowFor (scope : Scope) (type : AdjustmentType) : Body Unit :=
  match type with
  | .add => ensureRow scope
  | .deduct => pure ()

/-- The signed quantity. -/
def delta (dto : CreateStockAdjustmentDto) : Int :=
  match dto.adjustmentType with
  | .add => dto.quantity
  | .deduct => -dto.quantity

/-- Check and change the stock in one statement. -/
def changeStock (scope : Scope) (dto : CreateStockAdjustmentDto) : Body Unit := do
  -- the quantity is sent as an INTEGER
  ensure (decide (dto.quantity ≤ int4Max)) (.prisma .other)
  let updated ← updateMany productStocks (fun _ => [])
    (fun db s => scope.contains db s &&
      (match dto.adjustmentType with
        | .add => true
        | .deduct => decide (s.stock ≥ dto.quantity)))
    (fun _ s => { s with stock := s.stock + delta dto }) (fun s => decide (s.stock ≤ int4Max))
  ensure (updated == 1) (.plain .conflict "Insufficient stock")

def reasonOf (dto : CreateStockAdjustmentDto) : String := dto.reason.getD defaultReason

def adjustmentRow (user : JwtPayload) (scope : Scope) (dto : CreateStockAdjustmentDto)
    (env : Env) : StockAdjustment where
  id := env.fresh 0
  tenantId := scope.tenantId
  outletId := scope.outletId
  productId := scope.productId
  userId := toLowerCase user.sub
  type := dto.adjustmentType
  quantity := dto.quantity
  reason := reasonOf dto

def movementRow (user : JwtPayload) (scope : Scope) (dto : CreateStockAdjustmentDto)
    (adjustmentId : Id) (env : Env) : StockMovement where
  id := env.fresh 0
  tenantId := scope.tenantId
  outletId := scope.outletId
  productId := scope.productId
  userId := toLowerCase user.sub
  type := .adjustment
  quantity := delta dto
  referenceType := some "STOCK_ADJUSTMENT"
  referenceId := some adjustmentId
  reason := some (reasonOf dto)

/-- The transaction of `createAdjustment`. -/
def adjustmentBody (user : JwtPayload) (dto : CreateStockAdjustmentDto) : Body ProductStock := do
  let scope := scopeOf user dto
  checkScope user scope
  ensureRowFor scope dto.adjustmentType
  changeStock scope dto
  ensure (storable (reasonOf dto)) (.prisma .other)
  let adjustment ← insert (adjustmentRow user scope dto) Db.addStockAdjustment
  let _ ← insert (movementRow user scope dto adjustment.id) fun row => Db.addStockMovements [row]
  let row ← query fun db => db.stocks.productStocks.find? (scope.contains db)
  Prog.require row (.prisma .P2025)

end Kasir.Stock
