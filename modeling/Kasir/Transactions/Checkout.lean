/-
  Kasir.Transactions.Checkout

  The computations of a checkout that need no database: the comparison with an
  earlier request, the validation and pricing of lines against the loaded
  catalog, totals and tender, the aggregation of stock, and the response.
-/

import Kasir.Transactions.Dto
import Kasir.Js.Sort
import Kasir.Js.Json

namespace Kasir.Transactions

open Js

-- ============================================================================
-- Records and responses
-- ============================================================================

/-- An item with its modifiers. -/
structure ItemRecord where
  item : TransactionItem
  modifiers : List TransactionItemModifier
deriving DecidableEq, Repr

/-- `TransactionRecord`: what `responseSelect` selects. -/
structure TransactionRecord where
  transaction : Transaction
  items : List ItemRecord
  payments : List Payment
deriving DecidableEq, Repr

/-- The item is of this transaction (a relation on id and tenant). -/
def itemOf (t : Transaction) (i : TransactionItem) : Bool :=
  i.transactionId == t.id && i.tenantId == t.tenantId

def modifierOf (i : TransactionItem) (m : TransactionItemModifier) : Bool :=
  m.transactionItemId == i.id && m.tenantId == i.tenantId

def paymentOf (t : Transaction) (p : Payment) : Bool :=
  p.transactionId == t.id && p.tenantId == t.tenantId

/-- A transaction with its children, each list ordered by `created_at`. -/
def recordOf (sales : Sales) (rank : Id → Nat) (t : Transaction) : TransactionRecord where
  transaction := t
  items :=
    (orderBy rank TransactionItem.createdAt TransactionItem.id
      (sales.transactionItems.filter (itemOf t))).map fun i =>
        { item := i
          modifiers := orderBy rank TransactionItemModifier.createdAt TransactionItemModifier.id
            (sales.transactionItemModifiers.filter (modifierOf i)) }
  payments :=
    orderBy rank Payment.createdAt Payment.id (sales.payments.filter (paymentOf t))

structure ModifierResponse where
  id : Id
  modifierGroupId : Option Id
  modifierOptionId : Option Id
  groupNameSnapshot : String
  optionNameSnapshot : String
  priceDeltaSnapshot : Int
deriving DecidableEq, Repr

structure ItemResponse where
  id : Id
  productId : Id
  quantity : Int
  unitPrice : Int
  unitCost : Int
  subtotal : Int
  productNameSnapshot : Option String
  skuSnapshot : Option String
  basePriceSnapshot : Option Int
  effectivePriceSnapshot : Option Int
  noteSnapshot : Option String
  productName : Option String
  sku : Option String
  basePrice : Option Int
  effectivePrice : Option Int
  note : Option String
  modifiers : List ModifierResponse
deriving DecidableEq, Repr

structure PaymentResponse where
  id : Id
  method : PaymentMethod
  status : PaymentStatus
  amount : Int
  amountReceived : Option Int
  changeAmount : Option Int
  paidAt : Option Nat
deriving DecidableEq, Repr

structure TransactionResponse where
  transactionId : Id
  clientTransactionId : Id
  outletId : Id
  userId : Id
  customerId : Option Id
  status : TransactionStatus
  subtotal : Int
  discount : Int
  tax : Int
  total : Int
  cashierSessionId : Option Id
  items : List ItemResponse
  payments : List PaymentResponse
  change : Option Int
  createdAt : Nat
deriving DecidableEq, Repr

/-- `money`: an amount that a JavaScript number holds exactly. -/
def money (value : Int) : Except Exc Int :=
  if value < 0 ∨ maxSafeInteger < value then
    .error (.coded .badRequest "Money exceeds supported integer range" "INVALID_AMOUNT")
  else .ok value

/-- Every amount passes `money`. -/
def moneys (values : List Int) : Except Exc Unit := values.forM fun v => money v >>= fun _ => .ok ()

/-- The amounts of a record, in the order in which the response converts them. -/
def TransactionRecord.amounts (rec : TransactionRecord) : List Int :=
  (match rec.payments with
    | [p] => p.changeAmount.toList
    | _ => []) ++
  [rec.transaction.subtotal, rec.transaction.discount, rec.transaction.tax,
    rec.transaction.total] ++
  (rec.items.flatMap fun i =>
    [i.item.unitPrice, i.item.unitCost, i.item.subtotal] ++ i.item.basePriceSnapshot.toList ++
      i.item.effectivePriceSnapshot.toList) ++
  rec.payments.flatMap fun p =>
    p.amount :: (p.amountReceived.toList ++ p.changeAmount.toList)

/-- Display names of products whose items have no snapshots. -/
structure LegacyProduct where
  name : String
  sku : String
deriving DecidableEq, Repr

def modifierResponse (m : TransactionItemModifier) : ModifierResponse where
  id := m.id
  modifierGroupId := m.modifierGroupId
  modifierOptionId := m.modifierOptionId
  groupNameSnapshot := m.groupNameSnapshot
  optionNameSnapshot := m.optionNameSnapshot
  priceDeltaSnapshot := m.priceDeltaSnapshot

/-- Snapshots stay authoritative; an item without them takes its names from the
    product and its prices from the price it was sold at. -/
def itemResponse (legacyProducts : Id → Option LegacyProduct) (r : ItemRecord) : ItemResponse :=
  let i := r.item
  let isV1Snapshot := i.productNameSnapshot.isSome
  let legacyProduct := legacyProducts i.productId
  { id := i.id
    productId := i.productId
    quantity := i.quantity
    unitPrice := i.unitPrice
    unitCost := i.unitCost
    subtotal := i.subtotal
    productNameSnapshot := i.productNameSnapshot
    skuSnapshot := i.skuSnapshot
    basePriceSnapshot := i.basePriceSnapshot
    effectivePriceSnapshot := i.effectivePriceSnapshot
    noteSnapshot := i.noteSnapshot
    productName :=
      if isV1Snapshot then i.productNameSnapshot else legacyProduct.map LegacyProduct.name
    sku := if isV1Snapshot then i.skuSnapshot else legacyProduct.map LegacyProduct.sku
    basePrice := if isV1Snapshot then i.basePriceSnapshot else some i.unitPrice
    effectivePrice := if isV1Snapshot then i.effectivePriceSnapshot else some i.unitPrice
    note := i.noteSnapshot
    modifiers := r.modifiers.map modifierResponse }

def paymentResponse (p : Payment) : PaymentResponse where
  id := p.id
  method := p.method
  status := p.status
  amount := p.amount
  amountReceived := p.amountReceived
  changeAmount := p.changeAmount
  paidAt := p.paidAt

/-- The response without the range checks. -/
def TransactionRecord.response (rec : TransactionRecord)
    (legacyProducts : Id → Option LegacyProduct) : TransactionResponse where
  transactionId := rec.transaction.id
  clientTransactionId := rec.transaction.clientTransactionId
  outletId := rec.transaction.outletId
  userId := rec.transaction.userId
  customerId := rec.transaction.customerId
  status := rec.transaction.status
  subtotal := rec.transaction.subtotal
  discount := rec.transaction.discount
  tax := rec.transaction.tax
  total := rec.transaction.total
  cashierSessionId := rec.transaction.cashierSessionId
  items := rec.items.map (itemResponse legacyProducts)
  payments := rec.payments.map paymentResponse
  change :=
    match rec.payments with
    | [p] => p.changeAmount
    | _ => none
  createdAt := rec.transaction.createdAt

/-- `toResponse`. -/
def toResponse (rec : TransactionRecord)
    (legacyProducts : Id → Option LegacyProduct) : Except Exc TransactionResponse := do
  moneys rec.amounts
  .ok (rec.response legacyProducts)

theorem toResponse_ok {rec : TransactionRecord} {legacy : Id → Option LegacyProduct}
    {r : TransactionResponse} (h : toResponse rec legacy = .ok r) : r = rec.response legacy := by
  obtain ⟨-, -, hr⟩ := Txn.Checked.bind_ok.mp h
  exact (Except.ok.inj hr).symm

/-- The default of `toResponse`'s second parameter: an empty map. -/
def noLegacyProducts : Id → Option LegacyProduct := fun _ => none

-- ============================================================================
-- Comparison with an earlier request
-- ============================================================================

/-- `JSON.stringify` of a line, option identifiers sorted. -/
def lineKey (productId : String) (quantity : Int) (note : Option String)
    (modifierOptionIds : List String) : String :=
  String.ofList
    ("\x7b\"product_id\":".toList ++ (Json.string productId ++
      (",\"quantity\":".toList ++ (Json.number quantity ++ ([','] ++
        ("\"note\":".toList ++ (Json.nullable note ++
          (",\"modifier_option_ids\":".toList ++ (Json.array (sort modifierOptionIds) ++
            "\x7d".toList)))))))))

def TransactionRecord.persistedLines (rec : TransactionRecord) : List String :=
  sort (rec.items.map fun i =>
    lineKey i.item.productId i.item.quantity i.item.noteSnapshot
      (i.modifiers.filterMap TransactionItemModifier.modifierOptionId))

def CheckoutDto.requestedLines (dto : CheckoutDto) : List String :=
  sort (dto.items.map fun i =>
    lineKey i.productId i.quantity i.note (i.modifierOptionIds.getD []))

/-- `resolveTender`. -/
def resolveTender (payment : CreateTransactionPaymentDto) : Option Int :=
  match payment.method with
  | .cash => payment.amountReceived.or payment.amount
  | .qris | .edc => none

/-- `samePayment`. -/
def samePayment (payment : Option Payment) (dto : CheckoutDto) : Bool :=
  match payment with
  | none => false
  | some payment =>
      if payment.method ≠ dto.payment.method then false
      else
        match dto.payment.method with
        | .cash =>
            some (payment.amountReceived.getD payment.amount) == resolveTender dto.payment
        | .qris | .edc => payment.amountReceived.isNone && payment.changeAmount.isNone

/-- The condition `same` of `assertSameRequest`. -/
def sameRequest (existing : TransactionRecord) (user : JwtPayload) (dto : CheckoutDto) : Bool :=
  existing.transaction.userId == user.sub &&
  existing.transaction.outletId == dto.outletId &&
  existing.transaction.cashierSessionId == dto.cashierSessionId &&
  existing.transaction.customerId == dto.customerId &&
  existing.transaction.discount == dto.discount.getD 0 &&
  existing.payments.length == 1 &&
  samePayment existing.payments.head? dto &&
  Json.array existing.persistedLines == Json.array dto.requestedLines

def idempotencyPayloadMismatch : Exc :=
  .coded .conflict "client_transaction_id already belongs to a different request"
    "IDEMPOTENCY_PAYLOAD_MISMATCH"

/-- `assertSameRequest`. -/
def assertSameRequest (existing : TransactionRecord) (user : JwtPayload) (dto : CheckoutDto) :
    Except Exc Unit :=
  if sameRequest existing user dto then .ok () else .error idempotencyPayloadMismatch

-- ============================================================================
-- Lines
-- ============================================================================

/-- An assignment joined with its (active) group. -/
structure LoadedAssignment where
  productId : Id
  modifierGroupId : Id
  required : Bool
  selectionType : SelectionType
  groupName : String
deriving DecidableEq, Repr

/-- What a checkout loads of the catalog. -/
structure LoadedCatalog where
  products : List Product
  assignments : List LoadedAssignment
  options : List ModifierOption
deriving DecidableEq, Repr

structure ResolvedOption where
  id : Id
  modifierGroupId : Id
  groupName : String
  optionName : String
  priceDelta : Int
deriving DecidableEq, Repr

structure ValidatedItem where
  product : Product
  options : List ResolvedOption
  effectivePrice : Int
  quantity : Int
  note : Option String
deriving DecidableEq, Repr

/-- Resolve one selected option of a line. -/
def resolveOption (options : List ModifierOption) (itemAssignments : List LoadedAssignment)
    (optId : Id) : Except Exc ResolvedOption :=
  match options.find? (fun o => o.id == optId) with
  | none =>
      .error (.coded .badRequest ("Modifier option " ++ optId ++ " not found or inactive")
        "MODIFIER_OPTION_NOT_FOUND")
  | some opt =>
      match itemAssignments.find? (fun a => a.modifierGroupId == opt.modifierGroupId) with
      | none =>
          .error (.coded .badRequest
            ("Modifier option " ++ optId ++ " belongs to a group not assigned to this product")
            "MODIFIER_GROUP_NOT_ASSIGNED")
      | some assigned =>
          if assigned.groupName.isEmpty then
            .error (.coded .internalServerError
              "Validated modifier group is missing snapshot data"
              "MODIFIER_SNAPSHOT_INVARIANT_VIOLATION")
          else
            .ok { id := opt.id, modifierGroupId := opt.modifierGroupId
                  groupName := assigned.groupName, optionName := opt.name
                  priceDelta := opt.priceDelta }

/-- How many of the options are of the group. -/
def groupSelections (options : List ResolvedOption) (groupId : Id) : Nat :=
  options.countP fun o => o.modifierGroupId == groupId

/-- The rules of an assignment on a line with selections. -/
def checkSelections (options : List ResolvedOption) (assign : LoadedAssignment) :
    Except Exc Unit :=
  let count := groupSelections options assign.modifierGroupId
  if assign.required && assign.selectionType == .single && count != 1 then
    .error (.coded .badRequest
      "Required single-selection modifier group requires exactly one option"
      "REQUIRED_SINGLE_MODIFIER_VIOLATION")
  else if !assign.required && assign.selectionType == .single && count > 1 then
    .error (.coded .badRequest
      "Optional single-selection modifier group allows at most one option"
      "OPTIONAL_SINGLE_MODIFIER_VIOLATION")
  else if assign.selectionType == .multiple && assign.required then
    .error (.coded .badRequest
      "Required multiple-selection modifier groups are not yet supported"
      "REQUIRED_MULTIPLE_NOT_SUPPORTED")
  else .ok ()

/-- The rule of an assignment on a line without selections. -/
def checkNoSelections (assign : LoadedAssignment) : Except Exc Unit :=
  if assign.required && assign.selectionType == .single then
    .error (.coded .badRequest "Required single-selection modifier group has no selection"
      "REQUIRED_SINGLE_MODIFIER_MISSING")
  else .ok ()

/-- The options of a line, once its assignments allow them. -/
def resolveOptions (catalog : LoadedCatalog) (item : CreateTransactionItemDto) :
    Except Exc (List ResolvedOption) :=
  let itemAssignments := catalog.assignments.filter fun a => a.productId == item.productId
  let ids := item.modifierOptionIds.getD []
  if ids.length > 0 then do
    let options ← ids.mapM (resolveOption catalog.options itemAssignments)
    itemAssignments.forM (checkSelections options)
    .ok options
  else do
    itemAssignments.forM checkNoSelections
    .ok []

/-- Validate and price one line. -/
def validateItem (catalog : LoadedCatalog) (item : CreateTransactionItemDto) :
    Except Exc ValidatedItem :=
  match catalog.products.find? (fun p => p.id == item.productId) with
  | none => .error (.plain .notFound ("Product " ++ item.productId ++ " not found"))
  | some product => do
      let options ← resolveOptions catalog item
      .ok { product, options
            effectivePrice := product.price + (options.map ResolvedOption.priceDelta).sum
            quantity := item.quantity, note := item.note }

/-- Validate and price the lines in order. -/
def validateItems (catalog : LoadedCatalog) (items : List CreateTransactionItemDto) :
    Except Exc (List ValidatedItem) :=
  items.mapM (validateItem catalog)

-- ============================================================================
-- Totals
-- ============================================================================

structure Totals where
  subtotal : Int
  discount : Int
  tax : Int
  total : Int
deriving DecidableEq, Repr

/-- The subtotal of one line. -/
def ValidatedItem.lineSubtotal (i : ValidatedItem) : Int := i.effectivePrice * i.quantity

/-- Subtotal, tax and total of the lines, within the range of `money`. -/
def priceTotals (tenant : Tenant) (discount : Int) (items : List ValidatedItem) :
    Except Exc Totals :=
  let subtotal := (items.map ValidatedItem.lineSubtotal).sum
  if discount > subtotal then .error (.plain .badRequest "Discount exceeds subtotal")
  else
    let taxed := calculateTax tenant.taxEnabled tenant.taxRate (subtotal - discount)
    do
      moneys [subtotal, taxed.tax, taxed.total]
      .ok { subtotal, discount, tax := taxed.tax, total := taxed.total }

/-- The totals of a sale; a sale of nothing is refused. -/
def checkoutTotals (tenant : Tenant) (discount : Int) (items : List ValidatedItem) :
    Except Exc Totals := do
  let totals ← priceTotals tenant discount items
  if totals.total ≤ 0 then .error (.plain .badRequest "Transaction total must be positive")
  else .ok totals

/-- The resolved tender covers the total. -/
def checkTender (payment : CreateTransactionPaymentDto) (total : Int) :
    Except Exc (Option Int) :=
  match resolveTender payment with
  | some tender =>
      if tender < total then
        .error (.coded .badRequest "Cash amount received is less than total" "CASH_UNDERPAYMENT")
      else .ok (some tender)
  | none => .ok none

-- ============================================================================
-- Stock
-- ============================================================================

/-- `map.set(id, (map.get(id) ?? 0) + qty)` on a map kept in insertion order. -/
def addQuantity (id : Id) (qty : Int) : List (Id × Int) → List (Id × Int)
  | [] => [(id, qty)]
  | (k, n) :: rest => if k == id then (k, n + qty) :: rest else (k, n) :: addQuantity id qty rest

/-- Quantities by product, over the lines of tracked products. -/
def stockByProduct (items : List ValidatedItem) : List (Id × Int) :=
  items.foldl
    (fun map i => if i.product.trackStock then addQuantity i.product.id i.quantity map else map)
    []

end Kasir.Transactions
