/-
  Kasir.HeldOrders.Pricing

  Held-order requests and the computations on them that need no database:
  validation, the resolution and pricing of lines against the loaded catalog,
  and the estimated totals.
-/

import Kasir.Transactions.Service

namespace Kasir.HeldOrders

open Js Transactions

-- ============================================================================
-- Requests
-- ============================================================================

/-- `CreateHeldOrderDto`. -/
structure CreateHeldOrderDto where
  outletId : String
  cashierSessionId : String
  label : Option String := none
  items : List CreateTransactionItemDto
deriving DecidableEq, Repr

/-- `UpdateHeldOrderDto`.  A label may be absent, null or a text. -/
structure UpdateHeldOrderDto where
  expectedVersion : Int
  label : Option (Option String) := none
  items : Option (List CreateTransactionItemDto) := none
deriving DecidableEq, Repr

/-- `CancelHeldOrderDto`. -/
structure CancelHeldOrderDto where
  expectedVersion : Int
deriving DecidableEq, Repr

/-- `CheckoutHeldOrderDto`. -/
structure CheckoutHeldOrderDto where
  expectedVersion : Int
  clientTransactionId : String
  payment : CreateTransactionPaymentDto
deriving DecidableEq, Repr

/-- `@IsInt() @Min(1) @Max(2147483647)`. -/
def validVersion (n : Int) : Bool := decide (1 ≤ n) && decide (n ≤ int4Max)

/-- `@MaxLength(100)` on a label that is there. -/
def validLabel : Option String → Bool
  | none => true
  | some label => decide (validatorLength label ≤ 100)

def CreateHeldOrderDto.valid (dto : CreateHeldOrderDto) : Bool :=
  isUUID dto.outletId && isUUID dto.cashierSessionId && validLabel dto.label &&
    !dto.items.isEmpty && dto.items.all CreateTransactionItemDto.valid

def UpdateHeldOrderDto.valid (dto : UpdateHeldOrderDto) : Bool :=
  validVersion dto.expectedVersion && validLabel dto.label.join &&
  (match dto.items with
    | none => true
    | some items => !items.isEmpty && items.all CreateTransactionItemDto.valid)

def CheckoutHeldOrderDto.valid (dto : CheckoutHeldOrderDto) : Bool :=
  validVersion dto.expectedVersion && isUUID dto.clientTransactionId && dto.payment.valid

def invalidHeldOrderInput : Exc :=
  .coded .badRequest "Invalid held order input" "INVALID_HELD_ORDER_INPUT"

/-- `normalizeCreate`, after validation; items are normalized like sale items. -/
def normalizeCreate (input : CreateHeldOrderDto) : CreateHeldOrderDto :=
  { input with
    outletId := toLowerCase input.outletId
    cashierSessionId := toLowerCase input.cashierSessionId
    items := input.items.map CreateTransactionItemDto.normalized }

/-- `label`: blank labels are dropped. -/
def label (value : Option String) : Option String :=
  match value with
  | none => none
  | some value =>
      let trimmed := trim value
      if trimmed.isEmpty then none else some trimmed

-- ============================================================================
-- Resolving lines
-- ============================================================================

structure ResolvedItem where
  product : Product
  quantity : Int
  note : Option String
  options : List ResolvedOption
  effectivePrice : Int
deriving DecidableEq, Repr

/-- `money` of the held-order service. -/
def money (value : Int) : Except Exc Unit :=
  if value < 0 ∨ maxSafeInteger < value then
    .error (.coded .badRequest "Held order total is outside supported range"
      "HELD_ORDER_TOTAL_OUT_OF_RANGE")
  else .ok ()

/-- Resolve one selected option of a line. -/
def resolveOption (options : List ModifierOption) (itemAssignments : List LoadedAssignment)
    (optionId : Id) : Except Exc ResolvedOption :=
  match options.find? (fun o => o.id == optionId) with
  | none =>
      .error (.coded .badRequest "Modifier option not found or inactive"
        "MODIFIER_OPTION_NOT_FOUND")
  | some option =>
      match itemAssignments.find? (fun a => a.modifierGroupId == option.modifierGroupId) with
      | none =>
          .error (.coded .badRequest "Modifier group is not assigned to product"
            "MODIFIER_GROUP_NOT_ASSIGNED")
      | some assignment =>
          .ok { id := option.id, modifierGroupId := option.modifierGroupId
                groupName := assignment.groupName, optionName := option.name
                priceDelta := option.priceDelta }

/-- The rules of an assignment, whether or not the line has selections. -/
def checkAssignment (options : List ResolvedOption) (assignment : LoadedAssignment) :
    Except Exc Unit :=
  let count := groupSelections options assignment.modifierGroupId
  if assignment.required && assignment.selectionType == .single && count == 0 then
    .error (.coded .badRequest "Required single modifier is missing"
      "REQUIRED_SINGLE_MODIFIER_MISSING")
  else if assignment.required && assignment.selectionType == .single && count != 1 then
    .error (.coded .badRequest "Required single modifier requires exactly one selection"
      "REQUIRED_SINGLE_MODIFIER_VIOLATION")
  else if !assignment.required && assignment.selectionType == .single && count > 1 then
    .error (.coded .badRequest "Optional single modifier allows at most one selection"
      "OPTIONAL_SINGLE_MODIFIER_VIOLATION")
  else if assignment.required && assignment.selectionType == .multiple then
    .error (.coded .badRequest "Required multiple modifiers are unsupported"
      "REQUIRED_MULTIPLE_NOT_SUPPORTED")
  else .ok ()

/-- `item.note || null`. -/
def noteOrNull (note : Option String) : Option String :=
  match note with
  | none => none
  | some note => if note.isEmpty then none else some note

/-- Resolve and price one line. -/
def resolveItem (catalog : LoadedCatalog) (item : CreateTransactionItemDto) :
    Except Exc ResolvedItem :=
  match catalog.products.find? (fun p => p.id == item.productId) with
  -- every product of the lines has been loaded
  | none => .error (.prisma .other)
  | some product => do
      let itemAssignments := catalog.assignments.filter fun a => a.productId == item.productId
      let options ←
        (item.modifierOptionIds.getD []).mapM (resolveOption catalog.options itemAssignments)
      itemAssignments.forM (checkAssignment options)
      let effectivePrice := product.price + (options.map ResolvedOption.priceDelta).sum
      -- the line is bounded, not only the total of the order
      money effectivePrice
      money (effectivePrice * item.quantity)
      .ok { product, quantity := item.quantity, note := noteOrNull item.note, options
            effectivePrice }

/-- Resolve and price the lines in order. -/
def resolveLines (catalog : LoadedCatalog) (items : List CreateTransactionItemDto) :
    Except Exc (List ResolvedItem) :=
  items.mapM (resolveItem catalog)

-- ============================================================================
-- Totals
-- ============================================================================

structure Estimates where
  subtotalEstimate : Int
  taxEstimate : Int
  totalEstimate : Int
deriving DecidableEq, Repr

/-- The total of one line. -/
def ResolvedItem.lineTotal (i : ResolvedItem) : Int := i.effectivePrice * i.quantity

/-- `totals`. -/
def totals (items : List ResolvedItem) (tenant : Tenant) : Except Exc Estimates :=
  let subtotal := (items.map ResolvedItem.lineTotal).sum
  let taxed := calculateTax tenant.taxEnabled tenant.taxRate subtotal
  do
    [subtotal, taxed.tax, taxed.total].forM money
    .ok { subtotalEstimate := subtotal, taxEstimate := taxed.tax, totalEstimate := taxed.total }

end Kasir.HeldOrders
