/-
  Kasir.Transactions.Dto

  Checkout requests: their fields, the rules the validator applies to them, the
  payment shape and the normalization of identifiers, notes and defaults.
-/

import Kasir.Schema
import Kasir.Statements
import Kasir.Js.Text

namespace Kasir

open Js

/-- The claims of an access token. -/
structure JwtPayload where
  sub : String
  tenantId : String
  role : String
  outletId : Option String
deriving DecidableEq, Repr

/-- The actor with lower-case identifiers. -/
def JwtPayload.normalized (user : JwtPayload) : JwtPayload :=
  { user with sub := toLowerCase user.sub, tenantId := toLowerCase user.tenantId }

namespace Transactions

/-- `CheckoutMode`. -/
inductive CheckoutMode
  | v1
  | legacySync
deriving DecidableEq, Repr

/-- `CreateTransactionItemDto`, and `CreateHeldOrderItemDto` with the same fields. -/
structure CreateTransactionItemDto where
  productId : String
  quantity : Int
  modifierOptionIds : Option (List String) := none
  note : Option String := none
deriving DecidableEq, Repr

/-- `CreateTransactionPaymentDto`.  `changeAmount` is a field the contract does
    not list; a request that has it is rejected. -/
structure CreateTransactionPaymentDto where
  method : PaymentMethod
  amount : Option Int := none
  amountReceived : Option Int := none
  changeAmount : Option Int := none
deriving DecidableEq, Repr

/-- `CheckoutDto`: a `CreateTransactionDto` whose session may be null. -/
structure CheckoutDto where
  clientTransactionId : String
  outletId : String
  cashierSessionId : Option String
  customerId : Option String := none
  items : List CreateTransactionItemDto
  discount : Option Int := none
  payment : CreateTransactionPaymentDto
deriving DecidableEq, Repr

-- ============================================================================
-- Validation
-- ============================================================================

/-- The rules of an item. -/
def CreateTransactionItemDto.valid (item : CreateTransactionItemDto) : Bool :=
  isUUID item.productId &&
  decide (1 ≤ item.quantity) && decide (item.quantity ≤ int4Max) &&
  (match item.modifierOptionIds with
    | none => true
    | some ids =>
        decide (ids.length ≤ 50) && decide (ids.map toLowerCase).Nodup && ids.all isUUID4) &&
  (match item.note with
    | none => true
    | some note => decide (validatorLength note ≤ 255))

/-- `PaymentTransportShapeConstraint`. -/
def CreateTransactionPaymentDto.transportShape (p : CreateTransactionPaymentDto) : Bool :=
  match p.method with
  | .cash => p.amount.isSome != p.amountReceived.isSome
  | .qris | .edc => p.amount.isNone && p.amountReceived.isNone

/-- `@IsInt() @Min(0) @Max(Number.MAX_SAFE_INTEGER)` on an optional field. -/
def safeAmount : Option Int → Bool
  | none => true
  | some n => decide (0 ≤ n) && decide (n ≤ maxSafeInteger)

/-- The rules of a payment; `forbidNonWhitelisted` rejects the unlisted field. -/
def CreateTransactionPaymentDto.valid (p : CreateTransactionPaymentDto) : Bool :=
  p.transportShape && safeAmount p.amount && safeAmount p.amountReceived && p.changeAmount.isNone

/-- `plainToInstance`: notes are trimmed by their `@Transform`. -/
def CreateTransactionItemDto.transformed (item : CreateTransactionItemDto) :
    CreateTransactionItemDto :=
  { item with note := item.note.map trim }

def CheckoutDto.transformed (dto : CheckoutDto) : CheckoutDto :=
  { dto with items := dto.items.map CreateTransactionItemDto.transformed }

/-- The rules of `CreateTransactionDto`. -/
def CheckoutDto.valid (dto : CheckoutDto) : Bool :=
  isUUID dto.clientTransactionId && isUUID dto.outletId &&
  (match dto.cashierSessionId with
    | none => false
    | some id => isUUID id) &&
  (match dto.customerId with
    | none => true
    | some id => isUUID id) &&
  !dto.items.isEmpty && dto.items.all CreateTransactionItemDto.valid &&
  safeAmount dto.discount && dto.payment.valid

-- ============================================================================
-- Errors
-- ============================================================================

def paymentFieldNotAllowed (message : String) : Exc :=
  .coded .badRequest message "PAYMENT_FIELD_NOT_ALLOWED"

def invalidTransactionInput : Exc :=
  .coded .badRequest "Invalid transaction input" "INVALID_INPUT"

/-- What the request pipe answers to a request that breaks its rules. -/
def validationPipeError : Exc := .plain .badRequest "Bad Request Exception"

def invalidUserContext : Exc := .plain .unauthorized "Invalid user context"

def methodText : PaymentMethod → String
  | .cash => "CASH"
  | .qris => "QRIS"
  | .edc => "EDC"

/-- `assertPaymentShape`. -/
def assertPaymentShape (dto : CheckoutDto) : Except Exc Unit :=
  let p := dto.payment
  if p.changeAmount.isSome then
    .error (paymentFieldNotAllowed "change_amount is server-derived and must not be supplied")
  else
    match p.method with
    | .cash =>
        if p.amount.isNone && p.amountReceived.isNone then
          .error (.coded .badRequest "CASH requires amount_received"
            "CASH_AMOUNT_RECEIVED_REQUIRED")
        else if p.amount.isSome && p.amountReceived.isSome then
          .error (paymentFieldNotAllowed
            "Cash payment fields are mutually exclusive; use payment.amount (legacy) or payment.amount_received (V1)")
        else .ok ()
    | .qris | .edc =>
        if p.amount.isSome || p.amountReceived.isSome then
          .error (paymentFieldNotAllowed
            (methodText p.method ++ " must not carry cash payment fields"))
        else .ok ()

/-- `assertCheckoutInput`.  The legacy path has validated its own contract. -/
def assertCheckoutInput (input : CheckoutDto) (mode : CheckoutMode) : Except Exc CheckoutDto :=
  let dto := input.transformed
  if mode = .v1 && !dto.valid then do
    assertPaymentShape dto
    .error invalidTransactionInput
  else .ok dto

-- ============================================================================
-- Normalization
-- ============================================================================

def CreateTransactionItemDto.normalized (item : CreateTransactionItemDto) :
    CreateTransactionItemDto :=
  { item with
    productId := toLowerCase item.productId
    modifierOptionIds := some ((item.modifierOptionIds.getD []).map toLowerCase)
    note := item.note.map trim }

/-- `normalizeCheckoutDto`. -/
def normalizeCheckoutDto (dto : CheckoutDto) (mode : CheckoutMode) : CheckoutDto :=
  { dto with
    discount := some (dto.discount.getD 0)
    outletId := toLowerCase dto.outletId
    customerId := dto.customerId.map toLowerCase
    clientTransactionId := toLowerCase dto.clientTransactionId
    cashierSessionId :=
      match mode with
      | .v1 => dto.cashierSessionId.map toLowerCase
      | .legacySync => none
    items := dto.items.map CreateTransactionItemDto.normalized }

/-- What the core works on. -/
def coreRequest (input : CheckoutDto) (mode : CheckoutMode) : CheckoutDto :=
  normalizeCheckoutDto input.transformed mode

theorem CreateTransactionItemDto.normalized_normalized (i : CreateTransactionItemDto) :
    i.normalized.transformed.normalized = i.normalized := by
  simp only [CreateTransactionItemDto.normalized, CreateTransactionItemDto.transformed,
    Option.map_map, Option.getD_some, List.map_map, toLowerCase_toLowerCase,
    toLowerCase_comp_toLowerCase, trim_comp_trim]

/-- Normalizing twice is normalizing once: the core may normalize again what
    `createInternal` has normalized. -/
theorem coreRequest_coreRequest (input : CheckoutDto) (mode : CheckoutMode) :
    coreRequest (coreRequest input mode) mode = coreRequest input mode := by
  have hitems : CreateTransactionItemDto.normalized ∘ CreateTransactionItemDto.transformed ∘
      CreateTransactionItemDto.normalized ∘ CreateTransactionItemDto.transformed =
      CreateTransactionItemDto.normalized ∘ CreateTransactionItemDto.transformed :=
    funext fun i => CreateTransactionItemDto.normalized_normalized i.transformed
  cases mode <;>
  simp only [coreRequest, normalizeCheckoutDto, CheckoutDto.transformed, Option.getD_some,
    Option.map_map, List.map_map, toLowerCase_toLowerCase, toLowerCase_comp_toLowerCase,
    hitems]

-- ============================================================================
-- The legacy contract
-- ============================================================================

/-- `LegacySyncItemDto`. -/
structure LegacySyncItemDto where
  productId : String
  quantity : Int
deriving DecidableEq, Repr

/-- `LegacySyncPaymentDto`. -/
structure LegacySyncPaymentDto where
  method : PaymentMethod
  amount : Int
deriving DecidableEq, Repr

/-- `LegacySyncTransactionDto`. -/
structure LegacySyncTransactionDto where
  clientTransactionId : String
  outletId : String
  customerId : Option String := none
  items : List LegacySyncItemDto
  payment : LegacySyncPaymentDto
deriving DecidableEq, Repr

/-- The rules of `LegacySyncTransactionDto`. -/
def LegacySyncTransactionDto.valid (dto : LegacySyncTransactionDto) : Bool :=
  isUUID dto.clientTransactionId && isUUID dto.outletId &&
  (match dto.customerId with
    | none => true
    | some id => isUUID id) &&
  !dto.items.isEmpty &&
  dto.items.all (fun i => isUUID i.productId && decide (1 ≤ i.quantity) &&
    decide (i.quantity ≤ int4Max)) &&
  decide (dto.payment.method = .cash) && safeAmount (some dto.payment.amount)

/-- `{ ...dto, discount: 0, cashier_session_id: null }`. -/
def LegacySyncTransactionDto.toCheckoutDto (dto : LegacySyncTransactionDto) : CheckoutDto where
  clientTransactionId := dto.clientTransactionId
  outletId := dto.outletId
  cashierSessionId := none
  customerId := dto.customerId
  items := dto.items.map fun i => { productId := i.productId, quantity := i.quantity }
  discount := some 0
  payment := { method := dto.payment.method, amount := some dto.payment.amount }

end Transactions

end Kasir
