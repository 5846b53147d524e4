/-
  Kasir.Sync.Service

  `SyncService`: a batch of sales that a cashier made offline.

  A batch is validated and authorized as a whole.  Its rows are then submitted in the
  order of the request, each in a transaction of its own; a row that is refused is
  reported and does not keep the later ones from being submitted.
-/

import Kasir.Api
import Kasir.Txn.Batches

namespace Kasir.Sync

open Txn Js Transactions

-- ============================================================================
-- Rows
-- ============================================================================

/-- `SyncTransactionInput`: a row with the fields of both contracts.  A field that is
    `none` is absent; `cashierSessionId` may also be present and null.  A row with a field
    of another name or type keeps neither contract. -/
structure SyncTransactionInput where
  clientTransactionId : String
  outletId : String
  cashierSessionId : Option (Option String) := none
  customerId : Option String := none
  items : List CreateTransactionItemDto
  discount : Option Int := none
  payment : CreateTransactionPaymentDto
deriving DecidableEq, Repr

/-- `SyncTransactionKind`. -/
inductive SyncTransactionKind
  | legacySync
  | v1
deriving DecidableEq, Repr

/-- Presence of the V1 discriminator selects strict V1 validation, whatever its value. -/
def classifySyncTransaction (input : SyncTransactionInput) : SyncTransactionKind :=
  if input.cashierSessionId.isSome then .v1 else .legacySync

/-- The row as a `CreateTransactionDto`. -/
def SyncTransactionInput.createTransactionDto (row : SyncTransactionInput) : CheckoutDto where
  clientTransactionId := row.clientTransactionId
  outletId := row.outletId
  cashierSessionId := row.cashierSessionId.getD none
  customerId := row.customerId
  items := row.items
  discount := row.discount
  payment := row.payment

/-- The row as a `LegacySyncTransactionDto`, if it has the fields of that contract and no
    others. -/
def SyncTransactionInput.legacySyncTransactionDto (row : SyncTransactionInput) :
    Option LegacySyncTransactionDto :=
  match row.cashierSessionId, row.discount, row.payment.amount, row.payment.amountReceived,
      row.payment.changeAmount with
  | none, none, some amount, none, none =>
      if row.items.all fun i => i.modifierOptionIds.isNone && i.note.isNone then
        some
          { clientTransactionId := row.clientTransactionId
            outletId := row.outletId
            customerId := row.customerId
            items := row.items.map fun i => { productId := i.productId, quantity := i.quantity }
            payment := { method := row.payment.method, amount } }
      else none
  | _, _, _, _, _ => none

/-- The row keeps the rules of its contract. -/
def SyncTransactionInput.valid (row : SyncTransactionInput) : Bool :=
  match classifySyncTransaction row with
  | .v1 => row.createTransactionDto.transformed.valid
  | .legacySync => row.legacySyncTransactionDto.any LegacySyncTransactionDto.valid

-- ============================================================================
-- Batches
-- ============================================================================

/-- A call of `SyncService.transactions`. -/
structure SyncRequest where
  user : JwtPayload
  transactions : List SyncTransactionInput
deriving DecidableEq, Repr

def invalidSyncInput : Exc :=
  .coded .badRequest "Invalid transaction sync input" "INVALID_INPUT"

/-- `validDto`. -/
def validDto (transactions : List SyncTransactionInput) : Except Exc Unit :=
  if 1 ≤ transactions.length ∧ transactions.length ≤ 100 ∧
      transactions.all SyncTransactionInput.valid = true then .ok ()
  else .error invalidSyncInput

def outletRequired : Exc :=
  .coded .forbidden "Cashier must have an assigned outlet before syncing transactions"
    "OUTLET_ACCESS_DENIED"

def outletMismatch : Exc :=
  .coded .forbidden "Sync outlet does not match the cashier assigned outlet"
    "SHIFT_OUTLET_MISMATCH"

/-- The outlets the rows name, in lower case. -/
def requestedOutlets (transactions : List SyncTransactionInput) : List Id :=
  (transactions.map fun row => toLowerCase row.outletId).eraseDups

/-- The acting user: active, in an active tenant. -/
def findActor (user : JwtPayload) (db : Db) : Option User :=
  db.accounts.users.find? fun u =>
    u.id == toLowerCase user.sub && u.tenantId == toLowerCase user.tenantId && u.isActive &&
      db.accounts.tenants.any fun t => t.id == u.tenantId && t.isActive

/-- What an actor may submit: a cashier only rows of the assigned outlet.  Every role the
    database admits may sync. -/
def authorizeActor (transactions : List SyncTransactionInput) (actor : User) : Except Exc Unit :=
  match actor.role, actor.outletId with
  | .owner, _ | .admin, _ => .ok ()
  | .cashier, none => .error outletRequired
  | .cashier, some outletId =>
      if (requestedOutlets transactions).length = 1 ∧
          (requestedOutlets transactions).contains outletId = true then .ok ()
      else .error outletMismatch

/-- `validateSyncAccess`: a transaction of one query, so a function of the state it reads. -/
def validateSyncAccess (user : JwtPayload) (transactions : List SyncTransactionInput) (db : Db) :
    Except Exc Unit :=
  if isUUID user.sub && isUUID user.tenantId then
    match findActor user db with
    | some actor => authorizeActor transactions actor
    | none => .error (.plain .unauthorized "User or tenant is inactive")
  else .error invalidUserContext

/-- The call a row is submitted with. -/
def rowCall (user : JwtPayload) (row : SyncTransactionInput) : Call :=
  match classifySyncTransaction row, row.legacySyncTransactionDto with
  | .legacySync, some dto => .createLegacySync user dto
  | _, _ => .create user row.createTransactionDto

/-- The answer is thrown on and ends the batch: no `HttpException`. -/
def rethrown : Except Exc Result → Bool
  | .error (.prisma _) => true
  | .error (.http _) | .ok _ => false

/-- `SyncService`. -/
def syncService : Batcher Db Exc Call Result SyncRequest where
  admits := fun q db => do
    validDto q.transactions
    validateSyncAccess q.user q.transactions db
    .ok (q.transactions.map (rowCall q.user))
  stops := rethrown

-- ============================================================================
-- Results
-- ============================================================================

/-- `HttpException.getStatus()`. -/
def getStatus : HttpStatus → Nat
  | .badRequest => 400
  | .unauthorized => 401
  | .forbidden => 403
  | .notFound => 404
  | .conflict => 409
  | .internalServerError => 500
  | .serviceUnavailable => 503

/-- What `errorResponse` makes of an error. -/
structure ErrorResponse where
  statusCode : Nat
  errorCode : String
  message : String
deriving DecidableEq, Repr

/-- `errorResponse`.  Every error of the backend has a text for its message. -/
def errorResponse (error : HttpException) : ErrorResponse where
  statusCode := getStatus error.status
  errorCode := error.errorCode.getD "TRANSACTION_SYNC_FAILED"
  message := error.message

/-- The result of a row. -/
inductive RowResult
  | synced (clientTransactionId : String) (transaction : TransactionResponse)
  | failed (clientTransactionId : String) (error : ErrorResponse)
deriving DecidableEq, Repr

def RowResult.clientTransactionId : RowResult → String
  | .synced id _ | .failed id _ => id

def RowResult.isSynced : RowResult → Bool
  | .synced .. => true
  | .failed .. => false

/-- The result of a row with the given answer, unless the answer is thrown on. -/
def rowResult (row : SyncTransactionInput) : Except Exc Result → Option RowResult
  | .ok (.sale response) => some (.synced row.clientTransactionId response)
  | .error (.http error) => some (.failed row.clientTransactionId (errorResponse error))
  | _ => none

/-- The results of a batch so far. -/
def results (b : Batch SyncRequest Exc Call Result) : List RowResult :=
  (b.request.transactions.zip b.answers).filterMap fun x => rowResult x.1 x.2

/-- What the batch answers once every row has been submitted. -/
structure SyncResponse where
  total : Nat
  synced : Nat
  failed : Nat
  results : List RowResult
deriving DecidableEq, Repr

def syncResponse (b : Batch SyncRequest Exc Call Result) : SyncResponse where
  total := (results b).length
  synced := (results b).countP RowResult.isSynced
  failed := (results b).length - (results b).countP RowResult.isSynced
  results := results b

end Kasir.Sync
