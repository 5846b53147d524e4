/-
  Kasir.Api

  The operations of the backend as one application on the database: what each
  call checks before it opens a transaction, the isolation level and the body of
  its transaction, and how its errors are answered.
-/

import Kasir.Transactions.Service
import Kasir.HeldOrders.Service
import Kasir.Shifts.Service
import Kasir.Stock.Service
import Kasir.Catalog.Service
import Kasir.Txn.System

namespace Kasir

open Txn

/-- A call of a service method, with its arguments. -/
inductive Call
  /-- `TransactionsService.create` -/
  | create (user : JwtPayload) (input : Transactions.CheckoutDto)
  /-- `TransactionsService.createLegacySync` -/
  | createLegacySync (user : JwtPayload) (input : Transactions.LegacySyncTransactionDto)
  /-- `HeldOrdersService.create` -/
  | holdCreate (user : JwtPayload) (input : HeldOrders.CreateHeldOrderDto)
  /-- `HeldOrdersService.update` -/
  | holdUpdate (user : JwtPayload) (id : String) (input : HeldOrders.UpdateHeldOrderDto)
  /-- `HeldOrdersService.cancel` -/
  | holdCancel (user : JwtPayload) (id : String) (input : HeldOrders.CancelHeldOrderDto)
  /-- `HeldOrdersService.checkout` -/
  | holdCheckout (user : JwtPayload) (id : String) (input : HeldOrders.CheckoutHeldOrderDto)
  /-- `ShiftsService.open` -/
  | shiftOpen (user : JwtPayload) (outletId : String)
  /-- `ShiftsService.close` -/
  | shiftClose (user : JwtPayload) (id : String)
  /-- `ShiftsService.summary` -/
  | shiftSummary (user : JwtPayload) (id : String)
  /-- `StockService.createAdjustment` -/
  | adjustStock (user : JwtPayload) (input : Stock.CreateStockAdjustmentDto)
  /-- an operation of `ProductsService` or `ModifierGroupsService` -/
  | catalog (user : JwtPayload) (op : CatalogServices.CatalogOp)
  /-- any change of tenants, users, outlets, customers and categories by the services
      that administer them -/
  | administer (accounts : Accounts)
deriving DecidableEq, Repr

/-- What a call returns. -/
inductive Result
  | sale (response : Transactions.TransactionResponse)
  | heldOrder (detail : HeldOrders.HeldOrderDetail)
  | conversion (result : HeldOrders.CheckoutHeldOrderResult)
  | shift (response : Shifts.ShiftResponse)
  | summary (summary : Shifts.ShiftSummary)
  | stock (row : ProductStock)
  | catalog (answer : CatalogServices.CatalogAnswer)
  | unit
deriving DecidableEq, Repr

/-- The error of a computation that is not to be repeated in the transaction. -/
def errorOf {α : Type} : Except Exc α → Option Exc
  | .ok _ => none
  | .error e => some e

namespace Call

/-- What is checked before a transaction opens. -/
def precheck : Call → Option Exc
  | .create user input => errorOf (Transactions.prepare user input .v1)
  | .createLegacySync user input =>
      errorOf (Transactions.prepareLegacySync input >>= fun dto =>
        Transactions.prepare user dto .legacySync)
  | .holdCreate user input => errorOf (HeldOrders.prepareCreate user input)
  | .holdUpdate user id input => errorOf (HeldOrders.prepareUpdate user id input)
  | .holdCancel user id _ => errorOf (HeldOrders.prepareOrder user id)
  | .holdCheckout user id input => errorOf (HeldOrders.prepareCheckout user id input)
  | .shiftOpen _ outletId => errorOf (Shifts.prepareOpen outletId)
  | .shiftClose _ id => errorOf (Shifts.prepareShift id)
  | .shiftSummary _ id => errorOf (Shifts.prepareShift id)
  | .adjustStock _ input => if input.valid then none else some Transactions.validationPipeError
  | .catalog _ op => if op.valid then none else some Transactions.validationPipeError
  | .administer _ => none

/-- The isolation level of the call's transaction. -/
def isolation : Call → Isolation
  | .holdCheckout .. | .shiftOpen .. => .serializable
  | .shiftSummary .. => .repeatableRead
  | .create .. | .createLegacySync .. | .holdCreate .. | .holdUpdate .. | .holdCancel ..
  | .shiftClose .. | .adjustStock .. | .catalog .. | .administer _ => .readCommitted

/-- The body of the call's transaction. -/
def body : Call → Body Result
  | .create user input => do
      let response ← Transactions.createBody user input .v1
      pure (.sale response)
  | .createLegacySync user input => do
      let response ← Transactions.createBody user input.toCheckoutDto .legacySync
      pure (.sale response)
  | .holdCreate user input => do
      let detail ← HeldOrders.createBody user input
      pure (.heldOrder detail)
  | .holdUpdate user id input => do
      let detail ← HeldOrders.updateBody user id input
      pure (.heldOrder detail)
  | .holdCancel user id input => do
      let detail ← HeldOrders.cancelBody user id input
      pure (.heldOrder detail)
  | .holdCheckout user id input => do
      let result ← HeldOrders.checkoutBody user id input
      pure (.conversion result)
  | .shiftOpen user outletId => do
      let response ← Shifts.openBody user outletId
      pure (.shift response)
  | .shiftClose user id => do
      let response ← Shifts.closeBody user id
      pure (.shift response)
  | .shiftSummary user id => do
      let summary ← Shifts.summaryBody user id
      pure (.summary summary)
  | .adjustStock user input => do
      let row ← Stock.adjustmentBody user input
      pure (.stock row)
  | .catalog user op => do
      let answer ← CatalogServices.catalogBody user op
      pure (.catalog answer)
  | .administer accounts =>
      Prog.write (fun _ db => { db with accounts }) fun _ => .unit

/-- The answer to an error of an attempt, or `none` to try again. -/
def handle : Call → Nat → Exc → Option Exc
  | .create .., attempt, e | .createLegacySync .., attempt, e =>
      Transactions.handleCreate attempt e
  | .holdCheckout .., attempt, e => HeldOrders.handleCheckout attempt e
  | .shiftOpen .., attempt, e => Shifts.handleWrite true attempt e
  | .shiftClose .., attempt, e => Shifts.handleWrite false attempt e
  | .catalog _ op, _, e => CatalogServices.handleOp op e
  | .holdCreate .., _, e | .holdUpdate .., _, e | .holdCancel .., _, e | .shiftSummary .., _, e
  | .adjustStock .., _, e | .administer _, _, e => some e

end Call

/-- The backend on its database.  The database may break a transaction off with
    any error of its own at any statement and at the commit. -/
def kasir : App Db Env Token Exc Exc Call Result where
  precheck := Call.precheck
  iso := Call.isolation
  body := Call.body
  handle := Call.handle
  fault e := !e.isHttp
  blocks := Token.blocks
  legal := Db.legal

/-- A state of the backend. -/
abbrev State := Sys Db Env Token Exc Exc Call Result

/-- A commit of the backend. -/
abbrev KasirCommit := Commit Db Call Result

end Kasir
