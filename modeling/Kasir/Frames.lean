/-
  Kasir.Frames

  What each part of the database sees of a commit: most commits leave it alone,
  and the others change it in one way.
-/

import Kasir.Runs

namespace Kasir

open Txn Transactions HeldOrders

variable {R : Token → Prop} {c : Call} {r : Result} {seen : List Db} {a b : Db}

-- ============================================================================
-- Sales and stock
-- ============================================================================

/-- The call makes the sale of this request, for this actor: directly, from the
    legacy queue, or by converting an OPEN order. -/
inductive SaleOf : Call → Result → List Db → Db → JwtPayload → CheckoutDto → CheckoutMode →
    TransactionClient → TransactionResponse → Prop
  | request {c user input mode r seen db} (hc : saleInput c = some (user, input, mode)) :
      SaleOf c (.sale r) seen db user.normalized (coreRequest input mode) mode .readCommitted r
  | conversion {user id input record o r seen db}
      (horder : ConvertedOrder user.normalized (Js.toLowerCase id) input.expectedVersion record o
        seen db) :
      SaleOf (.holdCheckout user id input) (.conversion ⟨r, false⟩) seen db user.normalized
        (coreRequest (heldCheckoutDto record input) .v1) .v1 .serializable r

/-- A commit records one sale, adjusts the stock of one product, or leaves sales and
    stock alone. -/
theorem Effect.sales_cases (h : Effect R c r seen a b) :
    (b.sales = a.sales ∧ b.stocks = a.stocks) ∨
    (∃ user dto mode tx sale resp, SaleOf c r seen a user dto mode tx resp ∧
      NewSale R tx user dto mode sale resp seen a ∧ b.sales = sale.rows.sales a.sales ∧
      b.stocks = sale.rows.stocks a.stocks) ∨
    (∃ user dto isNew env env', c = .adjustStock user dto ∧
      AdjustedStock (Stock.scopeOf user dto) dto isNew a ∧ b.sales = a.sales ∧
      b.stocks = Stock.adjusted (Stock.scopeOf user dto) isNew (Stock.delta dto)
        (Stock.adjustmentRow user (Stock.scopeOf user dto) dto env)
        (Stock.movementRow user (Stock.scopeOf user dto) dto
          (Stock.adjustmentRow user (Stock.scopeOf user dto) dto env).id env') a.stocks) := by
  cases h with
  | found hc h => exact Or.inl ⟨rfl, rfl⟩
  | sold hc h => exact Or.inr (Or.inl ⟨_, _, _, _, _, _, .request hc, h, rfl, rfl⟩)
  | replayed horder h => exact Or.inl ⟨rfl, rfl⟩
  | convertedFound horder h => exact Or.inl ⟨rfl, rfl⟩
  | convertedSold horder h => exact Or.inr (Or.inl ⟨_, _, _, _, _, _, .conversion horder, h, rfl, rfl⟩)
  | held h => exact Or.inl ⟨rfl, rfl⟩
  | updated h => exact Or.inl ⟨rfl, rfl⟩
  | cancelled h => exact Or.inl ⟨rfl, rfl⟩
  | opened h => exact Or.inl ⟨rfl, rfl⟩
  | closed h => exact Or.inl ⟨rfl, rfl⟩
  | summarized => exact Or.inl ⟨rfl, rfl⟩
  | adjusted h => exact Or.inr (Or.inr ⟨_, _, _, _, _, rfl, h, rfl, rfl⟩)
  | edited h => exact Or.inl ⟨rfl, rfl⟩
  | administered => exact Or.inl ⟨rfl, rfl⟩

-- ============================================================================
-- Sessions
-- ============================================================================

/-- A commit opens a session, closes one, or leaves them alone. -/
theorem Effect.sessions_cases (h : Effect R c r seen a b) :
    b.cashierSessions = a.cashierSessions ∨
    (∃ user outletId row, c = .shiftOpen user outletId ∧
      OpenedSession user (Js.toLowerCase outletId) row a ∧ b = a.addCashierSession row) ∨
    (∃ user id x env, c = .shiftClose user id ∧ ClosedSession R user (Js.toLowerCase id) x a ∧
      b = Shifts.closeSessions (Js.toLowerCase id) env a) := by
  cases h with
  | found hc h => exact Or.inl rfl
  | sold hc h => exact Or.inl rfl
  | replayed horder h => exact Or.inl rfl
  | convertedFound horder h => exact Or.inl rfl
  | convertedSold horder h => exact Or.inl rfl
  | held h => exact Or.inl rfl
  | updated h => exact Or.inl rfl
  | cancelled h => exact Or.inl rfl
  | opened h => exact Or.inr (Or.inl ⟨_, _, _, rfl, h, rfl⟩)
  | closed h => exact Or.inr (Or.inr ⟨_, _, _, _, rfl, h, rfl⟩)
  | summarized => exact Or.inl rfl
  | adjusted h => exact Or.inl rfl
  | edited h => exact Or.inl rfl
  | administered => exact Or.inl rfl

-- ============================================================================
-- Held orders
-- ============================================================================

/-- The compare-and-swaps on an OPEN order: which call, at which version, the change
    of the row, and the new lines if there are any. -/
inductive Swap : Call → Result → List Db → Id → Id → Int → (HeldOrder → HeldOrder) →
    Option (List HeldLine) → Prop
  | update {user id input detail repriced lines seen}
      (hpriced : Option.Rel (fun items x => Priced user.normalized.tenantId items x.1 x.2 seen)
        (updateRequest input).items repriced)
      (hlines : Option.Rel (LinesOf user.normalized.tenantId (Js.toLowerCase id))
        (repriced.map Prod.fst) lines) :
      Swap (.holdUpdate user id input) (.heldOrder detail) seen user.normalized.tenantId
        (Js.toLowerCase id) input.expectedVersion
        (updatedRow (updateRequest input).label (repriced.map Prod.snd)) lines
  | cancel {user id input detail env seen} :
      Swap (.holdCancel user id input) (.heldOrder detail) seen user.normalized.tenantId
        (Js.toLowerCase id) input.expectedVersion (cancelledRow env) none
  | convert {user id input resp env seen} :
      Swap (.holdCheckout user id input) (.conversion ⟨resp, false⟩) seen
        user.normalized.tenantId (Js.toLowerCase id) input.expectedVersion
        (conversionRow resp.transactionId env) none

/-- The order that a committed call has swapped, and the version it expected. -/
def swapOf : Call → Result → Option (Id × Int)
  | .holdUpdate _ id input, _ => some (Js.toLowerCase id, input.expectedVersion)
  | .holdCancel _ id input, _ => some (Js.toLowerCase id, input.expectedVersion)
  | .holdCheckout _ id input, .conversion ⟨_, false⟩ => some (Js.toLowerCase id, input.expectedVersion)
  | _, _ => none

namespace Swap

variable {tenantId orderId : Id} {version : Int} {row : HeldOrder → HeldOrder}
  {lines : Option (List HeldLine)} (h : Swap c r seen tenantId orderId version row lines)
include h

theorem origin (o : HeldOrder) : (row o).origin = o.origin := by
  cases h with
  | update => exact updatedRow_origin _ _ o
  | cancel => rfl
  | convert => rfl

theorem version_succ (o : HeldOrder) : (row o).version = o.version + 1 := by
  cases h with
  | update => exact updatedRow_version _ _ o
  | cancel => rfl
  | convert => rfl

theorem swapOf : swapOf c r = some (orderId, version) := by
  cases h <;> rfl

end Swap

theorem swapOf_of_saleInput {user : JwtPayload} {input : CheckoutDto} {mode : CheckoutMode}
    (hc : saleInput c = some (user, input, mode)) : swapOf c r = none := by
  cases c <;> cases hc <;> rfl

/-- A commit adds an order, swaps one OPEN order, or leaves them alone. -/
theorem Effect.held_cases (h : Effect R c r seen a b) :
    (b.held = a.held ∧ swapOf c r = none) ∨
    (∃ user input order resolved lines, c = .holdCreate user input ∧
      NewOrder R user.normalized (createRequest input) order resolved lines seen a ∧
      b = onHeld (fun h => (h.addOrder order).addLines lines) a) ∨
    (∃ tenantId orderId version row lines o, Swap c r seen tenantId orderId version row lines ∧
      OpenOrder tenantId orderId version o a ∧
      (∀ ls ∈ lines, Held.NewLines tenantId orderId ls
        (a.held.removeLines (a.held.lineIds orderId)).heldOrderItems) ∧
      b.held = a.held.edit orderId row lines ∧ b.cashierSessions = a.cashierSessions) := by
  cases h with
  | found hc h => exact Or.inl ⟨rfl, swapOf_of_saleInput hc⟩
  | sold hc h => exact Or.inl ⟨rfl, swapOf_of_saleInput hc⟩
  | replayed horder h => exact Or.inl ⟨rfl, rfl⟩
  | convertedFound horder h =>
      exact Or.inr (Or.inr ⟨_, _, _, _, none, _, .convert, horder.target, noNewLines, rfl, rfl⟩)
  | convertedSold horder h =>
      exact Or.inr (Or.inr ⟨_, _, _, _, none, _, .convert, horder.target, noNewLines, rfl, rfl⟩)
  | held h => exact Or.inr (Or.inl ⟨_, _, _, _, _, rfl, h, rfl⟩)
  | updated h =>
      exact Or.inr (Or.inr ⟨_, _, _, _, _, _, .update h.priced h.linesOf, h.target, h.newLines,
        rfl, rfl⟩)
  | cancelled h => exact Or.inr (Or.inr ⟨_, _, _, _, none, _, .cancel, h, noNewLines, rfl, rfl⟩)
  | opened h => exact Or.inl ⟨rfl, rfl⟩
  | closed h => exact Or.inl ⟨rfl, rfl⟩
  | summarized => exact Or.inl ⟨rfl, rfl⟩
  | adjusted h => exact Or.inl ⟨rfl, rfl⟩
  | edited h => exact Or.inl ⟨rfl, rfl⟩
  | administered => exact Or.inl ⟨rfl, rfl⟩

/-- A conversion replays an earlier one, or converts an OPEN order: with a sale that
    was there before, or with one of its own. -/
theorem Effect.conversion_cases {user : JwtPayload} {id : String} {input : CheckoutHeldOrderDto}
    (h : Effect R (.holdCheckout user id input) r seen a b) :
    (∃ order existing resp, r = .conversion ⟨resp, true⟩ ∧
      Replaying user.normalized.tenantId (Js.toLowerCase id)
        (Js.toLowerCase input.clientTransactionId) order existing seen a ∧
      FoundSale user.normalized (coreRequest (replayDto order existing input) .v1) resp a ∧ b = a) ∨
    (∃ record o resp env, r = .conversion ⟨resp, false⟩ ∧
      ConvertedOrder user.normalized (Js.toLowerCase id) input.expectedVersion record o seen a ∧
      b.held = a.held.edit (Js.toLowerCase id) (conversionRow resp.transactionId env) none ∧
      ((FoundSale user.normalized (coreRequest (heldCheckoutDto record input) .v1) resp a ∧
          b.sales = a.sales ∧ b.stocks = a.stocks) ∨
        (∃ sale, NewSale R .serializable user.normalized
          (coreRequest (heldCheckoutDto record input) .v1) .v1 sale resp seen a ∧
          b.sales = sale.rows.sales a.sales ∧ b.stocks = sale.rows.stocks a.stocks)) ∧
      Accepted (coreRequest (heldCheckoutDto record input) .v1) .v1) := by
  cases h with
  | found hc h => cases hc
  | sold hc h => cases hc
  | replayed horder h => exact Or.inl ⟨_, _, _, rfl, horder, h, rfl⟩
  | convertedFound horder h haccepted =>
      exact Or.inr ⟨_, _, _, _, rfl, horder, rfl, Or.inl ⟨h, rfl, rfl⟩, haccepted⟩
  | convertedSold horder h =>
      exact Or.inr ⟨_, _, _, _, rfl, horder, rfl, Or.inr ⟨_, h, rfl, rfl⟩, h.accepted⟩

/-- Every order after a commit was there with the same link, is not linked, or has
    been converted and linked by the commit. -/
theorem Effect.link_cases (h : Effect R c r seen a b) (hwf : Wf a) :
    ∀ o' ∈ b.held.heldOrders,
      (∃ o ∈ a.held.heldOrders, o'.origin = o.origin ∧
        o'.convertedTransactionId = o.convertedTransactionId ∧
        (o'.status = .converted → o.status = .converted)) ∨
      (o'.convertedTransactionId = none ∧ o'.status ≠ .converted) ∨
      ∃ user id input resp, c = .holdCheckout user id input ∧ r = .conversion ⟨resp, false⟩ ∧
        o'.id = Js.toLowerCase id ∧ o'.tenantId = user.normalized.tenantId ∧
        o'.convertedTransactionId = some resp.transactionId := by
  rcases h.held_cases with ⟨hh, -⟩ | ⟨user, input, order, resolved, lines, -, hnew, rfl⟩ |
    ⟨tenantId, orderId, version, row, lines, x, hswap, hx, -, hh, -⟩
  · exact fun o ho => Or.inl ⟨o, hh ▸ ho, rfl, rfl, fun hs => hs⟩
  · intro o ho
    rcases List.mem_append.mp ho with ho | ho
    · exact Or.inl ⟨o, ho, rfl, rfl, fun hs => hs⟩
    · obtain ⟨estimates, env, rfl, -⟩ := hnew.priced
      rw [List.mem_singleton.mp ho]
      exact Or.inr (Or.inl ⟨rfl, by simp [orderRow]⟩)
  · intro o' ho'
    rw [hh] at ho'
    obtain ⟨o, ho, rfl⟩ := Held.mem_edit.mp ho'
    by_cases hid : o.id = orderId
    · rw [if_pos hid]
      cases hswap with
      | @update user id input detail repriced lines seen _ _ =>
          refine Or.inl ⟨o, ho, updatedRow_origin _ _ o, ?_, ?_⟩ <;>
            cases (updateRequest input).label <;> cases repriced <;> simp [updatedRow]
      | cancel => exact Or.inl ⟨o, ho, rfl, rfl, fun hs => by simp [cancelledRow] at hs⟩
      | convert => exact Or.inr (Or.inr ⟨_, _, _, _, rfl, rfl, hid,
          hx.only hwf o ho hid ▸ hx.tenantId, rfl⟩)
    · rw [if_neg hid]
      exact Or.inl ⟨o, ho, rfl, rfl, fun hs => hs⟩

-- ============================================================================
-- The catalog
-- ============================================================================

/-- A commit keeps a catalog as the services leave it. -/
theorem Effect.catalog_ok (h : Effect R c r seen a b) (ha : a.catalog.Ok) : b.catalog.Ok := by
  cases h with
  | edited h => exact h.ok ha
  | _ => exact ha

end Kasir
