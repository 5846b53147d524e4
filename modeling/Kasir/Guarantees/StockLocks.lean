/-
  Kasir.Guarantees.StockLocks

  Deadlocks over stock rows.

  A sale locks the stock rows of its tracked products in the order in which its
  lines first mention them, and keeps the locks to its end.  The lines are in the
  order of the request.  Two carts that mention two products in opposite orders
  can therefore wait for each other (`crossing_carts_wait`).

  Where one order of each outlet's products is common to all carts and held
  orders, no transactions wait for each other in a circle
  (`stock_locks_are_taken_in_order`).
-/

import Kasir.StockOrderBodies

namespace Kasir

open Txn Transactions

-- ============================================================================
-- Runs in which the products have one order
-- ============================================================================

/-- The lines of a sale request mention the products in the order of the outlet. -/
def CartInOrder (before : Id → Id → Id → Prop) (T : Id → Prop) (c : Call) : Prop :=
  ∀ user input mode, saleInput c = some (user, input, mode) →
    Ascends (before (coreRequest input mode).outletId) T
      ((coreRequest input mode).items.map CreateTransactionItemDto.productId)

/-- A step of a run in which the lines of requests and of held orders mention the
    products that are ever tracked in the order of the outlet. -/
def OneOrder (before : Id → Id → Id → Prop) (T : Id → Prop) (σ : State)
    (l : Label Env Exc Call) : Prop :=
  FitsOrder before T σ.db ∧ ∀ c, l = .call c → CartInOrder before T c

section Order

variable {before : Id → Id → Id → Prop} {T : Id → Prop} {db0 : Db} {σ : State}

theorem ordered_body (c : Call) (hcart : CartInOrder before T c) :
    Ordered (FitsOrder before T) Token.isStock (stockBefore before) c.isolation c.body
      (fun _ _ => True) St.start := by
  cases c with
  | create user input => exact ordered_createBody (hcart user input .v1 rfl)
  | createLegacySync user input =>
      exact ordered_createBody (hcart user input.toCheckoutDto .legacySync rfl)
  | holdCreate user input => exact ordered_of_noStock (noStock_createBody user input)
  | holdUpdate user id input => exact ordered_of_noStock (noStock_updateBody user id input)
  | holdCancel user id input => exact ordered_of_noStock (noStock_cancelBody user id input)
  | holdCheckout user id input => exact ordered_checkoutBody
  | shiftOpen user outletId => exact ordered_of_noStock (noStock_openBody user outletId)
  | shiftClose user id => exact ordered_of_noStock (noStock_closeBody user id)
  | shiftSummary user id => exact ordered_of_noStock (noStock_summaryBody user id)
  | adjustStock user input => exact ordered_adjustmentBody
  | catalog user op =>
      exact ordered_of_noStock (noStock_catalogBody user op)
  | administer accounts =>
      have hwrite : NoStock anyDb (Call.body (.administer accounts)) fun _ => True :=
        Prog.calm_write fun _ _ _ _ => trivial
      exact ordered_anti (fun _ _ => trivial)
        (ordered_mono (fun _ _ _ => trivial) (hwrite.ordered fun _ _ => trivial))

theorem stockBefore_irrefl (hirrefl : ∀ o p, ¬ before o p p) (l : Token) :
    ¬ stockBefore before l l := by
  intro h
  cases l with
  | stock o p => exact hirrefl o p h.2
  | _ => exact h

theorem stockBefore_trans (htrans : ∀ o a b c, before o a b → before o b c → before o a c)
    {x y z : Token} (hxy : stockBefore before x y) (hyz : stockBefore before y z) :
    stockBefore before x z := by
  cases x with
  | stock o a =>
      cases y with
      | stock o' b =>
          cases z with
          | stock o'' c =>
              obtain ⟨rfl, hab⟩ := hxy
              obtain ⟨rfl, hbc⟩ := hyz
              exact ⟨rfl, htrans o a b c hab hbc⟩
          | _ => cases hyz
      | _ => cases hxy
  | _ => cases hxy

/-- A stock row is locked by one transaction at a time. -/
theorem stock_exclusive (hsound : KasirSound noMarks db0 σ) (i j : Nat) (l : Token)
    (hl : l.isStock = true) (hi : σ.Holds i l) (hj : σ.Holds j l) : i = j := by
  by_contra hne
  obtain ⟨x, hx, hlx⟩ := hi
  obtain ⟨y, hy, hly⟩ := hj
  have hno := hsound.exclusive i j x y hne hx hy l hlx l hly
  cases l with
  | stock o p => simp [kasir, Token.blocks, Token.isLock] at hno
  | _ => cases hl

end Order

-- ============================================================================
-- Two carts that cross
-- ============================================================================

namespace Shop

def tea : Id := uuid 0 0 7

/-- The shop with a second tracked product. -/
def pantry : Db :=
  { db with
    catalog := { db.catalog with
      products := db.catalog.products ++
        [{ id := tea, tenantId := tenant, name := "Tea", sku := "T1", price := 500, cost := 100
           trackStock := true, isActive := true }] }
    stocks := { productStocks := db.stocks.productStocks ++
      [{ outletId := outlet, productId := tea, stock := 10 }] } }

theorem pantry_wf : Wf pantry where
  legal := by decide +kernel
  sales := wf.sales
  held := wf.held
  origin := wf.origin

/-- A cash sale of two of each of two products. -/
def cart (key first second : Id) : Call :=
  .create user
    { clientTransactionId := key, outletId := outlet, cashierSessionId := some session
      items := [line first, line second]
      payment := { method := .cash, amountReceived := some 9000 } }

end Shop

/-- One cart has coffee and then tea, the other one tea and then coffee.  Each sale
    has locked its first product and waits for the other one's. -/
theorem crossing_carts_wait :
    ∃ σ : State, kasir.Reach Shop.pantry σ ∧ kasir.Waits Token.isStock σ 0 1 ∧
      kasir.Waits Token.isStock σ 1 0 := by
  obtain ⟨σ, hrun, hp⟩ := Shop.reached Shop.pantry (fun _ _ => true)
    (.call (Shop.cart (Shop.uuid 9 9 1) Shop.coffee Shop.tea) ::
      .call (Shop.cart (Shop.uuid 9 9 2) Shop.tea Shop.coffee) ::
      Shop.stmts 0 1 0 11 ++ Shop.stmts 1 2 0 11)
    (fun σ => kasir.waitsNow Token.isStock σ (Shop.envs 1 0) 0 1 &&
      kasir.waitsNow Token.isStock σ (Shop.envs 2 0) 1 0)
    (by decide +kernel)
  rw [Bool.and_eq_true] at hp
  exact ⟨σ, hrun.reach, App.waits_of_waitsNow (by decide) hp.1,
    App.waits_of_waitsNow (by decide) hp.2⟩

-- ============================================================================
-- No deadlock
-- ============================================================================

/-- **Stock locks are taken in order.**  If one strict order of each outlet's
    products is common to the lines of all sale requests and held orders, every
    transaction asks for stock rows in that order, and no transactions wait for
    each other's stock rows in a circle. -/
theorem stock_locks_are_taken_in_order {before : Id → Id → Id → Prop} {T : Id → Prop} {db0 : Db}
    {σ : State} (hirrefl : ∀ o p, ¬ before o p p)
    (htrans : ∀ o a b c, before o a b → before o b c → before o a c) (h0 : Wf db0)
    (h : kasir.Run (OneOrder before T) db0 σ) (hlast : FitsOrder before T σ.db) :
    (∀ i l held, kasir.Wants σ i l → l.isStock = true → ¬ σ.Holds i l → σ.Holds i held →
      held.isStock = true → stockBefore before held l) ∧
    ∀ i, ¬ Relation.TransGen (kasir.Waits Token.isStock σ) i i := by
  have hin := Run.inOrder (CartInOrder before T) (fun _ c hok => hok.2 c rfl)
    (fun _ _ hok => hok.1) (fun c hcart => ordered_body c hcart) h
  have hexclusive := stock_exclusive (reach_sound h0 h.reach)
  refine ⟨fun i l held hwants hl hno hholds hheld => ?_, fun i => ?_⟩
  · exact InOrder.wants hin hlast hwants hl hno hholds hheld
  · exact InOrder.no_deadlock hin hlast hexclusive (stockBefore_irrefl hirrefl)
      (stockBefore_trans htrans) i

/-- Two carts with the same order of products: the second one waits for the first,
    which waits for nobody. -/
theorem stock_locks_are_taken_in_order_shop :
    ∃ σ : State, kasir.Run (OneOrder (fun _ a b => a < b) fun _ => True) Shop.pantry σ ∧
      kasir.Waits Token.isStock σ 1 0 ∧
      ∀ i, ¬ Relation.TransGen (kasir.Waits Token.isStock σ) i i := by
  let quiet : State → Label Env Exc Call → Bool := fun σ l =>
    decide (σ.db.held.heldOrders = []) && match l with
      | .call c => decide (c ∈ [Shop.cart (Shop.uuid 9 9 1) Shop.coffee Shop.tea,
          Shop.cart (Shop.uuid 9 9 2) Shop.coffee Shop.tea])
      | _ => true
  have hfits : ∀ db : Db, db.held.heldOrders = [] →
      FitsOrder (fun _ a b => a < b) (fun _ => True) db := by
    intro db hnone
    refine ⟨fun _ _ _ => trivial, fun o ho => ?_⟩
    rw [hnone] at ho
    cases ho
  obtain ⟨σ, hrun, hp⟩ := Shop.reached Shop.pantry quiet
    (.call (Shop.cart (Shop.uuid 9 9 1) Shop.coffee Shop.tea) ::
      .call (Shop.cart (Shop.uuid 9 9 2) Shop.coffee Shop.tea) ::
      Shop.stmts 0 1 0 11 ++ Shop.stmts 1 2 0 10)
    (fun σ => kasir.waitsNow Token.isStock σ (Shop.envs 2 0) 1 0 &&
      decide (σ.db.held.heldOrders = []))
    (by decide +kernel)
  rw [Bool.and_eq_true, decide_eq_true_eq] at hp
  have hrun' : kasir.Run (OneOrder (fun _ a b => a < b) fun _ => True) Shop.pantry σ := by
    refine hrun.mono fun σ l hok => ?_
    rw [Bool.and_eq_true, decide_eq_true_eq] at hok
    refine ⟨hfits _ hok.1, ?_⟩
    rintro c rfl user input mode hinput
    have hc := of_decide_eq_true hok.2
    simp only [List.mem_cons, List.not_mem_nil, or_false] at hc
    rcases hc with rfl | rfl
    · cases hinput
      unfold Ascends
      decide +kernel
    · cases hinput
      unfold Ascends
      decide +kernel
  refine ⟨σ, hrun', App.waits_of_waitsNow (by decide) hp.1, ?_⟩
  exact (stock_locks_are_taken_in_order (fun _ p => String.lt_irrefl p)
    (fun _ _ _ _ hab hbc => String.lt_trans hab hbc) Shop.pantry_wf hrun' (hfits _ hp.2)).2

end Kasir
