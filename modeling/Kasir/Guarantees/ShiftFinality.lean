/-
  Kasir.Guarantees.ShiftFinality

  The sales of a closed shift.

  A conversion of a held order is safe: its order is OPEN until it commits, and a
  session with an OPEN order is not closed.  A direct sale, in contrast, reads its
  session as OPEN without a lock and at Read Committed, so a close may commit
  before the sale does.  A closed shift is final exactly as long as no close
  overtakes such a sale.
-/

import Kasir.Guarantees.ShiftOrders
import Kasir.SaleHistory
import Kasir.Js.Tally

namespace Kasir

open Txn Js Transactions HeldOrders

/-- The marks of sessions that a running direct sale has read as OPEN, and of those
    that were looked for and not there. -/
def readSessions : Token → Prop := fun l => (∃ s, l = .sessionRead s) ∨ soughtSessions l

/-- No close commits while a direct sale that has read its session as OPEN is still
    running, and new sessions have identifiers nobody has looked for. -/
abbrev NoSaleOvertaken : State → Label Env Exc Call → Prop := Respects readSessions

-- ============================================================================
-- What a summary shows
-- ============================================================================

/-- The sales of a session that its summary counts. -/
def sessionSales (x : CashierSession) (db : Db) : List Transaction :=
  db.sales.transactions.filter (Shifts.saleOf x.tenantId x.id)

/-- The figures of a session's summary in a committed state. -/
def summaryAt (x : CashierSession) (db : Db) : Shifts.ShiftFigures :=
  Shifts.summarize x (Shifts.aggregateSales x.tenantId x.id db)
    (Shifts.summarySales x.tenantId x.id db)

/-- How much of which product, whatever the product is called. -/
def Shifts.ShiftFigures.quantities (s : Shifts.ShiftFigures) : List (Id × Int) :=
  s.products.map fun p => (p.productId, p.quantity)

/-- Every item of the session's sales carries the name its product was sold under, as
    every item does that the sale core writes. -/
def Named (x : CashierSession) (db : Db) : Prop :=
  ∀ t ∈ sessionSales x db, ∀ i ∈ db.sales.transactionItems, itemOf t i = true →
    i.productNameSnapshot ≠ none

namespace Shifts

theorem addProduct_quantities (productId : Id) (name : String) (quantity : Int)
    (ps : List ProductQuantity) :
    (addProduct productId name quantity ps).map (fun p => (p.productId, p.quantity)) =
      tally addNumber productId quantity (ps.map fun p => (p.productId, p.quantity)) := by
  induction ps with
  | nil => rfl
  | cons p ps ih =>
      simp only [addProduct, List.map_cons, tally]
      by_cases h : p.productId = productId
      · simp [h]
      · simp [h, ih]

/-- The quantities depend on the items alone. -/
theorem productQuantities_quantities (sales : List SummarySale) :
    (productQuantities sales).map (fun p => (p.productId, p.quantity)) =
      tallied addNumber (((sales.flatMap SummarySale.items).map Prod.fst).map
        fun i => (i.productId, i.quantity)) := by
  unfold productQuantities tallied
  rw [List.foldl_map, List.foldl_map]
  refine (List.foldl_hom (fun ps : List ProductQuantity =>
    ps.map fun p => (p.productId, p.quantity)) ?_).symm
  exact fun ps x => (addProduct_quantities ..).symm

/-- The products depend on the items and on the names they are listed under. -/
theorem productQuantities_congr {xs ys : List SummarySale}
    (h : (xs.flatMap SummarySale.items).map
        (fun x => (x.1, (x.1.productNameSnapshot.or x.2).getD unknownProduct)) =
      (ys.flatMap SummarySale.items).map
        fun x => (x.1, (x.1.productNameSnapshot.or x.2).getD unknownProduct)) :
    productQuantities xs = productQuantities ys := by
  have hfold : ∀ zs : List SummarySale, productQuantities zs =
      ((zs.flatMap SummarySale.items).map
        fun x => (x.1, (x.1.productNameSnapshot.or x.2).getD unknownProduct)).foldl
        (fun ps y => addProduct y.1.productId y.2 y.1.quantity ps) [] := fun zs => by
    rw [List.foldl_map]
    rfl
  rw [hfold, hfold, h]

end Shifts

theorem flatMap_congr_map {α β γ δ : Type} {f : α → List β} {g : β → γ} {f' : δ → List β}
    {xs : List α} {ys : List δ} (h : xs.map (fun x => (f x).map g) = ys.map fun y => (f' y).map g) :
    (xs.flatMap f).map g = (ys.flatMap f').map g := by
  rw [List.map_flatMap, List.map_flatMap, List.flatMap_def, List.flatMap_def, h]

section Summary

variable {x : CashierSession} {a b : Db} (hgrows : Sales.Grows a.sales b.sales)
  (hsales : sessionSales x b = sessionSales x a)
include hgrows hsales

theorem summarySales_payments :
    (Shifts.summarySales x.tenantId x.id b).map Shifts.SummarySale.payments =
      (Shifts.summarySales x.tenantId x.id a).map Shifts.SummarySale.payments := by
  obtain ⟨new, heq, hnew⟩ := hgrows.payments
  unfold Shifts.summarySales
  rw [show b.sales.transactions.filter (Shifts.saleOf x.tenantId x.id) =
    a.sales.transactions.filter (Shifts.saleOf x.tenantId x.id) from hsales]
  simp only [List.map_map]
  refine List.map_congr_left fun t ht => ?_
  have hmem := List.mem_of_mem_filter ((List.perm_insertionSort _ _).mem_iff.mp ht)
  simp only [Function.comp_apply, heq]
  rw [filter_append_of_none fun p hp => by simp [hnew p hp t hmem]]

/-- The items are the same too, as far as they do not show what a product is called
    now. -/
theorem summarySales_items {γ : Type} (g : TransactionItem × Option String → γ)
    (hg : ∀ t ∈ sessionSales x a, ∀ i ∈ a.sales.transactionItems, itemOf t i = true →
      ∀ n n', g (i, n) = g (i, n')) :
    (Shifts.summarySales x.tenantId x.id b).map (fun s => s.items.map g) =
      (Shifts.summarySales x.tenantId x.id a).map fun s => s.items.map g := by
  obtain ⟨new, heq, hnew⟩ := hgrows.items
  unfold Shifts.summarySales
  rw [show b.sales.transactions.filter (Shifts.saleOf x.tenantId x.id) =
    a.sales.transactions.filter (Shifts.saleOf x.tenantId x.id) from hsales]
  simp only [List.map_map]
  refine List.map_congr_left fun t ht => ?_
  have hsale := (List.perm_insertionSort _ _).mem_iff.mp ht
  simp only [Function.comp_apply, heq, List.map_map]
  rw [filter_append_of_none fun i hi => by simp [hnew i hi t (List.mem_of_mem_filter hsale)]]
  refine List.map_congr_left fun i hi => ?_
  have hi' := List.mem_filter.mp ((List.perm_insertionSort _ _).mem_iff.mp hi)
  rw [Bool.and_eq_true] at hi'
  exact hg t hsale i hi'.1 hi'.2.1 _ _

/-- The summary has the same count, totals and quantities. -/
theorem summaryAt_figures :
    (summaryAt x b).transactionCount = (summaryAt x a).transactionCount ∧
    (summaryAt x b).totals = (summaryAt x a).totals ∧
    (summaryAt x b).quantities = (summaryAt x a).quantities := by
  have haggregate : Shifts.aggregateSales x.tenantId x.id b =
      Shifts.aggregateSales x.tenantId x.id a :=
    congrArg (fun ts => (ts.length, (ts.map Transaction.total).sum)) hsales
  have hpaid : ∀ method, Shifts.paidBy method (Shifts.summarySales x.tenantId x.id b) =
      Shifts.paidBy method (Shifts.summarySales x.tenantId x.id a) := by
    intro method
    simp only [Shifts.paidBy, List.flatMap_def, summarySales_payments hgrows hsales]
  refine ⟨congrArg Prod.fst haggregate, ?_, ?_⟩
  · simp only [summaryAt, Shifts.summarize, haggregate, hpaid]
  · simp only [summaryAt, Shifts.summarize, Shifts.ShiftFigures.quantities]
    rw [Shifts.productQuantities_quantities, Shifts.productQuantities_quantities,
      flatMap_congr_map (summarySales_items hgrows hsales Prod.fst fun _ _ _ _ _ _ _ => rfl)]

/-- Where the items carry the names, the whole summary is the same. -/
theorem summaryAt_same (hnamed : Named x a) : summaryAt x b = summaryAt x a := by
  obtain ⟨hcount, htotals, -⟩ := summaryAt_figures hgrows hsales
  have hproducts : Shifts.productQuantities (Shifts.summarySales x.tenantId x.id b) =
      Shifts.productQuantities (Shifts.summarySales x.tenantId x.id a) := by
    refine Shifts.productQuantities_congr (flatMap_congr_map
      (summarySales_items hgrows hsales _ fun t ht i hi hown n n' => ?_))
    obtain ⟨name, hname⟩ := Option.ne_none_iff_exists'.mp (hnamed t ht i hi hown)
    simp [hname]
  unfold summaryAt Shifts.summarize at *
  simp only [Shifts.ShiftFigures.mk.injEq, true_and]
  exact ⟨hcount, htotals, hproducts⟩

end Summary

-- ============================================================================
-- One commit
-- ============================================================================

/-- Orders hold the identifiers of their sessions as a uuid column prints them. -/
def CanonicalOrigins (db : Db) : Prop :=
  ∀ o ∈ db.held.heldOrders, toLowerCase o.originCashierSessionId = o.originCashierSessionId

section Step

variable {R : Token → Prop} {c : Call} {r : Result} {seen : List Db} {a b : Db}

theorem CanonicalOrigins.step (ha : CanonicalOrigins a) (h : Effect R c r seen a b) :
    CanonicalOrigins b := by
  rcases h.held_cases with ⟨hh, -⟩ | ⟨user, input, order, resolved, lines, -, hnew, rfl⟩ |
    ⟨tenantId, orderId, version, row, lines, x, hswap, hx, -, hh, -⟩
  · exact fun o ho => ha o (hh ▸ ho)
  · intro o ho
    rcases List.mem_append.mp ho with ho | ho
    · exact ha o ho
    · rw [List.mem_singleton.mp ho, hnew.row_eq.2.1]
      exact toLowerCase_toLowerCase _
  · intro o' ho'
    rw [hh] at ho'
    obtain ⟨o, ho, rfl⟩ := Held.mem_edit.mp ho'
    split
    · have horigin := hswap.origin o
      simp only [HeldOrder.origin, Prod.mk.injEq] at horigin
      rw [horigin.2.2.2.1]
      exact ha o ho
    · exact ha o ho

/-- The order of a conversion has kept its session since it was read. -/
theorem ConvertedOrder.origin {actor : JwtPayload} {orderId : Id} {version : Int}
    {record : HeldOrderRecord} {o : HeldOrder}
    (h : ConvertedOrder actor orderId version record o seen a) (hwf : Wf a) :
    record.order.originCashierSessionId = o.originCashierSessionId := by
  obtain ⟨s, -, -, hev, rank, x, hx, hid, -, -, rfl⟩ := h.read
  obtain ⟨y, hy, horigin, -⟩ := hev.held x hx
  simp only [HeldOrder.origin, Prod.mk.injEq] at horigin
  have hyo := h.target.only hwf y hy (horigin.1.trans hid)
  rw [← hyo, horigin.2.2.2.1]
  rfl

/-- **The session of a sale is OPEN when the sale commits**, where marks are
    respected. -/
theorem SaleOf.sessionOpen {user : JwtPayload} {dto : CheckoutDto} {mode : CheckoutMode}
    {tx : TransactionClient} {resp : TransactionResponse} {sale : Sale}
    (h : SaleOf c r seen a user dto mode tx resp) (hR : ∀ s, R (.sessionRead s))
    (hsale : NewSale R tx user dto mode sale resp seen a) (hwf : Wf a) (hshifts : ShiftsOk a)
    (horigins : CanonicalOrigins a) {sid : Id}
    (hsid : sale.rows.transaction.cashierSessionId = some sid) : a.sessionOpen sid := by
  rw [hsale.built.cashierSessionId] at hsid
  cases h with
  | @request _ user input mode _ _ _ hc =>
      cases mode with
      | legacySync => cases hsid
      | v1 =>
          obtain ⟨sid', hnamed, -, hopen⟩ := hsale.session rfl
          rw [hsid] at hnamed
          cases hnamed
          exact hopen rfl (hR _)
  | @conversion user id input record o _ _ _ horder =>
      -- an OPEN order keeps its session OPEN
      have horigin := horder.origin hwf
      have hlower : (coreRequest (heldCheckoutDto record input) .v1).cashierSessionId =
          some (toLowerCase record.order.originCashierSessionId) := rfl
      rw [hlower, horigin, horigins o horder.target.mem] at hsid
      cases hsid
      obtain ⟨s, hs, hid, -⟩ := hwf.origin o horder.target.mem
      exact ⟨s, hs, hid, hshifts.sessionOpen o horder.target.mem horder.target.status s hs hid⟩

/-- What a close is to leave unchanged: the session and its sales. -/
def Final (a b : Db) : Prop :=
  ∀ x ∈ a.cashierSessions, x.status = .closed →
    x ∈ b.cashierSessions ∧ sessionSales x b = sessionSales x a

theorem Final.refl (a : Db) : Final a a := fun _ hx _ => ⟨hx, rfl⟩

theorem Final.trans {a b c : Db} (h1 : Final a b) (h2 : Final b c) : Final a c := by
  intro x hx hclosed
  obtain ⟨hxb, hab⟩ := h1 x hx hclosed
  obtain ⟨hxc, hbc⟩ := h2 x hxb hclosed
  exact ⟨hxc, hbc.trans hab⟩

/-- No commit adds a sale to a closed session, if sales find their session OPEN. -/
theorem Effect.final (h : Effect R c r seen a b) (hwf : Wf a) (hev : Evolves a b)
    (hopen : ∀ user dto mode tx sale resp sid, SaleOf c r seen a user dto mode tx resp →
      NewSale R tx user dto mode sale resp seen a →
      sale.rows.transaction.cashierSessionId = some sid → a.sessionOpen sid) : Final a b := by
  intro x hx hclosed
  obtain ⟨y, hy, -, hsame⟩ := hev.sessions x hx
  refine ⟨hsame hclosed ▸ hy, ?_⟩
  unfold sessionSales
  rcases h.sales_cases with ⟨hs, -⟩ | ⟨user, dto, mode, tx, sale, resp, hcall, hsale, hs, -⟩ |
    ⟨user, dto, isNew, env, env', -, -, hs, -⟩
  · rw [hs]
  · rw [hs]
    refine filter_append_of_none fun t ht => ?_
    rw [List.mem_singleton.mp ht]
    by_contra hsaleOf
    simp only [Shifts.saleOf, Bool.not_eq_false, Bool.and_eq_true, beq_iff_eq] at hsaleOf
    obtain ⟨z, hz, hid, hzopen⟩ := hopen _ _ _ _ _ _ _ hcall hsale hsaleOf.1.2
    rw [eq_of_key (legal_cashierSessions hwf.legal) hz hx hid, hclosed] at hzopen
    cases hzopen
  · rw [hs]

end Step

-- ============================================================================
-- Every run
-- ============================================================================

/-- **A closed shift is final, where no close overtakes a sale.**  In every run in
    which no close commits while a direct sale that has read the session as OPEN is
    still running: every sale commits while its session is OPEN; and what was CLOSED
    in an earlier state is there unchanged, with the same sales and the same summary,
    the names of products included where the items carry them. -/
theorem closed_shift_is_final {db0 : Db} {σ : State} (h0 : Wf db0) (hinit : ShiftsOk db0)
    (horigins : CanonicalOrigins db0) (h : kasir.Run NoSaleOvertaken db0 σ) :
    (∀ e ∈ σ.history, ∀ user dto mode tx sale r sid,
      RecordedBy readSessions e user dto mode tx sale r →
      sale.rows.transaction.cashierSessionId = some sid → e.before.sessionOpen sid) ∧
    (∀ s ∈ states db0 σ.history, ∀ x ∈ s.cashierSessions, x.status = .closed →
      x ∈ σ.db.cashierSessions ∧ sessionSales x σ.db = sessionSales x s ∧
      (summaryAt x σ.db).transactionCount = (summaryAt x s).transactionCount ∧
      (summaryAt x σ.db).totals = (summaryAt x s).totals ∧
      (summaryAt x σ.db).quantities = (summaryAt x s).quantities ∧
      (Named x s → summaryAt x σ.db = summaryAt x s)) := by
  have hsound : KasirSound readSessions db0 σ := run_sound h0 (fun _ _ hok => hok) h
  have hR : ∀ s, readSessions (.sessionRead s) := fun s => Or.inl ⟨s, rfl⟩
  have hinv : ∀ e ∈ σ.history, ShiftsOk e.before ∧ CanonicalOrigins e.before := fun e he =>
    (hsound.invariant_commit (fun d => ShiftsOk d ∧ CanonicalOrigins d) ⟨hinit, horigins⟩
      (fun e he ha => ⟨ha.1.step (fun s => Or.inr ⟨s, rfl⟩) he.invBefore he.post,
        ha.2.step he.post⟩) he).1
  have hopen : ∀ e ∈ σ.history, ∀ user dto mode tx sale r sid,
      SaleOf e.call e.result e.seen e.before user dto mode tx r →
      NewSale readSessions tx user dto mode sale r e.seen e.before →
      sale.rows.transaction.cashierSessionId = some sid → e.before.sessionOpen sid :=
    fun e he user dto mode tx sale r sid hcall hsale hsid =>
      hcall.sessionOpen hR hsale (hsound.commits e he).invBefore (hinv e he).1 (hinv e he).2 hsid
  refine ⟨fun e he user dto mode tx sale r sid hrec => hopen e he user dto mode tx sale r sid
    hrec.call hrec.made, fun s hs x hx hclosed => ?_⟩
  have hfinal : Final s σ.db := hsound.rel_of_mem_states Final Final.refl Final.trans
    (fun e he => (hsound.commits e he).post.final (hsound.commits e he).invBefore
      (hsound.commits e he).evolves (hopen e he)) hs
  obtain ⟨hmem, hsales⟩ := hfinal x hx hclosed
  have hgrows := (hsound.evolves_of_mem_states hs).sales
  obtain ⟨hcount, htotals, hquantities⟩ := summaryAt_figures hgrows hsales
  exact ⟨hmem, hsales, hcount, htotals, hquantities, summaryAt_same hgrows hsales⟩

/-- In the shop a sale is made and then the shift is closed. -/
theorem closed_shift_is_final_shop :
    ∃ σ : State, kasir.Run NoSaleOvertaken Shop.db σ ∧
      (∃ x ∈ σ.db.cashierSessions, x.status = .closed ∧ (summaryAt x σ.db).transactionCount = 1) ∧
      ∀ e ∈ σ.history, ∀ user dto mode tx sale r sid,
        RecordedBy readSessions e user dto mode tx sale r →
        sale.rows.transaction.cashierSessionId = some sid → e.before.sessionOpen sid := by
  obtain ⟨σ, -, hrun, hp, -⟩ := Shop.run readSessions
    [(Shop.sale (Shop.uuid 9 9 9), Shop.envs 1), (Shop.close, Shop.envs 2)]
    (fun _ after => after.cashierSessions.any fun x =>
      x.status == .closed && (summaryAt x after).transactionCount == 1)
    (by decide +kernel)
  have horigins : CanonicalOrigins Shop.db := fun _ ho => nomatch ho
  refine ⟨σ, hrun, ?_, (closed_shift_is_final Shop.wf Shop.shiftsOk horigins hrun).1⟩
  obtain ⟨x, hx, hclosed⟩ := List.any_eq_true.mp hp
  exact ⟨x, hx, by simpa using hclosed⟩

/-- A direct sale has read its session as OPEN (4 of its 13 statements have run)
    when the shift is closed with no sale on it; then the sale commits. -/
theorem close_overtakes_sale :
    ∃ σ : State, kasir.Reach Shop.db σ ∧ ∃ s ∈ states Shop.db σ.history,
      ∃ x ∈ s.cashierSessions, x.status = .closed ∧ (summaryAt x s).transactionCount = 0 ∧
        (summaryAt x σ.db).transactionCount = 1 ∧
        (summaryAt x σ.db).totals ≠ (summaryAt x s).totals := by
  obtain ⟨σ, hreach, hp⟩ := Shop.replay
    ([.call (Shop.sale (Shop.uuid 9 9 9))] ++ Shop.stmts 0 1 0 4 ++
      [.call Shop.close] ++ Shop.stmts 1 2 0 8 ++ [.commit 1] ++ Shop.stmts 0 1 4 9 ++ [.commit 0])
    (fun σ => (states Shop.db σ.history).any fun s => s.cashierSessions.any fun x =>
      decide (x.status = .closed ∧ (summaryAt x s).transactionCount = 0 ∧
        (summaryAt x σ.db).transactionCount = 1 ∧
        (summaryAt x σ.db).totals ≠ (summaryAt x s).totals))
    (by decide +kernel)
  obtain ⟨s, hs, hp⟩ := List.any_eq_true.mp hp
  obtain ⟨x, hx, hp⟩ := List.any_eq_true.mp hp
  exact ⟨σ, hreach, s, hs, x, hx, of_decide_eq_true hp⟩

end Kasir
