/-
  Kasir.SaleHistory

  Where the sales of a state come from.

  Every transaction of a reachable state was there at the start or was recorded by
  a commit of the run, and the rows that commit wrote are still the rows of the
  transaction: its items with their modifiers, its payment and its stock movements.
-/

import Kasir.Frames

namespace Kasir

open Txn Transactions HeldOrders

/-- The movements that a sale has caused. -/
def saleMovementOf (t : Transaction) (m : StockMovement) : Bool :=
  m.type == .sale && m.referenceId == some t.id

/-- These rows, and no others, are stored for the sale. -/
structure Transactions.SaleRows.Stored (rows : SaleRows) (db : Db) : Prop where
  transaction : rows.transaction ∈ db.sales.transactions
  items : db.sales.transactionItems.filter (itemOf rows.transaction) = rows.items
  modifiers : ∀ i ∈ rows.items, db.sales.transactionItemModifiers.filter (modifierOf i) =
    rows.modifiers.filter (modifierOf i)
  payment : db.sales.payments.filter (paymentOf rows.transaction) = [rows.payment]
  movements : db.stocks.stockMovements.filter (saleMovementOf rows.transaction) = rows.movements

/-- What the sale tables of a shop look like: no key is used twice, every sale has
    its one payment, and a SALE movement belongs to a sale. -/
structure SalesOk (db : Db) : Prop where
  uniqueKey : ∀ x ∈ db.sales.transactions, ∀ y ∈ db.sales.transactions, ∀ t k,
    hasKey t k x = true → hasKey t k y = true → x = y
  onePayment : ∀ x ∈ db.sales.transactions, ∃ p, db.sales.payments.filter (paymentOf x) = [p]
  linked : ∀ m ∈ db.stocks.stockMovements, m.type = .sale →
    ∃ t ∈ db.sales.transactions, m.referenceId = some t.id

/-- A commit that records a sale. -/
structure RecordedBy (R : Token → Prop) (e : KasirCommit) (user : JwtPayload) (dto : CheckoutDto)
    (mode : CheckoutMode) (tx : TransactionClient) (sale : Sale) (r : TransactionResponse) :
    Prop where
  call : SaleOf e.call e.result e.seen e.before user dto mode tx r
  made : NewSale R tx user dto mode sale r e.seen e.before
  sales : e.after.sales = sale.rows.sales e.before.sales
  stocks : e.after.stocks = sale.rows.stocks e.before.stocks

-- ============================================================================
-- One commit
-- ============================================================================

section Step

variable {R : Token → Prop} {c : Call} {r : Result} {seen : List Db} {a b : Db}

/-- The movements of a sale carry its identifier. -/
theorem Transactions.Sale.Built.movement {user : JwtPayload} {dto : CheckoutDto} {sale : Sale}
    (h : sale.Built user dto) : ∀ m ∈ sale.rows.movements,
      m.type = .sale ∧ m.referenceId = some sale.rows.transaction.id := by
  intro m hm
  obtain ⟨env, heq⟩ := h.movements
  rw [heq] at hm
  obtain ⟨x, -, rfl⟩ := List.mem_map.mp hm
  exact ⟨rfl, rfl⟩

/-- Later commits leave the movements of a sale alone. -/
theorem Effect.saleMovements (h : Effect R c r seen a b) {t : Transaction}
    (ht : t ∈ a.sales.transactions) :
    b.stocks.stockMovements.filter (saleMovementOf t) =
      a.stocks.stockMovements.filter (saleMovementOf t) := by
  rcases h.sales_cases with ⟨-, hs⟩ | ⟨user, dto, mode, tx, sale, resp, -, hsale, -, hs⟩ |
    ⟨user, dto, isNew, env, env', -, -, -, hs⟩
  · rw [hs]
  · rw [hs]
    refine filter_append_of_none fun m hm => ?_
    obtain ⟨-, href⟩ := hsale.built.movement m hm
    simp [saleMovementOf, href, Ne.symm (hsale.fresh t ht)]
  · rw [hs]
    refine filter_append_of_none fun m hm => ?_
    rw [List.mem_singleton.mp hm]
    rfl

/-- A recorded sale stays as it was recorded. -/
theorem Transactions.SaleRows.Stored.step {rows : SaleRows} (hs : rows.Stored a)
    (hgrows : Sales.Grows a.sales b.sales) (h : Effect R c r seen a b) : rows.Stored b where
  transaction := hgrows.mem hs.transaction
  items := by
    obtain ⟨new, heq, hnew⟩ := hgrows.items
    rw [heq, filter_append_of_none fun i hi => hnew i hi _ hs.transaction, hs.items]
  modifiers := by
    intro i hi
    obtain ⟨new, heq, hnew⟩ := hgrows.modifiers
    have hmem : i ∈ a.sales.transactionItems := by
      rw [← hs.items] at hi
      exact List.mem_of_mem_filter hi
    rw [heq, filter_append_of_none fun m hm => hnew m hm i hmem, hs.modifiers i hi]
  payment := by
    obtain ⟨new, heq, hnew⟩ := hgrows.payments
    rw [heq, filter_append_of_none fun p hp => hnew p hp _ hs.transaction, hs.payment]
  movements := (h.saleMovements hs.transaction).trans hs.movements

/-- A sale is stored by the commit that records it. -/
theorem Transactions.NewSale.stored {user : JwtPayload} {dto : CheckoutDto} {mode : CheckoutMode}
    {tx : TransactionClient} {sale : Sale} {resp : TransactionResponse}
    (h : NewSale R tx user dto mode sale resp seen a) (hwf : Wf a) (ha : SalesOk a)
    (hsales : b.sales = sale.rows.sales a.sales) (hstocks : b.stocks = sale.rows.stocks a.stocks) :
    sale.rows.Stored b where
  transaction := by
    rw [hsales]
    exact List.mem_append_right _ (List.mem_singleton.mpr rfl)
  items := hsales ▸ SaleRows.filter_items_own hwf h.built.linked h.fresh
  modifiers := hsales ▸ SaleRows.filter_modifiers_own hwf h.freshItems
  payment := hsales ▸ SaleRows.filter_payments_own hwf h.built.linked h.fresh
  movements := by
    rw [hstocks]
    have hold : ∀ m ∈ a.stocks.stockMovements, saleMovementOf sale.rows.transaction m = false := by
      intro m hm
      by_cases htype : m.type = .sale
      · obtain ⟨t, ht, href⟩ := ha.linked m hm htype
        simp [saleMovementOf, href, h.fresh t ht]
      · simp [saleMovementOf, htype]
    refine (filter_append_of_none_old hold).trans (List.filter_eq_self.mpr fun m hm => ?_)
    obtain ⟨htype, href⟩ := h.built.movement m hm
    simp [saleMovementOf, htype, href]

/-- One commit keeps the sale tables in order. -/
theorem SalesOk.step (ha : SalesOk a) (hwf : Wf a) (h : Effect R c r seen a b) : SalesOk b := by
  rcases h.sales_cases with ⟨hs, hst⟩ | ⟨user, dto, mode, tx, sale, resp, -, hsale, hs, hst⟩ |
    ⟨user, dto, isNew, env, env', -, -, hs, hst⟩
  · exact ⟨hs ▸ ha.uniqueKey, hs ▸ ha.onePayment, by rw [hs, hst]; exact ha.linked⟩
  · have hstored := hsale.stored hwf ha hs hst
    have hgrows : Sales.Grows a.sales b.sales := hs ▸ hsale.grows
    have hmem : ∀ x ∈ b.sales.transactions, x ∈ a.sales.transactions ∨
        x = sale.rows.transaction := by
      intro x hx
      rw [hs] at hx
      simpa [SaleRows.sales] using hx
    -- the key of the new sale was free
    have hfree : ∀ x ∈ a.sales.transactions, ∀ t k, hasKey t k x = true →
        hasKey t k sale.rows.transaction = true → False := by
      intro x hx t k hxk hk
      have hown := hsale.built.hasKey
      have hno := hsale.free x hx
      simp only [Transactions.hasKey, Bool.and_eq_true, beq_iff_eq] at hxk hk hown
      simp [Transactions.hasKey, hxk, ← hk.1, ← hk.2, hown] at hno
    refine ⟨fun x hx y hy t k hxk hyk => ?_, fun x hx => ?_, fun m hm htype => ?_⟩
    · rcases hmem x hx with hx | rfl <;> rcases hmem y hy with hy | rfl
      · exact ha.uniqueKey x hx y hy t k hxk hyk
      · exact (hfree x hx t k hxk hyk).elim
      · exact (hfree y hy t k hyk hxk).elim
      · rfl
    · rcases hmem x hx with hx | rfl
      · obtain ⟨p, hp⟩ := ha.onePayment x hx
        obtain ⟨new, heq, hnew⟩ := hgrows.payments
        exact ⟨p, by rw [heq, filter_append_of_none fun q hq => hnew q hq x hx, hp]⟩
      · exact ⟨_, hstored.payment⟩
    · rw [hst] at hm
      rcases List.mem_append.mp hm with hm | hm
      · obtain ⟨t, ht, href⟩ := ha.linked m hm htype
        exact ⟨t, hgrows.mem ht, href⟩
      · exact ⟨_, hstored.transaction, (hsale.built.movement m hm).2⟩
  · refine ⟨hs ▸ ha.uniqueKey, hs ▸ ha.onePayment, fun m hm htype => ?_⟩
    rw [hst] at hm
    rw [hs]
    rcases List.mem_append.mp hm with hm | hm
    · exact ha.linked m hm htype
    · rw [List.mem_singleton.mp hm] at htype
      cases htype

end Step

-- ============================================================================
-- Runs
-- ============================================================================

section Runs

variable {R : Token → Prop} {db0 : Db} {σ : State}

theorem SalesOk.invariant (h : KasirSound R db0 σ) (h0 : SalesOk db0) : SalesOk σ.db :=
  h.invariant SalesOk h0 fun _ he ha => ha.step he.invBefore he.post

theorem SalesOk.before (h : KasirSound R db0 σ) (h0 : SalesOk db0) {e : KasirCommit}
    (he : e ∈ σ.history) : SalesOk e.before :=
  (h.invariant_commit SalesOk h0 (fun _ he ha => ha.step he.invBefore he.post) he).1

/-- What a commit has recorded is there in every later state. -/
theorem RecordedBy.stored (h : KasirSound R db0 σ) (h0 : SalesOk db0) {e : KasirCommit}
    (he : e ∈ σ.history) {user : JwtPayload} {dto : CheckoutDto} {mode : CheckoutMode}
    {tx : TransactionClient} {sale : Sale} {r : TransactionResponse}
    (hrec : RecordedBy R e user dto mode tx sale r) : sale.rows.Stored σ.db := by
  obtain ⟨pre, post, heq⟩ := List.append_of_mem he
  refine Sound.later h sale.rows.Stored (fun e' he' hs => hs.step he'.evolves.sales he'.post) heq ?_
  exact hrec.made.stored (h.commits e he).invBefore (h0.before h he) hrec.sales hrec.stocks

/-- Where a sale comes from. -/
theorem recorded_by (h : KasirSound R db0 σ) :
    ∀ x ∈ σ.db.sales.transactions, x ∈ db0.sales.transactions ∨
      ∃ e ∈ σ.history, ∃ user dto mode tx sale r, RecordedBy R e user dto mode tx sale r ∧
        sale.rows.transaction = x := by
  refine h.chain.invariant (fun d => ∀ x ∈ d.sales.transactions, x ∈ db0.sales.transactions ∨
    ∃ e ∈ σ.history, ∃ user dto mode tx sale r, RecordedBy R e user dto mode tx sale r ∧
      sale.rows.transaction = x) (fun x hx => Or.inl hx) fun e he hbefore x hx => ?_
  rcases (h.commits e he).post.sales_cases with ⟨hs, -⟩ |
    ⟨user, dto, mode, tx, sale, resp, hcall, hsale, hs, hst⟩ |
    ⟨user, dto, isNew, env, env', -, -, hs, -⟩
  · exact hbefore x (hs ▸ hx)
  · rw [hs] at hx
    rcases List.mem_append.mp hx with hx | hx
    · exact hbefore x hx
    · exact Or.inr ⟨e, he, user, dto, mode, tx, sale, resp, ⟨hcall, hsale, hs, hst⟩,
        (List.mem_singleton.mp hx).symm⟩
  · exact hbefore x (hs ▸ hx)

end Runs

theorem Shop.salesOk : SalesOk Shop.db where
  uniqueKey := fun _ hx => nomatch hx
  onePayment := fun _ hx => nomatch hx
  linked := fun _ hm => nomatch hm

theorem Shop.cafe_salesOk : SalesOk Shop.cafe where
  uniqueKey := Shop.salesOk.uniqueKey
  onePayment := Shop.salesOk.onePayment
  linked := Shop.salesOk.linked

end Kasir
