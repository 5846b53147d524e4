/-
  Kasir.Books

  The books: what is true of every sale in the database, by itself.

  A sale is COMPLETED, paid once and in full, and its amounts are those of its items.
  Every commit of every run keeps that: a commit that records a sale writes it so, and
  the others leave sales and what belongs to them alone.
-/

import Kasir.SaleContents

namespace Kasir

open Txn Transactions

-- ============================================================================
-- A sale in the books
-- ============================================================================

/-- The items of a sale. -/
def itemsOf (sales : Sales) (t : Transaction) : List TransactionItem :=
  sales.transactionItems.filter (itemOf t)

/-- A sale and what belongs to it. -/
structure Booked (sales : Sales) (t : Transaction) : Prop where
  completed : t.status = .completed
  payment : ∃ p, sales.payments.filter (paymentOf t) = [p] ∧ p.status = .paid ∧ p.amount = t.total
  subtotal : t.subtotal = ((itemsOf sales t).map TransactionItem.subtotal).sum
  discount : 0 ≤ t.discount ∧ t.discount ≤ t.subtotal
  total : t.total = t.subtotal - t.discount + t.tax
  positive : 0 < t.subtotal ∧ 0 < t.total
  safe : t.total ≤ maxSafeInteger
  lines : ∀ i ∈ itemsOf sales t, 0 < i.quantity ∧ i.quantity ≤ int4Max ∧
    i.subtotal = i.unitPrice * i.quantity ∧ i.productNameSnapshot.isSome = true

/-- Every sale is booked. -/
def BooksOk (db : Db) : Prop := ∀ t ∈ db.sales.transactions, Booked db.sales t

-- ============================================================================
-- A new sale
-- ============================================================================

/-- Nothing is owed on nothing. -/
theorem calculateTax_zero (taxEnabled : Bool) (taxRate : TaxRate) :
    (calculateTax taxEnabled taxRate 0).tax = 0 := by
  cases taxEnabled with
  | false => rfl
  | true => simp [calculateTax]

section Built

variable {user : JwtPayload} {dto : CheckoutDto} {sale : Sale}

/-- The columns of the sale are its totals. -/
theorem Transactions.Sale.Built.columns (h : sale.Built user dto) :
    sale.rows.transaction.status = .completed ∧
    sale.rows.transaction.subtotal = sale.totals.subtotal ∧
    sale.rows.transaction.discount = sale.totals.discount ∧
    sale.rows.transaction.tax = sale.totals.tax ∧
    sale.rows.transaction.total = sale.totals.total := by
  obtain ⟨env, henv⟩ := h.transaction
  rw [henv]
  exact ⟨rfl, rfl, rfl, rfl, rfl⟩

/-- The payment is PAID and in full. -/
theorem Transactions.Sale.Built.paid (h : sale.Built user dto) :
    sale.rows.payment.status = .paid ∧ sale.rows.payment.amount = sale.rows.transaction.total := by
  obtain ⟨env, henv⟩ := h.payment
  rw [henv, h.columns.2.2.2.2]
  exact ⟨rfl, rfl⟩

/-- A sale that is stored as it is built is booked. -/
theorem Transactions.Sale.Built.booked (h : sale.Built user dto) (hwell : Wellformed dto)
    (hnodup : (sale.rows.items.map TransactionItem.id).Nodup) {db : Db}
    (hstored : sale.rows.Stored db) : Booked db.sales sale.rows.transaction := by
  have hamounts := h.amounts
  obtain ⟨hcompleted, hsubtotal, hdiscount, htax, htotal⟩ := h.columns
  obtain ⟨hpaid, hamount⟩ := h.paid
  have hitems : itemsOf db.sales sale.rows.transaction = sale.rows.items := hstored.items
  have hnonneg : 0 ≤ sale.totals.discount := by
    rw [hamounts.discount]
    exact hwell.discount.1
  -- a sale of nothing would be free
  have hsome : 0 < sale.totals.subtotal := by
    by_contra hnot
    have hle := hamounts.discount_le
    have hzero : sale.totals.subtotal - sale.totals.discount = 0 := by omega
    have htax0 := hamounts.tax
    rw [hzero, calculateTax_zero] at htax0
    have hsum := hamounts.total
    have hpos := hamounts.positive
    omega
  refine ⟨hcompleted, ⟨_, hstored.payment, hpaid, hamount⟩, ?_, ?_, ?_, ?_, ?_, ?_⟩
  · rw [hitems, hsubtotal]
    exact hamounts.subtotal
  · rw [hdiscount, hsubtotal]
    exact ⟨hnonneg, hamounts.discount_le⟩
  · rw [htotal, hsubtotal, hdiscount, htax]
    exact hamounts.total
  · rw [hsubtotal, htotal]
    exact ⟨hsome, hamounts.positive⟩
  · rw [htotal]
    exact hamounts.range.2
  · rw [hitems]
    intro row hrow
    obtain ⟨item, hitem, hline⟩ := forall₂_mem_right (h.lines hnodup) row hrow
    have hvalid := hwell.items item hitem
    unfold CreateTransactionItemDto.valid at hvalid
    simp only [Bool.and_eq_true, decide_eq_true_eq] at hvalid
    obtain ⟨⟨⟨⟨-, hmin⟩, hmax⟩, -⟩, -⟩ := hvalid
    have hquantity := hline.quantity
    exact ⟨by omega, by omega, hline.subtotal, hline.named⟩

end Built

-- ============================================================================
-- Every run
-- ============================================================================

/-- A sale stays booked while its rows stay. -/
theorem Booked.grows {a b : Sales} (h : Sales.Grows a b) {t : Transaction}
    (ht : t ∈ a.transactions) (hbooked : Booked a t) : Booked b t := by
  obtain ⟨newItems, hitems, hnewItems⟩ := h.items
  obtain ⟨newPayments, hpayments, hnewPayments⟩ := h.payments
  have hsame : itemsOf b t = itemsOf a t := by
    unfold itemsOf
    rw [hitems]
    exact filter_append_of_none fun i hi => hnewItems i hi t ht
  obtain ⟨p, hp, hpaid⟩ := hbooked.payment
  refine { hbooked with payment := ⟨p, ?_, hpaid⟩, subtotal := ?_, lines := ?_ }
  · rw [hpayments, filter_append_of_none fun q hq => hnewPayments q hq t ht]
    exact hp
  · rw [hsame]
    exact hbooked.subtotal
  · rw [hsame]
    exact hbooked.lines

section Runs

variable {R : Token → Prop} {db0 : Db} {σ : State}

/-- One commit keeps the books. -/
theorem BooksOk.step {e : KasirCommit} (he : CommitOk kasir (protocol R) (Effect R) e)
    (hsales : SalesOk e.before) (h : BooksOk e.before) : BooksOk e.after := by
  intro t ht
  rcases he.post.sales_cases with ⟨hs, -⟩ | ⟨user, dto, mode, tx, sale, resp, hcall, hsale, hs, hst⟩ |
    ⟨user, dto, isNew, env, env', -, -, hs, -⟩
  · rw [hs] at ht ⊢
    exact h t ht
  · have hrec : RecordedBy R e user dto mode tx sale resp := ⟨hcall, hsale, hs, hst⟩
    have hmem := ht
    rw [hs] at hmem
    rcases List.mem_append.mp hmem with hold | hnew
    · exact (h t hold).grows (hs ▸ hsale.grows) hold
    · rw [List.mem_singleton.mp hnew]
      exact hsale.built.booked (hrec.wellformed he.admitted) hsale.nodupItems
        (hsale.stored he.invBefore hsales hs hst)
  · rw [hs] at ht ⊢
    exact h t ht

/-- The books are kept in every committed state of a run. -/
theorem BooksOk.states (h : KasirSound R db0 σ) (hsales : SalesOk db0) (h0 : BooksOk db0) {d : Db}
    (hd : d ∈ Txn.states db0 σ.history) : BooksOk d := by
  rcases mem_states.mp hd with rfl | ⟨e, he, rfl⟩
  · exact h0
  · have hboth := (h.invariant_commit (fun d => SalesOk d ∧ BooksOk d) ⟨hsales, h0⟩
      (fun e he hbefore => ⟨hbefore.1.step he.invBefore he.post, hbefore.2.step he hbefore.1⟩) he).2
    exact hboth.2

theorem BooksOk.invariant (h : KasirSound R db0 σ) (hsales : SalesOk db0) (h0 : BooksOk db0) :
    BooksOk σ.db :=
  h0.states h hsales h.chain.mem_states

end Runs

theorem Shop.books : BooksOk Shop.db := fun _ h => nomatch h

end Kasir
