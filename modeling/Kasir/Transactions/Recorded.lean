/-
  Kasir.Transactions.Recorded

  The sale core at its commit: what the database held just before, what it holds
  after, and what the caller is answered.
-/

import Kasir.Transactions.Proof

namespace Kasir.Transactions

open Txn

/-- A sale is recorded: it is the one the request makes, its key and identifiers
    were free and the stock was there in the state before, and the caller is
    answered with its own rows. -/
structure NewSale (R : Token → Prop) (tx : TransactionClient) (user : JwtPayload)
    (dto : CheckoutDto) (mode : CheckoutMode) (sale : Sale) (r : TransactionResponse)
    (seen : List Db) (before : Db) : Prop where
  accepted : Accepted dto mode
  built : sale.Built user dto
  authorized : ∃ actor, Authorized user actor sale.tenant seen
  loaded : Loaded user.tenantId dto.items sale.catalog seen
  session : mode = .v1 → ∃ sid, dto.cashierSessionId = some sid ∧
    (Saw seen fun s => ∃ x ∈ s.cashierSessions, x.id = sid ∧ x.tenantId = user.tenantId ∧
      x.userId = user.sub ∧ x.status = .open ∧ x.outletId = dto.outletId) ∧
    (tx = .readCommitted → R (.sessionRead sid) → before.sessionOpen sid)
  free : ∀ x ∈ before.sales.transactions,
    hasKey user.tenantId dto.clientTransactionId x = false
  covered : ∀ e ∈ sale.rows.entries, ∃ x ∈ before.stocks.rowsOf dto.outletId e.1, e.2 ≤ x.stock
  fresh : ∀ t ∈ before.sales.transactions, t.id ≠ sale.rows.transaction.id
  freshItems : ∀ i ∈ before.sales.transactionItems, ∀ j ∈ sale.rows.items, i.id ≠ j.id
  nodupItems : (sale.rows.items.map TransactionItem.id).Nodup
  response : ∃ rank, toResponse (recordOf (sale.rows.sales {}) rank sale.rows.transaction)
    noLegacyProducts = .ok r

/-- An earlier sale is found and answered with. -/
def FoundSale (user : JwtPayload) (dto : CheckoutDto) (r : TransactionResponse) (db : Db) : Prop :=
  ∃ rank, ∃ t ∈ db.sales.transactions,
    hasKey user.tenantId dto.clientTransactionId t = true ∧
    sameRequest (recordOf db.sales rank t) user dto = true ∧
    toResponse (recordOf db.sales rank t) noLegacyProducts = .ok r

/-- What was found earlier is there at the commit, unchanged. -/
theorem Found.foundSale {user : JwtPayload} {dto : CheckoutDto} {r : TransactionResponse}
    {seen : List Db} {db d : Db} (h : Found user dto r seen db) (hev : Evolves db d) :
    FoundSale user dto r d := by
  obtain ⟨s, -, -, hevolves, rank, t, ht, hkey, hsame, hr⟩ := h
  have hgrows := (hevolves.trans hev).sales
  have hrec := recordOf_grows hgrows ht rank
  exact ⟨rank, t, hgrows.mem ht, hkey, hrec ▸ hsame, hrec ▸ hr⟩

section Commit

variable {R : Token → Prop} {tx : TransactionClient} {user : JwtPayload} {dto : CheckoutDto}
  {mode : CheckoutMode} {sale : Sale} {r : TransactionResponse}

/-- The caller is answered with the rows of its own sale. -/
theorem Answered.response {rows : SaleRows} {seen : List Db} {db d : Db}
    (h : Answered rows r seen db) (hlinked : rows.Linked) (hev : Evolves db d)
    (hfresh : ∀ t ∈ d.sales.transactions, t.id ≠ rows.transaction.id)
    (hitem : ∀ i ∈ d.sales.transactionItems, ∀ j ∈ rows.items, i.id ≠ j.id) :
    ∃ rank, toResponse (recordOf (rows.sales {}) rank rows.transaction) noLegacyProducts =
      .ok r := by
  obtain ⟨s, -, hwf, hevolves, rank, t, hfind, hr⟩ := h
  have hgrows := (hevolves.trans hev).sales
  -- fresh at the commit is fresh in the state read from
  have hfresh' : ∀ t ∈ s.sales.transactions, t.id ≠ rows.transaction.id :=
    fun t ht => hfresh t (hgrows.mem ht)
  have hitem' : ∀ i ∈ s.sales.transactionItems, ∀ j ∈ rows.items, i.id ≠ j.id :=
    fun i hi => hitem i (hgrows.item_mem hi)
  rw [SaleRows.write_eq_apply hlinked hfresh'] at hfind hr
  change (s.sales.transactions ++ [rows.transaction]).find? _ = some t at hfind
  have hold : s.sales.transactions.find? (fun t => t.id == rows.transaction.id &&
      t.tenantId == rows.transaction.tenantId) = none := by
    rw [List.find?_eq_none]
    intro t ht
    simp [hfresh' t ht]
  rw [List.find?_append, hold, Option.none_or, List.find?_singleton] at hfind
  simp only [beq_self_eq_true, Bool.and_self, if_true, Option.some.injEq] at hfind
  subst hfind
  change toResponse (recordOf (rows.sales s.sales) rank rows.transaction) noLegacyProducts =
    .ok r at hr
  rw [SaleRows.recordOf_own hwf hlinked hfresh' hitem'] at hr
  exact ⟨rank, hr⟩

/-- From the end of the core to the commit. -/
theorem Sold.newSale {st : St Db Token} {db d after : Db}
    (h : Sold R tx user dto mode sale r st db) (hrely : (protocol R).Rely st.held db d)
    (hlegal : after.legal = true) (hs : after.sales = (sale.rows.write d).sales) :
    NewSale R tx user dto mode sale r st.seen d := by
  have hran : Ran R id st db st d := ⟨fun _ => rfl, fun _ h => h, fun _ h => h, hrely⟩
  have hd := h.later hran
  have hfresh := SaleRows.fresh_of_legal hs hlegal
  have hitem := SaleRows.fresh_item_of_legal hs hlegal
  exact
    { accepted := h.accepted, built := h.built, authorized := h.authorized, loaded := h.loaded
      session := fun hm => by
        obtain ⟨sid, hsid⟩ := hd.session hm
        exact ⟨sid, hsid.named, hsid.read, hsid.isOpen⟩
      free := hd.key.free
      covered := fun e he => (hd.covered e he).2
      fresh := hfresh, freshItems := hitem
      nodupItems := SaleRows.nodup_items_of_legal hs hlegal
      response := h.answered.response h.built.linked hrely.evolves hfresh hitem }

namespace NewSale

variable {seen : List Db} {before : Db} (h : NewSale R tx user dto mode sale r seen before)
include h

theorem write_eq : sale.rows.write before = sale.rows.apply before :=
  SaleRows.write_eq_apply h.built.linked h.fresh

theorem grows : Sales.Grows before.sales (sale.rows.sales before.sales) :=
  SaleRows.grows h.built.linked h.fresh h.freshItems

/-- The response names the sale. -/
theorem transactionId_eq : r.transactionId = sale.rows.transaction.id := by
  obtain ⟨rank, hr⟩ := h.response
  obtain ⟨_, -, hr⟩ := Checked.bind_ok.mp hr
  rw [← Except.ok.inj hr]
  rfl

end NewSale

-- ============================================================================
-- Ownership
-- ============================================================================

/-- Recording a sale adds no entry but its own. -/
theorem same_saleKey_sales {a b : Db} {rows : SaleRows} {tenantId key : Id}
    (hb : b.sales = rows.sales a.sales) (hkey : hasKey tenantId key rows.transaction = true)
    (t k : Id) : (t = tenantId ∧ k = key) ∨ same R (.saleKey t k) a b := by
  by_cases hown : t = tenantId ∧ k = key
  · exact Or.inl hown
  · refine Or.inr fun hfree x hx => ?_
    rw [hb] at hx
    rcases List.mem_append.mp hx with hx | hx
    · exact hfree x hx
    · rw [List.mem_singleton.mp hx]
      simp only [hasKey, Bool.and_eq_true, beq_iff_eq] at hkey
      cases hcase : hasKey t k rows.transaction with
      | false => rfl
      | true =>
          simp only [hasKey, Bool.and_eq_true, beq_iff_eq] at hcase
          exact absurd ⟨hcase.1.symm.trans hkey.1, hcase.2.symm.trans hkey.2⟩ hown

/-- Recording a sale changes no stock row but those of its entries. -/
theorem same_stock_stocks {a b : Db} {rows : SaleRows} (hb : b.stocks = rows.stocks a.stocks)
    (o p : Id) : (o = rows.transaction.outletId ∧ p ∈ rows.entries.map Prod.fst) ∨
      b.stocks.rowsOf o p = a.stocks.rowsOf o p := by
  by_cases hown : o = rows.transaction.outletId ∧ p ∈ rows.entries.map Prod.fst
  · exact Or.inl hown
  · rw [hb]
    refine Or.inr (rowsOf_stocks_of_not_mem ?_ _)
    by_cases ho : o = rows.transaction.outletId
    · exact Or.inr fun hp => hown ⟨ho, hp⟩
    · exact Or.inl ho

theorem Covered.mem_held {outletId : Id} {entries : List (Id × Int)} {held : List Token} {db : Db}
    (h : Covered outletId entries held db) {o p : Id} (ho : o = outletId)
    (hp : p ∈ entries.map Prod.fst) : .stock o p ∈ held := by
  obtain ⟨e, he, rfl⟩ := List.mem_map.mp hp
  exact ho ▸ (h e he).1

end Commit

end Kasir.Transactions
