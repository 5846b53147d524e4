/-
  Kasir.Guarantees.Accounting

  Every sale adds up.

  In every state that calls can lead to, whatever their interleaving, the rows of a sale
  are those that its request makes of the tenant and the products that its call has read:
  lines, amounts, tax, payment and stock movements.
-/

import Kasir.Books
import Kasir.Widths

namespace Kasir

open Txn Js Transactions

-- ============================================================================
-- What the tables say of a sale
-- ============================================================================

/-- The modifiers of an item. -/
def modifiersOf (sales : Sales) (row : TransactionItem) : List TransactionItemModifier :=
  sales.transactionItemModifiers.filter (modifierOf row)

/-- The item is of the line: its product and quantity, its options, its trimmed note, and
    the price these make.  Names, prices and the cost are those of the loaded catalog. -/
structure ItemOf (catalog : LoadedCatalog) (sales : Sales) (item : CreateTransactionItemDto)
    (row : TransactionItem) : Prop where
  productId : row.productId = item.productId
  quantity : row.quantity = item.quantity
  note : row.noteSnapshot = item.note
  options : (modifiersOf sales row).map TransactionItemModifier.modifierOptionId =
    (item.modifierOptionIds.getD []).map some
  unitPrice : ∃ base, row.basePriceSnapshot = some base ∧ row.unitPrice =
    base + ((modifiersOf sales row).map TransactionItemModifier.priceDeltaSnapshot).sum
  effectivePrice : row.effectivePriceSnapshot = some row.unitPrice
  subtotal : row.subtotal = row.unitPrice * row.quantity
  recorded : ∃ product options, LineOk catalog item product options ∧
    Records row (modifiersOf sales row) product options

/-- The payment pays the sale as it was requested. -/
structure Pays (t : Transaction) (dto : CheckoutDto) (p : Payment) : Prop where
  method : p.method = dto.payment.method
  status : p.status = .paid
  amount : p.amount = t.total
  cash : dto.payment.method = .cash → ∃ received,
    dto.payment.amountReceived.or dto.payment.amount = some received ∧ t.total ≤ received ∧
    p.amountReceived = some received ∧ p.changeAmount = some (received - t.total)
  cashless : dto.payment.method ≠ .cash → p.amountReceived = none ∧ p.changeAmount = none

/-- The product was tracked when its row was read. -/
def trackedIn (products : List Product) (productId : Id) : Bool :=
  (products.find? fun p => p.id == productId).any Product.trackStock

/-- What the lines ask for of a product. -/
def askedOf (items : List CreateTransactionItemDto) (productId : Id) : List Int :=
  (items.filter fun i => i.productId == productId).map CreateTransactionItemDto.quantity

/-- Where and by how much a sale has moved a product. -/
def movedBy (stocks : Stocks) (t : Transaction) (productId : Id) : List (Id × Int) :=
  ((stocks.stockMovements.filter (saleMovementOf t)).filter fun m => m.productId == productId).map
    fun m => (m.outletId, m.quantity)

/-- The rows of the sale are what its request makes of this tenant and this catalog. -/
structure Accounted (db : Db) (t : Transaction) (user : JwtPayload) (dto : CheckoutDto)
    (tenant : Tenant) (catalog : LoadedCatalog) : Prop where
  request : t.tenantId = user.tenantId ∧ t.userId = user.sub ∧
    t.clientTransactionId = dto.clientTransactionId ∧ t.outletId = dto.outletId ∧
    t.cashierSessionId = dto.cashierSessionId ∧ t.customerId = dto.customerId
  completed : t.status = .completed
  lines : List.Forall₂ (ItemOf catalog db.sales) dto.items (itemsOf db.sales t)
  subtotal : t.subtotal = ((itemsOf db.sales t).map TransactionItem.subtotal).sum
  discount : t.discount = dto.discount.getD 0 ∧ 0 ≤ t.discount ∧ t.discount ≤ t.subtotal
  tax : t.tax = (calculateTax tenant.taxEnabled tenant.taxRate (t.subtotal - t.discount)).tax
  total : t.total = t.subtotal - t.discount + t.tax
  range : 0 < t.total ∧ t.total ≤ maxSafeInteger
  payment : ∃ p, db.sales.payments.filter (paymentOf t) = [p] ∧ Pays t dto p
  /-- one movement for each tracked product of the lines, of all that they ask for -/
  movements : ∀ productId, movedBy db.stocks t productId =
    if trackedIn catalog.products productId && !(askedOf dto.items productId).isEmpty then
      [(t.outletId, -(askedOf dto.items productId).sum)] else []

-- ============================================================================
-- Movements
-- ============================================================================

section Movements

variable {user : JwtPayload} {dto : CheckoutDto} {sale : Sale}

/-- The entry of a key in a map of sums. -/
theorem filter_tallied (xs : List (Id × Int)) (k : Id) :
    ((tallied (· + ·) xs).filter fun e => e.1 == k).map Prod.snd =
      if (amountsOf k xs).isEmpty then [] else [(amountsOf k xs).sum] := by
  have htallies := tallies (· + ·) xs
  by_cases hk : k ∈ (tallied (· + ·) xs).map Prod.fst
  · obtain ⟨e, he, rfl⟩ := List.mem_map.mp hk
    obtain ⟨n, ns, hamounts, -⟩ := htallies.amounts e he
    have hone : (tallied (· + ·) xs).filter (fun x => x.1 == e.1) = [e] :=
      filter_eq_singleton htallies.nodup he (beq_self_eq_true _) fun y _ hy => beq_iff_eq.mp hy
    rw [hone, List.map_singleton, htallies.sum he, hamounts]
    rfl
  · have hnone : (tallied (· + ·) xs).filter (fun x => x.1 == k) = [] :=
      List.filter_eq_nil_iff.mpr fun x hx hkey =>
        hk (List.mem_map.mpr ⟨x, hx, beq_iff_eq.mp hkey⟩)
    have hempty : amountsOf k xs = [] := amountsOf_nil fun h => hk ((htallies.keys k).mpr h)
    rw [hnone, hempty]
    rfl

/-- The movements of a product are those of its entry. -/
theorem filter_movementRows (user : JwtPayload) (outletId tid productId : Id)
    (entries : List (Id × Int)) (env : Env) :
    (((movementRows user outletId tid entries env).filter fun m => m.productId == productId).map
      fun m => (m.outletId, m.quantity)) =
      ((entries.filter fun e => e.1 == productId).map Prod.snd).map fun n => (outletId, -n) := by
  unfold movementRows
  -- the positions count from anywhere
  generalize 0 = k
  induction entries generalizing k with
  | nil => rfl
  | cons e entries ih =>
      rw [List.zipIdx_cons, List.map_cons, List.filter_cons, List.filter_cons]
      by_cases he : e.1 = productId
      · rw [if_pos (beq_iff_eq.mpr he), if_pos (beq_iff_eq.mpr he)]
        simp only [List.map_cons]
        rw [ih]
      · rw [if_neg (fun h => he (beq_iff_eq.mp h)), if_neg (fun h => he (beq_iff_eq.mp h))]
        exact ih (k + 1)

/-- What the tracked lines ask for of a product. -/
theorem amountsOf_trackedQuantities {catalog : LoadedCatalog} {items : List CreateTransactionItemDto}
    {validated : List ValidatedItem}
    (h : List.Forall₂ (fun item v => validateItem catalog item = .ok v) items validated)
    (productId : Id) : amountsOf productId (trackedQuantities validated) =
      if trackedIn catalog.products productId then askedOf items productId else [] := by
  induction h with
  | nil => simp [trackedQuantities, amountsOf, askedOf]
  | @cons item v items validated hitem _ ih =>
      obtain ⟨product, options, hline, rfl⟩ := validateItem_ok hitem
      have htracked : trackedIn catalog.products item.productId = product.trackStock := by
        unfold trackedIn
        rw [hline.found]
        rfl
      have hid : product.id = item.productId := hline.productId
      unfold trackedQuantities amountsOf askedOf at ih ⊢
      rw [List.filter_cons, List.filter_cons]
      by_cases hproduct : item.productId = productId
      · subst hproduct
        rw [htracked] at ih ⊢
        cases htrack : product.trackStock with
        | true =>
            rw [htrack, if_pos rfl] at ih
            simp only [if_true, List.map_cons, List.filter_cons, hid, decide_true, beq_self_eq_true, ih]
        | false =>
            rw [htrack, if_neg Bool.false_ne_true] at ih
            simp only [Bool.false_eq_true, if_false, ih]
      · have hother : ¬ product.id = productId := fun h => hproduct (hid.symm.trans h)
        have hne : ¬ (item.productId == productId) = true := fun h => hproduct (beq_iff_eq.mp h)
        rw [if_neg hne]
        cases htrack : product.trackStock with
        | true =>
            simp only [if_true, List.map_cons, List.filter_cons, hother, decide_false,
              Bool.false_eq_true, if_false, ih]
        | false =>
            simp only [Bool.false_eq_true, if_false, ih]

/-- The movements of a sale. -/
theorem Transactions.Sale.Built.movedBy (h : sale.Built user dto) {db : Db}
    (hstored : sale.rows.Stored db) (productId : Id) :
    movedBy db.stocks sale.rows.transaction productId =
      if trackedIn sale.catalog.products productId && !(askedOf dto.items productId).isEmpty then
        [(sale.rows.transaction.outletId, -(askedOf dto.items productId).sum)] else [] := by
  obtain ⟨env, hmovements⟩ := h.movements
  unfold Kasir.movedBy
  rw [hstored.movements, hmovements, filter_movementRows, h.entries, stockByProduct_eq, filter_tallied,
    amountsOf_trackedQuantities (Checked.mapM_ok.mp h.items), h.outletId]
  cases trackedIn sale.catalog.products productId with
  | false => rfl
  | true =>
      cases hasked : askedOf dto.items productId with
      | nil => rfl
      | cons n ns => rfl

end Movements

-- ============================================================================
-- Every sale
-- ============================================================================

section Stored

variable {user : JwtPayload} {dto : CheckoutDto} {sale : Sale} {db : Db}

/-- The items of a stored sale are the lines of its request. -/
theorem Transactions.Sale.Built.itemsOf (h : sale.Built user dto)
    (hnodup : (sale.rows.items.map TransactionItem.id).Nodup) (hstored : sale.rows.Stored db) :
    List.Forall₂ (ItemOf sale.catalog db.sales) dto.items
      (Kasir.itemsOf db.sales sale.rows.transaction) := by
  have hitems : Kasir.itemsOf db.sales sale.rows.transaction = sale.rows.items := hstored.items
  rw [hitems]
  refine forall₂_imp_mem (h.lines hnodup) fun item row _ hrow hline => ?_
  have hmodifiers : modifiersOf db.sales row = sale.rows.modifiersOf row := hstored.modifiers row hrow
  exact
    { productId := hline.productId, quantity := hline.quantity, note := hline.note
      options := by rw [hmodifiers]; exact hline.options
      unitPrice := by rw [hmodifiers]; exact hline.unitPrice
      effectivePrice := hline.effectivePrice, subtotal := hline.subtotal
      recorded := by rw [hmodifiers]; exact hline.recorded }

/-- The payment of a sale pays it. -/
theorem Transactions.Sale.Built.pays (h : sale.Built user dto) (hwell : Wellformed dto) :
    Pays sale.rows.transaction dto sale.rows.payment := by
  have hamounts := h.amounts
  have htotal := h.columns.2.2.2.2
  obtain ⟨hstatus, hamount⟩ := h.paid
  obtain ⟨env, henv⟩ := h.payment
  refine ⟨by rw [henv]; rfl, hstatus, hamount, fun hcash => ?_, fun hcashless => ?_⟩
  · obtain ⟨received, hreceived, -⟩ := resolveTender_of_cash hwell.payment hcash
    have htender : sale.tender = some received := hamounts.tender.trans hreceived
    have hcovered := hamounts.covered received htender
    unfold resolveTender at hreceived
    rw [hcash] at hreceived
    refine ⟨received, hreceived, by omega, ?_, ?_⟩
    · rw [henv]
      exact htender
    · rw [henv, htotal]
      show sale.tender.map _ = _
      rw [htender]
      rfl
  · have htender : sale.tender = none := hamounts.tender.trans (resolveTender_of_ne_cash hcashless)
    rw [henv]
    show sale.tender = none ∧ sale.tender.map _ = none
    rw [htender]
    exact ⟨rfl, rfl⟩

/-- A sale that is stored as it is built is accounted for. -/
theorem Transactions.Sale.Built.accounted (h : sale.Built user dto) (hwell : Wellformed dto)
    (hnodup : (sale.rows.items.map TransactionItem.id).Nodup) (hstored : sale.rows.Stored db) :
    Accounted db sale.rows.transaction user dto sale.tenant sale.catalog := by
  have hamounts := h.amounts
  have hbooked := h.booked hwell hnodup hstored
  obtain ⟨-, hsubtotal, hdiscount, htax, htotal⟩ := h.columns
  exact
    { request := by
        obtain ⟨env, henv⟩ := h.transaction
        rw [henv]
        exact ⟨rfl, rfl, rfl, rfl, rfl, rfl⟩
      completed := hbooked.completed
      lines := h.itemsOf hnodup hstored
      subtotal := hbooked.subtotal
      discount := ⟨hdiscount.trans hamounts.discount, hbooked.discount⟩
      tax := by rw [htax, hsubtotal, hdiscount]; exact hamounts.tax
      total := hbooked.total
      range := ⟨hbooked.positive.2, hbooked.safe⟩
      payment := ⟨_, hstored.payment, h.pays hwell⟩
      movements := h.movedBy hstored }

end Stored

/-- **Every sale adds up.**  In every state that calls can lead to, a sale that was not there
    at the start was made by one of the calls: a direct sale, one of the legacy queue or the
    conversion of a held order.  Its rows are those that the call's request makes of the
    tenant and of the products, groups and options as the call has read them. -/
theorem every_sale_adds_up {db0 : Db} {σ : State} (h0 : Wf db0) (hsales : SalesOk db0)
    (hreach : kasir.Reach db0 σ) {t : Transaction} (ht : t ∈ σ.db.sales.transactions)
    (hnew : t ∉ db0.sales.transactions) :
    ∃ e ∈ σ.history, ∃ user dto mode tx r, SaleOf e.call e.result e.seen e.before user dto mode tx r ∧
      r.transactionId = t.id ∧ ∃ tenant catalog,
        (Saw e.seen fun s => tenant ∈ s.accounts.tenants ∧ tenant.id = user.tenantId ∧
          tenant.isActive = true) ∧
        Loaded user.tenantId dto.items catalog e.seen ∧ Accounted σ.db t user dto tenant catalog := by
  have hsound := reach_sound h0 hreach
  rcases recorded_by hsound t ht with hold | ⟨e, he, user, dto, mode, tx, sale, r, hrec, rfl⟩
  · exact absurd hold hnew
  · have hstored := hrec.stored hsound hsales he
    have hwell := hrec.wellformed (hsound.commits e he).admitted
    obtain ⟨actor, hauthorized⟩ := hrec.made.authorized
    refine ⟨e, he, user, dto, mode, tx, r, hrec.call, hrec.made.transactionId_eq, sale.tenant,
      sale.catalog, hauthorized.tenant, hrec.made.loaded, ?_⟩
    exact hrec.made.built.accounted hwell hrec.made.nodupItems hstored

/-- Two large coffees and two waters are sold, after the owner has made large ones dearer. -/
theorem every_sale_adds_up_shop :
    ∃ (σ : State) (t : Transaction), kasir.Reach Shop.cafe σ ∧ t ∈ σ.db.sales.transactions ∧
      t.total = 2860 ∧ movedBy σ.db.stocks t Shop.coffee = [(Shop.outlet, -2)] ∧
      movedBy σ.db.stocks t Shop.water = [] ∧
      (itemsOf σ.db.sales t).map TransactionItem.unitPrice = [1300, 0] ∧
      ∃ user dto tenant catalog, Accounted σ.db t user dto tenant catalog := by
  obtain ⟨σ, -, hrun, hp, -⟩ := Shop.runFrom noMarks Shop.cafe Shop.cafeCalls
    (fun _ after => after.sales.transactions.any fun t =>
      decide (t.total = 2860 ∧ movedBy after.stocks t Shop.coffee = [(Shop.outlet, -2)] ∧
        movedBy after.stocks t Shop.water = [] ∧
        (itemsOf after.sales t).map TransactionItem.unitPrice = [1300, 0]))
    (by decide +kernel)
  obtain ⟨t, ht, hp⟩ := List.any_eq_true.mp hp
  obtain ⟨htotal, hmoved, hfree, hprices⟩ := of_decide_eq_true hp
  obtain ⟨e, -, user, dto, mode, tx, r, -, -, tenant, catalog, -, -, haccounted⟩ :=
    every_sale_adds_up Shop.cafe_wf Shop.cafe_salesOk hrun.reach ht fun h => nomatch h
  exact ⟨σ, t, hrun.reach, ht, htotal, hmoved, hfree, hprices, user, dto, tenant, catalog, haccounted⟩

end Kasir
