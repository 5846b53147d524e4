/-
  Kasir.Transactions.Rows

  The rows of one sale as a unit: what recording them does to the database, and
  what a later reader gets back.
-/

import Kasir.Ownership

namespace Kasir.Transactions

open Txn

-- ============================================================================
-- Reading a record back
-- ============================================================================

@[simp] theorem recordOf_transaction (sales : Sales) (rank : Id → Nat) (t : Transaction) :
    (recordOf sales rank t).transaction = t := rfl

/-- A record depends on the children of its transaction only. -/
theorem recordOf_congr {a b : Sales} {rank : Id → Nat} {t : Transaction}
    (hitems : a.transactionItems.filter (itemOf t) = b.transactionItems.filter (itemOf t))
    (hmods : ∀ i ∈ a.transactionItems.filter (itemOf t),
      a.transactionItemModifiers.filter (modifierOf i) =
        b.transactionItemModifiers.filter (modifierOf i))
    (hpay : a.payments.filter (paymentOf t) = b.payments.filter (paymentOf t)) :
    recordOf a rank t = recordOf b rank t := by
  unfold recordOf
  rw [← hitems, hpay]
  congr 1
  refine List.map_congr_left fun i hi => ?_
  rw [hmods i ((orderBy_perm ..).mem_iff.mp hi)]

/-- A filter that rejects everything new sees the old rows only. -/
theorem filter_append_of_none {α : Type} {p : α → Bool} {old new : List α}
    (h : ∀ x ∈ new, p x = false) : (old ++ new).filter p = old.filter p := by
  have hnew : new.filter p = [] := List.filter_eq_nil_iff.mpr (by simpa using h)
  rw [List.filter_append, hnew, List.append_nil]

/-- A filter that rejects everything old sees the new rows only. -/
theorem filter_append_of_none_old {α : Type} {p : α → Bool} {old new : List α}
    (h : ∀ x ∈ old, p x = false) : (old ++ new).filter p = new.filter p := by
  have hold : old.filter p = [] := List.filter_eq_nil_iff.mpr (by simpa using h)
  rw [List.filter_append, hold, List.nil_append]

/-- The children of a recorded sale never change. -/
theorem recordOf_grows {a b : Sales} (h : Sales.Grows a b) {t : Transaction}
    (ht : t ∈ a.transactions) (rank : Id → Nat) : recordOf b rank t = recordOf a rank t := by
  obtain ⟨newItems, hitems, hitems'⟩ := h.items
  obtain ⟨newMods, hmods, hmods'⟩ := h.modifiers
  obtain ⟨newPays, hpays, hpays'⟩ := h.payments
  have hi : b.transactionItems.filter (itemOf t) = a.transactionItems.filter (itemOf t) := by
    rw [hitems]
    exact filter_append_of_none fun i hi => hitems' i hi t ht
  refine recordOf_congr hi (fun i hmem => ?_) ?_
  · rw [hi] at hmem
    rw [hmods]
    exact filter_append_of_none fun m hm => hmods' m hm i (List.mem_of_mem_filter hmem)
  · rw [hpays]
    exact filter_append_of_none fun p hp => hpays' p hp t ht

-- ============================================================================
-- The rows of a sale
-- ============================================================================

/-- Everything one sale writes: the transaction as it is committed, its children,
    and what it takes from stock. -/
structure SaleRows where
  transaction : Transaction
  items : List TransactionItem
  modifiers : List TransactionItemModifier
  payment : Payment
  entries : List (Id × Int)
  movements : List StockMovement

namespace SaleRows

variable (b : SaleRows)

/-- The sale tables with the sale recorded. -/
def sales (s : Sales) : Sales where
  transactions := s.transactions ++ [b.transaction]
  transactionItems := s.transactionItems ++ b.items
  transactionItemModifiers := s.transactionItemModifiers ++ b.modifiers
  payments := s.payments ++ [b.payment]

/-- The stock rows of an outlet, decremented entry by entry. -/
def takeStock (outletId : Id) (entries : List (Id × Int)) (rows : List ProductStock) :
    List ProductStock :=
  entries.foldl (fun rows e => rows.map fun s =>
    if s.outletId = outletId ∧ s.productId = e.1 then { s with stock := s.stock - e.2 } else s)
    rows

/-- The stock tables with the sale recorded. -/
def stocks (s : Stocks) : Stocks :=
  { s with
    productStocks := takeStock b.transaction.outletId b.entries s.productStocks
    stockMovements := s.stockMovements ++ b.movements }

/-- The database with the sale recorded. -/
def apply (db : Db) : Db := { db with sales := b.sales db.sales, stocks := b.stocks db.stocks }

/-- What the statements of a sale do: the transaction is inserted PENDING, and the
    last statement completes every row with its identifier. -/
def write (db : Db) : Db :=
  { db with
    sales := { b.sales db.sales with
      transactions := (db.sales.transactions ++ [{ b.transaction with status := .pending }]).map
        (complete b.transaction.id b.transaction.tenantId) }
    stocks := b.stocks db.stocks }

/-- The children name their parents. -/
structure Linked : Prop where
  completed : b.transaction.status = .completed
  items : ∀ i ∈ b.items, itemOf b.transaction i = true
  modifiers : ∀ m ∈ b.modifiers, ∃ i ∈ b.items, modifierOf i m = true
  payment : paymentOf b.transaction b.payment = true

variable {b}

/-- Nobody sees the PENDING row: under a fresh identifier the two agree. -/
theorem write_eq_apply {db : Db} (hb : b.Linked)
    (hfresh : ∀ t ∈ db.sales.transactions, t.id ≠ b.transaction.id) : b.write db = b.apply db := by
  have hold : db.sales.transactions.map (complete b.transaction.id b.transaction.tenantId) =
      db.sales.transactions := by
    conv_rhs => rw [← List.map_id db.sales.transactions]
    refine List.map_congr_left fun t ht => ?_
    simp [complete, hfresh t ht]
  have hnew : complete b.transaction.id b.transaction.tenantId
      { b.transaction with status := .pending } = b.transaction := by
    simp only [complete, beq_self_eq_true, Bool.and_self, if_true]
    rw [← hb.completed]
  unfold write apply sales
  rw [List.map_append, hold, List.map_singleton, hnew]

/-- `complete` changes no identifier. -/
theorem map_id_complete (id tenantId : Id) (ts : List Transaction) :
    (ts.map (complete id tenantId)).map Transaction.id = ts.map Transaction.id := by
  rw [List.map_map]
  refine List.map_congr_left fun t _ => ?_
  simp only [Function.comp_apply, complete]
  split <;> rfl

/-- Distinct identifiers after the sale make the sale's own fresh. -/
theorem fresh_of_legal {db after : Db} (hs : after.sales = (b.write db).sales)
    (h : after.legal = true) : ∀ t ∈ db.sales.transactions, t.id ≠ b.transaction.id := by
  have hnodup := legal_transactions h
  rw [hs] at hnodup
  simp only [write, map_id_complete] at hnodup
  simp only [List.map_append, List.map_cons, List.map_nil] at hnodup
  intro t ht heq
  exact (List.nodup_append.mp hnodup).2.2 t.id (List.mem_map_of_mem ht) b.transaction.id
    (List.mem_singleton.mpr rfl) heq

theorem fresh_item_of_legal {db after : Db} (hs : after.sales = (b.write db).sales)
    (h : after.legal = true) : ∀ i ∈ db.sales.transactionItems, ∀ j ∈ b.items, i.id ≠ j.id := by
  have hnodup := legal_transactionItems h
  rw [hs] at hnodup
  simp only [write, sales, List.map_append] at hnodup
  intro i hi j hj
  exact (List.nodup_append.mp hnodup).2.2 i.id (List.mem_map_of_mem hi) j.id
    (List.mem_map_of_mem hj)

theorem nodup_items_of_legal {db after : Db} (hs : after.sales = (b.write db).sales)
    (h : after.legal = true) : (b.items.map TransactionItem.id).Nodup := by
  have hnodup := legal_transactionItems h
  rw [hs] at hnodup
  simp only [write, sales, List.map_append] at hnodup
  exact (List.nodup_append.mp hnodup).2.1

/-- Old transactions have no child among the new rows. -/
theorem not_itemOf {ts : List Transaction} (hb : b.Linked)
    (hfresh : ∀ t ∈ ts, t.id ≠ b.transaction.id) :
    ∀ i ∈ b.items, ∀ t ∈ ts, itemOf t i = false := by
  intro i hi t ht
  have hown := hb.items i hi
  simp only [itemOf, Bool.and_eq_true, beq_iff_eq] at hown
  simp [itemOf, hown.1, Ne.symm (hfresh t ht)]

theorem not_paymentOf {ts : List Transaction} (hb : b.Linked)
    (hfresh : ∀ t ∈ ts, t.id ≠ b.transaction.id) :
    ∀ t ∈ ts, paymentOf t b.payment = false := by
  intro t ht
  have hown := hb.payment
  simp only [paymentOf, Bool.and_eq_true, beq_iff_eq] at hown
  simp [paymentOf, hown.1, Ne.symm (hfresh t ht)]

theorem not_modifierOf {is : List TransactionItem} (hb : b.Linked)
    (hfresh : ∀ i ∈ is, ∀ j ∈ b.items, i.id ≠ j.id) :
    ∀ m ∈ b.modifiers, ∀ i ∈ is, modifierOf i m = false := by
  intro m hm i hi
  obtain ⟨j, hj, hown⟩ := hb.modifiers m hm
  simp only [modifierOf, Bool.and_eq_true, beq_iff_eq] at hown
  simp [modifierOf, hown.1, Ne.symm (hfresh i hi j hj)]

theorem grows {s : Sales} (hb : b.Linked)
    (hfresh : ∀ t ∈ s.transactions, t.id ≠ b.transaction.id)
    (hitem : ∀ i ∈ s.transactionItems, ∀ j ∈ b.items, i.id ≠ j.id) :
    Sales.Grows s (b.sales s) where
  transactions := ⟨_, rfl⟩
  items := ⟨_, rfl, not_itemOf hb hfresh⟩
  modifiers := ⟨_, rfl, not_modifierOf hb hitem⟩
  payments := ⟨_, rfl, fun p hp t ht => by
    rw [List.mem_singleton.mp hp]
    exact not_paymentOf hb hfresh t ht⟩

section Own

variable {db : Db} (hwf : Wf db)
include hwf

/-- Children of the new transaction would need it as a parent already, so only the
    new rows are among them. -/
theorem filter_items_own (hb : b.Linked) (hfresh : ∀ t ∈ db.sales.transactions,
    t.id ≠ b.transaction.id) :
    (b.sales db.sales).transactionItems.filter (itemOf b.transaction) = b.items := by
  have hold : ∀ i ∈ db.sales.transactionItems, itemOf b.transaction i = false := by
    intro i hi
    obtain ⟨t, ht, hown⟩ := hwf.sales.itemParent i hi
    simp only [itemOf, Bool.and_eq_true, beq_iff_eq] at hown
    simp [itemOf, hown.1, hfresh t ht]
  exact (filter_append_of_none_old hold).trans (List.filter_eq_self.mpr hb.items)

theorem filter_modifiers_own
    (hitem : ∀ i ∈ db.sales.transactionItems, ∀ j ∈ b.items, i.id ≠ j.id) :
    ∀ j ∈ b.items, (b.sales db.sales).transactionItemModifiers.filter (modifierOf j) =
      b.modifiers.filter (modifierOf j) := by
  intro j hj
  refine filter_append_of_none_old fun m hm => ?_
  obtain ⟨i, hi, hown⟩ := hwf.sales.modifierParent m hm
  simp only [modifierOf, Bool.and_eq_true, beq_iff_eq] at hown
  simp [modifierOf, hown.1, hitem i hi j hj]

theorem filter_payments_own (hb : b.Linked) (hfresh : ∀ t ∈ db.sales.transactions,
    t.id ≠ b.transaction.id) :
    (b.sales db.sales).payments.filter (paymentOf b.transaction) = [b.payment] := by
  have hold : ∀ p ∈ db.sales.payments, paymentOf b.transaction p = false := by
    intro p hp
    obtain ⟨t, ht, hown⟩ := hwf.sales.paymentParent p hp
    simp only [paymentOf, Bool.and_eq_true, beq_iff_eq] at hown
    simp [paymentOf, hown.1, hfresh t ht]
  exact (filter_append_of_none_old hold).trans (List.filter_eq_self.mpr (by simp [hb.payment]))

/-- A reader finds the rows of the sale and nothing else. -/
theorem recordOf_own (hb : b.Linked) (hfresh : ∀ t ∈ db.sales.transactions,
    t.id ≠ b.transaction.id) (hitem : ∀ i ∈ db.sales.transactionItems, ∀ j ∈ b.items, i.id ≠ j.id)
    (rank : Id → Nat) :
    recordOf (b.sales db.sales) rank b.transaction = recordOf (b.sales {}) rank b.transaction := by
  have hitems := filter_items_own hwf hb hfresh
  refine recordOf_congr ?_ (fun i hi => ?_) ?_
  · rw [hitems]
    exact (List.filter_eq_self.mpr hb.items).symm
  · rw [hitems] at hi
    exact filter_modifiers_own hwf hitem i hi
  · rw [filter_payments_own hwf hb hfresh]
    exact (List.filter_eq_self.mpr (by simp [hb.payment])).symm

end Own

/-- Recording a sale leaves no child without its parent. -/
theorem closed {s : Sales} (hb : b.Linked) (h : s.Closed) : (b.sales s).Closed := by
  refine ⟨fun i hi => ?_, fun m hm => ?_, fun p hp => ?_⟩
  · rcases List.mem_append.mp hi with hi | hi
    · obtain ⟨t, ht, hown⟩ := h.itemParent i hi
      exact ⟨t, List.mem_append_left _ ht, hown⟩
    · exact ⟨b.transaction, List.mem_append_right _ (List.mem_singleton.mpr rfl), hb.items i hi⟩
  · rcases List.mem_append.mp hm with hm | hm
    · obtain ⟨i, hi, hown⟩ := h.modifierParent m hm
      exact ⟨i, List.mem_append_left _ hi, hown⟩
    · obtain ⟨i, hi, hown⟩ := hb.modifiers m hm
      exact ⟨i, List.mem_append_right _ hi, hown⟩
  · rcases List.mem_append.mp hp with hp | hp
    · obtain ⟨t, ht, hown⟩ := h.paymentParent p hp
      exact ⟨t, List.mem_append_left _ ht, hown⟩
    · rw [List.mem_singleton.mp hp]
      exact ⟨b.transaction, List.mem_append_right _ (List.mem_singleton.mpr rfl), hb.payment⟩

end SaleRows

-- ============================================================================
-- Stock taken
-- ============================================================================

/-- What the entries take of one product. -/
def demand (entries : List (Id × Int)) (productId : Id) : Int :=
  ((entries.filter fun e => e.1 == productId).map Prod.snd).sum

@[simp] theorem demand_nil (p : Id) : demand [] p = 0 := rfl

theorem demand_cons (e : Id × Int) (entries : List (Id × Int)) (p : Id) :
    demand (e :: entries) p = (if e.1 = p then e.2 else 0) + demand entries p := by
  unfold demand
  by_cases h : e.1 = p <;> simp [h]

theorem demand_eq_zero {entries : List (Id × Int)} {p : Id}
    (h : p ∉ entries.map Prod.fst) : demand entries p = 0 := by
  unfold demand
  rw [List.filter_eq_nil_iff.mpr]
  · rfl
  · intro e he heq
    exact h (List.mem_map.mpr ⟨e, he, by simpa using heq⟩)

/-- With distinct products, an entry is all that is taken of its product. -/
theorem demand_of_mem {entries : List (Id × Int)} (h : (entries.map Prod.fst).Nodup)
    {e : Id × Int} (he : e ∈ entries) : demand entries e.1 = e.2 := by
  induction entries with
  | nil => cases he
  | cons x entries ih =>
      rw [List.map_cons, List.nodup_cons] at h
      rw [demand_cons]
      rcases List.mem_cons.mp he with rfl | he
      · rw [if_pos rfl, demand_eq_zero h.1, add_zero]
      · have hne : x.1 ≠ e.1 := fun heq => h.1 (heq ▸ List.mem_map_of_mem he)
        rw [if_neg hne, ih h.2 he, zero_add]

/-- One pass over the rows: each gives what the entries take of its product. -/
theorem takeStock_eq (outletId : Id) (entries : List (Id × Int)) (rows : List ProductStock) :
    SaleRows.takeStock outletId entries rows = rows.map fun s =>
      if s.outletId = outletId then { s with stock := s.stock - demand entries s.productId }
      else s := by
  induction entries generalizing rows with
  | nil =>
      conv_lhs => rw [show SaleRows.takeStock outletId [] rows = rows from rfl]
      conv_lhs => rw [← List.map_id rows]
      refine List.map_congr_left fun s _ => ?_
      simp
  | cons e entries ih =>
      change SaleRows.takeStock outletId entries (rows.map _) = _
      rw [ih, List.map_map]
      refine List.map_congr_left fun s _ => ?_
      simp only [Function.comp_apply, demand_cons]
      by_cases ho : s.outletId = outletId
      · by_cases hp : s.productId = e.1
        · simp [ho, hp, sub_sub]
        · simp [ho, hp, Ne.symm hp]
      · simp [ho]

/-- The rows of an outlet and product after a sale. -/
theorem rowsOf_stocks (b : SaleRows) (s : Stocks) (o p : Id) :
    (b.stocks s).rowsOf o p = (s.rowsOf o p).map fun r =>
      if o = b.transaction.outletId then { r with stock := r.stock - demand b.entries p } else r := by
  unfold Stocks.rowsOf SaleRows.stocks
  simp only [takeStock_eq, List.filter_map]
  have hkey : ∀ r : ProductStock,
      ((fun s : ProductStock => s.outletId == o && s.productId == p) ∘ fun s : ProductStock =>
        if s.outletId = b.transaction.outletId then
          { s with stock := s.stock - demand b.entries s.productId } else s) r =
      (r.outletId == o && r.productId == p) := by
    intro r
    simp only [Function.comp_apply]
    split <;> rfl
  rw [List.filter_congr fun r _ => hkey r]
  refine List.map_congr_left fun r hr => ?_
  have hr' := (List.mem_filter.mp hr).2
  simp only [Bool.and_eq_true, beq_iff_eq] at hr'
  rw [hr'.1, hr'.2]

/-- Rows a sale takes nothing from stay as they are. -/
theorem rowsOf_stocks_of_not_mem {b : SaleRows} {o p : Id}
    (h : o ≠ b.transaction.outletId ∨ p ∉ b.entries.map Prod.fst) (s : Stocks) :
    (b.stocks s).rowsOf o p = s.rowsOf o p := by
  rw [rowsOf_stocks]
  conv_rhs => rw [← List.map_id (s.rowsOf o p)]
  refine List.map_congr_left fun r _ => ?_
  rcases h with h | h
  · simp [h]
  · simp [demand_eq_zero h]

end Kasir.Transactions
