/-
  Kasir.Tenants

  The rows of one tenant.

  All tenants share the tables.  A row belongs to the tenant it names; a
  `product_stocks` row names none and belongs to the tenant of its outlet, and a tenant's
  own row to that tenant.  `Db.only` keeps the rows of one tenant.

  Some statements find a row by its identifier alone, after they have made sure whose it
  is.  They stay with the tenant because an identifier never changes hands: `Owned` says
  that there is one owner for every outlet, option, held order and session.
-/

import Kasir.Statements
import Kasir.Txn.Projection

namespace Kasir

open Txn

-- ============================================================================
-- Rows of one owner
-- ============================================================================

/-- The rows of one owner. -/
def ownedBy {ρ : Type} (owner : ρ → Id) (tenantId : Id) (rows : List ρ) : List ρ :=
  rows.filter fun r => owner r == tenantId

section OwnedBy

variable {ρ : Type} {owner : ρ → Id} {tenantId : Id} {rows : List ρ}

theorem mem_ownedBy {r : ρ} : r ∈ ownedBy owner tenantId rows ↔ r ∈ rows ∧ owner r = tenantId := by
  unfold ownedBy
  rw [List.mem_filter, beq_iff_eq]

/-- New rows of the owner. -/
theorem ownedBy_add {xs : List ρ} (h : ∀ x ∈ xs, owner x = tenantId) :
    ownedBy owner tenantId (rows ++ xs) = ownedBy owner tenantId rows ++ xs := by
  have hall : xs.filter (fun r => owner r == tenantId) = xs :=
    List.filter_eq_self.mpr fun x hx => beq_iff_eq.mpr (h x hx)
  unfold ownedBy
  rw [List.filter_append, hall]

/-- New rows of somebody else. -/
theorem ownedBy_add_other {xs : List ρ} {t : Id} (h : ∀ x ∈ xs, owner x = t) (ht : tenantId ≠ t) :
    ownedBy owner tenantId (rows ++ xs) = ownedBy owner tenantId rows := by
  have hnone : xs.filter (fun r => owner r == tenantId) = [] :=
    List.filter_eq_nil_iff.mpr fun x hx => by
      rw [h x hx, beq_iff_eq]
      exact Ne.symm ht
  unfold ownedBy
  rw [List.filter_append, hnone, List.append_nil]

/-- One new row. -/
theorem ownedBy_add_row {x : ρ} (h : owner x = tenantId) :
    ownedBy owner tenantId (rows ++ [x]) = ownedBy owner tenantId rows ++ [x] :=
  ownedBy_add fun _ hy => (List.mem_singleton.mp hy) ▸ h

theorem ownedBy_add_row_other {x : ρ} {t : Id} (h : owner x = t) (ht : tenantId ≠ t) :
    ownedBy owner tenantId (rows ++ [x]) = ownedBy owner tenantId rows :=
  ownedBy_add_other (fun _ hy => (List.mem_singleton.mp hy) ▸ h) ht

/-- A change of rows that keeps their owners. -/
theorem ownedBy_map {f : ρ → ρ} (h : ∀ r, owner (f r) = owner r) :
    ownedBy owner tenantId (rows.map f) = (ownedBy owner tenantId rows).map f := by
  unfold ownedBy
  rw [List.filter_map]
  congr 1
  apply List.filter_congr
  intro r _
  rw [Function.comp_apply, h]

/-- A change of rows of others. -/
theorem ownedBy_map_same {f : ρ → ρ} (h : ∀ r, owner (f r) = owner r)
    (hsame : ∀ r ∈ rows, owner r = tenantId → f r = r) :
    ownedBy owner tenantId (rows.map f) = ownedBy owner tenantId rows := by
  rw [ownedBy_map h]
  have hid : ∀ r ∈ ownedBy owner tenantId rows, f r = id r := by
    intro r hr
    obtain ⟨hmem, howner⟩ := mem_ownedBy.mp hr
    exact hsame r hmem howner
  rw [List.map_congr_left hid, List.map_id]

section Changed

variable {p : ρ → Bool} {f : ρ → ρ} (hf : ∀ r, owner (f r) = owner r)
include hf

theorem owner_changed (r : ρ) : owner (if p r then f r else r) = owner r := by
  split
  · exact hf r
  · rfl

/-- Rows that satisfy a condition change, -/
theorem changed_own : ownedBy owner tenantId (rows.map fun r => if p r then f r else r) =
    (ownedBy owner tenantId rows).map fun r => if p r then f r else r :=
  ownedBy_map (owner_changed hf)

/-- and only one tenant's do. -/
theorem changed_apart {t : Id} (hp : ∀ r ∈ rows, p r = true → owner r = t) (ht : tenantId ≠ t) :
    ownedBy owner tenantId (rows.map fun r => if p r then f r else r) =
      ownedBy owner tenantId rows := by
  apply ownedBy_map_same (owner_changed hf)
  intro r hr howner
  rw [if_neg]
  exact fun hpr => ht (howner.symm.trans (hp r hr hpr))

end Changed

theorem ownedBy_filter (p : ρ → Bool) :
    ownedBy owner tenantId (rows.filter p) = (ownedBy owner tenantId rows).filter p := by
  unfold ownedBy
  rw [List.filter_filter, List.filter_filter]
  apply List.filter_congr
  intro r _
  exact Bool.and_comm ..

section Reads

variable {p : ρ → Bool} (h : ∀ r ∈ rows, p r = true → owner r = tenantId)
include h

/-- A condition that only rows of the owner satisfy finds the same rows. -/
theorem filter_ownedBy : (ownedBy owner tenantId rows).filter p = rows.filter p := by
  unfold ownedBy
  rw [List.filter_filter]
  apply List.filter_congr
  intro r hr
  cases hp : p r with
  | false => rfl
  | true =>
      rw [h r hr hp]
      simp

theorem find?_ownedBy : (ownedBy owner tenantId rows).find? p = rows.find? p := by
  rw [← List.head?_filter, ← List.head?_filter, filter_ownedBy h]

/-- The condition may itself be told by the owner's rows. -/
theorem find?_ownedBy_congr {q : ρ → Bool} (hq : ∀ r ∈ rows, owner r = tenantId → q r = p r) :
    (ownedBy owner tenantId rows).find? q = rows.find? p := by
  have hcongr : (ownedBy owner tenantId rows).filter q =
      (ownedBy owner tenantId rows).filter p := by
    apply List.filter_congr
    intro r hr
    obtain ⟨hmem, howner⟩ := mem_ownedBy.mp hr
    exact hq r hmem howner
  rw [← List.head?_filter, ← List.head?_filter, hcongr, filter_ownedBy h]

theorem any_ownedBy : (ownedBy owner tenantId rows).any p = rows.any p := by
  rw [Bool.eq_iff_iff, List.any_eq_true, List.any_eq_true]
  constructor
  · rintro ⟨r, hr, hp⟩
    exact ⟨r, (mem_ownedBy.mp hr).1, hp⟩
  · rintro ⟨r, hr, hp⟩
    exact ⟨r, mem_ownedBy.mpr ⟨hr, h r hr hp⟩, hp⟩

theorem countP_ownedBy : (ownedBy owner tenantId rows).countP p = rows.countP p := by
  rw [List.countP_eq_length_filter, List.countP_eq_length_filter, filter_ownedBy h]

end Reads

end OwnedBy

-- ============================================================================
-- The part of a tenant
-- ============================================================================

/-- The owners of identifiers. -/
structure Owners where
  outlet : Id → Id
  option : Id → Id
  order : Id → Id
  session : Id → Id

def Accounts.only (tenantId : Id) (accounts : Accounts) : Accounts where
  tenants := ownedBy Tenant.id tenantId accounts.tenants
  users := ownedBy User.tenantId tenantId accounts.users
  outlets := ownedBy Outlet.tenantId tenantId accounts.outlets
  customers := ownedBy Customer.tenantId tenantId accounts.customers
  categories := ownedBy Category.tenantId tenantId accounts.categories

def Catalog.only (tenantId : Id) (catalog : Catalog) : Catalog where
  products := ownedBy Product.tenantId tenantId catalog.products
  modifierGroups := ownedBy ModifierGroup.tenantId tenantId catalog.modifierGroups
  modifierOptions := ownedBy ModifierOption.tenantId tenantId catalog.modifierOptions
  productModifierGroups :=
    ownedBy ProductModifierGroup.tenantId tenantId catalog.productModifierGroups

def Sales.only (tenantId : Id) (sales : Sales) : Sales where
  transactions := ownedBy Transaction.tenantId tenantId sales.transactions
  transactionItems := ownedBy TransactionItem.tenantId tenantId sales.transactionItems
  transactionItemModifiers :=
    ownedBy TransactionItemModifier.tenantId tenantId sales.transactionItemModifiers
  payments := ownedBy Payment.tenantId tenantId sales.payments

def Stocks.only (outlet : Id → Id) (tenantId : Id) (stocks : Stocks) : Stocks where
  productStocks := ownedBy (fun s => outlet s.outletId) tenantId stocks.productStocks
  stockMovements := ownedBy StockMovement.tenantId tenantId stocks.stockMovements
  stockAdjustments := ownedBy StockAdjustment.tenantId tenantId stocks.stockAdjustments

def Held.only (tenantId : Id) (held : Held) : Held where
  heldOrders := ownedBy HeldOrder.tenantId tenantId held.heldOrders
  heldOrderItems := ownedBy HeldOrderItem.tenantId tenantId held.heldOrderItems
  heldOrderItemModifiers :=
    ownedBy HeldOrderItemModifier.tenantId tenantId held.heldOrderItemModifiers

/-- The rows of one tenant, in every table.  `outlet` tells whose an outlet is. -/
def Db.only (outlet : Id → Id) (tenantId : Id) (db : Db) : Db where
  accounts := db.accounts.only tenantId
  catalog := db.catalog.only tenantId
  cashierSessions := ownedBy CashierSession.tenantId tenantId db.cashierSessions
  sales := db.sales.only tenantId
  stocks := db.stocks.only outlet tenantId
  held := db.held.only tenantId

/-- Every identifier belongs to its owner. -/
structure Owned (w : Owners) (db : Db) : Prop where
  outlets : ∀ o ∈ db.accounts.outlets, w.outlet o.id = o.tenantId
  options : ∀ o ∈ db.catalog.modifierOptions, w.option o.id = o.tenantId
  orders : ∀ o ∈ db.held.heldOrders, w.order o.id = o.tenantId
  sessions : ∀ s ∈ db.cashierSessions, w.session s.id = s.tenantId

/-- The rows of all tenants but one stay as they are. -/
def Apart (w : Owners) (t : Id) (d d' : Db) : Prop :=
  ∀ tenantId, tenantId ≠ t → d'.only w.outlet tenantId = d.only w.outlet tenantId

theorem Apart.refl (w : Owners) (t : Id) (d : Db) : Apart w t d d := fun _ _ => rfl

theorem Apart.trans {w : Owners} {t : Id} {x y z : Db} (h : Apart w t x y) (h' : Apart w t y z) :
    Apart w t x z := fun tenantId ht => (h' tenantId ht).trans (h tenantId ht)

/-- A part of a database the schema admits is one the schema admits. -/
theorem distinct_ownedBy {ρ κ : Type} [DecidableEq κ] {key : ρ → κ} {rows : List ρ}
    (owner : ρ → Id) (tenantId : Id) (h : distinct key rows = true) :
    distinct key (ownedBy owner tenantId rows) = true := by
  unfold distinct at h ⊢
  rw [decide_eq_true_eq] at h ⊢
  exact h.sublist (List.filter_sublist.map key)

theorem legal_only {w : Owners} {tenantId : Id} {db : Db} (h : db.legal = true) :
    (db.only w.outlet tenantId).legal = true := by
  unfold Db.legal at h ⊢
  simp only [Bool.and_eq_true] at h ⊢
  simp only [Db.only, Accounts.only, Catalog.only, Sales.only, Stocks.only, Held.only]
  obtain ⟨⟨⟨⟨⟨⟨⟨⟨⟨⟨⟨⟨⟨⟨⟨⟨⟨⟨⟨h1, h2⟩, h3⟩, h4⟩, h5⟩, h6⟩, h7⟩, h8⟩, h9⟩, h10⟩, h11⟩, h12⟩, h13⟩,
    h14⟩, h15⟩, h16⟩, h17⟩, h18⟩, h19⟩, h20⟩ := h
  refine ⟨⟨⟨⟨⟨⟨⟨⟨⟨⟨⟨⟨⟨⟨⟨⟨⟨⟨⟨?_, ?_⟩, ?_⟩, ?_⟩, ?_⟩, ?_⟩, ?_⟩, ?_⟩, ?_⟩, ?_⟩, ?_⟩, ?_⟩, ?_⟩, ?_⟩,
    ?_⟩, ?_⟩, ?_⟩, ?_⟩, ?_⟩, ?_⟩ <;> exact distinct_ownedBy _ _ (by assumption)

-- ============================================================================
-- Changes by a tenant
-- ============================================================================

/-- A change of the tenant's rows, on databases with the property `J`. -/
structure ChangeBy (w : Owners) (t : Id) (J : Db → Prop) (f : Db → Db) : Prop where
  own : ∀ d, J d → (f d).only w.outlet t = f (d.only w.outlet t)
  apart : ∀ d, J d → Apart w t d (f d)

section Changes

variable {w : Owners} {t : Id} {J : Db → Prop}

-- New rows, table by table.

theorem changeBy_addTransaction {row : Transaction} (h : row.tenantId = t) :
    ChangeBy w t J (Db.addTransaction row) := by
  constructor
  · intro d _
    simp only [Db.only, Db.addTransaction, Sales.only, ownedBy_add_row h]
  · intro d _ a ha
    simp only [Db.only, Db.addTransaction, Sales.only, ownedBy_add_row_other h ha]

theorem changeBy_addTransactionItems {rows : List TransactionItem}
    (h : ∀ x ∈ rows, x.tenantId = t) : ChangeBy w t J (Db.addTransactionItems rows) where
  own d _ := by simp only [Db.only, Db.addTransactionItems, Sales.only, ownedBy_add h]
  apart d _ a ha := by
    simp only [Db.only, Db.addTransactionItems, Sales.only, ownedBy_add_other h ha]

theorem changeBy_addTransactionItemModifiers {rows : List TransactionItemModifier}
    (h : ∀ x ∈ rows, x.tenantId = t) : ChangeBy w t J (Db.addTransactionItemModifiers rows) where
  own d _ := by simp only [Db.only, Db.addTransactionItemModifiers, Sales.only, ownedBy_add h]
  apart d _ a ha := by
    simp only [Db.only, Db.addTransactionItemModifiers, Sales.only, ownedBy_add_other h ha]

theorem changeBy_addPayment {row : Payment} (h : row.tenantId = t) :
    ChangeBy w t J (Db.addPayment row) := by
  constructor
  · intro d _
    simp only [Db.only, Db.addPayment, Sales.only, ownedBy_add_row h]
  · intro d _ a ha
    simp only [Db.only, Db.addPayment, Sales.only, ownedBy_add_row_other h ha]

theorem changeBy_addStockMovements {rows : List StockMovement}
    (h : ∀ x ∈ rows, x.tenantId = t) : ChangeBy w t J (Db.addStockMovements rows) where
  own d _ := by simp only [Db.only, Db.addStockMovements, Stocks.only, ownedBy_add h]
  apart d _ a ha := by
    simp only [Db.only, Db.addStockMovements, Stocks.only, ownedBy_add_other h ha]

theorem changeBy_addStockAdjustment {row : StockAdjustment} (h : row.tenantId = t) :
    ChangeBy w t J (Db.addStockAdjustment row) := by
  constructor
  · intro d _
    simp only [Db.only, Db.addStockAdjustment, Stocks.only, ownedBy_add_row h]
  · intro d _ a ha
    simp only [Db.only, Db.addStockAdjustment, Stocks.only, ownedBy_add_row_other h ha]

theorem changeBy_addCashierSession {row : CashierSession} (h : row.tenantId = t) :
    ChangeBy w t J (Db.addCashierSession row) := by
  constructor
  · intro d _
    simp only [Db.only, Db.addCashierSession, ownedBy_add_row h]
  · intro d _ a ha
    simp only [Db.only, Db.addCashierSession, ownedBy_add_row_other h ha]

theorem changeBy_addHeldOrder {row : HeldOrder} (h : row.tenantId = t) :
    ChangeBy w t J (Db.addHeldOrder row) := by
  constructor
  · intro d _
    simp only [Db.only, Db.addHeldOrder, Held.only, ownedBy_add_row h]
  · intro d _ a ha
    simp only [Db.only, Db.addHeldOrder, Held.only, ownedBy_add_row_other h ha]

theorem changeBy_addHeldOrderItems {rows : List HeldOrderItem}
    (h : ∀ x ∈ rows, x.tenantId = t) : ChangeBy w t J (Db.addHeldOrderItems rows) where
  own d _ := by simp only [Db.only, Db.addHeldOrderItems, Held.only, ownedBy_add h]
  apart d _ a ha := by simp only [Db.only, Db.addHeldOrderItems, Held.only, ownedBy_add_other h ha]

theorem changeBy_addHeldOrderItemModifiers {rows : List HeldOrderItemModifier}
    (h : ∀ x ∈ rows, x.tenantId = t) : ChangeBy w t J (Db.addHeldOrderItemModifiers rows) where
  own d _ := by simp only [Db.only, Db.addHeldOrderItemModifiers, Held.only, ownedBy_add h]
  apart d _ a ha := by
    simp only [Db.only, Db.addHeldOrderItemModifiers, Held.only, ownedBy_add_other h ha]

theorem changeBy_addProductStocks {rows : List ProductStock}
    (h : ∀ x ∈ rows, w.outlet x.outletId = t) : ChangeBy w t J (Db.addProductStocks rows) where
  own d _ := by simp only [Db.only, Db.addProductStocks, Stocks.only, ownedBy_add h]
  apart d _ a ha := by simp only [Db.only, Db.addProductStocks, Stocks.only, ownedBy_add_other h ha]

/-- Rows of the tenant change and stay the tenant's. -/
theorem changeBy_modifyTransactions {f : Transaction → Transaction}
    (hkeep : ∀ r, (f r).tenantId = r.tenantId) (hother : ∀ r, r.tenantId ≠ t → f r = r) :
    ChangeBy w t J (Db.modifyTransactions f) where
  own d _ := by simp only [Db.only, Db.modifyTransactions, Sales.only, ownedBy_map hkeep]
  apart d _ a ha := by
    have hsame : ∀ r ∈ d.sales.transactions, r.tenantId = a → f r = r := fun r _ hr =>
      hother r (hr ▸ ha)
    simp only [Db.only, Db.modifyTransactions, Sales.only, ownedBy_map_same hkeep hsame]

/-- Changes of the catalog. -/
theorem changeBy_modifyCatalog {f : Catalog → Catalog}
    (hown : ∀ d, J d → (f d.catalog).only t = f (d.catalog.only t))
    (hapart : ∀ d, J d → ∀ a, a ≠ t → (f d.catalog).only a = d.catalog.only a) :
    ChangeBy w t J (Db.modifyCatalog f) where
  own d hd := by
    unfold Db.only Db.modifyCatalog
    simp only [hown d hd]
  apart d hd a ha := by
    unfold Db.only Db.modifyCatalog
    simp only [hapart d hd a ha]

end Changes

-- ============================================================================
-- Statements of a tenant
-- ============================================================================

/-- The body stays with the tenant, on databases with the property `J`; it leaves
    databases with the property `K`. -/
abbrev Stays {α : Type} (w : Owners) (t : Id) (J K : Db → Prop) (p : Body α) : Prop :=
  Prog.Within (Db.only w.outlet t) (Apart w t) K J p p

section Stays

variable {w : Owners} {t : Id} {J K : Db → Prop} {α β : Type}

theorem stays_query {f : Db → α} (h : ∀ d, f (d.only w.outlet t) = f d) : Stays w t J J (query f) :=
  Prog.Within.read (Apart.refl w t) fun v _ _ => h v.snap

theorem stays_queryRanked {f : (Id → Nat) → Db → α}
    (h : ∀ rank d, f rank (d.only w.outlet t) = f rank d) :
    Stays w t J J (queryRanked f) :=
  Prog.Within.read (Apart.refl w t) fun v _ _ => h v.env.rank v.snap

theorem stays_queryNow {f : Db → α} (h : ∀ d, f (d.only w.outlet t) = f d) :
    Stays w t J J (queryNow f) :=
  Prog.Within.read (Apart.refl w t) fun v _ _ => congrArg (·, v.env.now) (h v.snap)

/-- What follows a read may rely on what was read. -/
theorem stays_query_bind {f : Db → α} {k : α → Body β}
    (h : ∀ d, J d → f (d.only w.outlet t) = f d) (hk : ∀ d, J d → Stays w t J K (k (f d))) :
    Stays w t J K (query f >>= k) :=
  Prog.Within.read_bind (Apart.refl w t) (fun v hs _ => h v.snap hs) fun v hs _ => hk v.snap hs

theorem stays_insert {mk : Env → α} {add : α → Db → Db}
    (hadd : ∀ env, ChangeBy w t J (add (mk env))) (hK : ∀ env d, J d → K (add (mk env) d)) :
    Stays w t J K (insert mk add) :=
  Prog.Within.write (fun _ _ _ => rfl) fun v _ _ d hd =>
    ⟨(hadd v.env).own d hd, (hadd v.env).apart d hd, hK v.env d hd⟩

theorem stays_createMany {n : Nat} {mk : Env → List α} {add : List α → Db → Db}
    (hadd : ∀ env, ChangeBy w t J (add (mk env))) (hJ : ∀ env d, J d → J (add (mk env) d)) :
    Stays w t J J (createMany n mk add) := by
  unfold createMany
  split
  · exact .ret () fun _ h => h
  · exact (stays_insert hadd hJ).bind fun _ => .ret () fun _ h => h

theorem stays_insertUnique {entry : Token} {marks : Env → List Token} {taken : Db → Bool}
    {index : UniqueIndex} {mk : Env → α} {add : α → Db → Db}
    (htaken : ∀ d, taken (d.only w.outlet t) = taken d)
    (hadd : ∀ env, ChangeBy w t J (add (mk env))) (hJK : ∀ d, J d → K d)
    (hK : ∀ env d, J d → K (add (mk env) d)) :
    Stays w t J K (insertUnique entry marks taken index mk add) := by
  refine Prog.Within.stmt (Q := K) (fun _ _ _ => rfl) ?_ ?_
  · intro v _ _ d hd
    have hcur : taken (v.map (Db.only w.outlet t)).cur = taken v.cur := htaken v.cur
    rw [hcur]
    split
    · exact ⟨rfl, Apart.refl w t d, hJK d hd⟩
    · exact ⟨(hadd v.env).own d hd, (hadd v.env).apart d hd, hK v.env d hd⟩
  · intro v _ _
    have hcur : taken (v.map (Db.only w.outlet t)).cur = taken v.cur := htaken v.cur
    rw [hcur]
    split
    · exact .throw _
    · exact .ret _ fun _ h => h

/-- A table whose rows have owners.  Rows with one lock have one owner. -/
structure OwnedTable {ρ : Type} (table : Table ρ) (w : Owners) (owner : ρ → Id)
    (J : Db → Prop) : Prop where
  rows : ∀ a d, table.rows (d.only w.outlet a) = ownedBy owner a (table.rows d)
  modify : ∀ a g d, (∀ r, owner (g r) = owner r) →
    (table.modify g d).only w.outlet a = table.modify g (d.only w.outlet a)
  same : ∀ a g d, (∀ r, owner (g r) = owner r) → (∀ r ∈ table.rows d, owner r = a → g r = r) →
    (table.modify g d).only w.outlet a = d.only w.outlet a
  lock : ∀ d d' r r', J d → J d' → r ∈ table.rows d → r' ∈ table.rows d' →
    table.lock r = table.lock r' → owner r = owner r'

section Update

variable {ρ : Type} {table : Table ρ} {owner : ρ → Id} {p : Db → ρ → Bool} {f : Env → ρ → ρ}

/-- An UPDATE finds the same rows in the tenant's part. -/
theorem hits_only (htable : OwnedTable table w owner J)
    (hp : ∀ d, J d → ∀ r ∈ table.rows d, p d r = true → owner r = t)
    (hpart : ∀ d, J d → ∀ r ∈ table.rows d, owner r = t → p (d.only w.outlet t) r = p d r) (d : Db)
    (hd : J d) : (table.rows (d.only w.outlet t)).filter (p (d.only w.outlet t)) =
      (table.rows d).filter (p d) := by
  have hcongr : (ownedBy owner t (table.rows d)).filter (p (d.only w.outlet t)) =
      (ownedBy owner t (table.rows d)).filter (p d) := by
    apply List.filter_congr
    intro r hr
    obtain ⟨hmem, howner⟩ := mem_ownedBy.mp hr
    exact hpart d hd r hmem howner
  rw [htable.rows, hcongr]
  exact filter_ownedBy (hp d hd)

/-- An UPDATE whose WHERE admits the tenant's rows only. -/
theorem stays_updateMany [DecidableEq ρ] (htable : OwnedTable table w owner J)
    (hp : ∀ d, J d → ∀ r ∈ table.rows d, p d r = true → owner r = t)
    (hpart : ∀ d, J d → ∀ r ∈ table.rows d, owner r = t → p (d.only w.outlet t) r = p d r)
    (hf : ∀ env r, owner (f env r) = owner r)
    (hK : ∀ hit env d, J d → K (table.change hit (f env) d)) (marks : ρ → List Token)
    (fits : ρ → Bool) : Stays w t J K (updateMany table marks p f fits) := by
  have hhits := hits_only htable hp hpart
  have hkeep : ∀ (env : Env) (hit : List Token) (r : ρ),
      owner (if table.lock r ∈ hit then f env r else r) = owner r := by
    intro env hit r
    split
    · exact hf env r
    · rfl
  refine Prog.Within.stmt (Q := K) ?_ ?_ ?_
  · intro v hs _
    show ((table.rows (v.snap.only w.outlet t)).filter
        (p (v.snap.only w.outlet t))).map table.lock ++
      ((table.rows (v.snap.only w.outlet t)).filter (p (v.snap.only w.outlet t))).flatMap marks = _
    rw [hhits v.snap hs]
  · intro v hs _ d hd
    have hsnap : (table.rows (v.map (Db.only w.outlet t)).snap).filter
          (p (v.map (Db.only w.outlet t)).snap) =
        (table.rows v.snap).filter (p v.snap) := hhits v.snap hs
    beta_reduce
    rw [hsnap]
    refine ⟨htable.modify t _ d (hkeep v.env _), fun a ha => ?_, hK _ v.env d hd⟩
    apply htable.same a _ d (hkeep v.env _)
    intro r hr howner
    rw [if_neg]
    intro hlock
    -- a row of another tenant has no lock in common with those that were found
    obtain ⟨r', hr', heq⟩ := List.mem_map.mp hlock
    obtain ⟨hmem', hp'⟩ := List.mem_filter.mp hr'
    have hsame := htable.lock v.snap d r' r hs hd hmem' hr heq
    exact ha (howner.symm.trans (hsame.symm.trans (hp v.snap hs r' hmem' hp')))
  · intro v hs _
    have hsnap : (table.rows (v.map (Db.only w.outlet t)).snap).filter
          (p (v.map (Db.only w.outlet t)).snap) =
        (table.rows v.snap).filter (p v.snap) := hhits v.snap hs
    have hcur : ((table.rows v.snap).filter (p v.snap)).all
          (fun r => decide (r ∈ table.rows (v.map (Db.only w.outlet t)).cur)) =
        ((table.rows v.snap).filter (p v.snap)).all fun r => decide (r ∈ table.rows v.cur) := by
      have hrows : table.rows (v.map (Db.only w.outlet t)).cur =
          ownedBy owner t (table.rows v.cur) :=
        htable.rows t v.cur
      rw [hrows, Bool.eq_iff_iff, List.all_eq_true, List.all_eq_true]
      refine forall₂_congr fun r hr => ?_
      obtain ⟨hmem, hpr⟩ := List.mem_filter.mp hr
      rw [decide_eq_true_eq, decide_eq_true_eq, mem_ownedBy]
      exact and_iff_left (hp v.snap hs r hmem hpr)
    have henv : (v.map (Db.only w.outlet t)).env = v.env := rfl
    beta_reduce
    rw [hsnap, hcur, henv]
    split
    · split
      · exact .ret _ fun _ h => h
      · exact .throw _
    · exact .throw _

end Update

end Stays

end Kasir
