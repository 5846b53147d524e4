/-
  Kasir.Schema

  The tables of the database that the operational services read and write, the
  errors a service or the database raises, and the locks a statement takes.

  A table is a list of rows in the order of insertion.  Identifiers are the
  canonical (lower-case) text of a UUID.  CHECK constraints on master data that
  later arithmetic relies on are fields of the row.
-/

import Kasir.Tax
import Kasir.Txn.Prog
import Mathlib.Data.List.Nodup
import Mathlib.Data.List.Sort

namespace Kasir

/-- A UUID column's value. -/
abbrev Id := String

/-- A text value the database can store: without NUL characters. -/
def storable (s : String) : Bool := !s.toList.contains (Char.ofNat 0)

/-- A value of a `VARCHAR(n)` column, whose width counts characters. -/
def varchar (n : Nat) (s : String) : Bool := storable s && s.length ≤ n

-- ============================================================================
-- Master data
-- ============================================================================

/-- `chk_users_role`. -/
inductive Role
  | owner
  | admin
  | cashier
deriving DecidableEq, Repr

structure Tenant where
  id : Id
  isActive : Bool
  taxEnabled : Bool
  taxRate : TaxRate
  name : String := ""
  address : Option String := none
deriving DecidableEq, Repr

structure User where
  id : Id
  tenantId : Id
  outletId : Option Id
  name : String
  role : Role
  isActive : Bool
deriving DecidableEq, Repr

structure Outlet where
  id : Id
  tenantId : Id
  name : String
  isActive : Bool
  address : Option String := none
deriving DecidableEq, Repr

structure Customer where
  id : Id
  tenantId : Id
  name : String := ""
  phone : Option String := none
  email : Option String := none
deriving DecidableEq, Repr

structure Category where
  id : Id
  tenantId : Id
deriving DecidableEq, Repr

structure Product where
  id : Id
  tenantId : Id
  name : String
  sku : String
  price : Int
  cost : Int
  trackStock : Bool
  isActive : Bool
  categoryId : Option Id := none
  minimumStock : Int := 0
  createdAt : Nat := 0
  /-- `chk_products_price` -/
  price_nonneg : 0 ≤ price := by decide
  /-- `chk_products_cost` -/
  cost_nonneg : 0 ≤ cost := by decide
deriving DecidableEq, Repr

structure ModifierGroup where
  id : Id
  tenantId : Id
  name : String
  isActive : Bool
  displayOrder : Int := 0
  createdAt : Nat := 0
  updatedAt : Nat := 0
deriving DecidableEq, Repr

structure ModifierOption where
  id : Id
  tenantId : Id
  modifierGroupId : Id
  name : String
  priceDelta : Int
  isActive : Bool
  displayOrder : Int := 0
  createdAt : Nat := 0
  updatedAt : Nat := 0
  /-- `chk_modifier_options_price_delta` -/
  priceDelta_nonneg : 0 ≤ priceDelta := by decide
deriving DecidableEq, Repr

inductive SelectionType
  | single
  | multiple
deriving DecidableEq, Repr

/-- `tuple` is no column: it tells the row from one with the same key that was
    inserted after the row was deleted. -/
structure ProductModifierGroup where
  tuple : Id
  tenantId : Id
  productId : Id
  modifierGroupId : Id
  required : Bool
  selectionType : SelectionType
  displayOrder : Int := 0
  createdAt : Nat := 0
  updatedAt : Nat := 0
deriving DecidableEq, Repr

/-- The tables edited by the catalog services. -/
structure Catalog where
  products : List Product := []
  modifierGroups : List ModifierGroup := []
  modifierOptions : List ModifierOption := []
  productModifierGroups : List ProductModifierGroup := []
deriving DecidableEq, Repr

/-- The tables edited by the administration of tenants, users, outlets, customers and
    categories. -/
structure Accounts where
  tenants : List Tenant := []
  users : List User := []
  outlets : List Outlet := []
  customers : List Customer := []
  categories : List Category := []
deriving DecidableEq, Repr

-- ============================================================================
-- Shifts
-- ============================================================================

inductive SessionStatus
  | open
  | closed
deriving DecidableEq, Repr

structure CashierSession where
  id : Id
  tenantId : Id
  outletId : Id
  userId : Id
  openingCash : Option Int
  closingCash : Option Int
  expectedCash : Option Int
  difference : Option Int
  status : SessionStatus
  openedAt : Nat
  closedAt : Option Nat
deriving DecidableEq, Repr

-- ============================================================================
-- Sales
-- ============================================================================

inductive TransactionStatus
  | pending
  | completed
  | cancelled
  | void
deriving DecidableEq, Repr

inductive PaymentMethod
  | cash
  | qris
  | edc
deriving DecidableEq, Repr

inductive PaymentStatus
  | pending
  | paid
  | failed
  | cancelled
deriving DecidableEq, Repr

structure Transaction where
  id : Id
  tenantId : Id
  outletId : Id
  userId : Id
  customerId : Option Id
  cashierSessionId : Option Id
  clientTransactionId : Id
  status : TransactionStatus
  subtotal : Int
  discount : Int
  tax : Int
  total : Int
  createdAt : Nat
deriving DecidableEq, Repr

structure TransactionItem where
  id : Id
  tenantId : Id
  transactionId : Id
  productId : Id
  quantity : Int
  unitPrice : Int
  unitCost : Int
  subtotal : Int
  productNameSnapshot : Option String
  skuSnapshot : Option String
  basePriceSnapshot : Option Int
  effectivePriceSnapshot : Option Int
  noteSnapshot : Option String
  createdAt : Nat
deriving DecidableEq, Repr

structure TransactionItemModifier where
  id : Id
  tenantId : Id
  transactionId : Id
  transactionItemId : Id
  modifierGroupId : Option Id
  modifierOptionId : Option Id
  groupNameSnapshot : String
  optionNameSnapshot : String
  priceDeltaSnapshot : Int
  createdAt : Nat
deriving DecidableEq, Repr

structure Payment where
  id : Id
  tenantId : Id
  transactionId : Id
  method : PaymentMethod
  status : PaymentStatus
  amount : Int
  amountReceived : Option Int
  changeAmount : Option Int
  paidAt : Option Nat
  createdAt : Nat
  provider : Option String := none
  providerReference : Option String := none
deriving DecidableEq, Repr

structure Sales where
  transactions : List Transaction := []
  transactionItems : List TransactionItem := []
  transactionItemModifiers : List TransactionItemModifier := []
  payments : List Payment := []
deriving DecidableEq, Repr

-- ============================================================================
-- Stock
-- ============================================================================

structure ProductStock where
  outletId : Id
  productId : Id
  stock : Int
deriving DecidableEq, Repr

inductive MovementType
  | sale
  | purchase
  | adjustment
  | return
deriving DecidableEq, Repr

structure StockMovement where
  id : Id
  tenantId : Id
  outletId : Id
  productId : Id
  userId : Id
  type : MovementType
  quantity : Int
  referenceType : Option String
  referenceId : Option Id
  reason : Option String
deriving DecidableEq, Repr

inductive AdjustmentType
  | add
  | deduct
deriving DecidableEq, Repr

structure StockAdjustment where
  id : Id
  tenantId : Id
  outletId : Id
  productId : Id
  userId : Id
  type : AdjustmentType
  quantity : Int
  reason : String
deriving DecidableEq, Repr

structure Stocks where
  productStocks : List ProductStock := []
  stockMovements : List StockMovement := []
  stockAdjustments : List StockAdjustment := []
deriving DecidableEq, Repr

-- ============================================================================
-- Held orders
-- ============================================================================

inductive HeldOrderStatus
  | open
  | converted
  | cancelled
deriving DecidableEq, Repr

structure HeldOrder where
  id : Id
  tenantId : Id
  outletId : Id
  originCashierSessionId : Id
  cashierUserId : Id
  label : Option String
  status : HeldOrderStatus
  version : Int
  subtotalEstimate : Int
  taxEstimate : Int
  totalEstimate : Int
  convertedTransactionId : Option Id
  createdAt : Nat
  cancelledAt : Option Nat
  convertedAt : Option Nat
deriving DecidableEq, Repr

structure HeldOrderItem where
  id : Id
  tenantId : Id
  heldOrderId : Id
  productId : Id
  quantity : Int
  productNameSnapshot : String
  skuSnapshot : String
  basePriceSnapshot : Int
  effectivePriceSnapshot : Int
  lineSubtotal : Int
  lineDiscount : Int
  lineTotal : Int
  noteSnapshot : Option String
  displayOrder : Nat
deriving DecidableEq, Repr

structure HeldOrderItemModifier where
  id : Id
  tenantId : Id
  heldOrderItemId : Id
  modifierGroupId : Option Id
  modifierOptionId : Option Id
  groupNameSnapshot : String
  optionNameSnapshot : String
  priceDeltaSnapshot : Int
  createdAt : Nat
deriving DecidableEq, Repr

structure Held where
  heldOrders : List HeldOrder := []
  heldOrderItems : List HeldOrderItem := []
  heldOrderItemModifiers : List HeldOrderItemModifier := []
deriving DecidableEq, Repr

-- ============================================================================
-- The database
-- ============================================================================

structure Db where
  accounts : Accounts := {}
  catalog : Catalog := {}
  cashierSessions : List CashierSession := []
  sales : Sales := {}
  stocks : Stocks := {}
  held : Held := {}
deriving DecidableEq, Repr

/-- No two rows have the same key. -/
def distinct {α κ : Type} [DecidableEq κ] (key : α → κ) (rows : List α) : Bool :=
  decide (rows.map key).Nodup

/-- The primary keys of the schema, and the unique key of `product_stocks`.  The
    unique indexes on sales and open sessions are checked by the inserts
    themselves (`insertUnique`). -/
def Db.legal (db : Db) : Bool :=
  distinct Tenant.id db.accounts.tenants &&
  distinct User.id db.accounts.users &&
  distinct Outlet.id db.accounts.outlets &&
  distinct Customer.id db.accounts.customers &&
  distinct Category.id db.accounts.categories &&
  distinct Product.id db.catalog.products &&
  distinct ModifierGroup.id db.catalog.modifierGroups &&
  distinct ModifierOption.id db.catalog.modifierOptions &&
  distinct (fun a => (a.tenantId, a.productId, a.modifierGroupId))
    db.catalog.productModifierGroups &&
  distinct CashierSession.id db.cashierSessions &&
  distinct Transaction.id db.sales.transactions &&
  distinct TransactionItem.id db.sales.transactionItems &&
  distinct TransactionItemModifier.id db.sales.transactionItemModifiers &&
  distinct Payment.id db.sales.payments &&
  distinct (fun s => (s.outletId, s.productId)) db.stocks.productStocks &&
  distinct StockMovement.id db.stocks.stockMovements &&
  distinct StockAdjustment.id db.stocks.stockAdjustments &&
  distinct HeldOrder.id db.held.heldOrders &&
  distinct HeldOrderItem.id db.held.heldOrderItems &&
  distinct HeldOrderItemModifier.id db.held.heldOrderItemModifiers

-- ============================================================================
-- What a statement is supplied with
-- ============================================================================

/-- The identifiers `gen_random_uuid()` yields to a statement, the clock, and the
    order in which the database returns rows that `ORDER BY` leaves unordered. -/
structure Env where
  fresh : Nat → Id
  now : Nat
  rank : Id → Nat

/-- `ORDER BY key`: rows with equal keys come in any order. -/
def orderBy {α : Type} (rank : Id → Nat) (key : α → Nat) (id : α → Id) (rows : List α) : List α :=
  rows.insertionSort fun a b => key a < key b ∨ (key a = key b ∧ rank (id a) ≤ rank (id b))

/-- No `ORDER BY`. -/
def unordered {α : Type} (rank : Id → Nat) (id : α → Id) (rows : List α) : List α :=
  orderBy rank (fun _ => 0) id rows

section OrderBy

variable {α : Type} {rank : Id → Nat} {key : α → Nat} {id : α → Id} {rows : List α}

/-- Rows come in the order of their keys, and rows with equal keys in that of their
    ranks. -/
theorem orderBy_pairwise : (orderBy rank key id rows).Pairwise fun a b =>
    key a < key b ∨ (key a = key b ∧ rank (id a) ≤ rank (id b)) := by
  let r : α → α → Prop := fun a b => key a < key b ∨ (key a = key b ∧ rank (id a) ≤ rank (id b))
  have htotal : Std.Total r := ⟨fun a b => by
    show (key a < key b ∨ _) ∨ (key b < key a ∨ _)
    omega⟩
  have htrans : IsTrans α r := ⟨fun a b c hab hbc => by
    have hab' : key a < key b ∨ (key a = key b ∧ rank (id a) ≤ rank (id b)) := hab
    have hbc' : key b < key c ∨ (key b = key c ∧ rank (id b) ≤ rank (id c)) := hbc
    show key a < key c ∨ (key a = key c ∧ rank (id a) ≤ rank (id c))
    omega⟩
  exact List.pairwise_insertionSort r rows

/-- Rows without ties come in the order of their keys. -/
theorem orderBy_eq_self (h : rows.Pairwise fun a b => key a < key b) :
    orderBy rank key id rows = rows :=
  (h.imp fun hab => Or.inl hab).insertionSort_eq

/-- Rows are returned as they stand, however ties are broken, exactly if there are
    none and the keys increase. -/
theorem orderBy_fixed_iff (hnodup : (rows.map id).Nodup) :
    (∀ rank, orderBy rank key id rows = rows) ↔ rows.Pairwise fun a b => key a < key b := by
  constructor
  · intro h
    rw [List.pairwise_iff_forall_sublist]
    intro a b hab
    -- the first of the two gets the later rank
    have hsorted := @orderBy_pairwise α (fun x => if x = id a then 1 else 0) key id rows
    rw [h, List.pairwise_iff_forall_sublist] at hsorted
    have hne : id b ≠ id a := by
      have hids : [id a, id b].Nodup := (hab.map id).nodup hnodup
      simp only [List.nodup_cons, List.mem_singleton] at hids
      exact Ne.symm hids.1
    have hrel := hsorted hab
    simp only [if_true, if_neg hne] at hrel
    omega
  · intro h rank
    exact orderBy_eq_self h

end OrderBy

theorem orderBy_perm {α : Type} (rank : Id → Nat) (key : α → Nat) (id : α → Id) (rows : List α) :
    (orderBy rank key id rows).Perm rows := List.perm_insertionSort _ rows

-- ============================================================================
-- Errors
-- ============================================================================

/-- The exception classes of the framework. -/
inductive HttpStatus
  | badRequest
  | unauthorized
  | forbidden
  | notFound
  | conflict
  | internalServerError
  | serviceUnavailable
deriving DecidableEq, Repr

/-- The further field an error body may carry. -/
inductive ErrorDetail
  | none
  | productId (id : Id)
  | openHeldOrderCount (n : Nat)
deriving DecidableEq, Repr

/-- `HttpException`. -/
structure HttpException where
  status : HttpStatus
  message : String
  errorCode : Option String := Option.none
  detail : ErrorDetail := .none
deriving DecidableEq, Repr

/-- The unique constraints the code looks for in a `P2002`. -/
inductive UniqueIndex
  /-- `uq_transactions_client_id` -/
  | transactionsClientId
  /-- `uq_cashier_sessions_open_user` -/
  | cashierSessionsOpenUser
  /-- `product_modifier_groups_pkey` -/
  | productModifierGroupsPkey
  /-- `uq_products_tenant_sku` -/
  | productsTenantSku
  /-- `uq_modifier_groups_tenant_name` -/
  | modifierGroupsTenantName
  /-- `uq_modifier_options_tenant_group_name` -/
  | modifierOptionsTenantGroupName
  | other
deriving DecidableEq, Repr

/-- What the database client raises. -/
inductive PrismaError
  | P2002 (target : UniqueIndex)
  | P2003
  | P2025
  | P2034
  /-- A known request error with another code, or an error that is not known. -/
  | other
deriving DecidableEq, Repr

/-- Whatever a call may be answered with instead of a result. -/
inductive Exc
  | http (e : HttpException)
  | prisma (e : PrismaError)
deriving DecidableEq, Repr

/-- An `HttpException` with an `error_code`. -/
def Exc.coded (status : HttpStatus) (message errorCode : String) : Exc :=
  .http { status, message, errorCode := some errorCode }

/-- An `HttpException` made of its message alone. -/
def Exc.plain (status : HttpStatus) (message : String) : Exc :=
  .http { status, message }

def Exc.isHttp : Exc → Bool
  | .http _ => true
  | .prisma _ => false

-- ============================================================================
-- Locks
-- ============================================================================

/-- What a transaction may hold to its end. -/
inductive Token
  /-- a `product_stocks` row -/
  | stock (outletId productId : Id)
  /-- a `held_orders` row -/
  | order (id : Id)
  /-- a `cashier_sessions` row -/
  | session (id : Id)
  /-- an entry of `uq_transactions_client_id` -/
  | saleKey (tenantId clientTransactionId : Id)
  /-- an entry of `uq_cashier_sessions_open_user` -/
  | openUser (tenantId userId : Id)
  /-- a `product_modifier_groups` row -/
  | assignment (tenantId productId modifierGroupId : Id)
  /-- a mark, no lock: a Read Committed transaction has read the session as OPEN -/
  | sessionRead (id : Id)
  /-- a mark, no lock: a transaction closes the session -/
  | closing (id : Id)
  /-- a mark, no lock: a transaction has looked for the session and found none -/
  | sessionSought (id : Id)
  /-- a mark, no lock: a transaction inserts the session -/
  | sessionInserted (id : Id)
  /-- a mark, no lock: a transaction has begun to delete the product's assignments -/
  | replacing (tenantId productId : Id)
  /-- a mark, no lock: a transaction inserts or rewrites an assignment of the product -/
  | replaced (tenantId productId : Id)
deriving DecidableEq, Repr

/-- The tokens that block: locks, not marks. -/
def Token.isLock : Token → Bool
  | .stock .. | .order _ | .session _ | .saleKey .. | .openUser .. | .assignment .. => true
  | .sessionRead _ | .closing _ | .sessionSought _ | .sessionInserted _ | .replacing ..
  | .replaced .. => false

/-- Row locks and index entries are exclusive. -/
def Token.blocks (l l' : Token) : Bool := l.isLock && decide (l = l')

theorem Token.blocks_comm (l l' : Token) : l.blocks l' = l'.blocks l := by
  unfold Token.blocks
  by_cases h : l = l'
  · rw [h]
  · rw [decide_eq_false h, decide_eq_false (Ne.symm h), Bool.and_false, Bool.and_false]

end Kasir
