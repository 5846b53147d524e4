/-
  Kasir.Reports.Service

  `ReportsService`: daily sales, the sales summary, and the top products.

  The columns `created_at` count microseconds, a `Date` counts milliseconds.  Sums of
  integer columns are exact; they become Numbers if they are safe.
-/

import Kasir.Readers
import Kasir.Sql
import Kasir.Js.Calendar
import Mathlib.Data.Rat.Floor

namespace Kasir.Reports

open Txn Js Transactions

-- ============================================================================
-- Dates
-- ============================================================================

def msPerHour : Int := 60 * 60 * 1000

def msPerDay : Int := 24 * msPerHour

/-- `JAKARTA_OFFSET`, in milliseconds. -/
def jakartaOffset : Int := 7 * msPerHour

/-- `ReportDateRange`: from `start` to before `stop`. -/
structure ReportDateRange where
  start : Int
  stop : Int
deriving DecidableEq, Repr

/-- The `Date` of midnight in Jakarta, if the text is taken for one: a day of the month
    up to 31 is, and runs over into the next month. -/
def jakartaMidnight (d : CalendarDate) : Option Int :=
  if 1 ≤ d.month ∧ d.month ≤ 12 ∧ 1 ≤ d.day ∧ d.day ≤ 31 then
    some (d.number * msPerDay - jakartaOffset)
  else none

/-- `toISOString().slice(0, 10)`. -/
def isoDate (time : Int) : List Char := (CalendarDate.ofNumber (time / msPerDay)).isoChars.take 10

def invalidReportDate : Exc := .plain .badRequest "Invalid report date"

def dateBoundary (date : String) : Except Exc Int :=
  if matchAll datePattern date.toList then
    match jakartaMidnight (CalendarDate.ofChars date.toList) with
    | none => .error invalidReportDate
    | some value =>
        if isoDate (value + jakartaOffset) = date.toList then .ok value else .error invalidReportDate
  else .error (.plain .badRequest "Date must use YYYY-MM-DD format")

def dailyRange (date : String) : Except Exc ReportDateRange := do
  let start ← dateBoundary date
  .ok { start, stop := start + msPerDay }

def summaryRange (startDate endDate : String) : Except Exc ReportDateRange := do
  let start ← dateBoundary startDate
  let stop ← dateBoundary endDate
  if stop ≤ start then .error (.plain .badRequest "end_date must be later than start_date")
  else .ok { start, stop }

/-- The instant of a `created_at` is in the range. -/
def ReportDateRange.contains (range : ReportDateRange) (createdAt : Int) : Bool :=
  decide (range.start * 1000 ≤ createdAt) && decide (createdAt < range.stop * 1000)

-- ============================================================================
-- Scope
-- ============================================================================

structure ReportScope where
  tenantId : Id
  outletId : Option Id
deriving DecidableEq, Repr

/-- `reportScope`.  An empty outlet is no filter. -/
def reportScope (user : JwtPayload) (requestedOutletId : Option String) : Body ReportScope := do
  ensure (isUUID user.sub && isUUID user.tenantId) invalidUserContext
  let actor ← HeldOrders.principal user.normalized
  ensure (actor.role == .owner || actor.role == .admin)
    (.plain .forbidden "Role cannot view reports")
  let tenantId := toLowerCase user.tenantId
  match (requestedOutletId.map toLowerCase).filter fun id => id != "" with
  | none => pure { tenantId, outletId := none }
  | some outletId => do
      let outlet ← query fun db => db.accounts.outlets.find? fun o =>
        o.id == outletId && o.tenantId == tenantId
      ensure outlet.isSome (.plain .notFound "Outlet not found")
      pure { tenantId, outletId := some outletId }

/-- The sales of a scope: COMPLETED, and of the outlet if there is a filter. -/
def ReportScope.covers (scope : ReportScope) (t : Transaction) : Bool :=
  t.tenantId == scope.tenantId && t.status == .completed &&
    scope.outletId.all fun outletId => t.outletId == outletId

/-- The `WHERE` of the reports. -/
def selected (scope : ReportScope) (range : ReportDateRange) (t : Transaction) : Bool :=
  scope.covers t && range.contains t.createdAt

-- ============================================================================
-- The summary
-- ============================================================================

/-- `SummaryValues`, and the fields of a response they become. -/
@[ext] structure SummaryValues where
  transactionCount : Int
  grossSales : Int
  discount : Int
  netSales : Int
  taxCollected : Int
  totalSales : Int
  cogs : Int
  grossProfit : Int
deriving DecidableEq, Repr

/-- `item_cost.cogs`: the cost of the items of a sale. -/
def itemCost (scope : ReportScope) (items : List TransactionItem) (t : Transaction) : Int :=
  ((items.filter fun i => i.tenantId == t.tenantId && i.transactionId == t.id &&
    i.tenantId == scope.tenantId).map fun i => i.quantity * i.unitCost).sum

/-- `readSummary`, from one state. -/
def readSummary (scope : ReportScope) (range : ReportDateRange) (db : Db) : SummaryValues :=
  let sales := db.sales.transactions.filter (selected scope range)
  let netSales := (sales.map fun t => t.subtotal - t.discount).sum
  let cogs := (sales.map (itemCost scope db.sales.transactionItems)).sum
  { transactionCount := sales.length
    grossSales := (sales.map Transaction.subtotal).sum
    discount := (sales.map Transaction.discount).sum
    netSales
    taxCollected := (sales.map Transaction.tax).sum
    totalSales := (sales.map Transaction.total).sum
    cogs
    grossProfit := netSales - cogs }

def safeInteger (value : Int) : Except Exc Int :=
  if value < -maxSafeInteger ∨ maxSafeInteger < value then
    .error (.plain .internalServerError "Report value exceeds supported integer range")
  else .ok value

def summaryResponse (summary : SummaryValues) : Except Exc SummaryValues := do
  let transactionCount ← safeInteger summary.transactionCount
  let grossSales ← safeInteger summary.grossSales
  let discount ← safeInteger summary.discount
  let netSales ← safeInteger summary.netSales
  let taxCollected ← safeInteger summary.taxCollected
  let totalSales ← safeInteger summary.totalSales
  let cogs ← safeInteger summary.cogs
  let grossProfit ← safeInteger summary.grossProfit
  .ok { transactionCount, grossSales, discount, netSales, taxCollected, totalSales, cogs, grossProfit }

-- ============================================================================
-- Daily sales and the sales summary
-- ============================================================================

structure DailySalesQueryDto where
  date : String
  outletId : Option String := none
deriving DecidableEq, Repr

structure DailySalesReport where
  date : String
  outletId : Option Id
  summary : SummaryValues
deriving DecidableEq, Repr

def dailySalesBody (user : JwtPayload) (q : DailySalesQueryDto) : Body DailySalesReport := do
  let range ← Prog.lift (dailyRange q.date)
  let scope ← reportScope user q.outletId
  let summary ← query (readSummary scope range)
  let response ← Prog.lift (summaryResponse summary)
  pure { date := q.date, outletId := scope.outletId, summary := response }

structure SalesSummaryQueryDto where
  startDate : String
  endDate : String
  outletId : Option String := none
deriving DecidableEq, Repr

structure SalesSummaryReport where
  summary : SummaryValues
  averageTransaction : Int
deriving DecidableEq, Repr

/-- The mean net sale, half up; `BigInt` division truncates. -/
def averageTransaction (summary : SummaryValues) : Int :=
  if summary.transactionCount = 0 then 0
  else (summary.netSales + summary.transactionCount.tdiv 2).tdiv summary.transactionCount

def salesSummaryBody (user : JwtPayload) (q : SalesSummaryQueryDto) : Body SalesSummaryReport := do
  let range ← Prog.lift (summaryRange q.startDate q.endDate)
  let scope ← reportScope user q.outletId
  let summary ← query (readSummary scope range)
  let response ← Prog.lift (summaryResponse summary)
  let average ← Prog.lift (safeInteger (averageTransaction summary))
  pure { summary := response, averageTransaction := average }

-- ============================================================================
-- Top products
-- ============================================================================

structure TopProductsQueryDto where
  startDate : String
  endDate : String
  outletId : Option String := none
  limit : Nat := 10
deriving DecidableEq, Repr

structure TopProductRow where
  productId : Id
  productName : String
  sku : String
  quantitySold : Int
  grossSales : Int
  netSales : Int
  cogs : Int
deriving DecidableEq, Repr

structure TopProductReport where
  productId : Id
  productName : String
  sku : String
  quantitySold : Int
  grossSales : Int
  cogs : Int
  grossProfit : Int
deriving DecidableEq, Repr

/-- `ROUND` of a numeric: halves go away from zero. -/
def roundNumeric (x : ℚ) : Int := if 0 ≤ x then ⌊x + 1 / 2⌋ else -⌊-x + 1 / 2⌋

/-- An item with its sale and its product. -/
abbrev SoldItem := (TransactionItem × Transaction) × Product

/-- The share of an item in the net sales of its sale. -/
def netShare (r : SoldItem) : ℚ :=
  if 0 < r.1.2.subtotal then
    (r.1.1.subtotal : ℚ) * ((r.1.2.subtotal - r.1.2.discount : Int) : ℚ) / (r.1.2.subtotal : ℚ)
  else 0

/-- `FROM transaction_items ti JOIN transactions t JOIN products p WHERE …`. -/
def soldItems (scope : ReportScope) (range : ReportDateRange) (db : Db) : List SoldItem :=
  (Sql.join (fun (r : TransactionItem × Transaction) (p : Product) =>
      p.id == r.1.productId && p.tenantId == r.1.tenantId)
    (Sql.join (fun (i : TransactionItem) (t : Transaction) =>
      t.id == i.transactionId && t.tenantId == i.tenantId)
      db.sales.transactionItems db.sales.transactions)
    db.catalog.products).filter fun r =>
      r.1.1.tenantId == scope.tenantId && r.2.tenantId == scope.tenantId &&
        selected scope range r.1.2

/-- `GROUP BY ti.product_id, p.name, p.sku`. -/
def productKey (r : SoldItem) : Id × String × String := (r.1.1.productId, r.2.name, r.2.sku)

def topProductRow (g : (Id × String × String) × List SoldItem) : TopProductRow where
  productId := g.1.1
  productName := g.1.2.1
  sku := g.1.2.2
  quantitySold := (g.2.map fun r => r.1.1.quantity).sum
  grossSales := (g.2.map fun r => r.1.1.subtotal).sum
  netSales := roundNumeric (g.2.map netShare).sum
  cogs := (g.2.map fun r => r.1.1.quantity * r.1.1.unitCost).sum

/-- `ORDER BY SUM(ti.quantity) DESC, SUM(ti.subtotal) DESC, ti.product_id ASC`. -/
def TopProductRow.before (a b : TopProductRow) : Prop :=
  b.quantitySold < a.quantitySold ∨ (a.quantitySold = b.quantitySold ∧
    (b.grossSales < a.grossSales ∨ (a.grossSales = b.grossSales ∧ a.productId ≤ b.productId)))

instance (a b : TopProductRow) : Decidable (a.before b) := inferInstanceAs (Decidable (_ ∨ _))

/-- The rows of `topProducts`, from one state. -/
def topProductRows (scope : ReportScope) (range : ReportDateRange) (limit : Nat) (db : Db) :
    List TopProductRow :=
  (((Sql.groupBy productKey (soldItems scope range db)).map topProductRow).insertionSort
    TopProductRow.before).take limit

def topProductResponse (row : TopProductRow) : Except Exc TopProductReport := do
  let quantitySold ← safeInteger row.quantitySold
  let grossSales ← safeInteger row.grossSales
  let cogs ← safeInteger row.cogs
  let grossProfit ← safeInteger (row.netSales - row.cogs)
  .ok
    { productId := row.productId, productName := row.productName, sku := row.sku
      quantitySold, grossSales, cogs, grossProfit }

def topProductsBody (user : JwtPayload) (q : TopProductsQueryDto) : Body (List TopProductReport) := do
  let range ← Prog.lift (summaryRange q.startDate q.endDate)
  let scope ← reportScope user q.outletId
  let rows ← query (topProductRows scope range q.limit)
  Prog.lift (rows.mapM topProductResponse)

-- ============================================================================
-- From a state
-- ============================================================================

/-- What `dailySales` answers from a state. -/
def dailySales (user : JwtPayload) (q : DailySalesQueryDto) (db : Db) (envs : Nat → Env) :
    Except Exc DailySalesReport :=
  ((dailySalesBody user q).solo db envs 0 id).result

def salesSummary (user : JwtPayload) (q : SalesSummaryQueryDto) (db : Db) (envs : Nat → Env) :
    Except Exc SalesSummaryReport :=
  ((salesSummaryBody user q).solo db envs 0 id).result

def topProducts (user : JwtPayload) (q : TopProductsQueryDto) (db : Db) (envs : Nat → Env) :
    Except Exc (List TopProductReport) :=
  ((topProductsBody user q).solo db envs 0 id).result

end Kasir.Reports
