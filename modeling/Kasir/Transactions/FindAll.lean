/-
  Kasir.Transactions.FindAll

  `TransactionsService.findAll`: the sales a reader may see, page by page.

  The texts `from` and `to` are timestamps that the request pipe has checked; here they are
  the instants they stand for, in milliseconds.  The column `created_at` counts microseconds.
-/

import Kasir.Transactions.FindOne
import Kasir.Paging

namespace Kasir.Transactions

open Txn Js

-- ============================================================================
-- The query
-- ============================================================================

/-- `QueryTransactionsDto`. -/
structure QueryTransactionsDto where
  outletId : Option String := none
  status : Option TransactionStatus := none
  start : Option Int := none
  stop : Option Int := none
  page : Nat := 1
  limit : Nat := 20
deriving DecidableEq, Repr

/-- The rules of the query. -/
def QueryTransactionsDto.valid (q : QueryTransactionsDto) : Bool :=
  q.outletId.all isUUID &&
    (match q.start, q.stop with
      | some start, some stop => decide (start < stop)
      | _, _ => true) &&
    decide (1 ≤ q.page) && decide ((q.page : Int) ≤ maxSafeInteger) &&
    decide (1 ≤ q.limit) && decide (q.limit ≤ 100)

def QueryTransactionsDto.skip (q : QueryTransactionsDto) : Nat := (q.page - 1) * q.limit

/-- What `findAll` checks before it opens a transaction. -/
def prepareList (q : QueryTransactionsDto) : Except Exc Unit :=
  if !q.valid then .error (.plain .badRequest "Invalid transaction query")
  else if int4Max < q.skip then
    .error (.plain .badRequest "Pagination offset exceeds supported range")
  else .ok ()

/-- The outlet a reader is confined to: a cashier to the own one, others to the one they
    ask for. -/
def listOutlet (actor : User) (requested : Option Id) : Body (Option Id) :=
  match actor.role with
  | .owner | .admin => pure requested
  | .cashier => do
      let outletId ← Prog.require actor.outletId outletAccessDenied
      ensure (requested.all fun r => r == outletId) outletAccessDenied
      pure (some outletId)

/-- The outlet is there. -/
def checkOutlet (tenantId : Id) (outletId : Option Id) : Body Unit :=
  match outletId with
  | none => pure ()
  | some outletId => do
      let outlet ← query fun db => db.accounts.outlets.find? fun o =>
        o.id == outletId && o.tenantId == tenantId
      ensure outlet.isSome (.plain .notFound "Outlet not found")

/-- `readScope` with the outlet of the query. -/
def listScope (user : JwtPayload) (requested : Option String) : Body ReadScope := do
  ensure (isUUID user.sub && isUUID user.tenantId) invalidUserContext
  let actor ← HeldOrders.principal user.normalized
  let outletId ← listOutlet actor (requested.map toLowerCase)
  checkOutlet (toLowerCase user.tenantId) outletId
  pure { tenantId := toLowerCase user.tenantId, outletId }

/-- The `WHERE` of the listing: `to` is exclusive. -/
def QueryTransactionsDto.selects (q : QueryTransactionsDto) (scope : ReadScope) (t : Transaction) :
    Bool :=
  scope.admits t && q.status.all (fun status => t.status == status) &&
    q.start.all (fun start => decide (start * 1000 ≤ (t.createdAt : Int))) &&
    q.stop.all fun stop => decide ((t.createdAt : Int) < stop * 1000)

-- ============================================================================
-- The listing
-- ============================================================================

/-- `ORDER BY created_at DESC, id DESC`. -/
def newerFirst (a b : Transaction) : Prop :=
  b.createdAt < a.createdAt ∨ (a.createdAt = b.createdAt ∧ b.id ≤ a.id)

instance (a b : Transaction) : Decidable (newerFirst a b) := inferInstanceAs (Decidable (_ ∨ _))

/-- All sales the query selects, in the order of the listing. -/
def listed (q : QueryTransactionsDto) (scope : ReadScope) (db : Db) : List Transaction :=
  (db.sales.transactions.filter (q.selects scope)).insertionSort newerFirst

/-- `toSummary`. -/
structure TransactionSummary where
  transactionId : Id
  clientTransactionId : Id
  outletId : Id
  userId : Id
  customerId : Option Id
  status : TransactionStatus
  subtotal : Int
  discount : Int
  tax : Int
  total : Int
  createdAt : Nat
deriving DecidableEq, Repr

/-- The summary without the range checks. -/
def Transaction.summary (t : Transaction) : TransactionSummary where
  transactionId := t.id
  clientTransactionId := t.clientTransactionId
  outletId := t.outletId
  userId := t.userId
  customerId := t.customerId
  status := t.status
  subtotal := t.subtotal
  discount := t.discount
  tax := t.tax
  total := t.total
  createdAt := t.createdAt

def toSummary (t : Transaction) : Except Exc TransactionSummary := do
  moneys [t.subtotal, t.discount, t.tax, t.total]
  .ok (Transaction.summary t)

structure ListMeta where
  page : Nat
  limit : Nat
  total : Nat
  totalPages : Nat
deriving DecidableEq, Repr

structure TransactionList where
  data : List TransactionSummary
  listMeta : ListMeta
deriving DecidableEq, Repr

/-- `findAll`: a transaction that only reads, from one state. -/
def findAllBody (user : JwtPayload) (q : QueryTransactionsDto) : Body TransactionList := do
  Prog.lift (prepareList q)
  let scope ← listScope user q.outletId
  let total ← query fun db => (db.sales.transactions.filter (q.selects scope)).length
  let rows ← query fun db => Paging.page q.limit q.page (listed q scope db)
  let data ← Prog.lift (rows.mapM toSummary)
  pure
    { data
      listMeta := { page := q.page, limit := q.limit, total
                    totalPages := Paging.pageCount q.limit total } }

/-- What `findAll` answers from a state. -/
def findAll (user : JwtPayload) (q : QueryTransactionsDto) (db : Db) (envs : Nat → Env) :
    Except Exc TransactionList :=
  ((findAllBody user q).solo db envs 0 id).result

end Kasir.Transactions
