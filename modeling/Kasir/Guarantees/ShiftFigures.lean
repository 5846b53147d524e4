/-
  Kasir.Guarantees.ShiftFigures

  What the summary of a shift shows, against the sales of the shift.

  The count and the total come from an aggregate query, the totals by method from the
  payments, and the quantities from the items.  That they agree is due to the books:
  every sale has one PAID payment, in full.  Quantities are numbers and not bigints, so
  they are added up exactly as far as a number goes.
-/

import Kasir.Guarantees.ShiftFinality
import Kasir.Books
import Kasir.Txn.Solo

namespace Kasir

open Txn Js Transactions

-- ============================================================================
-- What the sales of a session come to
-- ============================================================================

/-- The items of the session's sales. -/
def sessionItems (x : CashierSession) (db : Db) : List TransactionItem :=
  (sessionSales x db).flatMap (itemsOf db.sales)

/-- The sale was paid by the method. -/
def paidWith (sales : Sales) (method : PaymentMethod) (t : Transaction) : Bool :=
  sales.payments.any fun p => paymentOf t p && p.method == method

/-- The total of the session's sales that were paid by the method. -/
def methodTotal (method : PaymentMethod) (x : CashierSession) (db : Db) : Int :=
  (((sessionSales x db).filter (paidWith db.sales method)).map Transaction.total).sum

/-- What the session's sales come to. -/
def sessionTotal (x : CashierSession) (db : Db) : Int :=
  ((sessionSales x db).map Transaction.total).sum

/-- The quantities of the items, by product. -/
def soldQuantities (items : List TransactionItem) : List (Id × Int) :=
  items.map fun i => (i.productId, i.quantity)

/-- How much of a product the session's sales come to. -/
def soldOf (productId : Id) (x : CashierSession) (db : Db) : Int :=
  (amountsOf productId (soldQuantities (sessionItems x db))).sum

/-- The same sales in another order, each with its payments and items in another
    order. -/
def Shifts.Reordered (xs ys : List Shifts.SummarySale) : Prop :=
  ∃ zs, xs.Perm zs ∧
    List.Forall₂ (fun a b => a.payments.Perm b.payments ∧ a.items.Perm b.items) zs ys

/-- The figures of a summary agree with the sales of its session. -/
structure Reconciles (x : CashierSession) (db : Db) (s : Shifts.ShiftFigures) : Prop where
  count : s.transactionCount = (sessionSales x db).length
  sales : s.totals.sales = ((sessionSales x db).map Transaction.total).sum
  split : s.totals.sales = s.totals.cash + s.totals.qris + s.totals.edc
  methods : s.totals.cash = methodTotal .cash x db ∧ s.totals.qris = methodTotal .qris x db ∧
    s.totals.edc = methodTotal .edc x db
  nodup : (s.quantities.map Prod.fst).Nodup
  entries : ∀ productId quantity, (productId, quantity) ∈ s.quantities ↔
    (∃ i ∈ sessionItems x db, i.productId = productId) ∧ quantity = soldOf productId x db
  anyOrder : ∀ ys, Shifts.Reordered (Shifts.summarySales x.tenantId x.id db) ys →
    (Shifts.summarize x (Shifts.aggregateSales x.tenantId x.id db) ys).quantities.Perm
        s.quantities ∧
      (Shifts.summarize x (Shifts.aggregateSales x.tenantId x.id db) ys).totals = s.totals

/-- No product's quantity leaves the range in which numbers are exact. -/
def ExactQuantities (x : CashierSession) (db : Db) : Prop :=
  ∀ productId, soldOf productId x db ≤ exactBound

-- ============================================================================
-- Order
-- ============================================================================

namespace Shifts

theorem flatMap_perm_of_forall₂ {α β : Type} {f : α → List β} {xs ys : List α}
    (h : List.Forall₂ (fun a b => (f a).Perm (f b)) xs ys) :
    (xs.flatMap f).Perm (ys.flatMap f) := by
  induction h with
  | nil => exact .refl _
  | cons hab _ ih =>
      rw [List.flatMap_cons, List.flatMap_cons]
      exact hab.append ih

theorem Reordered.payments {xs ys : List SummarySale} (h : Reordered xs ys) :
    (xs.flatMap SummarySale.payments).Perm (ys.flatMap SummarySale.payments) := by
  obtain ⟨zs, hperm, hrows⟩ := h
  have hsame := flatMap_perm_of_forall₂ (hrows.imp fun _ _ hrow => hrow.1)
  exact (hperm.flatMap_right _).trans hsame

theorem Reordered.items {xs ys : List SummarySale} (h : Reordered xs ys) :
    (xs.flatMap SummarySale.items).Perm (ys.flatMap SummarySale.items) := by
  obtain ⟨zs, hperm, hrows⟩ := h
  have hsame := flatMap_perm_of_forall₂ (hrows.imp fun _ _ hrow => hrow.2)
  exact (hperm.flatMap_right _).trans hsame

theorem paidBy_of_perm {method : PaymentMethod} {xs ys : List SummarySale}
    (h : (xs.flatMap SummarySale.payments).Perm (ys.flatMap SummarySale.payments)) :
    paidBy method xs = paidBy method ys := ((h.filter _).map _).sum_eq

theorem paidBy_cons (method : PaymentMethod) (s : SummarySale) (ss : List SummarySale) :
    paidBy method (s :: ss) = paidBy method [s] + paidBy method ss := by
  unfold paidBy
  simp only [List.flatMap_cons, List.flatMap_nil, List.append_nil, List.filter_append,
    List.map_append, List.sum_append]

end Shifts

-- ============================================================================
-- Payments
-- ============================================================================

section Books

variable {x : CashierSession} {db : Db}

/-- A sale of the session as the summary reads it, before the items are ordered. -/
def summarySale (x : CashierSession) (db : Db) (t : Transaction) : Shifts.SummarySale where
  payments := (db.sales.payments.filter fun p =>
    paymentOf t p && p.tenantId == x.tenantId && p.status == .paid).map fun p =>
      (p.method, p.amount)
  items := (Shifts.orderById (fun _ => 0) TransactionItem.id
    (db.sales.transactionItems.filter fun i => itemOf t i && i.tenantId == x.tenantId)).map
      fun i => (i, (db.catalog.products.find? fun p =>
        p.id == i.productId && p.tenantId == i.tenantId).map Product.name)

theorem summarySales_perm (x : CashierSession) (db : Db) :
    (Shifts.summarySales x.tenantId x.id db).Perm ((sessionSales x db).map (summarySale x db)) :=
  (Shifts.orderById_perm _ _ _).map _

theorem mem_sessionSales {t : Transaction} (h : t ∈ sessionSales x db) :
    t ∈ db.sales.transactions ∧ t.tenantId = x.tenantId := by
  obtain ⟨hmem, hsale⟩ := List.mem_filter.mp h
  unfold Shifts.saleOf at hsale
  simp only [Bool.and_eq_true, beq_iff_eq] at hsale
  exact ⟨hmem, hsale.1.1⟩

/-- A booked sale is read with its one payment. -/
theorem summarySale_payments (hbooks : BooksOk db) {t : Transaction}
    (ht : t ∈ sessionSales x db) : ∃ method, (summarySale x db t).payments = [(method, t.total)] ∧
      ∀ m, paidWith db.sales m t = (method == m) := by
  obtain ⟨hmem, htenant⟩ := mem_sessionSales ht
  obtain ⟨p, hp, hstatus, hamount⟩ := (hbooks t hmem).payment
  have hown : ∀ q ∈ db.sales.payments, paymentOf t q = true → q = p := by
    intro q hq hqt
    have hin : q ∈ db.sales.payments.filter (paymentOf t) := List.mem_filter.mpr ⟨hq, hqt⟩
    rw [hp] at hin
    exact List.mem_singleton.mp hin
  have hpmem : p ∈ db.sales.payments ∧ paymentOf t p = true := by
    have hin : p ∈ db.sales.payments.filter (paymentOf t) := hp ▸ List.mem_singleton.mpr rfl
    exact List.mem_filter.mp hin
  have hptenant : p.tenantId = x.tenantId := by
    have hpt := hpmem.2
    unfold paymentOf at hpt
    simp only [Bool.and_eq_true, beq_iff_eq] at hpt
    exact hpt.2.trans htenant
  refine ⟨p.method, ?_, fun m => ?_⟩
  · have hfilter : (db.sales.payments.filter fun q =>
        paymentOf t q && q.tenantId == x.tenantId && q.status == .paid) =
        db.sales.payments.filter (paymentOf t) := by
      apply List.filter_congr
      intro q hq
      by_cases hqt : paymentOf t q = true
      · simp [hown q hq hqt, hptenant, hstatus, hpmem.2]
      · simp [hqt]
    unfold summarySale
    simp only [hfilter, hp, List.map_cons, List.map_nil, hamount]
  · rw [Bool.eq_iff_iff]
    unfold paidWith
    rw [List.any_eq_true]
    constructor
    · rintro ⟨q, hq, hqm⟩
      simp only [Bool.and_eq_true] at hqm
      rw [hown q hq hqm.1] at hqm
      exact hqm.2
    · intro hm
      exact ⟨p, hpmem.1, by simp [hpmem.2, hm]⟩

/-- What was paid by a method is the total of the sales paid by it. -/
theorem paidBy_eq (hbooks : BooksOk db) (method : PaymentMethod) {ts : List Transaction}
    (hts : ∀ t ∈ ts, t ∈ sessionSales x db) :
    Shifts.paidBy method (ts.map (summarySale x db)) =
      ((ts.filter (paidWith db.sales method)).map Transaction.total).sum := by
  induction ts with
  | nil => rfl
  | cons t ts ih =>
      obtain ⟨m, hpayments, hpaid⟩ := summarySale_payments hbooks (hts t (List.mem_cons_self ..))
      have hrest := ih fun u hu => hts u (List.mem_cons_of_mem _ hu)
      have hone : Shifts.paidBy method [summarySale x db t] = if m = method then t.total else 0 := by
        unfold Shifts.paidBy
        rw [List.flatMap_cons, hpayments]
        by_cases hm : m = method
        · simp [hm]
        · simp [hm]
      rw [List.map_cons, Shifts.paidBy_cons, hrest, hone]
      by_cases hm : m = method
      · have hwith : paidWith db.sales method t = true := by rw [hpaid, hm, beq_self_eq_true]
        rw [if_pos hm, List.filter_cons_of_pos hwith, List.map_cons, List.sum_cons]
      · have hwith : ¬ paidWith db.sales method t = true := by
          rw [hpaid, beq_iff_eq]
          exact hm
        rw [if_neg hm, List.filter_cons_of_neg hwith, Int.zero_add]

/-- Every sale is paid by one of the methods. -/
theorem methods_split (hbooks : BooksOk db) {ts : List Transaction}
    (hts : ∀ t ∈ ts, t ∈ sessionSales x db) :
    (ts.map Transaction.total).sum =
      ((ts.filter (paidWith db.sales .cash)).map Transaction.total).sum +
        ((ts.filter (paidWith db.sales .qris)).map Transaction.total).sum +
        ((ts.filter (paidWith db.sales .edc)).map Transaction.total).sum := by
  induction ts with
  | nil => rfl
  | cons t ts ih =>
      obtain ⟨m, -, hpaid⟩ := summarySale_payments hbooks (hts t (List.mem_cons_self ..))
      have hrest := ih fun u hu => hts u (List.mem_cons_of_mem _ hu)
      rw [List.map_cons, List.sum_cons, hrest]
      cases m with
      | cash =>
          simp only [List.filter_cons, hpaid, beq_self_eq_true, if_true, List.map_cons, List.sum_cons]
          simp only [show (PaymentMethod.cash == .qris) = false from rfl,
            show (PaymentMethod.cash == .edc) = false from rfl, Bool.false_eq_true, if_false]
          omega
      | qris =>
          simp only [List.filter_cons, hpaid, beq_self_eq_true, if_true, List.map_cons, List.sum_cons]
          simp only [show (PaymentMethod.qris == .cash) = false from rfl,
            show (PaymentMethod.qris == .edc) = false from rfl, Bool.false_eq_true, if_false]
          omega
      | edc =>
          simp only [List.filter_cons, hpaid, beq_self_eq_true, if_true, List.map_cons, List.sum_cons]
          simp only [show (PaymentMethod.edc == .cash) = false from rfl,
            show (PaymentMethod.edc == .qris) = false from rfl, Bool.false_eq_true, if_false]
          omega

/-- The payments of the summary, by method. -/
theorem paidBy_summarySales (hbooks : BooksOk db) (method : PaymentMethod) :
    Shifts.paidBy method (Shifts.summarySales x.tenantId x.id db) = methodTotal method x db := by
  have hperm := (summarySales_perm x db).flatMap_right Shifts.SummarySale.payments
  rw [Shifts.paidBy_of_perm hperm]
  exact paidBy_eq hbooks method fun _ ht => ht

-- ============================================================================
-- Quantities
-- ============================================================================

/-- The summary reads the session's items, each once. -/
theorem summaryItems_perm (x : CashierSession) (db : Db) :
    (((Shifts.summarySales x.tenantId x.id db).flatMap Shifts.SummarySale.items).map
      Prod.fst).Perm (sessionItems x db) := by
  have hperm := ((summarySales_perm x db).flatMap_right Shifts.SummarySale.items).map Prod.fst
  refine hperm.trans ?_
  unfold sessionItems
  rw [List.flatMap_map, List.map_flatMap]
  refine List.Perm.flatMap_left _ fun t ht => ?_
  have htenant := (mem_sessionSales ht).2
  have hfilter : (db.sales.transactionItems.filter fun i =>
      itemOf t i && i.tenantId == x.tenantId) = itemsOf db.sales t := by
    unfold itemsOf
    apply List.filter_congr
    intro i _
    unfold itemOf
    by_cases hi : i.tenantId = t.tenantId
    · simp [hi, htenant]
    · simp [hi]
  have hids : (summarySale x db t).items.map Prod.fst =
      Shifts.orderById (fun _ => 0) TransactionItem.id (itemsOf db.sales t) := by
    unfold summarySale
    simp only [List.map_map, hfilter]
    exact List.map_id _
  rw [hids]
  exact Shifts.orderById_perm _ _ _

theorem soldQuantities_pos (hbooks : BooksOk db) :
    ∀ e ∈ soldQuantities (sessionItems x db), 0 ≤ e.2 := by
  intro e he
  obtain ⟨i, hi, rfl⟩ := List.mem_map.mp he
  obtain ⟨t, ht, hit⟩ := List.mem_flatMap.mp hi
  have hline := (hbooks t (mem_sessionSales ht).1).lines i hit
  show 0 ≤ i.quantity
  omega

/-- What the items add up to, in whatever order they are read. -/
theorem tallies_of_perm {sales : List Shifts.SummarySale}
    (h : ((sales.flatMap Shifts.SummarySale.items).map Prod.fst).Perm (sessionItems x db)) :
    Tallies addNumber ((Shifts.productQuantities sales).map fun p => (p.productId, p.quantity))
        (soldQuantities ((sales.flatMap Shifts.SummarySale.items).map Prod.fst)) ∧
      (soldQuantities (sessionItems x db)).Perm
        (soldQuantities ((sales.flatMap Shifts.SummarySale.items).map Prod.fst)) := by
  rw [Shifts.productQuantities_quantities]
  exact ⟨tallies addNumber _, (h.map _).symm⟩

-- ============================================================================
-- The summary of a state
-- ============================================================================

/-- The summary of a session agrees with its sales, where the quantities are in
    range. -/
theorem reconciles_of_books (hbooks : BooksOk db) (hexact : ExactQuantities x db) :
    Reconciles x db (summaryAt x db) := by
  have hpos := soldQuantities_pos (x := x) hbooks
  obtain ⟨htallies, hperm⟩ := tallies_of_perm (summaryItems_perm x db)
  have hread : (summaryAt x db).quantities = (Shifts.productQuantities
      (Shifts.summarySales x.tenantId x.id db)).map fun p => (p.productId, p.quantity) := rfl
  have hposRead : ∀ e ∈ soldQuantities (((Shifts.summarySales x.tenantId x.id db).flatMap
      Shifts.SummarySale.items).map Prod.fst), 0 ≤ e.2 := fun e he =>
    hpos e (hperm.mem_iff.mpr he)
  have hsumRead : ∀ k, (amountsOf k (soldQuantities (((Shifts.summarySales x.tenantId x.id
      db).flatMap Shifts.SummarySale.items).map Prod.fst))).sum = soldOf k x db := fun k =>
    (amountsOf_perm k hperm.symm).sum_eq
  have hmethods : (summaryAt x db).totals.cash = methodTotal .cash x db ∧
      (summaryAt x db).totals.qris = methodTotal .qris x db ∧
      (summaryAt x db).totals.edc = methodTotal .edc x db :=
    ⟨paidBy_summarySales hbooks .cash, paidBy_summarySales hbooks .qris,
      paidBy_summarySales hbooks .edc⟩
  refine ⟨rfl, rfl, ?_, hmethods, ?_, fun productId quantity => ?_, fun ys hys => ⟨?_, ?_⟩⟩
  · rw [hmethods.1, hmethods.2.1, hmethods.2.2]
    exact methods_split hbooks fun _ ht => ht
  · exact hread ▸ htallies.nodup
  · rw [hread, htallies.mem_iff hposRead fun k => hsumRead k ▸ hexact k, hsumRead]
    have hkeys := (hperm.map Prod.fst).mem_iff (a := productId)
    simp only
    rw [← hkeys]
    unfold soldQuantities
    simp
  · have hitems := (hys.items.map Prod.fst).symm.trans (summaryItems_perm x db)
    obtain ⟨htallies', hperm'⟩ := tallies_of_perm hitems
    have hfinal := htallies.perm htallies' (hperm.symm.trans hperm') hposRead
      fun k => hsumRead k ▸ hexact k
    exact hfinal.symm
  · simp only [summaryAt, Shifts.summarize, Shifts.paidBy_of_perm hys.payments]

end Books

-- ============================================================================
-- The amounts of the summary
-- ============================================================================

section Amounts

variable {x : CashierSession} {db : Db}

theorem sum_total_nonneg (hbooks : BooksOk db) {ts : List Transaction}
    (hts : ∀ t ∈ ts, t ∈ sessionSales x db) : 0 ≤ (ts.map Transaction.total).sum := by
  apply List.sum_nonneg
  intro n hn
  obtain ⟨t, ht, rfl⟩ := List.mem_map.mp hn
  have hpos := (hbooks t (mem_sessionSales (hts t ht)).1).positive.2
  omega

theorem methodTotal_nonneg (hbooks : BooksOk db) (method : PaymentMethod) :
    0 ≤ methodTotal method x db :=
  sum_total_nonneg hbooks fun _ ht => List.mem_of_mem_filter ht

/-- The amounts by method are parts of the total. -/
theorem methodTotal_sum (hbooks : BooksOk db) :
    sessionTotal x db = methodTotal .cash x db + methodTotal .qris x db + methodTotal .edc x db :=
  methods_split hbooks fun _ ht => ht

theorem assertSafeMoney_ok {n : Int} (h0 : 0 ≤ n) (h : n ≤ maxSafeInteger) :
    Shifts.assertSafeMoney n = .ok () := by
  unfold Shifts.assertSafeMoney
  rw [if_neg]
  unfold maxSafeInteger at h ⊢
  omega

/-- The error of an amount beyond the safe integers. -/
def cashValueExceeds : Exc :=
  .plain .internalServerError "Shift cash value exceeds supported integer range"

theorem assertSafeMoney_error {n : Int} (h : maxSafeInteger < n) :
    Shifts.assertSafeMoney n = .error cashValueExceeds := by
  unfold Shifts.assertSafeMoney
  rw [if_pos (Or.inr h)]
  rfl

/-- What the guards of the summary come to: the total decides. -/
theorem summary_guards (hbooks : BooksOk db) :
    [(summaryAt x db).totals.sales, (summaryAt x db).totals.cash, (summaryAt x db).totals.qris,
      (summaryAt x db).totals.edc].forM Shifts.assertSafeMoney =
      if sessionTotal x db ≤ maxSafeInteger then .ok () else .error cashValueExceeds := by
  have hcash : (summaryAt x db).totals.cash = methodTotal .cash x db :=
    paidBy_summarySales hbooks .cash
  have hqris : (summaryAt x db).totals.qris = methodTotal .qris x db :=
    paidBy_summarySales hbooks .qris
  have hedc : (summaryAt x db).totals.edc = methodTotal .edc x db := paidBy_summarySales hbooks .edc
  have hsales : (summaryAt x db).totals.sales = sessionTotal x db := rfl
  have hsum := methodTotal_sum (x := x) hbooks
  have hcash0 := methodTotal_nonneg (x := x) hbooks .cash
  have hqris0 := methodTotal_nonneg (x := x) hbooks .qris
  have hedc0 := methodTotal_nonneg (x := x) hbooks .edc
  rw [hcash, hqris, hedc, hsales]
  by_cases hle : sessionTotal x db ≤ maxSafeInteger
  · rw [if_pos hle, Checked.forM_ok]
    intro n hn
    simp only [List.mem_cons, List.not_mem_nil, or_false] at hn
    have hbound : 0 ≤ n ∧ n ≤ maxSafeInteger := by
      rcases hn with rfl | rfl | rfl | rfl
      · omega
      · omega
      · omega
      · omega
    exact assertSafeMoney_ok hbound.1 hbound.2
  · rw [if_neg hle]
    show (Shifts.assertSafeMoney (sessionTotal x db) >>= fun _ => _) = _
    rw [assertSafeMoney_error (by omega)]
    rfl

end Amounts

-- ============================================================================
-- The call, alone
-- ============================================================================

/-- The call is about the session and comes from its own user, who is active. -/
structure OwnShift (user : JwtPayload) (id : String) (x : CashierSession) (db : Db) : Prop where
  ids : isUUID user.sub = true ∧ isUUID user.tenantId = true ∧ isUUID id = true
  session : toLowerCase id = x.id ∧ toLowerCase user.tenantId = x.tenantId ∧
    toLowerCase user.sub = x.userId
  active : (∃ u ∈ db.accounts.users, u.id = x.userId ∧ u.tenantId = x.tenantId ∧
      u.isActive = true) ∧
    ∃ t ∈ db.accounts.tenants, t.id = x.tenantId ∧ t.isActive = true

section Solo

variable {user : JwtPayload} {shiftId : String} {x : CashierSession} {db : Db} {envs : Nat → Env}
  {n : Nat} {log : Db → Db}

/-- The user is let in. -/
theorem solo_actorContext (h : OwnShift user shiftId x db) (hlog : log db = db) :
    ∃ actor : Shifts.ActorContext, actor.tenantId = x.tenantId ∧ actor.userId = x.userId ∧
      (Shifts.actorContext user).solo db envs n log = ⟨n + 1, log, .ok actor⟩ := by
  obtain ⟨⟨u, hu, huid, hutenant, huactive⟩, t, ht, htid, htactive⟩ := h.active
  obtain ⟨-, htenant, huser⟩ := h.session
  have hp : (u.id == user.normalized.sub && u.tenantId == user.normalized.tenantId &&
      u.isActive && db.accounts.tenants.any fun t => t.id == u.tenantId && t.isActive) = true := by
    simp only [JwtPayload.normalized, htenant, huser, huid, hutenant, huactive,
      beq_self_eq_true, Bool.and_true, Bool.true_and, List.any_eq_true, Bool.and_eq_true,
      beq_iff_eq]
    exact ⟨t, ht, htid, htactive⟩
  obtain ⟨u', hfound, -, -⟩ := find?_of_mem (p := fun u : User =>
    u.id == user.normalized.sub && u.tenantId == user.normalized.tenantId && u.isActive &&
      db.accounts.tenants.any fun t => t.id == u.tenantId && t.isActive) hu hp
  refine ⟨⟨toLowerCase user.tenantId, toLowerCase user.sub, u'.role, u'.outletId⟩, htenant, huser,
    ?_⟩
  unfold Shifts.actorContext HeldOrders.principal query
  rw [Prog.solo_bind]
  simp only [h.ids.1, h.ids.2.1, Bool.and_self, ensure, Prog.guard_true, Prog.solo_ret,
    Prog.solo_bind, Prog.solo_read, hlog, hfound, Prog.require_some, Prog.pure_eq]

/-- The session is found. -/
theorem solo_findShift {e : Exc} {y : CashierSession}
    (hnodup : ((log db).cashierSessions.map CashierSession.id).Nodup)
    (hy : y ∈ (log db).cashierSessions) :
    (Shifts.findShift y.tenantId y.id e).solo db envs n log =
      ⟨n + 1, log, .ok (Shifts.shiftSelect (log db).accounts y)⟩ := by
  obtain ⟨z, hfound, hz, hp⟩ := find?_of_mem (p := Shifts.shiftOf y.tenantId y.id) hy
    (by simp [Shifts.shiftOf])
  have hzy : z = y := by
    simp only [Shifts.shiftOf, Bool.and_eq_true, beq_iff_eq] at hp
    exact eq_of_key hnodup hz hy hp.1
  unfold Shifts.findShift query
  rw [Prog.solo_bind]
  simp only [Prog.solo_read, hfound, hzy, Option.map_some, Prog.require_some, Prog.solo_ret]

/-- The summary is derived where its total is safe. -/
theorem solo_deriveSummary (hbooks : BooksOk db) (hlog : log db = db) :
    (Shifts.deriveSummary x.tenantId (Shifts.shiftSelect db.accounts x)).solo db envs n log =
      ⟨n + 2, log, if sessionTotal x db ≤ maxSafeInteger then
          .ok (Shifts.summaryOf (Shifts.shiftSelect db.accounts x) (summaryAt x db)
            (envs (n + 1)).now)
        else .error cashValueExceeds⟩ := by
  have hguards := summary_guards (x := x) hbooks
  unfold summaryAt at hguards
  unfold Shifts.deriveSummary query queryNow
  rw [Prog.solo_bind]
  simp only [Prog.solo_read, Prog.solo_bind, hlog, Shifts.shiftSelect_toCashierSession, hguards]
  by_cases hle : sessionTotal x db ≤ maxSafeInteger
  · simp only [hle, if_true, Prog.lift_ok, Prog.solo_ret, Prog.pure_eq, summaryAt]
  · simp only [hle, if_false, Prog.lift_error, Prog.solo_throw]

/-- The user of an open shift is shown its summary, where the total is safe. -/
theorem solo_summaryBody (hwf : Wf db) (hbooks : BooksOk db) (hx : x ∈ db.cashierSessions)
    (hown : OwnShift user shiftId x db) (hsafe : sessionTotal x db ≤ maxSafeInteger) :
    (Shifts.summaryBody user shiftId).solo db envs 0 id =
      ⟨4, id, .ok (Shifts.summaryOf (Shifts.shiftSelect db.accounts x) (summaryAt x db)
        (envs 3).now)⟩ := by
  obtain ⟨actor, htenant, huser, hactor⟩ :=
    @solo_actorContext user shiftId x db envs 0 id hown rfl
  have hfind := @solo_findShift db envs 1 id (.coded .notFound "Shift not found" "SHIFT_NOT_FOUND")
    x (legal_cashierSessions hwf.legal) hx
  have hsummary := @solo_deriveSummary x db envs 2 id hbooks rfl
  rw [if_pos hsafe] at hsummary
  have hprepare : Shifts.prepareShift shiftId = .ok x.id := by
    unfold Shifts.prepareShift
    rw [if_pos hown.ids.2.2, hown.session.1]
  unfold Shifts.summaryBody
  rw [hprepare, Prog.lift_ok, Prog.ret_bind, Prog.solo_bind, hactor]
  simp only [htenant]
  rw [Prog.solo_bind, hfind]
  simp only [id_eq, Shifts.shiftSelect_toCashierSession, huser, bne_self_eq_false, Bool.and_false,
    Bool.not_false, ensure, Prog.guard_true, Prog.ret_bind]
  exact hsummary

end Solo

end Kasir
