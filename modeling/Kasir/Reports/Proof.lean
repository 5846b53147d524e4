/-
  Kasir.Reports.Proof

  What the reports answer from a state, and how their figures add up.

  The figures of a summary are the sum of the figures of its sales; sales are cut by
  their day, or by their outlet, and the sums with them.
-/

import Kasir.Reports.Dates
import Kasir.Books
import Kasir.Rounding

namespace Kasir.Reports

open Txn Js Transactions

-- ============================================================================
-- What the reports answer
-- ============================================================================

theorem answers_query {α : Type} {db : Db} (f : Db → α) : (query f).Answers db (.ok (f db)) :=
  Prog.answers_read f

/-- The active user of an active tenant, in a state. -/
def findPrincipal (user : JwtPayload) (db : Db) : Option User :=
  db.accounts.users.find? fun u =>
    u.id == user.sub && u.tenantId == user.tenantId && u.isActive &&
      db.accounts.tenants.any fun t => t.id == u.tenantId && t.isActive

/-- What `reportScope` answers from a state. -/
def reportScopeIn (user : JwtPayload) (requestedOutletId : Option String) (db : Db) :
    Except Exc ReportScope :=
  Checked.guard (isUUID user.sub && isUUID user.tenantId) invalidUserContext >>= fun _ =>
  Checked.require (findPrincipal user.normalized db)
    (.plain .unauthorized "User or tenant is inactive") >>= fun actor =>
  Checked.guard (actor.role == .owner || actor.role == .admin)
    (.plain .forbidden "Role cannot view reports") >>= fun _ =>
  match (requestedOutletId.map toLowerCase).filter fun id => id != "" with
  | none => .ok { tenantId := toLowerCase user.tenantId, outletId := none }
  | some outletId =>
      Except.ok (db.accounts.outlets.find? fun o =>
        o.id == outletId && o.tenantId == toLowerCase user.tenantId) >>= fun outlet =>
      Checked.guard outlet.isSome (.plain .notFound "Outlet not found") >>= fun _ =>
      .ok { tenantId := toLowerCase user.tenantId, outletId := some outletId }

section Answers

variable {db : Db} (user : JwtPayload)

theorem principal_answers : (HeldOrders.principal user).Answers db
    (Checked.require (findPrincipal user db) (.plain .unauthorized "User or tenant is inactive")) :=
  Prog.Answers.bind (answers_query _) fun principal => Prog.answers_require principal _

theorem reportScope_answers (requested : Option String) :
    (reportScope user requested).Answers db (reportScopeIn user requested db) := by
  apply (Prog.answers_guard _ _).bind
  intro _
  apply (principal_answers _).bind
  intro actor
  apply (Prog.answers_guard _ _).bind
  intro _
  dsimp only
  cases (requested.map toLowerCase).filter fun id => id != "" with
  | none => exact Prog.answers_ret _
  | some outletId =>
      apply (answers_query _).bind
      intro outlet
      exact (Prog.answers_guard _ _).bind fun _ => Prog.answers_ret _

/-- What `salesSummary` answers from a state. -/
theorem salesSummaryBody_answers (q : SalesSummaryQueryDto) : (salesSummaryBody user q).Answers db
    (summaryRange q.startDate q.endDate >>= fun range =>
      reportScopeIn user q.outletId db >>= fun scope =>
      Except.ok (readSummary scope range db) >>= fun summary =>
      summaryResponse summary >>= fun response =>
      safeInteger (averageTransaction summary) >>= fun average =>
        .ok { summary := response, averageTransaction := average }) := by
  apply (Prog.answers_lift _).bind
  intro range
  apply (reportScope_answers user _).bind
  intro scope
  apply (answers_query _).bind
  intro summary
  apply (Prog.answers_lift _).bind
  intro response
  exact (Prog.answers_lift _).bind fun average => Prog.answers_ret _

/-- What `dailySales` answers from a state. -/
theorem dailySalesBody_answers (q : DailySalesQueryDto) : (dailySalesBody user q).Answers db
    (dailyRange q.date >>= fun range =>
      reportScopeIn user q.outletId db >>= fun scope =>
      Except.ok (readSummary scope range db) >>= fun summary =>
      summaryResponse summary >>= fun response =>
        .ok { date := q.date, outletId := scope.outletId, summary := response }) := by
  apply (Prog.answers_lift _).bind
  intro range
  apply (reportScope_answers user _).bind
  intro scope
  apply (answers_query _).bind
  intro summary
  exact (Prog.answers_lift _).bind fun response => Prog.answers_ret _

/-- What `topProducts` answers from a state. -/
theorem topProductsBody_answers (q : TopProductsQueryDto) : (topProductsBody user q).Answers db
    (summaryRange q.startDate q.endDate >>= fun range =>
      reportScopeIn user q.outletId db >>= fun scope =>
      Except.ok (topProductRows scope range q.limit db) >>= fun rows =>
        rows.mapM topProductResponse) := by
  apply (Prog.answers_lift _).bind
  intro range
  apply (reportScope_answers user _).bind
  intro scope
  exact (answers_query _).bind fun rows => Prog.answers_lift _

end Answers

-- ============================================================================
-- Figures
-- ============================================================================

namespace SummaryValues

instance : Zero SummaryValues := ⟨⟨0, 0, 0, 0, 0, 0, 0, 0⟩⟩

instance : Add SummaryValues where
  add a b :=
    { transactionCount := a.transactionCount + b.transactionCount
      grossSales := a.grossSales + b.grossSales
      discount := a.discount + b.discount
      netSales := a.netSales + b.netSales
      taxCollected := a.taxCollected + b.taxCollected
      totalSales := a.totalSales + b.totalSales
      cogs := a.cogs + b.cogs
      grossProfit := a.grossProfit + b.grossProfit }

instance : AddCommMonoid SummaryValues where
  add_assoc a b c := by
    ext <;> exact Int.add_assoc _ _ _
  zero_add a := by
    ext <;> exact Int.zero_add _
  add_zero a := by
    ext <;> exact Int.add_zero _
  add_comm a b := by
    ext <;> exact Int.add_comm _ _
  nsmul := nsmulRec

end SummaryValues

/-- The figures of one sale. -/
def saleValues (scope : ReportScope) (items : List TransactionItem) (t : Transaction) :
    SummaryValues where
  transactionCount := 1
  grossSales := t.subtotal
  discount := t.discount
  netSales := t.subtotal - t.discount
  taxCollected := t.tax
  totalSales := t.total
  cogs := itemCost scope items t
  grossProfit := t.subtotal - t.discount - itemCost scope items t

/-- The figures of a summary are the sum of those of its sales. -/
theorem readSummary_eq (scope : ReportScope) (range : ReportDateRange) (db : Db) :
    readSummary scope range db =
      ((db.sales.transactions.filter (selected scope range)).map
        (saleValues scope db.sales.transactionItems)).sum := by
  unfold readSummary
  dsimp only
  generalize db.sales.transactions.filter (selected scope range) = sales
  induction sales with
  | nil => rfl
  | cons t sales ih =>
      have hsum : ((t :: sales).map (saleValues scope db.sales.transactionItems)).sum =
          saleValues scope db.sales.transactionItems t +
            (sales.map (saleValues scope db.sales.transactionItems)).sum := List.sum_cons
      rw [hsum, ← ih]
      simp only [List.length_cons, List.map_cons, List.sum_cons, Nat.cast_add, Nat.cast_one]
      show _ = SummaryValues.mk _ _ _ _ _ _ _ _
      rw [SummaryValues.mk.injEq]
      refine ⟨?_, rfl, rfl, rfl, rfl, rfl, rfl, ?_⟩
      · show _ = 1 + (sales.length : Int)
        omega
      · show _ = t.subtotal - t.discount - itemCost scope db.sales.transactionItems t +
          ((sales.map fun t => t.subtotal - t.discount).sum -
            (sales.map (itemCost scope db.sales.transactionItems)).sum)
        omega

section Cuts

variable (scope : ReportScope) (db : Db)

/-- A summary is cut at a midnight. -/
theorem readSummary_split {l m n : Int} (h12 : l < m) (h23 : m < n) :
    readSummary scope ⟨boundaryOf l, boundaryOf n⟩ db =
      readSummary scope ⟨boundaryOf l, boundaryOf m⟩ db +
        readSummary scope ⟨boundaryOf m, boundaryOf n⟩ db := by
  have hfibers := Sql.sum_fibers (show [true, false].Nodup by decide)
    (db.sales.transactions.filter (selected scope ⟨boundaryOf l, boundaryOf n⟩))
    (fun t : Transaction => decide (dayOf t.createdAt < m))
    (fun t _ => by cases decide (dayOf t.createdAt < m) <;> decide)
    (saleValues scope db.sales.transactionItems)
  rw [readSummary_eq, readSummary_eq, readSummary_eq, ← hfibers]
  simp only [List.map_cons, List.map_nil, List.sum_cons, List.sum_nil, add_zero, List.filter_filter]
  congr 3
  · apply List.filter_congr
    intro t _
    rw [Bool.eq_iff_iff]
    simp only [selected, Bool.and_eq_true, decide_eq_true_eq, contains_between]
    grind
  · apply List.filter_congr
    intro t _
    rw [Bool.eq_iff_iff]
    simp only [selected, Bool.and_eq_true, decide_eq_true_eq, decide_eq_false_iff_not,
      contains_between]
    grind

/-- A summary is cut into days. -/
theorem readSummary_days {d1 d3 : CalendarDate} (h1 : d1.Valid) {n : Nat}
    (hn : d3.number = d1.number + n) :
    readSummary scope ⟨boundaryOf d1.number, boundaryOf d3.number⟩ db =
      ((consecutive d1 n).map fun d => readSummary scope (dayRange d.number) db).sum := by
  have hfibers := Sql.sum_fibers (List.nodup_range (n := n))
    (db.sales.transactions.filter
      (selected scope ⟨boundaryOf d1.number, boundaryOf d3.number⟩))
    (fun t : Transaction => (dayOf t.createdAt - d1.number).toNat)
    (fun t ht => by
      simp only [List.mem_filter, selected, Bool.and_eq_true, contains_between] at ht
      rw [List.mem_range]
      omega)
    (saleValues scope db.sales.transactionItems)
  rw [readSummary_eq, ← hfibers]
  unfold consecutive
  rw [List.map_map]
  congr 1
  apply List.map_congr_left
  intro k hk
  have hlt := List.mem_range.mp hk
  show _ = readSummary scope (dayRange (CalendarDate.next^[k] d1).number) db
  rw [readSummary_eq, number_iterate h1, List.filter_filter]
  congr 2
  apply List.filter_congr
  intro t _
  rw [Bool.eq_iff_iff]
  simp only [selected, Bool.and_eq_true, decide_eq_true_eq, contains_between, contains_dayRange]
  grind

variable {db} in
/-- A summary without a filter is cut by outlets, if they are all there. -/
theorem readSummary_outlets {tenantId : Id} {range : ReportDateRange} {outlets : List Id}
    (hnodup : outlets.Nodup)
    (hall : ∀ t ∈ db.sales.transactions, t.tenantId = tenantId → t.outletId ∈ outlets) :
    readSummary ⟨tenantId, none⟩ range db =
      (outlets.map fun o => readSummary ⟨tenantId, some o⟩ range db).sum := by
  have hfibers := Sql.sum_fibers hnodup
    (db.sales.transactions.filter (selected ⟨tenantId, none⟩ range))
    Transaction.outletId
    (fun t ht => by
      simp only [List.mem_filter, selected, ReportScope.covers, Bool.and_eq_true, beq_iff_eq] at ht
      exact hall t ht.1 ht.2.1.1.1)
    (saleValues ⟨tenantId, none⟩ db.sales.transactionItems)
  rw [readSummary_eq, ← hfibers]
  congr 1
  apply List.map_congr_left
  intro o _
  rw [readSummary_eq, List.filter_filter]
  show _ = (List.map (saleValues ⟨tenantId, none⟩ db.sales.transactionItems) _).sum
  congr 2
  apply List.filter_congr
  intro t _
  rw [Bool.eq_iff_iff]
  simp only [selected, ReportScope.covers, Bool.and_eq_true, beq_iff_eq, decide_eq_true_eq,
    Option.all_none, Option.all_some]
  tauto

end Cuts

-- ============================================================================
-- Safe figures
-- ============================================================================

/-- The value is a safe integer. -/
def SafeInteger (n : Int) : Prop := -maxSafeInteger ≤ n ∧ n ≤ maxSafeInteger

theorem safeInteger_ok {n m : Int} : safeInteger n = .ok m ↔ SafeInteger n ∧ m = n := by
  unfold safeInteger SafeInteger
  split
  · constructor
    · intro h
      cases h
    · rintro ⟨⟨hmin, hmax⟩, -⟩
      omega
  · rw [Except.ok.injEq]
    constructor
    · rintro rfl
      exact ⟨by omega, rfl⟩
    · rintro ⟨-, rfl⟩
      rfl

namespace SummaryValues

/-- Every figure is a safe integer. -/
structure Safe (s : SummaryValues) : Prop where
  transactionCount : SafeInteger s.transactionCount
  grossSales : SafeInteger s.grossSales
  discount : SafeInteger s.discount
  netSales : SafeInteger s.netSales
  taxCollected : SafeInteger s.taxCollected
  totalSales : SafeInteger s.totalSales
  cogs : SafeInteger s.cogs
  grossProfit : SafeInteger s.grossProfit

/-- The figures are those of sales: only the profit may be negative, and they agree. -/
structure Sound (s : SummaryValues) : Prop where
  transactionCount : 0 ≤ s.transactionCount
  grossSales : 0 ≤ s.grossSales
  discount : 0 ≤ s.discount
  netSales : 0 ≤ s.netSales
  taxCollected : 0 ≤ s.taxCollected
  totalSales : 0 ≤ s.totalSales
  cogs : 0 ≤ s.cogs
  net : s.netSales = s.grossSales - s.discount
  total : s.totalSales = s.netSales + s.taxCollected
  profit : s.grossProfit = s.netSales - s.cogs

theorem sound_zero : (0 : SummaryValues).Sound := by
  constructor <;> decide

theorem Sound.add {a b : SummaryValues} (ha : a.Sound) (hb : b.Sound) : (a + b).Sound where
  transactionCount := Int.add_nonneg ha.transactionCount hb.transactionCount
  grossSales := Int.add_nonneg ha.grossSales hb.grossSales
  discount := Int.add_nonneg ha.discount hb.discount
  netSales := Int.add_nonneg ha.netSales hb.netSales
  taxCollected := Int.add_nonneg ha.taxCollected hb.taxCollected
  totalSales := Int.add_nonneg ha.totalSales hb.totalSales
  cogs := Int.add_nonneg ha.cogs hb.cogs
  net := by
    have hnet := ha.net
    have hnet' := hb.net
    show a.netSales + b.netSales = a.grossSales + b.grossSales - (a.discount + b.discount)
    omega
  total := by
    have htotal := ha.total
    have htotal' := hb.total
    show a.totalSales + b.totalSales = a.netSales + b.netSales + (a.taxCollected + b.taxCollected)
    omega
  profit := by
    have hprofit := ha.profit
    have hprofit' := hb.profit
    show a.grossProfit + b.grossProfit = a.netSales + b.netSales - (a.cogs + b.cogs)
    omega

theorem sound_sum {ss : List SummaryValues} (h : ∀ s ∈ ss, s.Sound) : ss.sum.Sound := by
  induction ss with
  | nil => exact sound_zero
  | cons s ss ih =>
      rw [List.sum_cons]
      exact (h s (List.mem_cons_self ..)).add (ih fun x hx => h x (List.mem_cons_of_mem _ hx))

/-- A part of safe figures is safe. -/
theorem Safe.left {a b : SummaryValues} (h : (a + b).Safe) (ha : a.Sound) (hb : b.Sound) : a.Safe := by
  obtain ⟨⟨-, hcount⟩, ⟨-, hgross⟩, ⟨-, hdiscount⟩, ⟨-, hnet⟩, ⟨-, htax⟩, ⟨-, htotal⟩, ⟨-, hcogs⟩, -⟩ := h
  change a.transactionCount + b.transactionCount ≤ _ at hcount
  change a.grossSales + b.grossSales ≤ _ at hgross
  change a.discount + b.discount ≤ _ at hdiscount
  change a.netSales + b.netSales ≤ _ at hnet
  change a.taxCollected + b.taxCollected ≤ _ at htax
  change a.totalSales + b.totalSales ≤ _ at htotal
  change a.cogs + b.cogs ≤ _ at hcogs
  obtain ⟨ha1, ha2, ha3, ha4, ha5, ha6, ha7, -, -, ha10⟩ := ha
  obtain ⟨hb1, hb2, hb3, hb4, hb5, hb6, hb7, -, -, -⟩ := hb
  have hmax : 0 < maxSafeInteger := by decide
  constructor <;> constructor <;> omega

theorem Safe.right {a b : SummaryValues} (h : (a + b).Safe) (ha : a.Sound) (hb : b.Sound) :
    b.Safe := (add_comm a b ▸ h).left hb ha

/-- Safe figures have safe parts. -/
theorem Safe.of_mem {ss : List SummaryValues} (h : ss.sum.Safe) (hsound : ∀ s ∈ ss, s.Sound)
    {s : SummaryValues} (hs : s ∈ ss) : s.Safe := by
  induction ss with
  | nil => cases hs
  | cons x ss ih =>
      rw [List.sum_cons] at h
      have hx := hsound x (List.mem_cons_self ..)
      have hrest : ∀ y ∈ ss, y.Sound := fun y hy => hsound y (List.mem_cons_of_mem _ hy)
      rcases List.mem_cons.mp hs with rfl | hmem
      · exact h.left hx (sound_sum hrest)
      · exact ih (h.right hx (sound_sum hrest)) hrest hmem

end SummaryValues

/-- The figures are returned if they are safe. -/
theorem summaryResponse_ok {s r : SummaryValues} : summaryResponse s = .ok r ↔ s.Safe ∧ r = s := by
  unfold summaryResponse
  simp only [Checked.bind_ok, safeInteger_ok]
  constructor
  · rintro ⟨_, ⟨h1, rfl⟩, _, ⟨h2, rfl⟩, _, ⟨h3, rfl⟩, _, ⟨h4, rfl⟩, _, ⟨h5, rfl⟩, _, ⟨h6, rfl⟩, _,
      ⟨h7, rfl⟩, _, ⟨h8, rfl⟩, h⟩
    exact ⟨⟨h1, h2, h3, h4, h5, h6, h7, h8⟩, (Except.ok.inj h).symm⟩
  · rintro ⟨⟨h1, h2, h3, h4, h5, h6, h7, h8⟩, rfl⟩
    exact ⟨_, ⟨h1, rfl⟩, _, ⟨h2, rfl⟩, _, ⟨h3, rfl⟩, _, ⟨h4, rfl⟩, _, ⟨h5, rfl⟩, _, ⟨h6, rfl⟩, _,
      ⟨h7, rfl⟩, _, ⟨h8, rfl⟩, rfl⟩

/-- The mean of safe figures is safe. -/
theorem safe_averageTransaction {s : SummaryValues} (hsound : s.Sound) (hsafe : s.Safe) :
    SafeInteger (averageTransaction s) := by
  have hmax : maxSafeInteger = 9007199254740991 := rfl
  have hnet := hsound.netSales
  have hnet' := hsafe.netSales.2
  have hcount := hsound.transactionCount
  have hcount' := hsafe.transactionCount.2
  unfold averageTransaction
  split
  · constructor <;> omega
  · have hhalf : s.transactionCount.tdiv 2 = s.transactionCount / 2 := Int.tdiv_eq_ediv_of_nonneg hcount
    rw [hhalf, Int.tdiv_eq_ediv_of_nonneg (by omega)]
    have hnonneg : 0 ≤ (s.netSales + s.transactionCount / 2) / s.transactionCount :=
      Int.ediv_nonneg (by omega) hcount
    have hlt : (s.netSales + s.transactionCount / 2) / s.transactionCount < maxSafeInteger + 1 := by
      apply Int.ediv_lt_of_lt_mul (by omega)
      rw [hmax]
      omega
    constructor <;> omega

-- ============================================================================
-- The figures of the books
-- ============================================================================

/-- What else the schema says of the rows a report reads: foreign keys and checks. -/
structure Constrained (db : Db) : Prop where
  /-- `fk_transaction_items_product_same_tenant` -/
  product : ∀ i ∈ db.sales.transactionItems, ∃ p ∈ db.catalog.products,
    p.id = i.productId ∧ p.tenantId = i.tenantId
  /-- `fk_transactions_outlet_same_tenant` -/
  outlet : ∀ t ∈ db.sales.transactions, ∃ o ∈ db.accounts.outlets,
    o.id = t.outletId ∧ o.tenantId = t.tenantId
  /-- a UUID is written in lower case -/
  outletId : ∀ o ∈ db.accounts.outlets, toLowerCase o.id = o.id ∧ o.id ≠ ""
  /-- `chk_transactions_tax` -/
  tax : ∀ t ∈ db.sales.transactions, 0 ≤ t.tax
  /-- `chk_transaction_items_subtotal` -/
  itemSubtotal : ∀ i ∈ db.sales.transactionItems, 0 ≤ i.subtotal
  /-- `chk_transaction_items_unit_cost` -/
  unitCost : ∀ i ∈ db.sales.transactionItems, 0 ≤ i.unitCost

section Booked

variable {db : Db} (hbooks : BooksOk db) (hconstrained : Constrained db)
include hbooks hconstrained

/-- The figures of a sale in the books are sound. -/
theorem saleValues_sound {scope : ReportScope} {t : Transaction} (ht : t ∈ db.sales.transactions) :
    (saleValues scope db.sales.transactionItems t).Sound := by
  have hbooked := hbooks t ht
  obtain ⟨hdiscount, hle⟩ := hbooked.discount
  have htax := hconstrained.tax t ht
  have htotal := hbooked.total
  have hpositive := hbooked.positive
  have hcogs : 0 ≤ itemCost scope db.sales.transactionItems t := by
    unfold itemCost
    apply List.sum_nonneg
    intro n hn
    obtain ⟨i, hi, rfl⟩ := List.mem_map.mp hn
    obtain ⟨hmem, hp⟩ := List.mem_filter.mp hi
    simp only [Bool.and_eq_true, beq_iff_eq] at hp
    have hitem : i ∈ itemsOf db.sales t := by
      unfold itemsOf itemOf
      rw [List.mem_filter, Bool.and_eq_true, beq_iff_eq, beq_iff_eq]
      exact ⟨hmem, hp.1.2, hp.1.1⟩
    have hquantity := (hbooked.lines i hitem).1
    exact Int.mul_nonneg (Int.le_of_lt hquantity) (hconstrained.unitCost i hmem)
  refine ⟨?_, ?_, ?_, ?_, ?_, ?_, hcogs, rfl, ?_, rfl⟩
  · exact Int.zero_le_ofNat 1
  · exact Int.le_of_lt hpositive.1
  · exact hdiscount
  · exact Int.sub_nonneg_of_le hle
  · exact htax
  · exact Int.le_of_lt hpositive.2
  · exact htotal

theorem readSummary_sound (scope : ReportScope) (range : ReportDateRange) :
    (readSummary scope range db).Sound := by
  rw [readSummary_eq]
  apply SummaryValues.sound_sum
  intro s hs
  obtain ⟨t, ht, rfl⟩ := List.mem_map.mp hs
  exact saleValues_sound hbooks hconstrained (List.mem_of_mem_filter ht)

end Booked

end Kasir.Reports
