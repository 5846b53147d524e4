/-
  Kasir.Guarantees.Reports

  Reports add up.

  On any set of committed sales the figures of a summary are the sums of those of its
  parts: of two ranges that share a day as boundary, of the days of the range, and of the
  outlets of the tenant.  The top products share out the same sales.
-/

import Kasir.Reports.TopProducts

namespace Kasir

open Txn Js Reports

-- ============================================================================
-- When a report returns
-- ============================================================================

theorem legal_outlets {db : Db} (h : db.legal = true) : (db.accounts.outlets.map Outlet.id).Nodup := by
  simp only [Db.legal, Bool.and_eq_true] at h
  exact nodup_of_distinct (by simp_all)

section Returns

variable {user : JwtPayload} {db : Db} {envs : Nat → Env}

theorem salesSummary_ok {q : SalesSummaryQueryDto} {r : SalesSummaryReport} :
    salesSummary user q db envs = .ok r ↔ ∃ range scope,
      summaryRange q.startDate q.endDate = .ok range ∧ reportScopeIn user q.outletId db = .ok scope ∧
      (readSummary scope range db).Safe ∧
      SafeInteger (averageTransaction (readSummary scope range db)) ∧
      r = ⟨readSummary scope range db, averageTransaction (readSummary scope range db)⟩ := by
  rw [salesSummary, (salesSummaryBody_answers user q).2]
  simp only [Checked.bind_ok, summaryResponse_ok, safeInteger_ok]
  constructor
  · rintro ⟨range, hrange, scope, hscope, _, hsummary, _, ⟨hsafe, rfl⟩, _, ⟨haverage, rfl⟩, hr⟩
    obtain rfl := Except.ok.inj hsummary
    exact ⟨range, scope, hrange, hscope, hsafe, haverage, (Except.ok.inj hr).symm⟩
  · rintro ⟨range, scope, hrange, hscope, hsafe, haverage, rfl⟩
    exact ⟨range, hrange, scope, hscope, _, rfl, _, ⟨hsafe, rfl⟩, _, ⟨haverage, rfl⟩, rfl⟩

theorem dailySales_ok {q : DailySalesQueryDto} {r : DailySalesReport} :
    dailySales user q db envs = .ok r ↔ ∃ range scope, dailyRange q.date = .ok range ∧
      reportScopeIn user q.outletId db = .ok scope ∧ (readSummary scope range db).Safe ∧
      r = ⟨q.date, scope.outletId, readSummary scope range db⟩ := by
  rw [dailySales, (dailySalesBody_answers user q).2]
  simp only [Checked.bind_ok, summaryResponse_ok]
  constructor
  · rintro ⟨range, hrange, scope, hscope, _, hsummary, _, ⟨hsafe, rfl⟩, hr⟩
    obtain rfl := Except.ok.inj hsummary
    exact ⟨range, scope, hrange, hscope, hsafe, (Except.ok.inj hr).symm⟩
  · rintro ⟨range, scope, hrange, hscope, hsafe, rfl⟩
    exact ⟨range, hrange, scope, hscope, _, rfl, _, ⟨hsafe, rfl⟩, rfl⟩

theorem topProducts_ok {q : TopProductsQueryDto} {range : ReportDateRange} {scope : ReportScope}
    (hrange : summaryRange q.startDate q.endDate = .ok range)
    (hscope : reportScopeIn user q.outletId db = .ok scope) :
    topProducts user q db envs =
      (topProductRows scope range q.limit db).mapM topProductResponse := by
  rw [topProducts, (topProductsBody_answers user q).2, hrange]
  show (reportScopeIn user q.outletId db >>= fun scope => _) = _
  rw [hscope]
  rfl

/-- Without a filter the scope is the tenant; with an outlet of the tenant, the outlet. -/
theorem reportScopeIn_outlet {scope : ReportScope} (h : reportScopeIn user none db = .ok scope) :
    scope = ⟨toLowerCase user.tenantId, none⟩ ∧
    ∀ o ∈ db.accounts.outlets, o.tenantId = toLowerCase user.tenantId → toLowerCase o.id = o.id →
      o.id ≠ "" →
      reportScopeIn user (some o.id) db = .ok ⟨toLowerCase user.tenantId, some o.id⟩ := by
  unfold reportScopeIn at h
  obtain ⟨u, hcontext, h⟩ := Checked.bind_ok.mp h
  obtain ⟨actor, hactor, h⟩ := Checked.bind_ok.mp h
  obtain ⟨u', hrole, h⟩ := Checked.bind_ok.mp h
  refine ⟨(Except.ok.inj h).symm, fun o ho htenant hlower hne => ?_⟩
  have hfilter : ((some o.id).map toLowerCase).filter (fun id => id != "") = some o.id := by
    rw [Option.map_some, hlower]
    simp [Option.filter, hne]
  have hsome : (db.accounts.outlets.find? fun x =>
      x.id == o.id && x.tenantId == toLowerCase user.tenantId).isSome = true := by
    rw [List.find?_isSome]
    exact ⟨o, ho, by simp [htenant]⟩
  unfold reportScopeIn
  rw [hcontext, hactor]
  show (Checked.guard (actor.role == .owner || actor.role == .admin) _ >>= fun _ => _) = _
  rw [hrole, hfilter]
  show (Checked.guard _ _ >>= fun _ => _) = _
  rw [hsome]
  rfl

end Returns

-- ============================================================================
-- Adding up
-- ============================================================================

/-- The outlets of the tenant. -/
def outletsOf (user : JwtPayload) (db : Db) : List Outlet :=
  db.accounts.outlets.filter fun o => o.tenantId == toLowerCase user.tenantId

/-- The summary `r` of `q` adds up with the other reports of the state. -/
structure ReportsAddUp (user : JwtPayload) (q : SalesSummaryQueryDto) (db : Db) (envs : Nat → Env)
    (r : SalesSummaryReport) : Prop where
  /-- any report date between cuts the summary in two -/
  split : ∀ s b1 b2 b3, dateBoundary q.startDate = .ok b1 → dateBoundary s = .ok b2 →
    dateBoundary q.endDate = .ok b3 → b1 < b2 → b2 < b3 →
    ∃ r1 r2, salesSummary user { q with endDate := s } db envs = .ok r1 ∧
      salesSummary user { q with startDate := s } db envs = .ok r2 ∧
      r.summary = r1.summary + r2.summary
  /-- the days from the first date up to the last tile the range, and their daily reports
      add up to the summary -/
  days : ∃ d1 d3 n range, IsDate q.startDate d1 ∧ IsDate q.endDate d3 ∧
    CalendarDate.next^[n] d1 = d3 ∧ summaryRange q.startDate q.endDate = .ok range ∧
    (∀ t : Int, range.contains t = true ↔ ∃ d ∈ consecutive d1 n, ∃ w,
      dailyRange (dateText d) = .ok w ∧ w.contains t = true) ∧
    ((consecutive d1 n).Pairwise fun d e => ∀ w w', dailyRange (dateText d) = .ok w →
      dailyRange (dateText e) = .ok w' → ∀ t : Int, ¬ (w.contains t = true ∧ w'.contains t = true)) ∧
    ∃ reports, (consecutive d1 n).mapM (fun d =>
        dailySales user { date := dateText d, outletId := q.outletId } db envs) = .ok reports ∧
      r.summary = (reports.map DailySalesReport.summary).sum
  /-- without a filter, the summaries of the outlets add up to the summary -/
  outlets : q.outletId = none → ∃ reports, (outletsOf user db).mapM (fun o =>
      salesSummary user { q with outletId := some o.id } db envs) = .ok reports ∧
    r.summary = (reports.map SalesSummaryReport.summary).sum
  /-- so do the daily reports of the outlets -/
  dailyOutlets : q.outletId = none → ∀ date report,
    dailySales user { date, outletId := none } db envs = .ok report →
    ∃ reports, (outletsOf user db).mapM (fun o =>
        dailySales user { date, outletId := some o.id } db envs) = .ok reports ∧
      report.summary = (reports.map DailySalesReport.summary).sum
  /-- the figures agree with each other -/
  net : r.summary.grossSales - r.summary.discount = r.summary.netSales
  total : r.summary.totalSales = r.summary.netSales + r.summary.taxCollected
  profit : r.summary.grossProfit = r.summary.netSales - r.summary.cogs
  /-- with a limit that is not smaller than the number of products sold, the top products
      are answered unless a quantity, which the summary has no figure for, is not safe;
      they list each product once, and share out the summary among them -/
  products : ∃ range scope, summaryRange q.startDate q.endDate = .ok range ∧
    reportScopeIn user q.outletId db = .ok scope ∧
    ∀ limit, (productsSold scope range db).length ≤ limit →
      ((∃ ps, topProducts user { startDate := q.startDate, endDate := q.endDate
                                 outletId := q.outletId, limit } db envs = .ok ps) ↔
        ∀ id ∈ productsSold scope range db, quantityOf scope range db id ≤ maxSafeInteger) ∧
      ∀ ps, topProducts user { startDate := q.startDate, endDate := q.endDate
                               outletId := q.outletId, limit } db envs = .ok ps →
        (ps.map TopProductReport.productId).Perm (productsSold scope range db) ∧
        (∀ p ∈ ps, p.quantitySold = quantityOf scope range db p.productId) ∧
        (ps.map TopProductReport.quantitySold).sum =
          ((itemsSold scope range db).map TransactionItem.quantity).sum ∧
        (ps.map TopProductReport.grossSales).sum = r.summary.grossSales ∧
        (ps.map TopProductReport.cogs).sum = r.summary.cogs ∧
        |((ps.map TopProductReport.grossProfit).sum - r.summary.grossProfit : ℚ)| ≤
          (ps.length : ℚ) / 2

section Sums

variable {user : JwtPayload} {db : Db} (envs : Nat → Env) (hwf : Wf db) (hbooks : BooksOk db)
  (hconstrained : Constrained db)

/-- Reports on the parts of figures that are safe return, and add up. -/
theorem mapM_of_safe {α ρ : Type} (report : α → Except Exc ρ) (figures : ρ → SummaryValues)
    {part : α → SummaryValues} {xs : List α}
    (hreport : ∀ x ∈ xs, (part x).Safe → ∃ r, report x = .ok r ∧ figures r = part x)
    (hsound : ∀ x ∈ xs, (part x).Sound) (hsafe : ((xs.map part).sum).Safe) :
    ∃ rs, xs.mapM report = .ok rs ∧ (xs.map part).sum = (rs.map figures).sum := by
  have hparts : ∀ x ∈ xs, (part x).Safe := by
    intro x hx
    apply hsafe.of_mem _ (List.mem_map_of_mem hx)
    intro s hs
    obtain ⟨y, hy, rfl⟩ := List.mem_map.mp hs
    exact hsound y hy
  clear hsafe hsound
  induction xs with
  | nil => exact ⟨[], rfl, rfl⟩
  | cons x xs ih =>
      obtain ⟨r, hr, hfigures⟩ := hreport x (List.mem_cons_self ..) (hparts x (List.mem_cons_self ..))
      obtain ⟨rs, hrs, hsum⟩ := ih (fun y hy => hreport y (List.mem_cons_of_mem _ hy))
        fun y hy => hparts y (List.mem_cons_of_mem _ hy)
      refine ⟨r :: rs, ?_, ?_⟩
      · rw [List.mapM_cons, hr, hrs]
        rfl
      · rw [List.map_cons, List.sum_cons, List.map_cons, List.sum_cons, hsum, hfigures]

include hbooks hconstrained

theorem salesSummary_of_safe {s1 s2 : String} {outletId : Option String} {d1 d2 : CalendarDate}
    {scope : ReportScope} (h1 : IsDate s1 d1) (h2 : IsDate s2 d2) (hlt : d1.number < d2.number)
    (hscope : reportScopeIn user outletId db = .ok scope)
    (hsafe : (readSummary scope ⟨boundaryOf d1.number, boundaryOf d2.number⟩ db).Safe) :
    ∃ r, salesSummary user { startDate := s1, endDate := s2, outletId } db envs = .ok r ∧
      r.summary = readSummary scope ⟨boundaryOf d1.number, boundaryOf d2.number⟩ db := by
  have hrange := summaryRange_ok.mpr ⟨d1, d2, h1, h2, hlt, rfl⟩
  have haverage := safe_averageTransaction (readSummary_sound hbooks hconstrained scope _) hsafe
  exact ⟨_, salesSummary_ok.mpr ⟨_, scope, hrange, hscope, hsafe, haverage, rfl⟩, rfl⟩

omit hbooks hconstrained in
theorem dailySales_of_safe {s : String} {outletId : Option String} {d : CalendarDate}
    {scope : ReportScope} (h : IsDate s d) (hscope : reportScopeIn user outletId db = .ok scope)
    (hsafe : (readSummary scope (dayRange d.number) db).Safe) :
    ∃ r, dailySales user { date := s, outletId } db envs = .ok r ∧
      r.summary = readSummary scope (dayRange d.number) db :=
  ⟨_, dailySales_ok.mpr ⟨_, scope, dailyRange_of_isDate h, hscope, hsafe, rfl⟩, rfl⟩

variable (user) in
omit hbooks in
include hwf in
/-- The outlets of the tenant have all its sales, each one once. -/
theorem readSummary_outletsOf (range : ReportDateRange) :
    readSummary ⟨toLowerCase user.tenantId, none⟩ range db =
      ((outletsOf user db).map fun o =>
        readSummary ⟨toLowerCase user.tenantId, some o.id⟩ range db).sum := by
  have hnodup : ((outletsOf user db).map Outlet.id).Nodup :=
    (legal_outlets hwf.legal).sublist (List.filter_sublist.map _)
  rw [readSummary_outlets hnodup, List.map_map]
  · rfl
  · intro t ht htenant
    obtain ⟨o, ho, hid, hotenant⟩ := hconstrained.outlet t ht
    refine List.mem_map.mpr ⟨o, List.mem_filter.mpr ⟨ho, ?_⟩, hid⟩
    rw [hotenant, htenant]
    exact beq_self_eq_true _

end Sums

/-- **Reports add up.**  In every reachable state, a sales summary that returns adds up
    with the summaries of its parts, with the daily reports, with those of the outlets and
    with the top products; the parts return too. -/
theorem reports_add_up {db0 : Db} {σ : State} (h0 : Wf db0) (hsales : SalesOk db0)
    (hbooks0 : BooksOk db0) (hreach : kasir.Reach db0 σ) (hconstrained : Constrained σ.db)
    {user : JwtPayload} {q : SalesSummaryQueryDto} {envs : Nat → Env} {r : SalesSummaryReport}
    (hr : salesSummary user q σ.db envs = .ok r) : ReportsAddUp user q σ.db envs r := by
  have hsound := reach_sound h0 hreach
  have hwf : Wf σ.db := hsound.inv
  have hbooks : BooksOk σ.db := BooksOk.invariant hsound hsales hbooks0
  have hparts := readSummary_sound hbooks hconstrained
  obtain ⟨range, scope, hrange, hscope, hsafe, -, rfl⟩ := salesSummary_ok.mp hr
  obtain ⟨d1, d3, h1, h3, hlt, rfl⟩ := summaryRange_ok.mp hrange
  have hfigures := hparts scope ⟨boundaryOf d1.number, boundaryOf d3.number⟩
  constructor
  · intro s b1 b2 b3 hb1 hb2 hb3 h12 h23
    obtain ⟨d1', h1', rfl⟩ := dateBoundary_ok.mp hb1
    obtain ⟨d2, h2, rfl⟩ := dateBoundary_ok.mp hb2
    obtain ⟨d3', h3', rfl⟩ := dateBoundary_ok.mp hb3
    obtain rfl := h1.unique h1'
    obtain rfl := h3.unique h3'
    have h12' := boundaryOf_lt.mp h12
    have h23' := boundaryOf_lt.mp h23
    have hsplit := readSummary_split scope σ.db h12' h23'
    rw [hsplit] at hsafe
    obtain ⟨r1, hr1, heq1⟩ := salesSummary_of_safe envs hbooks hconstrained h1 h2 h12' hscope
      (hsafe.left (hparts _ _) (hparts _ _))
    obtain ⟨r2, hr2, heq2⟩ := salesSummary_of_safe envs hbooks hconstrained h2 h3 h23' hscope
      (hsafe.right (hparts _ _) (hparts _ _))
    exact ⟨r1, r2, hr1, hr2, by rw [heq1, heq2]; exact hsplit⟩
  · obtain ⟨n, hn⟩ : ∃ n : Nat, d3.number = d1.number + n :=
      ⟨(d3.number - d1.number).toNat, by omega⟩
    have hdates := isDate_consecutive h1 h3 hn
    obtain ⟨hcover, hdisjoint⟩ := windows_tile h1.valid hn
    have hdays := readSummary_days scope σ.db h1.valid hn
    rw [hdays] at hsafe
    obtain ⟨reports, hreports, hsum⟩ := mapM_of_safe
      (fun d => dailySales user { date := dateText d, outletId := q.outletId } σ.db envs)
      DailySalesReport.summary
      (fun d hd hday => dailySales_of_safe envs (hdates d hd) hscope hday) (fun _ _ => hparts _ _) hsafe
    refine ⟨d1, d3, n, _, h1, h3, iterate_eq h1.valid h3.valid hn, hrange, fun t => ?_, ?_, reports,
      hreports, hdays.trans hsum⟩
    · rw [hcover t]
      constructor
      · rintro ⟨d, hd, ht⟩
        exact ⟨d, hd, _, dailyRange_of_isDate (hdates d hd), ht⟩
      · rintro ⟨d, hd, w, hw, ht⟩
        rw [dailyRange_of_isDate (hdates d hd)] at hw
        obtain rfl := Except.ok.inj hw
        exact ⟨d, hd, ht⟩
    · refine List.Pairwise.imp_of_mem (fun {d e} hd he hno w w' hw hw' => ?_) hdisjoint
      rw [dailyRange_of_isDate (hdates d hd)] at hw
      rw [dailyRange_of_isDate (hdates e he)] at hw'
      obtain rfl := Except.ok.inj hw
      obtain rfl := Except.ok.inj hw'
      exact hno
  · intro hnone
    rw [hnone] at hscope
    obtain ⟨rfl, houtlets⟩ := reportScopeIn_outlet hscope
    have hcut := readSummary_outletsOf user hwf hconstrained
      ⟨boundaryOf d1.number, boundaryOf d3.number⟩
    rw [hcut] at hsafe
    obtain ⟨reports, hreports, hsum⟩ := mapM_of_safe
      (fun o : Outlet => salesSummary user { q with outletId := some o.id } σ.db envs)
      SalesSummaryReport.summary
      (fun o ho hpart => by
        obtain ⟨hmem, htenant⟩ := List.mem_filter.mp ho
        obtain ⟨hlower, hne⟩ := hconstrained.outletId o hmem
        exact salesSummary_of_safe envs hbooks hconstrained h1 h3 hlt
          (houtlets o hmem (beq_iff_eq.mp htenant) hlower hne) hpart)
      (fun _ _ => hparts _ _) hsafe
    exact ⟨reports, hreports, hcut.trans hsum⟩
  · intro hnone date report hreport
    obtain ⟨range', scope', hrange', hscope', hsafe', rfl⟩ := dailySales_ok.mp hreport
    obtain ⟨rfl, houtlets⟩ := reportScopeIn_outlet hscope'
    have hcut := readSummary_outletsOf user hwf hconstrained range'
    rw [hcut] at hsafe'
    obtain ⟨reports, hreports, hsum⟩ := mapM_of_safe
      (fun o : Outlet => dailySales user { date, outletId := some o.id } σ.db envs)
      DailySalesReport.summary
      (fun o ho hpart => by
        obtain ⟨hmem, htenant⟩ := List.mem_filter.mp ho
        obtain ⟨hlower, hne⟩ := hconstrained.outletId o hmem
        exact ⟨_, dailySales_ok.mpr ⟨_, _, hrange', houtlets o hmem (beq_iff_eq.mp htenant) hlower hne,
          hpart, rfl⟩, rfl⟩)
      (fun _ _ => hparts _ _) hsafe'
    exact ⟨reports, hreports, hcut.trans hsum⟩
  · exact hfigures.net.symm
  · exact hfigures.total
  · exact hfigures.profit
  · refine ⟨_, scope, hrange, hscope, fun limit hlimit => ?_⟩
    have hanswer := @topProducts_ok user σ.db envs
      { startDate := q.startDate, endDate := q.endDate, outletId := q.outletId, limit } _ _
      hrange hscope
    rw [hanswer]
    refine ⟨mapM_topProductResponse_iff hwf hconstrained hbooks hsafe hlimit, fun ps hps => ?_⟩
    obtain rfl := mapM_topProductResponse_ok hps
    have hperm := topProductRows_perm hwf hconstrained hlimit
    have hprofit := @abs_grossProfit_sub_le scope
      ⟨boundaryOf d1.number, boundaryOf d3.number⟩ σ.db hwf hconstrained hbooks
    refine ⟨?_, ?_, ?_, ?_, ?_, ?_⟩
    · rw [List.map_map]
      exact (hperm.map TopProductRow.productId).trans (allRows_perm hwf hconstrained)
    · intro p hp
      obtain ⟨row, hrow, rfl⟩ := List.mem_map.mp hp
      exact quantitySold_of_mem hwf hconstrained (hperm.mem_iff.mp hrow)
    · rw [List.map_map]
      exact ((hperm.map TopProductRow.quantitySold).sum_eq).trans (sum_quantitySold hwf hconstrained)
    · rw [List.map_map]
      exact ((hperm.map TopProductRow.grossSales).sum_eq).trans (sum_grossSales hwf hconstrained hbooks)
    · rw [List.map_map]
      exact ((hperm.map TopProductRow.cogs).sum_eq).trans (sum_cogs hwf hconstrained)
    · rw [List.map_map, List.length_map, hperm.length_eq]
      have hsame := (hperm.map fun row => row.netSales - row.cogs).sum_eq
      rw [← hsame] at hprofit
      exact hprofit

namespace Shop

/-- The owner of the shop. -/
def owner : User :=
  { id := uuid 0 0 7, tenantId := tenant, outletId := none, name := "Wati", role := .owner
    isActive := true }

def ownerToken : JwtPayload :=
  { sub := owner.id, tenantId := tenant, role := "OWNER", outletId := none }

/-- The owner gets an account. -/
def hireOwner : Call := .administer { db.accounts with users := db.accounts.users ++ [owner] }

/-- The first day of 1970. -/
def firstDay : SalesSummaryQueryDto := { startDate := "1970-01-01", endDate := "1970-01-02" }

def topOfFirstDay : TopProductsQueryDto :=
  { startDate := firstDay.startDate, endDate := firstDay.endDate }

/-- The gross sales of a report that returns. -/
def grossSales : Except Exc SalesSummaryReport → Option Int
  | .ok r => some r.summary.grossSales
  | .error _ => none

/-- The quantities of the top products. -/
def quantities : Except Exc (List TopProductReport) → Option (List (Id × Int))
  | .ok ps => some (ps.map fun p => (p.productId, p.quantitySold))
  | .error _ => none

end Shop

/-- In the shop two coffees are sold, and the reports of the day add up: the coffees are
    its top product. -/
theorem reports_add_up_shop : ∃ (σ : State) (r : SalesSummaryReport) (ps : List TopProductReport),
    kasir.Reach Shop.db σ ∧
    salesSummary Shop.ownerToken Shop.firstDay σ.db (Shop.envs 2) = .ok r ∧
    r.summary.grossSales = 2000 ∧
    topProducts Shop.ownerToken Shop.topOfFirstDay σ.db (Shop.envs 2) = .ok ps ∧
    ps.map (fun p => (p.productId, p.quantitySold)) = [(Shop.coffee, 2)] ∧
    ReportsAddUp Shop.ownerToken Shop.firstDay σ.db (Shop.envs 2) r := by
  obtain ⟨σ, -, hrun, hp, -⟩ := Shop.run noMarks
    [(Shop.hireOwner, Shop.envs 0), (Shop.sale (Shop.uuid 9 9 9), Shop.envs 1)]
    (fun _ db => decide (Shop.grossSales
        (salesSummary Shop.ownerToken Shop.firstDay db (Shop.envs 2)) = some 2000) &&
      decide (Shop.quantities (topProducts Shop.ownerToken Shop.topOfFirstDay db (Shop.envs 2)) =
        some [(Shop.coffee, 2)]) &&
      decide (∀ i ∈ db.sales.transactionItems, 0 ≤ i.subtotal) &&
      decide (∀ i ∈ db.sales.transactionItems, ∃ p ∈ db.catalog.products,
        p.id = i.productId ∧ p.tenantId = i.tenantId) &&
      decide (∀ t ∈ db.sales.transactions, ∃ o ∈ db.accounts.outlets,
        o.id = t.outletId ∧ o.tenantId = t.tenantId) &&
      decide (∀ o ∈ db.accounts.outlets, toLowerCase o.id = o.id ∧ o.id ≠ "") &&
      decide (∀ t ∈ db.sales.transactions, 0 ≤ t.tax) &&
      decide (∀ i ∈ db.sales.transactionItems, 0 ≤ i.unitCost))
    (by decide +kernel)
  simp only [Bool.and_eq_true, decide_eq_true_eq] at hp
  obtain ⟨⟨⟨⟨⟨⟨⟨hgross, htop⟩, hsubtotal⟩, hproduct⟩, houtlet⟩, houtletId⟩, htax⟩, hunitCost⟩ := hp
  cases hr : salesSummary Shop.ownerToken Shop.firstDay σ.db (Shop.envs 2) with
  | error e =>
      rw [hr] at hgross
      cases hgross
  | ok r =>
      rw [hr] at hgross
      have hadds := reports_add_up Shop.wf Shop.salesOk Shop.books hrun.reach
        ⟨hproduct, houtlet, houtletId, htax, hsubtotal, hunitCost⟩ hr
      cases hps : topProducts Shop.ownerToken Shop.topOfFirstDay σ.db (Shop.envs 2) with
      | error e =>
          rw [hps] at htop
          cases htop
      | ok ps =>
          rw [hps] at htop
          exact ⟨σ, r, ps, hrun.reach, hr, Option.some.inj hgross, hps, Option.some.inj htop, hadds⟩

end Kasir
