/-
  Kasir.Reports.TopProducts

  The top products against the summary.

  The join from items to their sales and products loses no item and repeats none, so its
  sums are those over the items of the sales.  Net sales are shared out among the items
  of a sale, and the shares of a product are rounded once.
-/

import Kasir.Reports.Proof
import Mathlib.Algebra.BigOperators.Ring.Finset
import Mathlib.Algebra.BigOperators.Ring.List

namespace Kasir.Reports

open Txn Js Transactions

-- ============================================================================
-- Rounding
-- ============================================================================

/-- However ties are broken, `ROUND` stays within half a unit. -/
theorem nearest_roundNumeric : Rounding.Nearest roundNumeric := by
  intro x
  unfold roundNumeric
  split
  · have hle := Int.floor_le (x + 1 / 2)
    have hlt := Int.lt_floor_add_one (x + 1 / 2)
    rw [abs_le]
    constructor <;> linarith
  · have hle := Int.floor_le (-x + 1 / 2)
    have hlt := Int.lt_floor_add_one (-x + 1 / 2)
    rw [Int.cast_neg, abs_le]
    constructor <;> linarith

-- ============================================================================
-- The join
-- ============================================================================

/-- The items sold in a scope and range. -/
def itemsSold (scope : ReportScope) (range : ReportDateRange) (db : Db) : List TransactionItem :=
  (db.sales.transactions.filter (selected scope range)).flatMap (itemsOf db.sales)

theorem selected_tenant {scope : ReportScope} {range : ReportDateRange} {t : Transaction}
    (h : selected scope range t = true) : t.tenantId = scope.tenantId := by
  simp only [selected, ReportScope.covers, Bool.and_eq_true, beq_iff_eq] at h
  exact h.1.1.1

section Join

variable {scope : ReportScope} {range : ReportDateRange} {db : Db}

/-- A row of the join is an item, its sale, which is selected, and its product. -/
theorem mem_soldItems {r : SoldItem} : r ∈ soldItems scope range db ↔
    (r.1.1 ∈ db.sales.transactionItems ∧ r.1.2 ∈ db.sales.transactions ∧
      r.2 ∈ db.catalog.products) ∧
    itemOf r.1.2 r.1.1 = true ∧ (r.2.id = r.1.1.productId ∧ r.2.tenantId = r.1.1.tenantId) ∧
    selected scope range r.1.2 = true := by
  unfold soldItems
  rw [List.mem_filter, Sql.mem_join, Sql.mem_join]
  simp only [itemOf, Bool.and_eq_true, beq_iff_eq]
  constructor
  · rintro ⟨⟨⟨hitem, hsale, hid, htenant⟩, hproduct, hpid, hptenant⟩, ⟨-, -⟩, hselected⟩
    exact ⟨⟨hitem, hsale, hproduct⟩, ⟨hid.symm, htenant.symm⟩, ⟨hpid, hptenant⟩, hselected⟩
  · rintro ⟨⟨hitem, hsale, hproduct⟩, ⟨hid, htenant⟩, ⟨hpid, hptenant⟩, hselected⟩
    have hscope := selected_tenant hselected
    refine ⟨⟨⟨hitem, hsale, hid.symm, htenant.symm⟩, hproduct, hpid, hptenant⟩, ⟨?_, ?_⟩, hselected⟩
    · rw [htenant, hscope]
    · rw [hptenant, htenant, hscope]

variable (hwf : Wf db) (hconstrained : Constrained db)
include hwf hconstrained

/-- **The join loses no item and repeats none.** -/
theorem sum_soldItems {M : Type} [AddCommMonoid M] (f : TransactionItem × Transaction → M) :
    ((soldItems scope range db).map fun r => f r.1).sum =
      ((db.sales.transactions.filter (selected scope range)).map fun t =>
        ((itemsOf db.sales t).map fun i => f (i, t)).sum).sum := by
  -- on joined rows the filter looks at the item and the sale only
  have hfilter : ((soldItems scope range db).map fun r => f r.1).sum =
      ((Sql.join (fun (r : TransactionItem × Transaction) (p : Product) =>
          p.id == r.1.productId && p.tenantId == r.1.tenantId)
        (Sql.join (fun (i : TransactionItem) (t : Transaction) =>
          t.id == i.transactionId && t.tenantId == i.tenantId)
          db.sales.transactionItems db.sales.transactions)
        db.catalog.products).map fun r =>
          if selected scope range r.1.2 then f r.1 else 0).sum := by
    unfold soldItems
    rw [Sql.sum_filter]
    congr 1
    apply List.map_congr_left
    intro r hr
    rw [Sql.mem_join, Sql.mem_join] at hr
    simp only [Bool.and_eq_true, beq_iff_eq] at hr
    obtain ⟨⟨-, -, -, htenant⟩, -, -, hptenant⟩ := hr
    by_cases hselected : selected scope range r.1.2 = true
    · have hscope := selected_tenant hselected
      rw [if_pos hselected, if_pos]
      simp only [Bool.and_eq_true, beq_iff_eq]
      refine ⟨⟨?_, ?_⟩, hselected⟩
      · rw [← htenant, hscope]
      · rw [hptenant, ← htenant, hscope]
    · rw [if_neg hselected, if_neg]
      simp only [Bool.and_eq_true]
      exact fun h => hselected h.2
  have hunique : ∀ r ∈ Sql.join (fun (i : TransactionItem) (t : Transaction) =>
      t.id == i.transactionId && t.tenantId == i.tenantId)
      db.sales.transactionItems db.sales.transactions, ∃ p, db.catalog.products.filter (fun p =>
        p.id == r.1.productId && p.tenantId == r.1.tenantId) = [p] := by
    intro r hr
    obtain ⟨hitem, -, -⟩ := Sql.mem_join.mp hr
    obtain ⟨p, hp, hid, htenant⟩ := hconstrained.product r.1 hitem
    refine ⟨p, filter_eq_singleton (legal_products hwf.legal) hp ?_ ?_⟩
    · rw [hid, htenant]
      simp
    · intro q _ hq
      rw [Bool.and_eq_true, beq_iff_eq] at hq
      rw [hq.1, hid]
  rw [hfilter, Sql.sum_join_of_unique hunique fun r : TransactionItem × Transaction =>
      if selected scope range r.2 then f r else 0, Sql.sum_join_right, Sql.sum_filter]
  congr 1
  apply List.map_congr_left
  intro t _
  have hitems : db.sales.transactionItems.filter (fun i =>
      t.id == i.transactionId && t.tenantId == i.tenantId) = itemsOf db.sales t := by
    unfold itemsOf
    apply List.filter_congr
    intro i _
    rw [itemOf, BEq.comm, BEq.comm (a := t.tenantId)]
  rw [hitems]
  by_cases hselected : selected scope range t = true
  · simp only [if_pos hselected]
  · simp only [if_neg hselected]
    exact List.sum_eq_zero fun x hx => by
      obtain ⟨i, -, rfl⟩ := List.mem_map.mp hx
      rfl

/-- The sums of a function of the items alone. -/
theorem sum_soldItems_items {M : Type} [AddCommMonoid M] (f : TransactionItem → M) :
    ((soldItems scope range db).map fun r => f r.1.1).sum =
      ((itemsSold scope range db).map f).sum := by
  rw [sum_soldItems hwf hconstrained fun r => f r.1]
  unfold itemsSold
  generalize db.sales.transactions.filter (selected scope range) = sales
  induction sales with
  | nil => rfl
  | cons t sales ih =>
      rw [List.map_cons, List.sum_cons, ih, List.flatMap_cons, List.map_append, List.sum_append]

omit hwf in
/-- The products of the join are those of the items. -/
theorem mem_products_soldItems {id : Id} :
    id ∈ (soldItems scope range db).map (fun r => r.1.1.productId) ↔
      id ∈ (itemsSold scope range db).map TransactionItem.productId := by
  unfold itemsSold
  simp only [List.mem_map, List.mem_flatMap, List.mem_filter, itemsOf]
  constructor
  · rintro ⟨r, hr, rfl⟩
    obtain ⟨⟨hitem, hsale, -⟩, hof, -, hselected⟩ := mem_soldItems.mp hr
    exact ⟨r.1.1, ⟨r.1.2, ⟨hsale, hselected⟩, hitem, hof⟩, rfl⟩
  · rintro ⟨i, ⟨t, ⟨hsale, hselected⟩, hitem, hof⟩, rfl⟩
    obtain ⟨p, hp, hid, htenant⟩ := hconstrained.product i hitem
    exact ⟨((i, t), p), mem_soldItems.mpr ⟨⟨hitem, hsale, hp⟩, hof, ⟨hid, htenant⟩, hselected⟩, rfl⟩

end Join

-- ============================================================================
-- The groups
-- ============================================================================

/-- The products sold in a scope and range, each once. -/
def productsSold (scope : ReportScope) (range : ReportDateRange) (db : Db) : List Id :=
  ((itemsSold scope range db).map TransactionItem.productId).dedup

/-- The quantity of a product over the items sold. -/
def quantityOf (scope : ReportScope) (range : ReportDateRange) (db : Db) (productId : Id) : Int :=
  (((itemsSold scope range db).filter fun i => i.productId = productId).map
    TransactionItem.quantity).sum

/-- The rows of all groups, before they are ordered and cut. -/
def allRows (scope : ReportScope) (range : ReportDateRange) (db : Db) : List TopProductRow :=
  (Sql.groupBy productKey (soldItems scope range db)).map topProductRow

theorem products_allRows (scope : ReportScope) (range : ReportDateRange) (db : Db) :
    (allRows scope range db).map TopProductRow.productId =
      ((soldItems scope range db).map productKey).dedup.map Prod.fst := by
  unfold allRows
  rw [← Sql.keys_groupBy, List.map_map, List.map_map]
  rfl

section Groups

variable {scope : ReportScope} {range : ReportDateRange} {db : Db} (hwf : Wf db)
  (hconstrained : Constrained db)
include hwf

/-- A product has one name and one SKU, so it has one key. -/
theorem productKey_eq {r r' : SoldItem} (hr : r ∈ soldItems scope range db)
    (hr' : r' ∈ soldItems scope range db) (h : r.1.1.productId = r'.1.1.productId) :
    productKey r = productKey r' := by
  obtain ⟨⟨-, -, hproduct⟩, -, ⟨hid, -⟩, -⟩ := mem_soldItems.mp hr
  obtain ⟨⟨-, -, hproduct'⟩, -, ⟨hid', -⟩, -⟩ := mem_soldItems.mp hr'
  have hsame : r.2 = r'.2 := by
    apply eq_of_key (legal_products hwf.legal) hproduct hproduct'
    rw [hid, hid']
    exact h
  unfold productKey
  rw [hsame, h]

/-- So it is in one group. -/
theorem nodup_allRows : ((allRows scope range db).map TopProductRow.productId).Nodup := by
  rw [products_allRows]
  apply List.Nodup.map_on _ (List.nodup_dedup _)
  intro x hx y hy hxy
  obtain ⟨r, hr, rfl⟩ := List.mem_map.mp (List.mem_dedup.mp hx)
  obtain ⟨r', hr', rfl⟩ := List.mem_map.mp (List.mem_dedup.mp hy)
  exact productKey_eq hwf hr hr' hxy

include hconstrained

/-- **Each product sold is in one group.** -/
theorem allRows_perm :
    ((allRows scope range db).map TopProductRow.productId).Perm (productsSold scope range db) := by
  apply (List.perm_ext_iff_of_nodup (nodup_allRows hwf) (List.nodup_dedup _)).mpr
  intro id
  show _ ↔ id ∈ ((itemsSold scope range db).map TransactionItem.productId).dedup
  rw [List.mem_dedup, ← mem_products_soldItems hconstrained]
  rw [products_allRows]
  constructor
  · intro h
    obtain ⟨k, hk, rfl⟩ := List.mem_map.mp h
    obtain ⟨r, hr, rfl⟩ := List.mem_map.mp (List.mem_dedup.mp hk)
    exact List.mem_map.mpr ⟨r, hr, rfl⟩
  · intro h
    obtain ⟨r, hr, rfl⟩ := List.mem_map.mp h
    exact List.mem_map.mpr ⟨productKey r, List.mem_dedup.mpr (List.mem_map_of_mem hr), rfl⟩

/-- A limit that is not smaller than the number of products cuts nothing off. -/
theorem topProductRows_perm {limit : Nat} (hlimit : (productsSold scope range db).length ≤ limit) :
    (topProductRows scope range limit db).Perm (allRows scope range db) := by
  have hlength : (allRows scope range db).length ≤ limit := by
    have hperm := (@allRows_perm scope range db hwf hconstrained).length_eq
    rw [List.length_map] at hperm
    omega
  unfold topProductRows
  rw [List.take_of_length_le]
  · exact List.perm_insertionSort _ _
  · rw [List.length_insertionSort]
    exact hlength

omit hwf hconstrained in
/-- Sums over the rows are sums over the join. -/
theorem sum_allRows {M : Type} [AddCommMonoid M] (f : SoldItem → M) (g : TopProductRow → M)
    (hg : ∀ k rs, g (topProductRow (k, rs)) = (rs.map f).sum) :
    ((allRows scope range db).map g).sum = ((soldItems scope range db).map f).sum := by
  unfold allRows
  rw [List.map_map, ← Sql.sum_groupBy productKey (soldItems scope range db) f]
  congr 1
  apply List.map_congr_left
  exact fun x _ => hg x.1 x.2

theorem sum_quantitySold : ((allRows scope range db).map TopProductRow.quantitySold).sum =
    ((itemsSold scope range db).map TransactionItem.quantity).sum := by
  rw [sum_allRows (fun r => r.1.1.quantity) _ fun _ _ => rfl]
  exact sum_soldItems_items hwf hconstrained _

/-- The quantity of a row is that of its product. -/
theorem quantitySold_of_mem {row : TopProductRow} (h : row ∈ allRows scope range db) :
    row.quantitySold = quantityOf scope range db row.productId := by
  obtain ⟨g, hg, rfl⟩ := List.mem_map.mp h
  obtain ⟨k, hk, rfl⟩ := List.mem_map.mp hg
  obtain ⟨r, hr, rfl⟩ := List.mem_map.mp (List.mem_dedup.mp hk)
  have hrows : (soldItems scope range db).filter (fun r' => productKey r' = productKey r) =
      (soldItems scope range db).filter fun r' => r'.1.1.productId = r.1.1.productId := by
    apply List.filter_congr
    intro r' hr'
    rw [decide_eq_decide]
    exact ⟨fun hkey => congrArg Prod.fst hkey, productKey_eq hwf hr' hr⟩
  have hitems := @sum_soldItems_items scope range db hwf hconstrained Int _ fun i =>
    if i.productId = r.1.1.productId then i.quantity else 0
  show (((soldItems scope range db).filter fun r' => productKey r' = productKey r).map
    fun r' => r'.1.1.quantity).sum = quantityOf scope range db r.1.1.productId
  unfold quantityOf
  rw [hrows, Sql.sum_filter, Sql.sum_filter]
  simpa only [decide_eq_true_eq] using hitems

variable (hbooks : BooksOk db)
include hbooks

/-- The gross sales of all products are those of the summary. -/
theorem sum_grossSales : ((allRows scope range db).map TopProductRow.grossSales).sum =
    (readSummary scope range db).grossSales := by
  rw [sum_allRows (fun r => r.1.1.subtotal) _ fun _ _ => rfl,
    sum_soldItems hwf hconstrained fun r => r.1.subtotal]
  show _ = ((db.sales.transactions.filter (selected scope range)).map Transaction.subtotal).sum
  congr 1
  apply List.map_congr_left
  intro t ht
  exact (hbooks t (List.mem_of_mem_filter ht)).subtotal.symm

omit hbooks in
/-- The costs of all products are those of the summary. -/
theorem sum_cogs : ((allRows scope range db).map TopProductRow.cogs).sum =
    (readSummary scope range db).cogs := by
  rw [sum_allRows (fun r => r.1.1.quantity * r.1.1.unitCost) _ fun _ _ => rfl,
    sum_soldItems hwf hconstrained fun r => r.1.quantity * r.1.unitCost]
  show _ = ((db.sales.transactions.filter (selected scope range)).map
    (itemCost scope db.sales.transactionItems)).sum
  congr 1
  apply List.map_congr_left
  intro t ht
  have hscope := selected_tenant (List.mem_filter.mp ht).2
  unfold itemCost itemsOf
  congr 2
  apply List.filter_congr
  intro i _
  rw [Bool.eq_iff_iff]
  simp only [itemOf, Bool.and_eq_true, beq_iff_eq, ← hscope]
  tauto

/-- The shares of the items of a sale are its net sales. -/
theorem sum_netShare : ((soldItems scope range db).map netShare).sum =
    ((readSummary scope range db).netSales : ℚ) := by
  have hjoin : ((soldItems scope range db).map netShare).sum = _ :=
    sum_soldItems hwf hconstrained fun r => if 0 < r.2.subtotal then
      (r.1.subtotal : ℚ) * ((r.2.subtotal - r.2.discount : Int) : ℚ) / (r.2.subtotal : ℚ) else 0
  rw [hjoin]
  have hsale : ∀ t ∈ db.sales.transactions.filter (selected scope range),
      ((itemsOf db.sales t).map fun i => if 0 < t.subtotal then
        (i.subtotal : ℚ) * ((t.subtotal - t.discount : Int) : ℚ) / (t.subtotal : ℚ) else 0).sum =
      ((t.subtotal - t.discount : Int) : ℚ) := by
    intro t ht
    have hbooked := hbooks t (List.mem_of_mem_filter ht)
    have hpositive := hbooked.positive.1
    have hsum : ((itemsOf db.sales t).map fun i => (i.subtotal : ℚ)).sum = (t.subtotal : ℚ) := by
      rw [hbooked.subtotal, Int.cast_list_sum, List.map_map]
      rfl
    have hne : (t.subtotal : ℚ) ≠ 0 := by
      exact_mod_cast ne_of_gt hpositive
    simp only [if_pos hpositive]
    have hfactor : ((itemsOf db.sales t).map fun i =>
        (i.subtotal : ℚ) * ((t.subtotal - t.discount : Int) : ℚ) / (t.subtotal : ℚ)) =
        (itemsOf db.sales t).map fun i => (i.subtotal : ℚ) *
          (((t.subtotal - t.discount : Int) : ℚ) / (t.subtotal : ℚ)) := by
      apply List.map_congr_left
      exact fun i _ => mul_div_assoc _ _ _
    rw [hfactor, List.sum_map_mul_right, hsum]
    exact mul_div_cancel₀ _ hne
  rw [List.map_congr_left hsale]
  show _ = ((((db.sales.transactions.filter (selected scope range)).map
    fun t => t.subtotal - t.discount).sum : Int) : ℚ)
  rw [Int.cast_list_sum, List.map_map]
  rfl

/-- The rounded shares are within half a unit each of the net sales. -/
theorem abs_netSales_sub_le :
    |((readSummary scope range db).netSales : ℚ) -
      (((allRows scope range db).map TopProductRow.netSales).sum : Int)| ≤
      ((allRows scope range db).length : ℚ) / 2 := by
  have hexact : (((Sql.groupBy productKey (soldItems scope range db)).map
      fun g => (g.2.map netShare).sum)).sum = ((readSummary scope range db).netSales : ℚ) := by
    rw [Sql.sum_groupBy, sum_netShare hwf hconstrained hbooks]
  have hrounded : (allRows scope range db).map TopProductRow.netSales =
      ((Sql.groupBy productKey (soldItems scope range db)).map
        fun g => (g.2.map netShare).sum).map roundNumeric := by
    unfold allRows
    rw [List.map_map, List.map_map]
    rfl
  have hbound := nearest_roundNumeric.abs_sum_sub_le
    ((Sql.groupBy productKey (soldItems scope range db)).map fun g => (g.2.map netShare).sum)
  rw [hexact, ← hrounded, List.length_map] at hbound
  rw [allRows, List.length_map]
  exact hbound

omit hwf hconstrained hbooks in
theorem sum_sub (rows : List TopProductRow) :
    (rows.map fun row => row.netSales - row.cogs).sum =
      (rows.map TopProductRow.netSales).sum - (rows.map TopProductRow.cogs).sum := by
  induction rows with
  | nil => rfl
  | cons row rows ih =>
      rw [List.map_cons, List.sum_cons, ih, List.map_cons, List.sum_cons, List.map_cons, List.sum_cons]
      omega

/-- The profits of all products are within half a unit each of that of the summary. -/
theorem abs_grossProfit_sub_le :
    |((((allRows scope range db).map fun row => row.netSales - row.cogs).sum : Int) : ℚ) -
      (readSummary scope range db).grossProfit| ≤ ((allRows scope range db).length : ℚ) / 2 := by
  have hnet := @abs_netSales_sub_le scope range db hwf hconstrained hbooks
  have hcogs := @sum_cogs scope range db hwf hconstrained
  have hprofit : (readSummary scope range db).grossProfit =
      (readSummary scope range db).netSales - (readSummary scope range db).cogs := rfl
  rw [sum_sub, hcogs, hprofit, abs_sub_comm]
  rw [Int.cast_sub, Int.cast_sub]
  have hsame : ((readSummary scope range db).netSales : ℚ) - (readSummary scope range db).cogs -
      ((((allRows scope range db).map TopProductRow.netSales).sum : Int) -
        (readSummary scope range db).cogs) =
      ((readSummary scope range db).netSales : ℚ) -
        (((allRows scope range db).map TopProductRow.netSales).sum : Int) := by ring
  rw [hsame]
  exact hnet

-- ============================================================================
-- Amounts of a product
-- ============================================================================

omit hwf hconstrained hbooks in
/-- An amount of a group is at most the sum over all rows. -/
theorem sum_group_bounds {M : Type} [AddCommMonoid M] [PartialOrder M] [IsOrderedAddMonoid M]
    {f : SoldItem → M} (hf : ∀ r ∈ soldItems scope range db, 0 ≤ f r)
    {g : (Id × String × String) × List SoldItem}
    (hg : g ∈ Sql.groupBy productKey (soldItems scope range db)) :
    0 ≤ (g.2.map f).sum ∧ (g.2.map f).sum ≤ ((soldItems scope range db).map f).sum := by
  have hnonneg : ∀ n ∈ (Sql.groupBy productKey (soldItems scope range db)).map
      (fun g => (g.2.map f).sum), 0 ≤ n := by
    intro n hn
    obtain ⟨g', hg', rfl⟩ := List.mem_map.mp hn
    apply List.sum_nonneg
    intro m hm
    obtain ⟨r, hr, rfl⟩ := List.mem_map.mp hm
    exact hf r ((Sql.mem_groupBy hg').2 r hr).1
  rw [← Sql.sum_groupBy productKey (soldItems scope range db) f]
  have hmem := List.mem_map_of_mem (f := fun g => (g.2.map f).sum) hg
  exact ⟨hnonneg _ hmem, List.single_le_sum hnonneg _ hmem⟩

omit hwf in
/-- The amounts of an item that is sold are not negative. -/
theorem soldItem_nonneg {r : SoldItem} (hr : r ∈ soldItems scope range db) :
    0 ≤ r.1.1.subtotal ∧ 0 ≤ r.1.1.quantity ∧ 0 ≤ r.1.1.quantity * r.1.1.unitCost ∧
      0 ≤ netShare r := by
  obtain ⟨⟨hitem, hsale, -⟩, hof, -, -⟩ := mem_soldItems.mp hr
  have hbooked := hbooks r.1.2 hsale
  have hmem : r.1.1 ∈ itemsOf db.sales r.1.2 := List.mem_filter.mpr ⟨hitem, hof⟩
  have hquantity := Int.le_of_lt (hbooked.lines r.1.1 hmem).1
  have hsubtotal := hconstrained.itemSubtotal r.1.1 hitem
  refine ⟨hsubtotal, hquantity,
    Int.mul_nonneg hquantity (hconstrained.unitCost r.1.1 hitem), ?_⟩
  have hnet : 0 ≤ r.1.2.subtotal - r.1.2.discount := Int.sub_nonneg_of_le hbooked.discount.2
  unfold netShare
  split
  · rename_i hpositive
    apply div_nonneg
    · exact mul_nonneg (Int.cast_nonneg hsubtotal) (Int.cast_nonneg hnet)
    · exact Int.cast_nonneg (Int.le_of_lt hpositive)
  · exact le_refl 0

omit hwf hconstrained hbooks in
/-- Rounding does not leave a range of integers. -/
theorem roundNumeric_bounds {x : ℚ} {n : Int} (h0 : 0 ≤ x) (hn : x ≤ n) :
    0 ≤ roundNumeric x ∧ roundNumeric x ≤ n := by
  have hhalf : (0 : ℚ) ≤ 1 / 2 := div_nonneg (zero_le_one) (zero_le_two)
  unfold roundNumeric
  rw [if_pos h0]
  constructor
  · exact Int.floor_nonneg.mpr (add_nonneg h0 hhalf)
  · rw [← Int.lt_add_one_iff, Int.floor_lt]
    push_cast
    linarith

/-- The amounts of a product are parts of the amounts of the summary. -/
theorem row_bounds {row : TopProductRow} (h : row ∈ allRows scope range db) :
    (0 ≤ row.quantitySold) ∧
    (0 ≤ row.grossSales ∧ row.grossSales ≤ (readSummary scope range db).grossSales) ∧
    (0 ≤ row.netSales ∧ row.netSales ≤ (readSummary scope range db).netSales) ∧
    (0 ≤ row.cogs ∧ row.cogs ≤ (readSummary scope range db).cogs) := by
  obtain ⟨g, hg, rfl⟩ := List.mem_map.mp h
  have hitem := fun r hr => @soldItem_nonneg scope range db hconstrained hbooks r hr
  have hquantity := sum_group_bounds (f := fun r : SoldItem => r.1.1.quantity)
    (fun r hr => (hitem r hr).2.1) hg
  have hgross := sum_group_bounds (f := fun r : SoldItem => r.1.1.subtotal)
    (fun r hr => (hitem r hr).1) hg
  have hcogs := sum_group_bounds (f := fun r : SoldItem => r.1.1.quantity * r.1.1.unitCost)
    (fun r hr => (hitem r hr).2.2.1) hg
  have hnet := sum_group_bounds (f := netShare) (fun r hr => (hitem r hr).2.2.2) hg
  rw [← sum_allRows _ TopProductRow.grossSales fun _ _ => rfl,
    sum_grossSales hwf hconstrained hbooks] at hgross
  rw [← sum_allRows _ TopProductRow.cogs fun _ _ => rfl, sum_cogs hwf hconstrained] at hcogs
  rw [sum_netShare hwf hconstrained hbooks] at hnet
  exact ⟨hquantity.1, hgross, roundNumeric_bounds hnet.1 hnet.2, hcogs⟩

end Groups

-- ============================================================================
-- The response
-- ============================================================================

/-- What a row becomes. -/
def TopProductRow.report (row : TopProductRow) : TopProductReport where
  productId := row.productId
  productName := row.productName
  sku := row.sku
  quantitySold := row.quantitySold
  grossSales := row.grossSales
  cogs := row.cogs
  grossProfit := row.netSales - row.cogs

theorem topProductResponse_ok {row : TopProductRow} {p : TopProductReport}
    (h : topProductResponse row = .ok p) : p = row.report := by
  unfold topProductResponse at h
  simp only [Checked.bind_ok, safeInteger_ok] at h
  obtain ⟨_, ⟨-, rfl⟩, _, ⟨-, rfl⟩, _, ⟨-, rfl⟩, _, ⟨-, rfl⟩, h⟩ := h
  exact (Except.ok.inj h).symm

theorem topProductResponse_of_safe {row : TopProductRow} (hquantity : SafeInteger row.quantitySold)
    (hgross : SafeInteger row.grossSales) (hcogs : SafeInteger row.cogs)
    (hprofit : SafeInteger (row.netSales - row.cogs)) :
    topProductResponse row = .ok row.report := by
  unfold topProductResponse
  simp only [Checked.bind_ok, safeInteger_ok]
  exact ⟨_, ⟨hquantity, rfl⟩, _, ⟨hgross, rfl⟩, _, ⟨hcogs, rfl⟩, _, ⟨hprofit, rfl⟩, rfl⟩

theorem safe_of_topProductResponse {row : TopProductRow} {p : TopProductReport}
    (h : topProductResponse row = .ok p) : SafeInteger row.quantitySold := by
  unfold topProductResponse at h
  simp only [Checked.bind_ok, safeInteger_ok] at h
  obtain ⟨_, ⟨hsafe, -⟩, -⟩ := h
  exact hsafe

theorem mapM_topProductResponse_ok {rows : List TopProductRow} {ps : List TopProductReport}
    (h : rows.mapM topProductResponse = .ok ps) : ps = rows.map TopProductRow.report := by
  have hall := Checked.mapM_ok.mp h
  clear h
  induction hall with
  | nil => rfl
  | cons hrow _ ih => rw [List.map_cons, topProductResponse_ok hrow, ih]

/-- **The top products are answered**, where the summary is, unless there are too many of
    one: its quantity is not among the figures of the summary, and what is free does not
    show in them. -/
theorem mapM_topProductResponse_iff {scope : ReportScope} {range : ReportDateRange} {db : Db}
    (hwf : Wf db) (hconstrained : Constrained db) (hbooks : BooksOk db)
    (hsafe : (readSummary scope range db).Safe) {limit : Nat}
    (hlimit : (productsSold scope range db).length ≤ limit) :
    (∃ ps, (topProductRows scope range limit db).mapM topProductResponse = .ok ps) ↔
      ∀ id ∈ productsSold scope range db, quantityOf scope range db id ≤ maxSafeInteger := by
  have hperm := topProductRows_perm hwf hconstrained hlimit
  constructor
  · rintro ⟨ps, hps⟩ id hid
    have hid' := (allRows_perm hwf hconstrained).mem_iff.mpr hid
    obtain ⟨row, hrow, rfl⟩ := List.mem_map.mp hid'
    obtain ⟨p, -, hp⟩ := forall₂_mem_right (Checked.mapM_ok.mp hps).flip row (hperm.mem_iff.mpr hrow)
    rw [← quantitySold_of_mem hwf hconstrained hrow]
    exact (safe_of_topProductResponse hp).2
  · intro hquantities
    refine ⟨(topProductRows scope range limit db).map TopProductRow.report, Checked.mapM_ok.mpr ?_⟩
    rw [List.forall₂_map_right_iff, List.forall₂_same]
    intro row hrow
    have hmem := hperm.mem_iff.mp hrow
    obtain ⟨hquantity, ⟨hgross, hgross'⟩, ⟨hnet, hnet'⟩, hcogs, hcogs'⟩ :=
      row_bounds hwf hconstrained hbooks hmem
    have hid := (allRows_perm hwf hconstrained).mem_iff.mp (List.mem_map_of_mem hmem)
    have hle := hquantities _ hid
    rw [← quantitySold_of_mem hwf hconstrained hmem] at hle
    have hmax : 0 < maxSafeInteger := by decide
    have hgrossMax := hsafe.grossSales.2
    have hnetMax := hsafe.netSales.2
    have hcogsMax := hsafe.cogs.2
    apply topProductResponse_of_safe <;> constructor <;> omega

end Kasir.Reports
