/-
  Kasir.Stock.Proof

  What a stock adjustment does, whatever commits between its statements.
-/

import Kasir.Transactions.Proof
import Kasir.Stock.Service

namespace Kasir.Stock

open Txn Transactions

-- ============================================================================
-- The rows of an adjustment
-- ============================================================================

/-- The row that `ensureRow` inserts, if it inserts one. -/
def newRows (scope : Scope) (isNew : Bool) : List ProductStock :=
  if isNew then [{ outletId := scope.outletId, productId := scope.productId, stock := 0 }] else []

/-- The stock rows after an adjustment. -/
def adjustRows (scope : Scope) (isNew : Bool) (change : Int) (rows : List ProductStock) :
    List ProductStock :=
  (rows ++ newRows scope isNew).map fun s =>
    if s.outletId = scope.outletId ∧ s.productId = scope.productId then
      { s with stock := s.stock + change } else s

/-- The stock tables after an adjustment. -/
def adjusted (scope : Scope) (isNew : Bool) (change : Int) (a : StockAdjustment)
    (m : StockMovement) (s : Stocks) : Stocks where
  productStocks := adjustRows scope isNew change s.productStocks
  stockMovements := s.stockMovements ++ [m]
  stockAdjustments := s.stockAdjustments ++ [a]

/-- The change of an adjustment. -/
def adjust (scope : Scope) (isNew : Bool) (change : Int) (a : StockAdjustment)
    (m : StockMovement) (db : Db) : Db :=
  { db with stocks := adjusted scope isNew change a m db.stocks }

/-- Rows of another outlet or product stay as they are. -/
theorem rowsOf_adjusted_other {scope : Scope} {isNew : Bool} {change : Int} {a : StockAdjustment}
    {m : StockMovement} {s : Stocks} {o p : Id}
    (h : ¬ (o = scope.outletId ∧ p = scope.productId)) :
    (adjusted scope isNew change a m s).rowsOf o p = s.rowsOf o p := by
  have hkey : ∀ r : ProductStock, ((fun s : ProductStock => s.outletId == o && s.productId == p) ∘
      fun s => if s.outletId = scope.outletId ∧ s.productId = scope.productId then
        { s with stock := s.stock + change } else s) r = (r.outletId == o && r.productId == p) := by
    intro r
    simp only [Function.comp_apply]
    split <;> rfl
  unfold Stocks.rowsOf adjusted adjustRows
  simp only [List.filter_map]
  rw [List.filter_congr fun r _ => hkey r]
  have hnew : (newRows scope isNew).filter (fun r => r.outletId == o && r.productId == p) = [] := by
    refine List.filter_eq_nil_iff.mpr fun r hr => ?_
    cases isNew with
    | false => cases hr
    | true =>
        rw [List.mem_singleton.mp hr]
        simp only [Bool.and_eq_true, beq_iff_eq]
        exact fun heq => h ⟨heq.1.symm, heq.2.symm⟩
  rw [List.filter_append, hnew, List.append_nil]
  conv_rhs => rw [← List.map_id (s.productStocks.filter _)]
  refine List.map_congr_left fun r hr => ?_
  have hr' := (List.mem_filter.mp hr).2
  simp only [Bool.and_eq_true, beq_iff_eq] at hr'
  rw [hr'.1, hr'.2, if_neg h, id_eq]

/-- The rows of the adjusted outlet and product. -/
theorem rowsOf_adjusted_own {scope : Scope} {isNew : Bool} {change : Int} {a : StockAdjustment}
    {m : StockMovement} {s : Stocks} :
    (adjusted scope isNew change a m s).rowsOf scope.outletId scope.productId =
      (s.rowsOf scope.outletId scope.productId ++ newRows scope isNew).map fun r =>
        { r with stock := r.stock + change } := by
  have hkey : ∀ r : ProductStock, ((fun s : ProductStock => s.outletId == scope.outletId &&
      s.productId == scope.productId) ∘
      fun s => if s.outletId = scope.outletId ∧ s.productId = scope.productId then
        { s with stock := s.stock + change } else s) r =
      (r.outletId == scope.outletId && r.productId == scope.productId) := by
    intro r
    simp only [Function.comp_apply]
    split <;> rfl
  unfold Stocks.rowsOf adjusted adjustRows
  simp only [List.filter_map]
  rw [List.filter_congr fun r _ => hkey r]
  have hnew : (newRows scope isNew).filter (fun r => r.outletId == scope.outletId &&
      r.productId == scope.productId) = newRows scope isNew := by
    refine List.filter_eq_self.mpr fun r hr => ?_
    cases isNew with
    | false => cases hr
    | true => rw [List.mem_singleton.mp hr]; simp
  rw [List.filter_append, hnew]
  refine List.map_congr_left fun r hr => ?_
  have hr' : r.outletId = scope.outletId ∧ r.productId = scope.productId := by
    rw [← hnew, ← List.filter_append] at hr
    simpa using (List.mem_filter.mp hr).2
  rw [if_pos hr']

-- ============================================================================
-- The body
-- ============================================================================

/-- A transaction that has changed the stock: the row is locked and is there, or
    is its own. -/
structure Adjusting (scope : Scope) (dto : CreateStockAdjustmentDto) (isNew : Bool)
    (held : List Token) (db : Db) : Prop where
  lock : .stock scope.outletId scope.productId ∈ held
  existing : isNew = false → ∃ r ∈ db.stocks.rowsOf scope.outletId scope.productId,
    dto.adjustmentType = .deduct → dto.quantity ≤ r.stock
  new : isNew = true →
    db.stocks.rowsOf scope.outletId scope.productId = [] ∧ dto.adjustmentType = .add

section Rules

variable {R : Token → Prop} {iso : Isolation} {user : JwtPayload} {st : St Db Token} {db : Db}

theorem Adjusting.later {scope : Scope} {dto : CreateStockAdjustmentDto} {isNew : Bool}
    {w : Db → Db} {st st' : St Db Token} {db db' : Db} (h : Adjusting scope dto isNew st.held db)
    (hran : Ran R w st db st' db') : Adjusting scope dto isNew st'.held db' := by
  have hrows : db'.stocks.rowsOf scope.outletId scope.productId =
      db.stocks.rowsOf scope.outletId scope.productId := hran.same h.lock
  exact ⟨hran.held h.lock, hrows ▸ h.existing, hrows ▸ h.new⟩

theorem wp_checkScope {scope : Scope} {Q : Unit → St Db Token → Db → Prop}
    (h : ∀ st' db', Ran R id st db st' db' → Q () st' db') :
    wp (protocol R) iso (checkScope user scope) Q st db := by
  unfold checkScope
  rw [wp_bind]
  refine wp_query fun st1 db1 _ hran1 _ => ?_
  rw [wp_bind]
  refine wp_guard fun _ => ?_
  rw [wp_bind]
  refine wp_query fun st2 db2 _ hran2 _ => ?_
  rw [wp_bind]
  refine wp_require fun product _ => ?_
  rw [wp_bind]
  refine wp_guard fun _ => ?_
  rw [wp_bind]
  refine wp_query fun st3 db3 _ hran3 _ => wp_guard fun _ => ?_
  exact h st3 db3 ((hran1.trans hran2).trans hran3)

/-- The row is there, or is inserted and locked. -/
theorem wp_ensureRow {scope : Scope} {Q : Unit → St Db Token → Db → Prop}
    (hlog : ∀ d, st.log d = d)
    (h : ∀ isNew st' db', Ran R (Db.addProductStocks (newRows scope isNew)) st db st' db' →
      (isNew = true → .stock scope.outletId scope.productId ∈ st'.held ∧
        db'.stocks.rowsOf scope.outletId scope.productId = []) → Q () st' db') :
    wp (protocol R) iso (ensureRow scope) Q st db := by
  unfold ensureRow
  refine wp_stmt fun st1 db1 s _ hran _ hlocks => ?_
  simp only [hlog] at hran hlocks
  split at hran
  · refine h false st1 db1 ?_ fun hnew => by cases hnew
    have heq : Db.addProductStocks (newRows scope false) = id := by
      funext d
      simp [Db.addProductStocks, newRows]
    exact heq ▸ hran
  · rename_i hnone
    rw [if_neg hnone] at hlocks
    refine h true st1 db1 hran fun _ => ⟨hlocks (List.mem_singleton.mpr rfl), ?_⟩
    refine List.filter_eq_nil_iff.mpr fun r hr heq => hnone ?_
    exact List.any_eq_true.mpr ⟨r, hr, heq⟩

theorem wp_ensureRowFor {scope : Scope} {dto : CreateStockAdjustmentDto}
    {Q : Unit → St Db Token → Db → Prop} (hdb : Wf db) (hlog : ∀ d, st.log d = d)
    (h : ∀ isNew st' db', Ran R (Db.addProductStocks (newRows scope isNew)) st db st' db' →
      (isNew = true → .stock scope.outletId scope.productId ∈ st'.held ∧
        db'.stocks.rowsOf scope.outletId scope.productId = [] ∧ dto.adjustmentType = .add) →
      Q () st' db') :
    wp (protocol R) iso (ensureRowFor scope dto.adjustmentType) Q st db := by
  unfold ensureRowFor
  cases htype : dto.adjustmentType with
  | add =>
      refine wp_ensureRow hlog fun isNew st' db' hran hnew => h isNew st' db' hran fun hn => ?_
      exact ⟨(hnew hn).1, (hnew hn).2, htype⟩
  | deduct =>
      refine h false st db ?_ fun hn => by cases hn
      have heq : Db.addProductStocks (newRows scope false) = id := by
        funext d
        simp [Db.addProductStocks, newRows]
      exact heq ▸ Ran.refl hdb

/-- The change of the one row. -/
def addStock (scope : Scope) (change : Int) : Db → Db :=
  Db.modifyProductStocks fun s =>
    if s.outletId = scope.outletId ∧ s.productId = scope.productId then
      { s with stock := s.stock + change } else s

theorem wp_changeStock {scope : Scope} {dto : CreateStockAdjustmentDto} (isNew : Bool)
    {Q : Unit → St Db Token → Db → Prop}
    (hlog : ∀ d, (st.log d).stocks.productStocks = d.stocks.productStocks ++ newRows scope isNew)
    (hnew : isNew = true → .stock scope.outletId scope.productId ∈ st.held ∧
      db.stocks.rowsOf scope.outletId scope.productId = [] ∧ dto.adjustmentType = .add)
    (h : ∀ st' db', Ran R (addStock scope (delta dto)) st db st' db' →
      Adjusting scope dto isNew st'.held db' → Q () st' db') :
    wp (protocol R) iso (changeStock scope dto) Q st db := by
  unfold changeStock
  rw [wp_bind]
  refine wp_guard fun _ => wp_updateOne fun st1 db1 s _ r hran _ hlock _ _ hp hmem _ => ?_
  simp only [Scope.contains, Bool.and_eq_true, beq_iff_eq] at hp
  obtain ⟨⟨⟨⟨ho, hpid⟩, -⟩, -⟩, hle⟩ := hp
  have hchange : productStocks.change [productStocks.lock r]
      (fun s => { s with stock := s.stock + delta dto }) = addStock scope (delta dto) := by
    funext d
    simp [Table.change, productStocks, addStock, ho, hpid]
  rw [hchange] at hran
  have hlock' : .stock scope.outletId scope.productId ∈ st1.held := by
    rw [← ho, ← hpid]
    exact hlock
  refine h st1 db1 hran ⟨hlock', fun hn => ?_, fun hn => ?_⟩
  · change r ∈ (st.log db1).stocks.productStocks at hmem
    rw [hlog, hn] at hmem
    simp only [newRows, Bool.false_eq_true, if_false, List.append_nil] at hmem
    refine ⟨r, List.mem_filter.mpr ⟨hmem, by simp [ho, hpid]⟩, fun hd => ?_⟩
    simpa [hd] using hle
  · obtain ⟨hheld, hnil, hadd⟩ := hnew hn
    have hsame : db1.stocks.rowsOf scope.outletId scope.productId =
        db.stocks.rowsOf scope.outletId scope.productId := hran.same hheld
    exact ⟨hsame.trans hnil, hadd⟩

theorem wp_adjustmentBody {dto : CreateStockAdjustmentDto}
    {Q : ProductStock → St Db Token → Db → Prop} (hlog : ∀ d, st.log d = d)
    (h : ∀ isNew env env' row st' db',
      Ran R (adjust (scopeOf user dto) isNew (delta dto)
        (adjustmentRow user (scopeOf user dto) dto env)
        (movementRow user (scopeOf user dto) dto
          (adjustmentRow user (scopeOf user dto) dto env).id env')) st db st' db' →
      Adjusting (scopeOf user dto) dto isNew st'.held db' → Q row st' db') :
    wp (protocol R) iso (adjustmentBody user dto) Q st db := by
  unfold adjustmentBody
  simp only
  rw [wp_bind]
  refine wp_checkScope fun st1 db1 hran1 => ?_
  have hlog1 : ∀ d, st1.log d = d := fun d => by rw [hran1.log, hlog]; rfl
  rw [wp_bind]
  refine wp_ensureRowFor hran1.wf hlog1 fun isNew st2 db2 hran2 hnew => ?_
  rw [wp_bind]
  refine wp_changeStock isNew (fun d => ?_) hnew fun st3 db3 hran3 hadj => ?_
  · rw [hran2.log, hlog1]
    rfl
  rw [wp_bind]
  refine wp_guard fun _ => ?_
  rw [wp_bind]
  refine wp_insert fun st4 db4 env hran4 => ?_
  rw [wp_bind]
  refine wp_insert fun st5 db5 env' hran5 => ?_
  rw [wp_bind]
  refine wp_query fun st6 db6 _ hran6 _ => wp_require fun row _ => ?_
  have hran36 := (hran4.trans hran5).trans hran6
  exact h isNew env env' row st6 db6 (((hran1.trans hran2).trans hran3).trans hran36)
    (hadj.later hran36)

end Rules

end Kasir.Stock
