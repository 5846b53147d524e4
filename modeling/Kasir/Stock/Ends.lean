/-
  Kasir.Stock.Ends

  How a stock adjustment ends that runs alone.

  Once outlet, product and user are there, only four things can go wrong: the quantity or
  the new stock is too wide for its column, there is too little to deduct, or the reason
  is a text the database does not store.
-/

import Kasir.Transactions.Ends

namespace Kasir.Stock

open Txn Transactions

/-- Outlet, product and user of the request are there, and the product is tracked. -/
def admits (user : JwtPayload) (dto : CreateStockAdjustmentDto) (db : Db) (envs : Nat → Env) :
    Bool :=
  match ((checkScope user (scopeOf user dto)).solo db envs 0 id).result with
  | .ok _ => true
  | .error _ => false

/-- The outlet and the product of the scope are the tenant's. -/
structure Scope.In (scope : Scope) (db : Db) : Prop where
  outlet : (db.accounts.outlets.any fun o => o.id == scope.outletId && o.tenantId == scope.tenantId) =
    true
  product : (db.catalog.products.any fun p =>
    p.id == scope.productId && p.tenantId == scope.tenantId) = true

/-- The quantity, and the stock it is added to, fit their columns. -/
structure AdjustmentFits (scope : Scope) (dto : CreateStockAdjustmentDto) (db : Db) : Prop where
  quantity : dto.quantity ≤ int4Max
  stock : dto.adjustmentType = .add → ∀ s ∈ db.stocks.productStocks,
    s.outletId = scope.outletId → s.productId = scope.productId → s.stock + dto.quantity ≤ int4Max

section Ends

variable {user : JwtPayload} {scope : Scope} {dto : CreateStockAdjustmentDto} {db : Db}
  {envs : Nat → Env} {n : Nat} {log : Db → Db}

theorem any_of_find? {α : Type} {p : α → Bool} {xs : List α} (h : (xs.find? p).isSome = true) :
    xs.any p = true := by
  rw [List.find?_isSome] at h
  exact List.any_eq_true.mpr h

/-- What is missing is answered with blame. -/
theorem checkScope_ends : Prog.Ends db envs (checkScope user scope) 0 id
    (fun _ _ log => log = id ∧ scope.In db) (fun e => e.isClientError = true) := by
  unfold checkScope
  rw [Prog.ends_bind, query, Prog.read, Prog.ends_stmt, Prog.ends_ret, Prog.ends_bind]
  dsimp only [id_eq]
  cases houtlet : (db.accounts.outlets.find? fun o =>
      o.id == scope.outletId && o.tenantId == scope.tenantId).isSome with
  | false => exact rfl
  | true =>
      rw [ensure, Prog.guard_true, Prog.ends_ret, Prog.ends_bind, query, Prog.read, Prog.ends_stmt,
        Prog.ends_ret, Prog.ends_bind]
      show Prog.Ends db envs (Prog.require (db.catalog.products.find? _) _) _ _ _ _
      cases hproduct : db.catalog.products.find? fun p =>
          p.id == scope.productId && p.tenantId == scope.tenantId with
      | none => exact rfl
      | some product =>
          have hin : scope.In db := by
            refine ⟨any_of_find? houtlet, any_of_find? ?_⟩
            rw [hproduct]
            rfl
          have hrest : (do
              ensure product.trackStock
                (.http { status := .conflict, message := "Stock tracking is disabled for this product"
                         errorCode := some "STOCK_TRACKING_DISABLED", detail := .productId product.id })
              let actor ← query fun db => db.accounts.users.find? fun u =>
                u.id == Js.toLowerCase user.sub && u.tenantId == scope.tenantId
              ensure actor.isSome (.plain .notFound "User not found") : Body Unit).Asks
                fun e => e.isClientError = true := by
            refine Prog.Asks.bind (Prog.asks_guard ?_) fun _ => ?_
            · exact rfl
            · apply (asks_query _).bind
              exact fun actor => Prog.asks_guard rfl
          rw [Prog.require_some, Prog.ends_ret]
          apply hrest.ends.mono _ fun _ he => he
          rintro _ n log rfl
          exact ⟨rfl, hin⟩

/-- The rows an adjustment may change. -/
def hits (scope : Scope) (dto : CreateStockAdjustmentDto) (d : Db) : List ProductStock :=
  d.stocks.productStocks.filter fun s => scope.contains d s &&
    (match dto.adjustmentType with
      | .add => true
      | .deduct => decide (s.stock ≥ dto.quantity))

theorem contains_key {d : Db} {s : ProductStock} (h : scope.contains d s = true) :
    s.outletId = scope.outletId ∧ s.productId = scope.productId := by
  unfold Scope.contains at h
  simp only [Bool.and_eq_true, beq_iff_eq] at h
  exact h.1.1

theorem contains_of_key {d : Db} (hin : scope.In d) {s : ProductStock}
    (ho : s.outletId = scope.outletId) (hp : s.productId = scope.productId) :
    scope.contains d s = true := by
  unfold Scope.contains
  rw [ho, hp, hin.outlet, hin.product]
  simp

/-- The change of the stock: refused by a column, by a lack of stock, or made. -/
theorem changeStock_ends : Prog.Ends db envs (changeStock scope dto) n log
    (fun _ _ log' => dto.quantity ≤ int4Max ∧
      (∀ s ∈ hits scope dto (log db), s.stock + delta dto ≤ int4Max) ∧
      (∃ s ∈ hits scope dto (log db), True) ∧
      log' db = productStocks.change ((hits scope dto (log db)).map productStocks.lock)
        (fun s => { s with stock := s.stock + delta dto }) (log db))
    (fun e => (e = .prisma .other ∧ (int4Max < dto.quantity ∨
        ∃ s ∈ hits scope dto (log db), int4Max < s.stock + delta dto)) ∨
      (e.isClientError = true ∧ dto.quantity ≤ int4Max ∧
        ∀ s ∈ hits scope dto (log db), s.stock + delta dto ≤ int4Max)) := by
  unfold changeStock
  rw [Prog.ends_bind]
  by_cases hwide : int4Max < dto.quantity
  · rw [ensure, decide_eq_false (by omega)]
    exact Or.inl ⟨rfl, Or.inl hwide⟩
  · rw [ensure, decide_eq_true (by omega), Prog.guard_true, Prog.ends_ret, Prog.ends_bind,
      updateMany, Prog.ends_stmt]
    show Prog.Ends db envs (if (hits scope dto (log db)).all
        (fun r => r ∈ productStocks.rows (log db)) then
      if (hits scope dto (log db)).all fun r => decide (r.stock + delta dto ≤ int4Max) then
        (Prog.ret (hits scope dto (log db)).length : Body Nat)
      else Prog.throw (Exc.prisma .other)
      else Prog.throw (Exc.prisma .P2034)) _ _ _ _
    have hall : (hits scope dto (log db)).all (fun r => r ∈ productStocks.rows (log db)) = true := by
      rw [List.all_eq_true]
      exact fun r hr => decide_eq_true (List.mem_of_mem_filter hr)
    rw [if_pos hall]
    by_cases hfits : ((hits scope dto (log db)).all fun r =>
        decide (r.stock + delta dto ≤ int4Max)) = true
    · have hfits' : ∀ s ∈ hits scope dto (log db), s.stock + delta dto ≤ int4Max := fun s hs =>
        of_decide_eq_true (List.all_eq_true.mp hfits s hs)
      rw [if_pos hfits, Prog.ends_ret]
      cases hlength : (hits scope dto (log db)).length == 1 with
      | false => exact Or.inr ⟨rfl, by omega, hfits'⟩
      | true =>
          refine ⟨by omega, hfits', ?_, rfl⟩
          obtain ⟨s, hs⟩ := List.length_eq_one_iff.mp (beq_iff_eq.mp hlength)
          exact ⟨s, hs ▸ List.mem_singleton.mpr rfl, trivial⟩
    · rw [if_neg hfits]
      refine Or.inl ⟨rfl, Or.inr ?_⟩
      by_contra hnone
      apply hfits
      rw [List.all_eq_true]
      intro s hs
      by_contra hover
      exact hnone ⟨s, hs, by simpa using hover⟩

/-- A row of stock 0 may be added. -/
theorem ensureRowFor_ends (type : AdjustmentType) :
    Prog.Ends db envs (ensureRowFor scope type) n id (fun _ _ log' =>
        (log' db).accounts = db.accounts ∧ (log' db).catalog = db.catalog ∧
        ∃ isNew, (log' db).stocks.productStocks = db.stocks.productStocks ++ newRows scope isNew)
      fun _ => False := by
  cases type with
  | deduct => exact ⟨rfl, rfl, false, (List.append_nil _).symm⟩
  | add =>
      unfold ensureRowFor ensureRow
      rw [Prog.ends_stmt, Prog.ends_ret]
      dsimp only [id_eq]
      split
      · exact ⟨rfl, rfl, false, (List.append_nil _).symm⟩
      · exact ⟨rfl, rfl, true, rfl⟩

/-- The new stocks fit their column exactly if the adjustment fits. -/
theorem adjustmentFits_iff {d : Db} {isNew : Bool} (hin : scope.In d) (hpos : 1 ≤ dto.quantity)
    (hstocks : ∀ s ∈ db.stocks.productStocks, s.stock ≤ int4Max)
    (hrows : d.stocks.productStocks = db.stocks.productStocks ++ newRows scope isNew) :
    AdjustmentFits scope dto db ↔ dto.quantity ≤ int4Max ∧
      ∀ s ∈ hits scope dto d, s.stock + delta dto ≤ int4Max := by
  constructor
  · intro h
    refine ⟨h.quantity, fun s hs => ?_⟩
    obtain ⟨hmem, hp⟩ := List.mem_filter.mp hs
    have hkey := contains_key (Bool.and_eq_true_iff.mp hp).1
    have hquantity := h.quantity
    rw [hrows] at hmem
    unfold delta
    cases htype : dto.adjustmentType with
    | add =>
        rcases List.mem_append.mp hmem with hold | hnew
        · exact h.stock htype s hold hkey.1 hkey.2
        · unfold newRows at hnew
          split at hnew
          · rw [List.mem_singleton.mp hnew]
            show 0 + dto.quantity ≤ int4Max
            omega
          · cases hnew
    | deduct =>
        have hle : s.stock ≤ int4Max := by
          rcases List.mem_append.mp hmem with hold | hnew
          · exact hstocks s hold
          · unfold newRows at hnew
            split at hnew
            · rw [List.mem_singleton.mp hnew]
              show (0 : Int) ≤ int4Max
              decide
            · cases hnew
        show s.stock + -dto.quantity ≤ int4Max
        omega
  · rintro ⟨hquantity, hfits⟩
    refine ⟨hquantity, fun htype s hs ho hp => ?_⟩
    have hmem : s ∈ hits scope dto d := by
      rw [hits, List.mem_filter, hrows, contains_of_key hin ho hp, htype]
      exact ⟨List.mem_append_left _ hs, rfl⟩
    have hle := hfits s hmem
    unfold delta at hle
    rw [htype] at hle
    exact hle

/-- The adjusted row is read back. -/
theorem readBack_ends {d : Db} (hfound : ∃ s ∈ d.stocks.productStocks, scope.contains d s = true)
    (hlog : (log db).stocks.productStocks = d.stocks.productStocks)
    (haccounts : (log db).accounts = d.accounts) (hcatalog : (log db).catalog = d.catalog)
    (hin : scope.In d) :
    Prog.Ends db envs (do
      let row ← query fun db => db.stocks.productStocks.find? (scope.contains db)
      Prog.require row (.prisma .P2025) : Body ProductStock) n log (fun _ _ _ => True)
      fun _ => False := by
  rw [Prog.ends_bind, query, Prog.read, Prog.ends_stmt, Prog.ends_ret]
  dsimp only
  cases hfind : (log db).stocks.productStocks.find? (scope.contains (log db)) with
  | some row => trivial
  | none =>
      obtain ⟨s, hs, hp⟩ := hfound
      rw [List.find?_eq_none, hlog] at hfind
      have hkey := contains_key hp
      have hin' : scope.In (log db) := ⟨haccounts ▸ hin.outlet, hcatalog ▸ hin.product⟩
      exact hfind s hs (contains_of_key hin' hkey.1 hkey.2)

/-- **How an adjustment ends** that is admitted: refused by a column if it does not fit,
    and otherwise made, or refused for lack of stock or for its reason. -/
theorem adjustmentBody_ends (hpos : 1 ≤ dto.quantity)
    (hstocks : ∀ s ∈ db.stocks.productStocks, s.stock ≤ int4Max) (hadmits : admits user dto db envs) :
    Prog.Ends db envs (adjustmentBody user dto) 0 id
      (fun _ _ _ => AdjustmentFits (scopeOf user dto) dto db)
      (fun e => (e = .prisma .other ∧ ¬ AdjustmentFits (scopeOf user dto) dto db) ∨
        ((e.isClientError = true ∨ storable (reasonOf dto) = false) ∧
          AdjustmentFits (scopeOf user dto) dto db)) := by
  have hscope := @checkScope_ends user (scopeOf user dto) db envs
  unfold admits at hadmits
  unfold adjustmentBody
  rw [Prog.ends_bind]
  rcases hsolo : (checkScope user (scopeOf user dto)).solo db envs 0 id with ⟨n, log, e | u⟩ <;>
    rw [hsolo] at hadmits
  · cases hadmits
  · obtain ⟨rfl, hin⟩ := (Prog.ends_of_ok hsolo).mp hscope
    refine (Prog.ends_of_ok hsolo).mpr ?_
    rw [Prog.ends_bind]
    apply (ensureRowFor_ends dto.adjustmentType).mono _ fun _ he => he.elim
    rintro _ n1 log1 ⟨haccounts, hcatalog, isNew, hrows⟩
    have hin1 : (scopeOf user dto).In (log1 db) :=
      ⟨haccounts ▸ hin.outlet, hcatalog ▸ hin.product⟩
    have hiff := adjustmentFits_iff hin1 hpos hstocks hrows
    rw [Prog.ends_bind]
    apply changeStock_ends.mono
    · rintro _ n2 log2 ⟨hquantity, hfits, ⟨s, hs, -⟩, hlog2⟩
      have hfit := hiff.mpr ⟨hquantity, hfits⟩
      obtain ⟨hmem, hp⟩ := List.mem_filter.mp hs
      have hkey := contains_key (Bool.and_eq_true_iff.mp hp).1
      have haccounts2 : (log2 db).accounts = (log1 db).accounts := by
        rw [hlog2]
        rfl
      have hcatalog2 : (log2 db).catalog = (log1 db).catalog := by
        rw [hlog2]
        rfl
      have hin2 : (scopeOf user dto).In (log2 db) :=
        ⟨haccounts2 ▸ hin1.outlet, hcatalog2 ▸ hin1.product⟩
      -- the row that was changed is still there
      have hfound : ∃ s ∈ (log2 db).stocks.productStocks,
          (scopeOf user dto).contains (log2 db) s = true := by
        rw [hlog2]
        refine ⟨_, List.mem_map.mpr ⟨s, hmem, rfl⟩, ?_⟩
        rw [← hlog2]
        apply contains_of_key hin2
        · split
          · exact hkey.1
          · exact hkey.1
        · split
          · exact hkey.2
          · exact hkey.2
      rw [Prog.ends_bind]
      cases hreason : storable (reasonOf dto) with
      | false => exact Or.inr ⟨Or.inr rfl, hfit⟩
      | true =>
          rw [ensure, Prog.guard_true, Prog.ends_ret, Prog.ends_bind, insert, Prog.write,
            Prog.ends_stmt, Prog.ends_ret, Prog.ends_bind, insert, Prog.write, Prog.ends_stmt,
            Prog.ends_ret]
          refine Prog.Ends.mono (readBack_ends hfound ?_ ?_ ?_ hin2) (fun _ _ _ _ => hfit)
            fun _ he => he.elim
          · rfl
          · rfl
          · rfl
    · rintro e (⟨rfl, hover⟩ | ⟨hclient, hquantity, hfits⟩)
      · refine Or.inl ⟨rfl, fun hfit => ?_⟩
        obtain ⟨hquantity, hfits⟩ := hiff.mp hfit
        rcases hover with hwide | ⟨s, hs, hwide⟩
        · omega
        · have hle := hfits s hs
          omega
      · exact Or.inr ⟨Or.inl hclient, hiff.mpr ⟨hquantity, hfits⟩⟩

/-- One that is not admitted blames the request. -/
theorem adjustmentBody_refused (hadmits : admits user dto db envs = false) :
    Prog.Ends db envs (adjustmentBody user dto) 0 id (fun _ _ _ => False)
      (fun e => e.isClientError = true) := by
  have hscope := @checkScope_ends user (scopeOf user dto) db envs
  unfold admits at hadmits
  unfold adjustmentBody
  rw [Prog.ends_bind]
  unfold Prog.Ends at hscope ⊢
  rcases hsolo : (checkScope user (scopeOf user dto)).solo db envs 0 id with ⟨n, log, e | u⟩ <;>
    rw [hsolo] at hadmits hscope
  · exact hscope
  · cases hadmits

end Ends

end Kasir.Stock
