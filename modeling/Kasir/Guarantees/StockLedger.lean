/-
  Kasir.Guarantees.StockLedger

  Stock and its ledger.

  Sales take stock row by row and write one movement for each tracked product;
  adjustments change one row and write one movement.  So across every commit, and
  with it across every run, the stock of a product at an outlet changes by the sum of
  the movements written for it, and no row goes below zero.
-/

import Kasir.HeldHistory
import Kasir.SaleHistory
import Kasir.Lines

namespace Kasir

open Txn Js Transactions HeldOrders

-- ============================================================================
-- Stock and movements of a product
-- ============================================================================

/-- The stock of a product at an outlet; 0 if it has no row. -/
def Stocks.level (s : Stocks) (outletId productId : Id) : Int :=
  ((s.rowsOf outletId productId).head?.map ProductStock.stock).getD 0

/-- The movement is of this product at this outlet. -/
def movementAt (outletId productId : Id) (m : StockMovement) : Bool :=
  m.outletId == outletId && m.productId == productId

/-- What movements sum up to. -/
def moved (outletId productId : Id) (movements : List StockMovement) : Int :=
  ((movements.filter (movementAt outletId productId)).map StockMovement.quantity).sum

/-- The signed quantity of an adjustment. -/
def StockAdjustment.signed (a : StockAdjustment) : Int :=
  match a.type with
  | .add => a.quantity
  | .deduct => -a.quantity

/-- From one state to another, movements have been added, and stock has changed by
    what they sum up to. -/
def Ledger (a b : Stocks) : Prop :=
  ∃ new, b.stockMovements = a.stockMovements ++ new ∧
    ∀ o p, b.level o p - a.level o p = moved o p new

/-- No stock is below zero. -/
def Stocks.NonNeg (s : Stocks) : Prop := ∀ r ∈ s.productStocks, 0 ≤ r.stock

/-- An ADJUSTMENT movement has its adjustment. -/
def Stocks.AdjustmentsMatch (s : Stocks) : Prop :=
  ∀ m ∈ s.stockMovements, m.type = .adjustment → ∃ a ∈ s.stockAdjustments,
    m.referenceId = some a.id ∧ m.outletId = a.outletId ∧ m.productId = a.productId ∧
      m.quantity = a.signed

@[simp] theorem moved_nil (o p : Id) : moved o p [] = 0 := rfl

theorem moved_append (o p : Id) (xs ys : List StockMovement) :
    moved o p (xs ++ ys) = moved o p xs + moved o p ys := by
  simp [moved]

theorem moved_cons (o p : Id) (m : StockMovement) (ms : List StockMovement) :
    moved o p (m :: ms) = (if movementAt o p m then m.quantity else 0) + moved o p ms := by
  unfold moved
  by_cases h : movementAt o p m = true
  · simp [h]
  · simp [h]

theorem Ledger.of_same {a b : Stocks} (h : b = a) : Ledger a b :=
  ⟨[], by simp [h], fun o p => by simp [h]⟩

theorem Ledger.trans {a b c : Stocks} (h1 : Ledger a b) (h2 : Ledger b c) : Ledger a c := by
  obtain ⟨xs, hxs, hlevel1⟩ := h1
  obtain ⟨ys, hys, hlevel2⟩ := h2
  refine ⟨xs ++ ys, by rw [hys, hxs, List.append_assoc], fun o p => ?_⟩
  have hab := hlevel1 o p
  have hbc := hlevel2 o p
  rw [moved_append]
  omega

-- ============================================================================
-- A sale
-- ============================================================================

section Sale

variable {R : Token → Prop} {tx : TransactionClient} {user : JwtPayload} {dto : CheckoutDto}
  {mode : CheckoutMode} {sale : Sale} {resp : TransactionResponse} {seen : List Db} {a : Db}

theorem moved_movementRows (user : JwtPayload) (outletId tid : Id) (entries : List (Id × Int))
    (env : Env) (o p : Id) : moved o p (movementRows user outletId tid entries env) =
      if o = outletId then -demand entries p else 0 := by
  have key : ∀ (entries : List (Id × Int)) (k : Nat), moved o p ((entries.zipIdx k).map fun x =>
      { id := env.fresh x.2, tenantId := user.tenantId, outletId, productId := x.1.1
        userId := user.sub, type := .sale, quantity := -x.1.2
        referenceType := some "TRANSACTION", referenceId := some tid, reason := none }) =
      if o = outletId then -demand entries p else 0 := by
    intro entries
    induction entries with
    | nil => intro k; simp
    | cons e entries ih =>
        intro k
        rw [List.zipIdx_cons, List.map_cons, moved_cons, ih, demand_cons]
        by_cases ho : o = outletId
        · by_cases hp : e.1 = p
          · simp [movementAt, ho, hp]
            omega
          · simp [movementAt, ho, hp]
        · simp [movementAt, ho, Ne.symm ho]
  exact key entries 0

/-- Where there is no row nothing is taken. -/
theorem Transactions.NewSale.demand_eq_zero (h : NewSale R tx user dto mode sale resp seen a)
    {p : Id} (hnone : a.stocks.rowsOf dto.outletId p = []) : demand sale.rows.entries p = 0 := by
  apply Transactions.demand_eq_zero
  intro hp
  obtain ⟨e, he, rfl⟩ := List.mem_map.mp hp
  obtain ⟨r, hr, -⟩ := h.covered e he
  rw [hnone] at hr
  cases hr

theorem Transactions.NewSale.nodup_entries (h : NewSale R tx user dto mode sale resp seen a) :
    (sale.rows.entries.map Prod.fst).Nodup := by
  rw [h.built.entries]
  exact nodup_stockByProduct _

/-- A sale takes of each product what its movements say. -/
theorem Transactions.NewSale.ledger (h : NewSale R tx user dto mode sale resp seen a) :
    Ledger a.stocks (sale.rows.stocks a.stocks) := by
  refine ⟨sale.rows.movements, rfl, fun o p => ?_⟩
  obtain ⟨env, hmovements⟩ := h.built.movements
  rw [hmovements, moved_movementRows]
  unfold Stocks.level
  rw [rowsOf_stocks, h.built.outletId, List.head?_map]
  by_cases ho : o = dto.outletId
  · subst ho
    cases hrows : a.stocks.rowsOf dto.outletId p with
    | nil => simp [h.demand_eq_zero hrows]
    | cons r rows => simp
  · simp [ho]

/-- A row is the only one of its product at its outlet. -/
theorem eq_of_mem_rowsOf (hwf : Wf a) {o p : Id} {r s : ProductStock}
    (hr : r ∈ a.stocks.rowsOf o p) (hs : s ∈ a.stocks.productStocks) (ho : s.outletId = o)
    (hp : s.productId = p) : s = r := by
  obtain ⟨hmem, hkey⟩ := List.mem_filter.mp hr
  simp only [Bool.and_eq_true, beq_iff_eq] at hkey
  exact eq_of_key (legal_productStocks hwf.legal) hs hmem (by simp [ho, hp, hkey])

/-- A sale takes from a row no more than it has. -/
theorem Transactions.NewSale.nonNeg (h : NewSale R tx user dto mode sale resp seen a)
    (hwf : Wf a) (ha : a.stocks.NonNeg) : (sale.rows.stocks a.stocks).NonNeg := by
  intro r hr
  change r ∈ SaleRows.takeStock _ _ a.stocks.productStocks at hr
  rw [takeStock_eq, h.built.outletId] at hr
  obtain ⟨s, hs, rfl⟩ := List.mem_map.mp hr
  have hnonneg := ha s hs
  split
  · rename_i ho
    by_cases hp : s.productId ∈ sale.rows.entries.map Prod.fst
    · obtain ⟨e, he, heq⟩ := List.mem_map.mp hp
      obtain ⟨x, hx, hle⟩ := h.covered e he
      have hsx : s = x := eq_of_mem_rowsOf hwf hx hs ho heq.symm
      have hdemand := demand_of_mem h.nodup_entries he
      rw [heq] at hdemand
      subst hsx
      show 0 ≤ s.stock - demand sale.rows.entries s.productId
      omega
    · show 0 ≤ s.stock - demand sale.rows.entries s.productId
      rw [Transactions.demand_eq_zero hp]
      omega
  · exact hnonneg

/-- Stock is taken of tracked products of the lines. -/
theorem mem_stockByProduct {items : List ValidatedItem} {p : Id}
    (h : p ∈ (stockByProduct items).map Prod.fst) :
    ∃ i ∈ items, i.product.trackStock = true ∧ i.product.id = p := by
  have key : ∀ (items : List ValidatedItem) (map : List (Id × Int)),
      p ∈ (items.foldl (fun map i => if i.product.trackStock then
        addQuantity i.product.id i.quantity map else map) map).map Prod.fst →
      p ∈ map.map Prod.fst ∨ ∃ i ∈ items, i.product.trackStock = true ∧ i.product.id = p := by
    intro items
    induction items with
    | nil => exact fun map h => Or.inl h
    | cons i items ih =>
        intro map hmem
        rcases ih _ hmem with hold | ⟨j, hj, hown⟩
        · dsimp only at hold
          split at hold
          · rename_i htrack
            rw [map_fst_addQuantity] at hold
            split at hold
            · exact Or.inl hold
            · rcases List.mem_append.mp hold with hold | hid
              · exact Or.inl hold
              · exact Or.inr ⟨i, List.mem_cons_self .., htrack, (List.mem_singleton.mp hid).symm⟩
          · exact Or.inl hold
        · exact Or.inr ⟨j, List.mem_cons_of_mem _ hj, hown⟩
  exact (key items [] h).resolve_left (fun h => nomatch h)

/-- Every validated line is of a line of the request. -/
theorem Transactions.Sale.Built.item_of_mem (h : sale.Built user dto) {v : ValidatedItem}
    (hv : v ∈ sale.items) : ∃ i ∈ dto.items, v.product.id = i.productId := by
  have hitems := Checked.mapM_ok.mp h.items
  obtain ⟨k, hk, rfl⟩ := List.mem_iff_getElem.mp hv
  have hok := hitems.get (hitems.length_eq ▸ hk) hk
  obtain ⟨product, options, hline, heq⟩ := validateItem_ok hok
  refine ⟨_, List.getElem_mem (hitems.length_eq ▸ hk), ?_⟩
  rw [List.get_eq_getElem] at heq hline
  rw [heq]
  exact hline.productId

end Sale

-- ============================================================================
-- An adjustment
-- ============================================================================

section Adjustment

variable {scope : Stock.Scope} {dto : Stock.CreateStockAdjustmentDto} {isNew : Bool} {a : Db}
  {row : StockAdjustment} {m : StockMovement}

theorem quantity_pos (h : dto.valid = true) : 1 ≤ dto.quantity := by
  simp only [Stock.CreateStockAdjustmentDto.valid, Bool.and_eq_true, decide_eq_true_eq] at h
  exact h.1.2

/-- An adjustment changes its product's stock by the quantity of its movement. -/
theorem AdjustedStock.ledger (h : AdjustedStock scope dto isNew a)
    (hm : m.outletId = scope.outletId ∧ m.productId = scope.productId ∧
      m.quantity = Stock.delta dto) :
    Ledger a.stocks (Stock.adjusted scope isNew (Stock.delta dto) row m a.stocks) := by
  refine ⟨[m], rfl, fun o p => ?_⟩
  rw [moved_cons, moved_nil, add_zero]
  unfold Stocks.level
  by_cases hown : o = scope.outletId ∧ p = scope.productId
  · obtain ⟨rfl, rfl⟩ := hown
    have hat : movementAt scope.outletId scope.productId m = true := by simp [movementAt, hm]
    rw [if_pos hat, hm.2.2, Stock.rowsOf_adjusted_own]
    cases isNew with
    | true => simp [(h.new rfl).1, Stock.newRows]
    | false =>
        obtain ⟨r, hr, -⟩ := h.existing rfl
        cases hrows : a.stocks.rowsOf scope.outletId scope.productId with
        | nil => rw [hrows] at hr; cases hr
        | cons s rows => simp
  · have hat : ¬ movementAt o p m = true := by
      simp only [movementAt, Bool.and_eq_true, beq_iff_eq, hm.1, hm.2.1]
      exact fun heq => hown ⟨heq.1.symm, heq.2.symm⟩
    rw [if_neg hat, Stock.rowsOf_adjusted_other hown, sub_self]

/-- An adjustment takes no more than there is. -/
theorem AdjustedStock.nonNeg (h : AdjustedStock scope dto isNew a) (hwf : Wf a)
    (hvalid : dto.valid = true) (ha : a.stocks.NonNeg) :
    (Stock.adjusted scope isNew (Stock.delta dto) row m a.stocks).NonNeg := by
  have hpos := quantity_pos hvalid
  intro r hr
  change r ∈ (a.stocks.productStocks ++ Stock.newRows scope isNew).map _ at hr
  obtain ⟨s, hs, rfl⟩ := List.mem_map.mp hr
  have hnonneg : 0 ≤ s.stock := by
    rcases List.mem_append.mp hs with hs | hs
    · exact ha s hs
    · cases isNew with
      | false => cases hs
      | true => rw [List.mem_singleton.mp hs]
  split
  · rename_i hown
    show 0 ≤ s.stock + Stock.delta dto
    unfold Stock.delta
    cases htype : dto.adjustmentType with
    | add => dsimp only; omega
    | deduct =>
        cases isNew with
        | true =>
            have hadd := (h.new rfl).2
            rw [htype] at hadd
            cases hadd
        | false =>
            obtain ⟨x, hx, hle⟩ := h.existing rfl
            rw [Stock.newRows, if_neg (by simp), List.append_nil] at hs
            have hsx : s = x := eq_of_mem_rowsOf hwf hx hs hown.1 hown.2
            have hle' := hle htype
            subst hsx
            dsimp only
            omega
  · exact hnonneg

end Adjustment

-- ============================================================================
-- One commit
-- ============================================================================

/-- The stock a call is about: the products of its request, or of the order it
    names, at the outlet. -/
inductive Names (a : Db) : Call → Id → Id → Prop
  | sale {c user input mode i} (hc : saleInput c = some (user, input, mode)) (hi : i ∈ input.items) :
      Names a c (toLowerCase input.outletId) (toLowerCase i.productId)
  | conversion {user id input o l} (ho : o ∈ a.held.heldOrders) (hid : o.id = toLowerCase id)
      (hl : l ∈ (a.held.slice o.id).2) :
      Names a (.holdCheckout user id input) (toLowerCase o.outletId) (toLowerCase l.1.productId)
  | adjustment {user dto} :
      Names a (.adjustStock user dto) (toLowerCase dto.outletId) (toLowerCase dto.productId)

section Step

variable {R : Token → Prop} {c : Call} {r : Result} {seen : List Db} {a b : Db}

theorem Effect.ledger (h : Effect R c r seen a b) : Ledger a.stocks b.stocks := by
  rcases h.sales_cases with ⟨-, hs⟩ | ⟨user, dto, mode, tx, sale, resp, -, hsale, -, hs⟩ |
    ⟨user, dto, isNew, env, env', -, hadj, -, hs⟩
  · exact .of_same hs
  · rw [hs]
    exact hsale.ledger
  · rw [hs]
    exact hadj.ledger ⟨rfl, rfl, rfl⟩

theorem Effect.nonNeg (h : Effect R c r seen a b) (hwf : Wf a) (hc : c.precheck = none)
    (ha : a.stocks.NonNeg) : b.stocks.NonNeg := by
  rcases h.sales_cases with ⟨-, hs⟩ | ⟨user, dto, mode, tx, sale, resp, -, hsale, -, hs⟩ |
    ⟨user, dto, isNew, env, env', rfl, hadj, -, hs⟩
  · rw [hs]
    exact ha
  · rw [hs]
    exact hsale.nonNeg hwf ha
  · rw [hs]
    refine hadj.nonNeg hwf ?_ ha
    simp only [Call.precheck] at hc
    split at hc
    · assumption
    · cases hc

theorem Effect.adjustmentsMatch (h : Effect R c r seen a b) (ha : a.stocks.AdjustmentsMatch) :
    b.stocks.AdjustmentsMatch := by
  rcases h.sales_cases with ⟨-, hs⟩ | ⟨user, dto, mode, tx, sale, resp, -, hsale, -, hs⟩ |
    ⟨user, dto, isNew, env, env', -, -, -, hs⟩
  · rw [hs]
    exact ha
  · rw [hs]
    intro m hm htype
    rcases List.mem_append.mp hm with hm | hm
    · exact ha m hm htype
    · rw [(hsale.built.movement m hm).1] at htype
      cases htype
  · rw [hs]
    intro m hm htype
    rcases List.mem_append.mp hm with hm | hm
    · obtain ⟨adj, hadj, hown⟩ := ha m hm htype
      exact ⟨adj, List.mem_append_left _ hadj, hown⟩
    · rw [List.mem_singleton.mp hm]
      refine ⟨_, List.mem_append_right _ (List.mem_singleton.mpr rfl), rfl, rfl, rfl, ?_⟩
      cases hkind : dto.adjustmentType <;>
        simp [Stock.movementRow, Stock.delta, StockAdjustment.signed, Stock.adjustmentRow, hkind]

/-- The products a sale takes stock of are those its call names. -/
theorem SaleOf.names {user : JwtPayload} {dto : CheckoutDto} {mode : CheckoutMode}
    {tx : TransactionClient} {resp : TransactionResponse}
    (h : SaleOf c r seen a user dto mode tx resp) (hwf : Wf a) {i : CreateTransactionItemDto}
    (hi : i ∈ dto.items) : Names a c dto.outletId i.productId := by
  cases h with
  | @request _ user input mode _ _ _ hc =>
      simp only [coreRequest, normalizeCheckoutDto, CheckoutDto.transformed, List.map_map] at hi ⊢
      obtain ⟨j, hj, rfl⟩ := List.mem_map.mp hi
      have hname := Names.sale (a := a) hc hj
      exact hname
  | @conversion user id input record o _ _ _ horder =>
      simp only [coreRequest, normalizeCheckoutDto, CheckoutDto.transformed, heldCheckoutDto,
        List.map_map] at hi ⊢
      obtain ⟨rec, hrec, rfl⟩ := List.mem_map.mp hi
      obtain ⟨rfl, lines, hperm, hread⟩ := horder.lines hwf
      obtain ⟨k, hk, rfl⟩ := List.mem_iff_getElem.mp hrec
      have hline := hread.get hk (hread.length_eq ▸ hk)
      have hmem := hperm.mem_iff.mp (List.get_mem lines ⟨k, hread.length_eq ▸ hk⟩)
      have hname : Names a (.holdCheckout user id input) (toLowerCase record.order.outletId) _ :=
        .conversion horder.target.mem horder.target.id (horder.target.id ▸ hmem)
      have hproduct : (record.items[k]).item = (lines.get ⟨k, hread.length_eq ▸ hk⟩).1 := hline.1
      rw [← hproduct] at hname
      exact hname

/-- Stock and movements that the call does not name stay as they are. -/
theorem Effect.not_named (h : Effect R c r seen a b) (hwf : Wf a) {o p : Id}
    (hnot : ¬ Names a c o p) : b.stocks.rowsOf o p = a.stocks.rowsOf o p ∧
      b.stocks.stockMovements.filter (movementAt o p) =
        a.stocks.stockMovements.filter (movementAt o p) := by
  rcases h.sales_cases with ⟨-, hs⟩ | ⟨user, dto, mode, tx, sale, resp, hof, hsale, -, hs⟩ |
    ⟨user, dto, isNew, env, env', rfl, -, -, hs⟩
  · rw [hs]
    exact ⟨rfl, rfl⟩
  · -- an entry of the product would be of a line of the request
    have hother : o ≠ dto.outletId ∨ p ∉ sale.rows.entries.map Prod.fst := by
      by_cases ho : o = dto.outletId
      · refine Or.inr fun hp => hnot ?_
        rw [hsale.built.entries] at hp
        obtain ⟨v, hv, -, rfl⟩ := mem_stockByProduct hp
        obtain ⟨i, hi, hid⟩ := hsale.built.item_of_mem hv
        rw [ho, hid]
        exact hof.names hwf hi
      · exact Or.inl ho
    rw [hs]
    refine ⟨rowsOf_stocks_of_not_mem (hsale.built.outletId ▸ hother) _, ?_⟩
    refine filter_append_of_none fun m hm => ?_
    obtain ⟨env, hmovements⟩ := hsale.built.movements
    rw [hmovements] at hm
    obtain ⟨x, hx, rfl⟩ := List.mem_map.mp hm
    rcases hother with ho | hp
    · simp [movementAt, Ne.symm ho]
    · have hne : x.1.1 ≠ p := fun heq =>
        hp (heq ▸ List.mem_map_of_mem (List.fst_mem_of_mem_zipIdx hx))
      simp [movementAt, hne]
  · have hother : ¬ (o = (Stock.scopeOf user dto).outletId ∧ p = (Stock.scopeOf user dto).productId) := by
      rintro ⟨rfl, rfl⟩
      exact hnot .adjustment
    rw [hs]
    refine ⟨Stock.rowsOf_adjusted_other hother, filter_append_of_none fun m hm => ?_⟩
    rw [List.mem_singleton.mp hm]
    by_cases ho : o = (Stock.scopeOf user dto).outletId
    · have hp : (Stock.scopeOf user dto).productId ≠ p := fun heq => hother ⟨ho, heq.symm⟩
      simp [movementAt, Stock.movementRow, hp]
    · simp [movementAt, Stock.movementRow, Ne.symm ho]

end Step

-- ============================================================================
-- Every run
-- ============================================================================

/-- **The stock ledger.**  In every run, in the state reached: stock has changed by
    the sum of the movements added, none is below zero, an ADJUSTMENT movement
    carries the signed quantity of its adjustment, and no commit has touched stock or
    movements that its call does not name. -/
theorem stock_ledger {db0 : Db} {σ : State} (h0 : Wf db0) (hnonneg : db0.stocks.NonNeg)
    (hmatch : db0.stocks.AdjustmentsMatch) (h : kasir.Reach db0 σ) :
    (∃ new, σ.db.stocks.stockMovements = db0.stocks.stockMovements ++ new ∧
      ∀ o p, σ.db.stocks.level o p - db0.stocks.level o p = moved o p new) ∧
    (∀ row ∈ σ.db.stocks.productStocks, 0 ≤ row.stock) ∧
    (∀ m ∈ σ.db.stocks.stockMovements, m.type = .adjustment →
      ∃ a ∈ σ.db.stocks.stockAdjustments, m.referenceId = some a.id ∧ m.outletId = a.outletId ∧
        m.productId = a.productId ∧ m.quantity = a.signed) ∧
    ∀ e ∈ σ.history, ∀ o p, ¬ Names e.before e.call o p →
      e.after.stocks.rowsOf o p = e.before.stocks.rowsOf o p ∧
      e.after.stocks.stockMovements.filter (movementAt o p) =
        e.before.stocks.stockMovements.filter (movementAt o p) := by
  have hsound := reach_sound h0 h
  refine ⟨?_, ?_, ?_, ?_⟩
  · have htrans : ∀ {x y z : Db}, Ledger x.stocks y.stocks → Ledger y.stocks z.stocks →
        Ledger x.stocks z.stocks := fun h1 h2 => h1.trans h2
    exact hsound.chain.rel (fun a b => Ledger a.stocks b.stocks) (fun _ => .of_same rfl) htrans
      fun e he => (hsound.commits e he).post.ledger
  · exact hsound.invariant (fun d => d.stocks.NonNeg) hnonneg
      fun e he ha => he.post.nonNeg he.invBefore he.admitted ha
  · exact hsound.invariant (fun d => d.stocks.AdjustmentsMatch) hmatch
      fun e he ha => he.post.adjustmentsMatch ha
  · exact fun e he o p hnot => (hsound.commits e he).post.not_named (hsound.commits e he).invBefore hnot

/-- In the shop two coffees are sold of the ten there are. -/
theorem stock_ledger_shop :
    ∃ σ : State, kasir.Reach Shop.db σ ∧ σ.db.stocks.level Shop.outlet Shop.coffee = 8 ∧
      ∃ new, moved Shop.outlet Shop.coffee new = -2 ∧
        σ.db.stocks.stockMovements = Shop.db.stocks.stockMovements ++ new := by
  obtain ⟨σ, -, hrun, hp, -⟩ := Shop.run noMarks [(Shop.sale (Shop.uuid 9 9 9), Shop.envs 1)]
    (fun _ after => after.stocks.level Shop.outlet Shop.coffee == 8) (by decide +kernel)
  have hlevel := beq_iff_eq.mp hp
  have hnonneg : Shop.db.stocks.NonNeg := by
    intro row hrow
    rw [List.mem_singleton.mp hrow]
    decide
  obtain ⟨new, hnew, hmoved⟩ := (stock_ledger Shop.wf hnonneg (fun _ hm => nomatch hm) hrun.reach).1
  have hinit : Shop.db.stocks.level Shop.outlet Shop.coffee = 10 := by decide +kernel
  have hdiff := hmoved Shop.outlet Shop.coffee
  exact ⟨σ, hrun.reach, hlevel, new, by omega, hnew⟩

end Kasir
