/-
  Kasir.Widths

  The integers the columns of sales and stock hold.

  INTEGER columns have 32 bits and BIGINT columns 64, and most of them are checked not
  to be negative.  A sale computes with all of them: prices and options of 32 bits are
  added to amounts of 64, quantities of lines are added to quantities of products.  The
  main result is that every row a sale writes fits.
-/

import Kasir.Guarantees.StockLedger
import Kasir.SaleContents
import Kasir.Js.Tally

namespace Kasir

open Txn Js Transactions

-- ============================================================================
-- The columns
-- ============================================================================

/-- The largest value of a BIGINT column. -/
def int8Max : Int := 9223372036854775807

/-- An INTEGER that is not negative. -/
def Int4 (n : Int) : Prop := 0 ≤ n ∧ n ≤ int4Max

/-- A BIGINT that is not negative. -/
def Int8 (n : Int) : Prop := 0 ≤ n ∧ n ≤ int8Max

theorem InRange.int8 {n : Int} (h : InRange n) : Int8 n := by
  have hmax : maxSafeInteger ≤ int8Max := by decide
  exact ⟨h.1, by have := h.2; omega⟩

theorem Int4.int8 {n : Int} (h : Int4 n) : Int8 n := by
  have hmax : int4Max ≤ int8Max := by decide
  exact ⟨h.1, by have := h.2; omega⟩

structure Transaction.Fits (t : Transaction) : Prop where
  subtotal : Int8 t.subtotal
  discount : Int8 t.discount
  tax : Int8 t.tax
  total : Int8 t.total

structure TransactionItem.Fits (i : TransactionItem) : Prop where
  quantity : Int4 i.quantity
  unitPrice : Int8 i.unitPrice
  unitCost : Int8 i.unitCost
  subtotal : Int8 i.subtotal
  basePriceSnapshot : ∀ n ∈ i.basePriceSnapshot, Int8 n
  effectivePriceSnapshot : ∀ n ∈ i.effectivePriceSnapshot, Int8 n

structure Payment.Fits (p : Payment) : Prop where
  amount : Int8 p.amount
  amountReceived : ∀ n ∈ p.amountReceived, Int8 n
  changeAmount : ∀ n ∈ p.changeAmount, Int8 n

/-- The rows of sales fit their columns. -/
structure Sales.Fits (s : Sales) : Prop where
  transactions : ∀ t ∈ s.transactions, t.Fits
  items : ∀ i ∈ s.transactionItems, i.Fits
  modifiers : ∀ m ∈ s.transactionItemModifiers, Int4 m.priceDeltaSnapshot
  payments : ∀ p ∈ s.payments, p.Fits

/-- The rows of the stock tables fit their columns. -/
structure Stocks.Fits (s : Stocks) : Prop where
  stocks : ∀ r ∈ s.productStocks, Int4 r.stock
  movements : ∀ m ∈ s.stockMovements, -int4Max - 1 ≤ m.quantity ∧ m.quantity ≤ int4Max
  adjustments : ∀ a ∈ s.stockAdjustments, Int4 a.quantity

/-- What the schema says of the integers a sale or an adjustment meets. -/
structure Db.Fits (db : Db) : Prop where
  prices : ∀ p ∈ db.catalog.products, p.price ≤ int4Max ∧ p.cost ≤ int4Max
  deltas : ∀ o ∈ db.catalog.modifierOptions, o.priceDelta ≤ int4Max
  sales : db.sales.Fits
  stocks : db.stocks.Fits

-- ============================================================================
-- Quantities by product
-- ============================================================================

/-- The quantities of the lines whose product is tracked. -/
def trackedQuantities (items : List ValidatedItem) : List (Id × Int) :=
  (items.filter fun i => i.product.trackStock).map fun i => (i.product.id, i.quantity)

theorem addQuantity_eq_tally (id : Id) (qty : Int) (map : List (Id × Int)) :
    addQuantity id qty map = tally (· + ·) id qty map := by
  induction map with
  | nil => rfl
  | cons e map ih =>
      unfold addQuantity tally
      by_cases he : e.1 = id
      · rw [if_pos (beq_iff_eq.mpr he), if_pos he]
      · rw [if_neg (fun h => he (beq_iff_eq.mp h)), if_neg he, ih]

/-- The map of a sale is the tally of its tracked quantities. -/
theorem stockByProduct_eq (items : List ValidatedItem) :
    stockByProduct items = tallied (· + ·) (trackedQuantities items) := by
  have key : ∀ map : List (Id × Int), items.foldl (fun map i =>
      if i.product.trackStock then addQuantity i.product.id i.quantity map else map) map =
      (trackedQuantities items).foldl (fun m x => tally (· + ·) x.1 x.2 m) map := by
    induction items with
    | nil => exact fun _ => rfl
    | cons i items ih =>
        intro map
        unfold trackedQuantities at ih ⊢
        rw [List.foldl_cons, List.filter_cons, ih]
        by_cases htrack : i.product.trackStock = true
        · rw [if_pos htrack, if_pos htrack, List.map_cons, List.foldl_cons, addQuantity_eq_tally]
        · rw [if_neg htrack, if_neg htrack]
  exact key []

/-- What is taken is not negative. -/
theorem stockByProduct_nonneg {items : List ValidatedItem} (h : ∀ i ∈ items, 0 ≤ i.quantity) :
    ∀ e ∈ stockByProduct items, 0 ≤ e.2 := by
  intro e he
  rw [stockByProduct_eq] at he
  rw [(tallies (· + ·) (trackedQuantities items)).sum he]
  apply List.sum_nonneg
  intro m hm
  obtain ⟨i, hi, heq⟩ := List.mem_map.mp (mem_amountsOf.mp hm)
  rw [← (Prod.mk.inj heq).2]
  exact h i (List.mem_of_mem_filter hi)

-- ============================================================================
-- The rows of a sale
-- ============================================================================

/-- The range of an item of a valid request. -/
theorem CreateTransactionItemDto.quantity_int4 {item : CreateTransactionItemDto}
    (h : item.valid = true) : Int4 item.quantity := by
  unfold CreateTransactionItemDto.valid at h
  simp only [Bool.and_eq_true, decide_eq_true_eq] at h
  obtain ⟨⟨⟨⟨-, hmin⟩, hmax⟩, -⟩, -⟩ := h
  exact ⟨by omega, hmax⟩

/-- No more than 50 options are asked for. -/
theorem CreateTransactionItemDto.options_le {item : CreateTransactionItemDto}
    (h : item.valid = true) : (item.modifierOptionIds.getD []).length ≤ 50 := by
  unfold CreateTransactionItemDto.valid at h
  simp only [Bool.and_eq_true] at h
  obtain ⟨⟨-, hids⟩, -⟩ := h
  cases hcase : item.modifierOptionIds with
  | none => exact Nat.zero_le 50
  | some ids =>
      rw [hcase] at hids
      simp only [Bool.and_eq_true, decide_eq_true_eq] at hids
      exact hids.1.1

theorem sum_le_of_length {xs : List Int} {b : Int} {n : Nat} (hb : 0 ≤ b) (h : ∀ x ∈ xs, x ≤ b)
    (hlen : xs.length ≤ n) : xs.sum ≤ b * n := by
  have hsum : xs.sum ≤ b * xs.length := by
    clear hlen
    induction xs with
    | nil => simp
    | cons x xs ih =>
        have hx := h x (List.mem_cons_self ..)
        have hxs := ih fun y hy => h y (List.mem_cons_of_mem _ hy)
        rw [List.sum_cons, List.length_cons, Nat.cast_add, Nat.cast_one, mul_add, mul_one]
        omega
  have hmul : b * xs.length ≤ b * n := mul_le_mul_of_nonneg_left (by exact_mod_cast hlen) hb
  omega

section Options

variable {db : Db} (hfits : db.Fits) {catalog : LoadedCatalog}
  (hcatalog : ∀ o ∈ catalog.options, o ∈ db.catalog.modifierOptions)
  {item : CreateTransactionItemDto} {options : List ResolvedOption}
include hfits hcatalog

/-- Every option of a line has a price of 32 bits. -/
theorem priceDelta_int4
    (h : List.Forall₂ (OptionOf catalog.options (assignmentsOf catalog item))
      (item.modifierOptionIds.getD []) options) :
    ∀ o ∈ options, Int4 o.priceDelta := by
  intro o ho
  obtain ⟨id, -, hof⟩ := forall₂_mem_right h o ho
  refine ⟨hof.priceDelta_nonneg, ?_⟩
  obtain ⟨option, hoption, a, -, rfl⟩ := hof
  exact hfits.deltas option (hcatalog option (List.mem_of_find?_eq_some hoption))

/-- The deltas of a line add up to little. -/
theorem sum_priceDelta_le (hvalid : item.valid = true)
    (h : List.Forall₂ (OptionOf catalog.options (assignmentsOf catalog item))
      (item.modifierOptionIds.getD []) options) :
    (options.map ResolvedOption.priceDelta).sum ≤ int4Max * 50 := by
  apply sum_le_of_length (by decide)
  · intro n hn
    obtain ⟨o, ho, rfl⟩ := List.mem_map.mp hn
    exact (priceDelta_int4 hfits hcatalog h o ho).2
  · rw [List.length_map, ← h.length_eq]
    exact CreateTransactionItemDto.options_le hvalid

/-- The sum of the deltas is exact as a number. -/
theorem sum_priceDelta_exact (hvalid : item.valid = true)
    (h : List.Forall₂ (OptionOf catalog.options (assignmentsOf catalog item))
      (item.modifierOptionIds.getD []) options) :
    (options.map ResolvedOption.priceDelta).foldl addNumber 0 =
      (options.map ResolvedOption.priceDelta).sum := by
  have hle := sum_priceDelta_le hfits hcatalog hvalid h
  have hbound : int4Max * 50 ≤ (exactBound : Int) := by decide
  rw [foldl_addNumber_exact (fun n hn => ?_) (Int.le_refl 0) (by omega)]
  · exact Int.zero_add _
  · obtain ⟨o, ho, rfl⟩ := List.mem_map.mp hn
    exact (priceDelta_int4 hfits hcatalog h o ho).1

end Options

-- ============================================================================
-- The rows of a sale
-- ============================================================================

/-- The range of the totals, each of which has passed `money`. -/
theorem checkoutTotals_inRange {tenant : Tenant} {discount : Int} {items : List ValidatedItem}
    {totals : Totals} (h : checkoutTotals tenant discount items = .ok totals) :
    InRange totals.subtotal ∧ InRange totals.tax ∧ InRange totals.total ∧
      totals.subtotal = (items.map ValidatedItem.lineSubtotal).sum ∧
      totals.discount = discount ∧ 0 < totals.total := by
  unfold checkoutTotals at h
  obtain ⟨totals', hprice, hpositive⟩ := Checked.bind_ok.mp h
  split at hpositive
  · cases hpositive
  · rename_i hpos
    obtain rfl := Except.ok.inj hpositive
    unfold priceTotals at hprice
    simp only at hprice
    split at hprice
    · cases hprice
    · obtain ⟨hrange, heq⟩ := Checked.then_ok.mp hprice
      have hrange' := moneys_ok.mp hrange
      obtain rfl := Except.ok.inj heq
      refine ⟨hrange' _ (by simp), hrange' _ (by simp), hrange' _ (by simp), rfl, rfl, ?_⟩
      omega

/-- A part of a sum of amounts is not larger than the sum. -/
theorem le_sum_of_mem {xs : List Int} (hpos : ∀ x ∈ xs, 0 ≤ x) {x : Int} (hx : x ∈ xs) :
    x ≤ xs.sum := List.single_le_sum hpos x hx

section Sale

variable {R : Token → Prop} {tx : TransactionClient} {user : JwtPayload} {dto : CheckoutDto}
  {mode : CheckoutMode} {sale : Sale} {r : TransactionResponse} {seen : List Db} {db : Db}
  (h : NewSale R tx user dto mode sale r seen db) (hseen : ∀ s ∈ seen, s = db)
  (hfits : db.Fits) (hwell : Wellformed dto)
include h hseen hfits hwell

omit hwell hfits in
/-- The catalog the sale was computed with is that of the database. -/
theorem Transactions.NewSale.catalog_mem :
    (∀ p ∈ sale.catalog.products, p ∈ db.catalog.products) ∧
      ∀ o ∈ sale.catalog.options, o ∈ db.catalog.modifierOptions := by
  obtain ⟨s, hs, hproducts⟩ := h.loaded.products
  obtain ⟨s', hs', hoptions⟩ := h.loaded.options
  have hdb := hseen s hs
  have hdb' := hseen s' hs'
  subst hdb hdb'
  constructor
  · intro p hp
    rw [hproducts] at hp
    exact List.mem_of_mem_filter hp
  · intro o ho
    rw [hoptions] at ho
    exact List.mem_of_mem_filter ho

/-- What is computed of a line fits. -/
structure Transactions.ValidatedItem.Fits (i : ValidatedItem) : Prop where
  quantity : Int4 i.quantity
  price : Int4 i.product.price
  cost : Int4 i.product.cost
  effectivePrice : Int8 i.effectivePrice
  options : ∀ o ∈ i.options, Int4 o.priceDelta

theorem Transactions.NewSale.items_fit : ∀ i ∈ sale.items, i.Fits := by
  intro i hi
  obtain ⟨hproducts, hoptions⟩ := h.catalog_mem hseen
  obtain ⟨item, hitem, hvalidated⟩ := forall₂_mem_right (Checked.mapM_ok.mp h.built.items) i hi
  obtain ⟨product, options, hline, rfl⟩ := validateItem_ok hvalidated
  have hvalid := hwell.items item hitem
  have hproduct := hfits.prices product (hproducts product (List.mem_of_find?_eq_some hline.found))
  have hsum := sum_priceDelta_le hfits hoptions hvalid hline.chosen
  have hprice : Int4 product.price := ⟨product.price_nonneg, hproduct.1⟩
  refine ⟨CreateTransactionItemDto.quantity_int4 hvalid, hprice,
    ⟨product.cost_nonneg, hproduct.2⟩, ⟨hline.price_nonneg, ?_⟩,
    priceDelta_int4 hfits hoptions hline.chosen⟩
  have hmax : int4Max + int4Max * 50 ≤ int8Max := by decide
  have hbase := hprice.2
  show product.price + _ ≤ int8Max
  omega

/-- The subtotal of a line is a part of that of the sale. -/
theorem Transactions.NewSale.lineSubtotal_int8 : ∀ i ∈ sale.items, Int8 i.lineSubtotal := by
  have hitems := h.items_fit hseen hfits hwell
  have hnonneg : ∀ i ∈ sale.items, 0 ≤ i.lineSubtotal := fun i hi =>
    mul_nonneg (hitems i hi).effectivePrice.1 (hitems i hi).quantity.1
  obtain ⟨hsubtotal, -, -, hsum, -⟩ := checkoutTotals_inRange h.built.totals
  intro i hi
  have hle : i.lineSubtotal ≤ (sale.items.map ValidatedItem.lineSubtotal).sum := by
    apply le_sum_of_mem
    · intro n hn
      obtain ⟨j, hj, rfl⟩ := List.mem_map.mp hn
      exact hnonneg j hj
    · exact List.mem_map_of_mem hi
  have hmax := hsubtotal.int8.2
  exact ⟨hnonneg i hi, by omega⟩

omit hseen hfits in
theorem Transactions.NewSale.transaction_fits : sale.rows.transaction.Fits := by
  obtain ⟨hsubtotal, htax, htotal, -, hdiscount, -⟩ := checkoutTotals_inRange h.built.totals
  have hin : InRange sale.totals.discount := hdiscount ▸ hwell.discount
  obtain ⟨env, henv⟩ := h.built.transaction
  rw [henv]
  exact ⟨hsubtotal.int8, hin.int8, htax.int8, htotal.int8⟩

theorem Transactions.NewSale.rows_fit : ∀ i ∈ sale.rows.items, i.Fits := by
  intro row hrow
  obtain ⟨i, hi, env, rfl⟩ := forall₂_mem_right h.built.itemRows row hrow
  have hitem := h.items_fit hseen hfits hwell i hi
  have hprice : ∀ n ∈ some i.product.price, Int8 n := by
    rintro _ ⟨⟩
    exact hitem.price.int8
  have heffective : ∀ n ∈ some i.effectivePrice, Int8 n := by
    rintro _ ⟨⟩
    exact hitem.effectivePrice
  exact ⟨hitem.quantity, hitem.effectivePrice, hitem.cost.int8,
    h.lineSubtotal_int8 hseen hfits hwell i hi, hprice, heffective⟩

theorem Transactions.NewSale.modifiers_fit :
    ∀ m ∈ sale.rows.modifiers, Int4 m.priceDeltaSnapshot := by
  intro m hm
  obtain ⟨env, hmodifiers⟩ := h.built.modifiers
  rw [hmodifiers] at hm
  obtain ⟨m0, hm0, id, createdAt, rfl⟩ := mem_stored hm
  -- the snapshot is one of the options of some line
  obtain ⟨ms, hms, hmem⟩ := List.mem_flatten.mp hm0
  obtain ⟨k, hk, heq⟩ := List.mem_iff_getElem.mp hms
  rw [List.getElem_zipWith] at heq
  subst heq
  obtain ⟨o, ho, rfl⟩ := List.mem_map.mp hmem
  exact (h.items_fit hseen hfits hwell _ (List.getElem_mem _)).options o ho

omit hseen hfits in
theorem Transactions.NewSale.payment_fits : sale.rows.payment.Fits := by
  obtain ⟨-, -, htotal, -, -, -⟩ := checkoutTotals_inRange h.built.totals
  have hamounts := h.built.amounts
  have htender : ∀ n ∈ sale.tender, InRange n ∧ sale.totals.total ≤ n := by
    intro n hn
    refine ⟨?_, hamounts.covered n hn⟩
    rw [hamounts.tender] at hn
    have hvalid := hwell.payment
    unfold CreateTransactionPaymentDto.valid at hvalid
    simp only [Bool.and_eq_true] at hvalid
    unfold resolveTender at hn
    cases hmethod : dto.payment.method with
    | cash =>
        rw [hmethod] at hn
        rcases Option.or_eq_some_iff.mp hn with hreceived | ⟨-, hamount⟩
        · exact safeAmount_some.mp (hreceived ▸ hvalid.1.2)
        · exact safeAmount_some.mp (hamount ▸ hvalid.1.1.2)
    | qris =>
        rw [hmethod] at hn
        cases hn
    | edc =>
        rw [hmethod] at hn
        cases hn
  obtain ⟨env, henv⟩ := h.built.payment
  rw [henv]
  refine ⟨htotal.int8, fun n hn => (htender n hn).1.int8, fun n hn => ?_⟩
  obtain ⟨t, ht, rfl⟩ := Option.map_eq_some_iff.mp hn
  obtain ⟨hrange, hcovered⟩ := htender t ht
  have hmax := hrange.int8.2
  have hpos := htotal.1
  exact ⟨by omega, by omega⟩

/-- **The rows of a sale fit.** -/
theorem Transactions.NewSale.fits (hwf : Wf db) :
    (sale.rows.sales db.sales).Fits ∧ (sale.rows.stocks db.stocks).Fits := by
  have hquantities : ∀ e ∈ sale.rows.entries, 0 ≤ e.2 := by
    rw [h.built.entries]
    exact stockByProduct_nonneg fun i hi => (h.items_fit hseen hfits hwell i hi).quantity.1
  -- no more is taken than a row has, and a row fits
  have hentries : ∀ e ∈ sale.rows.entries, e.2 ≤ int4Max := by
    intro e he
    obtain ⟨x, hx, hle⟩ := h.covered e he
    have hstock := (hfits.stocks.stocks x (List.mem_of_mem_filter hx)).2
    omega
  refine ⟨⟨?_, ?_, ?_, ?_⟩, ?_, ?_, hfits.stocks.adjustments⟩
  · intro t ht
    rcases List.mem_append.mp ht with hold | hnew
    · exact hfits.sales.transactions t hold
    · exact List.mem_singleton.mp hnew ▸ h.transaction_fits hwell
  · intro i hi
    rcases List.mem_append.mp hi with hold | hnew
    · exact hfits.sales.items i hold
    · exact h.rows_fit hseen hfits hwell i hnew
  · intro m hm
    rcases List.mem_append.mp hm with hold | hnew
    · exact hfits.sales.modifiers m hold
    · exact h.modifiers_fit hseen hfits hwell m hnew
  · intro p hp
    rcases List.mem_append.mp hp with hold | hnew
    · exact hfits.sales.payments p hold
    · exact List.mem_singleton.mp hnew ▸ h.payment_fits hwell
  · intro r' hr'
    refine ⟨h.nonNeg hwf (fun r hr => (hfits.stocks.stocks r hr).1) r' hr', ?_⟩
    change r' ∈ SaleRows.takeStock _ _ db.stocks.productStocks at hr'
    rw [takeStock_eq] at hr'
    obtain ⟨s, hs, rfl⟩ := List.mem_map.mp hr'
    have hstock := (hfits.stocks.stocks s hs).2
    split
    · have hdemand : 0 ≤ demand sale.rows.entries s.productId := by
        apply List.sum_nonneg
        intro n hn
        obtain ⟨e, he, rfl⟩ := List.mem_map.mp hn
        exact hquantities e (List.mem_of_mem_filter he)
      show s.stock - demand sale.rows.entries s.productId ≤ int4Max
      omega
    · exact hstock
  · intro m hm
    rcases List.mem_append.mp hm with hold | hnew
    · exact hfits.stocks.movements m hold
    · obtain ⟨env, hmovements⟩ := h.built.movements
      rw [hmovements] at hnew
      obtain ⟨x, hx, rfl⟩ := List.mem_map.mp hnew
      have hmem := List.fst_mem_of_mem_zipIdx hx
      have hmin := hquantities x.1 hmem
      have hmax := hentries x.1 hmem
      show -int4Max - 1 ≤ -x.1.2 ∧ -x.1.2 ≤ int4Max
      omega

end Sale

end Kasir
