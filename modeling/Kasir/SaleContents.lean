/-
  Kasir.SaleContents

  What the rows of a sale contain.

  The rows are written from a request, from the catalog the call has read and from
  values derived of both: an item for each line, its modifiers behind it under
  identifiers paired by position, one payment, one movement for each tracked
  product.  Here each pairing is undone: an item is related to the line it is of,
  its modifiers to the options of the line, a movement to the lines of its product.
-/

import Kasir.SaleHistory
import Kasir.Requests

namespace Kasir.Transactions

open Txn

-- ============================================================================
-- Lists that correspond
-- ============================================================================

section Forall₂

variable {α β : Type} {R S : α → β → Prop} {xs : List α} {ys : List β}

/-- To relate the elements of related lists, they may be taken from the lists. -/
theorem forall₂_imp_mem (h : List.Forall₂ R xs ys)
    (hRS : ∀ x y, x ∈ xs → y ∈ ys → R x y → S x y) : List.Forall₂ S xs ys := by
  induction h with
  | nil => exact .nil
  | cons hxy _ ih =>
      refine .cons (hRS _ _ (List.mem_cons_self ..) (List.mem_cons_self ..) hxy) ?_
      exact ih fun x y hx hy => hRS x y (List.mem_cons_of_mem _ hx) (List.mem_cons_of_mem _ hy)

theorem forall₂_and (h : List.Forall₂ R xs ys) (h' : List.Forall₂ S xs ys) :
    List.Forall₂ (fun x y => R x y ∧ S x y) xs ys := by
  induction h with
  | nil => exact .nil
  | cons hxy _ ih =>
      obtain ⟨hxy', hrest⟩ := List.forall₂_cons.mp h'
      exact .cons ⟨hxy, hxy'⟩ (ih hrest)

/-- Every element of the second list has a partner in the first one. -/
theorem forall₂_mem_right (h : List.Forall₂ R xs ys) : ∀ y ∈ ys, ∃ x ∈ xs, R x y := by
  induction h with
  | nil => exact fun y hy => nomatch hy
  | cons hxy _ ih =>
      intro y hy
      rcases List.mem_cons.mp hy with rfl | hy
      · exact ⟨_, List.mem_cons_self .., hxy⟩
      · obtain ⟨x, hx, hR⟩ := ih y hy
        exact ⟨x, List.mem_cons_of_mem _ hx, hR⟩

end Forall₂

-- ============================================================================
-- Modifiers and their items
-- ============================================================================

/-- `createMany` supplies identifiers and times, and changes nothing else. -/
theorem map_filter_stored {α : Type} (p : TransactionItemModifier → Bool)
    (f : TransactionItemModifier → α)
    (hp : ∀ m id createdAt, p { m with id, createdAt } = p m)
    (hf : ∀ m id createdAt, f { m with id, createdAt } = f m)
    (rows : List TransactionItemModifier) (env : Env) :
    ((TransactionItemModifier.stored rows env).filter p).map f = (rows.filter p).map f := by
  unfold TransactionItemModifier.stored
  -- the positions count from anywhere
  generalize 0 = n
  induction rows generalizing n with
  | nil => rfl
  | cons m rows ih =>
      rw [List.zipIdx_cons, List.map_cons, List.filter_cons, List.filter_cons, hp]
      cases p m with
      | true =>
          rw [if_pos rfl, if_pos rfl, List.map_cons, List.map_cons, hf, ih]
      | false =>
          rw [if_neg Bool.false_ne_true, if_neg Bool.false_ne_true, ih]

/-- The snapshots of a line belong to the row of the line. -/
theorem modifierOf_modifierRows {user : JwtPayload} {tid : Id} {i : ValidatedItem}
    {row row' : TransactionItem} (htenant : row'.tenantId = user.tenantId) :
    ∀ m ∈ modifierRows user tid i row, modifierOf row' m = (row.id == row'.id) := by
  intro m hm
  obtain ⟨o, -, rfl⟩ := List.mem_map.mp hm
  simp [modifierOf, htenant]

/-- Among the snapshots of all lines, those of a row are the ones made for it. -/
theorem filter_modifierSnapshots {user : JwtPayload} {tid : Id} {items : List ValidatedItem}
    {rows : List TransactionItem}
    (h : List.Forall₂ (fun i row => ∃ env, row = itemRow user tid i env) items rows)
    (hnodup : (rows.map TransactionItem.id).Nodup) :
    List.Forall₂ (fun i row => (modifierSnapshots user tid items rows).filter (modifierOf row) =
      modifierRows user tid i row) items rows := by
  induction h with
  | nil => exact .nil
  | @cons i row items rows hrow hrest ih =>
      rw [List.map_cons, List.nodup_cons] at hnodup
      have htenant : row.tenantId = user.tenantId := by
        obtain ⟨env, rfl⟩ := hrow
        rfl
      have hsplit : modifierSnapshots user tid (i :: items) (row :: rows) =
          modifierRows user tid i row ++ modifierSnapshots user tid items rows := rfl
      have hown : (modifierRows user tid i row).filter (modifierOf row) =
          modifierRows user tid i row := by
        refine List.filter_eq_self.mpr fun m hm => ?_
        rw [modifierOf_modifierRows htenant m hm, beq_self_eq_true]
      have hothers : (modifierSnapshots user tid items rows).filter (modifierOf row) = [] := by
        refine List.filter_eq_nil_iff.mpr fun m hm hown => ?_
        obtain ⟨row', hrow', hid, -⟩ := mem_modifierSnapshots hm
        simp only [modifierOf, Bool.and_eq_true, beq_iff_eq] at hown
        exact hnodup.1 (List.mem_map.mpr ⟨row', hrow', hid.symm.trans hown.1⟩)
      refine .cons ?_ ?_
      · rw [hsplit, List.filter_append, hown, hothers, List.append_nil]
      · -- the rows of the other lines have none of the first line's snapshots
        have hmem : ∀ row' ∈ rows, (modifierRows user tid i row).filter (modifierOf row') = [] := by
          intro row' hrow'
          have htenant' : row'.tenantId = user.tenantId := by
            obtain ⟨j, -, env, rfl⟩ := forall₂_mem_right hrest row' hrow'
            rfl
          refine List.filter_eq_nil_iff.mpr fun m hm hown => ?_
          rw [modifierOf_modifierRows htenant' m hm, beq_iff_eq] at hown
          exact hnodup.1 (List.mem_map.mpr ⟨row', hrow', hown.symm⟩)
        refine forall₂_imp_mem (ih hnodup.2) fun j row' _ hrow' hj => ?_
        rw [hsplit, List.filter_append, hmem row' hrow', List.nil_append, hj]

-- ============================================================================
-- Items and their lines
-- ============================================================================

/-- The modifiers of an item among the rows of its sale. -/
def SaleRows.modifiersOf (rows : SaleRows) (row : TransactionItem) :
    List TransactionItemModifier :=
  rows.modifiers.filter (modifierOf row)

/-- What the snapshot of an option shows. -/
def TransactionItemModifier.shown (m : TransactionItemModifier) :
    Option Id × Option Id × String × String × Int :=
  (m.modifierGroupId, m.modifierOptionId, m.groupNameSnapshot, m.optionNameSnapshot,
    m.priceDeltaSnapshot)

/-- What there is to show of an option. -/
def ResolvedOption.shown (o : ResolvedOption) : Option Id × Option Id × String × String × Int :=
  (some o.modifierGroupId, some o.id, o.groupName, o.optionName, o.priceDelta)

/-- The row and its modifiers record the product and the options. -/
structure Records (row : TransactionItem) (modifiers : List TransactionItemModifier)
    (product : Product) (options : List ResolvedOption) : Prop where
  name : row.productNameSnapshot = some product.name
  sku : row.skuSnapshot = some product.sku
  basePrice : row.basePriceSnapshot = some product.price
  unitCost : row.unitCost = product.cost
  unitPrice : row.unitPrice = priceOf product options
  options : modifiers.map TransactionItemModifier.shown = options.map ResolvedOption.shown

/-- The item of a line, in a sale from a loaded catalog. -/
structure SaleLine (catalog : LoadedCatalog) (rows : SaleRows) (item : CreateTransactionItemDto)
    (row : TransactionItem) : Prop where
  productId : row.productId = item.productId
  quantity : row.quantity = item.quantity
  note : row.noteSnapshot = item.note
  options : (rows.modifiersOf row).map TransactionItemModifier.modifierOptionId =
    (item.modifierOptionIds.getD []).map some
  /-- the base price, and the price deltas of the options -/
  unitPrice : ∃ base, row.basePriceSnapshot = some base ∧ row.unitPrice =
    base + ((rows.modifiersOf row).map TransactionItemModifier.priceDeltaSnapshot).sum
  effectivePrice : row.effectivePriceSnapshot = some row.unitPrice
  subtotal : row.subtotal = row.unitPrice * row.quantity
  /-- the product and the options are those of the catalog -/
  recorded : ∃ product options, LineOk catalog item product options ∧
    Records row (rows.modifiersOf row) product options

theorem SaleLine.named {catalog : LoadedCatalog} {rows : SaleRows} {item : CreateTransactionItemDto}
    {row : TransactionItem} (h : SaleLine catalog rows item row) :
    row.productNameSnapshot.isSome = true := by
  obtain ⟨product, options, -, hrecords⟩ := h.recorded
  rw [hrecords.name]
  rfl

section Built

variable {user : JwtPayload} {dto : CheckoutDto} {sale : Sale}

/-- What a row's modifiers show of the options of its line. -/
theorem Sale.Built.map_modifiersOf (h : sale.Built user dto)
    (hnodup : (sale.rows.items.map TransactionItem.id).Nodup) {α : Type}
    (f : TransactionItemModifier → α) (hf : ∀ m id createdAt, f { m with id, createdAt } = f m) :
    List.Forall₂ (fun i row => (sale.rows.modifiersOf row).map f =
      (modifierRows user sale.rows.transaction.id i row).map f) sale.items sale.rows.items := by
  obtain ⟨env, hmodifiers⟩ := h.modifiers
  refine (filter_modifierSnapshots h.itemRows hnodup).imp fun i row hrow => ?_
  have hstored := map_filter_stored (modifierOf row) f (fun _ _ _ => rfl) hf
    (modifierSnapshots user sale.rows.transaction.id sale.items sale.rows.items) env
  rw [SaleRows.modifiersOf, hmodifiers, hstored, hrow]

/-- **The items are the lines of the request**, one for each, in order. -/
theorem Sale.Built.lines (h : sale.Built user dto)
    (hnodup : (sale.rows.items.map TransactionItem.id).Nodup) :
    List.Forall₂ (SaleLine sale.catalog sale.rows) dto.items sale.rows.items := by
  have hvalid := Checked.mapM_ok.mp h.items
  have hids := h.map_modifiersOf hnodup TransactionItemModifier.modifierOptionId fun _ _ _ => rfl
  have hdeltas := h.map_modifiersOf hnodup TransactionItemModifier.priceDeltaSnapshot
    fun _ _ _ => rfl
  have hshown := h.map_modifiersOf hnodup TransactionItemModifier.shown fun _ _ _ => rfl
  have hrows := forall₂_and (forall₂_and (forall₂_and h.itemRows hids) hdeltas) hshown
  refine forall₂_comp hvalid hrows fun item i row hitem hrow => ?_
  obtain ⟨⟨⟨⟨env, rfl⟩, hids⟩, hdeltas⟩, hshown⟩ := hrow
  obtain ⟨product, options, hline, rfl⟩ := validateItem_ok hitem
  simp only [modifierRows, List.map_map] at hids hdeltas hshown
  exact
    { productId := hline.productId, quantity := rfl, note := rfl
      options := by
        rw [hids, ← hline.optionIds, List.map_map]
        rfl
      unitPrice := ⟨product.price, rfl, by
        rw [hdeltas]
        rfl⟩
      effectivePrice := rfl, subtotal := rfl
      recorded := ⟨product, options, hline,
        { name := rfl, sku := rfl, basePrice := rfl, unitCost := rfl, unitPrice := rfl
          options := hshown }⟩ }

/-- The subtotal is that of the items. -/
theorem Sale.Built.subtotal (h : sale.Built user dto) :
    (sale.items.map ValidatedItem.lineSubtotal).sum =
      (sale.rows.items.map TransactionItem.subtotal).sum := by
  have hsubtotals : sale.items.map ValidatedItem.lineSubtotal =
      sale.rows.items.map TransactionItem.subtotal := by
    refine map_eq_of_forall₂ h.itemRows fun i row hrow => ?_
    obtain ⟨env, rfl⟩ := hrow
    rfl
  rw [hsubtotals]

/-- The totals are those of the items, and the tender covers them. -/
structure Sale.Amounts (sale : Sale) (dto : CheckoutDto) : Prop where
  subtotal : sale.totals.subtotal = (sale.rows.items.map TransactionItem.subtotal).sum
  discount : sale.totals.discount = dto.discount.getD 0
  discount_le : sale.totals.discount ≤ sale.totals.subtotal
  tax : sale.totals.tax = (calculateTax sale.tenant.taxEnabled sale.tenant.taxRate
    (sale.totals.subtotal - sale.totals.discount)).tax
  total : sale.totals.total = sale.totals.subtotal - sale.totals.discount + sale.totals.tax
  positive : 0 < sale.totals.total
  range : InRange sale.totals.total
  tender : sale.tender = resolveTender dto.payment
  covered : ∀ t ∈ sale.tender, sale.totals.total ≤ t

theorem Sale.Built.amounts (h : sale.Built user dto) : sale.Amounts dto := by
  have htotals := h.totals
  have htender := h.tender
  unfold checkoutTotals at htotals
  obtain ⟨totals, hprice, hpositive⟩ := Checked.bind_ok.mp htotals
  split at hpositive
  · cases hpositive
  · rename_i hpos
    obtain rfl := Except.ok.inj hpositive
    unfold priceTotals at hprice
    simp only at hprice
    split at hprice
    · cases hprice
    · rename_i hle
      obtain ⟨hrange, heq⟩ := Checked.then_ok.mp hprice
      have hrange' := moneys_ok.mp hrange
      have htender' : sale.tender = resolveTender dto.payment ∧
          ∀ t ∈ sale.tender, sale.totals.total ≤ t := by
        unfold checkTender at htender
        cases hresolve : resolveTender dto.payment with
        | none =>
            rw [hresolve] at htender
            obtain heq := Except.ok.inj htender
            exact ⟨heq.symm, fun t ht => by rw [← heq] at ht; cases ht⟩
        | some t =>
            rw [hresolve] at htender
            dsimp only at htender
            split at htender
            · cases htender
            · rename_i hcovered
              obtain heq := Except.ok.inj htender
              refine ⟨heq.symm, fun t' ht' => ?_⟩
              rw [← heq, Option.mem_some] at ht'
              omega
      have htotal := calculateTax_total sale.tenant.taxEnabled sale.tenant.taxRate
        ((sale.items.map ValidatedItem.lineSubtotal).sum - dto.discount.getD 0)
      have hfields := Except.ok.inj heq
      rw [h.subtotal] at hle hrange' htotal hfields
      have hsub := congrArg Totals.subtotal hfields
      have hdiscount := congrArg Totals.discount hfields
      have htax := congrArg Totals.tax hfields
      have hsum := congrArg Totals.total hfields
      dsimp only at hsub hdiscount htax hsum
      exact
        { subtotal := hsub.symm, discount := hdiscount.symm
          discount_le := by rw [← hsub, ← hdiscount]; omega
          tax := by rw [← htax, ← hsub, ← hdiscount]
          total := by rw [← hsum, ← hsub, ← hdiscount, ← htax]; exact htotal
          positive := by omega
          range := by rw [← hsum]; exact hrange' _ (by simp)
          tender := htender'.1, covered := htender'.2 }

end Built

-- ============================================================================
-- A stored sale as it is read
-- ============================================================================

section Stored

variable {rows : SaleRows} {db : Db}

/-- A record of a stored sale has the rows of the sale, and no others. -/
theorem SaleRows.Stored.recordOf_eq (h : rows.Stored db) (hlinked : rows.Linked)
    (rank : Id → Nat) : recordOf db.sales rank rows.transaction =
      recordOf (rows.sales {}) rank rows.transaction := by
  have hown : (rows.sales {}).transactionItems.filter (itemOf rows.transaction) = rows.items :=
    List.filter_eq_self.mpr hlinked.items
  have hpayment : (rows.sales {}).payments.filter (paymentOf rows.transaction) = [rows.payment] :=
    List.filter_eq_self.mpr fun p hp => by
      rw [List.mem_singleton.mp hp]
      exact hlinked.payment
  refine recordOf_congr (h.items.trans hown.symm) (fun i hi => ?_) (h.payment.trans hpayment.symm)
  rw [h.items] at hi
  exact h.modifiers i hi

/-- The items of a record with their modifiers, in whatever order they are read. -/
theorem recordOf_items (hlinked : rows.Linked) (rank : Id → Nat) :
    (recordOf (rows.sales {}) rank rows.transaction).items =
      (orderBy rank TransactionItem.createdAt TransactionItem.id rows.items).map fun i =>
        { item := i
          modifiers := orderBy rank TransactionItemModifier.createdAt TransactionItemModifier.id
            (rows.modifiersOf i) } := by
  have hown : (rows.sales {}).transactionItems.filter (itemOf rows.transaction) = rows.items :=
    List.filter_eq_self.mpr hlinked.items
  show List.map _ (orderBy rank _ _ ((rows.sales {}).transactionItems.filter _)) = _
  rw [hown]
  rfl

theorem recordOf_payments (hlinked : rows.Linked) (rank : Id → Nat) :
    (recordOf (rows.sales {}) rank rows.transaction).payments = [rows.payment] := by
  have hown : (rows.sales {}).payments.filter (paymentOf rows.transaction) = [rows.payment] :=
    List.filter_eq_self.mpr fun p hp => by
      rw [List.mem_singleton.mp hp]
      exact hlinked.payment
  show orderBy rank _ _ ((rows.sales {}).payments.filter _) = _
  rw [hown]
  exact List.perm_singleton.mp (orderBy_perm ..)

/-- The amounts of a record do not depend on the order in which it is read. -/
theorem amounts_recordOf_perm (hlinked : rows.Linked) (rank rank' : Id → Nat) :
    (recordOf (rows.sales {}) rank rows.transaction).amounts.Perm
      (recordOf (rows.sales {}) rank' rows.transaction).amounts := by
  unfold TransactionRecord.amounts
  rw [recordOf_payments hlinked, recordOf_payments hlinked, recordOf_items hlinked,
    recordOf_items hlinked]
  simp only [recordOf_transaction, List.flatMap_map]
  refine List.Perm.append_right _ (List.Perm.append_left _ ?_)
  exact ((orderBy_perm ..).trans (orderBy_perm ..).symm).flatMap_right _

end Stored

section Read

variable {R : Token → Prop} {tx : TransactionClient} {user : JwtPayload} {dto : CheckoutDto}
  {mode : CheckoutMode} {sale : Sale} {r : TransactionResponse} {seen : List Db} {before db : Db}

/-- The amounts of a stored sale are in the range of numbers, in whatever order it is
    read. -/
theorem NewSale.amounts_inRange (h : NewSale R tx user dto mode sale r seen before)
    (hstored : sale.rows.Stored db) (rank : Id → Nat) :
    ∀ v ∈ (recordOf db.sales rank sale.rows.transaction).amounts, InRange v := by
  obtain ⟨rank', hresponse⟩ := h.response
  obtain ⟨hamounts, -⟩ := Checked.then_ok.mp hresponse
  have hrange := moneys_ok.mp hamounts
  rw [hstored.recordOf_eq h.built.linked]
  intro v hv
  exact hrange v ((amounts_recordOf_perm h.built.linked rank rank').mem_iff.mp hv)

/-- A stored sale can be answered with. -/
theorem NewSale.toResponse_recordOf (h : NewSale R tx user dto mode sale r seen before)
    (hstored : sale.rows.Stored db) (rank : Id → Nat)
    (legacyProducts : Id → Option LegacyProduct) :
    toResponse (recordOf db.sales rank sale.rows.transaction) legacyProducts =
      .ok ((recordOf db.sales rank sale.rows.transaction).response legacyProducts) :=
  Checked.then_ok.mpr ⟨moneys_ok.mpr (h.amounts_inRange hstored rank), rfl⟩

/-- The text of the lines of a record is that of the lines of the request. -/
theorem Sale.Built.persistedLines (h : sale.Built user dto)
    (hnodup : (sale.rows.items.map TransactionItem.id).Nodup) (rank : Id → Nat) :
    (recordOf (sale.rows.sales {}) rank sale.rows.transaction).persistedLines =
      dto.requestedLines := by
  unfold TransactionRecord.persistedLines CheckoutDto.requestedLines
  rw [recordOf_items h.linked, Js.sort_eq_sort_iff, List.map_map]
  have hkeys : dto.items.map (fun i =>
        lineKey i.productId i.quantity i.note (i.modifierOptionIds.getD [])) =
      sale.rows.items.map fun i => lineKey i.productId i.quantity i.noteSnapshot
        ((sale.rows.modifiersOf i).filterMap TransactionItemModifier.modifierOptionId) := by
    refine map_eq_of_forall₂ (h.lines hnodup) fun item row hline => ?_
    have hoptions : (sale.rows.modifiersOf row).filterMap
        TransactionItemModifier.modifierOptionId = item.modifierOptionIds.getD [] := by
      have hsplit : (sale.rows.modifiersOf row).filterMap
            TransactionItemModifier.modifierOptionId =
          ((sale.rows.modifiersOf row).map TransactionItemModifier.modifierOptionId).filterMap id := by
        rw [List.filterMap_map]
        rfl
      rw [hsplit, hline.options, List.filterMap_map]
      exact List.filterMap_some
    rw [hline.productId, hline.quantity, hline.note, hoptions]
  rw [hkeys]
  have hread : ∀ i : TransactionItem, lineKey i.productId i.quantity i.noteSnapshot
        ((orderBy rank TransactionItemModifier.createdAt TransactionItemModifier.id
          (sale.rows.modifiersOf i)).filterMap TransactionItemModifier.modifierOptionId) =
      lineKey i.productId i.quantity i.noteSnapshot
        ((sale.rows.modifiersOf i).filterMap TransactionItemModifier.modifierOptionId) :=
    fun i => lineKey_congr ((orderBy_perm ..).filterMap _) _ _ _
  have hmap := List.map_congr_left fun i (_ : i ∈ orderBy rank TransactionItem.createdAt
    TransactionItem.id sale.rows.items) => hread i
  refine (List.Perm.of_eq hmap).trans ?_
  exact (orderBy_perm ..).map _

/-- A record of a stored sale is that of its request. -/
theorem Sale.Built.asked (h : sale.Built user dto) (hwell : Wellformed dto)
    (hnodup : (sale.rows.items.map TransactionItem.id).Nodup) (rank : Id → Nat) :
    (recordOf (sale.rows.sales {}) rank sale.rows.transaction).Asked user dto := by
  have hamounts := h.amounts
  obtain ⟨env, htransaction⟩ := h.transaction
  obtain ⟨env', hpayment⟩ := h.payment
  refine ⟨?_, h.outletId, h.cashierSessionId, ?_, ?_, ⟨sale.rows.payment,
    recordOf_payments h.linked rank, ?_, ?_, ?_⟩, h.persistedLines hnodup rank⟩
  · rw [recordOf_transaction, htransaction]
    rfl
  · rw [recordOf_transaction, htransaction]
    rfl
  · rw [recordOf_transaction, htransaction]
    exact hamounts.discount
  · rw [hpayment]
    rfl
  · rw [hpayment]
    intro hcash
    obtain ⟨t, ht, -⟩ := resolveTender_of_cash hwell.payment hcash
    show some (sale.tender.getD _) = _
    rw [hamounts.tender, ht]
    rfl
  · rw [hpayment]
    intro hcash
    have hnone : sale.tender = none := hamounts.tender.trans (resolveTender_of_ne_cash hcash)
    show sale.tender = none ∧ sale.tender.map _ = none
    rw [hnone]
    exact ⟨rfl, rfl⟩

end Read

-- ============================================================================
-- The requests of sales
-- ============================================================================

theorem errorOf_none {α : Type} {x : Except Exc α} (h : errorOf x = none) : ∃ a, x = .ok a := by
  cases x with
  | error e => cases h
  | ok a => exact ⟨a, rfl⟩

/-- A valid payment has an acceptable shape. -/
theorem assertPaymentShape_of_valid {dto : CheckoutDto} (h : dto.payment.valid = true) :
    assertPaymentShape dto = .ok () := by
  unfold CreateTransactionPaymentDto.valid at h
  simp only [Bool.and_eq_true, Option.isNone_iff_eq_none] at h
  obtain ⟨⟨⟨hshape, -⟩, -⟩, hchange⟩ := h
  unfold CreateTransactionPaymentDto.transportShape at hshape
  unfold assertPaymentShape
  dsimp only
  rw [hchange]
  cases hmethod : dto.payment.method <;> cases hamount : dto.payment.amount <;>
    cases hreceived : dto.payment.amountReceived <;> simp_all

/-- Normalizing a valid request leaves it valid. -/
theorem valid_coreRequest {input : CheckoutDto} (h : input.transformed.valid = true) :
    (coreRequest input .v1).transformed.valid = true := by
  have hwell := wellformed_of_valid h .v1
  unfold CheckoutDto.valid at h ⊢
  simp only [CheckoutDto.transformed, Bool.and_eq_true, List.all_eq_true] at h ⊢
  obtain ⟨⟨⟨⟨⟨⟨⟨hkey, -⟩, hsession⟩, hcustomer⟩, -⟩, -⟩, -⟩, -⟩ := h
  refine ⟨⟨⟨⟨⟨⟨⟨(Js.isUUID_toLowerCase _).trans hkey, hwell.outletId⟩, ?_⟩, ?_⟩, ?_⟩, ?_⟩, ?_⟩,
    hwell.payment⟩
  · cases hcase : input.cashierSessionId with
    | none =>
        rw [hcase] at hsession
        cases hsession
    | some sid =>
        rw [hcase] at hsession
        simp only [coreRequest, normalizeCheckoutDto, CheckoutDto.transformed, hcase, Option.map_some]
        exact (Js.isUUID_toLowerCase sid).trans hsession
  · cases hcase : input.customerId with
    | none => simp only [coreRequest, normalizeCheckoutDto, CheckoutDto.transformed, hcase, Option.map_none]
    | some cid =>
        rw [hcase] at hcustomer
        simp only [coreRequest, normalizeCheckoutDto, CheckoutDto.transformed, hcase, Option.map_some]
        exact (Js.isUUID_toLowerCase cid).trans hcustomer
  · simpa using hwell.some
  · intro i hi
    obtain ⟨j, hj, rfl⟩ := List.mem_map.mp hi
    have hnote : j.transformed = j := by
      have hsame := (hwell.normal (coreRequest_coreRequest input .v1) j hj).note
      unfold CreateTransactionItemDto.transformed
      rw [hsame]
    rw [hnote]
    exact hwell.items j hj
  · exact safeAmount_some.mpr hwell.discount

/-- The core lets a valid request in. -/
theorem prepareCore_of_valid {input : CheckoutDto} (h : input.transformed.valid = true) :
    prepareCore input .v1 = .ok (coreRequest input .v1) := by
  have hshape := assertPaymentShape_of_valid (wellformed_of_valid h .v1).payment
  unfold prepareCore assertCheckoutInput
  simp only [h, Bool.not_true, Bool.and_false, Bool.false_eq_true, if_false]
  exact Checked.bind_ok.mpr ⟨_, rfl, Checked.then_ok.mpr ⟨hshape, rfl⟩⟩

/-- The shape is that of the payment, which normalizing leaves as it is. -/
theorem assertPaymentShape_coreRequest (input : CheckoutDto) (mode : CheckoutMode) :
    assertPaymentShape (coreRequest input mode) = assertPaymentShape input.transformed := by
  have hpayment : (coreRequest input mode).payment = input.transformed.payment := rfl
  unfold assertPaymentShape
  rw [hpayment]

theorem assertPaymentShape_transformed (input : CheckoutDto) :
    assertPaymentShape input.transformed = assertPaymentShape input := by
  have hpayment : input.transformed.payment = input.payment := rfl
  unfold assertPaymentShape
  rw [hpayment]

/-- What the core makes of a request that it has parsed. -/
theorem prepareCore_of_parsed {input d : CheckoutDto} {mode : CheckoutMode}
    (hinput : assertCheckoutInput input mode = .ok d)
    (hshape : assertPaymentShape (normalizeCheckoutDto d mode) = .ok ()) :
    prepareCore input mode = .ok (normalizeCheckoutDto d mode) := by
  unfold prepareCore
  rw [hinput]
  exact Checked.then_ok.mpr ⟨hshape, rfl⟩

/-- The core lets in again what `createInternal` has let in. -/
theorem prepareCore_of_prepare {user : JwtPayload} {input : CheckoutDto} {mode : CheckoutMode}
    {x : JwtPayload × CheckoutDto} (h : prepare user input mode = .ok x) :
    prepareCore (coreRequest input mode) mode = .ok (coreRequest input mode) := by
  cases mode with
  | v1 =>
      have hvalid := valid_coreRequest ((prepare_eq (u := x.1) (d := x.2) h).2.2 rfl)
      rw [prepareCore_of_valid hvalid, coreRequest_coreRequest]
  | legacySync =>
      unfold prepare at h
      split at h
      · cases h
      · obtain ⟨validated, hvalidated, h⟩ := Checked.bind_ok.mp h
        obtain ⟨hshape, -⟩ := Checked.then_ok.mp h
        rw [(assertCheckoutInput_eq hvalidated).1] at hshape
        have hshape' : assertPaymentShape (coreRequest (coreRequest input .legacySync) .legacySync) =
            .ok () := by
          rw [assertPaymentShape_coreRequest, assertPaymentShape_transformed,
            assertPaymentShape_coreRequest]
          exact hshape
        have hinput : assertCheckoutInput (coreRequest input .legacySync) .legacySync =
            .ok (coreRequest input .legacySync).transformed := by
          unfold assertCheckoutInput
          exact if_neg (by simp)
        have hcore := prepareCore_of_parsed hinput hshape'
        rw [hcore]
        exact congrArg Except.ok (coreRequest_coreRequest input .legacySync)

/-- What a sale call asks for is well formed, once the call is let in. -/
theorem wellformed_of_precheck {c : Call} {user : JwtPayload} {input : CheckoutDto}
    {mode : CheckoutMode} (hc : saleInput c = some (user, input, mode)) (h : c.precheck = none) :
    Wellformed (coreRequest input mode) := by
  cases c with
  | create user' input' =>
      obtain ⟨⟨u, d⟩, hprepare⟩ := errorOf_none h
      cases hc
      exact wellformed_of_valid ((prepare_eq hprepare).2.2 rfl) .v1
  | createLegacySync user' input' =>
      obtain ⟨x, hx⟩ := errorOf_none h
      obtain ⟨d, hd, -⟩ := Checked.bind_ok.mp hx
      cases hc
      unfold prepareLegacySync at hd
      split at hd
      · cases hd
      · rename_i hvalid
        exact wellformed_of_legacy (by simpa using hvalid)
  | _ => cases hc

/-- What the core has accepted in the V1 mode is well formed. -/
theorem Accepted.wellformed {dto : CheckoutDto} (h : Accepted dto .v1) : Wellformed dto := by
  obtain ⟨input, hinput⟩ := h
  have heq := prepareCore_eq hinput
  subst heq
  obtain ⟨validated, hvalidated, -⟩ := Checked.bind_ok.mp hinput
  exact wellformed_of_valid ((assertCheckoutInput_eq hvalidated).2 rfl) .v1

theorem normalized_normalized (user : JwtPayload) : user.normalized.normalized = user.normalized := by
  simp [JwtPayload.normalized]

/-- A well-formed request that has been normalized is in normal form. -/
theorem Wellformed.normalRequest {user : JwtPayload} {input : CheckoutDto} {mode : CheckoutMode}
    (h : Wellformed (coreRequest input mode)) :
    NormalRequest user.normalized (coreRequest input mode) mode :=
  ⟨normalized_normalized user, coreRequest_coreRequest input mode,
    h.normal (coreRequest_coreRequest input mode)⟩

end Kasir.Transactions

namespace Kasir

open Transactions

section RecordedBy

variable {R : Token → Prop} {e : KasirCommit} {user : JwtPayload} {dto : CheckoutDto}
  {mode : CheckoutMode} {tx : TransactionClient} {sale : Sale} {r : TransactionResponse}

/-- The request of a recorded sale is well formed. -/
theorem RecordedBy.wellformed (h : RecordedBy R e user dto mode tx sale r)
    (hadmitted : e.call.precheck = none) : Wellformed dto := by
  have haccepted := h.made.accepted
  have hcall := h.call
  generalize e.call = c at hcall hadmitted
  generalize e.result = result at hcall
  generalize e.seen = seen at hcall
  generalize e.before = before at hcall
  cases hcall with
  | request hc => exact wellformed_of_precheck hc hadmitted
  | conversion => exact haccepted.wellformed

/-- It is in normal form. -/
theorem RecordedBy.normalRequest (h : RecordedBy R e user dto mode tx sale r)
    (hadmitted : e.call.precheck = none) : NormalRequest user dto mode := by
  have hwell := h.wellformed hadmitted
  have hcall := h.call
  generalize e.call = c at hcall
  generalize e.result = result at hcall
  generalize e.seen = seen at hcall
  generalize e.before = before at hcall
  cases hcall with
  | request => exact hwell.normalRequest
  | conversion => exact hwell.normalRequest

end RecordedBy

end Kasir
