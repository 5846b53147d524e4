/-
  Kasir.Replays

  The request a conversion is compared with when it is sent again.

  The order is CONVERTED, and nothing but the sale is left of the request that
  converted it.  So a sale request is rebuilt from the rows of the sale, validated
  and normalized like any other, and compared with the rows it was rebuilt from.
  It is valid, and it is equal to the first request in everything but the user and
  the payment, in whatever order the rows are read.
-/

import Kasir.SaleContents

namespace Kasir.Transactions

open Txn Js HeldOrders

-- ============================================================================
-- Records of one transaction
-- ============================================================================

/-- An item with its modifiers in no order. -/
def ItemRecord.content (r : ItemRecord) : TransactionItem × Multiset TransactionItemModifier :=
  (r.item, r.modifiers)

/-- Two records have the same rows, in whatever order. -/
structure SameRows (a b : TransactionRecord) : Prop where
  transaction : a.transaction = b.transaction
  items : (a.items.map ItemRecord.content).Perm (b.items.map ItemRecord.content)
  payments : a.payments.Perm b.payments

/-- The record of a sale that a conversion sent again reads. -/
def linkedRecord (sales : Sales) (rank : Id → Nat) (t : Transaction) : TransactionRecord where
  transaction := t
  items :=
    (unordered rank TransactionItem.id (sales.transactionItems.filter (itemOf t))).map fun i =>
      { item := i
        modifiers := unordered rank TransactionItemModifier.id
          (sales.transactionItemModifiers.filter (modifierOf i)) }
  payments := unordered rank Payment.id (sales.payments.filter (paymentOf t))

/-- Records that list all rows of a transaction have the same rows. -/
theorem sameRows_of_perm {a b : TransactionRecord} {sales : Sales} {t : Transaction}
    {readA readB : TransactionItem → List TransactionItemModifier} {itemsA itemsB : List TransactionItem}
    (ht : a.transaction = b.transaction)
    (ha : a.items = itemsA.map fun i => { item := i, modifiers := readA i })
    (hb : b.items = itemsB.map fun i => { item := i, modifiers := readB i })
    (hreadA : ∀ i, (readA i).Perm (sales.transactionItemModifiers.filter (modifierOf i)))
    (hreadB : ∀ i, (readB i).Perm (sales.transactionItemModifiers.filter (modifierOf i)))
    (hitemsA : itemsA.Perm (sales.transactionItems.filter (itemOf t)))
    (hitemsB : itemsB.Perm (sales.transactionItems.filter (itemOf t)))
    (hpayments : a.payments.Perm b.payments) : SameRows a b := by
  refine ⟨ht, ?_, hpayments⟩
  rw [ha, hb, List.map_map, List.map_map]
  have hcontent : ∀ i, (ItemRecord.content ∘ fun i : TransactionItem =>
        ({ item := i, modifiers := readA i } : ItemRecord)) i =
      (ItemRecord.content ∘ fun i : TransactionItem =>
        ({ item := i, modifiers := readB i } : ItemRecord)) i := by
    intro i
    exact Prod.ext rfl (Multiset.coe_eq_coe.mpr ((hreadA i).trans (hreadB i).symm))
  rw [funext hcontent]
  exact (hitemsA.trans hitemsB.symm).map _

theorem sameRows_recordOf (sales : Sales) (rank rank' : Id → Nat) (t : Transaction) :
    SameRows (recordOf sales rank t) (recordOf sales rank' t) :=
  sameRows_of_perm rfl rfl rfl (fun _ => orderBy_perm ..) (fun _ => orderBy_perm ..)
    (orderBy_perm ..) (orderBy_perm ..) ((orderBy_perm ..).trans (orderBy_perm ..).symm)

theorem sameRows_linkedRecord (sales : Sales) (rank rank' : Id → Nat) (t : Transaction) :
    SameRows (linkedRecord sales rank t) (recordOf sales rank' t) :=
  sameRows_of_perm rfl rfl rfl (fun _ => orderBy_perm ..) (fun _ => orderBy_perm ..)
    (orderBy_perm ..) (orderBy_perm ..) ((orderBy_perm ..).trans (orderBy_perm ..).symm)

namespace SameRows

variable {a b : TransactionRecord} (h : SameRows a b)
include h

/-- The text of the lines does not depend on the order. -/
theorem persistedLines : a.persistedLines = b.persistedLines := by
  unfold TransactionRecord.persistedLines
  rw [sort_eq_sort_iff]
  refine perm_map_of_iff (fun x _ y _ hxy => ?_) h.items
  obtain ⟨hitem, hmodifiers⟩ := Prod.mk.inj hxy
  rw [hitem]
  exact lineKey_congr ((Multiset.coe_eq_coe.mp hmodifiers).filterMap _) _ _ _

theorem sameRequest (user : JwtPayload) (dto : CheckoutDto) :
    Transactions.sameRequest a user dto = Transactions.sameRequest b user dto := by
  have hlength := h.payments.length_eq
  have hlines := h.persistedLines
  unfold Transactions.sameRequest
  rw [h.transaction, hlines, hlength]
  by_cases hone : b.payments.length = 1
  · obtain ⟨p, hp⟩ := List.length_eq_one_iff.mp hone
    have hpa : a.payments = [p] := List.perm_singleton.mp (hp ▸ h.payments)
    rw [hp, hpa]
  · have hno : (b.payments.length == 1) = false := beq_eq_false_iff_ne.mpr hone
    rw [hno, Bool.and_false, Bool.false_and, Bool.false_and, Bool.false_and, Bool.false_and]

/-- With one payment, the amounts are the same up to order. -/
theorem amounts {p : Payment} (hp : b.payments = [p]) : a.amounts.Perm b.amounts := by
  have hpa : a.payments = [p] := List.perm_singleton.mp (hp ▸ h.payments)
  have hitems : (a.items.map ItemRecord.item).Perm (b.items.map ItemRecord.item) := by
    have hmap := h.items.map Prod.fst
    rwa [List.map_map, List.map_map] at hmap
  have hflat : ∀ items : List ItemRecord, (items.flatMap fun i =>
        [i.item.unitPrice, i.item.unitCost, i.item.subtotal] ++ i.item.basePriceSnapshot.toList ++
          i.item.effectivePriceSnapshot.toList) =
      (items.map ItemRecord.item).flatMap fun i =>
        [i.unitPrice, i.unitCost, i.subtotal] ++ i.basePriceSnapshot.toList ++
          i.effectivePriceSnapshot.toList := fun items => by rw [List.flatMap_map]
  unfold TransactionRecord.amounts
  rw [hpa, hp, h.transaction, hflat, hflat]
  exact List.Perm.append_right _ (List.Perm.append_left _ (hitems.flatMap_right _))

end SameRows

-- ============================================================================
-- A sale that answers a request
-- ============================================================================

/-- The transaction is stored and is the one this request asks for. -/
structure Answers (t : Transaction) (user : JwtPayload) (dto : CheckoutDto) (db : Db) : Prop where
  mem : t ∈ db.sales.transactions
  hasKey : hasKey user.tenantId dto.clientTransactionId t = true
  same : ∀ rank, sameRequest (recordOf db.sales rank t) user dto = true
  readable : ∀ rank, toResponse (recordOf db.sales rank t) noLegacyProducts =
    .ok ((recordOf db.sales rank t).response noLegacyProducts)

/-- A sale that has been found answers the request. -/
theorem FoundSale.answers {user : JwtPayload} {dto : CheckoutDto} {r : TransactionResponse} {db : Db}
    (h : FoundSale user dto r db) : ∃ t, Answers t user dto db ∧ r.transactionId = t.id := by
  obtain ⟨rank, t, ht, hkey, hsame, hr⟩ := h
  obtain ⟨hamounts, hresponse⟩ := Checked.then_ok.mp hr
  have hone : (recordOf db.sales rank t).payments.length = 1 := by
    unfold sameRequest at hsame
    simp only [Bool.and_eq_true, beq_iff_eq] at hsame
    exact hsame.1.1.2
  obtain ⟨p, hp⟩ := List.length_eq_one_iff.mp hone
  refine ⟨t, ⟨ht, hkey, fun rank' => ?_, fun rank' => ?_⟩, ?_⟩
  · rw [(sameRows_recordOf db.sales rank' rank t).sameRequest]
    exact hsame
  · have hperm := (sameRows_recordOf db.sales rank' rank t).amounts hp
    have hrange : moneys (recordOf db.sales rank' t).amounts = .ok () :=
      moneys_ok.mpr fun v hv => moneys_ok.mp hamounts v (hperm.mem_iff.mp hv)
    exact Checked.then_ok.mpr ⟨hrange, rfl⟩
  · rw [← Except.ok.inj hresponse]
    rfl

/-- It stays so. -/
theorem Answers.later {t : Transaction} {user : JwtPayload} {dto : CheckoutDto} {a b : Db}
    (h : Answers t user dto a) (hgrows : Sales.Grows a.sales b.sales) : Answers t user dto b where
  mem := hgrows.mem h.mem
  hasKey := h.hasKey
  same := fun rank => by
    rw [recordOf_grows hgrows h.mem]
    exact h.same rank
  readable := fun rank => by
    rw [recordOf_grows hgrows h.mem]
    exact h.readable rank

-- ============================================================================
-- The rebuilt request
-- ============================================================================

/-- The request of a conversion of the order. -/
structure ConversionRequest (o : HeldOrder) (dto : CheckoutDto) : Prop where
  wellformed : Wellformed dto
  normal : coreRequest dto .v1 = dto
  outletId : dto.outletId = toLowerCase o.outletId
  session : dto.cashierSessionId = some (toLowerCase o.originCashierSessionId)
  customer : dto.customerId = none

section Rebuilt

variable {t : Transaction} {user : JwtPayload} {dto : CheckoutDto} {o : HeldOrder} {db : Db}
  (h : Answers t user dto db) (rank : Id → Nat)
include h

/-- The texts of the rebuilt lines are those of the lines of the request. -/
theorem linkedRecord_keys :
    (((linkedRecord db.sales rank t).items.map replayItem).map CreateTransactionItemDto.key).Perm
      (dto.items.map CreateTransactionItemDto.key) := by
  have hlines := (asked_of_sameRequest (h.same rank)).lines
  rw [← (sameRows_linkedRecord db.sales rank rank t).persistedLines] at hlines
  have hperm := sort_eq_sort_iff.mp hlines
  rw [List.map_map]
  exact hperm

/-- Every rebuilt line is a line of the request. -/
theorem replayItem_line {r : ItemRecord} (hr : r ∈ (linkedRecord db.sales rank t).items) :
    ∃ i ∈ dto.items, SameLine (replayItem r) i := by
  have hkey := (linkedRecord_keys h rank).subset (List.mem_map_of_mem (List.mem_map_of_mem hr))
  obtain ⟨i, hi, heq⟩ := List.mem_map.mp hkey
  obtain ⟨hproduct, hquantity, hnote, hoptions⟩ := lineKey_eq heq
  exact ⟨i, hi, hproduct.symm, hquantity.symm, hnote.symm, hoptions.symm⟩

variable (hdto : ConversionRequest o dto)
include hdto

/-- It is valid, and in normal form. -/
theorem replayItem_valid {r : ItemRecord} (hr : r ∈ (linkedRecord db.sales rank t).items) :
    (replayItem r).valid = true ∧ (replayItem r).Normal := by
  obtain ⟨i, hi, hsame⟩ := replayItem_line h rank hr
  exact ⟨hsame.valid (hdto.wellformed.items i hi),
    hsame.normal (hdto.wellformed.normal hdto.normal i hi)⟩

theorem replayItem_transformed {r : ItemRecord} (hr : r ∈ (linkedRecord db.sales rank t).items) :
    (replayItem r).transformed = replayItem r := by
  unfold CreateTransactionItemDto.transformed
  rw [(replayItem_valid h rank hdto hr).2.note]

theorem replayItem_normalized {r : ItemRecord} (hr : r ∈ (linkedRecord db.sales rank t).items) :
    (replayItem r).normalized = replayItem r := by
  obtain ⟨-, hnormal⟩ := replayItem_valid h rank hdto hr
  unfold CreateTransactionItemDto.normalized
  rw [hnormal.productId, hnormal.note, hnormal.options]
  rfl

variable (input : CheckoutHeldOrderDto)

/-- The rebuilt request is valid. -/
theorem replayDto_valid (hinput : input.valid = true) :
    (replayDto o (linkedRecord db.sales rank t) input).transformed.valid = true := by
  have hasked := asked_of_sameRequest (h.same rank)
  unfold CheckoutHeldOrderDto.valid at hinput
  simp only [Bool.and_eq_true] at hinput
  obtain ⟨⟨-, hkey⟩, hpayment⟩ := hinput
  have houtlet : isUUID o.outletId = true := by
    have hlower := hdto.wellformed.outletId
    rwa [hdto.outletId, isUUID_toLowerCase] at hlower
  have hsession : isUUID o.originCashierSessionId = true := by
    have hlower := hdto.wellformed.session _ hdto.session
    rwa [isUUID_toLowerCase] at hlower
  have hsome : (linkedRecord db.sales rank t).items ≠ [] := by
    intro hnil
    have hlength := (linkedRecord_keys h rank).length_eq
    rw [hnil] at hlength
    exact hdto.wellformed.some (List.length_eq_zero_iff.mp (by simpa using hlength.symm))
  have hdiscount : InRange t.discount := by
    have hrange := hdto.wellformed.discount
    rwa [← hasked.discount] at hrange
  unfold CheckoutDto.valid
  simp only [CheckoutDto.transformed, replayDto, Bool.and_eq_true, List.all_eq_true]
  refine ⟨⟨⟨⟨⟨⟨⟨(isUUID_toLowerCase _).trans hkey, houtlet⟩, hsession⟩, trivial⟩, ?_⟩, ?_⟩,
    safeAmount_some.mpr hdiscount⟩, hpayment⟩
  · simpa using hsome
  · intro i hi
    obtain ⟨j, hj, rfl⟩ := List.mem_map.mp hi
    obtain ⟨r, hr, rfl⟩ := List.mem_map.mp hj
    rw [replayItem_transformed h rank hdto hr]
    exact (replayItem_valid h rank hdto hr).1

/-- The core lets it in. -/
theorem prepareCore_replayDto (hinput : input.valid = true) :
    prepareCore (replayDto o (linkedRecord db.sales rank t) input) .v1 =
      .ok (coreRequest (replayDto o (linkedRecord db.sales rank t) input) .v1) :=
  prepareCore_of_valid (replayDto_valid h rank hdto input hinput)

/-- Its lines are those of the request. -/
theorem requestedLines_replayDto :
    (coreRequest (replayDto o (linkedRecord db.sales rank t) input) .v1).requestedLines =
      dto.requestedLines := by
  have hitems : (coreRequest (replayDto o (linkedRecord db.sales rank t) input) .v1).items =
      (linkedRecord db.sales rank t).items.map replayItem := by
    simp only [coreRequest, normalizeCheckoutDto, CheckoutDto.transformed, replayDto, List.map_map]
    refine List.map_congr_left fun r hr => ?_
    rw [Function.comp_apply, Function.comp_apply, replayItem_transformed h rank hdto hr,
      replayItem_normalized h rank hdto hr]
  unfold CheckoutDto.requestedLines
  rw [sort_eq_sort_iff, hitems]
  exact linkedRecord_keys h rank

/-- **The rebuilt request** is the sale's own but for the user and the payment. -/
theorem sameRequest_replayDto (user' : JwtPayload) {db' : Db} (h' : Answers t user dto db')
    (rank' : Id → Nat) :
    sameRequest (recordOf db'.sales rank' t) user'
        (coreRequest (replayDto o (linkedRecord db.sales rank t) input) .v1) = true ↔
      user.sub = user'.sub ∧ dto.payment.method = input.payment.method ∧
        resolveTender dto.payment = resolveTender input.payment := by
  have hasked := asked_of_sameRequest (h.same rank)
  have hdiscount : dto.discount.getD 0 = t.discount := hasked.discount.symm
  rw [sameRequest_iff (asked_of_sameRequest (h'.same rank')),
    requestedLines_replayDto h rank hdto input, hdto.outletId, hdto.session, hdto.customer, hdiscount]
  constructor
  · rintro ⟨huser, -, -, -, -, hpayment, -⟩
    exact ⟨huser, hpayment⟩
  · rintro ⟨huser, hpayment⟩
    exact ⟨huser, rfl, rfl, rfl, rfl, hpayment, rfl⟩

end Rebuilt

end Kasir.Transactions
