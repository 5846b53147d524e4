/-
  Kasir.Requests

  What a sale request asks for, apart from how it is written.

  A key may be sent again with the same request only.  The code compares texts: the
  lines of either request as sorted JSON, in which the options of a line are sorted
  too.  Two requests compare equal exactly if they ask for the same: `LogicalRequest`.
-/

import Kasir.Transactions.Checkout
import Kasir.Lines
import Mathlib.Data.Finset.Dedup

namespace Kasir.Transactions

open Js

-- ============================================================================
-- Requests apart from their notation
-- ============================================================================

/-- A line asked for: its options are a set. -/
@[ext] structure Line where
  productId : Id
  quantity : Int
  note : Option String
  options : Finset Id

/-- What is asked for: its lines are in no order. -/
@[ext] structure LogicalRequest where
  userId : Id
  outletId : Id
  cashierSessionId : Option Id
  customerId : Option Id
  discount : Int
  method : PaymentMethod
  tender : Option Int
  lines : Multiset Line

/-- The line an item asks for: identifiers in either case are the same, and an absent
    note is not an empty one. -/
def CreateTransactionItemDto.line (i : CreateTransactionItemDto) : Line where
  productId := toLowerCase i.productId
  quantity := i.quantity
  note := i.note.map trim
  options := ((i.modifierOptionIds.getD []).map toLowerCase).toFinset

/-- What a user asks for: a legacy sale has no session, an absent discount is none,
    and cash may be given in either field. -/
def logicalRequest (user : JwtPayload) (dto : CheckoutDto) (mode : CheckoutMode) :
    LogicalRequest where
  userId := toLowerCase user.sub
  outletId := toLowerCase dto.outletId
  cashierSessionId :=
    match mode with
    | .v1 => dto.cashierSessionId.map toLowerCase
    | .legacySync => none
  customerId := dto.customerId.map toLowerCase
  discount := dto.discount.getD 0
  method := dto.payment.method
  tender := resolveTender dto.payment
  lines := (dto.items.map CreateTransactionItemDto.line : List Line)

/-- An item in normal form. -/
structure CreateTransactionItemDto.Normal (i : CreateTransactionItemDto) : Prop where
  productId : toLowerCase i.productId = i.productId
  note : i.note.map trim = i.note
  options : (i.modifierOptionIds.getD []).map toLowerCase = i.modifierOptionIds.getD []
  nodup : (i.modifierOptionIds.getD []).Nodup

theorem line_normalized (i : CreateTransactionItemDto) :
    i.transformed.normalized.line = i.line := by
  simp [CreateTransactionItemDto.line, CreateTransactionItemDto.normalized,
    CreateTransactionItemDto.transformed]

/-- Normalizing a request does not change what it asks for. -/
theorem logicalRequest_coreRequest (user : JwtPayload) (dto : CheckoutDto) (mode : CheckoutMode) :
    logicalRequest user.normalized (coreRequest dto mode) mode = logicalRequest user dto mode := by
  have hlines : CreateTransactionItemDto.line ∘ CreateTransactionItemDto.normalized ∘
      CreateTransactionItemDto.transformed = CreateTransactionItemDto.line :=
    funext line_normalized
  cases mode <;>
    simp [logicalRequest, coreRequest, normalizeCheckoutDto, CheckoutDto.transformed,
      JwtPayload.normalized, hlines]

/-- The same line, its options in another order. -/
structure SameLine (i j : CreateTransactionItemDto) : Prop where
  productId : i.productId = j.productId
  quantity : i.quantity = j.quantity
  note : i.note = j.note
  options : (i.modifierOptionIds.getD []).Perm (j.modifierOptionIds.getD [])

/-- The same lines in another order. -/
def Reordered (xs ys : List CreateTransactionItemDto) : Prop :=
  ∃ zs, xs.Perm zs ∧ List.Forall₂ SameLine zs ys

/-- Neither order matters for what is asked for. -/
theorem logicalRequest_reordered {dto : CheckoutDto} {items : List CreateTransactionItemDto}
    (h : Reordered dto.items items) (user : JwtPayload) (mode : CheckoutMode) :
    logicalRequest user { dto with items } mode = logicalRequest user dto mode := by
  obtain ⟨zs, hperm, hsame⟩ := h
  have hlines : items.map CreateTransactionItemDto.line = zs.map CreateTransactionItemDto.line := by
    clear hperm
    induction hsame with
    | nil => rfl
    | cons hxy _ ih =>
        rw [List.map_cons, List.map_cons, ih]
        congr 1
        unfold CreateTransactionItemDto.line
        rw [hxy.productId, hxy.quantity, hxy.note,
          List.toFinset_eq_of_perm _ _ (hxy.options.map toLowerCase)]
  have hmultiset : (items.map CreateTransactionItemDto.line : Multiset Line) =
      (dto.items.map CreateTransactionItemDto.line : List Line) := by
    rw [hlines]
    exact Multiset.coe_eq_coe.mpr (hperm.map _).symm
  unfold logicalRequest
  rw [hmultiset]

-- ============================================================================
-- The text of a line
-- ============================================================================

/-- The text of a line determines it, up to the order of its options. -/
theorem lineKey_eq {p p' : String} {q q' : Int} {n n' : Option String} {o o' : List String}
    (h : lineKey p q n o = lineKey p' q' n' o') : p = p' ∧ q = q' ∧ n = n' ∧ o.Perm o' := by
  unfold lineKey at h
  -- field by field, from the front
  have h1 := List.append_cancel_left (String.ofList_injective h)
  obtain ⟨hp, h2⟩ := Json.string_prefixCode.cancel h1
  have h3 := List.append_cancel_left h2
  rw [← List.append_assoc (Json.number q), ← List.append_assoc (Json.number q')] at h3
  obtain ⟨hq, h4⟩ := Json.number_prefixCode.cancel h3
  have h5 := List.append_cancel_left h4
  obtain ⟨hn, h6⟩ := Json.nullable_prefixCode.cancel h5
  have h7 := List.append_cancel_left h6
  obtain ⟨ho, -⟩ := Json.array_prefixCode.cancel h7
  exact ⟨hp, hq, hn, sort_eq_sort_iff.mp ho⟩

theorem lineKey_congr {o o' : List String} (h : o.Perm o') (p : String) (q : Int)
    (n : Option String) : lineKey p q n o = lineKey p q n o' := by
  unfold lineKey
  rw [sort_eq_sort_iff.mpr h]

/-- The text of an item. -/
def CreateTransactionItemDto.key (i : CreateTransactionItemDto) : String :=
  lineKey i.productId i.quantity i.note (i.modifierOptionIds.getD [])

/-- Items in normal form have the same text exactly if they ask for the same line. -/
theorem key_eq_iff {i j : CreateTransactionItemDto} (hi : i.Normal) (hj : j.Normal) :
    i.key = j.key ↔ i.line = j.line := by
  have hoptions : (i.modifierOptionIds.getD []).Perm (j.modifierOptionIds.getD []) ↔
      (i.modifierOptionIds.getD []).toFinset = (j.modifierOptionIds.getD []).toFinset :=
    (List.toFinset_eq_iff_perm_dedup.trans (by rw [hi.nodup.dedup, hj.nodup.dedup])).symm
  unfold CreateTransactionItemDto.key
  rw [Line.ext_iff]
  simp only [CreateTransactionItemDto.line, hi.productId, hj.productId, hi.note, hj.note,
    hi.options, hj.options, ← hoptions]
  constructor
  · exact lineKey_eq
  · rintro ⟨hp, hq, hn, ho⟩
    rw [hp, hq, hn, lineKey_congr ho]

/-- Lists whose elements are told apart by `f` as by `g` agree up to order under both
    or under neither. -/
theorem perm_map_of_iff {α β γ : Type} {f : α → β} {g : α → γ} {xs ys : List α}
    (hfg : ∀ x ∈ xs, ∀ y ∈ ys, f x = f y → g x = g y) (h : (xs.map f).Perm (ys.map f)) :
    (xs.map g).Perm (ys.map g) := by
  have hys : List.Forall₂ (fun a y => a = f y) (ys.map f) ys := by
    rw [List.forall₂_map_left_iff]
    exact List.forall₂_same.mpr fun _ _ => rfl
  obtain ⟨zs, hzs, hperm⟩ := List.perm_comp_forall₂ h hys
  rw [List.forall₂_map_left_iff] at hzs
  have hmaps : xs.map g = zs.map g := by
    rw [← List.forall₂_eq_eq_eq, List.forall₂_map_left_iff, List.forall₂_map_right_iff]
    rw [List.forall₂_iff_get] at hzs ⊢
    refine ⟨hzs.1, fun k hk hk' => ?_⟩
    have hmem : zs.get ⟨k, hk'⟩ ∈ ys := hperm.mem_iff.mp (List.get_mem _ _)
    exact hfg _ (List.get_mem _ _) _ hmem (hzs.2 k hk hk')
  rw [hmaps]
  exact hperm.map g

/-- The lines of requests compare equal exactly if they are the same lines. -/
theorem requestedLines_eq_iff {dto dto' : CheckoutDto} (h : ∀ i ∈ dto.items, i.Normal)
    (h' : ∀ i ∈ dto'.items, i.Normal) :
    dto.requestedLines = dto'.requestedLines ↔
      (dto.items.map CreateTransactionItemDto.line : Multiset Line) =
        (dto'.items.map CreateTransactionItemDto.line : List Line) := by
  unfold CheckoutDto.requestedLines
  rw [sort_eq_sort_iff, Multiset.coe_eq_coe]
  constructor
  · exact perm_map_of_iff (f := CreateTransactionItemDto.key)
      fun i hi j hj => (key_eq_iff (h i hi) (h' j hj)).mp
  · exact perm_map_of_iff (g := CreateTransactionItemDto.key)
      fun i hi j hj => (key_eq_iff (h i hi) (h' j hj)).mpr

-- ============================================================================
-- The comparison with a stored sale
-- ============================================================================

/-- The stored sale is that of this request, in normal form. -/
structure TransactionRecord.Asked (rec : TransactionRecord) (user : JwtPayload)
    (dto : CheckoutDto) : Prop where
  userId : rec.transaction.userId = user.sub
  outletId : rec.transaction.outletId = dto.outletId
  cashierSessionId : rec.transaction.cashierSessionId = dto.cashierSessionId
  customerId : rec.transaction.customerId = dto.customerId
  discount : rec.transaction.discount = dto.discount.getD 0
  payment : ∃ p, rec.payments = [p] ∧ p.method = dto.payment.method ∧
    (p.method = .cash → some (p.amountReceived.getD p.amount) = resolveTender dto.payment) ∧
    (p.method ≠ .cash → p.amountReceived = none ∧ p.changeAmount = none)
  lines : rec.persistedLines = dto.requestedLines

/-- Without cash nothing is tendered. -/
theorem resolveTender_of_ne_cash {p : CreateTransactionPaymentDto} (h : p.method ≠ .cash) :
    resolveTender p = none := by
  unfold resolveTender
  cases hmethod : p.method with
  | cash => exact absurd hmethod h
  | qris => rfl
  | edc => rfl

/-- Cash is tendered, in one field or the other. -/
theorem resolveTender_of_cash {p : CreateTransactionPaymentDto} (hvalid : p.valid = true)
    (h : p.method = .cash) : ∃ t, resolveTender p = some t ∧ InRange t := by
  unfold CreateTransactionPaymentDto.valid CreateTransactionPaymentDto.transportShape at hvalid
  unfold resolveTender
  simp only [h, Bool.and_eq_true, bne_iff_ne, ne_eq] at hvalid ⊢
  obtain ⟨⟨⟨hshape, hamount⟩, hreceived⟩, -⟩ := hvalid
  cases hr : p.amountReceived with
  | some n =>
      rw [hr] at hreceived
      exact ⟨n, rfl, by simpa [safeAmount, InRange] using hreceived⟩
  | none =>
      cases ha : p.amount with
      | some n =>
          rw [ha] at hamount
          exact ⟨n, rfl, by simpa [safeAmount, InRange] using hamount⟩
      | none => simp [hr, ha] at hshape

/-- The payment of a sale is that of another request if it has the same method and
    tender. -/
theorem samePayment_iff {payment : Payment} {dto dto' : CheckoutDto}
    (hmethod : payment.method = dto.payment.method)
    (hcash : payment.method = .cash →
      some (payment.amountReceived.getD payment.amount) = resolveTender dto.payment)
    (hother : payment.method ≠ .cash → payment.amountReceived = none ∧ payment.changeAmount = none) :
    samePayment (some payment) dto' = true ↔
      dto.payment.method = dto'.payment.method ∧
        resolveTender dto.payment = resolveTender dto'.payment := by
  unfold samePayment
  dsimp only
  by_cases hsame : payment.method = dto'.payment.method
  · rw [if_neg (not_not.mpr hsame), ← hmethod]
    by_cases hm : payment.method = .cash
    · have hm' : dto'.payment.method = .cash := hsame.symm.trans hm
      rw [hm']
      simp only [hcash hm, beq_iff_eq, hm, true_and]
    · have hnone : resolveTender dto.payment = none := resolveTender_of_ne_cash (hmethod ▸ hm)
      have hnone' : resolveTender dto'.payment = none := resolveTender_of_ne_cash (hsame ▸ hm)
      obtain ⟨hreceived, hchange⟩ := hother hm
      rw [hnone, hnone', hreceived, hchange, ← hsame]
      cases hcase : payment.method with
      | cash => exact absurd hcase hm
      | qris => exact ⟨fun _ => ⟨rfl, rfl⟩, fun _ => rfl⟩
      | edc => exact ⟨fun _ => ⟨rfl, rfl⟩, fun _ => rfl⟩
  · rw [if_pos hsame, ← hmethod]
    exact ⟨fun h => (nomatch h), fun h => absurd h.1 hsame⟩

/-- **The comparison** with a stored sale compares requests. -/
theorem sameRequest_iff {existing : TransactionRecord} {user user' : JwtPayload}
    {dto dto' : CheckoutDto} (h : existing.Asked user dto) :
    sameRequest existing user' dto' = true ↔
      user.sub = user'.sub ∧ dto.outletId = dto'.outletId ∧
      dto.cashierSessionId = dto'.cashierSessionId ∧ dto.customerId = dto'.customerId ∧
      dto.discount.getD 0 = dto'.discount.getD 0 ∧
      (dto.payment.method = dto'.payment.method ∧
        resolveTender dto.payment = resolveTender dto'.payment) ∧
      dto.requestedLines = dto'.requestedLines := by
  obtain ⟨p, hp, hmethod, hcash, hother⟩ := h.payment
  have hpayment : samePayment (some p) dto' = true ↔ _ := samePayment_iff hmethod hcash hother
  unfold sameRequest
  rw [hp, List.head?_cons, List.length_singleton]
  simp only [Bool.and_eq_true, beq_iff_eq, h.userId, h.outletId, h.cashierSessionId, h.customerId,
    h.discount, h.lines, Json.array_injective.eq_iff, hpayment, and_true, and_assoc]

/-- A stored sale that compares equal to a request is that of the request. -/
theorem asked_of_sameRequest {existing : TransactionRecord} {user : JwtPayload} {dto : CheckoutDto}
    (h : sameRequest existing user dto = true) : existing.Asked user dto := by
  unfold sameRequest at h
  simp only [Bool.and_eq_true, beq_iff_eq] at h
  obtain ⟨⟨⟨⟨⟨⟨⟨huser, houtlet⟩, hsession⟩, hcustomer⟩, hdiscount⟩, hone⟩, hpayment⟩, hlines⟩ := h
  obtain ⟨p, hp⟩ := List.length_eq_one_iff.mp hone
  refine ⟨huser, houtlet, hsession, hcustomer, hdiscount, ⟨p, hp, ?_⟩,
    Json.array_injective hlines⟩
  rw [hp, List.head?_cons] at hpayment
  unfold samePayment at hpayment
  dsimp only at hpayment
  by_cases hmethod : p.method = dto.payment.method
  · rw [if_neg (not_not.mpr hmethod)] at hpayment
    refine ⟨hmethod, fun hcash => ?_, fun hcash => ?_⟩
    · rw [← hmethod, hcash] at hpayment
      exact beq_iff_eq.mp hpayment
    · have hnone : (p.amountReceived.isNone && p.changeAmount.isNone) = true := by
        rw [← hmethod] at hpayment
        cases hcase : p.method with
        | cash => exact absurd hcase hcash
        | qris => rwa [hcase] at hpayment
        | edc => rwa [hcase] at hpayment
      simpa [Option.isNone_iff_eq_none] using hnone
  · rw [if_pos hmethod] at hpayment
    cases hpayment

/-- A request in normal form. -/
structure NormalRequest (user : JwtPayload) (dto : CheckoutDto) (mode : CheckoutMode) : Prop where
  user : user.normalized = user
  request : coreRequest dto mode = dto
  items : ∀ i ∈ dto.items, i.Normal

/-- Between requests in normal form the comparison is equality of what is asked for. -/
theorem sameRequest_iff_logical {existing : TransactionRecord} {user user' : JwtPayload}
    {dto dto' : CheckoutDto} {mode mode' : CheckoutMode} (h : existing.Asked user dto)
    (hnormal : NormalRequest user dto mode) (hnormal' : NormalRequest user' dto' mode') :
    sameRequest existing user' dto' = true ↔
      logicalRequest user dto mode = logicalRequest user' dto' mode' := by
  have hfields : ∀ {u : JwtPayload} {d : CheckoutDto} {m : CheckoutMode}, NormalRequest u d m →
      logicalRequest u d m =
        { userId := u.sub, outletId := d.outletId, cashierSessionId := d.cashierSessionId
          customerId := d.customerId, discount := d.discount.getD 0, method := d.payment.method
          tender := resolveTender d.payment
          lines := (d.items.map CreateTransactionItemDto.line : List Line) } := by
    intro u d m hn
    have hsub := congrArg JwtPayload.sub hn.user
    have houtlet := congrArg CheckoutDto.outletId hn.request
    have hsession := congrArg CheckoutDto.cashierSessionId hn.request
    have hcustomer := congrArg CheckoutDto.customerId hn.request
    simp only [JwtPayload.normalized, coreRequest, normalizeCheckoutDto, CheckoutDto.transformed]
      at hsub houtlet hsession hcustomer
    unfold logicalRequest
    rw [hsub, houtlet, hcustomer]
    congr 1
  rw [sameRequest_iff h, hfields hnormal, hfields hnormal',
    requestedLines_eq_iff hnormal.items hnormal'.items, LogicalRequest.ext_iff]
  simp only [and_assoc]

-- ============================================================================
-- Requests that were let in
-- ============================================================================

/-- What the validators have checked of a request, in either mode. -/
structure Wellformed (dto : CheckoutDto) : Prop where
  outletId : isUUID dto.outletId = true
  session : ∀ s ∈ dto.cashierSessionId, isUUID s = true
  some : dto.items ≠ []
  items : ∀ i ∈ dto.items, i.valid = true
  discount : InRange (dto.discount.getD 0)
  payment : dto.payment.valid = true

theorem safeAmount_some {n : Int} : safeAmount (some n) = true ↔ InRange n := by
  simp [safeAmount, InRange]

/-- Normalizing a valid item leaves it valid. -/
theorem valid_normalized {i : CreateTransactionItemDto} (h : i.transformed.valid = true) :
    i.transformed.normalized.valid = true := by
  unfold CreateTransactionItemDto.valid at h ⊢
  simp only [CreateTransactionItemDto.transformed, CreateTransactionItemDto.normalized,
    Bool.and_eq_true, isUUID_toLowerCase, Option.map_map, trim_comp_trim, List.map_map,
    toLowerCase_comp_toLowerCase, List.length_map] at h ⊢
  obtain ⟨⟨⟨⟨hproduct, hmin⟩, hmax⟩, hoptions⟩, hnote⟩ := h
  refine ⟨⟨⟨⟨hproduct, hmin⟩, hmax⟩, ?_⟩, hnote⟩
  simp only [decide_eq_true_eq]
  cases hids : i.modifierOptionIds with
  | none => exact ⟨⟨Nat.zero_le _, List.nodup_nil⟩, rfl⟩
  | some ids =>
      rw [hids] at hoptions
      simp only [Bool.and_eq_true, decide_eq_true_eq] at hoptions
      obtain ⟨⟨hlen, hnodup⟩, hall⟩ := hoptions
      refine ⟨⟨hlen, hnodup⟩, ?_⟩
      rw [List.all_eq_true] at hall ⊢
      intro x hx
      obtain ⟨y, hy, rfl⟩ := List.mem_map.mp hx
      exact (isUUID4_toLowerCase y).trans (hall y hy)

/-- A valid item is in normal form once it is normalized. -/
theorem normal_normalized {i : CreateTransactionItemDto} (h : i.transformed.valid = true) :
    i.transformed.normalized.Normal := by
  have hnormal := valid_normalized h
  refine ⟨toLowerCase_toLowerCase _, ?_, ?_, ?_⟩
  · simp [CreateTransactionItemDto.normalized]
  · simp [CreateTransactionItemDto.normalized]
  · unfold CreateTransactionItemDto.valid at hnormal
    simp only [CreateTransactionItemDto.normalized, Bool.and_eq_true, decide_eq_true_eq,
      List.map_map, toLowerCase_comp_toLowerCase] at hnormal
    exact hnormal.1.2.1.2

/-- The rules of an item, with absent options as none. -/
theorem valid_iff {i : CreateTransactionItemDto} : i.valid = true ↔
    isUUID i.productId = true ∧ 1 ≤ i.quantity ∧ i.quantity ≤ int4Max ∧
    (i.modifierOptionIds.getD []).length ≤ 50 ∧
    ((i.modifierOptionIds.getD []).map toLowerCase).Nodup ∧
    (∀ x ∈ i.modifierOptionIds.getD [], isUUID4 x = true) ∧
    ∀ note ∈ i.note, validatorLength note ≤ 255 := by
  unfold CreateTransactionItemDto.valid
  rw [Bool.and_eq_true]
  cases i.note with
  | none =>
      cases i.modifierOptionIds with
      | none => simp [and_assoc]
      | some ids => simp [and_assoc, List.all_eq_true]
  | some note =>
      cases i.modifierOptionIds with
      | none => simp [and_assoc]
      | some ids => simp [and_assoc, List.all_eq_true]

/-- The order of the options does not matter for an item's rules. -/
theorem SameLine.valid {i j : CreateTransactionItemDto} (h : SameLine i j) (hj : j.valid = true) :
    i.valid = true := by
  rw [valid_iff] at hj ⊢
  obtain ⟨hproduct, hmin, hmax, hlen, hnodup, hall, hnote⟩ := hj
  rw [h.productId, h.quantity, h.note, h.options.length_eq]
  refine ⟨hproduct, hmin, hmax, hlen, ?_, fun x hx => hall x (h.options.mem_iff.mp hx), hnote⟩
  exact (h.options.map toLowerCase).nodup_iff.mpr hnodup

theorem SameLine.normal {i j : CreateTransactionItemDto} (h : SameLine i j) (hj : j.Normal) :
    i.Normal := by
  have hfixed : ∀ x ∈ i.modifierOptionIds.getD [], toLowerCase x = x := by
    intro x hx
    have hid : (j.modifierOptionIds.getD []).map toLowerCase = (j.modifierOptionIds.getD []).map id := by
      rw [hj.options, List.map_id]
    exact List.map_inj_left.mp hid x (h.options.mem_iff.mp hx)
  refine ⟨?_, ?_, ?_, h.options.nodup_iff.mpr hj.nodup⟩
  · rw [h.productId]
    exact hj.productId
  · rw [h.note]
    exact hj.note
  · exact (List.map_congr_left hfixed).trans (List.map_id _)

/-- A valid request is well formed once it is normalized. -/
theorem wellformed_of_valid {input : CheckoutDto} (h : input.transformed.valid = true)
    (mode : CheckoutMode) : Wellformed (coreRequest input mode) := by
  unfold CheckoutDto.valid at h
  simp only [CheckoutDto.transformed, Bool.and_eq_true, List.all_eq_true, List.mem_map,
    forall_exists_index, and_imp, forall_apply_eq_imp_iff₂] at h
  obtain ⟨⟨⟨⟨⟨⟨⟨-, houtlet⟩, hsession⟩, -⟩, hne⟩, hitems⟩, hdiscount⟩, hpayment⟩ := h
  have hne' : input.items ≠ [] := by simpa using hne
  refine ⟨(isUUID_toLowerCase _).trans houtlet, fun s hs => ?_, ?_, fun i hi => ?_, ?_, hpayment⟩
  · cases mode with
    | legacySync => cases hs
    | v1 =>
        obtain ⟨t, ht, rfl⟩ := Option.mem_map.mp hs
        have hinput : input.cashierSessionId = some t := ht
        rw [hinput] at hsession
        exact (isUUID_toLowerCase t).trans hsession
  · simpa [coreRequest, normalizeCheckoutDto, CheckoutDto.transformed] using hne'
  · simp only [coreRequest, normalizeCheckoutDto, CheckoutDto.transformed, List.map_map] at hi
    obtain ⟨j, hj, rfl⟩ := List.mem_map.mp hi
    exact valid_normalized (hitems j hj)
  · show InRange (input.discount.getD 0)
    cases hd : input.discount with
    | none => exact ⟨le_refl 0, by decide⟩
    | some n =>
        rw [hd] at hdiscount
        exact safeAmount_some.mp hdiscount

/-- A legacy sale is well formed as a request. -/
theorem wellformed_of_legacy {input : LegacySyncTransactionDto} (h : input.valid = true) :
    Wellformed (coreRequest input.toCheckoutDto .legacySync) := by
  unfold LegacySyncTransactionDto.valid at h
  simp only [Bool.and_eq_true, List.all_eq_true, decide_eq_true_eq] at h
  obtain ⟨⟨⟨⟨⟨⟨-, houtlet⟩, -⟩, hne⟩, hitems⟩, hmethod⟩, hamount⟩ := h
  have hne' : input.items ≠ [] := by simpa using hne
  refine ⟨(isUUID_toLowerCase _).trans houtlet, fun s hs => (nomatch hs), ?_, fun i hi => ?_,
    ?_, ?_⟩
  · simpa [coreRequest, normalizeCheckoutDto, CheckoutDto.transformed,
      LegacySyncTransactionDto.toCheckoutDto] using hne'
  · simp only [coreRequest, normalizeCheckoutDto, CheckoutDto.transformed, List.map_map,
      LegacySyncTransactionDto.toCheckoutDto] at hi
    obtain ⟨j, hj, rfl⟩ := List.mem_map.mp hi
    refine valid_normalized ?_
    obtain ⟨⟨hproduct, hmin⟩, hmax⟩ := hitems j hj
    simp [CreateTransactionItemDto.valid, CreateTransactionItemDto.transformed, hproduct, hmin, hmax]
  · exact ⟨le_refl (0 : Int), (by decide : (0 : Int) ≤ maxSafeInteger)⟩
  · have hrange : safeAmount (some input.payment.amount) = true := hamount
    simp [CreateTransactionPaymentDto.valid, CreateTransactionPaymentDto.transportShape, coreRequest,
      normalizeCheckoutDto, CheckoutDto.transformed, LegacySyncTransactionDto.toCheckoutDto, hmethod,
      hrange, show safeAmount none = true from rfl]

/-- What normalizing leaves as it is stays the same line. -/
theorem item_of_normal {dto : CheckoutDto} {mode : CheckoutMode} (h : coreRequest dto mode = dto) :
    ∀ i ∈ dto.items, i.transformed.normalized = i := by
  have hitems := congrArg CheckoutDto.items h
  simp only [coreRequest, normalizeCheckoutDto, CheckoutDto.transformed, List.map_map] at hitems
  have hid : dto.items.map (CreateTransactionItemDto.normalized ∘
      CreateTransactionItemDto.transformed) = dto.items.map id := by
    rw [hitems, List.map_id]
  exact List.map_inj_left.mp hid

/-- The lines of a well-formed request in normal form. -/
theorem Wellformed.normal {dto : CheckoutDto} {mode : CheckoutMode} (h : Wellformed dto)
    (hnormal : coreRequest dto mode = dto) : ∀ i ∈ dto.items, i.Normal := by
  intro i hi
  have hsame := item_of_normal hnormal i hi
  have hnote : i.note.map trim = i.note := by
    have hnotes := congrArg CreateTransactionItemDto.note hsame
    simpa [CreateTransactionItemDto.normalized, CreateTransactionItemDto.transformed] using hnotes
  have htransformed : i.transformed = i := by
    unfold CreateTransactionItemDto.transformed
    rw [hnote]
  have hvalid : i.transformed.valid = true := by
    rw [htransformed]
    exact h.items i hi
  rw [← hsame]
  exact normal_normalized hvalid

end Kasir.Transactions
