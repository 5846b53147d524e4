/-
  Kasir.Guarantees.History

  History is immutable.

  Three readers show a sale: its detail, its receipt and the figures of shifts and reports.
  They fall back to rows of products that may change, but not for lines with snapshots, and
  every sale of the backend's own has them.  So whatever is called after a sale, all of them
  show it as it was recorded, and the detail and the receipt show the same.
-/

import Kasir.Guarantees.ShiftSummary
import Kasir.Guarantees.Accounting
import Kasir.Reports.Proof

namespace Kasir

open Txn Js Transactions

-- ============================================================================
-- What is shown of a sale
-- ============================================================================

/-- A database with the rows of one sale. -/
def rowsDb (rows : SaleRows) : Db := { sales := rows.sales {} }

/-- The same sale on two receipts, whatever has become of the parties. -/
structure SameReceipt (a b : Receipts.Receipt) : Prop where
  transactionId : a.transactionId = b.transactionId
  clientTransactionId : a.clientTransactionId = b.clientTransactionId
  status : a.status = b.status
  createdAt : a.createdAt = b.createdAt
  items : a.items = b.items
  payment : a.payment = b.payment
  totals : a.totals = b.totals
  change : a.change = b.change

/-- What a sale adds to the products of its shift. -/
def soldIn (s : Shifts.SummarySale) : List (Id × String × Int) :=
  s.items.map fun x =>
    (x.1.productId, (x.1.productNameSnapshot.or x.2).getD Shifts.unknownProduct, x.1.quantity)

/-- The readers show the sale as its rows are, whatever else is in the database. -/
structure Unchanged (rows : SaleRows) (db : Db) : Prop where
  detail : ∀ rank legacy, (recordOf db.sales rank rows.transaction).response legacy =
    (recordOf (rowsDb rows).sales rank rows.transaction).response noLegacyProducts
  receipt : ∀ legacy, SameReceipt ((Receipts.receiptRecordOf db rows.transaction).receipt legacy)
    ((Receipts.receiptRecordOf (rowsDb rows) rows.transaction).receipt noLegacyProducts)
  shift : ∀ x : CashierSession,
    (summarySale x db rows.transaction).payments =
        (summarySale x (rowsDb rows) rows.transaction).payments ∧
      soldIn (summarySale x db rows.transaction) = soldIn (summarySale x (rowsDb rows) rows.transaction)
  report : ∀ scope : Reports.ReportScope,
    Reports.saleValues scope db.sales.transactionItems rows.transaction =
      Reports.saleValues scope rows.items rows.transaction
  topProducts : itemsOf db.sales rows.transaction = rows.items

/-- An item of a detail and one of a receipt say the same. -/
structure SameLine (i : ItemResponse) (j : Receipts.ReceiptItem) : Prop where
  id : j.itemId = i.id
  productId : j.productId = i.productId
  productName : j.productName = i.productName
  sku : j.sku = i.sku
  quantity : j.quantity = i.quantity
  basePrice : j.basePrice = i.basePrice
  effectivePrice : j.effectivePrice = i.effectivePrice
  unitPrice : j.unitPrice = i.unitPrice
  subtotal : j.subtotal = i.subtotal
  note : j.note = i.note
  modifiers : (j.modifiers.map fun m =>
      (m.id, m.modifierGroupId, m.modifierOptionId, m.groupName, m.optionName, m.priceDelta)).Perm
    (i.modifiers.map fun m => (m.id, m.modifierGroupId, m.modifierOptionId, m.groupNameSnapshot,
      m.optionNameSnapshot, m.priceDeltaSnapshot))

/-- A detail and a receipt say the same; items of one moment may stand in another order. -/
structure Agrees (r : TransactionResponse) (c : Receipts.Receipt) : Prop where
  totals : c.totals = { subtotal := r.subtotal, discount := r.discount, tax := r.tax, total := r.total }
  payment : ∃ p, r.payments = [paymentResponse p] ∧ c.payment = some (Receipts.receiptPayment p)
  change : c.change = r.change
  items : ∃ lines, List.Forall₂ SameLine r.items lines ∧ lines.Perm c.items

-- ============================================================================
-- Lines with snapshots
-- ============================================================================

/-- Names and prices of a line with snapshots do not depend on products. -/
theorem itemResponse_named {r : ItemRecord} (h : r.item.productNameSnapshot.isSome = true)
    (legacy legacy' : Id → Option LegacyProduct) :
    itemResponse legacy r = itemResponse legacy' r := by
  unfold itemResponse
  simp only [h, if_true]

theorem receiptItem_named {r : ItemRecord} (h : r.item.productNameSnapshot.isSome = true)
    (legacy legacy' : Id → Option LegacyProduct) :
    Receipts.receiptItem legacy r = Receipts.receiptItem legacy' r := by
  unfold Receipts.receiptItem
  simp only [h, if_true]

/-- The two readers make the same of the same line. -/
theorem sameLine_of_records {r r' : ItemRecord} (hitem : r'.item = r.item)
    (hmodifiers : r'.modifiers.Perm r.modifiers)
    (hnamed : r.item.productNameSnapshot.isSome = true) (legacy legacy' : Id → Option LegacyProduct) :
    SameLine (itemResponse legacy r) (Receipts.receiptItem legacy' r') := by
  have hnamed' : r'.item.productNameSnapshot.isSome = true := by
    rw [hitem]
    exact hnamed
  rw [receiptItem_named hnamed' legacy' legacy]
  constructor
  case modifiers =>
    show ((r'.modifiers.map _).map _).Perm ((r.modifiers.map _).map _)
    rw [List.map_map, List.map_map]
    exact hmodifiers.map _
  all_goals
    unfold Receipts.receiptItem itemResponse
    rw [hitem]

section Stored

variable {rows : SaleRows} {db : Db} (hstored : rows.Stored db) (hlinked : rows.Linked)
  (hnamed : ∀ i ∈ rows.items, i.productNameSnapshot.isSome = true)

include hlinked in
/-- The rows of the sale are stored where there is nothing else. -/
theorem filter_rowsDb :
    (rowsDb rows).sales.transactionItems.filter (itemOf rows.transaction) = rows.items ∧
    (rowsDb rows).sales.payments.filter (paymentOf rows.transaction) = [rows.payment] := by
  constructor
  · exact List.filter_eq_self.mpr hlinked.items
  · apply List.filter_eq_self.mpr
    intro p hp
    rw [List.mem_singleton.mp hp]
    exact hlinked.payment

include hstored hlinked

/-- The receipt finds the rows of the sale. -/
theorem receiptRecordOf_eq :
    (Receipts.receiptRecordOf db rows.transaction).items =
        (Receipts.receiptRecordOf (rowsDb rows) rows.transaction).items ∧
      (Receipts.receiptRecordOf db rows.transaction).payments = [rows.payment] ∧
      (Receipts.receiptRecordOf (rowsDb rows) rows.transaction).payments = [rows.payment] := by
  obtain ⟨hitems, hpayments⟩ := filter_rowsDb hlinked
  have hsingle : Shifts.orderById Payment.createdAt Payment.id [rows.payment] = [rows.payment] :=
    List.perm_singleton.mp (Shifts.orderById_perm ..)
  refine ⟨?_, ?_, ?_⟩
  · unfold Receipts.receiptRecordOf
    dsimp only
    rw [hstored.items, hitems]
    apply List.map_congr_left
    intro i hi
    have hmem : i ∈ rows.items := (Shifts.orderById_perm ..).mem_iff.mp hi
    rw [hstored.modifiers i hmem]
    rfl
  · unfold Receipts.receiptRecordOf
    dsimp only
    rw [hstored.payment]
    exact hsingle
  · unfold Receipts.receiptRecordOf
    dsimp only
    rw [hpayments]
    exact hsingle

include hnamed

/-- **A stored sale is shown as its rows are.** -/
theorem unchanged_of_stored : Unchanged rows db where
  detail := by
    intro rank legacy
    rw [hstored.recordOf_eq hlinked]
    unfold TransactionRecord.response
    congr 1
    apply List.map_congr_left
    intro r hr
    apply itemResponse_named
    have hitem : r.item ∈ rows.items := by
      rw [recordOf_items hlinked] at hr
      obtain ⟨i, hi, rfl⟩ := List.mem_map.mp hr
      exact (orderBy_perm ..).mem_iff.mp hi
    exact hnamed _ hitem
  receipt := by
    intro legacy
    obtain ⟨hitems, hpayments, hpayments'⟩ := receiptRecordOf_eq hstored hlinked
    have hpayment : (Receipts.receiptRecordOf db rows.transaction).payment =
        (Receipts.receiptRecordOf (rowsDb rows) rows.transaction).payment := by
      unfold Receipts.ReceiptRecord.payment
      rw [hpayments, hpayments']
    refine ⟨rfl, rfl, rfl, rfl, ?_, ?_, rfl, ?_⟩
    · show List.map _ _ = List.map _ _
      rw [hitems]
      apply List.map_congr_left
      intro r hr
      apply receiptItem_named
      have hitem : r.item ∈ rows.items := by
        obtain ⟨i, hi, rfl⟩ := List.mem_map.mp hr
        have hmem := (Shifts.orderById_perm ..).mem_iff.mp hi
        rw [(filter_rowsDb hlinked).1] at hmem
        exact hmem
      exact hnamed _ hitem
    · show Option.map _ _ = Option.map _ _
      rw [hpayment]
    · show Receipts.ReceiptRecord.change _ = Receipts.ReceiptRecord.change _
      unfold Receipts.ReceiptRecord.change
      rw [hpayment]
      rfl
  shift := by
    intro x
    obtain ⟨hitems, hpayments⟩ := filter_rowsDb hlinked
    have hsplit : ∀ d : Db, (d.sales.payments.filter fun p =>
        paymentOf rows.transaction p && p.tenantId == x.tenantId && p.status == .paid) =
        (d.sales.payments.filter (paymentOf rows.transaction)).filter fun p =>
          p.tenantId == x.tenantId && p.status == .paid := by
      intro d
      rw [List.filter_filter]
      congr 1
      funext p
      rw [Bool.and_assoc, Bool.and_comm]
    have hsplitItems : ∀ d : Db, (d.sales.transactionItems.filter fun i =>
        itemOf rows.transaction i && i.tenantId == x.tenantId) =
        (d.sales.transactionItems.filter (itemOf rows.transaction)).filter fun i =>
          i.tenantId == x.tenantId := by
      intro d
      rw [List.filter_filter]
      congr 1
      funext i
      rw [Bool.and_comm]
    constructor
    · show List.map _ _ = List.map _ _
      rw [hsplit, hsplit, hstored.payment, hpayments]
    · unfold soldIn summarySale
      dsimp only
      rw [hsplitItems, hsplitItems, hstored.items, hitems, List.map_map, List.map_map]
      apply List.map_congr_left
      intro i hi
      have hmem : i ∈ rows.items :=
        List.mem_of_mem_filter ((Shifts.orderById_perm ..).mem_iff.mp hi)
      -- the name is that of the snapshot
      obtain ⟨name, hname⟩ := Option.isSome_iff_exists.mp (hnamed i hmem)
      simp only [Function.comp_apply, hname, Option.some_or]
  report := by
    intro scope
    have hcost : Reports.itemCost scope db.sales.transactionItems rows.transaction =
        Reports.itemCost scope rows.items rows.transaction := by
      have hsplit : ∀ items : List TransactionItem, (items.filter fun i =>
          i.tenantId == rows.transaction.tenantId && i.transactionId == rows.transaction.id &&
            i.tenantId == scope.tenantId) =
          (items.filter (itemOf rows.transaction)).filter fun i => i.tenantId == scope.tenantId := by
        intro items
        rw [List.filter_filter]
        congr 1
        funext i
        unfold itemOf
        rw [Bool.and_comm, Bool.and_comm (i.tenantId == rows.transaction.tenantId)]
      unfold Reports.itemCost
      rw [hsplit, hsplit, hstored.items, List.filter_eq_self.mpr hlinked.items]
    unfold Reports.saleValues
    rw [hcost]
  topProducts := hstored.items

/-- **A stored sale is shown alike by its detail and by its receipt.** -/
theorem agrees_of_stored (hpays : ∃ dto, Pays rows.transaction dto rows.payment) (rank : Id → Nat)
    (legacy legacy' : Id → Option LegacyProduct) :
    Agrees ((recordOf db.sales rank rows.transaction).response legacy)
      ((Receipts.receiptRecordOf db rows.transaction).receipt legacy') := by
  obtain ⟨dto, hpays⟩ := hpays
  obtain ⟨hitems, hpayments, -⟩ := receiptRecordOf_eq hstored hlinked
  have hrows : (recordOf db.sales rank rows.transaction).payments = [rows.payment] := by
    rw [hstored.recordOf_eq hlinked]
    exact recordOf_payments hlinked rank
  have hfound : (Receipts.receiptRecordOf db rows.transaction).payment = some rows.payment := by
    have hpaid : (rows.payment.status == .paid) = true := beq_iff_eq.mpr hpays.status
    unfold Receipts.ReceiptRecord.payment
    rw [hpayments, List.find?_cons, hpaid]
    rfl
  constructor
  case totals => rfl
  case payment =>
    refine ⟨rows.payment, ?_, ?_⟩
    · show List.map _ _ = _
      rw [hrows]
      rfl
    · show Option.map _ _ = _
      rw [hfound]
      rfl
  case change =>
    have hdetail : ((recordOf db.sales rank rows.transaction).response legacy).change =
        rows.payment.changeAmount := by
      unfold TransactionRecord.response
      rw [hrows]
    rw [hdetail]
    show Receipts.ReceiptRecord.change _ = _
    unfold Receipts.ReceiptRecord.change
    rw [hfound]
    dsimp only
    by_cases hcash : dto.payment.method = .cash
    · obtain ⟨received, -, -, -, hchange⟩ := hpays.cash hcash
      rw [hpays.method, hpays.status, hcash, hchange]
      rfl
    · have hmethod : (rows.payment.method == .cash) = false := by
        rw [hpays.method]
        exact beq_eq_false_iff_ne.mpr hcash
      rw [hmethod, (hpays.cashless hcash).2]
      rfl
  case items =>
    -- the receipt's lines in the order of the detail
    refine ⟨(orderBy rank TransactionItem.createdAt TransactionItem.id rows.items).map fun i =>
      Receipts.receiptItem legacy'
        { item := i
          modifiers := Shifts.orderById TransactionItemModifier.createdAt TransactionItemModifier.id
            (rows.modifiersOf i) }, ?_, ?_⟩
    · show List.Forall₂ SameLine (List.map _ _) _
      rw [hstored.recordOf_eq hlinked, recordOf_items hlinked, List.map_map,
        List.forall₂_map_left_iff, List.forall₂_map_right_iff, List.forall₂_same]
      intro i hi
      have hmem : i ∈ rows.items := (orderBy_perm ..).mem_iff.mp hi
      apply sameLine_of_records
      · rfl
      · exact (Shifts.orderById_perm ..).trans (orderBy_perm ..).symm
      · exact hnamed i hmem
    · show List.Perm _ (List.map _ _)
      rw [hitems]
      show List.Perm _ (List.map _ (List.map _ _))
      rw [(filter_rowsDb hlinked).1, List.map_map]
      exact ((orderBy_perm ..).trans (Shifts.orderById_perm ..).symm).map _

end Stored

-- ============================================================================
-- Readers are answered
-- ============================================================================

/-- `findOne` shows the user this sale. -/
def mayRead (user : JwtPayload) (t : Transaction) (db : Db) (envs : Nat → Env) : Bool :=
  ((Transactions.readScope user).solo db envs 0 id).result.toOption.any fun scope => scope.admits t

/-- The user is shown its receipt. -/
def mayReadReceipt (user : JwtPayload) (t : Transaction) (db : Db) (envs : Nat → Env) : Bool :=
  ((Receipts.receiptScope user).solo db envs 0 id).result.toOption.any fun scope => scope.admits t

section Answered

variable {user : JwtPayload} {id : String} {db : Db} {envs : Nat → Env} {t : Transaction}

theorem solo_of_scope {p : Body ReadScope} (hp : p.Reading)
    (h : ((p.solo db envs 0 fun d => d).result.toOption.any fun scope => scope.admits t) = true) :
    ∃ n scope, (p.solo db envs 0 fun d => d) = ⟨n, fun d => d, .ok scope⟩ ∧ scope.admits t = true := by
  have hlog : (p.solo db envs 0 fun d => d).log = fun d => d := hp.solo_log 0 _
  rcases hsolo : p.solo db envs 0 fun d => d with ⟨n, log, e | scope⟩
  · rw [hsolo] at h
    cases h
  · rw [hsolo] at h hlog
    have hlog' : log = fun d => d := hlog
    exact ⟨n, scope, by rw [hlog'], h⟩

theorem solo_findLegacyProducts (db : Db) (envs : Nat → Env) (tenantId : Id) (rec : TransactionRecord)
    (n : Nat) (log : Db → Db) :
    ∃ n' legacy, (findLegacyProducts tenantId rec).solo db envs n log = ⟨n', log, .ok legacy⟩ := by
  unfold findLegacyProducts loadLegacyProducts
  split
  · exact ⟨n + 1, _, rfl⟩
  · exact ⟨n, _, rfl⟩

variable (hwf : Wf db) (ht : t ∈ db.sales.transactions) (hid : isUUID id = true)
  (hsame : toLowerCase id = t.id)
include hwf ht hsame

/-- The row is found in a scope that admits it. -/
theorem find_admitted {scope : ReadScope} (hadmits : scope.admits t = true) :
    db.sales.transactions.find? (fun x => scope.admits x && x.id == toLowerCase id) = some t := by
  obtain ⟨x, hfind, hx, hkey⟩ := find?_of_mem (p := fun x => scope.admits x && x.id == toLowerCase id)
    ht (by rw [hadmits, hsame, beq_self_eq_true]; rfl)
  rw [Bool.and_eq_true, beq_iff_eq] at hkey
  rw [hfind, eq_of_key (legal_transactions hwf.legal) hx ht (hkey.2.trans hsame)]

include hid

/-- A sale with its amounts in range is answered with. -/
theorem findOne_answers (hread : mayRead user t db envs = true)
    (hrange : ∀ rank, ∀ v ∈ (recordOf db.sales rank t).amounts, InRange v) :
    ∃ r, findOne user id db envs = .ok r := by
  obtain ⟨n, scope, hscope, hadmits⟩ := solo_of_scope (readScope_reading user) hread
  obtain ⟨n', legacy, hlegacy⟩ := solo_findLegacyProducts db envs scope.tenantId
    (recordOf db.sales (envs n).rank t) (n + 1) fun d => d
  refine ⟨(recordOf db.sales (envs n).rank t).response legacy, ?_⟩
  unfold findOne Transactions.findOneBody
  rw [solo_ensure hid, solo_of_bind hscope, Prog.solo_bind, queryRanked, Prog.solo_read]
  dsimp only
  rw [find_admitted hwf ht hsame hadmits, Option.map_some, Prog.require_some, Prog.ret_bind,
    solo_of_bind hlegacy, toResponse, moneys_ok.mpr (hrange _)]
  rfl

/-- So is its receipt. -/
theorem receipt_answers (hread : mayReadReceipt user t db envs = true)
    (hrange : ∀ v ∈ (Receipts.receiptRecordOf db t).amounts, InRange v) :
    ∃ c, Receipts.findOne user id db envs = .ok c := by
  obtain ⟨n, scope, hscope, hadmits⟩ := solo_of_scope (Receipts.receiptScope_reading user) hread
  obtain ⟨n', legacy, hlegacy⟩ := solo_findLegacyProducts db envs scope.tenantId
    (Receipts.receiptRecordOf db t).sale (n + 1) fun d => d
  have hmoney : (Receipts.receiptRecordOf db t).amounts.forM Receipts.money = .ok () := by
    rw [Checked.forM_ok]
    intro v hv
    unfold Receipts.money
    rw [if_neg (not_out_of_range.mpr (hrange v hv))]
  refine ⟨(Receipts.receiptRecordOf db t).receipt legacy, ?_⟩
  unfold Receipts.findOne Receipts.findOneBody
  rw [solo_ensure hid, solo_of_bind hscope, solo_query, find_admitted hwf ht hsame hadmits,
    Option.map_some, Prog.require_some, Prog.ret_bind, solo_of_bind hlegacy, Receipts.toReceipt,
    hmoney]
  rfl

end Answered

/-- A receipt has no amounts but those of the detail. -/
theorem receipt_amounts {rows : SaleRows} {db : Db} (hstored : rows.Stored db)
    (hlinked : rows.Linked) (hnamed : ∀ i ∈ rows.items, i.productNameSnapshot.isSome = true)
    (hpays : ∃ dto, Pays rows.transaction dto rows.payment) (rank : Id → Nat) :
    ∀ v ∈ (Receipts.receiptRecordOf db rows.transaction).amounts,
      v ∈ (recordOf db.sales rank rows.transaction).amounts := by
  obtain ⟨dto, hpays⟩ := hpays
  obtain ⟨hitems, hpayments, -⟩ := receiptRecordOf_eq hstored hlinked
  have hrows : (recordOf db.sales rank rows.transaction).payments = [rows.payment] := by
    rw [hstored.recordOf_eq hlinked]
    exact recordOf_payments hlinked rank
  have hpaid : (rows.payment.status == .paid) = true := beq_iff_eq.mpr hpays.status
  have hpayment : (Receipts.receiptRecordOf db rows.transaction).payment = some rows.payment := by
    unfold Receipts.ReceiptRecord.payment
    rw [hpayments, List.find?_cons, hpaid]
    rfl
  have hchange : ∀ v ∈ (Receipts.receiptRecordOf db rows.transaction).change.toList,
      v ∈ rows.payment.changeAmount.toList := by
    unfold Receipts.ReceiptRecord.change
    rw [hpayment]
    dsimp only
    by_cases hcash : dto.payment.method = .cash
    · obtain ⟨received, -, -, -, hpaidOut⟩ := hpays.cash hcash
      rw [hpays.method, hpays.status, hcash, hpaidOut]
      exact fun v hv => hv
    · have hmethod : (rows.payment.method == .cash) = false := by
        rw [hpays.method]
        exact beq_eq_false_iff_ne.mpr hcash
      rw [hmethod]
      exact fun v hv => by cases hv
  intro v hv
  unfold TransactionRecord.amounts
  rw [hrows]
  unfold Receipts.ReceiptRecord.amounts at hv
  rw [hpayment] at hv
  simp only [List.mem_append, List.mem_flatMap] at hv ⊢
  rcases hv with ((hv | ⟨r, hr, hv⟩) | hv) | hv
  · exact Or.inl (Or.inl (Or.inl (hchange v hv)))
  · -- a line of the receipt is a line of the detail
    have hitem : r.item ∈ rows.items := by
      rw [hitems] at hr
      obtain ⟨i, hi, rfl⟩ := List.mem_map.mp hr
      have hmem := (Shifts.orderById_perm ..).mem_iff.mp hi
      rw [(filter_rowsDb hlinked).1] at hmem
      exact hmem
    have hrecord : ∃ r' ∈ (recordOf db.sales rank rows.transaction).items, r'.item = r.item := by
      rw [hstored.recordOf_eq hlinked, recordOf_items hlinked]
      exact ⟨_, List.mem_map_of_mem ((orderBy_perm ..).mem_iff.mpr hitem), rfl⟩
    obtain ⟨r', hr', hsame⟩ := hrecord
    refine Or.inl (Or.inr ⟨r', hr', ?_⟩)
    unfold Receipts.receiptItem at hv
    simp only [hnamed _ hitem, if_true] at hv
    rw [hsame]
    simp only [List.mem_cons, List.not_mem_nil, or_false] at hv ⊢
    tauto
  · refine Or.inr ⟨rows.payment, List.mem_singleton.mpr rfl, ?_⟩
    obtain ⟨p, hp, hv⟩ := hv
    have hp := Option.some.inj (Option.mem_toList.mp hp)
    rw [hp]
    exact hv
  · exact Or.inl (Or.inl (Or.inr hv))

-- ============================================================================
-- Every later state
-- ============================================================================

/-- Whoever reads the sale in this state is shown its rows. -/
structure ShownAs (rows : SaleRows) (db : Db) : Prop where
  unchanged : Unchanged rows db
  /-- whoever may read the sale is answered -/
  answersDetail : ∀ user id envs, isUUID id = true → toLowerCase id = rows.transaction.id →
    mayRead user rows.transaction db envs = true → ∃ r, findOne user id db envs = .ok r
  answersReceipt : ∀ user id envs, isUUID id = true → toLowerCase id = rows.transaction.id →
    mayReadReceipt user rows.transaction db envs = true → ∃ c, Receipts.findOne user id db envs = .ok c
  /-- the detail, in an order that the ranks of equal keys leave open -/
  detail : ∀ user id envs r, findOne user id db envs = .ok r → toLowerCase id = rows.transaction.id →
    ∃ rank, r = (recordOf (rowsDb rows).sales rank rows.transaction).response noLegacyProducts
  receipt : ∀ user id envs c, Receipts.findOne user id db envs = .ok c →
    toLowerCase id = rows.transaction.id →
    SameReceipt c ((Receipts.receiptRecordOf (rowsDb rows) rows.transaction).receipt noLegacyProducts)
  agree : ∀ user user' id envs envs' r c, findOne user id db envs = .ok r →
    Receipts.findOne user' id db envs' = .ok c → toLowerCase id = rows.transaction.id → Agrees r c

/-- Readers of a sale find its row. -/
theorem shownAs_of_stored {rows : SaleRows} {db : Db} (hwf : Wf db) (hstored : rows.Stored db)
    (hlinked : rows.Linked) (hnamed : ∀ i ∈ rows.items, i.productNameSnapshot.isSome = true)
    (hpays : ∃ dto, Pays rows.transaction dto rows.payment)
    (hrange : ∀ rank, ∀ v ∈ (recordOf db.sales rank rows.transaction).amounts, InRange v) :
    ShownAs rows db := by
  have hunchanged := unchanged_of_stored hstored hlinked hnamed
  have hdetail : ∀ user id envs r, findOne user id db envs = .ok r →
      toLowerCase id = rows.transaction.id →
      ∃ rank legacy, r = (recordOf db.sales rank rows.transaction).response legacy := by
    intro user id envs r hr hid
    obtain ⟨t, ht, htid, rank, legacy, rfl⟩ := findOne_ok hr
    have hsame : t = rows.transaction :=
      eq_of_key (legal_transactions hwf.legal) ht hstored.transaction (htid.trans hid)
    subst hsame
    exact ⟨rank, legacy, rfl⟩
  have hreceipt : ∀ user id envs c, Receipts.findOne user id db envs = .ok c →
      toLowerCase id = rows.transaction.id →
      ∃ legacy, c = (Receipts.receiptRecordOf db rows.transaction).receipt legacy := by
    intro user id envs c hc hid
    obtain ⟨t, ht, htid, legacy, rfl⟩ := receipt_ok hc
    have hsame : t = rows.transaction :=
      eq_of_key (legal_transactions hwf.legal) ht hstored.transaction (htid.trans hid)
    subst hsame
    exact ⟨legacy, rfl⟩
  constructor
  case unchanged => exact hunchanged
  case answersDetail =>
    intro user id envs huuid hid hread
    exact findOne_answers hwf hstored.transaction huuid hid hread hrange
  case answersReceipt =>
    intro user id envs huuid hid hread
    refine receipt_answers hwf hstored.transaction huuid hid hread fun v hv => ?_
    exact hrange (envs 0).rank v (receipt_amounts hstored hlinked hnamed hpays _ v hv)
  case detail =>
    intro user id envs r hr hid
    obtain ⟨rank, legacy, rfl⟩ := hdetail user id envs r hr hid
    exact ⟨rank, hunchanged.detail rank legacy⟩
  case receipt =>
    intro user id envs c hc hid
    obtain ⟨legacy, rfl⟩ := hreceipt user id envs c hc hid
    exact hunchanged.receipt legacy
  case agree =>
    intro user user' id envs envs' r c hr hc hid
    obtain ⟨rank, legacy, rfl⟩ := hdetail user id envs r hr hid
    obtain ⟨legacy', rfl⟩ := hreceipt user' id envs' c hc hid
    exact agrees_of_stored hstored hlinked hnamed hpays rank legacy legacy'

/-- Whoever reads the sale while others commit is shown its rows. -/
structure ShownMeanwhile (rows : SaleRows) (reads : List (Db × Env)) : Prop where
  detail : ∀ user id r, findOneIn user id reads = some (.ok r) → toLowerCase id = rows.transaction.id →
    ∃ rank, r = (recordOf (rowsDb rows).sales rank rows.transaction).response noLegacyProducts
  receipt : ∀ user id c, Receipts.findOneIn user id reads = some (.ok c) →
    toLowerCase id = rows.transaction.id →
    SameReceipt c ((Receipts.receiptRecordOf (rowsDb rows) rows.transaction).receipt noLegacyProducts)

theorem shownMeanwhile_of_shownAs {rows : SaleRows} {P : Db → Prop} (hshown : ∀ d, P d → ShownAs rows d)
    {db0 : Db} (h0 : P db0) {reads : List (Db × Env)} (hreads : ∀ v ∈ reads, P v.1) :
    ShownMeanwhile rows reads where
  detail := by
    intro user id r hr hid
    obtain ⟨d, hd, envs, hone⟩ := answerIn_of_reads (findOneBody_reading user id) hr h0 hreads
    exact (hshown d hd).detail user id envs r hone hid
  receipt := by
    intro user id c hc hid
    obtain ⟨d, hd, envs, hone⟩ := answerIn_of_reads (Receipts.findOneBody_reading user id) hc h0 hreads
    exact (hshown d hd).receipt user id envs c hone hid

section Runs

variable {R : Token → Prop} {db0 : Db} {σ : State}

/-- What a commit has recorded is there in every state from it on. -/
theorem RecordedBy.stored_after (h : KasirSound R db0 σ) (h0 : SalesOk db0)
    {pre post : List KasirCommit} {e : KasirCommit} (heq : σ.history = pre ++ e :: post)
    {user : JwtPayload} {dto : CheckoutDto} {mode : CheckoutMode} {tx : TransactionClient}
    {sale : Sale} {r : TransactionResponse} (hrec : RecordedBy R e user dto mode tx sale r) :
    ∀ d ∈ states e.after post, Wf d ∧ sale.rows.Stored d := by
  have hmem : ∀ e' ∈ e :: post, e' ∈ σ.history := by
    intro e' he'
    rw [heq]
    exact List.mem_append_right _ he'
  have he := h.commits e (hmem e (List.mem_cons_self ..))
  have hbefore := h0.before h (hmem e (List.mem_cons_self ..))
  have hfirst : sale.rows.Stored e.after :=
    hrec.made.stored he.invBefore hbefore hrec.sales hrec.stocks
  intro d hd
  rcases mem_states.mp hd with rfl | ⟨e', he', rfl⟩
  · exact ⟨he.invAfter, hfirst⟩
  · -- the run up to the later commit
    obtain ⟨mid, rest, rfl⟩ := List.append_of_mem he'
    have hok' := h.commits e' (hmem e' (List.mem_cons_of_mem _ he'))
    have hchain := h.chain
    rw [heq] at hchain
    have hmid := hchain.split.2.split.1.invariant sale.rows.Stored hfirst fun x hx hs =>
      hs.step (h.commits x (hmem x (by simp [hx]))).evolves.sales
        (h.commits x (hmem x (by simp [hx]))).post
    exact ⟨hok'.invAfter, hmid.step hok'.evolves.sales hok'.post⟩

end Runs

/-- **History is immutable.**  From the commit that adds a sale on, in whatever interleaving
    of whatever calls, its rows are stored as that commit wrote them, and every reader is
    shown these rows: its detail and its receipt, which agree, and what it adds to its shift
    and to the reports. -/
theorem history_immutable {db0 : Db} {σ : State} (h0 : Wf db0) (hsales : SalesOk db0)
    (hreach : kasir.Reach db0 σ) {pre post : List KasirCommit} {e : KasirCommit}
    (heq : σ.history = pre ++ e :: post) {t : Transaction} (ht : t ∈ e.after.sales.transactions)
    (hnew : t ∉ e.before.sales.transactions) :
    ∃ rows : SaleRows, rows.transaction = t ∧
      (∀ d ∈ states e.after post, rows.Stored d ∧ ShownAs rows d) ∧
      ∀ reads, (∀ v ∈ reads, v.1 ∈ states e.after post) → ShownMeanwhile rows reads := by
  have hsound := reach_sound h0 hreach
  have he := hsound.commits e (by simp [heq])
  rcases he.post.sales_cases with ⟨hs, -⟩ | ⟨user, dto, mode, tx, sale, r, hcall, hsale, hs, hst⟩ |
    ⟨user, dto, isNew, env, env', -, -, hs, -⟩
  · exact absurd (hs ▸ ht) hnew
  · rw [hs] at ht
    have hsame : t = sale.rows.transaction := by
      rcases List.mem_append.mp ht with hold | hown
      · exact absurd hold hnew
      · exact List.mem_singleton.mp hown
    subst hsame
    have hrec : RecordedBy noMarks e user dto mode tx sale r := ⟨hcall, hsale, hs, hst⟩
    have hstored := hrec.stored_after hsound hsales heq
    have hnamed : ∀ i ∈ sale.rows.items, i.productNameSnapshot.isSome = true := by
      intro i hi
      obtain ⟨line, -, hline⟩ := forall₂_mem_right (hsale.built.lines hsale.nodupItems) i hi
      exact hline.named
    have hpays := hsale.built.pays (hrec.wellformed he.admitted)
    have hshown : ∀ d ∈ states e.after post, ShownAs sale.rows d := by
      intro d hd
      obtain ⟨hwf, hs⟩ := hstored d hd
      exact shownAs_of_stored hwf hs hsale.built.linked hnamed ⟨dto, hpays⟩
        (hsale.amounts_inRange hs)
    refine ⟨sale.rows, rfl, fun d hd => ⟨(hstored d hd).2, hshown d hd⟩, fun reads hreads => ?_⟩
    exact shownMeanwhile_of_shownAs hshown (mem_states.mpr (Or.inl rfl)) hreads
  · exact absurd (hs ▸ ht) hnew

/-- The owner renames the coffee and prices it anew. -/
def Shop.rename : Call :=
  .catalog { Shop.user with role := "OWNER" }
    (.updateProduct Shop.coffee { name := some "Espresso", price := some 3000 })

/-- The product has a new name, but the sale is still of what it was. -/
def Shop.soldBefore (t : Transaction) (after : Db) : Bool :=
  (after.catalog.products.any fun p => decide (p.id = Shop.coffee ∧ p.name = "Espresso")) &&
  ((findOne Shop.user t.id after (Shop.envs 5)).toOption.any fun r =>
    decide (r.items.map (fun i => (i.productNameSnapshot, i.unitPrice)) = [(some "Coffee", 1000)])) &&
  ((Receipts.findOne Shop.user t.id after (Shop.envs 6)).toOption.any fun c =>
    decide (c.items.map (fun i => (i.productName, i.unitPrice)) = [(some "Coffee", 1000)])) &&
  decide (toLowerCase t.id = t.id)

theorem toOption_any {α : Type} {x : Except Exc α} {p : α → Bool} (h : x.toOption.any p = true) :
    ∃ a, x = .ok a := by
  cases x with
  | error e => cases h
  | ok a => exact ⟨a, rfl⟩

/-- In the shop coffee is sold and then renamed; the detail and the receipt are of coffee. -/
theorem history_immutable_shop :
    ∃ (σ : State) (pre post : List KasirCommit) (e : KasirCommit) (rows : SaleRows),
      kasir.Reach Shop.db σ ∧ σ.history = pre ++ e :: post ∧
      rows.transaction ∉ e.before.sales.transactions ∧
      Shop.soldBefore rows.transaction σ.db = true ∧ σ.db ∈ states e.after post ∧
      (∀ d ∈ states e.after post, rows.Stored d ∧ ShownAs rows d) ∧
      ∃ r c, findOne Shop.user rows.transaction.id σ.db (Shop.envs 5) = .ok r ∧
        Receipts.findOne Shop.user rows.transaction.id σ.db (Shop.envs 6) = .ok c ∧ Agrees r c := by
  obtain ⟨σ, turns, hrun, hp, -, -, hhistory⟩ := Shop.run noMarks
    [(Shop.sale (Shop.uuid 9 9 9), Shop.envs 1), (Shop.rename, Shop.envs 2)]
    (fun turns after => (turns.filterMap App.Turn.commit).any fun c =>
      c.2.2.2.sales.transactions.any fun t =>
        !c.2.2.1.sales.transactions.contains t && Shop.soldBefore t after)
    (by decide +kernel)
  rw [← hhistory] at hp
  obtain ⟨c, hc, hp⟩ := List.any_eq_true.mp hp
  obtain ⟨e, he, rfl⟩ := List.mem_map.mp hc
  obtain ⟨t, ht, hp⟩ := List.any_eq_true.mp hp
  obtain ⟨hnew, hsold⟩ := Bool.and_eq_true_iff.mp hp
  have hnew' : t ∉ e.before.sales.transactions := by simpa using hnew
  obtain ⟨pre, post, heq⟩ := List.append_of_mem he
  obtain ⟨rows, rfl, hall, -⟩ := history_immutable Shop.wf Shop.salesOk hrun.reach heq ht hnew'
  have hchain := (reach_sound Shop.wf hrun.reach).chain
  rw [heq] at hchain
  have hlast := hchain.split.2.mem_states
  have hread := hsold
  unfold Shop.soldBefore at hread
  simp only [Bool.and_eq_true, decide_eq_true_eq] at hread
  obtain ⟨⟨⟨-, hdetail⟩, hreceipt⟩, hlower⟩ := hread
  obtain ⟨r, hr⟩ := toOption_any hdetail
  obtain ⟨c, hc⟩ := toOption_any hreceipt
  exact ⟨σ, pre, post, e, rows, hrun.reach, heq, hnew', hsold, hlast, hall, r, c, hr, hc,
    (hall _ hlast).2.agree _ _ _ _ _ r c hr hc hlower⟩

end Kasir
