/-
  Kasir.Guarantees.LineOrder

  The order of the lines of a sale.

  Lines are written one by one and options in one statement, in the order of the
  request.  The order is not stored: it has to be read back from `created_at`.  The
  create response and the detail break ties as the database likes, the receipt by
  identifiers, which are random.  The options of a line share one `created_at`.
-/

import Kasir.Readers
import Kasir.Books

namespace Kasir

open Txn Js Transactions HeldOrders

-- ============================================================================
-- Written and read
-- ============================================================================

/-- The lines of a sale in the order in which they were written. -/
def Transactions.SaleRows.lines (rows : SaleRows) : List ItemRecord :=
  rows.items.map fun i => { item := i, modifiers := rows.modifiersOf i }

/-- A line of the request and what was written of it, options in order. -/
structure WrittenAs (item : CreateTransactionItemDto) (line : ItemRecord) : Prop where
  productId : line.item.productId = item.productId
  quantity : line.item.quantity = item.quantity
  note : line.item.noteSnapshot = item.note
  options : line.modifiers.map TransactionItemModifier.modifierOptionId =
    (item.modifierOptionIds.getD []).map some

/-- What a reader may be given as the lines of a sale: ordered as the create response
    and the detail order them, with any order of ties, or as the receipt does. -/
def ReadAs (rows : SaleRows) (db : Db) (items : List ItemRecord) : Prop :=
  (∃ rank, items = (recordOf db.sales rank rows.transaction).items) ∨
    items = (Receipts.receiptRecordOf db rows.transaction).items

/-- The times tell the lines apart, and no line has two options. -/
structure Untied (rows : SaleRows) : Prop where
  items : rows.items.Pairwise fun i j => i.createdAt < j.createdAt
  options : ∀ i ∈ rows.items, (rows.modifiersOf i).length ≤ 1

section Stored

variable {rows : SaleRows} {db : Db} (hstored : rows.Stored db) (hlinked : rows.Linked)
include hstored hlinked

theorem stored_recordOf_items (rank : Id → Nat) :
    (recordOf db.sales rank rows.transaction).items =
      (orderBy rank TransactionItem.createdAt TransactionItem.id rows.items).map fun i =>
        { item := i
          modifiers := orderBy rank TransactionItemModifier.createdAt TransactionItemModifier.id
            (rows.modifiersOf i) } := by
  rw [hstored.recordOf_eq hlinked, recordOf_items hlinked]

omit hlinked in
theorem stored_receipt_items :
    (Receipts.receiptRecordOf db rows.transaction).items =
      (Shifts.orderById TransactionItem.createdAt TransactionItem.id rows.items).map fun i =>
        { item := i
          modifiers := Shifts.orderById TransactionItemModifier.createdAt
            TransactionItemModifier.id (rows.modifiersOf i) } := by
  unfold Receipts.receiptRecordOf
  dsimp only
  rw [hstored.items]
  apply List.map_congr_left
  intro i hi
  have hmem := (Shifts.orderById_perm ..).mem_iff.mp hi
  rw [hstored.modifiers i hmem]
  rfl

omit hstored hlinked in
/-- At most one row is in order. -/
theorem pairwise_of_length_le_one {α : Type} {r : α → α → Prop} {xs : List α}
    (h : xs.length ≤ 1) : xs.Pairwise r := by
  match xs, h with
  | [], _ => exact .nil
  | [x], _ => exact List.pairwise_singleton r x

/-- Without ties every reader is given the lines as they were written. -/
theorem Untied.readAs (h : Untied rows) {items : List ItemRecord} (hread : ReadAs rows db items) :
    items = rows.lines := by
  have hoptions : ∀ i ∈ rows.items,
      (rows.modifiersOf i).Pairwise fun m m' => m.createdAt < m'.createdAt :=
    fun i hi => pairwise_of_length_le_one (h.options i hi)
  rcases hread with ⟨rank, rfl⟩ | rfl
  · rw [stored_recordOf_items hstored hlinked, orderBy_eq_self h.items]
    apply List.map_congr_left
    intro i hi
    rw [orderBy_eq_self (hoptions i hi)]
  · have hitems : Shifts.orderById TransactionItem.createdAt TransactionItem.id rows.items =
        rows.items := (h.items.imp fun hij => Or.inl hij).insertionSort_eq
    rw [stored_receipt_items hstored, hitems]
    apply List.map_congr_left
    intro i hi
    have hmodifiers : Shifts.orderById TransactionItemModifier.createdAt
        TransactionItemModifier.id (rows.modifiersOf i) = rows.modifiersOf i :=
      ((hoptions i hi).imp fun hm => Or.inl hm).insertionSort_eq
    rw [hmodifiers]

/-- If every reader is given the lines as they were written, there are no ties. -/
theorem untied_of_readAs (hlegal : db.legal = true)
    (hoptions : ∃ time, ∀ m ∈ rows.modifiers, m.createdAt = time)
    (h : ∀ items, ReadAs rows db items → items = rows.lines) : Untied rows := by
  have hread : ∀ rank, _ = rows.lines := fun rank => h _ (Or.inl ⟨rank, rfl⟩)
  have hitems : ∀ rank, orderBy rank TransactionItem.createdAt TransactionItem.id rows.items =
      rows.items := by
    intro rank
    have heq := congrArg (List.map ItemRecord.item) (hread rank)
    rw [stored_recordOf_items hstored hlinked] at heq
    unfold SaleRows.lines at heq
    simpa [Function.comp_def] using heq
  have hnodupItems : (rows.items.map TransactionItem.id).Nodup := by
    rw [← hstored.items]
    exact (List.filter_sublist.map _).nodup (legal_transactionItems hlegal)
  refine ⟨(orderBy_fixed_iff hnodupItems).mp hitems, fun i hi => ?_⟩
  have hmodifiers : ∀ rank, orderBy rank TransactionItemModifier.createdAt
      TransactionItemModifier.id (rows.modifiersOf i) = rows.modifiersOf i := by
    intro rank
    have heq := hread rank
    rw [stored_recordOf_items hstored hlinked, hitems] at heq
    unfold SaleRows.lines at heq
    have hi' := List.map_inj_left.mp heq i hi
    exact congrArg ItemRecord.modifiers hi'
  have hnodup : ((rows.modifiersOf i).map TransactionItemModifier.id).Nodup := by
    unfold SaleRows.modifiersOf
    rw [← hstored.modifiers i hi]
    exact (List.filter_sublist.map _).nodup (legal_transactionItemModifiers hlegal)
  have hincreasing := (orderBy_fixed_iff hnodup).mp hmodifiers
  -- the options of a line were written at one time
  obtain ⟨time, htime⟩ := hoptions
  by_contra hmany
  match hms : rows.modifiersOf i with
  | [] =>
      rw [hms] at hmany
      exact hmany (Nat.zero_le 1)
  | [m] =>
      rw [hms] at hmany
      exact hmany (Nat.le_refl 1)
  | m :: m' :: ms =>
      rw [hms] at hincreasing
      have hlt : m.createdAt < m'.createdAt :=
        List.rel_of_pairwise_cons hincreasing (List.mem_cons_self ..)
      have hmem : ∀ x ∈ rows.modifiersOf i, x.createdAt = time := fun x hx =>
        htime x (List.mem_of_mem_filter hx)
      have hm := hmem m (hms ▸ List.mem_cons_self ..)
      have hm' := hmem m' (hms ▸ List.mem_cons_of_mem _ (List.mem_cons_self ..))
      omega

end Stored

-- ============================================================================
-- Every run
-- ============================================================================

/-- `createMany` has one time. -/
theorem Transactions.Sale.Built.modifier_time {user : JwtPayload} {dto : CheckoutDto} {sale : Sale}
    (h : sale.Built user dto) : ∃ time, ∀ m ∈ sale.rows.modifiers, m.createdAt = time := by
  obtain ⟨env, hmodifiers⟩ := h.modifiers
  refine ⟨env.now, fun m hm => ?_⟩
  rw [hmodifiers] at hm
  obtain ⟨x, -, rfl⟩ := List.mem_map.mp hm
  rfl

/-- The lines a conversion asks for are those of the order, by display order. -/
theorem SaleOf.displayOrder {user user' : JwtPayload} {id : String} {input : CheckoutHeldOrderDto}
    {dto : CheckoutDto} {mode : CheckoutMode} {tx : TransactionClient} {r : TransactionResponse}
    {result : Result} {seen : List Db} {db : Db}
    (h : SaleOf (.holdCheckout user' id input) result seen db user dto mode tx r) :
    ∃ record : HeldOrderRecord, dto = coreRequest (heldCheckoutDto record input) .v1 ∧
      (record.items.map fun i => i.item.displayOrder).Pairwise (· ≤ ·) := by
  generalize hcall : Call.holdCheckout user' id input = c at h
  cases h with
  | request hc =>
      subst hcall
      cases hc
  | @conversion _ _ _ record o _ _ _ horder =>
      cases hcall
      obtain ⟨s, -, -, -, rank, x, -, -, -, -, rfl⟩ := horder.read
      refine ⟨_, rfl, ?_⟩
      unfold heldRecordOf
      dsimp only
      rw [List.map_map, List.pairwise_map]
      refine orderBy_pairwise.imp fun hij => ?_
      simp only [Function.comp_apply]
      omega

/-- **Line order.**  The lines of every recorded sale are written in the order of the
    request, options included; a conversion asks for the lines of its order by display
    order.  In every later state the create response, the detail and the receipt show
    the lines as a reader is given them, and every reader is given them as they were
    written exactly if the lines have increasing times and no line has two options. -/
theorem line_order {db0 : Db} {σ : State} (h0 : Wf db0) (hsales : SalesOk db0)
    (h : kasir.Reach db0 σ) {e : KasirCommit} (he : e ∈ σ.history) {user : JwtPayload}
    {dto : CheckoutDto} {mode : CheckoutMode} {tx : TransactionClient} {sale : Sale}
    {r : TransactionResponse} (hrec : RecordedBy noMarks e user dto mode tx sale r) :
    List.Forall₂ WrittenAs dto.items sale.rows.lines ∧
    (∀ user' id input, e.call = .holdCheckout user' id input → ∃ record : HeldOrderRecord,
      dto = coreRequest (heldCheckoutDto record input) .v1 ∧
        (record.items.map fun i => i.item.displayOrder).Pairwise (· ≤ ·)) ∧
    (∃ items, ReadAs sale.rows σ.db items ∧ r.items = items.map (itemResponse noLegacyProducts)) ∧
    (∀ user' id envs out, findOne user' id σ.db envs = .ok out →
      out.transactionId = sale.rows.transaction.id →
      ∃ items legacy, ReadAs sale.rows σ.db items ∧ out.items = items.map (itemResponse legacy)) ∧
    (∀ user' id envs out, Receipts.findOne user' id σ.db envs = .ok out →
      out.transactionId = sale.rows.transaction.id →
      ∃ items legacy, ReadAs sale.rows σ.db items ∧
        out.items = items.map (Receipts.receiptItem legacy)) ∧
    ((∀ items, ReadAs sale.rows σ.db items → items = sale.rows.lines) ↔ Untied sale.rows) := by
  have hsound : KasirSound noMarks db0 σ := reach_sound h0 h
  have hstored : sale.rows.Stored σ.db := hrec.stored hsound hsales he
  have hbuilt := hrec.made.built
  have hlegal := hsound.inv.legal
  -- a sale with the identifier is the sale
  have honly : ∀ t ∈ σ.db.sales.transactions, t.id = sale.rows.transaction.id →
      t = sale.rows.transaction := fun t ht hid =>
    eq_of_key (legal_transactions hlegal) ht hstored.transaction hid
  refine ⟨?_, fun user' id input hcall => ?_, ?_, fun user' id envs out hout hid => ?_,
    fun user' id envs out hout hid => ?_, ?_⟩
  · unfold SaleRows.lines
    rw [List.forall₂_map_right_iff]
    refine (hbuilt.lines hrec.made.nodupItems).imp fun item row hline => ?_
    exact ⟨hline.productId, hline.quantity, hline.note, hline.options⟩
  · have hsale := hrec.call
    rw [hcall] at hsale
    exact hsale.displayOrder
  · obtain ⟨rank, hresponse⟩ := hrec.made.response
    refine ⟨_, Or.inl ⟨rank, rfl⟩, ?_⟩
    rw [toResponse_ok hresponse, hstored.recordOf_eq hbuilt.linked]
    rfl
  · obtain ⟨t, ht, -, rank, legacy, rfl⟩ := findOne_ok hout
    obtain rfl := honly t ht hid
    exact ⟨_, legacy, Or.inl ⟨rank, rfl⟩, rfl⟩
  · obtain ⟨t, ht, -, legacy, rfl⟩ := receipt_ok hout
    obtain rfl := honly t ht hid
    exact ⟨_, legacy, Or.inr rfl, rfl⟩
  · constructor
    · exact untied_of_readAs hstored hbuilt.linked hlegal hbuilt.modifier_time
    · exact fun huntied items hread => huntied.readAs hstored hbuilt.linked hread

namespace Shop

/-- A sale of two coffees and two waters, by QRIS. -/
def twoLines (key : Id) : Call :=
  .create user
    { clientTransactionId := key, outletId := outlet, cashierSessionId := some session
      items := [line coffee, line water], payment := { method := .qris } }

end Shop

/-- In the shop two lines are sold, and shown in their order. -/
theorem line_order_shop :
    ∃ (σ : State) (e : KasirCommit) (user : JwtPayload) (dto : CheckoutDto) (mode : CheckoutMode)
      (tx : TransactionClient) (sale : Sale) (r : TransactionResponse),
      kasir.Reach Shop.db σ ∧ e ∈ σ.history ∧ RecordedBy noMarks e user dto mode tx sale r ∧
      sale.rows.lines.length = 2 ∧ r.items = sale.rows.lines.map (itemResponse noLegacyProducts) := by
  obtain ⟨σ, -, hrun, hp, -⟩ := Shop.run noMarks [(Shop.twoLines (Shop.uuid 9 9 9), Shop.envs 1)]
    (fun _ db => db.sales.transactions.any (hasKey Shop.tenant (Shop.uuid 9 9 9)) &&
      decide (db.sales.transactions.all fun t => (itemsOf db.sales t).length = 2) &&
      decide (db.sales.transactionItems.Pairwise fun i j : TransactionItem => i.createdAt < j.createdAt) &&
      decide (db.sales.transactionItemModifiers = []))
    (by decide +kernel)
  simp only [Bool.and_eq_true, decide_eq_true_eq, List.any_eq_true, List.all_eq_true] at hp
  obtain ⟨⟨⟨⟨x, hx, -⟩, htwo⟩, htimes⟩, hnone⟩ := hp
  have hsound := reach_sound Shop.wf hrun.reach
  obtain hx | ⟨e, he, user, dto, mode, tx, sale, r, hrec, rfl⟩ := recorded_by hsound x hx
  · cases hx
  · have hstored : sale.rows.Stored σ.db := hrec.stored hsound Shop.salesOk he
    obtain ⟨-, -, ⟨items, hread, hitems⟩, -, -, huntied⟩ :=
      line_order Shop.wf Shop.salesOk hrun.reach he hrec
    have hlines : Untied sale.rows := by
      refine ⟨?_, fun i hi => ?_⟩
      · rw [← hstored.items]
        exact htimes.filter _
      · have hmodifiers := hstored.modifiers i hi
        rw [hnone] at hmodifiers
        show ((sale.rows.modifiers.filter (modifierOf i)).length ≤ 1)
        rw [← hmodifiers]
        exact Nat.zero_le 1
    have hlength : sale.rows.lines.length = 2 := by
      have hcount := htwo _ hstored.transaction
      unfold itemsOf at hcount
      rw [hstored.items] at hcount
      unfold SaleRows.lines
      rw [List.length_map]
      exact hcount
    refine ⟨σ, e, user, dto, mode, tx, sale, r, hrun.reach, he, hrec, hlength, ?_⟩
    rw [hitems, huntied.mpr hlines items hread]

/-- What statements are supplied with when all have one time; of rows with equal times
    the one with identifier `last` comes last. -/
def Shop.tiedEnvs (k : Nat) (last : Id) : Nat → Env := fun n =>
  ⟨fun j => Shop.uuid (k + 1) n j, 0, fun id => if id = last then 1 else 0⟩

/-- The products of the lines a create response shows. -/
def Shop.shown : Except Exc Result → List Id
  | .ok (.sale r) => r.items.map ItemResponse.productId
  | _ => []

/-- Two lines are written at one time, and the response shows them the other way
    round. -/
theorem lines_change_places :
    ∃ σ : State, kasir.Reach Shop.db σ ∧ ∃ e ∈ σ.history,
      e.call = Shop.twoLines (Shop.uuid 9 9 9) ∧ ∃ r, e.result = .sale r ∧
        r.items.map ItemResponse.productId = [Shop.water, Shop.coffee] := by
  obtain ⟨σ, turns, hrun, hp, -, -, hhist⟩ := Shop.run noMarks
    [(Shop.twoLines (Shop.uuid 9 9 9), Shop.tiedEnvs 1 (Shop.uuid 2 8 0))]
    (fun turns _ => turns.any fun t => decide (t.call = Shop.twoLines (Shop.uuid 9 9 9) ∧
      Shop.shown t.answer = [Shop.water, Shop.coffee]))
    (by decide +kernel)
  obtain ⟨⟨c, answer, before, after⟩, ht, hp⟩ := List.any_eq_true.mp hp
  obtain ⟨hcall, hshown⟩ := of_decide_eq_true hp
  have hsale : ∃ r, answer = .ok (.sale r) := by
    unfold Shop.shown at hshown
    split at hshown
    · exact ⟨_, ‹_›⟩
    · cases hshown
  obtain ⟨r, rfl⟩ := hsale
  obtain ⟨e, he, hecall, hresult, -⟩ := App.mem_history hhist ht
  exact ⟨σ, hrun.reach, e, he, hecall.trans hcall, r, hresult, hshown⟩

end Kasir
