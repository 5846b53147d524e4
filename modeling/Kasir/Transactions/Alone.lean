/-
  Kasir.Transactions.Alone

  A checkout that runs alone and sells what is not tracked.

  Nothing but its own rows is written, and nothing can refuse them: the rows are given
  in closed form, with the identifiers that the statements are supplied with.
-/

import Kasir.Transactions.Ends

namespace Kasir.Transactions

open Txn Js

-- ============================================================================
-- The rows
-- ============================================================================

/-- The rows of lines, the first of which is written by the statement `n`. -/
def itemRows (user : JwtPayload) (tid : Id) (envs : Nat → Env) :
    Nat → List ValidatedItem → List TransactionItem
  | _, [] => []
  | n, i :: items => itemRow user tid i (envs n) :: itemRows user tid envs (n + 1) items

/-- A line that has no options and takes nothing from stock. -/
structure ValidatedItem.Plain (i : ValidatedItem) : Prop where
  untracked : i.product.trackStock = false
  options : i.options = []
  note : fitsVarchar 255 i.note = true

/-- The rows of a sale of plain lines, which begins with the statement `n`. -/
def plainRows (user : JwtPayload) (dto : CheckoutDto) (envs : Nat → Env) (n : Nat)
    (items : List ValidatedItem) (totals : Totals) (tender : Option Int) : SaleRows :=
  let t := transactionRow user dto totals (envs n)
  { transaction := { t with status := .completed }
    items := itemRows user t.id envs (n + 1) items
    modifiers := []
    payment := paymentRow user t.id dto.payment.method totals.total tender
      (envs (n + 1 + items.length))
    entries := []
    movements := [] }

section Rows

variable {user : JwtPayload} {tid : Id} {dto : CheckoutDto} {envs : Nat → Env} {n : Nat}
  {items : List ValidatedItem} {totals : Totals} {tender : Option Int}

theorem itemOf_itemRows {t : Transaction} (hid : t.id = tid) (htenant : t.tenantId = user.tenantId) :
    ∀ row ∈ itemRows user tid envs n items, itemOf t row = true := by
  induction items generalizing n with
  | nil => exact fun _ h => nomatch h
  | cons i items ih =>
      intro row hrow
      rcases List.mem_cons.mp hrow with rfl | hrow
      · simp [itemOf, itemRow, hid, htenant]
      · exact ih row hrow

theorem linked_plainRows : (plainRows user dto envs n items totals tender).Linked where
  completed := rfl
  items := itemOf_itemRows rfl rfl
  modifiers := fun _ h => nomatch h
  payment := by simp [plainRows, paymentOf, paymentRow, transactionRow]

theorem stockByProduct_plain (h : ∀ i ∈ items, i.Plain) : stockByProduct items = [] := by
  unfold stockByProduct
  induction items with
  | nil => rfl
  | cons i items ih =>
      rw [List.foldl_cons, if_neg (by simp [(h i (List.mem_cons_self ..)).untracked])]
      exact ih fun j hj => h j (List.mem_cons_of_mem _ hj)

theorem modifierSnapshots_plain (h : ∀ i ∈ items, i.Plain) (rows : List TransactionItem) :
    modifierSnapshots user tid items rows = [] := by
  unfold modifierSnapshots
  induction items generalizing rows with
  | nil => rfl
  | cons i items ih =>
      cases rows with
      | nil => rfl
      | cons row rows =>
          rw [List.zipWith_cons_cons, List.flatten_cons, modifierRows,
            (h i (List.mem_cons_self ..)).options, ih fun j hj => h j (List.mem_cons_of_mem _ hj)]
          rfl

end Rows

-- ============================================================================
-- Writing them
-- ============================================================================

section Writes

variable {user : JwtPayload} {tid : Id} {dto : CheckoutDto} {db : Db} {envs : Nat → Env} {n : Nat}
  {log : Db → Db} {items : List ValidatedItem} {totals : Totals} {tender : Option Int}

/-- The lines are written one after the other. -/
theorem ends_itemRows (h : ∀ i ∈ items, i.Plain) :
    Prog.Ends db envs (Prog.each (createItem user tid) items) n log
      (fun rows n' log' => rows = itemRows user tid envs n items ∧ n' = n + items.length ∧
        log' db = Db.addTransactionItems rows (log db)) (fun _ => False) := by
  induction items generalizing n log with
  | nil => exact ⟨rfl, rfl, by simp [Db.addTransactionItems]⟩
  | cons i items ih =>
      rw [Prog.each_cons, Prog.ends_bind, createItem, (h i (List.mem_cons_self ..)).note, ensure,
        Prog.guard_true, Prog.ret_bind, insert, Prog.write, Prog.ends_stmt, Prog.ends_ret,
        Prog.ends_bind]
      apply (ih fun j hj => h j (List.mem_cons_of_mem _ hj)).mono _ fun _ he => he
      rintro rows n' log' ⟨rfl, rfl, hlog⟩
      refine ⟨rfl, by rw [List.length_cons]; omega, ?_⟩
      rw [hlog]
      simp [Db.addTransactionItems]

/-- **A sale of plain lines is written**, where its key and its identifier are free. -/
theorem ends_persist_plain (hwf : Wf db) (h : ∀ i ∈ items, i.Plain)
    (hfree : db.sales.transactions.any (hasKey user.tenantId dto.clientTransactionId) = false)
    (hfresh : ∀ t ∈ db.sales.transactions, t.id ≠ (envs n).fresh 0)
    (hitems : ∀ i ∈ db.sales.transactionItems, ∀ j ∈ itemRows user ((envs n).fresh 0) envs (n + 1)
      items, i.id ≠ j.id) :
    Prog.Ends db envs (persist user dto items totals tender) n id
      (fun rec _ log => log db = (plainRows user dto envs n items totals tender).apply db ∧
        ∃ rank, rec = recordOf ((plainRows user dto envs n items totals tender).sales {}) rank
          (plainRows user dto envs n items totals tender).transaction) (fun _ => False) := by
  let rows := plainRows user dto envs n items totals tender
  have hlinked : rows.Linked := linked_plainRows
  unfold persist
  rw [Prog.ends_bind, insertUnique, Prog.ends_stmt]
  simp only [id_eq, hfree, Bool.false_eq_true, if_false]
  rw [Prog.ends_ret, Prog.ends_bind]
  apply (ends_itemRows h).mono _ fun _ he => he
  rintro _ n1 log1 ⟨rfl, rfl, hlog1⟩
  rw [modifierSnapshots_plain h, stockByProduct_plain h]
  show Prog.Ends db envs (insert (paymentRow user ((envs n).fresh 0) dto.payment.method totals.total
    tender) Db.addPayment >>= fun _ => completeTransaction ((envs n).fresh 0) user.tenantId >>=
      fun completed => Prog.require completed (.prisma .P2025)) (n + 1 + items.length) log1 _ _
  rw [Prog.ends_bind, insert, Prog.write, Prog.ends_stmt, Prog.ends_ret, Prog.ends_bind,
    completeTransaction, Prog.write, Prog.ends_stmt, Prog.ends_ret]
  have hwritten : (Db.addPayment rows.payment (log1 db)).modifyTransactions
      (complete ((envs n).fresh 0) user.tenantId) = rows.apply db := by
    rw [hlog1, ← SaleRows.write_eq_apply hlinked hfresh]
    simp [SaleRows.write, Db.addPayment, Db.modifyTransactions, Db.addTransactionItems,
      Db.addTransaction, SaleRows.sales, SaleRows.stocks, SaleRows.takeStock, rows, plainRows,
      transactionRow]
  have hfind : (rows.apply db).sales.transactions.find? (fun t => t.id == (envs n).fresh 0 &&
      t.tenantId == user.tenantId) = some rows.transaction := by
    have hold : db.sales.transactions.find? (fun t => t.id == (envs n).fresh 0 &&
        t.tenantId == user.tenantId) = none := by
      rw [List.find?_eq_none]
      intro t ht
      simp [hfresh t ht]
    show (db.sales.transactions ++ [rows.transaction]).find? _ = _
    rw [List.find?_append, hold, Option.none_or, List.find?_singleton]
    simp [rows, plainRows, transactionRow]
  dsimp only [Function.comp_apply]
  rw [show paymentRow user ((envs n).fresh 0) dto.payment.method totals.total tender
    (envs (n + 1 + items.length)) = rows.payment from rfl, hwritten, hfind]
  rw [Option.map_some, Prog.require_some, Prog.ends_ret]
  exact ⟨hwritten, _, SaleRows.recordOf_own hwf hlinked hfresh hitems _⟩

end Writes

-- ============================================================================
-- The answer
-- ============================================================================

/-- Every amount of the sale is in the range of `money`. -/
structure SafeAmounts (items : List ValidatedItem) (totals : Totals) (tender : Option Int) :
    Prop where
  lines : ∀ i ∈ items, ∀ v ∈ [i.effectivePrice, i.product.cost, i.lineSubtotal, i.product.price],
    InRange v
  sums : ∀ v ∈ [totals.subtotal, totals.discount, totals.tax, totals.total], InRange v
  tender : ∀ v, tender = some v → totals.total ≤ v ∧ v ≤ maxSafeInteger

section Answer

variable {user : JwtPayload} {tid : Id} {dto : CheckoutDto} {envs : Nat → Env} {n : Nat}
  {items : List ValidatedItem} {totals : Totals} {tender : Option Int}

theorem mem_itemRows {row : TransactionItem} (h : row ∈ itemRows user tid envs n items) :
    ∃ i ∈ items, ∃ env, row = itemRow user tid i env := by
  induction items generalizing n with
  | nil => cases h
  | cons i items ih =>
      rcases List.mem_cons.mp h with rfl | h
      · exact ⟨i, List.mem_cons_self .., _, rfl⟩
      · obtain ⟨j, hj, hrow⟩ := ih h
        exact ⟨j, List.mem_cons_of_mem _ hj, hrow⟩

/-- A sale within the range is answered. -/
theorem toResponse_plain (h : SafeAmounts items totals tender) (rank : Id → Nat)
    (legacy : Id → Option LegacyProduct) :
    ∃ r, toResponse (recordOf ((plainRows user dto envs n items totals tender).sales {}) rank
      (plainRows user dto envs n items totals tender).transaction) legacy = .ok r := by
  let rows := plainRows user dto envs n items totals tender
  let rec' := recordOf (rows.sales {}) rank rows.transaction
  have hpayments : rec'.payments = [rows.payment] := by
    show orderBy _ _ _ ([rows.payment].filter (paymentOf rows.transaction)) = _
    rw [List.filter_cons_of_pos linked_plainRows.payment]
    rfl
  have htotal := h.sums totals.total (by simp)
  have hchange : ∀ v ∈ (tender.map fun t => t - totals.total).toList, InRange v := by
    intro v hv
    obtain ⟨t, ht, rfl⟩ := Option.map_eq_some_iff.mp (Option.mem_toList.mp hv)
    obtain ⟨hcovers, hmax⟩ := h.tender t ht
    obtain ⟨hnonneg, -⟩ := htotal
    constructor <;> omega
  have hitems : ∀ x ∈ rec'.items, ∀ v ∈ [x.item.unitPrice, x.item.unitCost, x.item.subtotal] ++
      x.item.basePriceSnapshot.toList ++ x.item.effectivePriceSnapshot.toList, InRange v := by
    intro x hx v hv
    obtain ⟨row, hrow, rfl⟩ := List.mem_map.mp hx
    have hmem : row ∈ rows.items := List.mem_of_mem_filter ((orderBy_perm ..).mem_iff.mp hrow)
    obtain ⟨i, hi, env, rfl⟩ := mem_itemRows hmem
    apply h.lines i hi v
    simp only [itemRow, Option.toList_some, List.mem_append, List.mem_cons, List.not_mem_nil,
      or_false] at hv ⊢
    tauto
  have hamounts : moneys rec'.amounts = .ok () := by
    rw [moneys_ok]
    intro v hv
    unfold TransactionRecord.amounts at hv
    rw [hpayments] at hv
    simp only [List.mem_append, List.mem_flatMap, List.mem_singleton, exists_eq_left] at hv
    rcases hv with ((hv | hv) | ⟨x, hx, hv⟩) | hv
    · exact hchange v hv
    · exact h.sums v hv
    · exact hitems x hx v (by simpa [or_assoc] using hv)
    · rcases List.mem_cons.mp hv with rfl | hv
      · exact htotal
      · rcases List.mem_append.mp hv with hv | hv
        · obtain ⟨hcovers, hmax⟩ := h.tender v (Option.mem_toList.mp hv)
          obtain ⟨hnonneg, -⟩ := htotal
          constructor <;> omega
        · exact hchange v hv
  exact ⟨_, Checked.bind_ok.mpr ⟨(), hamounts, rfl⟩⟩

end Answer

-- ============================================================================
-- A checkout
-- ============================================================================

section Checkout

variable {user : JwtPayload} {dto : CheckoutDto} {mode : CheckoutMode} {db : Db}
  {envs : Nat → Env} {items : List ValidatedItem} {totals : Totals} {tender : Option Int}

/-- What a direct sale meets that is let through, in a catalog without modifier groups. -/
structure Admitted (user : JwtPayload) (dto : CheckoutDto) (db : Db) (items : List ValidatedItem)
    (totals : Totals) (tender : Option Int) : Prop where
  actor : (db.accounts.users.find? fun u =>
    u.id == user.sub && u.tenantId == user.tenantId && u.isActive).isSome = true
  free : db.sales.transactions.find? (hasKey user.tenantId dto.clientTransactionId) = none
  session : (db.cashierSessions.find? (ownOpenSession user dto.cashierSessionId)).any
    (fun x => x.outletId == dto.outletId) = true
  outlet : (db.accounts.outlets.find? fun o =>
    o.id == dto.outletId && o.tenantId == user.tenantId && o.isActive).isSome = true
  noCustomer : dto.customerId = none
  noDiscount : dto.discount.getD 0 = 0
  products : (selectProducts user.tenantId (uniqueProductIds dto.items) db).length =
    (uniqueProductIds dto.items).length
  noGroups : db.catalog.productModifierGroups = []
  lines : validateItems
    { products := selectProducts user.tenantId (uniqueProductIds dto.items) db, assignments := []
      options := [] } dto.items = .ok items
  sums : ∃ tenant, (db.accounts.tenants.find? fun t => t.id == user.tenantId && t.isActive) =
    some tenant ∧ checkoutTotals tenant 0 items = .ok totals
  tender : checkTender dto.payment totals.total = .ok tender

theorem solo_query {α β : Type} {f : Db → α} {g : α → Body β} {n : Nat} {log : Db → Db} :
    (query f >>= g).solo db envs n log = (g (f (log db))).solo db envs (n + 1) log := rfl

theorem solo_ensure {β : Type} {c : Bool} {e : Exc} {g : Unit → Body β} {n : Nat} {log : Db → Db}
    (h : c = true) : (ensure c e >>= g).solo db envs n log = (g ()).solo db envs n log := by
  rw [h]
  rfl

theorem solo_lift {α β : Type} {x : Except Exc α} {a : α} {g : α → Body β} {n : Nat}
    {log : Db → Db} (h : x = .ok a) :
    (Prog.lift x >>= g).solo db envs n log = (g a).solo db envs n log := by
  rw [h]
  rfl

theorem solo_of_bind {α β : Type} {p : Body α} {f : α → Body β} {n n' : Nat} {log log' : Db → Db}
    {a : α} (h : p.solo db envs n log = ⟨n', log', .ok a⟩) :
    (p >>= f).solo db envs n log = (f a).solo db envs n' log' := by
  rw [Prog.solo_bind, h]

/-- It is let through with seven reads. -/
theorem Admitted.accept (h : Admitted user dto db items totals tender) :
    (accept .readCommitted user dto .v1).solo db envs 0 id =
      ⟨7, id, .ok (.inr (items, totals, tender))⟩ := by
  obtain ⟨tenant, htenant, htotals⟩ := h.sums
  obtain ⟨actor, hactor⟩ := Option.isSome_iff_exists.mp h.actor
  obtain ⟨x, hsession, houtlet⟩ := (Option.any_eq_true _ _).mp h.session
  have hauthorize : (authorize user).solo db envs 0 id = ⟨2, id, .ok (actor, tenant)⟩ := by
    unfold authorize
    rw [solo_query, solo_query]
    dsimp only [id_eq]
    rw [hactor, htenant]
    rfl
  have hcheck : (checkSession .readCommitted user dto .v1).solo db envs 3 id = ⟨4, id, .ok ()⟩ := by
    unfold checkSession findSession
    dsimp only
    show ((Prog.require (db.cashierSessions.find? (ownOpenSession user dto.cashierSessionId)) _ >>=
      _ : Body Unit)).solo db envs 4 id = _
    rw [hsession, Prog.require_some, Prog.ret_bind, houtlet]
    rfl
  have hparties : (checkParties user actor dto).solo db envs 4 id = ⟨5, id, .ok ()⟩ := by
    unfold checkParties
    rw [solo_query, id_eq, solo_ensure h.outlet, h.noCustomer, h.noDiscount]
    rfl
  have hcatalog : (loadCatalog user.tenantId dto.items).solo db envs 5 id = ⟨7, id, .ok
      { products := selectProducts user.tenantId (uniqueProductIds dto.items) db, assignments := []
        options := [] }⟩ := by
    have hnone : selectAssignments user.tenantId (uniqueProductIds dto.items) db = [] := by
      unfold selectAssignments
      rw [h.noGroups]
      rfl
    unfold loadCatalog
    rw [solo_query, id_eq, solo_ensure (beq_iff_eq.mpr h.products), solo_query]
    dsimp only [id_eq]
    rw [hnone]
    rfl
  unfold Kasir.accept
  rw [solo_of_bind hauthorize]
  dsimp only
  rw [findByKey, queryRanked, solo_of_bind (Prog.solo_read _ 2 id)]
  dsimp only [id_eq]
  rw [h.free]
  dsimp only [Option.map_none]
  unfold priceSale
  rw [Prog.bind_assoc, solo_of_bind hcheck, Prog.bind_assoc, solo_of_bind hparties, Prog.bind_assoc,
    solo_of_bind hcatalog, Prog.bind_assoc, solo_lift h.lines, h.noDiscount, Prog.bind_assoc,
    solo_lift htotals, Prog.bind_assoc, solo_lift h.tender]
  rfl

/-- **A sale of plain lines is made**: it is let through, written and answered, and adds
    its rows to the database. -/
theorem ends_checkout_plain (hwf : Wf db) (h : Admitted user dto db items totals tender)
    (hplain : ∀ i ∈ items, i.Plain) (hsafe : SafeAmounts items totals tender)
    (hfresh : ∀ t ∈ db.sales.transactions, t.id ≠ (envs 7).fresh 0)
    (hitems : ∀ i ∈ db.sales.transactionItems,
      ∀ j ∈ itemRows user ((envs 7).fresh 0) envs 8 items, i.id ≠ j.id) :
    Prog.Ends db envs (checkout .readCommitted user dto .v1) 0 id
      (fun _ _ log => log db = (plainRows user dto envs 7 items totals tender).apply db)
      (fun _ => False) := by
  have hfree : db.sales.transactions.any (hasKey user.tenantId dto.clientTransactionId) = false := by
    rw [List.any_eq_false]
    exact List.find?_eq_none.mp h.free
  rw [checkout_eq, Prog.ends_bind]
  refine (Prog.ends_of_ok h.accept).mpr ?_
  unfold finish
  rw [Prog.ends_bind]
  apply (ends_persist_plain hwf hplain hfree hfresh hitems).mono _ fun _ he => he
  rintro _ n log ⟨hlog, rank, rfl⟩
  obtain ⟨r, hr⟩ := @toResponse_plain user dto envs 7 items totals tender hsafe rank noLegacyProducts
  show Prog.Ends db envs (Prog.lift (toResponse _ noLegacyProducts)) _ _ _ _
  rw [hr]
  exact hlog

end Checkout

end Kasir.Transactions

namespace Kasir

open Txn Transactions

-- ============================================================================
-- The call
-- ============================================================================

section Sale

variable {c : Call} {db : Db} {envs : Nat → Env} {user : JwtPayload} {input : CheckoutDto}
  {mode : CheckoutMode}
  (hc : saleInput c = some (user, input, mode)) (hpre : c.precheck = none)
include hc hpre

/-- A sale call that is let in runs a checkout. -/
theorem sale_ends {Q : TransactionResponse → Nat → (Db → Db) → Prop} {Err : Exc → Prop}
    (h : Prog.Ends db envs
      (checkout .readCommitted user.normalized (coreRequest input mode) mode) 0 id Q Err) :
    Prog.Ends db envs (kasir.body c) 0 id (fun r n log => ∃ response, r = .sale response ∧
      Q response n log) Err := by
  have hbody : kasir.body c = createBody user input mode >>= fun r => Prog.ret (.sale r) := by
    cases c with
    | create user' input' =>
        cases hc
        rfl
    | createLegacySync user' input' =>
        cases hc
        rfl
    | _ => cases hc
  have hprepared : prepare user input mode = .ok (user.normalized, coreRequest input mode) := by
    cases c with
    | create user' input' =>
        cases hc
        obtain ⟨⟨u, d⟩, hprepare⟩ := errorOf_none hpre
        obtain ⟨rfl, rfl, -⟩ := prepare_eq hprepare
        exact hprepare
    | createLegacySync user' input' =>
        cases hc
        obtain ⟨⟨u, d'⟩, hx⟩ := errorOf_none hpre
        obtain ⟨d, hd, hprepare⟩ := Checked.bind_ok.mp hx
        unfold prepareLegacySync at hd
        split at hd
        · cases hd
        · obtain rfl := Except.ok.inj hd
          obtain ⟨rfl, rfl, -⟩ := prepare_eq hprepare
          exact hprepare
    | _ => cases hc
  rw [hbody, createBody, hprepared, Prog.lift_ok, Prog.ends_bind]
  show Prog.Ends db envs (Prog.lift (prepareCore (coreRequest input mode) mode) >>= fun normalized =>
    checkout .readCommitted user.normalized normalized mode) 0 id _ _
  rw [prepareCore_of_prepare hprepared]
  exact h.mono (fun r n log hQ => ⟨r, rfl, hQ⟩) fun _ he => he

end Sale

end Kasir
