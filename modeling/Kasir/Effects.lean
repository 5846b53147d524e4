/-
  Kasir.Effects

  What each call may do to the database when it commits.

  `Effect` lists the kinds of commits; every proof about runs is a case analysis
  over it.  The main result is that every body, under any interference, commits
  only what is listed for its call.
-/

import Kasir.Transactions.Recorded
import Kasir.HeldOrders.Proof
import Kasir.Shifts.Proof
import Kasir.Stock.Proof
import Kasir.Catalog.Replace

namespace Kasir

open Txn Transactions HeldOrders

-- ============================================================================
-- Commits
-- ============================================================================

/-- The sale a call asks for, where it asks for one by itself. -/
def saleInput : Call → Option (JwtPayload × CheckoutDto × CheckoutMode)
  | .create user input => some (user, input, .v1)
  | .createLegacySync user input => some (user, input.toCheckoutDto, .legacySync)
  | _ => none

/-- An order is there, OPEN at the version, just before a commit. -/
structure OpenOrder (tenantId orderId : Id) (version : Int) (o : HeldOrder) (before : Db) :
    Prop where
  mem : o ∈ before.held.heldOrders
  id : o.id = orderId
  tenantId : o.tenantId = tenantId
  status : o.status = .open
  version : o.version = version

/-- A new order with its lines, and its origin session. -/
structure NewOrder (R : Token → Prop) (actor : JwtPayload) (dto : CreateHeldOrderDto)
    (order : HeldOrder) (resolved : List ResolvedItem) (lines : List HeldLine) (seen : List Db)
    (before : Db) : Prop where
  priced : ∃ estimates env, order = orderRow actor dto estimates env ∧
    Priced actor.tenantId dto.items resolved estimates seen
  linesOf : LinesOf actor.tenantId order.id resolved lines
  fresh : ∀ x ∈ before.held.heldOrders, x.id ≠ order.id
  newLines : Held.NewLines actor.tenantId order.id lines before.held.heldOrderItems
  session : Saw seen fun s => ∃ x ∈ s.cashierSessions, x.id = dto.cashierSessionId ∧
    x.tenantId = actor.tenantId ∧ x.userId = actor.sub ∧ x.status = .open ∧
    x.outletId = dto.outletId
  there : ∃ x ∈ before.cashierSessions, x.id = dto.cashierSessionId ∧ x.tenantId = actor.tenantId
  sessionOpen : R (.sessionSought dto.cashierSessionId) → before.sessionOpen dto.cashierSessionId

/-- An OPEN order is edited; new lines come with new estimates. -/
structure EditedOrder (tenantId orderId : Id) (dto : UpdateHeldOrderDto) (o : HeldOrder)
    (repriced : Option (List ResolvedItem × Estimates)) (lines : Option (List HeldLine))
    (seen : List Db) (before : Db) : Prop where
  target : OpenOrder tenantId orderId dto.expectedVersion o before
  priced : Option.Rel (fun items x => Priced tenantId items x.1 x.2 seen) dto.items repriced
  linesOf : Option.Rel (LinesOf tenantId orderId) (repriced.map Prod.fst) lines
  newLines : ∀ ls ∈ lines, Held.NewLines tenantId orderId ls
    (before.held.removeLines (before.held.lineIds orderId)).heldOrderItems

/-- An OPEN order is converted; `record` is the order as the conversion read it. -/
structure ConvertedOrder (actor : JwtPayload) (orderId : Id) (version : Int)
    (record : HeldOrderRecord) (o : HeldOrder) (seen : List Db) (before : Db) : Prop where
  target : OpenOrder actor.tenantId orderId version o before
  read : Saw seen fun s => Wf s ∧ Evolves s before ∧ ∃ rank, ∃ x ∈ s.held.heldOrders,
    x.id = orderId ∧ x.status = .open ∧ x.version = version ∧ record = heldRecordOf s rank x
  session : Saw seen fun s => ∃ x ∈ s.cashierSessions,
    x.id = record.order.originCashierSessionId ∧ x.tenantId = actor.tenantId ∧
    x.status = .open ∧ x.outletId = record.order.outletId ∧ x.userId = record.order.cashierUserId

/-- A session is inserted for a user who has no open one. -/
structure OpenedSession (user : JwtPayload) (outletId : Id) (row : CashierSession) (before : Db) :
    Prop where
  made : row.tenantId = Js.toLowerCase user.tenantId ∧ row.userId = Js.toLowerCase user.sub ∧
    row.outletId = outletId ∧ row.status = .open
  none : ∀ x ∈ before.cashierSessions, Shifts.openSessionOf (Js.toLowerCase user.tenantId)
    (Js.toLowerCase user.sub) x = false
  cash : row.openingCash = Option.none

/-- An OPEN session is closed, and no OPEN order originates from it. -/
structure ClosedSession (R : Token → Prop) (user : JwtPayload) (shiftId : Id) (x : CashierSession)
    (before : Db) : Prop where
  row : x.id = shiftId ∧ x.tenantId = Js.toLowerCase user.tenantId ∧ x.status = .open
  mem : x ∈ before.cashierSessions
  noOpenOrder : R (.sessionSought shiftId) → ¬ before.held.hasOpenOrder shiftId

/-- The stock row an adjustment changes is there, or is new and empty. -/
structure AdjustedStock (scope : Stock.Scope) (dto : Stock.CreateStockAdjustmentDto) (isNew : Bool)
    (before : Db) : Prop where
  existing : isNew = false → ∃ r ∈ before.stocks.rowsOf scope.outletId scope.productId,
    dto.adjustmentType = .deduct → dto.quantity ≤ r.stock
  new : isNew = true → before.stocks.rowsOf scope.outletId scope.productId = [] ∧
    dto.adjustmentType = .add

/-- The catalog is edited by an operation.  A replaced product has the assignments of
    the request's list, if no other transaction assigned groups to it meanwhile. -/
structure EditedCatalog (R : Token → Prop) (user : JwtPayload) (op : CatalogServices.CatalogOp)
    (before after : Catalog) : Prop where
  ok : before.Ok → after.Ok
  others : ∀ t p, ¬ op.assigns user t p → after.assignmentsOf t p = before.assignmentsOf t p
  replaced : ∀ productId dto, op = .replaceModifierGroups productId dto →
    R (.replacing (Js.toLowerCase user.tenantId) (Js.toLowerCase productId)) →
    (after.assignmentsOf (Js.toLowerCase user.tenantId) (Js.toLowerCase productId)).map
        ProductModifierGroup.rule =
      dto.modifierGroups.map CatalogServices.AssignmentDto.rule

/-- What a call may do when it commits: its result, the states it has read from,
    and the committed states before and after. -/
inductive Effect (R : Token → Prop) : Call → Result → List Db → Db → Db → Prop
  /-- a sale request finds its sale -/
  | found {c user input mode r seen db} (hc : saleInput c = some (user, input, mode))
      (h : FoundSale user.normalized (coreRequest input mode) r db) :
      Effect R c (.sale r) seen db db
  /-- a sale request makes a sale -/
  | sold {c user input mode sale r seen db} (hc : saleInput c = some (user, input, mode))
      (h : NewSale R .readCommitted user.normalized (coreRequest input mode) mode sale r seen db) :
      Effect R c (.sale r) seen db (sale.rows.apply db)
  /-- a conversion finds the order CONVERTED, and the request's sale -/
  | replayed {user id input order existing r seen db}
      (horder : Replaying user.normalized.tenantId (Js.toLowerCase id)
        (Js.toLowerCase input.clientTransactionId) order existing seen db)
      (h : FoundSale user.normalized (coreRequest (replayDto order existing input) .v1) r db) :
      Effect R (.holdCheckout user id input) (.conversion ⟨r, true⟩) seen db db
  /-- an OPEN order is converted, with a sale that was there before -/
  | convertedFound {user id input record o r env seen db}
      (horder : ConvertedOrder user.normalized (Js.toLowerCase id) input.expectedVersion record o
        seen db)
      (h : FoundSale user.normalized (coreRequest (heldCheckoutDto record input) .v1) r db)
      (haccepted : Accepted (coreRequest (heldCheckoutDto record input) .v1) .v1) :
      Effect R (.holdCheckout user id input) (.conversion ⟨r, false⟩) seen db
        (onHeld (fun h => h.edit (Js.toLowerCase id) (conversionRow r.transactionId env) none) db)
  /-- an OPEN order is converted, with a sale of its own -/
  | convertedSold {user id input record o sale r env seen db}
      (horder : ConvertedOrder user.normalized (Js.toLowerCase id) input.expectedVersion record o
        seen db)
      (h : NewSale R .serializable user.normalized (coreRequest (heldCheckoutDto record input) .v1)
        .v1 sale r seen db) :
      Effect R (.holdCheckout user id input) (.conversion ⟨r, false⟩) seen db
        (onHeld (fun h => h.edit (Js.toLowerCase id) (conversionRow r.transactionId env) none)
          (sale.rows.apply db))
  | held {user input detail order resolved lines seen db}
      (h : NewOrder R user.normalized (createRequest input) order resolved lines seen db) :
      Effect R (.holdCreate user input) (.heldOrder detail) seen db
        (onHeld (fun h => (h.addOrder order).addLines lines) db)
  | updated {user id input detail o repriced lines seen db}
      (h : EditedOrder user.normalized.tenantId (Js.toLowerCase id) (updateRequest input) o repriced
        lines seen db) :
      Effect R (.holdUpdate user id input) (.heldOrder detail) seen db
        (onHeld (fun h => h.edit (Js.toLowerCase id)
          (updatedRow (updateRequest input).label (repriced.map Prod.snd)) lines) db)
  | cancelled {user id input detail o env seen db}
      (h : OpenOrder user.normalized.tenantId (Js.toLowerCase id) input.expectedVersion o db) :
      Effect R (.holdCancel user id input) (.heldOrder detail) seen db
        (onHeld (fun h => h.edit (Js.toLowerCase id) (cancelledRow env) none) db)
  | opened {user outletId row seen db}
      (h : OpenedSession user (Js.toLowerCase outletId) row db) :
      Effect R (.shiftOpen user outletId) (.shift (Shifts.shiftResponse row)) seen db
        (db.addCashierSession row)
  | closed {user id x env r seen db} (h : ClosedSession R user (Js.toLowerCase id) x db) :
      Effect R (.shiftClose user id) (.shift r) seen db
        (Shifts.closeSessions (Js.toLowerCase id) env db)
  | summarized {user id summary seen db}
      (h : Saw seen (Shifts.SummaryOf (Js.toLowerCase user.tenantId) (Js.toLowerCase id) summary)) :
      Effect R (.shiftSummary user id) (.summary summary) seen db db
  | adjusted {user dto isNew env env' row seen db}
      (h : AdjustedStock (Stock.scopeOf user dto) dto isNew db) :
      Effect R (.adjustStock user dto) (.stock row) seen db
        (Stock.adjust (Stock.scopeOf user dto) isNew (Stock.delta dto)
          (Stock.adjustmentRow user (Stock.scopeOf user dto) dto env)
          (Stock.movementRow user (Stock.scopeOf user dto) dto
            (Stock.adjustmentRow user (Stock.scopeOf user dto) dto env).id env') db)
  | edited {user op answer f seen db} (h : EditedCatalog R user op db.catalog (f db.catalog)) :
      Effect R (.catalog user op) (.catalog answer) seen db (db.modifyCatalog f)
  | administered {accounts seen db} :
      Effect R (.administer accounts) .unit seen db { db with accounts }

-- ============================================================================
-- Ownership of sales and orders
-- ============================================================================

section Owns

variable {R : Token → Prop} {a b : Db}

theorem OpenOrder.only {tenantId orderId : Id} {version : Int} {o : HeldOrder}
    (h : OpenOrder tenantId orderId version o a) (hwf : Wf a) :
    ∀ x ∈ a.held.heldOrders, x.id = orderId → x = o := fun _ hx hid =>
  eq_of_key (legal_heldOrders hwf.legal) hx h.mem (hid.trans h.id.symm)

/-- Editing an OPEN order makes no other order OPEN. -/
theorem hasOpenOrder_edit {tenantId orderId : Id} {version : Int} {o : HeldOrder}
    {row : HeldOrder → HeldOrder} {lines : Option (List HeldLine)} {h : Held}
    (ho : OpenOrder tenantId orderId version o a) (hwf : Wf a) (ha : a.held = h)
    (hrow : ∀ o, (row o).origin = o.origin) {s : Id}
    (hopen : (h.edit orderId row lines).hasOpenOrder s) : h.hasOpenOrder s := by
  subst ha
  obtain ⟨x, hx, horigin, hstatus⟩ := hopen
  obtain ⟨y, hy, rfl⟩ := Held.mem_edit.mp hx
  by_cases hid : y.id = orderId
  · have hyo := ho.only hwf y hy hid
    subst hyo
    rw [if_pos hid] at horigin
    have hkeep := hrow y
    simp only [HeldOrder.origin, Prod.mk.injEq] at hkeep
    exact ⟨y, hy, hkeep.2.2.2.1.symm.trans horigin, ho.status⟩
  · rw [if_neg hid] at horigin hstatus
    exact ⟨y, hy, horigin, hstatus⟩

/-- An edit of a locked OPEN order disturbs nobody else's orders and sessions. -/
theorem same_order_edit {orderId tenantId : Id} {row : HeldOrder → HeldOrder}
    {lines : Option (List HeldLine)} (hwf : Wf a) (hb : b.held = a.held.edit orderId row lines)
    (hrow : ∀ o, (row o).origin = o.origin)
    (hnew : ∀ ls ∈ lines, Held.NewLines tenantId orderId ls
      (a.held.removeLines (a.held.lineIds orderId)).heldOrderItems) {x : Id} (hx : x ≠ orderId) :
    same R (.order x) a b := by
  intro o _ _
  rw [hb]
  exact Held.slice_edit_other hrow (legal_heldOrderItems hwf.legal) hnew hx

theorem same_session_edit {tenantId orderId : Id} {version : Int} {o : HeldOrder}
    {row : HeldOrder → HeldOrder} {lines : Option (List HeldLine)} (hwf : Wf a)
    (ho : OpenOrder tenantId orderId version o a) (hrow : ∀ o, (row o).origin = o.origin)
    (hs : b.cashierSessions = a.cashierSessions) (hb : b.held = a.held.edit orderId row lines)
    (s : Id) : same R (.session s) a b := by
  simp only [same, hs, hb]
  exact ⟨fun x hx _ => hx, fun _ hno hopen => hno (hasOpenOrder_edit ho hwf rfl hrow hopen)⟩

/-- Orders keep their origin sessions when an order is edited. -/
theorem origin_edit {orderId : Id} {row : HeldOrder → HeldOrder} {lines : Option (List HeldLine)}
    (hwf : Wf a) (hrow : ∀ o, (row o).origin = o.origin)
    (hs : b.cashierSessions = a.cashierSessions) (hb : b.held = a.held.edit orderId row lines) :
    ∀ o ∈ b.held.heldOrders, ∃ s ∈ b.cashierSessions,
      s.id = o.originCashierSessionId ∧ s.tenantId = o.tenantId := by
  intro x hx
  rw [hb] at hx
  obtain ⟨y, hy, rfl⟩ := Held.mem_edit.mp hx
  obtain ⟨s, hmem, hid, htenant⟩ := hwf.origin y hy
  refine ⟨s, hs ▸ hmem, ?_⟩
  split
  · have hkeep := hrow y
    simp only [HeldOrder.origin, Prod.mk.injEq] at hkeep
    exact ⟨hid.trans hkeep.2.2.2.1.symm, htenant.trans hkeep.2.1.symm⟩
  · exact ⟨hid, htenant⟩

/-- A commit that edits one OPEN order, and whatever else it does to sales and
    stock, is a legitimate step if it is for sales and stock. -/
theorem guar_edit {held : List Token} {tenantId orderId : Id} {version : Int} {o : HeldOrder}
    {row : HeldOrder → HeldOrder} {lines : Option (List HeldLine)} (hwf : Wf a)
    (hlegal : b.legal = true) (hlock : .order orderId ∈ held)
    (ho : OpenOrder tenantId orderId version o a) (hrow : ∀ o, (row o).origin = o.origin)
    (hversion : o.version < (row o).version)
    (hnew : ∀ ls ∈ lines, Held.NewLines tenantId orderId ls
      (a.held.removeLines (a.held.lineIds orderId)).heldOrderItems)
    (hb : b.held = a.held.edit orderId row lines) (hs : b.cashierSessions = a.cashierSessions)
    (hcatalog : b.catalog = a.catalog) (hgrows : Sales.Grows a.sales b.sales)
    (hclosed : b.sales.Closed) (hkey : ∀ t k, .saleKey t k ∈ held ∨ same R (.saleKey t k) a b)
    (hstock : ∀ o p, .stock o p ∈ held ∨ b.stocks.rowsOf o p = a.stocks.rowsOf o p) :
    (protocol R).Guar held a b where
  inv :=
    { legal := hlegal, sales := hclosed, origin := origin_edit hwf hrow hs hb
      held := hb ▸ Held.closed_edit hrow hnew hwf.held ho.mem ho.id ho.tenantId }
  evolves :=
    { sales := hgrows, sessions := hs ▸ SessionsEvolve.refl _
      held := by
        rw [hb]
        refine Held.evolves_edit hrow (legal_heldOrderItems hwf.legal) hnew fun x hx hid => ?_
        rw [ho.only hwf x hx hid]
        exact hversion }
  owns := by
    refine owns_of hstock (fun x => ?_) (fun s => Or.inr (same_session_edit hwf ho hrow hs hb s))
      hkey (fun t u => Or.inr (same_openUser_of hs t u)) (fun s => Or.inr (same_sessionRead_of hs s))
      (fun s => Or.inr (same_sessionSought_of hs s))
      fun t p => Or.inr (same_replacing_of hcatalog t p)
    by_cases hx : x = orderId
    · exact Or.inl (hx ▸ hlock)
    · exact Or.inr (same_order_edit hwf hb hrow hnew hx)

/-- A commit that leaves sessions and held orders alone. -/
theorem guar_of_held {held : List Token} (hwf : Wf a) (hlegal : b.legal = true)
    (hb : b.held = a.held) (hs : b.cashierSessions = a.cashierSessions)
    (hreplacing : ∀ t p, .replaced t p ∈ held ∨ same R (.replacing t p) a b)
    (hgrows : Sales.Grows a.sales b.sales) (hclosed : b.sales.Closed)
    (hkey : ∀ t k, .saleKey t k ∈ held ∨ same R (.saleKey t k) a b)
    (hstock : ∀ o p, .stock o p ∈ held ∨ b.stocks.rowsOf o p = a.stocks.rowsOf o p) :
    (protocol R).Guar held a b where
  inv :=
    { legal := hlegal, sales := hclosed, held := hb ▸ hwf.held
      origin := by rw [hb, hs]; exact hwf.origin }
  evolves :=
    { sales := hgrows, held := hb ▸ Held.Evolves.refl _, sessions := hs ▸ SessionsEvolve.refl _ }
  owns := owns_of hstock (fun x => Or.inr (same_order_of hb x))
    (fun s => Or.inr (same_session_of hs hb s)) hkey
    (fun t u => Or.inr (same_openUser_of hs t u)) (fun s => Or.inr (same_sessionRead_of hs s))
    (fun s => Or.inr (same_sessionSought_of hs s)) hreplacing

end Owns

-- ============================================================================
-- Every body commits what is listed for its call
-- ============================================================================

section Commits

variable {R : Token → Prop} {st : St Db Token} {db : Db}

/-- The log of a transaction that started with none. -/
theorem log_of_ran {w : Db → Db} {db0 : Db} (h : Ran R w St.start db0 st db) (d : Db) :
    st.log d = w d := h.log d

/-- From the last statement to the commit nothing is sent. -/
theorem ran_of_rely {d : Db} (h : (protocol R).Rely st.held db d) : Ran R id st db st d :=
  ⟨fun _ => rfl, fun _ h => h, fun _ h => h, h⟩

/-- A commit that changes nothing. -/
theorem guar_refl {held : List Token} {d : Db} (h : Wf d) : (protocol R).Guar held d d :=
  ⟨h, Evolves.refl d, fun l => Or.inl (same_refl R l d)⟩

/-- What a sale owes to the others, besides held orders. -/
theorem Transactions.Sold.keys {tx : TransactionClient} {user : JwtPayload} {dto : CheckoutDto}
    {mode : CheckoutMode} {sale : Sale} {r : TransactionResponse} {b : Db}
    (h : Sold R tx user dto mode sale r st db) (hb : b.sales = sale.rows.sales db.sales) (t k : Id) :
    .saleKey t k ∈ st.held ∨ same R (.saleKey t k) db b := by
  rcases same_saleKey_sales (R := R) hb h.built.hasKey t k with ⟨rfl, rfl⟩ | hsame
  · exact Or.inl h.key.lock
  · exact Or.inr hsame

theorem Transactions.Sold.stocks {tx : TransactionClient} {user : JwtPayload} {dto : CheckoutDto}
    {mode : CheckoutMode} {sale : Sale} {r : TransactionResponse} {b : Db}
    (h : Sold R tx user dto mode sale r st db) (hb : b.stocks = sale.rows.stocks db.stocks)
    (o p : Id) : .stock o p ∈ st.held ∨ b.stocks.rowsOf o p = db.stocks.rowsOf o p := by
  rcases same_stock_stocks hb o p with ⟨ho, hp⟩ | hsame
  · exact Or.inl (h.covered.mem_held (ho.trans h.built.outletId) hp)
  · exact Or.inr hsame

theorem sold_commits {c : Call} {user : JwtPayload} {input : CheckoutDto} {mode : CheckoutMode}
    {sale : Sale} {r : TransactionResponse} {db0 : Db}
    (hc : saleInput c = some (user, input, mode))
    (hran : Ran R sale.rows.write St.start db0 st db)
    (h : Sold R .readCommitted user.normalized (coreRequest input mode) mode sale r st db) :
    Commits (protocol R) Db.legal (Effect R c) (.sale r) st db := by
  intro d hrely hlegal
  rw [log_of_ran hran] at hlegal ⊢
  have hnew := h.newSale hrely hlegal rfl
  rw [hnew.write_eq] at hlegal ⊢
  have hd := h.later (ran_of_rely hrely)
  exact ⟨guar_of_held hrely.inv hlegal rfl rfl (fun t p => Or.inr (same_replacing_of rfl t p))
    hnew.grows
    (SaleRows.closed hnew.built.linked hrely.inv.sales) (hd.keys rfl) (hd.stocks rfl),
    .sold hc hnew⟩

theorem found_commits {c : Call} {user : JwtPayload} {input : CheckoutDto} {mode : CheckoutMode}
    {r : TransactionResponse} {db0 : Db} (hc : saleInput c = some (user, input, mode))
    (hran : Ran R id St.start db0 st db)
    (h : Found user.normalized (coreRequest input mode) r st.seen db) :
    Commits (protocol R) Db.legal (Effect R c) (.sale r) st db := by
  intro d hrely hlegal
  rw [log_of_ran hran] at hlegal ⊢
  exact ⟨guar_refl hrely.inv, .found hc (h.foundSale hrely.evolves)⟩

/-- A sale request, whichever way it comes. -/
theorem sale_body {c : Call} {user : JwtPayload} {input : CheckoutDto} {mode : CheckoutMode}
    (hc : saleInput c = some (user, input, mode)) :
    wp (protocol R) .readCommitted (createBody user input mode >>= fun r => Prog.ret (.sale r))
      (Commits (protocol R) Db.legal (Effect R c)) St.start db := by
  rw [wp_bind]
  exact wp_createBody onlyHeld_id
    (fun r st' db' hran h => found_commits hc hran h)
    (fun sale r st' db' hran h => sold_commits hc hran h)

theorem OpenOrder.of_target {tenantId orderId : Id} {version : Int} {o : HeldOrder}
    {held : List Token} (h : Target tenantId orderId version o held db) :
    OpenOrder tenantId orderId version o db := by
  have hopen := h.openAt
  simp only [openAt, Bool.and_eq_true, beq_iff_eq] at hopen
  exact ⟨h.mem, hopen.1.1.1, hopen.1.1.2, hopen.1.2, hopen.2⟩

theorem ConvertedOrder.of_converting {actor : JwtPayload} {orderId : Id} {version : Int}
    {record : HeldOrderRecord} {o : HeldOrder}
    (h : Converting actor orderId version record o st db) :
    ConvertedOrder actor orderId version record o st.seen db :=
  ⟨.of_target h.target, h.read, h.session⟩

/-- No new lines. -/
theorem noNewLines {tenantId orderId : Id} {old : List HeldOrderItem} :
    ∀ ls ∈ (none : Option (List HeldLine)), Held.NewLines tenantId orderId ls old :=
  fun _ h => by cases h

theorem conversion_origin (tid : Id) (env : Env) (o : HeldOrder) :
    (conversionRow tid env o).origin = o.origin := rfl

theorem cancelled_origin (env : Env) (o : HeldOrder) : (cancelledRow env o).origin = o.origin := rfl

theorem conversion_version (tid : Id) (env : Env) (o : HeldOrder) :
    o.version < (conversionRow tid env o).version := by
  simp [conversionRow, convertedRow, claimedRow]

theorem checkout_body {user : JwtPayload} {id : String} {input : CheckoutHeldOrderDto} :
    wp (protocol R) .serializable (checkoutBody user id input >>= fun r => Prog.ret (.conversion r))
      (Commits (protocol R) Db.legal (Effect R (.holdCheckout user id input))) St.start db := by
  rw [wp_bind]
  refine wp_checkoutBody (fun _ => rfl) ?_ ?_ ?_
  · intro order existing r st1 db1 hran hrep h d hrely hlegal
    rw [log_of_ran hran] at hlegal ⊢
    exact ⟨guar_refl hrely.inv,
      .replayed (hrep.later (ran_of_rely hrely)) (h.foundSale hrely.evolves)⟩
  · intro record o r env st1 db1 hran hconv haccepted h d hrely hlegal
    rw [log_of_ran hran] at hlegal ⊢
    have hd := hconv.later (ran_of_rely hrely)
    refine ⟨?_, .convertedFound (.of_converting hd) (h.foundSale hrely.evolves) haccepted⟩
    exact guar_edit hrely.inv hlegal hd.target.lock (.of_target hd.target)
      (conversion_origin r.transactionId env) (conversion_version _ _ _) noNewLines rfl rfl rfl
      (Sales.Grows.refl _) hrely.inv.sales
      (fun t k => Or.inr (same_saleKey_of (R := R) rfl t k)) (fun _ _ => Or.inr rfl)
  · intro record o sale r env st1 db1 hran hconv h d hrely hlegal
    rw [log_of_ran hran] at hlegal ⊢
    have hd := hconv.later (ran_of_rely hrely)
    have hnew := h.newSale hrely hlegal rfl
    simp only [Function.comp_apply, hnew.write_eq] at hlegal ⊢
    have hs := h.later (ran_of_rely hrely)
    refine ⟨?_, .convertedSold (.of_converting hd) hnew⟩
    exact guar_edit hrely.inv hlegal hd.target.lock (.of_target hd.target)
      (conversion_origin r.transactionId env) (conversion_version _ _ _) noNewLines rfl rfl rfl
      hnew.grows (SaleRows.closed hnew.built.linked hrely.inv.sales) (hs.keys rfl) (hs.stocks rfl)

-- ============================================================================
-- Held orders
-- ============================================================================

theorem NewOrder.of_creating {actor : JwtPayload} {dto : CreateHeldOrderDto} {order : HeldOrder}
    {resolved : List ResolvedItem} {lines : List HeldLine}
    (h : Creating R actor dto order resolved lines st db)
    (hlegal : Db.legal (onHeld (fun h => (h.addOrder order).addLines lines) db) = true) :
    NewOrder R actor dto order resolved lines st.seen db where
  priced := h.priced
  linesOf := h.lines
  fresh := by
    have hnodup := legal_heldOrders hlegal
    simp only [onHeld, Held.addLines, Held.addOrder, List.map_append] at hnodup
    intro x hx heq
    exact (List.nodup_append.mp hnodup).2.2 x.id (List.mem_map_of_mem hx) order.id (by simp) heq
  newLines := Held.newLines_of_legal (h := db.held.addOrder order) h.lines.fit
    (legal_heldOrderItems hlegal)
  session := h.session.read
  there := h.session.there
  sessionOpen hR := (h.session.locked hR).2

section NewOrder

variable {actor : JwtPayload} {dto : CreateHeldOrderDto} {order : HeldOrder}
  {resolved : List ResolvedItem} {lines : List HeldLine} {seen : List Db}

theorem NewOrder.row_eq (h : NewOrder R actor dto order resolved lines seen db) :
    order.tenantId = actor.tenantId ∧ order.originCashierSessionId = dto.cashierSessionId ∧
      order.status = .open ∧ order.version = 1 := by
  obtain ⟨estimates, env, rfl, -⟩ := h.priced
  exact ⟨rfl, rfl, rfl, rfl⟩

/-- Only the session of the new order gets an OPEN order. -/
theorem NewOrder.hasOpenOrder (h : NewOrder R actor dto order resolved lines seen db) {s : Id}
    (hopen : ((db.held.addOrder order).addLines lines).hasOpenOrder s) :
    s = dto.cashierSessionId ∨ db.held.hasOpenOrder s := by
  obtain ⟨x, hx, horigin, hstatus⟩ := hopen
  rcases List.mem_append.mp hx with hx | hx
  · exact Or.inr ⟨x, hx, horigin, hstatus⟩
  · rw [List.mem_singleton.mp hx] at horigin
    exact Or.inl (horigin.symm.trans h.row_eq.2.1)

end NewOrder

theorem create_body {user : JwtPayload} {input : CreateHeldOrderDto} :
    wp (protocol R) .readCommitted
      (HeldOrders.createBody user input >>= fun r => Prog.ret (.heldOrder r))
      (Commits (protocol R) Db.legal (Effect R (.holdCreate user input))) St.start db := by
  rw [wp_bind]
  refine wp_createBody onlyHeld_id fun detail order resolved lines st1 db1 hran h d hrely hlegal => ?_
  rw [log_of_ran hran] at hlegal ⊢
  have hd := h.later (ran_of_rely hrely)
  have hnew := NewOrder.of_creating hd hlegal
  have hwf := hrely.inv
  refine ⟨⟨?_, ?_, ?_⟩, .held hnew⟩
  · exact
      { legal := hlegal, sales := hwf.sales
        held := Held.closed_add hwf.held hnew.newLines hnew.row_eq.1
        origin := by
          intro o ho
          rcases List.mem_append.mp ho with ho | ho
          · exact hwf.origin o ho
          · obtain ⟨x, hx, hid, htenant⟩ := hnew.there
            rw [List.mem_singleton.mp ho]
            exact ⟨x, hx, hid.trans hnew.row_eq.2.1.symm, htenant.trans hnew.row_eq.1.symm⟩ }
  · exact ⟨Sales.Grows.refl _, Held.evolves_add hnew.fresh hnew.newLines, SessionsEvolve.refl _⟩
  · refine owns_of (fun _ _ => Or.inr rfl) (fun x => Or.inr fun o ho hid => ?_) (fun s => ?_)
      (fun t k => Or.inr (same_saleKey_of (R := R) rfl t k))
      (fun t u => Or.inr (same_openUser_of (R := R) rfl t u))
      (fun s => Or.inr (same_sessionRead_of (R := R) rfl s))
      (fun s => Or.inr (same_sessionSought_of (R := R) rfl s))
      fun t p => Or.inr (same_replacing_of (R := R) rfl t p)
    · exact Held.slice_add_other hnew.newLines (hid ▸ hnew.fresh o ho)
    · -- the session of the order is locked, if it was there when it was looked for
      by_cases hs : s = (createRequest input).cashierSessionId ∧ R (.sessionSought s)
      · exact Or.inl (hs.1 ▸ (hd.session.locked (hs.1 ▸ hs.2)).1)
      · refine Or.inr ⟨fun x hx _ => hx, fun hR hno hopen => ?_⟩
        rcases hnew.hasOpenOrder hopen with heq | hopen
        · exact hs ⟨heq, hR⟩
        · exact hno hopen

theorem updatedRow_origin (label : Option (Option String)) (estimates : Option Estimates)
    (o : HeldOrder) : (updatedRow label estimates o).origin = o.origin := by
  cases label <;> cases estimates <;> rfl

theorem updatedRow_version (label : Option (Option String)) (estimates : Option Estimates)
    (o : HeldOrder) : (updatedRow label estimates o).version = o.version + 1 := by
  cases label <;> cases estimates <;> rfl

theorem fit_of_rel {tenantId orderId : Id} {resolved : Option (List ResolvedItem)}
    {lines : Option (List HeldLine)} (h : Option.Rel (LinesOf tenantId orderId) resolved lines) :
    ∀ ls ∈ lines, Held.LinesFit tenantId orderId ls := by
  intro ls hls
  cases h with
  | none => cases hls
  | some h =>
      cases hls
      exact h.fit

theorem EditedOrder.of_updating {tenantId orderId : Id} {dto : UpdateHeldOrderDto} {o : HeldOrder}
    {repriced : Option (List ResolvedItem × Estimates)} {lines : Option (List HeldLine)}
    {ids : List Id} {row : HeldOrder → HeldOrder}
    (h : Updating tenantId orderId dto o repriced lines ids st db)
    (hlegal : Db.legal (onHeld (fun h => h.edit orderId row lines) db) = true) :
    EditedOrder tenantId orderId dto o repriced lines st.seen db where
  target := .of_target h.target
  priced := h.priced
  linesOf := h.lines
  newLines := by
    intro ls hls
    cases hls
    exact Held.newLines_of_legal (fit_of_rel h.lines ls rfl) (legal_heldOrderItems hlegal)

theorem update_body {user : JwtPayload} {id : String} {input : UpdateHeldOrderDto} :
    wp (protocol R) .readCommitted
      (updateBody user id input >>= fun r => Prog.ret (.heldOrder r))
      (Commits (protocol R) Db.legal (Effect R (.holdUpdate user id input))) St.start db := by
  rw [wp_bind]
  refine wp_updateBody (fun _ => rfl)
    fun detail o repriced lines ids st1 db1 hran h d hrely hlegal => ?_
  have hd := h.later (ran_of_rely hrely)
  have hlog : st1.log d = onHeld (fun h => h.edit (Js.toLowerCase id)
      (updatedRow (updateRequest input).label (repriced.map Prod.snd)) lines) d := by
    rw [log_of_ran hran]
    exact congrArg (fun x => { d with held := x }) (replaceLines_eq_edit hd.ids)
  rw [hlog] at hlegal ⊢
  have hedited := EditedOrder.of_updating hd hlegal
  refine ⟨guar_edit hrely.inv hlegal hd.target.lock hedited.target
    (updatedRow_origin _ _) ?_ hedited.newLines rfl rfl rfl (Sales.Grows.refl _) hrely.inv.sales
    (fun t k => Or.inr (same_saleKey_of (R := R) rfl t k)) (fun _ _ => Or.inr rfl), .updated hedited⟩
  rw [updatedRow_version]
  exact Int.lt_succ _

theorem cancel_body {user : JwtPayload} {id : String} {input : CancelHeldOrderDto} :
    wp (protocol R) .readCommitted
      (cancelBody user id input >>= fun r => Prog.ret (.heldOrder r))
      (Commits (protocol R) Db.legal (Effect R (.holdCancel user id input))) St.start db := by
  rw [wp_bind]
  refine wp_cancelBody (fun _ => rfl) fun detail o env st1 db1 hran h d hrely hlegal => ?_
  rw [log_of_ran hran] at hlegal ⊢
  have hd := h.later (ran_of_rely hrely)
  refine ⟨?_, .cancelled (.of_target hd)⟩
  exact guar_edit hrely.inv hlegal hd.lock (.of_target hd)
    (cancelled_origin env) (Int.lt_succ _) noNewLines rfl rfl rfl (Sales.Grows.refl _) hrely.inv.sales
    (fun t k => Or.inr (same_saleKey_of (R := R) rfl t k)) (fun _ _ => Or.inr rfl)

-- ============================================================================
-- Shifts
-- ============================================================================

theorem open_body {user : JwtPayload} {outletId : String} :
    wp (protocol R) .serializable
      (Shifts.openBody user outletId >>= fun r => Prog.ret (.shift r))
      (Commits (protocol R) Db.legal (Effect R (.shiftOpen user outletId))) St.start db := by
  rw [wp_bind]
  refine Shifts.wp_openBody (fun _ => rfl) fun row st1 db1 hran h d hrely hlegal => ?_
  rw [log_of_ran hran] at hlegal ⊢
  have hd := h.later (ran_of_rely hrely)
  have hwf := hrely.inv
  refine ⟨⟨?_, ?_, ?_⟩, .opened ⟨hd.made, hd.none, hd.cash⟩⟩
  · refine ⟨hlegal, hwf.sales, hwf.held, fun o ho => ?_⟩
    obtain ⟨x, hx, hown⟩ := hwf.origin o ho
    exact ⟨x, List.mem_append_left _ hx, hown⟩
  · exact ⟨Sales.Grows.refl _, Held.Evolves.refl _, fun x hx =>
      ⟨x, List.mem_append_left _ hx, rfl, fun _ => rfl⟩⟩
  · refine owns_of (fun _ _ => Or.inr rfl) (fun x => Or.inr (same_order_of (R := R) rfl x))
      (fun s => Or.inr ⟨fun x hx _ => List.mem_append_left _ hx, fun _ hno => hno⟩)
      (fun t k => Or.inr (same_saleKey_of (R := R) rfl t k)) (fun t u => ?_)
      (fun s => Or.inr fun _ hopen => ?_) (fun s => ?_)
      (fun t p => Or.inr (same_replacing_of (R := R) rfl t p))
    · by_cases hown : t = Js.toLowerCase user.tenantId ∧ u = Js.toLowerCase user.sub
      · exact Or.inl (hown.1 ▸ hown.2 ▸ hd.lock)
      · refine Or.inr fun hnone x hx => ?_
        rcases List.mem_append.mp hx with hx | hx
        · exact hnone x hx
        · rw [List.mem_singleton.mp hx]
          cases hcase : Shifts.openSessionOf t u row with
          | false => rfl
          | true =>
              simp only [Shifts.openSessionOf, Bool.and_eq_true, beq_iff_eq] at hcase
              exact absurd ⟨hcase.1.1.symm.trans hd.made.1, hcase.1.2.symm.trans hd.made.2.1⟩ hown
    · obtain ⟨x, hx, hid, hstatus⟩ := hopen
      exact ⟨x, List.mem_append_left _ hx, hid, hstatus⟩
    · by_cases hs : s = row.id ∧ R (.sessionSought s)
      · exact Or.inl ⟨hs.1 ▸ hd.inserted, hs.2⟩
      · refine Or.inr fun hR hnone x hx => ?_
        rcases List.mem_append.mp hx with hx | hx
        · exact hnone x hx
        · rw [List.mem_singleton.mp hx]
          exact fun heq => hs ⟨heq.symm, hR⟩

section Close

variable {shiftId : Id} {env : Env}

/-- Sessions other than the closed one stay. -/
theorem mem_closeSessions {x : CashierSession} (hx : x ∈ db.cashierSessions)
    (hid : x.id ≠ shiftId) : x ∈ (Shifts.closeSessions shiftId env db).cashierSessions :=
  List.mem_map.mpr ⟨x, hx, if_neg hid⟩

/-- Every session after a close is one from before, or the closed one. -/
theorem of_mem_closeSessions {y : CashierSession}
    (hy : y ∈ (Shifts.closeSessions shiftId env db).cashierSessions) :
    y ∈ db.cashierSessions ∨ ∃ x ∈ db.cashierSessions, x.id = shiftId ∧
      y = Shifts.closedRow env x := by
  obtain ⟨x, hx, rfl⟩ := List.mem_map.mp hy
  by_cases hid : x.id = shiftId
  · exact Or.inr ⟨x, hx, hid, if_pos hid⟩
  · rw [if_neg hid]
    exact Or.inl hx

theorem closeSessions_origin (hwf : Wf db) :
    ∀ o ∈ db.held.heldOrders, ∃ s ∈ (Shifts.closeSessions shiftId env db).cashierSessions,
      s.id = o.originCashierSessionId ∧ s.tenantId = o.tenantId := by
  intro o ho
  obtain ⟨x, hx, hid, htenant⟩ := hwf.origin o ho
  refine ⟨_, List.mem_map_of_mem hx, ?_⟩
  split
  · exact ⟨hid, htenant⟩
  · exact ⟨hid, htenant⟩

end Close

/-- Closing an OPEN session that is locked is a legitimate step. -/
theorem guar_close {user : JwtPayload} {shiftId : Id} {x : CashierSession} {env : Env}
    {held : List Token} (hwf : Wf db) (h : Shifts.Closing R user shiftId x held db)
    (hlegal : (Shifts.closeSessions shiftId env db).legal = true) :
    (protocol R).Guar held db (Shifts.closeSessions shiftId env db) where
  inv := ⟨hlegal, hwf.sales, hwf.held, closeSessions_origin hwf⟩
  evolves := by
    refine ⟨Sales.Grows.refl _, Held.Evolves.refl _, fun y hy => ?_⟩
    by_cases hid : y.id = shiftId
    · have hyx : y = x := eq_of_key (legal_cashierSessions hwf.legal) hy h.mem
        (hid.trans h.row.1.symm)
      refine ⟨Shifts.closedRow env y, List.mem_map.mpr ⟨y, hy, if_pos hid⟩, rfl, fun hclosed => ?_⟩
      rw [hyx, h.row.2.2] at hclosed
      cases hclosed
    · exact ⟨y, mem_closeSessions hy hid, rfl, fun _ => rfl⟩
  owns := by
    refine owns_of (fun _ _ => Or.inr rfl) (fun y => Or.inr (same_order_of (R := R) rfl y))
      (fun s => ?_) (fun t k => Or.inr (same_saleKey_of (R := R) rfl t k))
      (fun t u => Or.inr fun hnone y hy => ?_) (fun s => ?_)
      (fun s => Or.inr fun _ hnone y hy => ?_)
      (fun t p => Or.inr (same_replacing_of (R := R) rfl t p))
    · by_cases hs : s = shiftId
      · exact Or.inl (hs ▸ h.lock)
      · exact Or.inr ⟨fun y hy hid => mem_closeSessions hy (hid ▸ hs), fun _ hno => hno⟩
    · rcases of_mem_closeSessions hy with hy | ⟨z, -, -, rfl⟩
      · exact hnone y hy
      · simp [Shifts.openSessionOf, Shifts.closedRow]
    · by_cases hs : s = shiftId ∧ R (.sessionRead s)
      · exact Or.inl ⟨hs.1 ▸ h.closing, hs.2⟩
      · refine Or.inr fun hR hopen => ?_
        obtain ⟨y, hy, hid, hstatus⟩ := hopen
        exact ⟨y, mem_closeSessions hy fun heq => hs ⟨hid.symm.trans heq, hR⟩, hid, hstatus⟩
    · rcases of_mem_closeSessions hy with hy | ⟨z, hz, -, rfl⟩
      · exact hnone y hy
      · exact hnone z hz

theorem close_body {user : JwtPayload} {id : String} :
    wp (protocol R) .readCommitted
      (Shifts.closeBody user id >>= fun r => Prog.ret (.shift r))
      (Commits (protocol R) Db.legal (Effect R (.shiftClose user id))) St.start db := by
  rw [wp_bind]
  refine Shifts.wp_closeBody (fun _ => rfl) fun x env r st1 db1 hran h d hrely hlegal => ?_
  rw [log_of_ran hran] at hlegal ⊢
  have hd := h.later (ran_of_rely hrely)
  exact ⟨guar_close hrely.inv hd hlegal, .closed ⟨hd.row, hd.mem, hd.noOpenOrder⟩⟩

theorem summary_body {user : JwtPayload} {id : String} :
    wp (protocol R) .repeatableRead
      (Shifts.summaryBody user id >>= fun r => Prog.ret (.summary r))
      (Commits (protocol R) Db.legal (Effect R (.shiftSummary user id))) St.start db := by
  rw [wp_bind]
  refine Shifts.wp_summaryBody (fun _ => rfl) fun summary st1 db1 s hran hseen h d hrely hlegal => ?_
  rw [log_of_ran hran] at hlegal ⊢
  exact ⟨guar_refl hrely.inv, .summarized ⟨s, hseen, h⟩⟩

-- ============================================================================
-- Stock, catalog and accounts
-- ============================================================================

theorem adjust_body {user : JwtPayload} {dto : Stock.CreateStockAdjustmentDto} :
    wp (protocol R) .readCommitted
      (Stock.adjustmentBody user dto >>= fun r => Prog.ret (.stock r))
      (Commits (protocol R) Db.legal (Effect R (.adjustStock user dto))) St.start db := by
  rw [wp_bind]
  refine Stock.wp_adjustmentBody (fun _ => rfl)
    fun isNew env env' row st1 db1 hran h d hrely hlegal => ?_
  rw [log_of_ran hran] at hlegal ⊢
  have hd := h.later (ran_of_rely hrely)
  refine ⟨?_, .adjusted ⟨hd.existing, hd.new⟩⟩
  refine guar_of_held hrely.inv hlegal rfl rfl
    (fun t p => Or.inr (same_replacing_of (R := R) rfl t p)) (Sales.Grows.refl _) hrely.inv.sales
    (fun t k => Or.inr (same_saleKey_of (R := R) rfl t k)) fun o p => ?_
  by_cases hown : o = (Stock.scopeOf user dto).outletId ∧ p = (Stock.scopeOf user dto).productId
  · exact Or.inl (hown.1 ▸ hown.2 ▸ hd.lock)
  · exact Or.inr (Stock.rowsOf_adjusted_other hown)

theorem catalog_body {user : JwtPayload} {op : CatalogServices.CatalogOp} (h : op.valid = true) :
    wp (protocol R) .readCommitted
      (CatalogServices.catalogBody user op >>= fun answer => Prog.ret (.catalog answer))
      (Commits (protocol R) Db.legal (Effect R (.catalog user op))) St.start db := by
  have hreplaced : wp (protocol R) .readCommitted (CatalogServices.catalogBody user op)
      (fun _ st' db' => CatalogServices.ReplacedBy R user op st' db') St.start db :=
    CatalogServices.wp_replacedBy h fun _ => rfl
  have hedits : wp (protocol R) .readCommitted (CatalogServices.catalogBody user op)
      (fun _ st' db' => CatalogServices.Edits R (op.assigns user) St.start db st' db')
      St.start db := CatalogServices.wp_catalogBody h fun _ _ _ hedits => hedits
  rw [wp_bind]
  refine wp_mono ?_ (wp_and hedits hreplaced)
  rintro - st1 db1 ⟨⟨f, hf, hran⟩, hreplaced⟩ d hrely hlegal
  have hlist := hreplaced d hrely
  rw [log_of_ran hran] at hlegal hlist ⊢
  refine ⟨?_, .edited ⟨hf.ok d.catalog, fun t p hno => hf.others t p hno _, hlist⟩⟩
  refine guar_of_held hrely.inv hlegal rfl rfl (fun t p => ?_) (Sales.Grows.refl _)
    hrely.inv.sales (fun t k => Or.inr (same_saleKey_of (R := R) rfl t k)) fun _ _ => Or.inr rfl
  rcases hf.shrinks t p with hmark | hsub
  · exact Or.inl hmark
  · exact Or.inr fun _ => hsub d.catalog

theorem administer_body {accounts : Accounts} :
    wp (protocol R) .readCommitted (Call.body (.administer accounts))
      (Commits (protocol R) Db.legal (Effect R (.administer accounts))) St.start db := by
  refine wp_stmt fun st1 db1 s _ hran _ _ => ?_
  intro d hrely hlegal
  rw [log_of_ran hran] at hlegal ⊢
  refine ⟨?_, .administered⟩
  exact guar_of_held hrely.inv hlegal rfl rfl
    (fun t p => Or.inr (same_replacing_of (R := R) rfl t p)) (Sales.Grows.refl _) hrely.inv.sales
    (fun t k => Or.inr (same_saleKey_of (R := R) rfl t k)) fun _ _ => Or.inr rfl

/-- **Every call** commits only what is listed for it. -/
theorem body_commits (c : Call) (hprecheck : c.precheck = none) :
    wp (protocol R) c.isolation c.body (Commits (protocol R) Db.legal (Effect R c)) St.start db := by
  cases c with
  | create user input => exact sale_body rfl
  | createLegacySync user input => exact sale_body rfl
  | holdCreate user input => exact create_body
  | holdUpdate user id input => exact update_body
  | holdCancel user id input => exact cancel_body
  | holdCheckout user id input => exact checkout_body
  | shiftOpen user outletId => exact open_body
  | shiftClose user id => exact close_body
  | shiftSummary user id => exact summary_body
  | adjustStock user input => exact adjust_body
  | catalog user op =>
      refine catalog_body ?_
      simp only [Call.precheck] at hprecheck
      split at hprecheck
      · assumption
      · cases hprecheck
  | administer accounts => exact administer_body

end Commits

end Kasir
