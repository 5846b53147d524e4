/-
  Kasir.Transactions.Proof

  What the sale core does, whatever commits between its statements: it returns
  an earlier sale that the request matches, or it writes the rows of one new
  sale, built from the request and the master data it has read.
-/

import Kasir.Rules
import Kasir.Transactions.Rows

namespace Kasir

open Txn

/-- One of the states a transaction has read from satisfies `p`. -/
def Saw (seen : List Db) (p : Db → Prop) : Prop := ∃ s ∈ seen, p s

theorem Saw.mono {seen seen' : List Db} {p : Db → Prop} (h : Saw seen p) (hsub : seen ⊆ seen') :
    Saw seen' p := by
  obtain ⟨s, hs, hp⟩ := h
  exact ⟨s, hsub hs, hp⟩

theorem Saw.imp {seen : List Db} {p q : Db → Prop} (h : Saw seen p) (hpq : ∀ s, p s → q s) :
    Saw seen q := by
  obtain ⟨s, hs, hp⟩ := h
  exact ⟨s, hs, hpq s hp⟩

/-- A change of held orders only. -/
def OnlyHeld (w : Db → Db) : Prop := ∀ d, w d = { d with held := (w d).held }

theorem onlyHeld_id : OnlyHeld id := fun _ => rfl

section OnlyHeld

variable {w : Db → Db} (h : OnlyHeld w) (d : Db)
include h

theorem OnlyHeld.accounts : (w d).accounts = d.accounts := by rw [h d]

theorem OnlyHeld.catalog : (w d).catalog = d.catalog := by rw [h d]

theorem OnlyHeld.cashierSessions : (w d).cashierSessions = d.cashierSessions := by rw [h d]

theorem OnlyHeld.sales : (w d).sales = d.sales := by rw [h d]

theorem OnlyHeld.stocks : (w d).stocks = d.stocks := by rw [h d]

end OnlyHeld

theorem Ran.onlyHeld {R : Token → Prop} {st st' : St Db Token} {db db' : Db}
    (h : Ran R id st db st' db') (hlog : OnlyHeld st.log) : OnlyHeld st'.log := by
  intro d
  rw [h.log d]
  exact hlog d

namespace Transactions

-- ============================================================================
-- The sale a request makes
-- ============================================================================

/-- A sale on its way: the tenant and the catalog it was computed with, the lines,
    totals and tender computed, and the rows to be written. -/
structure Sale where
  tenant : Tenant
  catalog : LoadedCatalog
  items : List ValidatedItem
  totals : Totals
  tender : Option Int
  rows : SaleRows

/-- The sale is the one that the request makes. -/
structure Sale.Built (user : JwtPayload) (dto : CheckoutDto) (sale : Sale) : Prop where
  items : validateItems sale.catalog dto.items = .ok sale.items
  totals : checkoutTotals sale.tenant (dto.discount.getD 0) sale.items = .ok sale.totals
  tender : checkTender dto.payment sale.totals.total = .ok sale.tender
  transaction : ∃ env, sale.rows.transaction =
    { transactionRow user dto sale.totals env with status := .completed }
  itemRows : List.Forall₂ (fun i row => ∃ env, row = itemRow user sale.rows.transaction.id i env)
    sale.items sale.rows.items
  modifiers : ∃ env, sale.rows.modifiers = TransactionItemModifier.stored
    (modifierSnapshots user sale.rows.transaction.id sale.items sale.rows.items) env
  payment : ∃ env, sale.rows.payment = paymentRow user sale.rows.transaction.id
    dto.payment.method sale.totals.total sale.tender env
  entries : sale.rows.entries = stockByProduct sale.items
  movements : ∃ env, sale.rows.movements =
    movementRows user dto.outletId sale.rows.transaction.id sale.rows.entries env

/-- What is stored of a snapshot row besides its identifier and time. -/
theorem mem_stored {rows : List TransactionItemModifier} {env : Env}
    {m : TransactionItemModifier} (h : m ∈ TransactionItemModifier.stored rows env) :
    ∃ m0 ∈ rows, ∃ id createdAt, m = { m0 with id, createdAt } := by
  obtain ⟨x, hx, rfl⟩ := List.mem_map.mp h
  exact ⟨x.1, List.fst_mem_of_mem_zipIdx hx, _, _, rfl⟩

/-- Every snapshot belongs to the row of some line. -/
theorem mem_modifierSnapshots {user : JwtPayload} {tid : Id} {items : List ValidatedItem}
    {rows : List TransactionItem} {m : TransactionItemModifier}
    (h : m ∈ modifierSnapshots user tid items rows) :
    ∃ row ∈ rows, m.transactionItemId = row.id ∧ m.tenantId = user.tenantId := by
  obtain ⟨ms, hms, hm⟩ := List.mem_flatten.mp h
  obtain ⟨k, hk, heq⟩ := List.mem_iff_getElem.mp hms
  rw [List.getElem_zipWith] at heq
  subst heq
  obtain ⟨o, -, rfl⟩ := List.mem_map.mp hm
  exact ⟨_, List.getElem_mem _, rfl, rfl⟩

namespace Sale.Built

variable {user : JwtPayload} {dto : CheckoutDto} {sale : Sale} (h : sale.Built user dto)
include h

theorem tenantId : sale.rows.transaction.tenantId = user.tenantId := by
  obtain ⟨env, heq⟩ := h.transaction
  rw [heq, transactionRow]

theorem outletId : sale.rows.transaction.outletId = dto.outletId := by
  obtain ⟨env, heq⟩ := h.transaction
  rw [heq, transactionRow]

theorem clientTransactionId :
    sale.rows.transaction.clientTransactionId = dto.clientTransactionId := by
  obtain ⟨env, heq⟩ := h.transaction
  rw [heq, transactionRow]

theorem cashierSessionId : sale.rows.transaction.cashierSessionId = dto.cashierSessionId := by
  obtain ⟨env, heq⟩ := h.transaction
  rw [heq, transactionRow]

theorem completed : sale.rows.transaction.status = .completed := by
  obtain ⟨env, heq⟩ := h.transaction
  rw [heq]

theorem itemRow_of_mem {row : TransactionItem} (hrow : row ∈ sale.rows.items) :
    ∃ i ∈ sale.items, ∃ env, row = itemRow user sale.rows.transaction.id i env := by
  obtain ⟨k, hk, rfl⟩ := List.mem_iff_getElem.mp hrow
  have hlen := h.itemRows.length_eq
  exact ⟨sale.items[k], List.getElem_mem _, h.itemRows.get (hlen ▸ hk) hk⟩

/-- The rows of a built sale are linked to each other. -/
theorem linked : sale.rows.Linked where
  completed := h.completed
  items := by
    intro row hrow
    obtain ⟨i, -, env, rfl⟩ := h.itemRow_of_mem hrow
    simp [itemOf, itemRow, h.tenantId]
  modifiers := by
    intro m hm
    obtain ⟨env, heq⟩ := h.modifiers
    rw [heq] at hm
    obtain ⟨m0, hm0, id, createdAt, rfl⟩ := mem_stored hm
    obtain ⟨row, hrow, hid, htenant⟩ := mem_modifierSnapshots hm0
    refine ⟨row, hrow, ?_⟩
    obtain ⟨i, -, env', rfl⟩ := h.itemRow_of_mem hrow
    simp [modifierOf, hid, htenant, itemRow]
  payment := by
    obtain ⟨env, heq⟩ := h.payment
    rw [heq]
    simp [paymentOf, paymentRow, h.tenantId]

/-- The sale occupies the entry of its key. -/
theorem hasKey : hasKey user.tenantId dto.clientTransactionId sale.rows.transaction = true := by
  simp [Transactions.hasKey, h.tenantId, h.clientTransactionId]

end Sale.Built

-- ============================================================================
-- What the core has read
-- ============================================================================

/-- The actor and tenant were read as active. -/
structure Authorized (user : JwtPayload) (actor : User) (tenant : Tenant) (seen : List Db) :
    Prop where
  actor : Saw seen fun s => actor ∈ s.accounts.users ∧ actor.id = user.sub ∧
    actor.tenantId = user.tenantId ∧ actor.isActive = true
  tenant : Saw seen fun s => tenant ∈ s.accounts.tenants ∧ tenant.id = user.tenantId ∧
    tenant.isActive = true

/-- The catalog was read for the lines. -/
structure Loaded (tenantId : Id) (items : List CreateTransactionItemDto) (catalog : LoadedCatalog)
    (seen : List Db) : Prop where
  products : Saw seen fun s => catalog.products = selectProducts tenantId (uniqueProductIds items) s
  allProducts : catalog.products.length = (uniqueProductIds items).length
  assignments : Saw seen fun s =>
    catalog.assignments = selectAssignments tenantId (uniqueProductIds items) s
  options : Saw seen fun s => catalog.options = selectGroupOptions tenantId
    (catalog.assignments.map LoadedAssignment.modifierGroupId).eraseDups s

/-- The session of the request was read as the actor's own and OPEN; where a plain
    read is all that protects it, the mark is left. -/
structure SessionChecked (R : Token → Prop) (tx : TransactionClient) (user : JwtPayload)
    (dto : CheckoutDto) (sid : Id) (st : St Db Token) (db : Db) : Prop where
  named : dto.cashierSessionId = some sid
  read : Saw st.seen fun s => ∃ x ∈ s.cashierSessions, x.id = sid ∧ x.tenantId = user.tenantId ∧
    x.userId = user.sub ∧ x.status = .open ∧ x.outletId = dto.outletId
  mark : tx = .readCommitted → .sessionRead sid ∈ st.held
  isOpen : tx = .readCommitted → R (.sessionRead sid) → db.sessionOpen sid

theorem SessionChecked.later {R : Token → Prop} {tx : TransactionClient} {user : JwtPayload}
    {dto : CheckoutDto} {sid : Id} {w : Db → Db} {st st' : St Db Token} {db db' : Db}
    (h : SessionChecked R tx user dto sid st db) (hran : Ran R w st db st' db') :
    SessionChecked R tx user dto sid st' db' where
  named := h.named
  read := h.read.mono hran.seen
  mark htx := hran.held (h.mark htx)
  isOpen htx hR := (hran.same (h.mark htx)) hR (h.isOpen htx hR)

/-- The rows can be decremented for the entries, and are locked. -/
def Covered (outletId : Id) (entries : List (Id × Int)) (held : List Token) (db : Db) : Prop :=
  ∀ e ∈ entries, .stock outletId e.1 ∈ held ∧
    ∃ x ∈ db.stocks.rowsOf outletId e.1, e.2 ≤ x.stock

theorem Covered.later {R : Token → Prop} {outletId : Id} {entries : List (Id × Int)}
    {w : Db → Db} {st st' : St Db Token} {db db' : Db}
    (h : Covered outletId entries st.held db) (hran : Ran R w st db st' db') :
    Covered outletId entries st'.held db' := by
  intro e he
  obtain ⟨hheld, x, hx, hle⟩ := h e he
  refine ⟨hran.held hheld, x, ?_, hle⟩
  have hsame : db'.stocks.rowsOf outletId e.1 = db.stocks.rowsOf outletId e.1 := hran.same hheld
  rw [hsame]
  exact hx

/-- No sale of the tenant has the key, and the entry is locked. -/
structure KeyTaken (tenantId clientTransactionId : Id) (held : List Token) (db : Db) : Prop where
  lock : .saleKey tenantId clientTransactionId ∈ held
  free : ∀ x ∈ db.sales.transactions, hasKey tenantId clientTransactionId x = false

theorem KeyTaken.later {R : Token → Prop} {tenantId key : Id} {w : Db → Db}
    {st st' : St Db Token} {db db' : Db} (h : KeyTaken tenantId key st.held db)
    (hran : Ran R w st db st' db') : KeyTaken tenantId key st'.held db' :=
  ⟨hran.held h.lock, hran.same h.lock h.free⟩

/-- The response was serialized from the rows of the sale, on top of a state the
    transaction read from. -/
def Answered (rows : SaleRows) (r : TransactionResponse) (seen : List Db) (db : Db) : Prop :=
  Saw seen fun s => Wf s ∧ Evolves s db ∧ ∃ rank t,
    (rows.write s).sales.transactions.find? (fun t => t.id == rows.transaction.id &&
      t.tenantId == rows.transaction.tenantId) = some t ∧
    toResponse (recordOf (rows.write s).sales rank t) noLegacyProducts = .ok r

theorem Answered.later {R : Token → Prop} {rows : SaleRows} {r : TransactionResponse}
    {w : Db → Db} {st st' : St Db Token} {db db' : Db} (h : Answered rows r st.seen db)
    (hran : Ran R w st db st' db') : Answered rows r st'.seen db' :=
  (h.mono hran.seen).imp fun _ hs => ⟨hs.1, hs.2.1.trans hran.evolves, hs.2.2⟩

/-- The core has accepted a request and normalized it. -/
def Accepted (dto : CheckoutDto) (mode : CheckoutMode) : Prop :=
  ∃ input, prepareCore input mode = .ok dto

/-- Everything a transaction knows once it has written a sale. -/
structure Sold (R : Token → Prop) (tx : TransactionClient) (user : JwtPayload) (dto : CheckoutDto)
    (mode : CheckoutMode) (sale : Sale) (r : TransactionResponse) (st : St Db Token) (db : Db) :
    Prop where
  accepted : Accepted dto mode
  built : sale.Built user dto
  authorized : ∃ actor, Authorized user actor sale.tenant st.seen
  loaded : Loaded user.tenantId dto.items sale.catalog st.seen
  session : mode = .v1 → ∃ sid, SessionChecked R tx user dto sid st db
  key : KeyTaken user.tenantId dto.clientTransactionId st.held db
  covered : Covered dto.outletId sale.rows.entries st.held db
  answered : Answered sale.rows r st.seen db

theorem Authorized.mono {user : JwtPayload} {actor : User} {tenant : Tenant} {seen seen' : List Db}
    (h : Authorized user actor tenant seen) (hsub : seen ⊆ seen') :
    Authorized user actor tenant seen' := ⟨h.actor.mono hsub, h.tenant.mono hsub⟩

theorem Loaded.mono {tenantId : Id} {items : List CreateTransactionItemDto}
    {catalog : LoadedCatalog} {seen seen' : List Db} (h : Loaded tenantId items catalog seen)
    (hsub : seen ⊆ seen') : Loaded tenantId items catalog seen' :=
  ⟨h.products.mono hsub, h.allProducts, h.assignments.mono hsub, h.options.mono hsub⟩

theorem Sold.later {R : Token → Prop} {tx : TransactionClient} {user : JwtPayload}
    {dto : CheckoutDto} {mode : CheckoutMode} {sale : Sale} {r : TransactionResponse}
    {w : Db → Db} {st st' : St Db Token} {db db' : Db}
    (h : Sold R tx user dto mode sale r st db) (hran : Ran R w st db st' db') :
    Sold R tx user dto mode sale r st' db' where
  accepted := h.accepted
  built := h.built
  authorized := h.authorized.imp fun _ ha => ha.mono hran.seen
  loaded := h.loaded.mono hran.seen
  session hm := (h.session hm).imp fun _ hs => hs.later hran
  key := h.key.later hran
  covered := h.covered.later hran
  answered := h.answered.later hran

/-- An earlier sale with the key was found, and the request matches it. -/
def Found (user : JwtPayload) (dto : CheckoutDto) (r : TransactionResponse) (seen : List Db)
    (db : Db) : Prop :=
  Saw seen fun s => Wf s ∧ Evolves s db ∧ ∃ rank, ∃ t ∈ s.sales.transactions,
    hasKey user.tenantId dto.clientTransactionId t = true ∧
    sameRequest (recordOf s.sales rank t) user dto = true ∧
    toResponse (recordOf s.sales rank t) noLegacyProducts = .ok r

theorem Found.later {R : Token → Prop} {user : JwtPayload} {dto : CheckoutDto}
    {r : TransactionResponse} {w : Db → Db} {st st' : St Db Token} {db db' : Db}
    (h : Found user dto r st.seen db) (hran : Ran R w st db st' db') :
    Found user dto r st'.seen db' :=
  (h.mono hran.seen).imp fun _ hs => ⟨hs.1, hs.2.1.trans hran.evolves, hs.2.2⟩

-- ============================================================================
-- The checks
-- ============================================================================

section Rules

variable {R : Token → Prop} {iso : Isolation} {user : JwtPayload} {dto : CheckoutDto}
  {st : St Db Token} {db : Db}

theorem mem_of_find? {α : Type} {p : α → Bool} {rows : List α} {x : α}
    (h : rows.find? p = some x) : x ∈ rows ∧ p x = true :=
  ⟨List.mem_of_find?_eq_some h, List.find?_some h⟩

theorem wp_authorize {Q : User × Tenant → St Db Token → Db → Prop} (hlog : OnlyHeld st.log)
    (h : ∀ actor tenant st' db', Ran R id st db st' db' →
      Authorized user actor tenant st'.seen → Q (actor, tenant) st' db') :
    wp (protocol R) iso (authorize user) Q st db := by
  unfold authorize
  rw [wp_bind]
  refine wp_query fun st1 db1 s1 hran1 hread1 => ?_
  rw [wp_bind]
  refine wp_query fun st2 db2 s2 hran2 hread2 => ?_
  simp only [hlog.accounts, (hran1.onlyHeld hlog).accounts]
  split
  · rename_i actor tenant hactor htenant
    obtain ⟨hmem, hp⟩ := mem_of_find? hactor
    obtain ⟨hmem', hp'⟩ := mem_of_find? htenant
    simp only [Bool.and_eq_true, beq_iff_eq] at hp hp'
    exact h actor tenant st2 db2 (hran1.trans hran2)
      ⟨⟨s1, hran2.seen hread1.seen, hmem, hp.1.1, hp.1.2, hp.2⟩,
        ⟨s2, hread2.seen, hmem', hp'.1, hp'.2⟩⟩
  · trivial

theorem wp_checkSession {mode : CheckoutMode} {Q : Unit → St Db Token → Db → Prop}
    (hlog : OnlyHeld st.log) (hdb : Wf db)
    (h : ∀ st' db', Ran R id st db st' db' →
      (mode = .v1 → ∃ sid, SessionChecked R iso user dto sid st' db') → Q () st' db') :
    wp (protocol R) iso (checkSession iso user dto mode) Q st db := by
  unfold checkSession
  cases mode with
  | legacySync => exact h st db (Ran.refl hdb) (fun hm => by cases hm)
  | v1 =>
      simp only [wp_bind]
      refine wp_stmt fun st1 db1 s _ hran hread hlocks => ?_
      simp only [hlog.cashierSessions, wp_ret] at hlocks ⊢
      refine wp_require fun session hsession => wp_guard fun houtlet => ?_
      obtain ⟨hmem, hp⟩ := mem_of_find? hsession
      simp only [ownOpenSession, Bool.and_eq_true, beq_iff_eq] at hp
      refine h st1 db1 hran fun _ => ⟨session.id, hp.1.1.1.symm, ?_, ?_, ?_⟩
      · exact ⟨s, hread.seen, session, hmem, rfl, hp.1.1.2, hp.1.2, hp.2, beq_iff_eq.mp houtlet⟩
      · intro hiso
        subst hiso
        rw [hsession] at hlocks
        exact hlocks (List.mem_singleton.mpr rfl)
      · intro hiso _
        exact ⟨session, hread.now hiso ▸ hmem, rfl, hp.2⟩

theorem wp_checkParties {actor : User} {Q : Unit → St Db Token → Db → Prop}
    (h : ∀ st' db', Ran R id st db st' db' → Q () st' db') :
    wp (protocol R) iso (checkParties user actor dto) Q st db := by
  unfold checkParties
  rw [wp_bind]
  refine wp_query fun st1 db1 s1 hran1 _ => ?_
  rw [wp_bind]
  refine wp_guard fun _ => ?_
  cases dto.customerId with
  | none => exact wp_guard fun _ => h st1 db1 hran1
  | some customerId =>
      simp only [wp_bind]
      refine wp_query fun st2 db2 s2 hran2 _ => wp_guard fun _ => wp_guard fun _ => ?_
      exact h st2 db2 (hran1.trans hran2)

/-- No group, no option. -/
theorem selectGroupOptions_nil (tenantId : Id) (db : Db) :
    selectGroupOptions tenantId [] db = [] := by
  simp [selectGroupOptions]

theorem wp_loadCatalog {tenantId : Id} {items : List CreateTransactionItemDto}
    {Q : LoadedCatalog → St Db Token → Db → Prop} (hlog : OnlyHeld st.log)
    (h : ∀ catalog st' db', Ran R id st db st' db' → Loaded tenantId items catalog st'.seen →
      Q catalog st' db') :
    wp (protocol R) iso (loadCatalog tenantId items) Q st db := by
  unfold loadCatalog
  rw [wp_bind]
  refine wp_query fun st1 db1 s1 hran1 hread1 => ?_
  rw [wp_bind]
  refine wp_guard fun hlen => ?_
  rw [wp_bind]
  refine wp_query fun st2 db2 s2 hran2 hread2 => ?_
  have hlog1 := hran1.onlyHeld hlog
  have hlog2 := hran2.onlyHeld hlog1
  have hprod : ∀ s, selectProducts tenantId (uniqueProductIds items) (st.log s) =
      selectProducts tenantId (uniqueProductIds items) s := fun s => by
    simp only [selectProducts, hlog.catalog]
  have hassign : ∀ s, selectAssignments tenantId (uniqueProductIds items) (st1.log s) =
      selectAssignments tenantId (uniqueProductIds items) s := fun s => by
    simp only [selectAssignments, hlog1.catalog]
  simp only [hprod] at hlen
  simp only [hprod, hassign]
  split
  · rw [wp_bind]
    refine wp_query fun st3 db3 s3 hran3 hread3 => ?_
    refine h _ st3 db3 ((hran1.trans hran2).trans hran3) ⟨⟨s1, ?_, rfl⟩, beq_iff_eq.mp hlen,
      ⟨s2, hran3.seen hread2.seen, rfl⟩, ⟨s3, hread3.seen, ?_⟩⟩
    · exact hran3.seen (hran2.seen hread1.seen)
    · simp only [selectGroupOptions, hlog2.catalog]
  · rename_i hnil
    have hgroups : ((selectAssignments tenantId (uniqueProductIds items) s2).map
        LoadedAssignment.modifierGroupId).eraseDups = [] :=
      List.eq_nil_of_length_eq_zero (Nat.eq_zero_of_not_pos hnil)
    refine h _ st2 db2 (hran1.trans hran2) ⟨⟨s1, hran2.seen hread1.seen, rfl⟩,
      beq_iff_eq.mp hlen, ⟨s2, hread2.seen, rfl⟩, ⟨s2, hread2.seen, ?_⟩⟩
    simp only [hgroups, selectGroupOptions_nil]

-- ============================================================================
-- Writing the sale
-- ============================================================================

/-- Decrement the rows of an outlet, entry by entry. -/
def takeStock (outletId : Id) (entries : List (Id × Int)) (db : Db) : Db :=
  { db with stocks := { db.stocks with
      productStocks := SaleRows.takeStock outletId entries db.stocks.productStocks } }

theorem takeStock_append (outletId : Id) (xs ys : List (Id × Int)) :
    takeStock outletId (xs ++ ys) = takeStock outletId ys ∘ takeStock outletId xs := by
  funext d
  simp [takeStock, SaleRows.takeStock, List.foldl_append]

theorem change_productStocks (outletId productId : Id) (qty : Int) :
    productStocks.change [.stock outletId productId]
      (fun s => { s with stock := s.stock - qty }) = takeStock outletId [(productId, qty)] := by
  funext d
  simp [Table.change, productStocks, Db.modifyProductStocks, takeStock, SaleRows.takeStock]

/-- The distinct products of a map built by `addQuantity`. -/
theorem map_fst_addQuantity (id : Id) (qty : Int) (map : List (Id × Int)) :
    (addQuantity id qty map).map Prod.fst =
      if id ∈ map.map Prod.fst then map.map Prod.fst else map.map Prod.fst ++ [id] := by
  induction map with
  | nil => simp [addQuantity]
  | cons x map ih =>
      unfold addQuantity
      by_cases hx : x.1 = id
      · simp [hx]
      · simp only [beq_iff_eq, hx, if_false, List.map_cons, ih, List.mem_cons, Ne.symm hx,
          false_or]
        split <;> simp

theorem nodup_addQuantity {id : Id} {qty : Int} {map : List (Id × Int)}
    (h : (map.map Prod.fst).Nodup) : ((addQuantity id qty map).map Prod.fst).Nodup := by
  rw [map_fst_addQuantity]
  split
  · exact h
  · rename_i hid
    exact List.nodup_append.mpr ⟨h, List.nodup_singleton id, fun a ha b hb hab => by
      rw [List.mem_singleton.mp hb] at hab
      exact hid (hab ▸ ha)⟩

/-- `stockByProduct` has one entry for a product. -/
theorem nodup_stockByProduct (items : List ValidatedItem) :
    ((stockByProduct items).map Prod.fst).Nodup := by
  have key : ∀ (items : List ValidatedItem) (map : List (Id × Int)), (map.map Prod.fst).Nodup →
      ((items.foldl (fun map i =>
        if i.product.trackStock then addQuantity i.product.id i.quantity map else map)
        map).map Prod.fst).Nodup := by
    intro items
    induction items with
    | nil => exact fun map h => h
    | cons i items ih =>
        intro map h
        rw [List.foldl_cons]
        refine ih _ ?_
        split
        · exact nodup_addQuantity h
        · exact h
  exact key items [] List.nodup_nil

theorem wp_createItem {tid : Id} {i : ValidatedItem} {Q : TransactionItem → St Db Token → Db → Prop}
    (h : ∀ st' db' env, Ran R (Db.addTransactionItems [itemRow user tid i env]) st db st' db' →
      Q (itemRow user tid i env) st' db') :
    wp (protocol R) iso (createItem user tid i) Q st db := by
  unfold createItem
  rw [wp_bind]
  exact wp_guard fun _ => wp_insert h

theorem wp_createItems {tid : Id} {items : List ValidatedItem}
    {Q : List TransactionItem → St Db Token → Db → Prop} (hdb : Wf db)
    (h : ∀ rows st' db', Ran R (Db.addTransactionItems rows) st db st' db' →
      List.Forall₂ (fun i row => ∃ env, row = itemRow user tid i env) items rows →
      Q rows st' db') :
    wp (protocol R) iso (Prog.each (createItem user tid) items) Q st db := by
  -- the rows written so far are those of the lines done so far
  refine wp_each (fun done rows st' db' => Ran R (Db.addTransactionItems rows) st db st' db' ∧
    List.Forall₂ (fun i row => ∃ env, row = itemRow user tid i env) done rows) ?_ ?_ ?_
  · intro done i rest rows st1 db1 _ hI
    obtain ⟨hran, hrows⟩ := hI
    refine wp_createItem fun st2 db2 env hran2 => ⟨?_, ?_⟩
    · have heq : Db.addTransactionItems [itemRow user tid i env] ∘ Db.addTransactionItems rows =
          Db.addTransactionItems (rows ++ [itemRow user tid i env]) := by
        funext d
        simp [Db.addTransactionItems]
      exact heq ▸ hran.trans hran2
    · exact List.rel_append hrows (.cons ⟨env, rfl⟩ .nil)
  · have heq : Db.addTransactionItems [] = id := by
      funext d
      simp [Db.addTransactionItems]
    exact ⟨heq ▸ Ran.refl hdb, .nil⟩
  · exact fun rows st' db' hI => h rows st' db' hI.1 hI.2

/-- One entry is decremented.  The rows that earlier entries have changed belong to
    other products. -/
theorem wp_decrementStock {outletId : Id} (done : List (Id × Int)) {e : Id × Int}
    {Q : Unit → St Db Token → Db → Prop}
    (hlog : ∀ d, (st.log d).stocks.productStocks =
      SaleRows.takeStock outletId done d.stocks.productStocks)
    (hnew : e.1 ∉ done.map Prod.fst)
    (h : ∀ st' db', Ran R (takeStock outletId [e]) st db st' db' →
      .stock outletId e.1 ∈ st'.held → (∃ x ∈ db'.stocks.rowsOf outletId e.1, e.2 ≤ x.stock) →
      Q () st' db') :
    wp (protocol R) iso (decrementStock user outletId e) Q st db := by
  unfold decrementStock
  rw [wp_bind]
  refine wp_guard fun _ => wp_updateOne fun st' db' s env r hran _ hlock _ _ hp hrow _ => ?_
  simp only [stockRow, Bool.and_eq_true, beq_iff_eq, decide_eq_true_eq] at hp
  obtain ⟨⟨⟨⟨ho, hpid⟩, -⟩, -⟩, hle⟩ := hp
  simp only [productStocks, ho, hpid] at hlock
  refine h st' db' ?_ hlock ?_
  · have hchange := change_productStocks outletId e.1 e.2
    simp only [productStocks, ho, hpid] at hran hchange
    exact hchange ▸ hran
  · -- the row read is a committed row, as nothing was taken of its product before
    change r ∈ (st.log db').stocks.productStocks at hrow
    rw [hlog, takeStock_eq] at hrow
    obtain ⟨x, hx, heq⟩ := List.mem_map.mp hrow
    have hxr : x = r := by
      by_cases hxo : x.outletId = outletId
      · rw [if_pos hxo] at heq
        have hxp : x.productId = e.1 := by
          rw [← hpid, ← heq]
        simp only [hxp, demand_eq_zero hnew, sub_zero] at heq
        rw [← heq, ← hxp]
      · rw [if_neg hxo] at heq
        exact heq
    subst hxr
    exact ⟨x, List.mem_filter.mpr ⟨hx, by simp [ho, hpid]⟩, hle⟩

theorem wp_decrementStocks {outletId : Id} {entries : List (Id × Int)}
    {Q : List Unit → St Db Token → Db → Prop} (hdb : Wf db)
    (hlog : ∀ d, (st.log d).stocks.productStocks = d.stocks.productStocks)
    (hnodup : (entries.map Prod.fst).Nodup)
    (h : ∀ us st' db', Ran R (takeStock outletId entries) st db st' db' →
      Covered outletId entries st'.held db' → Q us st' db') :
    wp (protocol R) iso (Prog.each (decrementStock user outletId) entries) Q st db := by
  refine wp_each (fun done _ st' db' => Ran R (takeStock outletId done) st db st' db' ∧
    Covered outletId done st'.held db') ?_ ?_ ?_
  · intro done e rest us st1 db1 hdone hI
    obtain ⟨hran, hcovered⟩ := hI
    have hnew : e.1 ∉ done.map Prod.fst := by
      rw [hdone, List.map_append, List.map_cons, List.nodup_append] at hnodup
      intro hmem
      exact hnodup.2.2 e.1 hmem e.1 (List.mem_cons_self ..) rfl
    refine wp_decrementStock done (fun d => ?_) hnew fun st2 db2 hran2 hlock hrow => ?_
    · rw [hran.log]
      simp only [takeStock, hlog]
    · refine ⟨takeStock_append outletId done [e] ▸ hran.trans hran2, ?_⟩
      intro e' he'
      rcases List.mem_append.mp he' with he' | he'
      · exact hcovered.later hran2 e' he'
      · rw [List.mem_singleton.mp he']
        exact ⟨hlock, hrow⟩
  · exact ⟨Ran.refl hdb, fun e he => by cases he⟩
  · exact fun us st' db' hI => h us st' db' hI.1 hI.2

theorem length_stored (rows : List TransactionItemModifier) (env : Env) :
    (TransactionItemModifier.stored rows env).length = rows.length := by
  simp [TransactionItemModifier.stored]

theorem length_movementRows (outletId tid : Id) (entries : List (Id × Int)) (env : Env) :
    (movementRows user outletId tid entries env).length = entries.length := by
  simp [movementRows]

/-- The sale tables after a sale depend on the sale tables before it. -/
theorem write_sales_congr {rows : SaleRows} {a b : Db} (h : a.sales = b.sales) :
    (rows.write a).sales = (rows.write b).sales := by
  simp [SaleRows.write, h]

/-- The record that `persist` reads back, from what is stored on top of `s`. -/
def ReadBack (rows : SaleRows) (record : TransactionRecord) (seen : List Db) (db : Db) : Prop :=
  Saw seen fun s => Wf s ∧ Evolves s db ∧ ∃ rank t,
    (rows.write s).sales.transactions.find? (fun t => t.id == rows.transaction.id &&
      t.tenantId == rows.transaction.tenantId) = some t ∧
    record = recordOf (rows.write s).sales rank t

theorem wp_persist {tenant : Tenant} {catalog : LoadedCatalog} {items : List ValidatedItem}
    {totals : Totals} {tender : Option Int} {Q : TransactionRecord → St Db Token → Db → Prop}
    (hlog : OnlyHeld st.log) (hitems : validateItems catalog dto.items = .ok items)
    (htotals : checkoutTotals tenant (dto.discount.getD 0) items = .ok totals)
    (htender : checkTender dto.payment totals.total = .ok tender)
    (h : ∀ rows record st' db', Ran R rows.write st db st' db' →
      Sale.Built user dto { tenant, catalog, items, totals, tender, rows } →
      KeyTaken user.tenantId dto.clientTransactionId st'.held db' →
      Covered dto.outletId rows.entries st'.held db' → ReadBack rows record st'.seen db' →
      Q record st' db') :
    wp (protocol R) iso (persist user dto items totals tender) Q st db := by
  unfold persist
  rw [wp_bind]
  refine wp_insertUnique fun st1 db1 env1 hran1 hkey _ htaken => ?_
  rw [wp_bind]
  refine wp_createItems hran1.wf fun rows st2 db2 hran2 hrows => ?_
  rw [wp_bind]
  refine wp_createMany hran2.wf (length_stored _) (fun d => by
    simp [Db.addTransactionItemModifiers]) fun st3 db3 env3 hran3 => ?_
  rw [wp_bind]
  have hran03 := (hran1.trans hran2).trans hran3
  refine wp_decrementStocks hran3.wf (fun d => ?_) (nodup_stockByProduct items)
    fun us st4 db4 hran4 hcovered => ?_
  · rw [hran03.log]
    simp [Db.addTransactionItemModifiers, Db.addTransactionItems, Db.addTransaction, hlog.stocks]
  rw [wp_bind]
  refine wp_createMany hran4.wf (length_movementRows _ _ _) (fun d => by
    simp [Db.addStockMovements]) fun st5 db5 env5 hran5 => ?_
  rw [wp_bind]
  refine wp_insert fun st6 db6 env6 hran6 => ?_
  rw [wp_bind]
  refine wp_stmt fun st7 db7 s env7 hran7 hread7 _ => ?_
  -- all the rows together
  let sale : SaleRows :=
    { transaction := { transactionRow user dto totals env1 with status := .completed }
      items := rows
      modifiers := TransactionItemModifier.stored
        (modifierSnapshots user (transactionRow user dto totals env1).id items rows) env3
      payment := paymentRow user (transactionRow user dto totals env1).id dto.payment.method
        totals.total tender env6
      entries := stockByProduct items
      movements := movementRows user dto.outletId (transactionRow user dto totals env1).id
        (stockByProduct items) env5 }
  have hran : Ran R sale.write st db st7 db7 :=
    (((hran03.trans hran4).trans hran5).trans hran6).trans hran7
  have hsales : ((st6.log s).modifyTransactions
      (complete (transactionRow user dto totals env1).id user.tenantId)).sales =
      (sale.write s).sales := by
    have hlog6 := (((hran03.trans hran4).trans hran5).trans hran6).log s
    rw [← write_sales_congr (hlog.sales s)]
    simp only [hlog6, Function.comp_apply]
    rfl
  simp only [hsales]
  refine wp_require fun record hrecord => ?_
  obtain ⟨t, hfind, heq⟩ := Option.map_eq_some_iff.mp hrecord
  refine h sale record st7 db7 hran
    { items := hitems, totals := htotals, tender := htender, transaction := ⟨env1, rfl⟩
      itemRows := hrows, modifiers := ⟨env3, rfl⟩, payment := ⟨env6, rfl⟩, entries := rfl
      movements := ⟨env5, rfl⟩ } ?_ ?_ ⟨s, hread7.seen, hread7.wf, hread7.evolves, env7.rank, t,
      hfind, heq.symm⟩
  · have hfree : ∀ x ∈ db1.sales.transactions,
        hasKey user.tenantId dto.clientTransactionId x = false := by
      simpa [hlog.sales] using htaken
    have h1 : KeyTaken user.tenantId dto.clientTransactionId st1.held db1 := ⟨hkey, hfree⟩
    exact (((((h1.later hran2).later hran3).later hran4).later hran5).later hran6).later hran7
  · exact ((hcovered.later hran5).later hran6).later hran7

-- ============================================================================
-- The core
-- ============================================================================

theorem wp_sell {mode : CheckoutMode} {actor : User} {tenant : Tenant}
    {Q : TransactionResponse → St Db Token → Db → Prop} (hlog : OnlyHeld st.log) (hdb : Wf db)
    (haccepted : Accepted dto mode) (hauth : Authorized user actor tenant st.seen)
    (h : ∀ sale r st' db', Ran R sale.rows.write st db st' db' →
      Sold R iso user dto mode sale r st' db' → Q r st' db') :
    wp (protocol R) iso (sell iso user dto mode actor tenant) Q st db := by
  unfold sell
  rw [wp_bind]
  refine wp_checkSession hlog hdb fun st1 db1 hran1 hsession => ?_
  rw [wp_bind]
  refine wp_checkParties fun st2 db2 hran2 => ?_
  rw [wp_bind]
  have hlog2 := hran2.onlyHeld (hran1.onlyHeld hlog)
  refine wp_loadCatalog hlog2 fun catalog st3 db3 hran3 hloaded => ?_
  rw [wp_bind]
  refine wp_lift fun items hitems => ?_
  rw [wp_bind]
  refine wp_lift fun totals htotals => ?_
  rw [wp_bind]
  refine wp_lift fun tender htender => ?_
  rw [wp_bind]
  refine wp_persist (hran3.onlyHeld hlog2) hitems htotals htender
    fun rows record st4 db4 hran4 hbuilt hkey hcovered hback => wp_lift fun r hr => ?_
  have hran : Ran R rows.write st db st4 db4 := ((hran1.trans hran2).trans hran3).trans hran4
  refine h _ r st4 db4 hran
    { accepted := haccepted, built := hbuilt, authorized := ⟨actor, hauth.mono hran.seen⟩
      loaded := hloaded.mono hran4.seen, key := hkey, covered := hcovered, session := ?_
      answered := ?_ }
  · intro hm
    obtain ⟨sid, hs⟩ := hsession hm
    exact ⟨sid, ((hs.later hran2).later hran3).later hran4⟩
  · refine hback.imp fun s hs => ⟨hs.1, hs.2.1, ?_⟩
    obtain ⟨-, -, rank, t, hfind, rfl⟩ := hs
    exact ⟨rank, t, hfind, hr⟩

/-- **The core.**  It returns an earlier sale that the request matches and writes
    nothing, or it writes one sale. -/
theorem wp_checkout {mode : CheckoutMode} {Q : TransactionResponse → St Db Token → Db → Prop}
    (hlog : OnlyHeld st.log) (haccepted : Accepted dto mode)
    (hfound : ∀ r st' db', Ran R id st db st' db' → Found user dto r st'.seen db' → Q r st' db')
    (hsold : ∀ sale r st' db', Ran R sale.rows.write st db st' db' →
      Sold R iso user dto mode sale r st' db' → Q r st' db') :
    wp (protocol R) iso (checkout iso user dto mode) Q st db := by
  unfold checkout
  rw [wp_bind]
  refine wp_authorize hlog fun actor tenant st1 db1 hran1 hauth => ?_
  rw [wp_bind]
  have hlog1 := hran1.onlyHeld hlog
  refine wp_queryRanked fun st2 db2 s rank hran2 hread2 => ?_
  simp only [hlog1.sales]
  have hran := hran1.trans hran2
  split
  · rename_i record hrecord
    obtain ⟨t, hfind, rfl⟩ := Option.map_eq_some_iff.mp hrecord
    obtain ⟨hmem, hkey⟩ := mem_of_find? hfind
    rw [wp_bind]
    refine wp_lift fun _ hsame => wp_lift fun r hr => hfound r st2 db2 hran ?_
    refine ⟨s, hread2.seen, hread2.wf, hread2.evolves, rank, t, hmem, hkey, ?_, hr⟩
    unfold assertSameRequest at hsame
    split at hsame
    · assumption
    · cases hsame
  · refine wp_sell (hran2.onlyHeld hlog1) hran2.wf haccepted (hauth.mono hran2.seen)
      fun sale r st3 db3 hran3 hsale => hsold sale r st3 db3 (hran.trans hran3) hsale

theorem assertCheckoutInput_eq {input d : CheckoutDto} {mode : CheckoutMode}
    (h : assertCheckoutInput input mode = .ok d) :
    d = input.transformed ∧ (mode = .v1 → input.transformed.valid = true) := by
  unfold assertCheckoutInput at h
  simp only at h
  split at h
  · obtain ⟨_, -, h⟩ := Checked.bind_ok.mp h
    cases h
  · rename_i hvalid
    exact ⟨(Except.ok.inj h).symm, fun hm => by simpa [hm] using hvalid⟩

theorem prepareCore_eq {input d : CheckoutDto} {mode : CheckoutMode}
    (h : prepareCore input mode = .ok d) : d = coreRequest input mode := by
  unfold prepareCore at h
  obtain ⟨validated, hvalidated, h⟩ := Checked.bind_ok.mp h
  obtain ⟨_, -, h⟩ := Checked.bind_ok.mp h
  rw [← Except.ok.inj h, (assertCheckoutInput_eq hvalidated).1]
  rfl

/-- What the core does with a request that has not been normalized yet. -/
theorem wp_executeTransactionCore {input : CheckoutDto} {mode : CheckoutMode}
    {Q : TransactionResponse → St Db Token → Db → Prop} (hlog : OnlyHeld st.log)
    (hfound : ∀ r st' db', Ran R id st db st' db' → Accepted (coreRequest input mode) mode →
      Found user (coreRequest input mode) r st'.seen db' → Q r st' db')
    (hsold : ∀ sale r st' db', Ran R sale.rows.write st db st' db' →
      Sold R iso user (coreRequest input mode) mode sale r st' db' → Q r st' db') :
    wp (protocol R) iso (executeTransactionCore iso user input mode) Q st db := by
  unfold executeTransactionCore
  rw [wp_bind]
  refine wp_lift fun d hd => ?_
  have heq := prepareCore_eq hd
  subst heq
  exact wp_checkout hlog ⟨input, hd⟩ (fun r st' db' hran => hfound r st' db' hran ⟨input, hd⟩) hsold

theorem prepare_eq {input d : CheckoutDto} {mode : CheckoutMode} {u : JwtPayload}
    (h : prepare user input mode = .ok (u, d)) :
    u = user.normalized ∧ d = coreRequest input mode ∧
      (mode = .v1 → input.transformed.valid = true) := by
  unfold prepare at h
  split at h
  · cases h
  · obtain ⟨validated, hvalidated, h⟩ := Checked.bind_ok.mp h
    obtain ⟨_, -, h⟩ := Checked.bind_ok.mp h
    obtain ⟨rfl, hvalid⟩ := assertCheckoutInput_eq hvalidated
    obtain ⟨rfl, rfl⟩ := Prod.mk.inj (Except.ok.inj h)
    exact ⟨rfl, rfl, hvalid⟩

/-- What `createInternal` does in its transaction. -/
theorem wp_createBody {input : CheckoutDto} {mode : CheckoutMode}
    {Q : TransactionResponse → St Db Token → Db → Prop} (hlog : OnlyHeld st.log)
    (hfound : ∀ r st' db', Ran R id st db st' db' →
      Found user.normalized (coreRequest input mode) r st'.seen db' → Q r st' db')
    (hsold : ∀ sale r st' db', Ran R sale.rows.write st db st' db' →
      Sold R .readCommitted user.normalized (coreRequest input mode) mode sale r st' db' →
      Q r st' db') :
    wp (protocol R) .readCommitted (createBody user input mode) Q st db := by
  unfold createBody
  rw [wp_bind]
  refine wp_lift fun x hx => ?_
  obtain ⟨u, d⟩ := x
  obtain ⟨rfl, rfl, -⟩ := prepare_eq hx
  refine wp_executeTransactionCore hlog ?_ ?_
  · rw [coreRequest_coreRequest]
    exact fun r st' db' hran _ => hfound r st' db' hran
  · rw [coreRequest_coreRequest]
    exact hsold

end Rules

end Transactions

end Kasir
