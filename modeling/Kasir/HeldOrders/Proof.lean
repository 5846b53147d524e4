/-
  Kasir.HeldOrders.Proof

  What the held-order transactions do, whatever commits between their
  statements.
-/

import Kasir.HeldOrders.Rows
import Kasir.Transactions.Proof

namespace Kasir

open Txn

/-- A change of the held-order tables. -/
def onHeld (f : Held → Held) (db : Db) : Db := { db with held := f db.held }

namespace HeldOrders

open Transactions

-- ============================================================================
-- What is read
-- ============================================================================

/-- The catalog was read for the lines, options by their identifiers. -/
structure LoadedHeld (tenantId : Id) (items : List CreateTransactionItemDto)
    (catalog : LoadedCatalog) (seen : List Db) : Prop where
  products : Saw seen fun s => catalog.products = selectProducts tenantId (uniqueProductIds items) s
  allProducts : catalog.products.length = (uniqueProductIds items).length
  assignments : Saw seen fun s =>
    catalog.assignments = selectAssignments tenantId (uniqueProductIds items) s
  options : Saw seen fun s =>
    catalog.options = selectOptions tenantId (requestedOptionIds items) s

/-- The lines were resolved and priced with what was read. -/
structure Priced (tenantId : Id) (rawItems : List CreateTransactionItemDto)
    (resolved : List ResolvedItem) (estimates : Estimates) (seen : List Db) : Prop where
  result : ∃ tenant catalog,
    (Saw seen fun s => tenant ∈ s.accounts.tenants ∧ tenant.id = tenantId ∧
      tenant.isActive = true) ∧
    LoadedHeld tenantId (rawItems.map CreateTransactionItemDto.normalized) catalog seen ∧
    resolveLines catalog (rawItems.map CreateTransactionItemDto.normalized) = .ok resolved ∧
    totals resolved tenant = .ok estimates

theorem LoadedHeld.mono {tenantId : Id} {items : List CreateTransactionItemDto}
    {catalog : LoadedCatalog} {seen seen' : List Db} (h : LoadedHeld tenantId items catalog seen)
    (hsub : seen ⊆ seen') : LoadedHeld tenantId items catalog seen' :=
  ⟨h.products.mono hsub, h.allProducts, h.assignments.mono hsub, h.options.mono hsub⟩

theorem Priced.mono {tenantId : Id} {rawItems : List CreateTransactionItemDto}
    {resolved : List ResolvedItem} {estimates : Estimates} {seen seen' : List Db}
    (h : Priced tenantId rawItems resolved estimates seen) (hsub : seen ⊆ seen') :
    Priced tenantId rawItems resolved estimates seen' := by
  obtain ⟨tenant, catalog, htenant, hloaded, hres⟩ := h.result
  exact ⟨tenant, catalog, htenant.mono hsub, hloaded.mono hsub, hres⟩

/-- The origin session was read as the actor's own and OPEN, under its lock.  The
    lock is there unless the session appeared after it was looked for. -/
structure SessionLocked (R : Token → Prop) (actor : JwtPayload) (outletId sid : Id)
    (st : St Db Token) (db : Db) : Prop where
  read : Saw st.seen fun s => ∃ x ∈ s.cashierSessions, x.id = sid ∧ x.tenantId = actor.tenantId ∧
    x.userId = actor.sub ∧ x.status = .open ∧ x.outletId = outletId
  there : ∃ x ∈ db.cashierSessions, x.id = sid ∧ x.tenantId = actor.tenantId
  locked : R (.sessionSought sid) → .session sid ∈ st.held ∧ db.sessionOpen sid

theorem SessionLocked.later {R : Token → Prop} {actor : JwtPayload} {outletId sid : Id}
    {w : Db → Db} {st st' : St Db Token} {db db' : Db}
    (h : SessionLocked R actor outletId sid st db) (hran : Ran R w st db st' db') :
    SessionLocked R actor outletId sid st' db' where
  read := h.read.mono hran.seen
  there := by
    obtain ⟨x, hx, hid, htenant⟩ := h.there
    obtain ⟨y, hy, horigin, -⟩ := hran.evolves.sessions x hx
    simp only [CashierSession.origin, Prod.mk.injEq] at horigin
    exact ⟨y, hy, horigin.1.trans hid, horigin.2.1.trans htenant⟩
  locked hR := by
    obtain ⟨hheld, x, hx, hid, hopen⟩ := h.locked hR
    exact ⟨hran.held hheld, x, (hran.same hheld).1 x hx hid, hid, hopen⟩

/-- The order a compare-and-swap has hit is locked, and as it was. -/
structure Target (tenantId orderId : Id) (version : Int) (o : HeldOrder) (held : List Token)
    (db : Db) : Prop where
  lock : .order orderId ∈ held
  mem : o ∈ db.held.heldOrders
  openAt : openAt tenantId orderId version o = true

theorem Target.id_eq {tenantId orderId : Id} {version : Int} {o : HeldOrder} {held : List Token}
    {db : Db} (h : Target tenantId orderId version o held db) : o.id = orderId := by
  have hopen := h.openAt
  simp only [HeldOrders.openAt, Bool.and_eq_true, beq_iff_eq] at hopen
  exact hopen.1.1.1

theorem Target.slice_eq {R : Token → Prop} {tenantId orderId : Id} {version : Int} {o : HeldOrder}
    {w : Db → Db} {st st' : St Db Token} {db db' : Db}
    (h : Target tenantId orderId version o st.held db) (hran : Ran R w st db st' db') :
    db'.held.slice orderId = db.held.slice orderId :=
  hran.same h.lock o h.mem h.id_eq

theorem Target.later {R : Token → Prop} {tenantId orderId : Id} {version : Int} {o : HeldOrder}
    {w : Db → Db} {st st' : St Db Token} {db db' : Db}
    (h : Target tenantId orderId version o st.held db) (hran : Ran R w st db st' db') :
    Target tenantId orderId version o st'.held db' := by
  refine ⟨hran.held h.lock, ?_, h.openAt⟩
  have hmem : o ∈ (db.held.slice orderId).1 :=
    List.mem_filter.mpr ⟨h.mem, beq_iff_eq.mpr h.id_eq⟩
  rw [← h.slice_eq hran] at hmem
  exact List.mem_of_mem_filter hmem

-- ============================================================================
-- Lines
-- ============================================================================

/-- The stored line of a resolved line at its place. -/
def LineOf (tenantId orderId : Id) (x : ResolvedItem × Nat) (l : HeldLine) : Prop :=
  (∃ env, l.1 = itemRow tenantId orderId x.1 x.2 env) ∧
    ∃ env, l.2 = modifierRows tenantId l.1.id x.1.options env

/-- The stored lines of an order, in display order. -/
def LinesOf (tenantId orderId : Id) (resolved : List ResolvedItem) (lines : List HeldLine) : Prop :=
  List.Forall₂ (LineOf tenantId orderId) resolved.zipIdx lines

theorem LineOf.fit {tenantId orderId : Id} {x : ResolvedItem × Nat} {l : HeldLine}
    (h : LineOf tenantId orderId x l) :
    (l.1.heldOrderId = orderId ∧ l.1.tenantId = tenantId) ∧
      ∀ m ∈ l.2, m.heldOrderItemId = l.1.id ∧ m.tenantId = tenantId := by
  obtain ⟨⟨env, hitem⟩, env', hmods⟩ := h
  refine ⟨by simp [hitem, itemRow], fun m hm => ?_⟩
  rw [hmods] at hm
  obtain ⟨y, -, rfl⟩ := List.mem_map.mp hm
  exact ⟨rfl, rfl⟩

theorem LinesOf.fit {tenantId orderId : Id} {resolved : List ResolvedItem} {lines : List HeldLine}
    (h : LinesOf tenantId orderId resolved lines) : Held.LinesFit tenantId orderId lines := by
  have hall : ∀ l ∈ lines, ∃ x, LineOf tenantId orderId x l := by
    intro l hl
    obtain ⟨k, hk, rfl⟩ := List.mem_iff_getElem.mp hl
    exact ⟨_, h.get (h.length_eq ▸ hk) hk⟩
  exact ⟨fun l hl => (hall l hl).choose_spec.fit.1, fun l hl => (hall l hl).choose_spec.fit.2⟩

section Rules

variable {R : Token → Prop} {iso : Isolation} {user : JwtPayload} {st : St Db Token} {db : Db}

-- ============================================================================
-- Authorization
-- ============================================================================

theorem wp_principal {Q : User → St Db Token → Db → Prop} (hlog : OnlyHeld st.log)
    (h : ∀ u st' db', Ran R id st db st' db' →
      (Saw st'.seen fun s => u ∈ s.accounts.users ∧ u.id = user.sub ∧ u.tenantId = user.tenantId ∧
        u.isActive = true) → Q u st' db') :
    wp (protocol R) iso (principal user) Q st db := by
  unfold principal
  rw [wp_bind]
  refine wp_query fun st1 db1 s hran hread => wp_require fun u hu => ?_
  obtain ⟨hmem, hp⟩ := mem_of_find? hu
  rw [hlog.accounts] at hmem
  simp only [Bool.and_eq_true, beq_iff_eq] at hp
  exact h u st1 db1 hran ⟨s, hread.seen, hmem, hp.1.1.1, hp.1.1.2, hp.1.2⟩

theorem wp_findOutlet {tenantId outletId : Id} {Q : Unit → St Db Token → Db → Prop}
    (h : ∀ st' db', Ran R id st db st' db' → Q () st' db') :
    wp (protocol R) iso (findOutlet tenantId outletId) Q st db := by
  unfold findOutlet
  rw [wp_bind]
  exact wp_query fun st1 db1 s hran _ => wp_guard fun _ => h st1 db1 hran

theorem wp_readScope {Q : Scope → St Db Token → Db → Prop} (hlog : OnlyHeld st.log)
    (h : ∀ scope st' db', Ran R id st db st' db' → scope.tenantId = user.tenantId →
      Q scope st' db') :
    wp (protocol R) iso (readScope user) Q st db := by
  unfold readScope
  rw [wp_bind]
  refine wp_principal hlog fun u st1 db1 hran1 _ => ?_
  cases u.role with
  | owner => exact h _ st1 db1 hran1 rfl
  | admin => exact h _ st1 db1 hran1 rfl
  | cashier =>
      simp only [wp_bind]
      refine wp_require fun outletId _ => wp_findOutlet fun st2 db2 hran2 => ?_
      exact h _ st2 db2 (hran1.trans hran2) rfl

theorem wp_activeTenant {tenantId : Id} {Q : Tenant → St Db Token → Db → Prop}
    (hlog : OnlyHeld st.log)
    (h : ∀ tenant st' db', Ran R id st db st' db' →
      (Saw st'.seen fun s => tenant ∈ s.accounts.tenants ∧ tenant.id = tenantId ∧
        tenant.isActive = true) → Q tenant st' db') :
    wp (protocol R) iso (activeTenant tenantId) Q st db := by
  unfold activeTenant
  rw [wp_bind]
  refine wp_query fun st1 db1 s hran hread => wp_require fun tenant htenant => ?_
  obtain ⟨hmem, hp⟩ := mem_of_find? htenant
  rw [hlog.accounts] at hmem
  simp only [Bool.and_eq_true, beq_iff_eq] at hp
  exact h tenant st1 db1 hran ⟨s, hread.seen, hmem, hp.1, hp.2⟩

/-- The lock is taken before the session is read: at Read Committed the session
    that is read OPEN is the locked one. -/
theorem wp_authorizeWrite {outletId sid : Id} {Q : Tenant × User → St Db Token → Db → Prop}
    (hlog : OnlyHeld st.log)
    (h : ∀ tenant u st' db', Ran R id st db st' db' →
      (Saw st'.seen fun s => tenant ∈ s.accounts.tenants ∧ tenant.id = user.tenantId ∧
        tenant.isActive = true) →
      SessionLocked R user outletId sid st' db' → Q (tenant, u) st' db') :
    wp (protocol R) .readCommitted (authorizeWrite user outletId sid) Q st db := by
  unfold authorizeWrite
  rw [wp_bind]
  refine wp_principal hlog fun u st1 db1 hran1 _ => ?_
  rw [wp_bind]
  refine wp_guard fun _ => ?_
  rw [wp_bind]
  have hlog1 := hran1.onlyHeld hlog
  refine wp_activeTenant hlog1 fun tenant st2 db2 hran2 htenant => ?_
  rw [wp_bind]
  refine wp_findOutlet fun st3 db3 hran3 => ?_
  have hlog3 := hran3.onlyHeld (hran2.onlyHeld hlog1)
  unfold selectSessionForUpdate
  rw [wp_bind]
  refine wp_stmt fun st4 db4 s4 _ hran4 hread4 hlocks => ?_
  have hlog4 := hran4.onlyHeld hlog3
  simp only [hlog3.cashierSessions] at hlocks
  simp only [wp_ret]
  rw [wp_bind]
  refine wp_query fun st5 db5 s5 hran5 hread5 => ?_
  simp only [hlog4.cashierSessions]
  rw [wp_bind]
  refine wp_require fun session hsession => ?_
  rw [wp_bind]
  refine wp_guard fun houtlet => ?_
  obtain ⟨hmem, hp⟩ := mem_of_find? hsession
  simp only [ownOpenSession, Bool.and_eq_true, beq_iff_eq, Option.some.injEq] at hp
  obtain ⟨⟨⟨hid, htid⟩, huser⟩, hopen⟩ := hp
  refine h tenant u st5 db5 ((((hran1.trans hran2).trans hran3).trans hran4).trans hran5)
    (htenant.mono ((hran3.trans hran4).trans hran5).seen)
    ⟨⟨s5, hread5.seen, session, hmem, hid, htid, huser, hopen, beq_iff_eq.mp houtlet⟩,
      ⟨session, hread5.now rfl ▸ hmem, hid, htid⟩, fun hR => ?_⟩
  rw [hread5.now rfl] at hmem
  refine ⟨?_, session, hmem, hid, hopen⟩
  split at hlocks
  · exact hran5.held (hlocks (List.mem_singleton.mpr rfl))
  · -- nothing was locked, so the session was not there, and cannot be now
    rename_i hnone
    have hsought : Token.sessionSought sid ∈ st4.held := hlocks (List.mem_singleton.mpr rfl)
    rw [hread4.now rfl] at hnone
    refine absurd hid ((hran5.same hsought) hR (fun x hx hxid => ?_) session hmem)
    -- a session of another tenant would still have this identifier
    obtain ⟨y, hy, horigin, -⟩ := hran5.evolves.sessions x hx
    simp only [CashierSession.origin, Prod.mk.injEq] at horigin
    have hyx := eq_of_key (legal_cashierSessions hran5.wf.legal) hy hmem
      ((horigin.1.trans hxid).trans hid.symm)
    subst hyx
    exact hnone (List.any_eq_true.mpr ⟨x, hx, by simp [hxid, ← horigin.2.1, htid]⟩)

-- ============================================================================
-- Pricing
-- ============================================================================

theorem selectOptions_nil (tenantId : Id) (db : Db) : selectOptions tenantId [] db = [] := by
  simp [selectOptions]

theorem wp_resolveItems {tenantId : Id} {rawItems : List CreateTransactionItemDto}
    {Q : List ResolvedItem → St Db Token → Db → Prop} (hlog : OnlyHeld st.log)
    (h : ∀ catalog resolved st' db', Ran R id st db st' db' →
      LoadedHeld tenantId (rawItems.map CreateTransactionItemDto.normalized) catalog st'.seen →
      resolveLines catalog (rawItems.map CreateTransactionItemDto.normalized) = .ok resolved →
      Q resolved st' db') :
    wp (protocol R) iso (resolveItems tenantId rawItems) Q st db := by
  unfold resolveItems
  generalize rawItems.map CreateTransactionItemDto.normalized = items at h
  simp only
  rw [wp_bind]
  refine wp_query fun st1 db1 s1 hran1 hread1 => ?_
  rw [wp_bind]
  refine wp_guard fun hlen => ?_
  rw [wp_bind]
  refine wp_query fun st2 db2 s2 hran2 hread2 => ?_
  have hlog1 := hran1.onlyHeld hlog
  have hlog2 := hran2.onlyHeld hlog1
  have hprod : ∀ s, selectProducts tenantId (uniqueProductIds items) (st.log s) =
      selectProducts tenantId (uniqueProductIds items) s := fun s => by
    simp only [selectProducts, hlog.catalog]
  have hassign : ∀ s, selectAssignments tenantId (uniqueProductIds items) (st1.log s) =
      selectAssignments tenantId (uniqueProductIds items) s := fun s => by
    simp only [selectAssignments, hlog1.catalog]
  simp only [hprod] at hlen
  simp only [hprod, hassign]
  split
  · rw [wp_bind]
    refine wp_query fun st3 db3 s3 hran3 hread3 => wp_lift fun resolved hres => ?_
    refine h _ resolved st3 db3 ((hran1.trans hran2).trans hran3) ⟨⟨s1, ?_, rfl⟩,
      beq_iff_eq.mp hlen, ⟨s2, hran3.seen hread2.seen, rfl⟩, ⟨s3, hread3.seen, ?_⟩⟩ hres
    · exact hran3.seen (hran2.seen hread1.seen)
    · simp only [selectOptions, hlog2.catalog]
  · rename_i hnil
    have hids : requestedOptionIds items = [] :=
      List.eq_nil_of_length_eq_zero (Nat.eq_zero_of_not_pos hnil)
    refine wp_lift fun resolved hres => ?_
    refine h _ resolved st2 db2 (hran1.trans hran2) ⟨⟨s1, hran2.seen hread1.seen, rfl⟩,
      beq_iff_eq.mp hlen, ⟨s2, hread2.seen, rfl⟩, ⟨s2, hread2.seen, ?_⟩⟩ hres
    simp only [hids, selectOptions_nil]

theorem wp_repriceIf {tenantId : Id} {items : Option (List CreateTransactionItemDto)}
    {Q : Option (List ResolvedItem × Estimates) → St Db Token → Db → Prop} (hdb : Wf db)
    (hlog : OnlyHeld st.log)
    (h : ∀ repriced st' db', Ran R id st db st' db' →
      Option.Rel (fun items x => Priced tenantId items x.1 x.2 st'.seen) items repriced →
      Q repriced st' db') :
    wp (protocol R) iso (repriceIf tenantId items) Q st db := by
  unfold repriceIf
  cases items with
  | none => exact h none st db (Ran.refl hdb) .none
  | some items =>
      simp only [reprice, wp_bind]
      refine wp_activeTenant hlog fun tenant st1 db1 hran1 htenant => ?_
      refine wp_resolveItems (hran1.onlyHeld hlog) fun catalog resolved st2 db2 hran2 hloaded hres =>
        wp_lift fun estimates hest => ?_
      exact h _ st2 db2 (hran1.trans hran2)
        (.some ⟨tenant, catalog, htenant.mono hran2.seen, hloaded, hres, hest⟩)

-- ============================================================================
-- Lines
-- ============================================================================

theorem length_modifierRows (tenantId itemId : Id) (options : List ResolvedOption) (env : Env) :
    (modifierRows tenantId itemId options env).length = options.length := by
  simp [modifierRows]

theorem addLines_append (xs ys : List HeldLine) :
    Held.addLines (xs ++ ys) = Held.addLines ys ∘ Held.addLines xs := by
  funext h
  simp [Held.addLines]

theorem wp_persistItem {tenantId orderId : Id} {x : ResolvedItem × Nat}
    {Q : Unit → St Db Token → Db → Prop}
    (h : ∀ l st' db', Ran R (onHeld (Held.addLines [l])) st db st' db' →
      LineOf tenantId orderId x l → Q () st' db') :
    wp (protocol R) iso (persistItem tenantId orderId x) Q st db := by
  unfold persistItem
  rw [wp_bind]
  refine wp_guard fun _ => ?_
  rw [wp_bind]
  refine wp_insert fun st1 db1 env1 hran1 => ?_
  refine wp_createMany hran1.wf (length_modifierRows _ _ _) (fun d => by
    simp [Db.addHeldOrderItemModifiers]) fun st2 db2 env2 hran2 => ?_
  refine h (itemRow tenantId orderId x.1 x.2 env1, modifierRows tenantId
    (itemRow tenantId orderId x.1 x.2 env1).id x.1.options env2) st2 db2 ?_
    ⟨⟨env1, rfl⟩, env2, rfl⟩
  have hlog : Db.addHeldOrderItemModifiers (modifierRows tenantId
      (itemRow tenantId orderId x.1 x.2 env1).id x.1.options env2) ∘
      Db.addHeldOrderItems [itemRow tenantId orderId x.1 x.2 env1] =
      onHeld (Held.addLines [(itemRow tenantId orderId x.1 x.2 env1, modifierRows tenantId
        (itemRow tenantId orderId x.1 x.2 env1).id x.1.options env2)]) := by
    funext d
    simp [Db.addHeldOrderItemModifiers, Db.addHeldOrderItems, onHeld, Held.addLines]
  exact hlog ▸ hran1.trans hran2

theorem wp_persistItems {tenantId orderId : Id} {resolved : List ResolvedItem}
    {Q : Unit → St Db Token → Db → Prop} (hdb : Wf db)
    (h : ∀ lines st' db', Ran R (onHeld (Held.addLines lines)) st db st' db' →
      LinesOf tenantId orderId resolved lines → Q () st' db') :
    wp (protocol R) iso (persistItems tenantId orderId resolved) Q st db := by
  unfold persistItems
  rw [wp_bind]
  -- the lines written so far are those of the resolved lines done so far
  refine wp_each (fun done _ st' db' => ∃ lines, Ran R (onHeld (Held.addLines lines)) st db st' db' ∧
    List.Forall₂ (LineOf tenantId orderId) done lines) ?_ ?_ ?_
  · intro done x rest us st1 db1 _ hI
    obtain ⟨lines, hran, hlines⟩ := hI
    refine wp_persistItem fun l st2 db2 hran2 hl => ⟨lines ++ [l], ?_, ?_⟩
    · rw [addLines_append]
      exact hran.trans hran2
    · exact List.rel_append hlines (.cons hl .nil)
  · have heq : onHeld (Held.addLines []) = id := by
      funext d
      simp [onHeld]
    exact ⟨[], heq ▸ Ran.refl hdb, .nil⟩
  · intro us st' db' hI
    obtain ⟨lines, hran, hlines⟩ := hI
    exact h lines st' db' hran hlines

/-- The lines of an order are found in its slice. -/
theorem lineIds_of_slice {a b : Held} {id : Id} (h : a.slice id = b.slice id) :
    a.lineIds id = b.lineIds id := by
  have hids : ∀ x : Held, x.lineIds id = (x.slice id).2.map fun l => l.1.id := fun x => by
    simp [Held.lineIds, Held.slice, Function.comp_def]
  rw [hids, hids, h]

/-- The lines of an order are of its tenant. -/
theorem lineIds_of_tenant {tenantId orderId : Id} {version : Int} {o : HeldOrder}
    {held : List Token} {db : Db} (hwf : Wf db) (h : Target tenantId orderId version o held db) :
    (db.held.heldOrderItems.filter fun i =>
      i.tenantId == tenantId && i.heldOrderId == orderId).map HeldOrderItem.id =
      db.held.lineIds orderId := by
  refine congrArg _ (List.filter_congr fun i hi => ?_)
  by_cases hown : i.heldOrderId = orderId
  · obtain ⟨o', ho', hparent⟩ := hwf.held.itemParent i hi
    simp only [heldItemOf, Bool.and_eq_true, beq_iff_eq] at hparent
    have heq : o' = o := eq_of_key (legal_heldOrders hwf.legal) ho' h.mem
      ((hparent.1.symm.trans hown).trans h.id_eq.symm)
    have htenant := h.openAt
    simp only [openAt, Bool.and_eq_true, beq_iff_eq] at htenant
    simp [hown, hparent.2, heq, htenant.1.1.2]
  · simp [hown]

/-- What an update does to the lines, with the lines to be removed fixed. -/
def replaceLines (ids : List Id) (lines : Option (List HeldLine)) (h : Held) : Held :=
  match lines with
  | none => h
  | some ls => (h.removeLines ids).addLines ls

theorem replaceLines_eq_edit {h : Held} {orderId : Id} {row : HeldOrder → HeldOrder}
    {lines : Option (List HeldLine)} {ids : List Id} (hids : ids = h.lineIds orderId) :
    replaceLines ids lines (h.changeOrder orderId row) = h.edit orderId row lines := by
  subst hids
  cases lines <;> rfl

theorem wp_replaceItems {tenantId orderId : Id} {version : Int} {o : HeldOrder}
    {resolved : Option (List ResolvedItem)} {Q : Unit → St Db Token → Db → Prop} (hdb : Wf db)
    (hlog : ∀ d, (st.log d).held.heldOrderItems = d.held.heldOrderItems)
    (htarget : Target tenantId orderId version o st.held db)
    (h : ∀ ids lines st' db', Ran R (onHeld (replaceLines ids lines)) st db st' db' →
      ids = db'.held.lineIds orderId → Option.Rel (LinesOf tenantId orderId) resolved lines →
      Q () st' db') :
    wp (protocol R) .readCommitted (replaceItems tenantId orderId resolved) Q st db := by
  unfold replaceItems
  cases resolved with
  | none => exact h _ none st db (Ran.refl hdb) rfl .none
  | some resolved =>
      simp only [deleteItems, wp_bind]
      refine wp_stmt fun st1 db1 s _ hran1 hread1 _ => ?_
      rw [hlog, hread1.now rfl, lineIds_of_tenant hran1.wf (htarget.later hran1)] at hran1
      simp only [wp_ret]
      refine wp_persistItems hran1.wf fun lines st2 db2 hran2 hlines => ?_
      refine h (db1.held.lineIds orderId) (some lines) st2 db2 (hran1.trans hran2) ?_
        (.some hlines)
      exact (lineIds_of_slice ((htarget.later hran1).slice_eq hran2)).symm

-- ============================================================================
-- Single statements on orders
-- ============================================================================

theorem wp_findRecord {tenantId orderId : Id} {e : Exc}
    {Q : HeldOrderRecord → St Db Token → Db → Prop}
    (h : ∀ record st' db', Ran R id st db st' db' → Q record st' db') :
    wp (protocol R) iso (findRecord tenantId orderId e) Q st db := by
  unfold findRecord
  rw [wp_bind]
  exact wp_queryRanked fun st1 db1 s rank hran _ =>
    wp_require fun record _ => h record st1 db1 hran

/-- An order found in the actor's scope, as it was read. -/
theorem wp_findInScope {scope : Scope} {orderId : Id} {Q : HeldOrderRecord → St Db Token → Db → Prop}
    (hlog : ∀ d, st.log d = d)
    (h : ∀ s rank o st' db', Ran R id st db st' db' → ReadFrom iso st' db' s →
      o ∈ s.held.heldOrders → o.id = orderId → o.tenantId = scope.tenantId →
      Q (heldRecordOf s rank o) st' db') :
    wp (protocol R) iso (findInScope scope orderId) Q st db := by
  unfold findInScope
  rw [wp_bind]
  refine wp_queryRanked fun st1 db1 s rank hran hread => wp_require fun record hrecord => ?_
  rw [hlog] at hrecord
  obtain ⟨o, hfind, rfl⟩ := Option.map_eq_some_iff.mp hrecord
  obtain ⟨hmem, hp⟩ := mem_of_find? hfind
  simp only [Scope.contains, Bool.and_eq_true, beq_iff_eq] at hp
  exact h s rank o st1 db1 hran hread hmem hp.2 hp.1.1

theorem assertOpenVersion_ok {o : HeldOrder} {version : Int} {u : Unit}
    (h : assertOpenVersion o version = .ok u) : o.status = .open ∧ o.version = version := by
  unfold assertOpenVersion at h
  split at h
  · cases h
  · split at h
    · cases h
    · rename_i hs hv
      exact ⟨not_not.mp hs, not_not.mp hv⟩

/-- A compare-and-swap that succeeds has hit one row, which stays locked. -/
theorem wp_swapOrder {tenantId orderId : Id} {version : Int} {f : Env → HeldOrder → HeldOrder}
    {fits : HeldOrder → Bool} {e : Exc} {Q : Unit → St Db Token → Db → Prop}
    (h : ∀ st' db' env o, Ran R (onHeld (Held.changeOrder orderId (f env))) st db st' db' →
      .order orderId ∈ st'.held → o ∈ (st.log db').held.heldOrders →
      openAt tenantId orderId version o = true → fits (f env o) = true → Q () st' db') :
    wp (protocol R) iso (swapOrder tenantId orderId version f fits e) Q st db := by
  refine wp_updateOne fun st1 db1 s env o hran _ hlock _ _ hopen hmem hfits => ?_
  have hid : o.id = orderId := by
    simp only [openAt, Bool.and_eq_true, beq_iff_eq] at hopen
    exact hopen.1.1.1
  simp only [heldOrders, hid] at hlock
  refine h st1 db1 env o ?_ hlock hmem hopen hfits
  have hchange : heldOrders.change [heldOrders.lock o] (f env) =
      onHeld (Held.changeOrder orderId (f env)) := by
    funext d
    simp [Table.change, heldOrders, Db.modifyHeldOrders, onHeld, Held.changeOrder, hid]
  exact hchange ▸ hran

-- ============================================================================
-- Create
-- ============================================================================

/-- What `create` works on. -/
def createRequest (input : CreateHeldOrderDto) : CreateHeldOrderDto :=
  normalizeCreate { input with items := input.items.map CreateTransactionItemDto.transformed }

theorem actorContext_ok {actor : JwtPayload} (h : actorContext user = .ok actor) :
    actor = user.normalized := by
  unfold actorContext at h
  split at h
  · cases h
  · exact (Except.ok.inj h).symm

theorem prepareCreate_ok {input dto : CreateHeldOrderDto} {actor : JwtPayload}
    (h : prepareCreate user input = .ok (actor, dto)) :
    actor = user.normalized ∧ dto = createRequest input := by
  unfold prepareCreate at h
  obtain ⟨a, ha, h⟩ := Checked.bind_ok.mp h
  simp only at h
  split at h
  · obtain ⟨rfl, rfl⟩ := Prod.mk.inj (Except.ok.inj h)
    exact ⟨actorContext_ok ha, rfl⟩
  · cases h

/-- A transaction that has written a new order. -/
structure Creating (R : Token → Prop) (actor : JwtPayload) (dto : CreateHeldOrderDto)
    (order : HeldOrder) (resolved : List ResolvedItem) (lines : List HeldLine)
    (st : St Db Token) (db : Db) : Prop where
  priced : ∃ estimates env, order = orderRow actor dto estimates env ∧
    Priced actor.tenantId dto.items resolved estimates st.seen
  lines : LinesOf actor.tenantId order.id resolved lines
  session : SessionLocked R actor dto.outletId dto.cashierSessionId st db

theorem Creating.later {actor : JwtPayload} {dto : CreateHeldOrderDto} {order : HeldOrder}
    {resolved : List ResolvedItem} {lines : List HeldLine} {w : Db → Db} {st st' : St Db Token}
    {db db' : Db} (h : Creating R actor dto order resolved lines st db)
    (hran : Ran R w st db st' db') : Creating R actor dto order resolved lines st' db' where
  priced := by
    obtain ⟨estimates, env, horder, hpriced⟩ := h.priced
    exact ⟨estimates, env, horder, hpriced.mono hran.seen⟩
  lines := h.lines
  session := h.session.later hran

theorem wp_createBody {input : CreateHeldOrderDto} {Q : HeldOrderDetail → St Db Token → Db → Prop}
    (hlog : OnlyHeld st.log)
    (h : ∀ detail order resolved lines st' db',
      Ran R (onHeld fun h => (h.addOrder order).addLines lines) st db st' db' →
      Creating R user.normalized (createRequest input) order resolved lines st' db' →
      Q detail st' db') :
    wp (protocol R) .readCommitted (createBody user input) Q st db := by
  unfold createBody
  rw [wp_bind]
  refine wp_lift fun x hx => ?_
  obtain ⟨actor, dto⟩ := x
  obtain ⟨rfl, rfl⟩ := prepareCreate_ok hx
  simp only
  generalize createRequest input = dto at h
  rw [wp_bind]
  refine wp_authorizeWrite hlog fun tenant u st1 db1 hran1 htenant hsession => ?_
  simp only
  rw [wp_bind]
  have hlog1 := hran1.onlyHeld hlog
  refine wp_resolveItems hlog1 fun catalog resolved st2 db2 hran2 hloaded hres => ?_
  rw [wp_bind]
  refine wp_lift fun estimates hest => ?_
  rw [wp_bind]
  refine wp_guard fun _ => ?_
  rw [wp_bind]
  refine wp_insert fun st3 db3 env hran3 => ?_
  rw [wp_bind]
  refine wp_persistItems hran3.wf fun lines st4 db4 hran4 hlines => ?_
  rw [wp_bind]
  refine wp_findRecord fun record st5 db5 hran5 => ?_
  have hwritten := (hran3.trans hran4).trans hran5
  refine h _ (orderRow user.normalized dto estimates env) resolved lines st5 db5
    ((hran1.trans hran2).trans hwritten) ⟨⟨estimates, env, rfl, ?_⟩, hlines, ?_⟩
  · have hpriced : Priced user.normalized.tenantId dto.items resolved estimates st2.seen :=
      ⟨tenant, catalog, htenant.mono hran2.seen, hloaded, hres, hest⟩
    exact hpriced.mono hwritten.seen
  · exact (hsession.later hran2).later hwritten

-- ============================================================================
-- Update and cancel
-- ============================================================================

theorem prepareOrder_ok {id : String} {actor : JwtPayload} {orderId : Id}
    (h : prepareOrder user id = .ok (actor, orderId)) :
    actor = user.normalized ∧ orderId = Js.toLowerCase id := by
  unfold prepareOrder at h
  obtain ⟨a, ha, h⟩ := Checked.bind_ok.mp h
  split at h
  · obtain ⟨rfl, rfl⟩ := Prod.mk.inj (Except.ok.inj h)
    exact ⟨actorContext_ok ha, rfl⟩
  · cases h

/-- What `update` works on. -/
def updateRequest (input : UpdateHeldOrderDto) : UpdateHeldOrderDto :=
  { input with
    items := input.items.map fun items => items.map CreateTransactionItemDto.transformed }

theorem prepareUpdate_ok {id : String} {input dto : UpdateHeldOrderDto} {actor : JwtPayload}
    {orderId : Id} (h : prepareUpdate user id input = .ok (actor, orderId, dto)) :
    actor = user.normalized ∧ orderId = Js.toLowerCase id ∧ dto = updateRequest input := by
  unfold prepareUpdate at h
  obtain ⟨⟨a, i⟩, ha, h⟩ := Checked.bind_ok.mp h
  obtain ⟨rfl, rfl⟩ := prepareOrder_ok ha
  simp only at h
  split at h
  · simp only [Except.ok.injEq, Prod.mk.injEq] at h
    exact ⟨h.1.symm, h.2.1.symm, h.2.2.symm⟩
  · cases h

/-- A transaction that has updated an order. -/
structure Updating (tenantId orderId : Id) (dto : UpdateHeldOrderDto) (o : HeldOrder)
    (repriced : Option (List ResolvedItem × Estimates)) (lines : Option (List HeldLine))
    (ids : List Id) (st : St Db Token) (db : Db) : Prop where
  target : Target tenantId orderId dto.expectedVersion o st.held db
  ids : ids = db.held.lineIds orderId
  priced : Option.Rel (fun items x => Priced tenantId items x.1 x.2 st.seen) dto.items repriced
  lines : Option.Rel (LinesOf tenantId orderId) (repriced.map Prod.fst) lines

theorem priced_mono {tenantId : Id} {seen seen' : List Db} (hsub : seen ⊆ seen')
    {items : Option (List CreateTransactionItemDto)}
    {repriced : Option (List ResolvedItem × Estimates)}
    (h : Option.Rel (fun items x => Priced tenantId items x.1 x.2 seen) items repriced) :
    Option.Rel (fun items x => Priced tenantId items x.1 x.2 seen') items repriced := by
  cases h with
  | none => exact .none
  | some h => exact .some (h.mono hsub)

theorem Updating.later {tenantId orderId : Id} {dto : UpdateHeldOrderDto} {o : HeldOrder}
    {repriced : Option (List ResolvedItem × Estimates)} {lines : Option (List HeldLine)}
    {ids : List Id} {w : Db → Db} {st st' : St Db Token} {db db' : Db}
    (h : Updating tenantId orderId dto o repriced lines ids st db) (hran : Ran R w st db st' db') :
    Updating tenantId orderId dto o repriced lines ids st' db' where
  target := h.target.later hran
  ids := h.ids.trans (lineIds_of_slice (h.target.slice_eq hran)).symm
  priced := priced_mono hran.seen h.priced
  lines := h.lines

theorem wp_updateBody {id : String} {input : UpdateHeldOrderDto}
    {Q : HeldOrderDetail → St Db Token → Db → Prop} (hlog : ∀ d, st.log d = d)
    (h : ∀ detail o repriced lines ids st' db',
      Ran R (onHeld fun h => replaceLines ids lines (h.changeOrder (Js.toLowerCase id)
        (updatedRow (updateRequest input).label (repriced.map Prod.snd)))) st db st' db' →
      Updating user.normalized.tenantId (Js.toLowerCase id) (updateRequest input) o repriced lines
        ids st' db' → Q detail st' db') :
    wp (protocol R) .readCommitted (updateBody user id input) Q st db := by
  unfold updateBody
  rw [wp_bind]
  refine wp_lift fun x hx => ?_
  obtain ⟨actor, orderId, dto⟩ := x
  obtain ⟨rfl, rfl, rfl⟩ := prepareUpdate_ok hx
  simp only
  generalize updateRequest input = dto at h
  generalize Js.toLowerCase id = orderId at h
  have honly : OnlyHeld st.log := fun d => by rw [hlog]
  rw [wp_bind]
  refine wp_readScope honly fun scope st1 db1 hran1 _ => ?_
  have hlog1 : ∀ d, st1.log d = d := fun d => by rw [hran1.log, hlog]; rfl
  rw [wp_bind]
  refine wp_findInScope hlog1 fun s rank current st2 db2 hran2 _ _ _ _ => ?_
  have hlog2 : ∀ d, st2.log d = d := fun d => by rw [hran2.log, hlog1]; rfl
  rw [wp_bind]
  refine wp_lift fun _ _ => ?_
  rw [wp_bind]
  refine wp_repriceIf hran2.wf (fun d => by rw [hlog2]) fun repriced st3 db3 hran3 hpriced => ?_
  have hlog3 : ∀ d, st3.log d = d := fun d => by rw [hran3.log, hlog2]; rfl
  rw [wp_bind]
  refine wp_swapOrder fun st4 db4 _ o hran4 hlock hmem hopen _ => ?_
  rw [hlog3] at hmem
  have htarget : Target user.normalized.tenantId orderId dto.expectedVersion o st4.held db4 :=
    ⟨hlock, hmem, hopen⟩
  rw [wp_bind]
  refine wp_replaceItems hran4.wf (fun d => ?_) htarget
    fun ids lines st5 db5 hran5 hids hlines => ?_
  · rw [hran4.log, hlog3]
    rfl
  · rw [wp_bind]
    refine wp_findRecord fun record st6 db6 hran6 => ?_
    refine h _ o repriced lines ids st6 db6
      (((((hran1.trans hran2).trans hran3).trans hran4).trans hran5).trans hran6) ?_
    have hupd : Updating user.normalized.tenantId orderId dto o repriced lines ids st5 db5 :=
      ⟨htarget.later hran5, hids, priced_mono ((hran4.trans hran5).seen) hpriced, hlines⟩
    exact hupd.later hran6

theorem wp_cancelBody {id : String} {input : CancelHeldOrderDto}
    {Q : HeldOrderDetail → St Db Token → Db → Prop} (hlog : ∀ d, st.log d = d)
    (h : ∀ detail o env st' db',
      Ran R (onHeld (Held.changeOrder (Js.toLowerCase id) (cancelledRow env))) st db st' db' →
      Target user.normalized.tenantId (Js.toLowerCase id) input.expectedVersion o st'.held db' →
      Q detail st' db') :
    wp (protocol R) .readCommitted (cancelBody user id input) Q st db := by
  unfold cancelBody
  rw [wp_bind]
  refine wp_lift fun x hx => ?_
  obtain ⟨actor, orderId⟩ := x
  obtain ⟨rfl, rfl⟩ := prepareOrder_ok hx
  simp only
  generalize Js.toLowerCase id = orderId at h
  rw [wp_bind]
  refine wp_readScope (fun d => by rw [hlog]) fun scope st1 db1 hran1 _ => ?_
  have hlog1 : ∀ d, st1.log d = d := fun d => by rw [hran1.log, hlog]; rfl
  rw [wp_bind]
  refine wp_findInScope hlog1 fun s rank current st2 db2 hran2 _ _ _ _ => ?_
  have hlog2 : ∀ d, st2.log d = d := fun d => by rw [hran2.log, hlog1]; rfl
  rw [wp_bind]
  refine wp_lift fun _ _ => ?_
  rw [wp_bind]
  refine wp_swapOrder fun st3 db3 env o hran3 hlock hmem hopen _ => ?_
  rw [hlog2] at hmem
  have htarget : Target user.normalized.tenantId orderId input.expectedVersion o st3.held db3 :=
    ⟨hlock, hmem, hopen⟩
  rw [wp_bind]
  refine wp_findRecord fun record st4 db4 hran4 => ?_
  exact h _ o env st4 db4 (((hran1.trans hran2).trans hran3).trans hran4) (htarget.later hran4)

-- ============================================================================
-- Checkout
-- ============================================================================

/-- The two compare-and-swaps of a conversion as one change. -/
def conversionRow (transactionId : Id) (env : Env) (o : HeldOrder) : HeldOrder :=
  convertedRow transactionId env (claimedRow o)

theorem changeOrder_conversion (orderId transactionId : Id) (env : Env) :
    Held.changeOrder orderId (convertedRow transactionId env) ∘
      Held.changeOrder orderId claimedRow =
      Held.changeOrder orderId (conversionRow transactionId env) := by
  funext h
  simp only [Held.changeOrder, Function.comp_apply, List.map_map]
  congr 1
  refine List.map_congr_left fun o _ => ?_
  simp only [Function.comp_apply]
  by_cases hid : o.id = orderId
  · rw [if_pos hid, if_pos (show (claimedRow o).id = orderId from hid), if_pos hid, conversionRow]
  · rw [if_neg hid, if_neg hid, if_neg hid]

/-- A transaction that has claimed an OPEN order, as it was read. -/
structure Converting (actor : JwtPayload) (orderId : Id) (version : Int) (record : HeldOrderRecord)
    (o : HeldOrder) (st : St Db Token) (db : Db) : Prop where
  target : Target actor.tenantId orderId version o st.held db
  read : Saw st.seen fun s => Wf s ∧ Evolves s db ∧ ∃ rank, ∃ x ∈ s.held.heldOrders,
    x.id = orderId ∧ x.status = .open ∧ x.version = version ∧ record = heldRecordOf s rank x
  session : Saw st.seen fun s => ∃ x ∈ s.cashierSessions,
    x.id = record.order.originCashierSessionId ∧ x.tenantId = actor.tenantId ∧
    x.status = .open ∧ x.outletId = record.order.outletId ∧ x.userId = record.order.cashierUserId

theorem Converting.later {actor : JwtPayload} {orderId : Id} {version : Int}
    {record : HeldOrderRecord} {o : HeldOrder} {w : Db → Db} {st st' : St Db Token} {db db' : Db}
    (h : Converting actor orderId version record o st db) (hran : Ran R w st db st' db') :
    Converting actor orderId version record o st' db' where
  target := h.target.later hran
  read := (h.read.mono hran.seen).imp fun _ hs => ⟨hs.1, hs.2.1.trans hran.evolves, hs.2.2⟩
  session := h.session.mono hran.seen

/-- A transaction that has read the order as CONVERTED, and the sale it is linked to
    under the request's key. -/
structure Replaying (tenantId orderId key : Id) (order : HeldOrder) (existing : TransactionRecord)
    (seen : List Db) (db : Db) : Prop where
  read : Saw seen fun s => Wf s ∧ Evolves s db ∧ order ∈ s.held.heldOrders ∧
    order.id = orderId ∧ order.tenantId = tenantId ∧ order.status = .converted
  linked : Saw seen fun s => Wf s ∧ Evolves s db ∧ ∃ t ∈ s.sales.transactions,
    hasKey tenantId key t = true ∧ existing.transaction = t ∧
    order.convertedTransactionId = some t.id

theorem Replaying.later {tenantId orderId key : Id} {order : HeldOrder}
    {existing : TransactionRecord} {w : Db → Db} {st st' : St Db Token} {db db' : Db}
    (h : Replaying tenantId orderId key order existing st.seen db) (hran : Ran R w st db st' db') :
    Replaying tenantId orderId key order existing st'.seen db' where
  read := (h.read.mono hran.seen).imp fun _ hs => ⟨hs.1, hs.2.1.trans hran.evolves, hs.2.2⟩
  linked := (h.linked.mono hran.seen).imp fun _ hs => ⟨hs.1, hs.2.1.trans hran.evolves, hs.2.2⟩

theorem prepareCheckout_ok {id : String} {input dto : CheckoutHeldOrderDto} {actor : JwtPayload}
    {orderId : Id} (h : prepareCheckout user id input = .ok (actor, orderId, dto)) :
    actor = user.normalized ∧ orderId = Js.toLowerCase id ∧ dto = input := by
  unfold prepareCheckout at h
  obtain ⟨⟨a, i⟩, ha, h⟩ := Checked.bind_ok.mp h
  obtain ⟨rfl, rfl⟩ := prepareOrder_ok ha
  simp only at h
  split at h
  · simp only [Except.ok.injEq, Prod.mk.injEq] at h
    exact ⟨h.1.symm, h.2.1.symm, h.2.2.symm⟩
  · cases h

theorem wp_checkOutletAccess {actor : JwtPayload} {order : HeldOrder}
    {Q : Unit → St Db Token → Db → Prop} (hdb : Wf db)
    (h : ∀ st' db', Ran R id st db st' db' → Q () st' db') :
    wp (protocol R) iso (checkOutletAccess actor order) Q st db := by
  unfold checkOutletAccess
  split
  · rw [wp_bind]
    exact wp_query fun st1 db1 s hran _ => wp_guard fun _ => h st1 db1 hran
  · exact h st db (Ran.refl hdb)

theorem wp_checkOriginSession {actor : JwtPayload} {order : HeldOrder}
    {Q : Unit → St Db Token → Db → Prop} (hlog : ∀ d, st.log d = d)
    (h : ∀ st' db', Ran R id st db st' db' →
      (Saw st'.seen fun s => ∃ x ∈ s.cashierSessions, x.id = order.originCashierSessionId ∧
        x.tenantId = actor.tenantId ∧ x.status = .open ∧ x.outletId = order.outletId ∧
        x.userId = order.cashierUserId) → Q () st' db') :
    wp (protocol R) iso (checkOriginSession actor order) Q st db := by
  unfold checkOriginSession
  rw [wp_bind]
  refine wp_query fun st1 db1 s hran hread => ?_
  simp only [wp_bind]
  refine wp_require fun x hx => wp_guard fun houtlet => wp_guard fun huser => ?_
  obtain ⟨hmem, hp⟩ := mem_of_find? hx
  rw [hlog] at hmem
  simp only [Bool.and_eq_true, beq_iff_eq] at hp
  exact h st1 db1 hran ⟨s, hread.seen, x, hmem, hp.1.1.1, hp.1.1.2, hp.1.2,
    beq_iff_eq.mp houtlet, beq_iff_eq.mp huser⟩

/-- An order that is CONVERTED already: the sale it is compared with exists, so the
    core can only find it. -/
theorem wp_replayConversion {actor : JwtPayload} (orderId : Id) {order : HeldOrder}
    {dto : CheckoutHeldOrderDto} {Q : CheckoutHeldOrderResult → St Db Token → Db → Prop}
    (hlog : ∀ d, st.log d = d)
    (horder : Saw st.seen fun s => Wf s ∧ Evolves s db ∧ order ∈ s.held.heldOrders ∧
      order.id = orderId ∧ order.tenantId = actor.tenantId ∧ order.status = .converted)
    (h : ∀ existing r st' db', Ran R id st db st' db' →
      Replaying actor.tenantId orderId (Js.toLowerCase dto.clientTransactionId) order existing
        st'.seen db' →
      Found actor (coreRequest (replayDto order existing dto) .v1) r st'.seen db' →
      Q { transaction := r, replayed := true } st' db') :
    wp (protocol R) iso (replayConversion iso actor order dto) Q st db := by
  unfold replayConversion
  rw [wp_bind]
  refine wp_queryRanked fun st1 db1 s rank hran1 hread1 => ?_
  simp only [hlog]
  have hlog1 : ∀ d, st1.log d = d := fun d => by rw [hran1.log, hlog]; rfl
  rw [wp_bind]
  refine wp_require fun existing hexisting => ?_
  rw [wp_bind]
  refine wp_guard fun hlink => ?_
  rw [wp_bind]
  obtain ⟨t, hfind, hexisting⟩ := Option.map_eq_some_iff.mp hexisting
  obtain ⟨hmem, hkey⟩ := mem_of_find? hfind
  have ht : existing.transaction = t := by rw [← hexisting]
  have hreplaying : Replaying actor.tenantId orderId (Js.toLowerCase dto.clientTransactionId)
      order existing st1.seen db1 :=
    { read := (horder.mono hran1.seen).imp fun _ hs =>
        ⟨hs.1, hs.2.1.trans hran1.evolves, hs.2.2⟩
      linked := ⟨s, hread1.seen, hread1.wf, hread1.evolves, t, hmem, hkey, ht,
        ht ▸ (beq_iff_eq.mp hlink).symm⟩ }
  refine wp_executeTransactionCore (fun d => by rw [hlog1]) ?_ ?_
  · exact fun r st2 db2 hran2 _ hfound =>
      h existing r st2 db2 (hran1.trans hran2) (hreplaying.later hran2) hfound
  · -- the key is taken, so no new sale can have been written
    intro sale r st2 db2 hran2 hsold
    have hmem2 := (hread1.evolves.trans hran2.evolves).sales.mem hmem
    have hfree := hsold.key.free t hmem2
    simp only [coreRequest, normalizeCheckoutDto, CheckoutDto.transformed, replayDto,
      Js.toLowerCase_toLowerCase] at hfree
    rw [hkey] at hfree
    cases hfree

/-- The branch for an OPEN order. -/
theorem wp_convertOpen {actor : JwtPayload} {orderId : Id} {record : HeldOrderRecord}
    {dto : CheckoutHeldOrderDto} {Q : CheckoutHeldOrderResult → St Db Token → Db → Prop}
    (hdb : Wf db) (hlog : ∀ d, st.log d = d)
    (hrecord : Saw st.seen fun s => Wf s ∧ Evolves s db ∧ ∃ rank, ∃ x ∈ s.held.heldOrders,
      x.id = orderId ∧ x.status = .open ∧ x.version = dto.expectedVersion ∧
      record = heldRecordOf s rank x)
    (hfound : ∀ o r env st' db',
      Ran R (onHeld (Held.changeOrder orderId (conversionRow r.transactionId env))) st db st' db' →
      Converting actor orderId dto.expectedVersion record o st' db' →
      Accepted (coreRequest (heldCheckoutDto record dto) .v1) .v1 →
      Found actor (coreRequest (heldCheckoutDto record dto) .v1) r st'.seen db' →
      Q { transaction := r, replayed := false } st' db')
    (hsold : ∀ o sale r env st' db',
      Ran R (onHeld (Held.changeOrder orderId (conversionRow r.transactionId env)) ∘
        sale.rows.write) st db st' db' →
      Converting actor orderId dto.expectedVersion record o st' db' →
      Sold R iso actor (coreRequest (heldCheckoutDto record dto) .v1) .v1 sale r st' db' →
      Q { transaction := r, replayed := false } st' db') :
    wp (protocol R) iso (convertOpen iso actor orderId record dto) Q st db := by
  unfold convertOpen
  rw [wp_bind]
  refine wp_checkOutletAccess hdb fun st1 db1 hran1 => ?_
  have hlog1 : ∀ d, st1.log d = d := fun d => by rw [hran1.log, hlog]; rfl
  rw [wp_bind]
  refine wp_checkOriginSession hlog1 fun st2 db2 hran2 hsession => ?_
  have hlog2 : ∀ d, st2.log d = d := fun d => by rw [hran2.log, hlog1]; rfl
  rw [wp_bind]
  refine wp_swapOrder fun st3 db3 _ o hran3 hlock hmem hopen _ => ?_
  rw [hlog2] at hmem
  have hran03 := (hran1.trans hran2).trans hran3
  have hconv : Converting actor orderId dto.expectedVersion record o st3 db3 :=
    { target := ⟨hlock, hmem, hopen⟩
      read := (hrecord.mono hran03.seen).imp fun _ hs =>
        ⟨hs.1, hs.2.1.trans hran03.evolves, hs.2.2⟩
      session := hsession.mono hran3.seen }
  have honly : OnlyHeld st3.log := fun d => by rw [hran3.log, hlog2]; rfl
  rw [wp_bind]
  refine wp_executeTransactionCore honly ?_ ?_
  · intro r st4 db4 hran4 hacc hfnd
    rw [wp_bind]
    refine wp_swapOrder fun st5 db5 env _ hran5 _ _ _ _ => ?_
    refine hfound o r env st5 db5 ?_ ((hconv.later hran4).later hran5) hacc (hfnd.later hran5)
    rw [← changeOrder_conversion]
    exact (hran03.trans hran4).trans hran5
  · intro sale r st4 db4 hran4 hsld
    rw [wp_bind]
    refine wp_swapOrder fun st5 db5 env _ hran5 _ _ _ _ => ?_
    refine hsold o sale r env st5 db5 ?_ ((hconv.later hran4).later hran5) (hsld.later hran5)
    rw [← changeOrder_conversion]
    exact (hran03.trans hran4).trans hran5

theorem wp_checkoutBody {id : String} {input : CheckoutHeldOrderDto}
    {Q : CheckoutHeldOrderResult → St Db Token → Db → Prop} (hlog : ∀ d, st.log d = d)
    (hreplay : ∀ order existing r st' db', Ran R (fun d => d) st db st' db' →
      Replaying user.normalized.tenantId (Js.toLowerCase id)
        (Js.toLowerCase input.clientTransactionId) order existing st'.seen db' →
      Found user.normalized (coreRequest (replayDto order existing input) .v1) r st'.seen db' →
      Q { transaction := r, replayed := true } st' db')
    (hfound : ∀ record o r env st' db',
      Ran R (onHeld (Held.changeOrder (Js.toLowerCase id) (conversionRow r.transactionId env)))
        st db st' db' →
      Converting user.normalized (Js.toLowerCase id) input.expectedVersion record o st' db' →
      Accepted (coreRequest (heldCheckoutDto record input) .v1) .v1 →
      Found user.normalized (coreRequest (heldCheckoutDto record input) .v1) r st'.seen db' →
      Q { transaction := r, replayed := false } st' db')
    (hsold : ∀ record o sale r env st' db',
      Ran R (onHeld (Held.changeOrder (Js.toLowerCase id) (conversionRow r.transactionId env)) ∘
        sale.rows.write) st db st' db' →
      Converting user.normalized (Js.toLowerCase id) input.expectedVersion record o st' db' →
      Sold R .serializable user.normalized (coreRequest (heldCheckoutDto record input) .v1) .v1
        sale r st' db' →
      Q { transaction := r, replayed := false } st' db') :
    wp (protocol R) .serializable (checkoutBody user id input) Q st db := by
  unfold checkoutBody
  rw [wp_bind]
  refine wp_lift fun x hx => ?_
  obtain ⟨actor, orderId, dto⟩ := x
  obtain ⟨rfl, rfl, rfl⟩ := prepareCheckout_ok hx
  simp only
  generalize Js.toLowerCase id = orderId at hreplay hfound hsold
  unfold convertHeldOrder
  rw [wp_bind]
  refine wp_readScope (fun d => by rw [hlog]) fun scope st1 db1 hran1 hscope => ?_
  have hlog1 : ∀ d, st1.log d = d := fun d => by rw [hran1.log, hlog]; rfl
  rw [wp_bind]
  refine wp_findInScope hlog1 fun s rank x st2 db2 hran2 hread2 hmem hid htid => ?_
  have hlog2 : ∀ d, st2.log d = d := fun d => by rw [hran2.log, hlog1]; rfl
  have hran02 := hran1.trans hran2
  split
  · rename_i hconverted
    refine wp_replayConversion orderId hlog2 ⟨s, hread2.seen, hread2.wf,
      hread2.evolves, hmem, hid, htid.trans hscope, hconverted⟩ ?_
    exact fun existing r st3 db3 hran3 hrep hfnd =>
      hreplay _ existing r st3 db3 (hran02.trans hran3) hrep hfnd
  · rw [wp_bind]
    refine wp_lift fun _ hver => ?_
    obtain ⟨hstatus, hversion⟩ := assertOpenVersion_ok hver
    refine wp_convertOpen hran2.wf hlog2 ⟨s, hread2.seen, hread2.wf, hread2.evolves, rank, x, hmem,
      hid, hstatus, hversion, rfl⟩ ?_ ?_
    · exact fun o r env st3 db3 hran3 hconv hacc hfnd =>
        hfound _ o r env st3 db3 (hran02.trans hran3) hconv hacc hfnd
    · exact fun o sale r env st3 db3 hran3 hconv hsld =>
        hsold _ o sale r env st3 db3 (hran02.trans hran3) hconv hsld

end Rules

end HeldOrders

end Kasir
