/-
  Kasir.TenantBodies

  Every call stays with its tenant.

  The bodies are walked through statement by statement: each read names the tenant, or
  follows a row of the tenant that was read before; each row written names the tenant, or
  is found by an identifier that is the tenant's.
-/

import Kasir.Tenants
import Kasir.HeldOrders.Proof
import Kasir.Api

namespace Kasir

open Txn Transactions

-- ============================================================================
-- Tables that are updated in place
-- ============================================================================

section Tables

variable {w : Owners} {J : Db → Prop}

theorem ownedTable_productStocks :
    OwnedTable productStocks w (fun s : ProductStock => w.outlet s.outletId) J where
  rows a d := rfl
  modify a g d h := by
    have hrows : ownedBy (fun s : ProductStock => w.outlet s.outletId) a
          (d.stocks.productStocks.map g) =
        (ownedBy (fun s : ProductStock => w.outlet s.outletId) a d.stocks.productStocks).map g :=
      ownedBy_map h
    show Db.only w.outlet a (d.modifyProductStocks g) = (d.only w.outlet a).modifyProductStocks g
    simp only [Db.only, Db.modifyProductStocks, Stocks.only, hrows]
  same a g d h hsame := by
    have hrows : ownedBy (fun s : ProductStock => w.outlet s.outletId) a
          (d.stocks.productStocks.map g) =
        ownedBy (fun s : ProductStock => w.outlet s.outletId) a d.stocks.productStocks :=
      ownedBy_map_same h hsame
    show Db.only w.outlet a (d.modifyProductStocks g) = d.only w.outlet a
    simp only [Db.only, Db.modifyProductStocks, Stocks.only, hrows]
  lock d d' r r' _ _ _ _ hlock := by
    show w.outlet r.outletId = w.outlet r'.outletId
    rw [(Token.stock.inj hlock).1]

theorem ownedTable_cashierSessions (hJ : ∀ d, J d → Owned w d) :
    OwnedTable cashierSessions w CashierSession.tenantId J where
  rows a d := rfl
  modify a g d h := by
    have hrows : ownedBy CashierSession.tenantId a (d.cashierSessions.map g) =
        (ownedBy CashierSession.tenantId a d.cashierSessions).map g := ownedBy_map h
    show Db.only w.outlet a (d.modifyCashierSessions g) =
      (d.only w.outlet a).modifyCashierSessions g
    simp only [Db.only, Db.modifyCashierSessions, hrows]
  same a g d h hsame := by
    have hrows : ownedBy CashierSession.tenantId a (d.cashierSessions.map g) =
        ownedBy CashierSession.tenantId a d.cashierSessions := ownedBy_map_same h hsame
    show Db.only w.outlet a (d.modifyCashierSessions g) = d.only w.outlet a
    simp only [Db.only, Db.modifyCashierSessions, hrows]
  lock d d' r r' hd hd' hr hr' hlock := by
    rw [← (hJ d hd).sessions r hr, ← (hJ d' hd').sessions r' hr', Token.session.inj hlock]

theorem ownedTable_heldOrders (hJ : ∀ d, J d → Owned w d) :
    OwnedTable heldOrders w HeldOrder.tenantId J where
  rows a d := rfl
  modify a g d h := by
    have hrows : ownedBy HeldOrder.tenantId a (d.held.heldOrders.map g) =
        (ownedBy HeldOrder.tenantId a d.held.heldOrders).map g := ownedBy_map h
    show Db.only w.outlet a (d.modifyHeldOrders g) = (d.only w.outlet a).modifyHeldOrders g
    simp only [Db.only, Db.modifyHeldOrders, Held.only, hrows]
  same a g d h hsame := by
    have hrows : ownedBy HeldOrder.tenantId a (d.held.heldOrders.map g) =
        ownedBy HeldOrder.tenantId a d.held.heldOrders := ownedBy_map_same h hsame
    show Db.only w.outlet a (d.modifyHeldOrders g) = d.only w.outlet a
    simp only [Db.only, Db.modifyHeldOrders, Held.only, hrows]
  lock d d' r r' hd hd' hr hr' hlock := by
    rw [← (hJ d hd).orders r hr, ← (hJ d' hd').orders r' hr', Token.order.inj hlock]

end Tables

-- ============================================================================
-- What is read with a row of the tenant
-- ============================================================================

section Records

variable {w : Owners} {t : Id} {rank : Id → Nat}

theorem mem_orderBy {α : Type} {key : α → Nat} {id : α → Id} {rows : List α} {a : α} :
    a ∈ orderBy rank key id rows ↔ a ∈ rows := (orderBy_perm rank key id rows).mem_iff

/-- The lines of a sale of the tenant, -/
theorem itemsOf_only {sales : Sales} {x : Transaction} (hx : x.tenantId = t) :
    (sales.only t).transactionItems.filter (itemOf x) =
      sales.transactionItems.filter (itemOf x) := by
  apply filter_ownedBy
  intro i _ hi
  simp only [itemOf, Bool.and_eq_true, beq_iff_eq] at hi
  exact hi.2.trans hx

/-- the options of a line, -/
theorem modifiersOf_only {sales : Sales} {i : TransactionItem} (hi : i.tenantId = t) :
    (sales.only t).transactionItemModifiers.filter (modifierOf i) =
      sales.transactionItemModifiers.filter (modifierOf i) := by
  apply filter_ownedBy
  intro m _ hm
  simp only [modifierOf, Bool.and_eq_true, beq_iff_eq] at hm
  exact hm.2.trans hi

/-- and its payments. -/
theorem paymentsOf_only {sales : Sales} {x : Transaction} (hx : x.tenantId = t) :
    (sales.only t).payments.filter (paymentOf x) = sales.payments.filter (paymentOf x) := by
  apply filter_ownedBy
  intro p _ hp
  simp only [paymentOf, Bool.and_eq_true, beq_iff_eq] at hp
  exact hp.2.trans hx

/-- A sale of the tenant, with its lines and payments. -/
theorem recordOf_only {sales : Sales} {x : Transaction} (hx : x.tenantId = t) :
    recordOf (sales.only t) rank x = recordOf sales rank x := by
  unfold recordOf
  rw [itemsOf_only hx, paymentsOf_only hx]
  congr 1
  apply List.map_congr_left
  intro i hi
  have hmem := (List.mem_filter.mp (mem_orderBy.mp hi)).2
  simp only [itemOf, Bool.and_eq_true, beq_iff_eq] at hmem
  rw [modifiersOf_only (hmem.2.trans hx)]

/-- A held order of the tenant, with its lines. -/
theorem heldRecordOf_only {d : Db} {o : HeldOrder} (ho : o.tenantId = t) :
    HeldOrders.heldRecordOf (d.only w.outlet t) rank o = HeldOrders.heldRecordOf d rank o := by
  have huser : ((d.only w.outlet t).accounts.users.find? fun u =>
        u.id == o.cashierUserId && u.tenantId == o.tenantId) =
      d.accounts.users.find? fun u => u.id == o.cashierUserId && u.tenantId == o.tenantId := by
    apply find?_ownedBy
    intro u _ hu
    simp only [Bool.and_eq_true, beq_iff_eq] at hu
    exact hu.2.trans ho
  have hitems : (d.only w.outlet t).held.heldOrderItems.filter (HeldOrders.heldItemOf o) =
      d.held.heldOrderItems.filter (HeldOrders.heldItemOf o) := by
    apply filter_ownedBy
    intro i _ hi
    simp only [HeldOrders.heldItemOf, Bool.and_eq_true, beq_iff_eq] at hi
    exact hi.2.trans ho
  unfold HeldOrders.heldRecordOf
  rw [huser, hitems]
  congr 1
  apply List.map_congr_left
  intro i hi
  have hmem := (List.mem_filter.mp (mem_orderBy.mp hi)).2
  simp only [HeldOrders.heldItemOf, Bool.and_eq_true, beq_iff_eq] at hmem
  have hmodifiers : (d.only w.outlet t).held.heldOrderItemModifiers.filter
        (HeldOrders.heldModifierOf i) =
      d.held.heldOrderItemModifiers.filter (HeldOrders.heldModifierOf i) := by
    apply filter_ownedBy
    intro m _ hm
    simp only [HeldOrders.heldModifierOf, Bool.and_eq_true, beq_iff_eq] at hm
    exact hm.2.trans (hmem.2.trans ho)
  rw [hmodifiers]

/-- What a sale loads of the catalog. -/
theorem selectProducts_only {ids : List Id} (d : Db) :
    selectProducts t ids (d.only w.outlet t) = selectProducts t ids d := by
  apply filter_ownedBy
  intro p _ hp
  simp only [Bool.and_eq_true, beq_iff_eq] at hp
  exact hp.1.1

theorem selectAssignments_only {ids : List Id} (d : Db) :
    selectAssignments t ids (d.only w.outlet t) = selectAssignments t ids d := by
  have hrows : ((d.only w.outlet t).catalog.productModifierGroups.filter fun a =>
        a.tenantId == t && ids.contains a.productId) =
      d.catalog.productModifierGroups.filter fun a =>
        a.tenantId == t && ids.contains a.productId := by
    apply filter_ownedBy
    intro a _ ha
    simp only [Bool.and_eq_true, beq_iff_eq] at ha
    exact ha.1
  unfold selectAssignments
  rw [hrows]
  apply List.filterMap_congr
  intro a ha
  have htenant := (List.mem_filter.mp ha).2
  simp only [Bool.and_eq_true, beq_iff_eq] at htenant
  have hgroup : groupOf (d.only w.outlet t).catalog a = groupOf d.catalog a := by
    apply find?_ownedBy
    intro g _ hg
    simp only [Bool.and_eq_true, beq_iff_eq] at hg
    exact hg.2.trans htenant.1
  rw [hgroup]

theorem selectGroupOptions_only {ids : List Id} (d : Db) :
    selectGroupOptions t ids (d.only w.outlet t) = selectGroupOptions t ids d := by
  apply filter_ownedBy
  intro o _ ho
  simp only [Bool.and_eq_true, beq_iff_eq] at ho
  exact ho.1.1

theorem selectOptions_only {ids : List Id} (d : Db) :
    HeldOrders.selectOptions t ids (d.only w.outlet t) = HeldOrders.selectOptions t ids d := by
  apply filter_ownedBy
  intro o _ ho
  simp only [Bool.and_eq_true, beq_iff_eq] at ho
  exact ho.1.1

end Records

-- ============================================================================
-- Sales
-- ============================================================================

section Sales

variable {w : Owners} {J : Db → Prop} {user : JwtPayload}

theorem stays_authorize : Stays w user.tenantId J J (authorize user) := by
  unfold authorize
  apply Prog.Within.bind (stays_query fun d => ?_)
  · intro actor
    apply Prog.Within.bind (stays_query fun d => ?_)
    · intro tenant
      cases actor with
      | none => exact .throw _
      | some actor =>
          cases tenant with
          | none => exact .throw _
          | some tenant => exact .ret _ fun _ h => h
    · apply find?_ownedBy
      intro t _ ht
      simp only [Bool.and_eq_true, beq_iff_eq] at ht
      exact ht.1
  · apply find?_ownedBy
    intro u _ hu
    simp only [Bool.and_eq_true, beq_iff_eq] at hu
    exact hu.1.2

theorem hasKey_tenant {t k : Id} {x : Transaction} (h : hasKey t k x = true) : x.tenantId = t := by
  simp only [hasKey, Bool.and_eq_true, beq_iff_eq] at h
  exact h.1

/-- A sale is found by its key. -/
theorem find?_hasKey_only {t k : Id} (d : Db) :
    (d.only w.outlet t).sales.transactions.find? (hasKey t k) =
      d.sales.transactions.find? (hasKey t k) :=
  find?_ownedBy fun _ _ h => hasKey_tenant h

theorem stays_findByKey {t k : Id} : Stays w t J J (findByKey t k) := by
  apply stays_queryRanked
  intro rank d
  rw [find?_hasKey_only]
  cases hfind : d.sales.transactions.find? (hasKey t k) with
  | none => rfl
  | some x =>
      have hx := hasKey_tenant (List.find?_some hfind)
      exact congrArg some (recordOf_only hx)

theorem ownOpenSession_tenant {sid : Option Id} {s : CashierSession}
    (h : ownOpenSession user sid s = true) : s.tenantId = user.tenantId := by
  simp only [ownOpenSession, Bool.and_eq_true, beq_iff_eq] at h
  exact h.1.1.2

theorem find?_ownOpenSession_only {sid : Option Id} (d : Db) :
    (d.only w.outlet user.tenantId).cashierSessions.find? (ownOpenSession user sid) =
      d.cashierSessions.find? (ownOpenSession user sid) :=
  find?_ownedBy fun _ _ h => ownOpenSession_tenant h

theorem stays_findSession {tx : TransactionClient} {sid : Option Id} :
    Stays w user.tenantId J J (findSession tx user sid) := by
  have hsnap : ∀ v : View Db Env,
      (v.map (Db.only w.outlet user.tenantId)).snap.cashierSessions.find?
          (ownOpenSession user sid) =
        v.snap.cashierSessions.find? (ownOpenSession user sid) := fun v =>
    find?_ownOpenSession_only v.snap
  unfold findSession
  refine Prog.Within.stmt (Q := J) ?_ ?_ ?_
  · intro v _ _
    rw [hsnap v]
  · intro v _ _ d hd
    exact ⟨rfl, Apart.refl w _ d, hd⟩
  · intro v _ _
    rw [hsnap v]
    exact .ret _ fun _ h => h

theorem stays_checkSession {tx : TransactionClient} {dto : CheckoutDto} {mode : CheckoutMode} :
    Stays w user.tenantId J J (checkSession tx user dto mode) := by
  cases mode with
  | legacySync => exact .ret () fun _ h => h
  | v1 =>
      apply Prog.Within.bind stays_findSession
      intro session
      apply Prog.Within.bind (.require _ _)
      intro session
      exact .guard _ _

theorem stays_checkParties {actor : User} {dto : CheckoutDto} :
    Stays w user.tenantId J J (checkParties user actor dto) := by
  unfold checkParties
  apply Prog.Within.bind (stays_query fun d => ?_)
  · intro outlet
    apply Prog.Within.bind (.guard _ _)
    intro _
    cases dto.customerId with
    | none => exact .guard _ _
    | some customerId =>
        apply Prog.Within.bind (stays_query fun d => ?_)
        · intro customer
          apply Prog.Within.bind (.guard _ _)
          intro _
          exact .guard _ _
        · apply find?_ownedBy
          intro c _ hc
          simp only [Bool.and_eq_true, beq_iff_eq] at hc
          exact hc.2
  · apply find?_ownedBy
    intro o _ ho
    simp only [Bool.and_eq_true, beq_iff_eq] at ho
    exact ho.1.2

theorem stays_loadCatalog {t : Id} {items : List CreateTransactionItemDto} :
    Stays w t J J (loadCatalog t items) := by
  unfold loadCatalog
  apply Prog.Within.bind (stays_query selectProducts_only)
  intro products
  apply Prog.Within.bind (.guard _ _)
  intro _
  apply Prog.Within.bind (stays_query selectAssignments_only)
  intro assignments
  dsimp only
  split
  · apply Prog.Within.bind (stays_query selectGroupOptions_only)
    intro options
    exact .ret _ fun _ h => h
  · exact .ret _ fun _ h => h

theorem Owned.same {d d' : Db} (h : Owned w d) (ha : d'.accounts = d.accounts)
    (hc : d'.catalog = d.catalog) (ho : d'.held.heldOrders = d.held.heldOrders)
    (hs : d'.cashierSessions = d.cashierSessions) : Owned w d' where
  outlets := ha ▸ h.outlets
  options := hc ▸ h.options
  orders := ho ▸ h.orders
  sessions := hs ▸ h.sessions

theorem stays_createItem {tid : Id} (i : ValidatedItem) :
    Stays w user.tenantId (Owned w) (Owned w) (createItem user tid i) := by
  unfold createItem
  apply Prog.Within.bind (.guard _ _)
  intro _
  apply stays_insert
  · intro env
    exact changeBy_addTransactionItems fun x hx => (List.mem_singleton.mp hx) ▸ rfl
  · exact fun env d h => h.same rfl rfl rfl rfl

theorem modifierSnapshots_tenant {tid : Id} {items : List ValidatedItem}
    {rows : List TransactionItem} : ∀ m ∈ modifierSnapshots user tid items rows,
      m.tenantId = user.tenantId := by
  intro m hm
  unfold modifierSnapshots at hm
  obtain ⟨ms, hms, hmem⟩ := List.mem_flatten.mp hm
  rw [List.mem_iff_getElem] at hms
  obtain ⟨n, hn, rfl⟩ := hms
  rw [List.getElem_zipWith] at hmem
  obtain ⟨o, -, rfl⟩ := List.mem_map.mp hmem
  rfl

theorem stored_tenant {t : Id} {rows : List TransactionItemModifier} {env : Env}
    (h : ∀ m ∈ rows, m.tenantId = t) :
    ∀ m ∈ TransactionItemModifier.stored rows env, m.tenantId = t := by
  intro m hm
  obtain ⟨⟨x, k⟩, hx, rfl⟩ := List.mem_map.mp hm
  exact h x (List.fst_mem_of_mem_zipIdx hx)

/-- Stock at an outlet of the tenant. -/
theorem stays_decrementStock {outletId : Id} (entry : Id × Int) :
    Stays w user.tenantId (Owned w) (Owned w) (decrementStock user outletId entry) := by
  unfold decrementStock
  apply Prog.Within.bind (.guard _ _)
  intro _
  apply Prog.Within.bind
  · apply stays_updateMany ownedTable_productStocks
    · intro d hd s _ hs
      simp only [stockRow, Bool.and_eq_true, beq_iff_eq, List.any_eq_true] at hs
      obtain ⟨⟨⟨-, o, ho, hid, htenant⟩, -⟩, -⟩ := hs
      show w.outlet s.outletId = user.tenantId
      rw [← hid, hd.outlets o ho, htenant]
    · intro d _ s _ _
      have houtlet : ((d.only w.outlet user.tenantId).accounts.outlets.any fun o =>
            o.id == s.outletId && o.tenantId == user.tenantId) =
          d.accounts.outlets.any fun o => o.id == s.outletId && o.tenantId == user.tenantId := by
        apply any_ownedBy
        intro o _ ho
        simp only [Bool.and_eq_true, beq_iff_eq] at ho
        exact ho.2
      have hproduct : ((d.only w.outlet user.tenantId).catalog.products.any fun p =>
            p.id == s.productId && p.tenantId == user.tenantId) =
          d.catalog.products.any fun p => p.id == s.productId && p.tenantId == user.tenantId := by
        apply any_ownedBy
        intro p _ hp
        simp only [Bool.and_eq_true, beq_iff_eq] at hp
        exact hp.2
      unfold stockRow
      rw [houtlet, hproduct]
    · exact fun env s => rfl
    · exact fun hit env d h => h.same rfl rfl rfl rfl
  · intro updated
    exact .guard _ _

theorem stays_completeTransaction {t id : Id} :
    Stays w t (Owned w) (Owned w) (completeTransaction id t) := by
  have hchange : ∀ J, ChangeBy w t J (Db.modifyTransactions (complete id t)) := by
    intro J
    apply changeBy_modifyTransactions
    · intro r
      unfold complete
      split <;> rfl
    · intro r hr
      unfold complete
      rw [if_neg]
      simp only [Bool.and_eq_true, beq_iff_eq]
      exact fun h => hr h.2
  unfold completeTransaction
  apply Prog.Within.write
  · intro v _ _
    have hsales : ((v.snap.only w.outlet t).modifyTransactions (complete id t)).sales =
        (v.snap.modifyTransactions (complete id t)).sales.only t := by
      have hown := (hchange fun _ => True).own v.snap trivial
      show (Db.modifyTransactions (complete id t) (v.snap.only w.outlet t)).sales = _
      rw [← hown]
      rfl
    show (((v.snap.only w.outlet t).modifyTransactions
        (complete id t)).sales.transactions.find? _).map
      (recordOf ((v.snap.only w.outlet t).modifyTransactions (complete id t)).sales v.env.rank) = _
    rw [hsales]
    have hfind : ((v.snap.modifyTransactions (complete id t)).sales.only t).transactions.find?
          (fun x => x.id == id && x.tenantId == t) =
        (v.snap.modifyTransactions (complete id t)).sales.transactions.find?
          fun x => x.id == id && x.tenantId == t := by
      apply find?_ownedBy
      intro x _ hx
      simp only [Bool.and_eq_true, beq_iff_eq] at hx
      exact hx.2
    rw [hfind]
    dsimp only
    cases hx : (v.snap.modifyTransactions (complete id t)).sales.transactions.find?
        fun x => x.id == id && x.tenantId == t with
    | none => rfl
    | some x =>
        have hkey := List.find?_some hx
        simp only [Bool.and_eq_true, beq_iff_eq] at hkey
        exact congrArg some (recordOf_only hkey.2)
  · intro v _ _ d hd
    exact ⟨(hchange _).own d hd, (hchange _).apart d hd, hd.same rfl rfl rfl rfl⟩

theorem stays_persist {dto : CheckoutDto} {items : List ValidatedItem} {totals : Totals}
    {tender : Option Int} :
    Stays w user.tenantId (Owned w) (Owned w) (persist user dto items totals tender) := by
  unfold persist
  apply Prog.Within.bind
  · apply stays_insertUnique
    · intro d
      exact any_ownedBy fun _ _ h => hasKey_tenant h
    · intro env
      exact changeBy_addTransaction rfl
    · exact fun _ h => h
    · exact fun env d h => h.same rfl rfl rfl rfl
  · intro transaction
    apply Prog.Within.bind (.each stays_createItem items)
    intro rows
    apply Prog.Within.bind
    · apply stays_createMany
      · intro env
        exact changeBy_addTransactionItemModifiers (stored_tenant modifierSnapshots_tenant)
      · exact fun env d h => h.same rfl rfl rfl rfl
    · intro _
      apply Prog.Within.bind (.each stays_decrementStock _)
      intro _
      apply Prog.Within.bind
      · apply stays_createMany
        · intro env
          apply changeBy_addStockMovements
          intro x hx
          obtain ⟨y, -, rfl⟩ := List.mem_map.mp hx
          rfl
        · exact fun env d h => h.same rfl rfl rfl rfl
      · intro _
        apply Prog.Within.bind
        · apply stays_insert
          · intro env
            exact changeBy_addPayment rfl
          · exact fun env d h => h.same rfl rfl rfl rfl
        · intro _
          apply Prog.Within.bind stays_completeTransaction
          intro completed
          exact .require _ _

theorem stays_sell {tx : TransactionClient} {dto : CheckoutDto} {mode : CheckoutMode}
    {actor : User} {tenant : Tenant} :
    Stays w user.tenantId (Owned w) (Owned w) (sell tx user dto mode actor tenant) := by
  unfold sell
  apply Prog.Within.bind stays_checkSession
  intro _
  apply Prog.Within.bind stays_checkParties
  intro _
  apply Prog.Within.bind stays_loadCatalog
  intro catalog
  apply Prog.Within.bind (.lift _)
  intro items
  apply Prog.Within.bind (.lift _)
  intro totals
  apply Prog.Within.bind (.lift _)
  intro tender
  apply Prog.Within.bind stays_persist
  intro completed
  exact .lift _

/-- A sale stays with the tenant of the caller. -/
theorem stays_executeTransactionCore {tx : TransactionClient} {dto : CheckoutDto}
    {mode : CheckoutMode} :
    Stays w user.tenantId (Owned w) (Owned w) (executeTransactionCore tx user dto mode) := by
  unfold executeTransactionCore
  apply Prog.Within.bind (.lift _)
  intro normalized
  unfold checkout
  apply Prog.Within.bind stays_authorize
  rintro ⟨actor, tenant⟩
  apply Prog.Within.bind stays_findByKey
  intro existing
  cases existing with
  | none => exact stays_sell
  | some existing =>
      apply Prog.Within.bind (.lift _)
      intro _
      exact .lift _

/-- `createInternal`. -/
theorem stays_createBody {input : CheckoutDto} {mode : CheckoutMode} :
    Stays w user.normalized.tenantId (Owned w) (Owned w)
      (Transactions.createBody user input mode) := by
  unfold Transactions.createBody
  apply Prog.Within.lift_bind
  rintro ⟨actor, dto⟩ hprepare
  have hactor : actor = user.normalized := by
    unfold prepare at hprepare
    split at hprepare
    · cases hprepare
    · obtain ⟨dto', -, hrest⟩ := Checked.bind_ok.mp hprepare
      obtain ⟨-, -, heq⟩ := Checked.bind_ok.mp hrest
      exact congrArg Prod.fst (Except.ok.inj heq).symm
  subst hactor
  exact stays_executeTransactionCore

end Sales

-- ============================================================================
-- Held orders
-- ============================================================================

section HeldOrders

open HeldOrders

variable {w : Owners} {J K : Db → Prop} {user : JwtPayload} {t : Id} {α : Type}

theorem stays_principal : Stays w user.tenantId J J (principal user) := by
  unfold principal
  apply Prog.Within.bind (stays_query fun d => ?_)
  · intro u
    exact .require _ _
  · apply find?_ownedBy_congr
    · intro u _ hu
      simp only [Bool.and_eq_true, beq_iff_eq] at hu
      exact hu.1.1.2
    · intro u _ hu
      have htenants : ((d.only w.outlet user.tenantId).accounts.tenants.any fun t =>
            t.id == u.tenantId && t.isActive) =
          d.accounts.tenants.any fun t => t.id == u.tenantId && t.isActive := by
        apply any_ownedBy
        intro t _ ht
        simp only [Bool.and_eq_true, beq_iff_eq] at ht
        exact ht.1.trans hu
      rw [htenants]

theorem stays_findOutlet {outletId : Id} : Stays w t J J (findOutlet t outletId) := by
  unfold findOutlet
  apply Prog.Within.bind (stays_query fun d => ?_)
  · intro outlet
    exact .guard _ _
  · apply find?_ownedBy
    intro o _ ho
    simp only [Bool.and_eq_true, beq_iff_eq] at ho
    exact ho.1.2

theorem stays_activeTenant : Stays w t J J (activeTenant t) := by
  unfold activeTenant
  apply Prog.Within.bind (stays_query fun d => ?_)
  · intro tenant
    exact .require _ _
  · apply find?_ownedBy
    intro x _ hx
    simp only [Bool.and_eq_true, beq_iff_eq] at hx
    exact hx.1

theorem stays_readScope : Stays w user.tenantId J J (HeldOrders.readScope user) := by
  unfold HeldOrders.readScope
  apply Prog.Within.bind stays_principal
  intro u
  cases u.role with
  | owner => exact .ret _ fun _ h => h
  | admin => exact .ret _ fun _ h => h
  | cashier =>
      apply Prog.Within.bind (.require _ _)
      intro outletId
      apply Prog.Within.bind stays_findOutlet
      intro _
      exact .ret _ fun _ h => h

/-- The orders in scope are the tenant's. -/
theorem returns_readScope :
    (HeldOrders.readScope user).Returns fun scope => scope.tenantId = user.tenantId := by
  unfold HeldOrders.readScope
  apply (Prog.returns_any _).bind
  intro u _
  cases u.role with
  | owner => exact .ret rfl
  | admin => exact .ret rfl
  | cashier =>
      apply (Prog.returns_any _).bind
      intro outletId _
      apply (Prog.returns_any _).bind
      intro _ _
      exact .ret rfl

theorem stays_selectSession {sid : Id} : Stays w t J J (selectSessionForUpdate sid t) := by
  apply Prog.Within.lock (Apart.refl w t)
  intro v _ _
  have hany : ((v.map (Db.only w.outlet t)).snap.cashierSessions.any fun s =>
        s.id == sid && s.tenantId == t) =
      v.snap.cashierSessions.any fun s => s.id == sid && s.tenantId == t := by
    apply any_ownedBy
    intro s _ hs
    simp only [Bool.and_eq_true, beq_iff_eq] at hs
    exact hs.2
  rw [hany]

theorem stays_authorizeWrite {outletId sid : Id} :
    Stays w user.tenantId J J (authorizeWrite user outletId sid) := by
  unfold authorizeWrite
  apply Prog.Within.bind stays_principal
  intro u
  apply Prog.Within.bind (.guard _ _)
  intro _
  apply Prog.Within.bind stays_activeTenant
  intro tenant
  apply Prog.Within.bind stays_findOutlet
  intro _
  apply Prog.Within.bind stays_selectSession
  intro _
  apply Prog.Within.bind (stays_query find?_ownOpenSession_only)
  intro session
  apply Prog.Within.bind (.require _ _)
  intro session
  apply Prog.Within.bind (.guard _ _)
  intro _
  exact .ret _ fun _ h => h

theorem stays_resolveItems {items : List CreateTransactionItemDto} :
    Stays w t J J (resolveItems t items) := by
  unfold resolveItems
  apply Prog.Within.bind (stays_query selectProducts_only)
  intro products
  apply Prog.Within.bind (.guard _ _)
  intro _
  apply Prog.Within.bind (stays_query selectAssignments_only)
  intro assignments
  dsimp only
  split
  · apply Prog.Within.bind (stays_query selectOptions_only)
    intro options
    exact .lift _
  · exact .lift _

theorem stays_persistItems {orderId : Id} {items : List ResolvedItem} :
    Stays w t (fun _ => True) (fun _ => True) (persistItems t orderId items) := by
  unfold persistItems
  refine Prog.Within.bind (.each (fun x => ?_) _) fun _ => .ret _ fun _ h => h
  unfold persistItem
  apply Prog.Within.bind (.guard _ _)
  intro _
  apply Prog.Within.bind
  · apply stays_insert (K := fun _ => True)
    · intro env
      exact changeBy_addHeldOrderItems fun x hx => (List.mem_singleton.mp hx) ▸ rfl
    · exact fun _ _ _ => trivial
  · intro persisted
    apply stays_createMany
    · intro env
      apply changeBy_addHeldOrderItemModifiers
      intro m hm
      obtain ⟨o, -, rfl⟩ := List.mem_map.mp hm
      rfl
    · exact fun _ _ _ => trivial

/-- An order of the tenant, with its lines. -/
theorem stays_heldRecord {p : HeldOrder → Bool} (hp : ∀ o, p o = true → o.tenantId = t) :
    Stays w t J J (queryRanked fun rank db =>
      (db.held.heldOrders.find? p).map (heldRecordOf db rank)) := by
  apply stays_queryRanked
  intro rank d
  have hfind : (d.only w.outlet t).held.heldOrders.find? p = d.held.heldOrders.find? p :=
    find?_ownedBy fun o _ ho => hp o ho
  rw [hfind]
  cases hx : d.held.heldOrders.find? p with
  | none => rfl
  | some o => exact congrArg some (heldRecordOf_only (hp o (List.find?_some hx)))

theorem stays_findRecord {orderId : Id} {e : Exc} : Stays w t J J (findRecord t orderId e) := by
  unfold findRecord
  apply Prog.Within.bind
  · apply stays_heldRecord
    intro o ho
    simp only [Bool.and_eq_true, beq_iff_eq] at ho
    exact ho.2
  · intro record
    exact .require _ _

theorem stays_findInScope {scope : Scope} {orderId : Id} (hscope : scope.tenantId = t) :
    Stays w t J J (findInScope scope orderId) := by
  unfold findInScope
  apply Prog.Within.bind
  · apply stays_heldRecord
    intro o ho
    simp only [Scope.contains, Bool.and_eq_true, beq_iff_eq] at ho
    exact ho.1.1.trans hscope
  · intro record
    exact .require _ _

/-- A compare-and-swap on an order of the tenant. -/
theorem stays_swapOrder {orderId : Id} {version : Int} {f : Env → HeldOrder → HeldOrder}
    {fits : HeldOrder → Bool} {e : Exc} (hid : ∀ env o, (f env o).id = o.id)
    (htenant : ∀ env o, (f env o).tenantId = o.tenantId) :
    Stays w t (Owned w) (Owned w) (swapOrder t orderId version f fits e) := by
  unfold swapOrder
  apply Prog.Within.bind
  · apply stays_updateMany (K := Owned w) (ownedTable_heldOrders fun _ h => h)
    · intro d _ o _ ho
      simp only [openAt, Bool.and_eq_true, beq_iff_eq] at ho
      exact ho.1.1.2
    · exact fun _ _ _ _ _ => rfl
    · exact htenant
    · intro hit env d hd
      refine ⟨hd.outlets, hd.options, fun o ho => ?_, hd.sessions⟩
      obtain ⟨x, hx, rfl⟩ := List.mem_map.mp ho
      split
      · rw [hid, htenant]
        exact hd.orders x hx
      · exact hd.orders x hx
  · intro updated
    exact .guard _ _

/-- `HeldOrdersService.create`. -/
theorem stays_holdCreate {input : CreateHeldOrderDto} :
    Stays w user.normalized.tenantId (Owned w) (fun _ => True)
      (HeldOrders.createBody user input) := by
  unfold HeldOrders.createBody
  apply Prog.Within.lift_bind
  rintro ⟨actor, dto⟩ hprepare
  obtain ⟨rfl, -⟩ := prepareCreate_ok hprepare
  apply Prog.Within.bind stays_authorizeWrite
  rintro ⟨tenant, u⟩
  apply Prog.Within.bind stays_resolveItems
  intro resolved
  apply Prog.Within.bind (.lift _)
  intro estimates
  apply Prog.Within.bind (.guard _ _)
  intro _
  apply Prog.Within.bind
  · apply stays_insert (K := fun _ => True)
    · intro env
      exact changeBy_addHeldOrder rfl
    · exact fun _ _ _ => trivial
  · intro order
    apply Prog.Within.bind stays_persistItems
    intro _
    apply Prog.Within.bind stays_findRecord
    intro created
    exact .ret _ fun _ h => h

theorem stays_repriceIf {items : Option (List CreateTransactionItemDto)} :
    Stays w t J J (repriceIf t items) := by
  cases items with
  | none => exact .ret _ fun _ h => h
  | some items =>
      apply Prog.Within.bind
      · unfold reprice
        apply Prog.Within.bind stays_activeTenant
        intro tenant
        apply Prog.Within.bind stays_resolveItems
        intro resolved
        apply Prog.Within.bind (.lift _)
        intro estimates
        exact .ret _ fun _ h => h
      · intro repriced
        exact .ret _ fun _ h => h

theorem updatedRow_id {label : Option (Option String)} {estimates : Option Estimates}
    (o : HeldOrder) : (updatedRow label estimates o).id = o.id := by
  cases label <;> cases estimates <;> rfl

theorem updatedRow_tenantId {label : Option (Option String)} {estimates : Option Estimates}
    (o : HeldOrder) : (updatedRow label estimates o).tenantId = o.tenantId := by
  cases label <;> cases estimates <;> rfl

/-- Lines are deleted by their identifiers, which may have been other lines' before.  What
    is left of the tenant's lines is told by the tenant's rows all the same. -/
theorem within_deleteItems {orderId : Id} :
    Prog.Within (Db.only w.outlet t) (fun _ _ => True) (fun _ => True) (fun _ => True)
      (deleteItems t orderId) (deleteItems t orderId) := by
  unfold deleteItems
  refine Prog.Within.write (fun _ _ _ => rfl) ?_
  intro v _ _ d _
  have hids : ((v.map (Db.only w.outlet t)).snap.held.heldOrderItems.filter fun i =>
        i.tenantId == t && i.heldOrderId == orderId) =
      v.snap.held.heldOrderItems.filter fun i => i.tenantId == t && i.heldOrderId == orderId := by
    apply filter_ownedBy
    intro i _ hi
    simp only [Bool.and_eq_true, beq_iff_eq] at hi
    exact hi.1
  rw [hids]
  refine ⟨?_, trivial, trivial⟩
  simp only [Db.only, Db.removeHeldOrderItems, Held.only, ownedBy_filter]

/-- `HeldOrdersService.update`. -/
theorem within_holdUpdate {id : String} {input : UpdateHeldOrderDto} :
    Prog.Within (Db.only w.outlet user.normalized.tenantId) (fun _ _ => True) (fun _ => True)
      (Owned w) (updateBody user id input) (updateBody user id input) := by
  have hany : ∀ {β : Type} {J K : Db → Prop} {p : Body β},
      Stays w user.normalized.tenantId J K p →
      Prog.Within (Db.only w.outlet user.normalized.tenantId) (fun _ _ => True) K J p p := fun h =>
    h.weaken fun _ _ _ => trivial
  unfold updateBody
  apply Prog.Within.lift_bind
  rintro ⟨actor, orderId, dto⟩ hprepare
  obtain ⟨rfl, -, -⟩ := prepareUpdate_ok hprepare
  apply (hany stays_readScope).bind_of returns_readScope
  intro scope hscope
  apply Prog.Within.bind (hany (stays_findInScope hscope))
  intro current
  apply Prog.Within.bind (.lift _)
  intro _
  apply Prog.Within.bind (hany stays_repriceIf)
  intro repriced
  apply Prog.Within.bind
    (hany (stays_swapOrder (fun _ => updatedRow_id) fun _ => updatedRow_tenantId))
  intro _
  apply Prog.Within.bind (K := fun _ => True)
  · cases repriced.map Prod.fst with
    | none => exact .ret _ fun _ _ => trivial
    | some resolved =>
        apply Prog.Within.bind (within_deleteItems.mono fun _ _ => trivial)
        intro _
        exact hany stays_persistItems
  · intro _
    apply Prog.Within.bind (hany stays_findRecord)
    intro result
    exact .ret _ fun _ h => h

end HeldOrders

end Kasir
