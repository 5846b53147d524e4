/-
  Kasir.TenantCalls

  Every call stays with its tenant: the rest of the held orders, shifts, stock and the
  catalog.
-/

import Kasir.TenantBodies

namespace Kasir

open Txn Transactions

variable {w : Owners} {J K : Db → Prop} {user : JwtPayload} {t : Id}

-- ============================================================================
-- Conversions of held orders
-- ============================================================================

section HeldOrders

open HeldOrders

/-- `HeldOrdersService.cancel`. -/
theorem stays_holdCancel {id : String} {input : CancelHeldOrderDto} :
    Stays w user.normalized.tenantId (Owned w) (Owned w) (cancelBody user id input) := by
  unfold cancelBody
  apply Prog.Within.lift_bind
  rintro ⟨actor, orderId⟩ hprepare
  obtain ⟨rfl, -⟩ := prepareOrder_ok hprepare
  apply stays_readScope.bind_of returns_readScope
  intro scope hscope
  apply Prog.Within.bind (stays_findInScope hscope)
  intro current
  apply Prog.Within.bind (.lift _)
  intro _
  apply Prog.Within.bind (stays_swapOrder (f := cancelledRow) (fun _ _ => rfl) fun _ _ => rfl)
  intro _
  apply Prog.Within.bind stays_findRecord
  intro result
  exact .ret _ fun _ h => h

/-- The linked sale, in whatever order its lines are returned. -/
theorem stays_findLinked {k : Id} : Stays w t J J (findLinked t k) := by
  unfold findLinked
  apply stays_queryRanked
  intro rank d
  rw [find?_hasKey_only]
  cases hfind : d.sales.transactions.find? (hasKey t k) with
  | none => rfl
  | some x =>
      have hx := hasKey_tenant (List.find?_some hfind)
      have hitems : (d.only w.outlet t).sales.transactionItems.filter (itemOf x) =
          d.sales.transactionItems.filter (itemOf x) := itemsOf_only hx
      have hpayments : (d.only w.outlet t).sales.payments.filter (paymentOf x) =
          d.sales.payments.filter (paymentOf x) := paymentsOf_only hx
      rw [Option.map_some, Option.map_some, hitems, hpayments]
      congr 2
      apply List.map_congr_left
      intro i hi
      have hmem := (List.mem_filter.mp (mem_orderBy.mp hi)).2
      simp only [itemOf, Bool.and_eq_true, beq_iff_eq] at hmem
      have hmodifiers : (d.only w.outlet t).sales.transactionItemModifiers.filter (modifierOf i) =
          d.sales.transactionItemModifiers.filter (modifierOf i) :=
        modifiersOf_only (hmem.2.trans hx)
      rw [hmodifiers]

theorem stays_checkOutletAccess {order : HeldOrder} :
    Stays w user.tenantId J J (checkOutletAccess user order) := by
  unfold checkOutletAccess
  split
  · apply Prog.Within.bind (stays_query fun d => ?_)
    · intro u
      exact .guard _ _
    · apply find?_ownedBy
      intro u _ hu
      simp only [Bool.and_eq_true, beq_iff_eq] at hu
      exact hu.2
  · exact .ret _ fun _ h => h

theorem stays_checkOriginSession {order : HeldOrder} :
    Stays w user.tenantId J J (checkOriginSession user order) := by
  unfold checkOriginSession
  apply Prog.Within.bind (stays_query fun d => ?_)
  · intro session
    apply Prog.Within.bind (.require _ _)
    intro session
    apply Prog.Within.bind (.guard _ _)
    intro _
    exact .guard _ _
  · apply find?_ownedBy
    intro s _ hs
    simp only [Bool.and_eq_true, beq_iff_eq] at hs
    exact hs.1.1.2

/-- `HeldOrdersService.checkout`. -/
theorem stays_holdCheckout {id : String} {input : CheckoutHeldOrderDto} :
    Stays w user.normalized.tenantId (Owned w) (Owned w) (checkoutBody user id input) := by
  unfold checkoutBody
  apply Prog.Within.lift_bind
  rintro ⟨actor, orderId, dto⟩ hprepare
  obtain ⟨rfl, -, -⟩ := prepareCheckout_ok hprepare
  unfold convertHeldOrder
  apply stays_readScope.bind_of returns_readScope
  intro scope hscope
  apply Prog.Within.bind (stays_findInScope hscope)
  intro record
  split
  · unfold replayConversion
    apply Prog.Within.bind stays_findLinked
    intro existing
    apply Prog.Within.bind (.require _ _)
    intro existing
    apply Prog.Within.bind (.guard _ _)
    intro _
    apply Prog.Within.bind stays_executeTransactionCore
    intro result
    exact .ret _ fun _ h => h
  · apply Prog.Within.bind (.lift _)
    intro _
    unfold convertOpen
    apply Prog.Within.bind stays_checkOutletAccess
    intro _
    apply Prog.Within.bind stays_checkOriginSession
    intro _
    apply Prog.Within.bind (stays_swapOrder (f := fun _ => claimedRow) (fun _ _ => rfl)
      fun _ _ => rfl)
    intro _
    apply Prog.Within.bind stays_executeTransactionCore
    intro result
    apply Prog.Within.bind (stays_swapOrder (f := convertedRow _) (fun _ _ => rfl)
      fun _ _ => rfl)
    intro _
    exact .ret _ fun _ h => h

end HeldOrders

-- ============================================================================
-- Shifts
-- ============================================================================

section Shifts

open Shifts

theorem stays_actorContext : Stays w user.normalized.tenantId J J (Shifts.actorContext user) := by
  unfold Shifts.actorContext
  apply Prog.Within.bind (.guard _ _)
  intro _
  apply Prog.Within.bind stays_principal
  intro actor
  exact .ret _ fun _ h => h

theorem returns_actorContext :
    (Shifts.actorContext user).Returns fun a => a.tenantId = user.normalized.tenantId := by
  unfold Shifts.actorContext
  apply (Prog.returns_any _).bind
  intro _ _
  apply (Prog.returns_any _).bind
  intro _ _
  exact .ret rfl

theorem stays_openBody {outletId : String} :
    Stays w user.normalized.tenantId (Owned w) (fun _ => True) (openBody user outletId) := by
  unfold openBody
  apply Prog.Within.bind (.lift _)
  intro outletId
  apply stays_actorContext.bind_of returns_actorContext
  intro actor hactor
  apply Prog.Within.bind (.guard _ _)
  intro _
  rw [hactor]
  apply Prog.Within.bind stays_findOutlet
  intro _
  have howner : ∀ s, openSessionOf user.normalized.tenantId actor.userId s = true →
      s.tenantId = user.normalized.tenantId := by
    intro s hs
    simp only [openSessionOf, Bool.and_eq_true, beq_iff_eq] at hs
    exact hs.1.1
  apply Prog.Within.bind (stays_query fun d => find?_ownedBy fun s _ hs => howner s hs)
  intro activeShift
  apply Prog.Within.bind (.guard _ _)
  intro _
  apply Prog.Within.bind
  · apply stays_insertUnique (K := fun _ => True)
    · exact fun d => any_ownedBy fun s _ hs => howner s hs
    · exact fun env => changeBy_addCashierSession hactor
    · exact fun _ _ => trivial
    · exact fun _ _ _ => trivial
  · intro shift
    exact .lift _

/-- A shift is shown with rows of its tenant. -/
theorem shiftSelect_only {d : Db} {s : CashierSession} (h : s.tenantId = t) :
    shiftSelect (d.only w.outlet t).accounts s = shiftSelect d.accounts s := by
  have houtlet : ((d.only w.outlet t).accounts.outlets.find? fun o =>
      o.id == s.outletId && o.tenantId == s.tenantId) =
      d.accounts.outlets.find? fun o => o.id == s.outletId && o.tenantId == s.tenantId := by
    apply find?_ownedBy
    intro o _ ho
    simp only [Bool.and_eq_true, beq_iff_eq] at ho
    exact ho.2.trans h
  have huser : ((d.only w.outlet t).accounts.users.find? fun u =>
      u.id == s.userId && u.tenantId == s.tenantId) =
      d.accounts.users.find? fun u => u.id == s.userId && u.tenantId == s.tenantId := by
    apply find?_ownedBy
    intro u _ hu
    simp only [Bool.and_eq_true, beq_iff_eq] at hu
    exact hu.2.trans h
  unfold shiftSelect
  rw [houtlet, huser]

theorem stays_findShift {shiftId : Id} {e : Exc} : Stays w t J J (findShift t shiftId e) := by
  unfold findShift
  apply Prog.Within.bind (stays_query fun d => ?_)
  · intro shift
    exact .require _ _
  · have hshift : (d.only w.outlet t).cashierSessions.find? (shiftOf t shiftId) =
        d.cashierSessions.find? (shiftOf t shiftId) := by
      apply find?_ownedBy
      intro s _ hs
      simp only [shiftOf, Bool.and_eq_true, beq_iff_eq] at hs
      exact hs.2
    rw [hshift]
    apply Option.map_congr
    intro s hs
    have htenant := List.find?_some hs
    simp only [shiftOf, Bool.and_eq_true, beq_iff_eq] at htenant
    exact shiftSelect_only htenant.2

theorem saleOf_tenant {shiftId : Id} {x : Transaction} (h : saleOf t shiftId x = true) :
    x.tenantId = t := by
  simp only [saleOf, Bool.and_eq_true, beq_iff_eq] at h
  exact h.1.1

/-- The sales of a shift with what is summed of them. -/
theorem summarySales_only {shiftId : Id} (d : Db) :
    summarySales t shiftId (d.only w.outlet t) = summarySales t shiftId d := by
  have hsales : (d.only w.outlet t).sales.transactions.filter (saleOf t shiftId) =
      d.sales.transactions.filter (saleOf t shiftId) :=
    filter_ownedBy fun x _ hx => saleOf_tenant hx
  unfold summarySales
  rw [hsales]
  apply List.map_congr_left
  intro x _
  have hpayments : ((d.only w.outlet t).sales.payments.filter fun p =>
        paymentOf x p && p.tenantId == t && p.status == .paid) =
      d.sales.payments.filter fun p => paymentOf x p && p.tenantId == t && p.status == .paid := by
    apply filter_ownedBy
    intro p _ hp
    simp only [Bool.and_eq_true, beq_iff_eq] at hp
    exact hp.1.2
  have hitems : ((d.only w.outlet t).sales.transactionItems.filter fun i =>
        itemOf x i && i.tenantId == t) =
      d.sales.transactionItems.filter fun i => itemOf x i && i.tenantId == t := by
    apply filter_ownedBy
    intro i _ hi
    simp only [Bool.and_eq_true, beq_iff_eq] at hi
    exact hi.2
  rw [hpayments, hitems]
  congr 1
  apply List.map_congr_left
  intro i hi
  have hmem := (List.mem_filter.mp ((orderById_perm _ _ _).mem_iff.mp hi)).2
  simp only [Bool.and_eq_true, beq_iff_eq] at hmem
  have hproduct : ((d.only w.outlet t).catalog.products.find? fun p =>
        p.id == i.productId && p.tenantId == i.tenantId) =
      d.catalog.products.find? fun p => p.id == i.productId && p.tenantId == i.tenantId := by
    apply find?_ownedBy
    intro p _ hp
    simp only [Bool.and_eq_true, beq_iff_eq] at hp
    exact hp.2.trans hmem.2
  rw [hproduct]

theorem stays_deriveSummary {shift : ShiftRecord} :
    Stays w t J J (deriveSummary t shift) := by
  unfold deriveSummary
  apply Prog.Within.bind (stays_query fun d => ?_)
  · intro aggregate
    apply Prog.Within.bind (stays_queryNow summarySales_only)
    intro sales
    apply Prog.Within.bind (.lift _)
    intro _
    exact .ret _ fun _ h => h
  · have hsales : (d.only w.outlet t).sales.transactions.filter (saleOf t shift.id) =
        d.sales.transactions.filter (saleOf t shift.id) :=
      filter_ownedBy fun x _ hx => saleOf_tenant hx
    unfold aggregateSales
    rw [hsales]

theorem stays_closeSession {shiftId : Id} :
    Stays w t (Owned w) (Owned w) (closeSession t shiftId) := by
  unfold closeSession
  apply Prog.Within.bind
  · apply stays_updateMany (K := Owned w) (ownedTable_cashierSessions fun _ h => h)
    · intro d _ s _ hs
      simp only [shiftOf, Bool.and_eq_true, beq_iff_eq] at hs
      exact hs.1.2
    · exact fun _ _ _ _ _ => rfl
    · exact fun _ _ => rfl
    · intro hit env d hd
      refine ⟨hd.outlets, hd.options, hd.orders, fun s hs => ?_⟩
      obtain ⟨x, hx, rfl⟩ := List.mem_map.mp hs
      split
      · exact hd.sessions x hx
      · exact hd.sessions x hx
  · intro updated
    exact .guard _ _

theorem stays_closeBody {id : String} :
    Stays w user.normalized.tenantId (Owned w) (Owned w) (closeBody user id) := by
  unfold closeBody
  apply Prog.Within.bind (.lift _)
  intro shiftId
  apply stays_actorContext.bind_of returns_actorContext
  intro actor hactor
  rw [hactor]
  apply Prog.Within.bind stays_findShift
  intro shift
  apply Prog.Within.bind (.guard _ _)
  intro _
  apply Prog.Within.bind (.guard _ _)
  intro _
  apply Prog.Within.bind stays_selectSession
  intro _
  apply Prog.Within.bind (stays_query fun d => ?_)
  · intro openHeldOrders
    apply Prog.Within.bind (.guard _ _)
    intro _
    apply Prog.Within.bind stays_deriveSummary
    intro _
    apply Prog.Within.bind stays_closeSession
    intro _
    apply Prog.Within.bind stays_findShift
    intro closedShift
    exact .lift _
  · apply countP_ownedBy
    intro o _ ho
    simp only [openOrderOf, Bool.and_eq_true, beq_iff_eq] at ho
    exact ho.1.1

theorem stays_summaryBody {id : String} :
    Stays w user.normalized.tenantId J J (summaryBody user id) := by
  unfold summaryBody
  apply Prog.Within.bind (.lift _)
  intro shiftId
  apply stays_actorContext.bind_of returns_actorContext
  intro actor hactor
  rw [hactor]
  apply Prog.Within.bind stays_findShift
  intro shift
  apply Prog.Within.bind (.guard _ _)
  intro _
  exact stays_deriveSummary

end Shifts

-- ============================================================================
-- Stock
-- ============================================================================

section Stock

variable {scope : Stock.Scope}

/-- The outlet of the scope is the tenant's. -/
def Located (w : Owners) (scope : Stock.Scope) (d : Db) : Prop :=
  Owned w d ∧ w.outlet scope.outletId = scope.tenantId

theorem stays_checkScope :
    Stays w scope.tenantId (Owned w) (Located w scope) (Stock.checkScope user scope) := by
  unfold Stock.checkScope
  apply stays_query_bind
  · intro d _
    apply find?_ownedBy
    intro o _ ho
    simp only [Bool.and_eq_true, beq_iff_eq] at ho
    exact ho.2
  · intro d hd
    apply Prog.Within.guard_bind
    intro hsome
    obtain ⟨o, ho⟩ := Option.isSome_iff_exists.mp hsome
    have hkey := List.find?_some ho
    simp only [Bool.and_eq_true, beq_iff_eq] at hkey
    have houtlet : w.outlet scope.outletId = scope.tenantId := by
      rw [← hkey.1, hd.outlets o (List.mem_of_find?_eq_some ho), hkey.2]
    apply Prog.Within.mono (J := Located w scope) _ fun _ h => ⟨h, houtlet⟩
    apply Prog.Within.bind (stays_query fun d => ?_)
    · intro product
      apply Prog.Within.bind (.require _ _)
      intro product
      apply Prog.Within.bind (.guard _ _)
      intro _
      apply Prog.Within.bind (stays_query fun d => ?_)
      · intro actor
        exact .guard _ _
      · apply find?_ownedBy
        intro u _ hu
        simp only [Bool.and_eq_true, beq_iff_eq] at hu
        exact hu.2
    · apply find?_ownedBy
      intro p _ hp
      simp only [Bool.and_eq_true, beq_iff_eq] at hp
      exact hp.2

theorem stays_ensureRow :
    Stays w scope.tenantId (Located w scope) (Located w scope) (Stock.ensureRow scope) := by
  have hthere : ∀ d, Located w scope d →
      ((d.only w.outlet scope.tenantId).stocks.productStocks.any fun s =>
        s.outletId == scope.outletId && s.productId == scope.productId) =
      d.stocks.productStocks.any fun s =>
        s.outletId == scope.outletId && s.productId == scope.productId := by
    intro d hd
    apply any_ownedBy
    intro s _ hs
    simp only [Bool.and_eq_true, beq_iff_eq] at hs
    rw [hs.1]
    exact hd.2
  unfold Stock.ensureRow
  refine Prog.Within.stmt (Q := Located w scope) ?_ ?_ ?_
  · intro v _ hc
    show (if ((v.cur.only w.outlet scope.tenantId).stocks.productStocks.any _) = true
      then _ else _) = _
    rw [hthere v.cur hc]
  · intro v _ hc d hd
    have hcur : ((v.map (Db.only w.outlet scope.tenantId)).cur.stocks.productStocks.any fun s =>
        s.outletId == scope.outletId && s.productId == scope.productId) =
      v.cur.stocks.productStocks.any fun s =>
        s.outletId == scope.outletId && s.productId == scope.productId := hthere v.cur hc
    simp only [hcur]
    split
    · exact ⟨rfl, Apart.refl w _ d, hd⟩
    · have hadd : ChangeBy w scope.tenantId (Located w scope) (Db.addProductStocks
          [{ outletId := scope.outletId, productId := scope.productId, stock := 0 }]) :=
        changeBy_addProductStocks fun x hx => (List.mem_singleton.mp hx) ▸ hd.2
      exact ⟨hadd.own d hd, hadd.apart d hd, hd.1.same rfl rfl rfl rfl, hd.2⟩
  · intro v _ _
    exact .ret _ fun _ h => h

/-- Whether a row is in the scope is told by the tenant's rows. -/
theorem contains_only {d : Db} {s : ProductStock} :
    scope.contains (d.only w.outlet scope.tenantId) s = scope.contains d s := by
  have houtlet : ((d.only w.outlet scope.tenantId).accounts.outlets.any fun o =>
        o.id == s.outletId && o.tenantId == scope.tenantId) =
      d.accounts.outlets.any fun o => o.id == s.outletId && o.tenantId == scope.tenantId := by
    apply any_ownedBy
    intro o _ ho
    simp only [Bool.and_eq_true, beq_iff_eq] at ho
    exact ho.2
  have hproduct : ((d.only w.outlet scope.tenantId).catalog.products.any fun p =>
        p.id == s.productId && p.tenantId == scope.tenantId) =
      d.catalog.products.any fun p => p.id == s.productId && p.tenantId == scope.tenantId := by
    apply any_ownedBy
    intro p _ hp
    simp only [Bool.and_eq_true, beq_iff_eq] at hp
    exact hp.2
  unfold Stock.Scope.contains
  rw [houtlet, hproduct]

/-- The row of the scope is the tenant's. -/
theorem contains_owner {d : Db} {s : ProductStock} (hd : Located w scope d)
    (h : scope.contains d s = true) : w.outlet s.outletId = scope.tenantId := by
  simp only [Stock.Scope.contains, Bool.and_eq_true, beq_iff_eq] at h
  rw [h.1.1.1]
  exact hd.2

theorem stays_changeStock {dto : Stock.CreateStockAdjustmentDto} :
    Stays w scope.tenantId (Located w scope) (Located w scope) (Stock.changeStock scope dto) := by
  unfold Stock.changeStock
  apply Prog.Within.bind (.guard _ _)
  intro _
  apply Prog.Within.bind
  · apply stays_updateMany (K := Located w scope) ownedTable_productStocks
    · intro d hd s _ hs
      rw [Bool.and_eq_true] at hs
      exact contains_owner hd hs.1
    · intro d _ s _ _
      rw [contains_only]
    · exact fun env s => rfl
    · exact fun hit env d h => ⟨h.1.same rfl rfl rfl rfl, h.2⟩
  · intro updated
    exact .guard _ _

/-- `StockService.createAdjustment`. -/
theorem stays_adjustmentBody {dto : Stock.CreateStockAdjustmentDto} :
    Stays w user.normalized.tenantId (Owned w) (Located w (Stock.scopeOf user dto))
      (Stock.adjustmentBody user dto) := by
  let scope := Stock.scopeOf user dto
  show Stays w scope.tenantId (Owned w) (Located w scope) (Stock.adjustmentBody user dto)
  have hensure : Stays w scope.tenantId (Located w scope) (Located w scope)
      (Stock.ensureRowFor scope dto.adjustmentType) := by
    cases dto.adjustmentType with
    | add => exact stays_ensureRow
    | deduct => exact .ret _ fun _ h => h
  unfold Stock.adjustmentBody
  apply Prog.Within.bind stays_checkScope
  intro _
  apply Prog.Within.bind hensure
  intro _
  apply Prog.Within.bind stays_changeStock
  intro _
  apply Prog.Within.bind (.guard _ _)
  intro _
  apply Prog.Within.bind (K := Located w scope)
  · apply stays_insert
    · exact fun env => changeBy_addStockAdjustment rfl
    · exact fun env d h => ⟨h.1.same rfl rfl rfl rfl, h.2⟩
  · intro adjustment
    apply Prog.Within.bind (K := Located w scope)
    · apply stays_insert
      · exact fun env => changeBy_addStockMovements fun x hx => (List.mem_singleton.mp hx) ▸ rfl
      · exact fun env d h => ⟨h.1.same rfl rfl rfl rfl, h.2⟩
    · intro _
      apply stays_query_bind
      · intro d hd
        apply find?_ownedBy_congr
        · exact fun s _ hs => contains_owner hd hs
        · exact fun s _ _ => contains_only
      · intro d _
        exact .require _ _

end Stock

-- ============================================================================
-- The catalog
-- ============================================================================

section Catalog

open CatalogServices

theorem stays_insertRow {α : Type} {fits : Bool} {taken : Db → Bool} {index : UniqueIndex}
    {row : Env → α} {add : α → Catalog → Catalog}
    (htaken : ∀ d, taken (d.only w.outlet t) = taken d)
    (hadd : ∀ env, ChangeBy w t J (Db.modifyCatalog (add (row env)))) :
    Stays w t J (fun _ => True) (insertRow fits taken index row add) := by
  refine Prog.Within.stmt (Q := fun _ => True) (fun _ _ _ => rfl) ?_ ?_
  · intro v _ _ d hd
    exact ⟨(hadd v.env).own d hd, (hadd v.env).apart d hd, trivial⟩
  · intro v _ _
    have hcur : taken (v.map (Db.only w.outlet t)).cur = taken v.cur := htaken v.cur
    rw [hcur]
    split
    · exact .throw _
    · split
      · exact .throw _
      · exact .ret _ fun _ h => h

theorem stays_updateRow {α : Type} {tokens : List Token} {fits : Bool} {taken : Db → Bool}
    {index : UniqueIndex} {find : Db → Option α} {f : Env → α → α}
    {change : (α → α) → Catalog → Catalog} (htaken : ∀ d, taken (d.only w.outlet t) = taken d)
    (hfind : ∀ d, J d → find (d.only w.outlet t) = find d)
    (hchange : ∀ env, ChangeBy w t J (Db.modifyCatalog (change (f env)))) :
    Stays w t J (fun _ => True) (updateRow tokens fits taken index find f change) := by
  refine Prog.Within.stmt (Q := fun _ => True) (fun _ _ _ => rfl) ?_ ?_
  · intro v _ _ d hd
    exact ⟨(hchange v.env).own d hd, (hchange v.env).apart d hd, trivial⟩
  · intro v _ hc
    have hcur : find (v.map (Db.only w.outlet t)).cur = find v.cur := hfind v.cur hc
    have hindex : taken (v.map (Db.only w.outlet t)).cur = taken v.cur := htaken v.cur
    rw [hcur, hindex]
    split
    · exact .throw _
    · split
      · exact .throw _
      · split
        · exact .throw _
        · exact .ret _ fun _ h => h

theorem productIs_tenant {id : Id} {p : Product} (h : productIs t id p = true) :
    p.tenantId = t := by
  simp only [productIs, Bool.and_eq_true, beq_iff_eq] at h
  exact h.2

theorem assignmentIs_tenant {productId groupId : Id} {a : ProductModifierGroup}
    (h : assignmentIs t productId groupId a = true) : a.tenantId = t := by
  simp only [assignmentIs, Bool.and_eq_true, beq_iff_eq] at h
  exact h.1.1

theorem groupIs_tenant {id : Id} {g : ModifierGroup} (h : groupIs t id g = true) :
    g.tenantId = t := by
  simp only [groupIs, Bool.and_eq_true, beq_iff_eq] at h
  exact h.2

theorem stays_validateProductOwnership {productId : Id} :
    Stays w t J J (validateProductOwnership t productId) := by
  unfold validateProductOwnership
  apply Prog.Within.bind (stays_query fun d => find?_ownedBy fun p _ hp => productIs_tenant hp)
  intro product
  exact .guard _ _

theorem stays_validateGroupOwnership {groupId : Id} :
    Stays w t J J (validateGroupOwnership t groupId) := by
  unfold validateGroupOwnership
  apply Prog.Within.bind (stays_query fun d => find?_ownedBy fun g _ hg => groupIs_tenant hg)
  intro group
  exact .guard _ _

theorem stays_validateActiveGroup {groupId : Id} :
    Stays w t J J (validateActiveGroup t groupId) := by
  unfold validateActiveGroup
  apply Prog.Within.bind (stays_query fun d => ?_)
  · intro group
    exact .guard _ _
  · apply find?_ownedBy
    intro g _ hg
    simp only [Bool.and_eq_true, beq_iff_eq] at hg
    exact hg.1.1

theorem stays_validateAssignment {productId groupId : Id} :
    Stays w t J J (validateAssignment t productId groupId) := by
  unfold validateAssignment
  apply Prog.Within.bind (stays_query fun d => find?_ownedBy fun a _ ha => assignmentIs_tenant ha)
  intro assignment
  exact .guard _ _

theorem stays_validateCategory {categoryId : Option String} :
    Stays w t J J (validateCategory t categoryId) := by
  unfold validateCategory
  cases categoryId with
  | none => exact .ret _ fun _ h => h
  | some categoryId =>
      apply Prog.Within.bind (stays_query fun d => ?_)
      · intro category
        exact .guard _ _
      · apply find?_ownedBy
        intro c _ hc
        simp only [Bool.and_eq_true, beq_iff_eq] at hc
        exact hc.2

theorem stays_createProduct {dto : CreateProductDto} :
    Stays w t J (fun _ => True) (createProduct t dto) := by
  unfold createProduct
  apply Prog.Within.bind stays_validateCategory
  intro _
  split
  · apply stays_insertRow
    · intro d
      apply any_ownedBy
      intro p _ hp
      simp only [Bool.and_eq_true, beq_iff_eq] at hp
      exact hp.1
    · intro env
      apply changeBy_modifyCatalog
      · intro d _
        simp only [Catalog.only]
        rw [ownedBy_add_row]
        rfl
      · intro d _ a ha
        simp only [Catalog.only]
        rw [ownedBy_add_row_other (t := t) rfl ha]
  · exact .throw _

theorem stays_updateProduct {id : Id} {dto : UpdateProductDto} :
    Stays w t J (fun _ => True) (updateProduct t id dto) := by
  unfold updateProduct
  apply Prog.Within.bind stays_validateProductOwnership
  intro _
  apply Prog.Within.bind stays_validateCategory
  intro _
  apply Prog.Within.bind (.guard _ _)
  intro _
  split
  · rename_i h
    apply stays_updateRow
    · intro d
      congr 1
      funext sku
      apply any_ownedBy
      intro p _ hp
      simp only [Bool.and_eq_true, beq_iff_eq] at hp
      exact hp.1.1
    · exact fun d _ => find?_ownedBy fun p _ hp => productIs_tenant hp
    · intro env
      apply changeBy_modifyCatalog
      · intro d _
        simp only [Catalog.only]
        rw [changed_own]
        exact fun p => rfl
      · intro d _ a ha
        simp only [Catalog.only]
        rw [changed_apart (t := t) _ (fun p _ hp => productIs_tenant hp) ha]
        exact fun p => rfl
  · exact .throw _

theorem activeAssignments_only {productId : Id} {d : Db} :
    activeAssignments t productId (d.only w.outlet t) = activeAssignments t productId d := by
  have hgroups : ∀ a : ProductModifierGroup,
      ((d.only w.outlet t).catalog.modifierGroups.any fun g =>
        g.tenantId == t && g.id == a.modifierGroupId && g.isActive) =
      d.catalog.modifierGroups.any fun g =>
        g.tenantId == t && g.id == a.modifierGroupId && g.isActive := by
    intro a
    apply any_ownedBy
    intro g _ hg
    simp only [Bool.and_eq_true, beq_iff_eq] at hg
    exact hg.1.1
  unfold activeAssignments
  simp only [hgroups]
  congr 1
  apply filter_ownedBy
  intro a _ ha
  simp only [Bool.and_eq_true, beq_iff_eq] at ha
  exact ha.1.1

/-- The groups of a product are those of its tenant. -/
theorem stays_getModifierGroups {productId : Id} :
    Stays w t J (fun _ => True) (getModifierGroups t productId) := by
  unfold getModifierGroups
  apply Prog.Within.bind stays_validateProductOwnership
  intro _
  apply Prog.Within.bind (K := fun _ => True)
  · exact (stays_query fun d => activeAssignments_only).mono fun _ _ => trivial
  intro assignments
  apply Prog.Within.bind (stays_query fun d => ?_)
  · intro groups
    apply Prog.Within.bind (stays_query fun d => ?_)
    · intro options
      exact .lift _
    · show inDisplayOrder _ _ (List.filter _ _) = inDisplayOrder _ _ (List.filter _ _)
      congr 1
      apply filter_ownedBy
      intro o _ ho
      simp only [Bool.and_eq_true, beq_iff_eq] at ho
      exact ho.1.1
  · apply filter_ownedBy
    intro g _ hg
    simp only [Bool.and_eq_true, beq_iff_eq] at hg
    exact hg.1

/-- An INSERT of assignments of the tenant. -/
theorem stays_insertAssignments {α : Type} {productId : Id} {dtos : List AssignmentDto}
    {answer : Env → α} :
    Stays w t J (fun _ => True) (insertAssignments t productId dtos answer) := by
  have htaken : ∀ d : Db, ((d.only w.outlet t).catalog.productModifierGroups.any fun a =>
        (dtos.map fun dto => Token.assignment t productId
          (Js.toLowerCase dto.modifierGroupId)).contains (assignmentToken a)) =
      d.catalog.productModifierGroups.any fun a =>
        (dtos.map fun dto => Token.assignment t productId
          (Js.toLowerCase dto.modifierGroupId)).contains (assignmentToken a) := by
    intro d
    apply any_ownedBy
    intro a _ ha
    rw [List.contains_iff_mem, List.mem_map] at ha
    obtain ⟨dto, -, htoken⟩ := ha
    exact (Token.assignment.inj htoken).1.symm
  have hrows : ∀ env, ∀ a ∈ assignmentRows t productId dtos env, a.tenantId = t := by
    intro env a ha
    obtain ⟨x, -, rfl⟩ := List.mem_map.mp ha
    rfl
  unfold insertAssignments
  refine Prog.Within.stmt (Q := fun _ => True) (fun _ _ _ => rfl) ?_ ?_
  · intro v _ _ d _
    refine ⟨?_, fun a ha => ?_, trivial⟩
    · exact congrArg (fun rows => { d.only w.outlet t with
        catalog := { d.catalog.only t with productModifierGroups := rows } })
        (ownedBy_add (hrows v.env))
    · exact congrArg (fun rows => { d.only w.outlet a with
        catalog := { d.catalog.only a with productModifierGroups := rows } })
        (ownedBy_add_other (hrows v.env) ha)
  · intro v _ _
    have hcur := htaken v.cur
    dsimp only [View.map]
    simp only [hcur]
    split
    · exact .throw _
    · split
      · exact .throw _
      · exact .ret _ fun _ h => h

/-- A DELETE of assignments of the tenant. -/
theorem stays_deleteAssignments {marks : List Token} {p : ProductModifierGroup → Bool}
    (hp : ∀ a, p a = true → a.tenantId = t) :
    Stays w t J (fun _ => True) (deleteAssignments marks p) := by
  unfold deleteAssignments
  refine Prog.Within.stmt (Q := J) (fun _ _ _ => rfl) (fun v _ _ d hd => ?_) fun v _ _ => ?_
  · exact ⟨rfl, Apart.refl w t d, hd⟩
  have hfound : (v.map (Db.only w.outlet t)).snap.catalog.productModifierGroups.filter p =
      v.snap.catalog.productModifierGroups.filter p := filter_ownedBy fun a _ ha => hp a ha
  show Prog.Within _ _ _ _ (Prog.stmt _ _ _) (Prog.stmt _ _ _)
  rw [hfound]
  refine Prog.Within.stmt (Q := fun _ => True) (fun _ _ _ => rfl) ?_ ?_
  · intro v' _ _ d _
    refine ⟨?_, fun a ha => ?_, trivial⟩
    · exact congrArg (fun rows => { d.only w.outlet t with
        catalog := { d.catalog.only t with productModifierGroups := rows } })
        (ownedBy_filter _)
    · have hkeep : (ownedBy ProductModifierGroup.tenantId a d.catalog.productModifierGroups).filter
          (fun x => !(p x && (v.snap.catalog.productModifierGroups.filter p).any
            fun y => y.tuple == x.tuple)) =
          ownedBy ProductModifierGroup.tenantId a d.catalog.productModifierGroups := by
        apply List.filter_eq_self.mpr
        intro x hx
        have howner := (mem_ownedBy.mp hx).2
        cases hpx : p x with
        | false => rfl
        | true => exact absurd (howner.symm.trans (hp x hpx)) ha
      exact congrArg (fun rows => { d.only w.outlet a with
        catalog := { d.catalog.only a with productModifierGroups := rows } })
        ((ownedBy_filter _).trans hkeep)
  · intro v' _ _
    have hgone : (v'.map (Db.only w.outlet t)).cur.catalog.productModifierGroups.filter
        (fun a => p a && (v.snap.catalog.productModifierGroups.filter p).any
          fun x => x.tuple == a.tuple) =
        v'.cur.catalog.productModifierGroups.filter
          (fun a => p a && (v.snap.catalog.productModifierGroups.filter p).any
            fun x => x.tuple == a.tuple) :=
      filter_ownedBy fun a _ ha => hp a (Bool.and_eq_true_iff.mp ha).1
    rw [hgone]
    exact .ret _ fun _ h => h

/-- The assignments of a product are deleted, and those of the request are inserted. -/
theorem stays_replaceAll {productId : Id} {dtos : List AssignmentDto} :
    Stays w t J (fun _ => True) (do
      let _ ← deleteAssignments [.replacing t productId]
        fun a => a.tenantId == t && a.productId == productId
      if dtos.length > 0 then insertAssignments t productId dtos fun _ => () else pure ()) := by
  apply Prog.Within.bind (stays_deleteAssignments fun a ha => ?_)
  · intro _
    split
    · exact stays_insertAssignments
    · exact .ret _ fun _ h => h
  · simp only [Bool.and_eq_true, beq_iff_eq] at ha
    exact ha.1

theorem stays_replaceModifierGroups {productId : Id} {dto : ReplaceProductModifierGroupsDto} :
    Stays w t J (fun _ => True) (replaceModifierGroups t productId dto) := by
  unfold replaceModifierGroups
  apply Prog.Within.bind stays_validateProductOwnership
  intro _
  apply Prog.Within.bind (.lift _)
  intro _
  dsimp only
  split
  · apply Prog.Within.bind (stays_query fun d => ?_)
    · intro owned
      apply Prog.Within.bind (.guard _ _)
      intro _
      exact stays_replaceAll
    · apply filter_ownedBy
      intro g _ hg
      simp only [Bool.and_eq_true, beq_iff_eq] at hg
      exact hg.1.1
  · exact stays_replaceAll

theorem stays_assignModifierGroup {productId : Id} {dto : AssignmentDto} :
    Stays w t J (fun _ => True) (assignModifierGroup t productId dto) := by
  unfold assignModifierGroup
  apply Prog.Within.bind stays_validateProductOwnership
  intro _
  apply Prog.Within.bind (.lift _)
  intro _
  apply Prog.Within.bind stays_validateActiveGroup
  intro _
  exact stays_insertAssignments

/-- The assignment is changed in place, with its tenant. -/
theorem stays_changeAssignment {productId groupId : Id} {dto : AssignmentDto} :
    Stays w t J (fun _ => True) (changeAssignment t productId groupId dto) := by
  unfold changeAssignment
  apply Prog.Within.answer
  apply stays_updateRow
  · intro d
    congr 1
    exact any_ownedBy fun a _ ha => assignmentIs_tenant ha
  · exact fun d _ => find?_ownedBy fun a _ ha => assignmentIs_tenant ha
  · intro env
    apply changeBy_modifyCatalog
    · intro d _
      simp only [Catalog.only]
      rw [changed_own]
      exact fun a => rfl
    · intro d _ a ha
      simp only [Catalog.only]
      rw [changed_apart (t := t) _ (fun a _ ha => assignmentIs_tenant ha) ha]
      exact fun a => rfl

theorem stays_updateModifierGroupAssignment {productId : Id} {groupId : String}
    {dto : AssignmentDto} :
    Stays w t J (fun _ => True) (updateModifierGroupAssignment t productId groupId dto) := by
  unfold updateModifierGroupAssignment
  apply Prog.Within.bind stays_validateProductOwnership
  intro _
  apply Prog.Within.bind (.lift _)
  intro _
  apply Prog.Within.bind stays_validateAssignment
  intro _
  apply Prog.Within.bind stays_validateActiveGroup
  intro _
  split
  · apply Prog.Within.bind
      (stays_query fun d => find?_ownedBy fun a _ ha => assignmentIs_tenant ha)
    intro existing
    apply Prog.Within.bind (.guard _ _)
    intro _
    exact stays_changeAssignment
  · exact stays_changeAssignment

theorem stays_removeModifierGroup {productId groupId : Id} :
    Stays w t J (fun _ => True) (removeModifierGroup t productId groupId) := by
  unfold removeModifierGroup
  apply Prog.Within.bind stays_validateProductOwnership
  intro _
  apply Prog.Within.bind stays_validateAssignment
  intro _
  apply Prog.Within.bind (stays_deleteAssignments fun a ha => assignmentIs_tenant ha)
  intro deleted
  exact .require _ _

/-- The options of a group in an answer. -/
theorem stays_withOptions {group : ModifierGroup} : Stays w t J J (withOptions t group) := by
  unfold withOptions
  apply Prog.Within.answer
  apply stays_queryRanked
  intro rank d
  refine congrArg _ (filter_ownedBy fun o _ ho => ?_)
  simp only [Bool.and_eq_true, beq_iff_eq] at ho
  exact ho.1

theorem stays_createGroup {dto : CreateModifierGroupDto} :
    Stays w t J (fun _ => True) (createGroup t dto) := by
  unfold createGroup
  refine Prog.Within.bind (K := fun _ => True) ?_ fun group => stays_withOptions
  apply stays_insertRow
  · intro d
    apply any_ownedBy
    intro g _ hg
    simp only [Bool.and_eq_true, beq_iff_eq] at hg
    exact hg.1
  · intro env
    apply changeBy_modifyCatalog
    · intro d _
      simp only [Catalog.only]
      rw [ownedBy_add_row]
      rfl
    · intro d _ a ha
      simp only [Catalog.only]
      rw [ownedBy_add_row_other (t := t) rfl ha]

theorem stays_changeGroup {id : Id} {fits : Bool} {taken : Db → Bool}
    {f : Env → ModifierGroup → ModifierGroup} (htaken : ∀ d, taken (d.only w.outlet t) = taken d)
    (hf : ∀ env g, (f env g).tenantId = g.tenantId) :
    Stays w t J (fun _ => True) (changeGroup t id fits taken f) := by
  unfold changeGroup
  apply Prog.Within.bind stays_validateGroupOwnership
  intro _
  refine Prog.Within.bind (K := fun _ => True) ?_ fun group => stays_withOptions
  apply stays_updateRow htaken
  · exact fun d _ => find?_ownedBy fun g _ hg => groupIs_tenant hg
  · intro env
    apply changeBy_modifyCatalog
    · intro d _
      simp only [Catalog.only]
      rw [changed_own (hf env)]
    · intro d _ a ha
      simp only [Catalog.only]
      rw [changed_apart (hf env) (fun g _ hg => groupIs_tenant hg) ha]

/-- Names are looked for among the tenant's groups. -/
theorem stays_updateGroup {id : Id} {dto : UpdateModifierGroupDto} :
    Stays w t J (fun _ => True) (updateGroup t id dto) := by
  unfold updateGroup
  refine stays_changeGroup (fun d => ?_) fun env g => rfl
  congr 1
  funext name
  apply any_ownedBy
  intro g _ hg
  simp only [Bool.and_eq_true, beq_iff_eq] at hg
  exact hg.1.1

theorem stays_removeGroup {id : Id} : Stays w t J (fun _ => True) (removeGroup t id) :=
  stays_changeGroup (fun _ => rfl) fun _ _ => rfl

theorem stays_createOption {groupId : Id} {dto : CreateModifierOptionDto} :
    Stays w t J (fun _ => True) (createOption t groupId dto) := by
  unfold createOption
  apply Prog.Within.bind stays_validateGroupOwnership
  intro _
  split
  · apply stays_insertRow
    · intro d
      apply any_ownedBy
      intro o _ ho
      simp only [Bool.and_eq_true, beq_iff_eq] at ho
      exact ho.1.1
    · intro env
      apply changeBy_modifyCatalog
      · intro d _
        simp only [Catalog.only]
        rw [ownedBy_add_row]
        rfl
      · intro d _ a ha
        simp only [Catalog.only]
        rw [ownedBy_add_row_other (t := t) rfl ha]
  · exact .throw _

/-- An option is updated by its identifier alone, after it was found with the tenant. -/
theorem stays_changeOption {groupId optionId : Id} {fits : Bool} {taken : Db → Bool}
    {f : Env → ModifierOption → ModifierOption}
    (htaken : ∀ d, taken (d.only w.outlet t) = taken d)
    (hf : ∀ env o, (f env o).tenantId = o.tenantId) :
    Stays w t (Owned w) (fun _ => True) (changeOption t groupId optionId fits taken f) := by
  unfold changeOption
  apply stays_query_bind
  · intro d _
    apply find?_ownedBy
    intro o _ ho
    simp only [Bool.and_eq_true, beq_iff_eq] at ho
    exact ho.2
  · intro d hd
    apply Prog.Within.guard_bind
    intro hsome
    obtain ⟨x, hx⟩ := Option.isSome_iff_exists.mp hsome
    have hkey := List.find?_some hx
    simp only [Bool.and_eq_true, beq_iff_eq] at hkey
    have hoption : w.option optionId = t := by
      rw [← hkey.1.1, hd.options x (List.mem_of_find?_eq_some hx), hkey.2]
    have howner : ∀ d, Owned w d → ∀ o ∈ d.catalog.modifierOptions, (o.id == optionId) = true →
        o.tenantId = t := by
      intro d hd o ho hid
      rw [← hd.options o ho, beq_iff_eq.mp hid, hoption]
    apply stays_updateRow htaken
    · exact fun d hd => find?_ownedBy (howner d hd)
    · intro env
      apply changeBy_modifyCatalog
      · intro d _
        simp only [Catalog.only]
        rw [changed_own (hf env)]
      · intro d hd a ha
        simp only [Catalog.only]
        rw [changed_apart (hf env) (howner d hd) ha]

/-- Names are looked for among the tenant's options. -/
theorem stays_updateOption {groupId optionId : Id} {dto : UpdateModifierOptionDto} :
    Stays w t (Owned w) (fun _ => True) (updateOption t groupId optionId dto) := by
  unfold updateOption
  split
  · refine stays_changeOption (fun d => ?_) fun env o => rfl
    congr 1
    funext name
    apply any_ownedBy
    intro o _ ho
    simp only [Bool.and_eq_true, beq_iff_eq] at ho
    exact ho.1.1.1
  · exact .throw _

theorem stays_removeOption {groupId optionId : Id} :
    Stays w t (Owned w) (fun _ => True) (removeOption t groupId optionId) :=
  stays_changeOption (fun _ => rfl) fun _ _ => rfl

/-- Every operation on the catalog. -/
theorem stays_catalogBody {op : CatalogOp} :
    Stays w user.normalized.tenantId (Owned w) (fun _ => True) (catalogBody user op) := by
  cases op with
  | createProduct dto => exact stays_createProduct.answer CatalogAnswer.product
  | updateProduct id dto => exact stays_updateProduct.answer CatalogAnswer.product
  | getModifierGroups productId =>
      exact stays_getModifierGroups.answer (CatalogAnswer.modifierGroups productId)
  | replaceModifierGroups productId dto =>
      exact stays_replaceModifierGroups.answer fun _ => CatalogAnswer.replaced
  | assignModifierGroup productId dto =>
      exact stays_assignModifierGroup.answer CatalogAnswer.assignment
  | updateModifierGroupAssignment productId groupId dto =>
      exact stays_updateModifierGroupAssignment.answer CatalogAnswer.assignment
  | removeModifierGroup productId groupId =>
      exact stays_removeModifierGroup.answer CatalogAnswer.assignment
  | createGroup dto => exact stays_createGroup.answer CatalogAnswer.group
  | updateGroup id dto => exact stays_updateGroup.answer CatalogAnswer.group
  | removeGroup id => exact stays_removeGroup.answer CatalogAnswer.group
  | createOption groupId dto => exact stays_createOption.answer CatalogAnswer.option
  | updateOption groupId optionId dto => exact stays_updateOption.answer CatalogAnswer.option
  | removeOption groupId optionId => exact stays_removeOption.answer CatalogAnswer.option

end Catalog

end Kasir
