/-
  Kasir.StockOrderBodies

  Every transaction of the backend asks for the locks of stock rows in turn.

  Conversions read the lines of their sale from the database; shifts, the catalog
  and the other operations on held orders take no such lock at all.
-/

import Kasir.StockOrder

namespace Kasir

open Txn Transactions HeldOrders

-- ============================================================================
-- Authorization
-- ============================================================================

section HeldOrders

variable {G : Db → Prop}

theorem noStock_principal (user : JwtPayload) : NoStock G (principal user) fun _ => True :=
  noStock_find _ _

theorem noStock_findOutlet (tenantId outletId : Id) :
    NoStock G (findOutlet tenantId outletId) fun _ => True :=
  noStock_check _ _ _

theorem noStock_readScope (user : JwtPayload) : NoStock G (HeldOrders.readScope user) fun _ => True := by
  unfold HeldOrders.readScope
  refine Prog.calm_bind (noStock_principal user) fun principal _ => ?_
  cases principal.role with
  | owner => trivial
  | admin => trivial
  | cashier =>
      refine Prog.calm_bind (Prog.calm_require _ _) fun outletId _ => ?_
      exact Prog.calm_bind (noStock_findOutlet _ _) fun _ _ => trivial

theorem noStock_authorizeWrite (user : JwtPayload) (outletId sessionId : Id) :
    NoStock G (authorizeWrite user outletId sessionId) fun _ => True := by
  unfold authorizeWrite
  refine Prog.calm_bind (noStock_principal user) fun principal _ => ?_
  refine Prog.calm_bind (Prog.calm_guard _ _) fun _ _ => ?_
  refine Prog.calm_bind (noStock_find _ _) fun tenant _ => ?_
  refine Prog.calm_bind (noStock_findOutlet _ _) fun _ _ => ?_
  refine Prog.calm_bind (noStock_selectSessionForUpdate _ _) fun _ _ => ?_
  refine Prog.calm_bind (noStock_query _) fun session _ => ?_
  refine Prog.calm_bind (Prog.calm_require _ _) fun session _ => ?_
  exact Prog.calm_bind (Prog.calm_guard _ _) fun _ _ => trivial

-- ============================================================================
-- Lines of held orders
-- ============================================================================

theorem noStock_resolveItems (tenantId : Id) (items : List CreateTransactionItemDto) :
    NoStock G (resolveItems tenantId items) fun _ => True := by
  unfold resolveItems
  refine Prog.calm_bind (noStock_query _) fun products _ => ?_
  refine Prog.calm_bind (Prog.calm_guard _ _) fun _ _ => ?_
  refine Prog.calm_bind (noStock_query _) fun assignments _ => ?_
  dsimp only
  split
  · refine Prog.calm_bind (noStock_query _) fun options _ => ?_
    exact Prog.calm_mono (Prog.calm_lift _) fun _ _ => trivial
  · exact Prog.calm_mono (Prog.calm_lift _) fun _ _ => trivial

theorem noStock_persistItems (tenantId heldOrderId : Id) (items : List ResolvedItem) :
    NoStock (fun _ => True) (persistItems tenantId heldOrderId items) fun _ => True := by
  have hitem : ∀ x, NoStock (fun _ => True) (persistItem tenantId heldOrderId x) fun _ => True := by
    intro x
    unfold persistItem
    refine Prog.calm_bind (Prog.calm_guard _ _) fun _ _ => ?_
    refine Prog.calm_bind (noStock_insert fun _ _ _ => trivial) fun row _ => ?_
    exact noStock_createMany fun _ _ _ => trivial
  exact Prog.calm_bind (Prog.calm_each hitem _) fun _ _ => trivial

theorem noStock_findRecord (tenantId orderId : Id) (e : Exc) :
    NoStock G (findRecord tenantId orderId e) fun _ => True :=
  Prog.calm_bind (noStock_queryRanked _) fun record _ =>
    Prog.calm_mono (Prog.calm_require record e) fun _ _ => trivial

/-- The order in the actor's scope, as a state had it. -/
theorem noStock_findInScope (scope : Scope) (orderId : Id) :
    NoStock G (findInScope scope orderId) fun record =>
      ∃ db rank, G db ∧ ∃ o ∈ db.held.heldOrders, record = heldRecordOf db rank o := by
  unfold findInScope
  refine Prog.calm_bind (noStock_queryRanked _) fun record hrecord => ?_
  obtain ⟨db, rank, hdb, rfl⟩ := hrecord
  refine Prog.calm_mono (Prog.calm_require _ _) fun record hrecord => ?_
  obtain ⟨o, ho, rfl⟩ := Option.map_eq_some_iff.mp hrecord
  exact ⟨db, rank, hdb, o, List.mem_of_find?_eq_some ho, rfl⟩

theorem noStock_swapOrder {tenantId orderId : Id} {version : Int} {f : Env → HeldOrder → HeldOrder}
    {fits : HeldOrder → Bool} {e : Exc}
    (hchange : ∀ hit env d, G d → G (heldOrders.change hit (f env) d)) :
    NoStock G (swapOrder tenantId orderId version f fits e) fun _ => True := by
  unfold swapOrder
  refine Prog.calm_bind (noStock_updateMany (fun _ => rfl) (fun _ _ hl => (nomatch hl)) hchange)
    fun n _ => ?_
  exact Prog.calm_mono (Prog.calm_guard _ _) fun _ _ => trivial

-- ============================================================================
-- Create, update and cancel
-- ============================================================================

/-- What a body leaves alone that may be called on any database. -/
abbrev anyDb : Db → Prop := fun _ => True

theorem noStock_createBody (user : JwtPayload) (input : CreateHeldOrderDto) :
    NoStock anyDb (HeldOrders.createBody user input) fun _ => True := by
  unfold HeldOrders.createBody
  refine Prog.calm_bind (Prog.calm_lift _) fun x _ => ?_
  obtain ⟨actor, dto⟩ := x
  refine Prog.calm_bind (noStock_authorizeWrite _ _ _) fun y _ => ?_
  obtain ⟨tenant, principal⟩ := y
  refine Prog.calm_bind (noStock_resolveItems _ _) fun resolved _ => ?_
  refine Prog.calm_bind (Prog.calm_lift _) fun estimates _ => ?_
  refine Prog.calm_bind (Prog.calm_guard _ _) fun _ _ => ?_
  refine Prog.calm_bind (noStock_insert fun _ _ _ => trivial) fun order _ => ?_
  refine Prog.calm_bind (noStock_persistItems _ _ _) fun _ _ => ?_
  exact Prog.calm_bind (noStock_findRecord _ _ _) fun created _ => trivial

theorem noStock_repriceIf (tenantId : Id) (items : Option (List CreateTransactionItemDto)) :
    NoStock G (repriceIf tenantId items) fun _ => True := by
  cases items with
  | none => trivial
  | some items =>
      refine Prog.calm_bind (Q := fun _ => True) ?_ fun _ _ => trivial
      unfold reprice
      refine Prog.calm_bind (noStock_find _ _) fun tenant _ => ?_
      refine Prog.calm_bind (noStock_resolveItems _ _) fun resolved _ => ?_
      exact Prog.calm_bind (Prog.calm_lift _) fun estimates _ => trivial

theorem noStock_replaceItems (tenantId orderId : Id) (resolved : Option (List ResolvedItem)) :
    NoStock anyDb (replaceItems tenantId orderId resolved) fun _ => True := by
  cases resolved with
  | none => trivial
  | some resolved =>
      have hdelete : NoStock anyDb (deleteItems tenantId orderId) fun _ => True :=
        Prog.calm_write fun _ _ _ _ => trivial
      exact Prog.calm_bind hdelete fun _ _ => noStock_persistItems _ _ _

theorem noStock_updateBody (user : JwtPayload) (id : String) (input : UpdateHeldOrderDto) :
    NoStock anyDb (updateBody user id input) fun _ => True := by
  unfold updateBody
  refine Prog.calm_bind (Prog.calm_lift _) fun x _ => ?_
  obtain ⟨actor, orderId, dto⟩ := x
  refine Prog.calm_bind (noStock_readScope _) fun scope _ => ?_
  refine Prog.calm_bind (noStock_findInScope _ _) fun current _ => ?_
  refine Prog.calm_bind (Prog.calm_lift _) fun _ _ => ?_
  refine Prog.calm_bind (noStock_repriceIf _ _) fun repriced _ => ?_
  refine Prog.calm_bind (noStock_swapOrder fun _ _ _ _ => trivial) fun _ _ => ?_
  refine Prog.calm_bind (noStock_replaceItems _ _ _) fun _ _ => ?_
  exact Prog.calm_bind (noStock_findRecord _ _ _) fun result _ => trivial

theorem noStock_cancelBody (user : JwtPayload) (id : String) (input : CancelHeldOrderDto) :
    NoStock anyDb (cancelBody user id input) fun _ => True := by
  unfold cancelBody
  refine Prog.calm_bind (Prog.calm_lift _) fun x _ => ?_
  obtain ⟨actor, orderId⟩ := x
  refine Prog.calm_bind (noStock_readScope _) fun scope _ => ?_
  refine Prog.calm_bind (noStock_findInScope _ _) fun current _ => ?_
  refine Prog.calm_bind (Prog.calm_lift _) fun _ _ => ?_
  refine Prog.calm_bind (noStock_swapOrder fun _ _ _ _ => trivial) fun _ _ => ?_
  exact Prog.calm_bind (noStock_findRecord _ _ _) fun result _ => trivial

end HeldOrders

-- ============================================================================
-- Shifts
-- ============================================================================

section Shifts

theorem noStock_actorContext (user : JwtPayload) :
    NoStock anyDb (Shifts.actorContext user) fun _ => True := by
  unfold Shifts.actorContext
  refine Prog.calm_bind (Prog.calm_guard _ _) fun _ _ => ?_
  exact Prog.calm_bind (noStock_principal _) fun actor _ => trivial

theorem noStock_deriveSummary (tenantId : Id) (shift : Shifts.ShiftRecord) :
    NoStock anyDb (Shifts.deriveSummary tenantId shift) fun _ => True := by
  unfold Shifts.deriveSummary
  refine Prog.calm_bind (noStock_query _) fun aggregate _ => ?_
  refine Prog.calm_bind (noStock_queryNow _) fun sales _ => ?_
  exact Prog.calm_bind (Prog.calm_lift _) fun _ _ => trivial

theorem noStock_openBody (user : JwtPayload) (outletId : String) :
    NoStock anyDb (Shifts.openBody user outletId) fun _ => True := by
  unfold Shifts.openBody
  refine Prog.calm_bind (Prog.calm_lift _) fun outletId _ => ?_
  refine Prog.calm_bind (noStock_actorContext _) fun actor _ => ?_
  refine Prog.calm_bind (Prog.calm_guard _ _) fun _ _ => ?_
  refine Prog.calm_bind (noStock_findOutlet _ _) fun _ _ => ?_
  refine Prog.calm_bind (noStock_query _) fun activeShift _ => ?_
  refine Prog.calm_bind (Prog.calm_guard _ _) fun _ _ => ?_
  refine Prog.calm_bind (noStock_insertUnique rfl (fun env l hl => ?_) fun _ _ _ => trivial)
    fun shift _ => ?_
  · rw [List.mem_singleton.mp hl]
    rfl
  · exact Prog.calm_mono (Prog.calm_lift _) fun _ _ => trivial

theorem noStock_findShift (tenantId shiftId : Id) (e : Exc) :
    NoStock anyDb (Shifts.findShift tenantId shiftId e) fun _ => True :=
  noStock_find _ _

theorem noStock_closeBody (user : JwtPayload) (id : String) :
    NoStock anyDb (Shifts.closeBody user id) fun _ => True := by
  unfold Shifts.closeBody
  refine Prog.calm_bind (Prog.calm_lift _) fun shiftId _ => ?_
  refine Prog.calm_bind (noStock_actorContext _) fun actor _ => ?_
  refine Prog.calm_bind (noStock_findShift _ _ _) fun shift _ => ?_
  refine Prog.calm_bind (Prog.calm_guard _ _) fun _ _ => ?_
  refine Prog.calm_bind (Prog.calm_guard _ _) fun _ _ => ?_
  refine Prog.calm_bind (noStock_selectSessionForUpdate _ _) fun _ _ => ?_
  refine Prog.calm_bind (noStock_query _) fun openHeldOrders _ => ?_
  refine Prog.calm_bind (Prog.calm_guard _ _) fun _ _ => ?_
  refine Prog.calm_bind (noStock_deriveSummary _ _) fun _ _ => ?_
  have hclose : NoStock anyDb (Shifts.closeSession actor.tenantId shift.id) fun _ => True := by
    unfold Shifts.closeSession
    refine Prog.calm_bind (noStock_updateMany (fun _ => rfl) (fun r l hl => ?_)
      fun _ _ _ _ => trivial) fun n _ => Prog.calm_mono (Prog.calm_guard _ _) fun _ _ => trivial
    rw [List.mem_singleton.mp hl]
    rfl
  refine Prog.calm_bind hclose fun _ _ => ?_
  refine Prog.calm_bind (noStock_findShift _ _ _) fun closedShift _ => ?_
  exact Prog.calm_mono (Prog.calm_lift _) fun _ _ => trivial

theorem noStock_summaryBody (user : JwtPayload) (id : String) :
    NoStock anyDb (Shifts.summaryBody user id) fun _ => True := by
  unfold Shifts.summaryBody
  refine Prog.calm_bind (Prog.calm_lift _) fun shiftId _ => ?_
  refine Prog.calm_bind (noStock_actorContext _) fun actor _ => ?_
  refine Prog.calm_bind (noStock_findShift _ _ _) fun shift _ => ?_
  refine Prog.calm_bind (Prog.calm_guard _ _) fun _ _ => ?_
  exact noStock_deriveSummary _ _

end Shifts

-- ============================================================================
-- The catalog
-- ============================================================================

section Catalog

open CatalogServices

theorem noStock_insertRow {α : Type} (fits : Bool) (taken : Db → Bool) (index : UniqueIndex)
    (row : Env → α) (add : α → Catalog → Catalog) :
    NoStock anyDb (insertRow fits taken index row add) fun _ => True := by
  intro v _ _
  refine ⟨fun _ hl => (nomatch hl), fun _ _ => trivial, ?_⟩
  dsimp only
  split
  · trivial
  · split <;> trivial

theorem noStock_updateRow {α : Type} {tokens : List Token}
    (htokens : ∀ l ∈ tokens, l.isStock = false) (fits : Bool) (taken : Db → Bool)
    (index : UniqueIndex) (find : Db → Option α) (f : Env → α → α)
    (change : (α → α) → Catalog → Catalog) :
    NoStock anyDb (updateRow tokens fits taken index find f change) fun _ => True := by
  intro v _ _
  refine ⟨htokens, fun _ _ => trivial, ?_⟩
  dsimp only
  split
  · trivial
  · split
    · trivial
    · split <;> trivial

theorem noStock_insertAssignments {α : Type} (tenantId productId : Id)
    (dtos : List AssignmentDto) (answer : Env → α) :
    NoStock anyDb (insertAssignments tenantId productId dtos answer) fun _ => True := by
  intro v _ _
  refine ⟨fun l hl => ?_, fun _ _ => trivial, ?_⟩
  · rcases List.mem_cons.mp hl with rfl | hl
    · rfl
    · obtain ⟨dto, -, rfl⟩ := List.mem_map.mp hl
      rfl
  · dsimp only
    split
    · trivial
    · split <;> trivial

theorem noStock_deleteAssignments {marks : List Token} (hmarks : ∀ l ∈ marks, l.isStock = false)
    (p : ProductModifierGroup → Bool) :
    NoStock anyDb (deleteAssignments marks p) fun _ => True := by
  refine Prog.calm_bind (Q := fun _ => True) ?_ fun found _ => ?_
  · exact fun v _ _ => ⟨hmarks, fun _ _ => trivial, trivial⟩
  · intro v _ _
    refine ⟨fun l hl => ?_, fun _ _ => trivial, trivial⟩
    obtain ⟨a, -, rfl⟩ := List.mem_map.mp hl
    rfl

theorem noStock_replaceModifierGroups (tenantId productId : Id)
    (dto : ReplaceProductModifierGroupsDto) :
    NoStock anyDb (replaceModifierGroups tenantId productId dto) fun _ => True := by
  unfold replaceModifierGroups
  refine Prog.calm_bind (noStock_check _ _ _) fun _ _ => ?_
  refine Prog.calm_bind (Prog.calm_lift _) fun _ _ => ?_
  have hrest : NoStock anyDb (deleteAssignments [.replacing tenantId productId]
      (fun a => a.tenantId == tenantId && a.productId == productId) >>= fun _ =>
      if dto.modifierGroups.length > 0 then
        insertAssignments tenantId productId dto.modifierGroups fun _ => ()
      else pure ()) fun _ => True := by
    refine Prog.calm_bind (noStock_deleteAssignments (fun l hl => ?_) _) fun _ _ => ?_
    · rw [List.mem_singleton.mp hl]
      rfl
    · split
      · exact noStock_insertAssignments _ _ _ _
      · trivial
  dsimp only
  split
  · refine Prog.calm_bind (noStock_query _) fun owned _ => ?_
    exact Prog.calm_bind (Prog.calm_guard _ _) fun _ _ => hrest
  · exact hrest

theorem noStock_changeAssignment (tenantId productId groupId : Id) (dto : AssignmentDto) :
    NoStock anyDb (changeAssignment tenantId productId groupId dto) fun _ => True := by
  unfold changeAssignment
  refine Prog.calm_bind (noStock_updateRow (fun l hl => ?_) _ _ _ _ _ _) fun _ _ => trivial
  simp only [List.mem_cons, List.not_mem_nil, or_false] at hl
  rcases hl with rfl | rfl | rfl <;> rfl

theorem noStock_updateModifierGroupAssignment (tenantId productId : Id) (groupId : String)
    (dto : AssignmentDto) :
    NoStock anyDb (updateModifierGroupAssignment tenantId productId groupId dto)
      fun _ => True := by
  unfold updateModifierGroupAssignment
  refine Prog.calm_bind (noStock_check _ _ _) fun _ _ => ?_
  refine Prog.calm_bind (Prog.calm_lift _) fun _ _ => ?_
  refine Prog.calm_bind (noStock_check _ _ _) fun _ _ => ?_
  refine Prog.calm_bind (noStock_check _ _ _) fun _ _ => ?_
  split
  · refine Prog.calm_bind (noStock_query _) fun existing _ => ?_
    exact Prog.calm_bind (Prog.calm_guard _ _) fun _ _ => noStock_changeAssignment _ _ _ _
  · exact noStock_changeAssignment _ _ _ _

theorem noTokens : ∀ l ∈ ([] : List Token), l.isStock = false := fun _ hl => (nomatch hl)

theorem noStock_validateCategory (tenantId : Id) (categoryId : Option String) :
    NoStock anyDb (validateCategory tenantId categoryId) fun _ => True := by
  cases categoryId with
  | none => trivial
  | some categoryId => exact noStock_check _ _ _

theorem noStock_withOptions (tenantId : Id) (group : ModifierGroup) :
    NoStock anyDb (withOptions tenantId group) fun _ => True :=
  Prog.calm_bind (noStock_queryRanked _) fun _ _ => trivial

theorem noStock_changeGroup (tenantId id : Id) (fits : Bool) (taken : Db → Bool)
    (f : Env → ModifierGroup → ModifierGroup) :
    NoStock anyDb (changeGroup tenantId id fits taken f) fun _ => True := by
  unfold changeGroup
  refine Prog.calm_bind (noStock_check _ _ _) fun _ _ => ?_
  exact Prog.calm_bind (noStock_updateRow noTokens _ _ _ _ _ _) fun _ _ => noStock_withOptions _ _

theorem noStock_changeOption (tenantId groupId optionId : Id) (fits : Bool) (taken : Db → Bool)
    (f : Env → ModifierOption → ModifierOption) :
    NoStock anyDb (changeOption tenantId groupId optionId fits taken f) fun _ => True := by
  unfold changeOption
  refine Prog.calm_bind (noStock_query _) fun option _ => ?_
  refine Prog.calm_bind (Prog.calm_guard _ _) fun _ _ => ?_
  exact noStock_updateRow noTokens _ _ _ _ _ _

/-- What an operation answers is made of what it returns. -/
theorem noStock_answer {α : Type} {x : Body α} (mk : α → CatalogAnswer)
    (hx : NoStock anyDb x fun _ => True) :
    NoStock anyDb (x >>= fun a => Prog.ret (mk a)) fun _ => True :=
  Prog.calm_bind hx fun _ _ => trivial

theorem noStock_catalogBody (user : JwtPayload) (op : CatalogOp) :
    NoStock anyDb (catalogBody user op) fun _ => True := by
  unfold catalogBody
  cases op with
  | createProduct dto =>
      refine noStock_answer _ ?_
      unfold createProduct
      refine Prog.calm_bind (noStock_validateCategory _ _) fun _ _ => ?_
      split
      · exact noStock_insertRow _ _ _ _ _
      · trivial
  | updateProduct id dto =>
      refine noStock_answer _ ?_
      unfold updateProduct
      refine Prog.calm_bind (noStock_check _ _ _) fun _ _ => ?_
      refine Prog.calm_bind (noStock_validateCategory _ _) fun _ _ => ?_
      refine Prog.calm_bind (Prog.calm_guard _ _) fun _ _ => ?_
      split
      · exact noStock_updateRow noTokens _ _ _ _ _ _
      · trivial
  | getModifierGroups productId =>
      refine noStock_answer _ ?_
      unfold getModifierGroups
      refine Prog.calm_bind (noStock_check _ _ _) fun _ _ => ?_
      refine Prog.calm_bind (noStock_query _) fun assignments _ => ?_
      refine Prog.calm_bind (noStock_query _) fun groups _ => ?_
      refine Prog.calm_bind (noStock_query _) fun options _ => ?_
      exact Prog.calm_mono (Prog.calm_lift _) fun _ _ => trivial
  | replaceModifierGroups productId dto =>
      exact noStock_answer _ (noStock_replaceModifierGroups _ _ _)
  | assignModifierGroup productId dto =>
      refine noStock_answer _ ?_
      unfold assignModifierGroup
      refine Prog.calm_bind (noStock_check _ _ _) fun _ _ => ?_
      refine Prog.calm_bind (Prog.calm_lift _) fun _ _ => ?_
      refine Prog.calm_bind (noStock_check _ _ _) fun _ _ => ?_
      exact noStock_insertAssignments _ _ _ _
  | updateModifierGroupAssignment productId groupId dto =>
      exact noStock_answer _ (noStock_updateModifierGroupAssignment _ _ _ _)
  | removeModifierGroup productId groupId =>
      refine noStock_answer _ ?_
      unfold removeModifierGroup
      refine Prog.calm_bind (noStock_check _ _ _) fun _ _ => ?_
      refine Prog.calm_bind (noStock_check _ _ _) fun _ _ => ?_
      refine Prog.calm_bind (noStock_deleteAssignments noTokens _) fun deleted _ => ?_
      exact Prog.calm_mono (Prog.calm_require _ _) fun _ _ => trivial
  | createGroup dto =>
      refine noStock_answer _ ?_
      unfold createGroup
      exact Prog.calm_bind (noStock_insertRow _ _ _ _ _) fun _ _ => noStock_withOptions _ _
  | updateGroup id dto => exact noStock_answer _ (noStock_changeGroup _ _ _ _ _)
  | removeGroup id => exact noStock_answer _ (noStock_changeGroup _ _ _ _ _)
  | createOption groupId dto =>
      refine noStock_answer _ ?_
      unfold createOption
      refine Prog.calm_bind (noStock_check _ _ _) fun _ _ => ?_
      split
      · exact noStock_insertRow _ _ _ _ _
      · trivial
  | updateOption groupId optionId dto =>
      refine noStock_answer _ ?_
      unfold updateOption
      split
      · exact noStock_changeOption _ _ _ _ _ _
      · trivial
  | removeOption groupId optionId => exact noStock_answer _ (noStock_changeOption _ _ _ _ _ _)

end Catalog

-- ============================================================================
-- Bodies that lock stock rows
-- ============================================================================

section Locking

variable {before : Id → Id → Id → Prop} {T : Id → Prop}

/-- The log and the locks at the start. -/
theorem takenFor_start (G : Db → Prop) (outletId : Id) : TakenFor G outletId [] St.start :=
  ⟨fun _ hd => hd, fun _ hl => (nomatch hl)⟩

/-- A body that takes no lock of a stock row, with what follows its result. -/
theorem ordered_of_noStock {α : Type} {G : Db → Prop} {iso : Isolation} {x : Body α}
    {mk : α → Result} (hx : NoStock anyDb x fun _ => True) :
    Ordered G Token.isStock (stockBefore before) iso (x >>= fun a => Prog.ret (mk a))
      (fun _ _ => True) St.start := by
  have hbody : NoStock anyDb (x >>= fun a => Prog.ret (mk a)) fun _ => True :=
    Prog.calm_bind hx fun _ _ => trivial
  exact ordered_anti (fun _ _ => trivial)
    (ordered_mono (fun _ _ _ => trivial) (hbody.ordered fun _ _ => trivial))

/-- A body in turn, with what follows its result. -/
theorem ordered_result {α : Type} {G : Db → Prop} {iso : Isolation} {x : Body α} {mk : α → Result}
    {Q : α → St Db Token → Prop} {st : St Db Token}
    (hx : Ordered G Token.isStock (stockBefore before) iso x Q st) :
    Ordered G Token.isStock (stockBefore before) iso (x >>= fun a => Prog.ret (mk a))
      (fun _ _ => True) st := by
  rw [ordered_bind]
  exact ordered_mono (fun _ _ _ => trivial) hx

/-- A direct sale. -/
theorem ordered_createBody {user : JwtPayload} {input : CheckoutDto} {mode : CheckoutMode}
    (hcart : Ascends (before (coreRequest input mode).outletId) T
      ((coreRequest input mode).items.map CreateTransactionItemDto.productId)) :
    Ordered (FitsOrder before T) Token.isStock (stockBefore before) .readCommitted
      (Transactions.createBody user input mode >>= fun r => Prog.ret (Result.sale r))
      (fun _ _ => True) St.start := by
  refine ordered_result (Q := fun _ st' => Keeps (FitsOrder before T) st') ?_
  unfold Transactions.createBody
  refine (Prog.calm_lift _).andThen (fun _ hd => hd) fun x st1 hx h1 => ?_
  obtain ⟨u, d⟩ := x
  obtain ⟨rfl, rfl, -⟩ := prepare_eq hx
  have hst1 := (takenFor_start (FitsOrder before T) (coreRequest input mode).outletId).after h1
  refine ordered_executeTransactionCore (saleBlind_fitsOrder before T)
    (fun _ hdb => hdb.tracked) ?_ ?_
  · rw [coreRequest_coreRequest]
    exact hst1
  · rw [coreRequest_coreRequest]
    exact hcart

/-- A stock adjustment locks the row of one product. -/
theorem ordered_adjustmentBody {user : JwtPayload} {dto : Stock.CreateStockAdjustmentDto} :
    Ordered (FitsOrder before T) Token.isStock (stockBefore before) .readCommitted
      (Stock.adjustmentBody user dto >>= fun r => Prog.ret (Result.stock r))
      (fun _ _ => True) St.start := by
  have hG := saleBlind_fitsOrder before T
  have hscope : NoStock (FitsOrder before T) (Stock.checkScope user (Stock.scopeOf user dto))
      fun _ => True := by
    unfold Stock.checkScope
    refine Prog.calm_bind (noStock_query _) fun outlet _ => ?_
    refine Prog.calm_bind (Prog.calm_guard _ _) fun _ _ => ?_
    refine Prog.calm_bind (noStock_query _) fun product _ => ?_
    refine Prog.calm_bind (Prog.calm_require _ _) fun product _ => ?_
    refine Prog.calm_bind (Prog.calm_guard _ _) fun _ _ => ?_
    exact noStock_check _ _ _
  refine ordered_result (Q := fun _ _ => True) ?_
  unfold Stock.adjustmentBody
  dsimp only
  refine hscope.andThen (fun _ hd => hd) fun _ st1 _ h1 => ?_
  -- one entry stands for the product, whichever statement locks its row
  let entry : Id × Int := ((Stock.scopeOf user dto).productId, 0)
  have hst1 := (takenFor_start (FitsOrder before T) (Stock.scopeOf user dto).outletId).after h1
  have hrest : ∀ (done : List (Id × Int)) (st : St Db Token), (∀ e ∈ done, e = entry) →
      TakenFor (FitsOrder before T) (Stock.scopeOf user dto).outletId done st →
      Ordered (FitsOrder before T) Token.isStock (stockBefore before) .readCommitted
        (Stock.changeStock (Stock.scopeOf user dto) dto >>= fun _ =>
          ensure (storable (Stock.reasonOf dto)) (.prisma .other) >>= fun _ =>
          insert (Stock.adjustmentRow user (Stock.scopeOf user dto) dto) Db.addStockAdjustment >>=
          fun adjustment =>
            insert (Stock.movementRow user (Stock.scopeOf user dto) dto adjustment.id)
              (fun row => Db.addStockMovements [row]) >>= fun _ =>
            query (fun db => db.stocks.productStocks.find? ((Stock.scopeOf user dto).contains db))
              >>= fun row => Prog.require row (.prisma .P2025))
        (fun _ _ => True) st := by
    intro done st hdone hst
    rw [ordered_bind]
    unfold Stock.changeStock
    refine Prog.Calm.andThen (Prog.calm_guard _ _) hst.keeps fun _ st2 _ h2 => ?_
    refine ordered_mono ?_ (ordered_updateStock entry hG (fun db r hr => ?_)
      (hst.after h2) fun e he hne => absurd (congrArg Prod.fst (hdone e he)) hne)
    · intro _ st3 hst3
      refine (Prog.calm_guard _ _).andThen hst3.keeps fun _ st3 _ h3 => ?_
      have hst3 := hst3.after h3
      refine (noStock_insert fun row d hd =>
        hG d (Db.addStockAdjustment row d) rfl rfl hd).andThen hst3.keeps fun adjustment st4 _ h4 => ?_
      refine (noStock_insert fun row d hd =>
        hG d (Db.addStockMovements [row] d) rfl rfl hd).andThen h4.keeps fun _ st5 _ h5 => ?_
      refine (noStock_query _).andThen h5.keeps fun row st6 _ h6 => ?_
      exact ordered_mono (fun _ _ _ => trivial) ((Prog.calm_require _ _).ordered h6.keeps)
    · rw [Bool.and_eq_true] at hr
      have hcontains := hr.1
      simp only [Stock.Scope.contains, Bool.and_eq_true, beq_iff_eq] at hcontains
      exact hcontains.1.1
  rw [ordered_bind]
  cases dto.adjustmentType with
  | deduct => exact hrest [] st1 (fun _ he => absurd he List.not_mem_nil) hst1
  | add =>
      refine ordered_stockStmt entry (fun v l hl => ?_) (fun v d hd => ?_) hst1
        (fun _ he => absurd he List.not_mem_nil) fun v st2 hst2 => hrest _ st2 (fun e he => ?_) hst2
      · dsimp only at hl
        split at hl
        · cases hl
        · exact List.mem_singleton.mp hl
      · dsimp only
        split
        · exact hd
        · exact hG d _ rfl rfl hd
      · exact List.mem_singleton.mp he

-- ============================================================================
-- Conversions
-- ============================================================================

/-- A SELECT of a serializable transaction: the snapshot it reads from stays. -/
theorem ordered_snapshotRead {α β : Type} {G : Db → Prop} {f : (Id → Nat) → Db → α}
    {g : α → Body β} {Q : β → St Db Token → Prop} {st : St Db Token}
    (h : ∀ s rank st', (∀ s', st.snap = some s' → s = s') → st'.snap = some s →
      st'.log = st.log → Ordered G Token.isStock (stockBefore before) .serializable
        (g (f rank (st.log s))) Q st') :
    Ordered G Token.isStock (stockBefore before) .serializable (queryRanked f >>= g) Q st := by
  intro s db env _ _ hpoint
  refine ⟨fun _ hl => (nomatch hl), h s env.rank _ (fun s' hs' => ?_) rfl rfl⟩
  rw [hpoint, hs']
  rfl

/-- Authorization leaves snapshot and log as they are. -/
theorem ordered_authorize {G : Db → Prop} {user : JwtPayload} {st : St Db Token} {s : Db}
    (hsnap : st.snap = some s) :
    Ordered G Token.isStock (stockBefore before) .serializable (authorize user)
      (fun _ st' => st'.snap = some s ∧ st'.log = st.log) st := by
  unfold authorize
  refine ordered_snapshotRead (f := fun _ db => db.accounts.users.find? fun u =>
    u.id == user.sub && u.tenantId == user.tenantId && u.isActive) fun s1 _ st1 hs1 hsnap1 hlog1 => ?_
  obtain rfl := hs1 s hsnap
  refine ordered_snapshotRead (f := fun _ db => db.accounts.tenants.find? fun t =>
    t.id == user.tenantId && t.isActive) fun s2 _ st2 hs2 hsnap2 hlog2 => ?_
  obtain rfl := hs2 s1 hsnap1
  split
  · exact ⟨hsnap2, hlog2.trans hlog1⟩
  · trivial

/-- The branch for an order that is CONVERTED finds the sale it has found before,
    and so takes nothing from stock. -/
theorem ordered_replayConversion {G : Db → Prop} {actor : JwtPayload} {order : HeldOrder}
    {dto : CheckoutHeldOrderDto} {st : St Db Token} :
    Ordered G Token.isStock (stockBefore before) .serializable
      (replayConversion .serializable actor order dto) (fun _ _ => True) st := by
  unfold replayConversion findLinked
  refine ordered_snapshotRead fun s _ st1 _ hsnap1 hlog1 => ?_
  refine ordered_require fun existing hexisting => ordered_guard fun _ => ?_
  obtain ⟨t, hfind, -⟩ := Option.map_eq_some_iff.mp hexisting
  rw [ordered_bind]
  unfold executeTransactionCore
  refine ordered_lift fun normalized hnormalized => ?_
  obtain rfl := prepareCore_eq hnormalized
  unfold checkout
  rw [ordered_bind]
  refine ordered_mono ?_ (ordered_authorize hsnap1)
  rintro x st2 ⟨hsnap2, hlog2⟩
  refine ordered_snapshotRead fun s3 _ st3 hs3 _ _ => ?_
  obtain rfl := hs3 s hsnap2
  -- the key of the request has not changed, nor has the snapshot
  have hkey : (coreRequest (replayDto order existing dto) .v1).clientTransactionId =
      Js.toLowerCase dto.clientTransactionId := Js.toLowerCase_toLowerCase _
  rw [hlog2, hlog1, hkey, hfind, Option.map_some]
  dsimp only
  refine ordered_lift fun _ _ => ?_
  unfold Prog.lift
  split <;> trivial

/-- An order that is OPEN: its lines were in order in a state the call has seen. -/
theorem ordered_convertOpen {actor : JwtPayload} {orderId : Id} {record : HeldOrderRecord}
    {dto : CheckoutHeldOrderDto} {st : St Db Token}
    (hlines : Ascends (before (Js.toLowerCase record.order.outletId)) T (orderedProducts record))
    (hst : TakenFor (FitsOrder before T) (Js.toLowerCase record.order.outletId) [] st) :
    Ordered (FitsOrder before T) Token.isStock (stockBefore before) .serializable
      (convertOpen .serializable actor orderId record dto) (fun _ _ => True) st := by
  have haccess : NoStock (FitsOrder before T) (checkOutletAccess actor record.order)
      fun _ => True := by
    unfold checkOutletAccess
    split
    · exact noStock_check _ _ _
    · trivial
  have horigin : NoStock (FitsOrder before T) (checkOriginSession actor record.order)
      fun _ => True := by
    unfold checkOriginSession
    refine Prog.calm_bind (noStock_query _) fun session _ => ?_
    refine Prog.calm_bind (Prog.calm_require _ _) fun session _ => ?_
    refine Prog.calm_bind (Prog.calm_guard _ _) fun _ _ => ?_
    exact Prog.calm_mono (Prog.calm_guard _ _) fun _ _ => trivial
  unfold convertOpen
  refine haccess.andThen hst.keeps fun _ st1 _ h1 => ?_
  refine horigin.andThen h1.keeps fun _ st2 _ h2 => ?_
  refine (noStock_swapOrder fun _ _ _ hd => hd.change fun _ => rfl).andThen h2.keeps
    fun _ st3 _ h3 => ?_
  have hst3 := ((hst.after h1).after h2).after h3
  rw [ordered_bind]
  refine ordered_mono ?_ (ordered_executeTransactionCore (T := T)
    (saleBlind_fitsOrder before T) (fun _ hdb => hdb.tracked) hst3 ?_)
  · intro result st4 h4
    refine (noStock_swapOrder fun _ _ _ hd => hd.change fun _ => rfl).andThen h4
      fun _ _ _ _ => trivial
  · have hproducts : (coreRequest (heldCheckoutDto record dto) .v1).items.map
        CreateTransactionItemDto.productId = orderedProducts record := by
      unfold coreRequest normalizeCheckoutDto orderedProducts heldCheckoutDto
      simp only [CheckoutDto.transformed, List.map_map]
      rfl
    rw [hproducts]
    exact hlines

/-- A held order is sold. -/
theorem ordered_checkoutBody {user : JwtPayload} {id : String} {input : CheckoutHeldOrderDto} :
    Ordered (FitsOrder before T) Token.isStock (stockBefore before) .serializable
      (checkoutBody user id input >>= fun r => Prog.ret (Result.conversion r))
      (fun _ _ => True) St.start := by
  refine ordered_result (Q := fun _ _ => True) ?_
  unfold checkoutBody convertHeldOrder
  refine ordered_lift fun x _ => ?_
  obtain ⟨actor, orderId, dto⟩ := x
  refine (noStock_readScope _).andThen (fun _ hd => hd) fun scope st1 _ h1 => ?_
  refine (noStock_findInScope _ _).andThen h1.keeps fun record st2 hrecord h2 => ?_
  split
  · exact ordered_replayConversion
  · refine ordered_lift fun _ _ => ?_
    obtain ⟨db, rank, hdb, o, ho, rfl⟩ := hrecord
    exact ordered_convertOpen (hdb.orders o ho rank)
      (((takenFor_start (FitsOrder before T) (Js.toLowerCase o.outletId)).after h1).after h2)

end Locking

end Kasir
