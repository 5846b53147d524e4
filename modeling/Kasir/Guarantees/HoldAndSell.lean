/-
  Kasir.Guarantees.HoldAndSell

  Holding and selling agree.

  The two services load options differently and check the rules of a group in different
  places.  In a catalog as the catalog services leave it both accept the same lines, those
  of which every option is offered and every rule is met, and make the same prices and
  totals of them.
-/

import Kasir.Transactions.Ends
import Kasir.HeldOrders.Proof
import Kasir.Txn.ReadOnly

namespace Kasir

open Txn Js Transactions HeldOrders

-- ============================================================================
-- What is loaded
-- ============================================================================

/-- What `resolveItems` loads for the lines. -/
def heldCatalog (tenantId : Id) (items : List CreateTransactionItemDto) (db : Db) : LoadedCatalog where
  products := selectProducts tenantId (uniqueProductIds items) db
  assignments := selectAssignments tenantId (uniqueProductIds items) db
  options := selectOptions tenantId (requestedOptionIds items) db

/-- The groups of which `loadCatalog` loads the options. -/
def loadedGroups (tenantId : Id) (items : List CreateTransactionItemDto) (db : Db) : List Id :=
  ((selectAssignments tenantId (uniqueProductIds items) db).map
    LoadedAssignment.modifierGroupId).eraseDups

/-- What `loadCatalog` loads for the lines. -/
def saleCatalog (tenantId : Id) (items : List CreateTransactionItemDto) (db : Db) : LoadedCatalog where
  products := selectProducts tenantId (uniqueProductIds items) db
  assignments := selectAssignments tenantId (uniqueProductIds items) db
  options := selectGroupOptions tenantId (loadedGroups tenantId items db) db

/-- Every product of the lines is found. -/
def allFound (tenantId : Id) (items : List CreateTransactionItemDto) (db : Db) : Bool :=
  (selectProducts tenantId (uniqueProductIds items) db).length == (uniqueProductIds items).length

section Loading

variable {db : Db} {tenantId : Id}

/-- What `resolveItems` answers from a state. -/
theorem resolveItems_answers (rawItems : List CreateTransactionItemDto) :
    (resolveItems tenantId rawItems).Answers db
      (Checked.guard (allFound tenantId (rawItems.map CreateTransactionItemDto.normalized) db)
          (.coded .conflict "One or more products are unavailable" "HELD_ORDER_CATALOG_CONFLICT") >>=
        fun _ => resolveLines
          (heldCatalog tenantId (rawItems.map CreateTransactionItemDto.normalized) db)
          (rawItems.map CreateTransactionItemDto.normalized)) := by
  let items := rawItems.map CreateTransactionItemDto.normalized
  have hsteps : (resolveItems tenantId rawItems).Answers db
      (Except.ok (selectProducts tenantId (uniqueProductIds items) db) >>= fun products =>
        Checked.guard (products.length == (uniqueProductIds items).length)
          (.coded .conflict "One or more products are unavailable" "HELD_ORDER_CATALOG_CONFLICT") >>=
        fun _ => Except.ok (selectAssignments tenantId (uniqueProductIds items) db) >>=
        fun assignments => Except.ok (selectOptions tenantId (requestedOptionIds items) db) >>=
        fun options => resolveLines { products, assignments, options } items) := by
    apply (Prog.answers_read _).bind
    intro products
    apply (Prog.answers_guard _ _).bind
    intro _
    apply (Prog.answers_read _).bind
    intro assignments
    dsimp only
    split
    · exact (Prog.answers_read _).bind fun options => Prog.answers_lift _
    · rename_i hnone
      have hnil : requestedOptionIds items = [] :=
        List.length_eq_zero_iff.mp (Nat.eq_zero_of_not_pos hnone)
      rw [hnil, selectOptions_nil]
      exact Prog.answers_lift _
  exact hsteps

/-- What `loadCatalog` answers from a state. -/
theorem loadCatalog_answers (items : List CreateTransactionItemDto) :
    (loadCatalog tenantId items).Answers db
      (Checked.guard (allFound tenantId items db)
          (.plain .notFound "One or more products not found or inactive") >>=
        fun _ => .ok (saleCatalog tenantId items db)) := by
  have hsteps : (loadCatalog tenantId items).Answers db
      (Except.ok (selectProducts tenantId (uniqueProductIds items) db) >>= fun products =>
        Checked.guard (products.length == (uniqueProductIds items).length)
          (.plain .notFound "One or more products not found or inactive") >>=
        fun _ => Except.ok (selectAssignments tenantId (uniqueProductIds items) db) >>=
        fun assignments => Except.ok (selectGroupOptions tenantId
          (assignments.map LoadedAssignment.modifierGroupId).eraseDups db) >>=
        fun options => .ok { products, assignments, options }) := by
    apply (Prog.answers_read _).bind
    intro products
    apply (Prog.answers_guard _ _).bind
    intro _
    apply (Prog.answers_read _).bind
    intro assignments
    dsimp only
    split
    · exact (Prog.answers_read _).bind fun options => Prog.answers_ret _
    · rename_i hnone
      have hnil : (assignments.map LoadedAssignment.modifierGroupId).eraseDups = [] :=
        List.length_eq_zero_iff.mp (by omega)
      rw [hnil, selectGroupOptions_nil]
      exact Prog.answers_ret _
  exact hsteps

end Loading

-- ============================================================================
-- Lines in terms of the tables
-- ============================================================================

/-- The assignment of an active group to a product. -/
structure AssignedGroup (c : Catalog) (tenantId productId : Id) (a : ProductModifierGroup)
    (g : ModifierGroup) : Prop where
  assignment : a ∈ c.productModifierGroups
  group : g ∈ c.modifierGroups
  tenantId : a.tenantId = tenantId ∧ g.tenantId = tenantId
  productId : a.productId = productId
  groupId : g.id = a.modifierGroupId
  isActive : g.isActive = true

/-- The catalog offers the option for the product: it is active, and so is its group, which
    is assigned to the product. -/
def Offered (c : Catalog) (tenantId productId id : Id) (o : ResolvedOption) : Prop :=
  ∃ option ∈ c.modifierOptions, ∃ a g, AssignedGroup c tenantId productId a g ∧
    option.id = id ∧ option.tenantId = tenantId ∧ option.isActive = true ∧
    option.modifierGroupId = g.id ∧
    o = { id, modifierGroupId := g.id, groupName := g.name, optionName := option.name
          priceDelta := option.priceDelta }

/-- The catalog allows the line, for this product with these options. -/
structure LineIn (c : Catalog) (tenantId : Id) (item : CreateTransactionItemDto)
    (line : Product × List ResolvedOption) : Prop where
  product : line.1 ∈ c.products ∧ line.1.id = item.productId ∧ line.1.tenantId = tenantId ∧
    line.1.isActive = true
  options : List.Forall₂ (Offered c tenantId item.productId) (item.modifierOptionIds.getD []) line.2
  rules : ∀ a g, AssignedGroup c tenantId item.productId a g → a.selectionType = .single →
    if a.required then groupSelections line.2 g.id = 1 else groupSelections line.2 g.id ≤ 1

section Tables

variable {db : Db} {tenantId : Id} (hlegal : db.legal = true)
include hlegal

theorem groupOf_eq_some {a : ProductModifierGroup} {g : ModifierGroup} :
    groupOf db.catalog a = some g ↔
      g ∈ db.catalog.modifierGroups ∧ g.id = a.modifierGroupId ∧ g.tenantId = a.tenantId := by
  constructor
  · intro h
    have hkey := List.find?_some h
    simp only [Bool.and_eq_true, beq_iff_eq] at hkey
    exact ⟨List.mem_of_find?_eq_some h, hkey⟩
  · rintro ⟨hg, hid, htenant⟩
    obtain ⟨y, hy, hmem, hkey⟩ := find?_of_mem (p := fun g : ModifierGroup =>
      g.id == a.modifierGroupId && g.tenantId == a.tenantId) hg (by simp [hid, htenant])
    simp only [Bool.and_eq_true, beq_iff_eq] at hkey
    obtain rfl := eq_of_key (legal_modifierGroups hlegal) hmem hg (hkey.1.trans hid.symm)
    exact hy

/-- The assignments that are loaded are those of active groups to the products. -/
theorem mem_selectAssignments {ids : List Id} {la : LoadedAssignment} :
    la ∈ selectAssignments tenantId ids db ↔ ∃ a g, AssignedGroup db.catalog tenantId la.productId a g ∧
      la.productId ∈ ids ∧ la = { productId := a.productId, modifierGroupId := g.id
                                  required := a.required, selectionType := a.selectionType
                                  groupName := g.name } := by
  unfold selectAssignments
  rw [List.mem_filterMap]
  constructor
  · rintro ⟨a, ha, hla⟩
    simp only [List.mem_filter, Bool.and_eq_true, beq_iff_eq, List.contains_iff_mem] at ha
    obtain ⟨ha, htenant, hids⟩ := ha
    cases hgroup : groupOf db.catalog a with
    | none =>
        rw [hgroup] at hla
        cases hla
    | some g =>
        rw [hgroup] at hla
        obtain ⟨hg, hid, htenant'⟩ := (groupOf_eq_some hlegal).mp hgroup
        dsimp only at hla
        split at hla
        · rename_i hactive
          obtain rfl := Option.some.inj hla
          exact ⟨a, g, ⟨ha, hg, ⟨htenant, htenant'.trans htenant⟩, rfl, hid, hactive⟩, hids, by rw [hid]⟩
        · cases hla
  · rintro ⟨a, g, hassigned, hids, hla⟩
    refine ⟨a, ?_, ?_⟩
    · simp only [List.mem_filter, Bool.and_eq_true, beq_iff_eq, List.contains_iff_mem]
      exact ⟨hassigned.assignment, hassigned.tenantId.1, hassigned.productId ▸ hids⟩
    · have hgroup : groupOf db.catalog a = some g := (groupOf_eq_some hlegal).mpr
        ⟨hassigned.group, hassigned.groupId, hassigned.tenantId.2.trans hassigned.tenantId.1.symm⟩
      rw [hgroup]
      dsimp only
      rw [if_pos hassigned.isActive, hla, hassigned.groupId]

variable {ids : List Id} {item : CreateTransactionItemDto} {loaded : LoadedCatalog}
  (hassignments : loaded.assignments = selectAssignments tenantId ids db)
  (hitem : item.productId ∈ ids)
include hassignments hitem

theorem mem_assignmentsOf {la : LoadedAssignment} : la ∈ assignmentsOf loaded item ↔
    ∃ a g, AssignedGroup db.catalog tenantId item.productId a g ∧
      la = { productId := a.productId, modifierGroupId := g.id, required := a.required
             selectionType := a.selectionType, groupName := g.name } := by
  unfold assignmentsOf
  rw [hassignments, List.mem_filter, mem_selectAssignments hlegal, beq_iff_eq]
  constructor
  · rintro ⟨⟨a, g, hag, -, hla⟩, hproduct⟩
    exact ⟨a, g, hproduct ▸ hag, hla⟩
  · rintro ⟨a, g, hag, hla⟩
    have hproduct : la.productId = item.productId := by
      rw [hla]
      exact hag.productId
    exact ⟨⟨a, g, hproduct ▸ hag, hproduct ▸ hitem, hla⟩, hproduct⟩

/-- Whatever else is loaded, an option is found among the active ones of the tenant exactly
    if the catalog offers it. -/
theorem optionOf_iff {id : Id} {o : ResolvedOption}
    (hloaded : ∀ option ∈ loaded.options, option ∈ db.catalog.modifierOptions ∧
      option.tenantId = tenantId ∧ option.isActive = true)
    (hoffered : ∀ o, Offered db.catalog tenantId item.productId id o →
      ∀ option ∈ db.catalog.modifierOptions, option.id = id → option ∈ loaded.options) :
    OptionOf loaded.options (assignmentsOf loaded item) id o ↔
      Offered db.catalog tenantId item.productId id o := by
  constructor
  · rintro ⟨option, hoption, la, hla, rfl⟩
    have hid := List.find?_some hoption
    have hgroup := List.find?_some hla
    rw [beq_iff_eq] at hid hgroup
    obtain ⟨hmem, htenant, hactive⟩ := hloaded option (List.mem_of_find?_eq_some hoption)
    obtain ⟨a, g, hag, rfl⟩ :=
      (mem_assignmentsOf hlegal hassignments hitem).mp (List.mem_of_find?_eq_some hla)
    dsimp only at hgroup
    refine ⟨option, hmem, a, g, hag, hid, htenant, hactive, hgroup.symm, ?_⟩
    rw [← hid, hgroup]
  · intro ho
    obtain ⟨option, hmem, a, g, hag, hid, htenant, hactive, hgroup, rfl⟩ := ho
    have hin := hoffered _ ⟨option, hmem, a, g, hag, hid, htenant, hactive, hgroup, rfl⟩ option hmem hid
    obtain ⟨y, hy, hymem, hykey⟩ := find?_of_mem (p := fun o : ModifierOption => o.id == id) hin
      (by simp [hid])
    obtain rfl := eq_of_key (legal_modifierOptions hlegal) (hloaded y hymem).1 hmem
      ((beq_iff_eq.mp hykey).trans hid.symm)
    obtain ⟨la, hla, hlamem, hlakey⟩ := find?_of_mem
      (p := fun a : LoadedAssignment => a.modifierGroupId == y.modifierGroupId)
      ((mem_assignmentsOf hlegal hassignments hitem).mpr ⟨a, g, hag, rfl⟩) (by simp [hgroup])
    obtain ⟨a', g', hag', rfl⟩ := (mem_assignmentsOf hlegal hassignments hitem).mp hlamem
    -- groups with one identifier are one group
    have hgg : g' = g := eq_of_key (legal_modifierGroups hlegal) hag'.group hag.group
      ((beq_iff_eq.mp hlakey).trans hgroup)
    subst hgg
    refine ⟨y, hy, _, hla, ?_⟩
    rw [← hid, hgroup]

/-- What the loaded rows allow is what the catalog allows. -/
theorem lineOk_iff (hproducts : loaded.products = selectProducts tenantId ids db)
    (hloaded : ∀ option ∈ loaded.options, option ∈ db.catalog.modifierOptions ∧
      option.tenantId = tenantId ∧ option.isActive = true)
    (hoffered : ∀ id ∈ item.modifierOptionIds.getD [], ∀ o,
      Offered db.catalog tenantId item.productId id o →
      ∀ option ∈ db.catalog.modifierOptions, option.id = id → option ∈ loaded.options)
    {line : Product × List ResolvedOption} :
    LineOk loaded item line.1 line.2 ↔ LineIn db.catalog tenantId item line := by
  constructor
  · intro h
    have hmem := List.mem_of_find?_eq_some h.found
    rw [hproducts] at hmem
    unfold selectProducts at hmem
    simp only [List.mem_filter, Bool.and_eq_true, beq_iff_eq] at hmem
    refine ⟨⟨hmem.1, h.productId, hmem.2.1.1, hmem.2.1.2⟩, ?_, fun a g hag hsingle => ?_⟩
    · exact forall₂_imp_mem h.chosen fun id o hid _ ho =>
        (optionOf_iff hlegal hassignments hitem hloaded (hoffered id hid)).mp ho
    · exact h.selections _ ((mem_assignmentsOf hlegal hassignments hitem).mpr ⟨a, g, hag, rfl⟩) hsingle
  · rintro ⟨⟨hmem, hid, htenant, hactive⟩, hoptions, hrules⟩
    refine ⟨?_, ?_, fun la hla => ?_⟩
    · have hin : line.1 ∈ loaded.products := by
        rw [hproducts]
        unfold selectProducts
        simp only [List.mem_filter, Bool.and_eq_true, beq_iff_eq, List.contains_iff_mem]
        exact ⟨hmem, ⟨htenant, hactive⟩, hid ▸ hitem⟩
      obtain ⟨y, hy, hymem, hykey⟩ := find?_of_mem (p := fun p : Product => p.id == item.productId) hin
        (by simp [hid])
      have hyin : y ∈ db.catalog.products := by
        rw [hproducts] at hymem
        exact List.mem_of_mem_filter hymem
      rw [hy, eq_of_key (legal_products hlegal) hyin hmem ((beq_iff_eq.mp hykey).trans hid.symm)]
    · exact forall₂_imp_mem hoptions fun id o hid _ ho =>
        (optionOf_iff hlegal hassignments hitem hloaded (hoffered id hid)).mpr ho
    · obtain ⟨a, g, hag, rfl⟩ := (mem_assignmentsOf hlegal hassignments hitem).mp hla
      exact fun hsingle => hrules a g hag hsingle

end Tables

-- ============================================================================
-- Requests in terms of the tables
-- ============================================================================

section Requests

variable {db : Db} {tenantId : Id} {items : List CreateTransactionItemDto}
  {item : CreateTransactionItemDto} {line : Product × List ResolvedOption}

theorem mem_uniqueProductIds (hitem : item ∈ items) : item.productId ∈ uniqueProductIds items :=
  List.mem_eraseDups.mpr (List.mem_map_of_mem hitem)

/-- Holding loads the options that are asked for. -/
theorem lineOk_heldCatalog (hlegal : db.legal = true) (hitem : item ∈ items) :
    LineOk (heldCatalog tenantId items db) item line.1 line.2 ↔
      LineIn db.catalog tenantId item line := by
  refine lineOk_iff hlegal rfl (mem_uniqueProductIds hitem) rfl (fun option hoption => ?_)
    fun id hid o ho option hoption hkey => ?_
  · simp only [heldCatalog, selectOptions, List.mem_filter, Bool.and_eq_true, beq_iff_eq] at hoption
    exact ⟨hoption.1, hoption.2.1.1, hoption.2.2⟩
  · obtain ⟨option', hmem, a, g, -, hid', htenant, hactive, -⟩ := ho
    obtain rfl := eq_of_key (legal_modifierOptions hlegal) hmem hoption (hid'.trans hkey.symm)
    simp only [heldCatalog, selectOptions, List.mem_filter, Bool.and_eq_true, beq_iff_eq,
      List.contains_iff_mem]
    refine ⟨hmem, ⟨htenant, ?_⟩, hactive⟩
    exact List.mem_eraseDups.mpr (List.mem_flatMap.mpr ⟨item, hitem, hkey ▸ hid⟩)

/-- Selling loads all options of the groups that are assigned. -/
theorem lineOk_saleCatalog (hlegal : db.legal = true) (hitem : item ∈ items) :
    LineOk (saleCatalog tenantId items db) item line.1 line.2 ↔
      LineIn db.catalog tenantId item line := by
  refine lineOk_iff hlegal rfl (mem_uniqueProductIds hitem) rfl (fun option hoption => ?_)
    fun id hid o ho option hoption hkey => ?_
  · simp only [saleCatalog, selectGroupOptions, List.mem_filter, Bool.and_eq_true, beq_iff_eq]
      at hoption
    exact ⟨hoption.1, hoption.2.1.1, hoption.2.2⟩
  · obtain ⟨option', hmem, a, g, hag, hid', htenant, hactive, hgroup, -⟩ := ho
    obtain rfl := eq_of_key (legal_modifierOptions hlegal) hmem hoption (hid'.trans hkey.symm)
    simp only [saleCatalog, selectGroupOptions, List.mem_filter, Bool.and_eq_true, beq_iff_eq,
      List.contains_iff_mem]
    refine ⟨hmem, ⟨htenant, ?_⟩, hactive⟩
    have hproduct : a.productId = item.productId := hag.productId
    have hids : a.productId ∈ uniqueProductIds items := hproduct ▸ mem_uniqueProductIds hitem
    have hloaded := (mem_selectAssignments hlegal).mpr ⟨a, g, hproduct.symm ▸ hag, hids, rfl⟩
    exact List.mem_eraseDups.mpr (List.mem_map.mpr ⟨_, hloaded, hgroup.symm⟩)

theorem nodup_eraseDups (ids : List Id) : ids.eraseDups.Nodup := by
  induction hlength : ids.length using Nat.strong_induction_on generalizing ids with
  | _ n ih =>
      cases ids with
      | nil => exact List.nodup_nil
      | cons id ids =>
          rw [List.eraseDups_cons, List.nodup_cons]
          constructor
          · intro hmem
            rw [List.mem_eraseDups, List.mem_filter, beq_self_eq_true] at hmem
            cases hmem.2
          · have hle := List.length_filter_le (fun other => !other == id) ids
            rw [List.length_cons] at hlength
            exact ih _ (by omega) _ rfl

/-- Where every line has a product, all products are found. -/
theorem allFound_of_products (hlegal : db.legal = true)
    (h : ∀ item ∈ items, ∃ p ∈ db.catalog.products, p.id = item.productId ∧ p.tenantId = tenantId ∧
      p.isActive = true) : allFound tenantId items db = true := by
  let found := selectProducts tenantId (uniqueProductIds items) db
  have hfound : ∀ {p : Product}, p ∈ found ↔ p ∈ db.catalog.products ∧
      (p.tenantId = tenantId ∧ p.isActive = true) ∧ p.id ∈ uniqueProductIds items := by
    intro p
    simp only [found, selectProducts, List.mem_filter, Bool.and_eq_true, beq_iff_eq,
      List.contains_iff_mem]
  have hnodup : (found.map Product.id).Nodup :=
    (legal_products hlegal).sublist (List.filter_sublist.map _)
  have hperm : (found.map Product.id).Perm (uniqueProductIds items) := by
    have hids : (uniqueProductIds items).Nodup := nodup_eraseDups _
    rw [List.perm_ext_iff_of_nodup hnodup hids]
    intro id
    constructor
    · intro hid
      obtain ⟨p, hp, rfl⟩ := List.mem_map.mp hid
      exact (hfound.mp hp).2.2
    · intro hid
      obtain ⟨item, hitem, rfl⟩ := List.mem_map.mp (List.mem_eraseDups.mp hid)
      obtain ⟨p, hp, hpid, htenant, hactive⟩ := h item hitem
      exact List.mem_map.mpr ⟨p, hfound.mpr ⟨hp, ⟨htenant, hactive⟩, hpid ▸ hid⟩, hpid⟩
  have hlength := hperm.length_eq
  rw [List.length_map] at hlength
  exact beq_iff_eq.mpr hlength

/-- The catalog services leave nothing else to check. -/
theorem sellable_saleCatalog (hlegal : db.legal = true) (hok : db.catalog.Ok) :
    Sellable (saleCatalog tenantId items db) where
  noRequiredMultiple := by
    intro la hla
    obtain ⟨a, g, hag, -, rfl⟩ := (mem_selectAssignments hlegal).mp hla
    exact hok.noRequiredMultiple a hag.assignment
  groupNames := by
    intro la hla
    obtain ⟨a, g, hag, -, rfl⟩ := (mem_selectAssignments hlegal).mp hla
    exact hok.groupNames g hag.group

end Requests

-- ============================================================================
-- Prices
-- ============================================================================

/-- What a line costs. -/
def lineCost (item : CreateTransactionItemDto) (line : Product × List ResolvedOption) : Int :=
  priceOf line.1 line.2 * item.quantity

/-- The line as it is held. -/
def heldLine (item : CreateTransactionItemDto) (line : Product × List ResolvedOption) :
    ResolvedItem where
  product := line.1
  quantity := item.quantity
  note := noteOrNull item.note
  options := line.2
  effectivePrice := priceOf line.1 line.2

/-- The line as it is sold. -/
def saleLine (item : CreateTransactionItemDto) (line : Product × List ResolvedOption) :
    ValidatedItem where
  product := line.1
  options := line.2
  effectivePrice := priceOf line.1 line.2
  quantity := item.quantity
  note := item.note

section Prices

variable {items : List CreateTransactionItemDto} {lines : List (Product × List ResolvedOption)}

/-- What a list is made of, element by element. -/
theorem forall₂_exists {α β γ : Type} {P : α → γ → Prop} {f : α → γ → β} {xs : List α} {ys : List β} :
    List.Forall₂ (fun x y => ∃ z, P x z ∧ y = f x z) xs ys ↔
      ∃ zs, List.Forall₂ P xs zs ∧ ys = List.zipWith f xs zs := by
  constructor
  · intro h
    induction h with
    | nil => exact ⟨[], .nil, rfl⟩
    | cons hxy _ ih =>
        obtain ⟨z, hz, rfl⟩ := hxy
        obtain ⟨zs, hzs, rfl⟩ := ih
        exact ⟨z :: zs, .cons hz hzs, rfl⟩
  · rintro ⟨zs, h, rfl⟩
    induction h with
    | nil => exact .nil
    | cons hxz _ ih => exact .cons ⟨_, hxz, rfl⟩ ih

theorem sum_heldLines :
    ((List.zipWith heldLine items lines).map ResolvedItem.lineTotal).sum =
      (List.zipWith lineCost items lines).sum := by
  rw [List.map_zipWith]
  rfl

theorem sum_saleLines :
    ((List.zipWith saleLine items lines).map ValidatedItem.lineSubtotal).sum =
      (List.zipWith lineCost items lines).sum := by
  rw [List.map_zipWith]
  rfl

/-- No line costs less than nothing, so none costs more than all of them. -/
theorem costs_inRange (h : List.Forall₂ (fun item line => 1 ≤ item.quantity ∧
      0 ≤ priceOf line.1 line.2) items lines) :
    0 ≤ (List.zipWith lineCost items lines).sum ∧
    ((List.zipWith lineCost items lines).sum ≤ maxSafeInteger →
      List.Forall₂ (fun item line => InRange (priceOf line.1 line.2) ∧
        InRange (priceOf line.1 line.2 * item.quantity)) items lines) := by
  induction h with
  | nil => exact ⟨le_refl _, fun _ => .nil⟩
  | @cons item line items lines hline _ ih =>
      obtain ⟨hquantity, hprice⟩ := hline
      obtain ⟨hrest, hranges⟩ := ih
      have hle : priceOf line.1 line.2 ≤ lineCost item line := by
        unfold lineCost
        nlinarith
      rw [List.zipWith_cons_cons, List.sum_cons]
      constructor
      · omega
      · intro hmax
        have hcost : lineCost item line ≤ maxSafeInteger := by omega
        have hlow : 0 ≤ lineCost item line := by omega
        exact .cons ⟨⟨hprice, by omega⟩, hlow, hcost⟩ (hranges (by omega))

end Prices

-- ============================================================================
-- Two services
-- ============================================================================

/-- The lines of a held order and its totals, as `create` and `update` compute them. -/
def holdLines (tenantId : Id) (tenant : Tenant) (items : List CreateTransactionItemDto) :
    Body (List ResolvedItem × Estimates) := do
  let resolved ← resolveItems tenantId items
  let estimates ← Prog.lift (totals resolved tenant)
  pure (resolved, estimates)

/-- The lines of a sale and its totals, as `checkout` computes them before it asks for a
    total above zero. -/
def sellLines (tenantId : Id) (tenant : Tenant) (discount : Int)
    (items : List CreateTransactionItemDto) : Body (List ValidatedItem × Totals) := do
  let catalog ← loadCatalog tenantId items
  let validated ← Prog.lift (validateItems catalog items)
  let totals ← Prog.lift (priceTotals tenant discount validated)
  pure (validated, totals)

/-- `create` of held orders, in these terms. -/
theorem createBody_eq (user : JwtPayload) (input : CreateHeldOrderDto) :
    HeldOrders.createBody user input = (do
      let x ← Prog.lift (prepareCreate user input)
      let y ← authorizeWrite x.1 x.2.outletId x.2.cashierSessionId
      let lines ← holdLines x.1.tenantId y.1 x.2.items
      ensure (fitsVarchar 100 (label x.2.label)) (.prisma .other)
      let order ← insert (orderRow x.1 x.2 lines.2) Db.addHeldOrder
      persistItems x.1.tenantId order.id lines.1
      let created ← findRecord x.1.tenantId order.id
        (resourceConflict "Held order changed during creation")
      pure { record := created, actorRole := some y.2.role }) := by
  unfold HeldOrders.createBody holdLines
  simp only [Prog.bind_assoc, Prog.pure_eq, Prog.ret_bind]

theorem lift_bind {α β : Type} (x : Except Exc α) (f : α → Except Exc β) :
    (Prog.lift (x >>= f) : Body β) = Prog.lift x >>= fun a => Prog.lift (f a) := by
  cases x with
  | ok a => rfl
  | error e => rfl

/-- The prices of a sale, in these terms. -/
theorem priceSale_eq (tx : TransactionClient) (user : JwtPayload) (dto : CheckoutDto)
    (mode : CheckoutMode) (actor : User) (tenant : Tenant) :
    priceSale tx user dto mode actor tenant = (do
      checkSession tx user dto mode
      checkParties user actor dto
      let lines ← sellLines user.tenantId tenant (dto.discount.getD 0) dto.items
      let totals ← Prog.lift (if lines.2.total ≤ 0 then
        .error (.plain .badRequest "Transaction total must be positive") else .ok lines.2)
      let tender ← Prog.lift (checkTender dto.payment totals.total)
      pure (lines.1, totals, tender)) := by
  unfold priceSale sellLines checkoutTotals
  simp only [Prog.bind_assoc, Prog.pure_eq, Prog.ret_bind, lift_bind]

/-- The catalog allows the lines, and no amount exceeds the range of a number. -/
structure Allowed (c : Catalog) (tenantId : Id) (tenant : Tenant)
    (items : List CreateTransactionItemDto) (lines : List (Product × List ResolvedOption)) : Prop where
  each : List.Forall₂ (LineIn c tenantId) items lines
  subtotal : (List.zipWith lineCost items lines).sum ≤ maxSafeInteger
  total : (calculateTax tenant.taxEnabled tenant.taxRate (List.zipWith lineCost items lines).sum).total ≤
    maxSafeInteger

/-- What an order of these lines is estimated at. -/
def estimatesOf (tenant : Tenant) (items : List CreateTransactionItemDto)
    (lines : List (Product × List ResolvedOption)) : Estimates :=
  let subtotal := (List.zipWith lineCost items lines).sum
  let taxed := calculateTax tenant.taxEnabled tenant.taxRate subtotal
  { subtotalEstimate := subtotal, taxEstimate := taxed.tax, totalEstimate := taxed.total }

/-- What a sale of these lines comes to, without discount. -/
def totalsOf (tenant : Tenant) (items : List CreateTransactionItemDto)
    (lines : List (Product × List ResolvedOption)) : Totals :=
  let subtotal := (List.zipWith lineCost items lines).sum
  let taxed := calculateTax tenant.taxEnabled tenant.taxRate subtotal
  { subtotal, discount := 0, tax := taxed.tax, total := taxed.total }

/-- The amounts of an order or a sale. -/
def amountsOf (tenant : Tenant) (items : List CreateTransactionItemDto)
    (lines : List (Product × List ResolvedOption)) : List Int :=
  let subtotal := (List.zipWith lineCost items lines).sum
  let taxed := calculateTax tenant.taxEnabled tenant.taxRate subtotal
  [subtotal, taxed.tax, taxed.total]

section Totals

variable {tenant : Tenant} {items : List CreateTransactionItemDto}
  {lines : List (Product × List ResolvedOption)}

theorem totals_heldLines {x : Estimates} :
    totals (List.zipWith heldLine items lines) tenant = .ok x ↔
      (∀ v ∈ amountsOf tenant items lines, InRange v) ∧ x = estimatesOf tenant items lines := by
  unfold totals
  rw [sum_heldLines]
  dsimp only
  rw [Checked.then_ok, Checked.forM_ok]
  exact and_congr (forall₂_congr fun v _ => HeldOrders.money_ok)
    ⟨fun h => (Except.ok.inj h).symm, fun h => congrArg Except.ok h.symm⟩

theorem priceTotals_saleLines (hnonneg : 0 ≤ (List.zipWith lineCost items lines).sum) {x : Totals} :
    priceTotals tenant 0 (List.zipWith saleLine items lines) = .ok x ↔
      (∀ v ∈ amountsOf tenant items lines, InRange v) ∧ x = totalsOf tenant items lines := by
  unfold priceTotals
  rw [sum_saleLines]
  dsimp only
  rw [if_neg (by omega), sub_zero, Checked.then_ok, Transactions.moneys_ok]
  exact and_congr_right fun _ => ⟨fun h => (Except.ok.inj h).symm, fun h => congrArg Except.ok h.symm⟩

/-- Tax adds, so the first and the last amount bound them all. -/
theorem amounts_inRange (hnonneg : 0 ≤ (List.zipWith lineCost items lines).sum) :
    (∀ v ∈ amountsOf tenant items lines, InRange v) ↔
      (List.zipWith lineCost items lines).sum ≤ maxSafeInteger ∧
      (calculateTax tenant.taxEnabled tenant.taxRate
        (List.zipWith lineCost items lines).sum).total ≤ maxSafeInteger := by
  have htax := calculateTax_nonneg tenant.taxEnabled tenant.taxRate hnonneg
  have hsum := calculateTax_total tenant.taxEnabled tenant.taxRate
    (List.zipWith lineCost items lines).sum
  unfold amountsOf InRange
  dsimp only
  constructor
  · intro h
    have hfirst := h _ (List.mem_cons_self ..)
    have hlast := h _ (List.mem_cons_of_mem _ (List.mem_cons_of_mem _ (List.mem_cons_self ..)))
    exact ⟨hfirst.2, hlast.2⟩
  · rintro ⟨hfirst, hlast⟩ v hv
    rcases List.mem_cons.mp hv with rfl | hv
    · omega
    rcases List.mem_cons.mp hv with rfl | hv
    · omega
    · rw [List.mem_singleton.mp hv]
      omega

end Totals

section Agree

variable {db : Db} {tenantId : Id} {tenant : Tenant} {items : List CreateTransactionItemDto}
  {lines : List (Product × List ResolvedOption)} (hlegal : db.legal = true)
include hlegal

/-- A line that is allowed has a price. -/
theorem LineIn.price_nonneg {item : CreateTransactionItemDto} {line : Product × List ResolvedOption}
    (h : LineIn db.catalog tenantId item line) : 0 ≤ priceOf line.1 line.2 := by
  have hok : LineOk (heldCatalog tenantId [item] db) item line.1 line.2 :=
    (lineOk_heldCatalog hlegal (List.mem_singleton.mpr rfl)).mpr h
  exact hok.price_nonneg

theorem Allowed.costs (hpos : ∀ item ∈ items, 1 ≤ item.quantity)
    (h : List.Forall₂ (LineIn db.catalog tenantId) items lines) :
    0 ≤ (List.zipWith lineCost items lines).sum ∧
    ((List.zipWith lineCost items lines).sum ≤ maxSafeInteger →
      List.Forall₂ (fun item line => InRange (priceOf line.1 line.2) ∧
        InRange (priceOf line.1 line.2 * item.quantity)) items lines) :=
  costs_inRange (forall₂_imp_mem h fun item _ hitem _ hline =>
    ⟨hpos item hitem, hline.price_nonneg hlegal⟩)

theorem Allowed.found (h : List.Forall₂ (LineIn db.catalog tenantId) items lines) :
    allFound tenantId items db = true := by
  apply allFound_of_products hlegal
  intro item hitem
  obtain ⟨line, -, hline⟩ := forall₂_mem_right h.flip item hitem
  exact ⟨line.1, hline.product⟩

variable (hok : db.catalog.Ok)
include hok

/-- Lines are held exactly if they are allowed. -/
theorem resolveLines_iff (hpos : ∀ item ∈ items, 1 ≤ item.quantity)
    {x : List ResolvedItem × Estimates} :
    (resolveLines (heldCatalog tenantId items db) items >>= fun resolved =>
      totals resolved tenant >>= fun estimates => .ok (resolved, estimates)) = .ok x ↔
      ∃ lines, Allowed db.catalog tenantId tenant items lines ∧
        x = (List.zipWith heldLine items lines, estimatesOf tenant items lines) := by
  constructor
  · intro h
    obtain ⟨resolved, hresolved, h⟩ := Checked.bind_ok.mp h
    obtain ⟨estimates, htotals, hx⟩ := Checked.bind_ok.mp h
    have hsplit : List.Forall₂ (fun item r => ∃ line, LineIn db.catalog tenantId item line ∧
        r = heldLine item line) items resolved := by
      refine forall₂_imp_mem (Checked.mapM_ok.mp hresolved) fun item r hitem _ hr => ?_
      obtain ⟨product, options, hline, -, -, -, rfl⟩ := HeldOrders.resolveItem_ok.mp hr
      exact ⟨(product, options), (lineOk_heldCatalog hlegal hitem).mp hline, rfl⟩
    obtain ⟨lines, hlines, rfl⟩ := forall₂_exists.mp hsplit
    obtain ⟨hnonneg, -⟩ := Allowed.costs hlegal hpos hlines
    obtain ⟨hrange, rfl⟩ := totals_heldLines.mp htotals
    obtain ⟨hsubtotal, htotal⟩ := (amounts_inRange hnonneg).mp hrange
    exact ⟨lines, ⟨hlines, hsubtotal, htotal⟩, (Except.ok.inj hx).symm⟩
  · rintro ⟨lines, hallowed, rfl⟩
    obtain ⟨hnonneg, hranges⟩ := Allowed.costs hlegal hpos hallowed.each
    have hresolved : resolveLines (heldCatalog tenantId items db) items =
        .ok (List.zipWith heldLine items lines) := by
      refine Checked.mapM_ok.mpr (forall₂_imp_mem (forall₂_exists.mpr
        ⟨lines, forall₂_and hallowed.each (hranges hallowed.subtotal), rfl⟩) fun item r hitem _ hr => ?_)
      obtain ⟨line, ⟨hline, hprice, hcost⟩, rfl⟩ := hr
      refine HeldOrders.resolveItem_ok.mpr ⟨line.1, line.2, (lineOk_heldCatalog hlegal hitem).mpr hline,
        fun la hla => ?_, hprice, hcost, rfl⟩
      obtain ⟨a, g, hag, rfl⟩ :=
        (mem_assignmentsOf hlegal rfl (mem_uniqueProductIds hitem)).mp hla
      exact hok.noRequiredMultiple a hag.assignment
    have htotals : totals (List.zipWith heldLine items lines) tenant =
        .ok (estimatesOf tenant items lines) :=
      totals_heldLines.mpr ⟨(amounts_inRange hnonneg).mpr ⟨hallowed.subtotal, hallowed.total⟩, rfl⟩
    rw [hresolved]
    show (totals (List.zipWith heldLine items lines) tenant >>= _) = _
    rw [htotals]
    rfl

/-- Lines are sold exactly if they are allowed. -/
theorem validateItems_iff (hpos : ∀ item ∈ items, 1 ≤ item.quantity)
    {x : List ValidatedItem × Totals} :
    (validateItems (saleCatalog tenantId items db) items >>= fun validated =>
      priceTotals tenant 0 validated >>= fun totals => .ok (validated, totals)) = .ok x ↔
      ∃ lines, Allowed db.catalog tenantId tenant items lines ∧
        x = (List.zipWith saleLine items lines, totalsOf tenant items lines) := by
  constructor
  · intro h
    obtain ⟨validated, hvalidated, h⟩ := Checked.bind_ok.mp h
    obtain ⟨total, htotals, hx⟩ := Checked.bind_ok.mp h
    have hsplit : List.Forall₂ (fun item v => ∃ line, LineIn db.catalog tenantId item line ∧
        v = saleLine item line) items validated := by
      refine forall₂_imp_mem (Checked.mapM_ok.mp hvalidated) fun item v hitem _ hv => ?_
      obtain ⟨product, options, hline, rfl⟩ := Transactions.validateItem_ok hv
      exact ⟨(product, options), (lineOk_saleCatalog hlegal hitem).mp hline, rfl⟩
    obtain ⟨lines, hlines, rfl⟩ := forall₂_exists.mp hsplit
    obtain ⟨hnonneg, -⟩ := Allowed.costs hlegal hpos hlines
    obtain ⟨hrange, rfl⟩ := (priceTotals_saleLines hnonneg).mp htotals
    obtain ⟨hsubtotal, htotal⟩ := (amounts_inRange hnonneg).mp hrange
    exact ⟨lines, ⟨hlines, hsubtotal, htotal⟩, (Except.ok.inj hx).symm⟩
  · rintro ⟨lines, hallowed, rfl⟩
    obtain ⟨hnonneg, -⟩ := Allowed.costs hlegal hpos hallowed.each
    have hvalidated : validateItems (saleCatalog tenantId items db) items =
        .ok (List.zipWith saleLine items lines) := by
      refine Checked.mapM_ok.mpr (forall₂_imp_mem (forall₂_exists.mpr
        ⟨lines, hallowed.each, rfl⟩) fun item v hitem _ hv => ?_)
      obtain ⟨line, hline, rfl⟩ := hv
      exact Transactions.validateItem_of_lineOk (sellable_saleCatalog hlegal hok)
        ((lineOk_saleCatalog hlegal hitem).mpr hline)
    have htotals : priceTotals tenant 0 (List.zipWith saleLine items lines) =
        .ok (totalsOf tenant items lines) :=
      (priceTotals_saleLines hnonneg).mpr
        ⟨(amounts_inRange hnonneg).mpr ⟨hallowed.subtotal, hallowed.total⟩, rfl⟩
    rw [hvalidated]
    show (priceTotals tenant 0 (List.zipWith saleLine items lines) >>= _) = _
    rw [htotals]
    rfl

end Agree

-- ============================================================================
-- They agree
-- ============================================================================

/-- The lines and amounts of a held order are those of a sale. -/
structure SameAmounts (held : List ResolvedItem × Estimates) (sold : List ValidatedItem × Totals) :
    Prop where
  lines : List.Forall₂ (fun (r : ResolvedItem) (v : ValidatedItem) =>
    r.product = v.product ∧ r.options = v.options ∧ r.quantity = v.quantity ∧
    r.effectivePrice = v.effectivePrice ∧ r.lineTotal = v.lineSubtotal) held.1 sold.1
  subtotal : held.2.subtotalEstimate = sold.2.subtotal
  tax : held.2.taxEstimate = sold.2.tax
  total : held.2.totalEstimate = sold.2.total

section Reached

variable {tenantId : Id} {tenant : Tenant}

/-- An option is offered in one way. -/
theorem Offered.unique {db : Db} (hlegal : db.legal = true) {productId id : Id}
    {o o' : ResolvedOption} (h : Offered db.catalog tenantId productId id o)
    (h' : Offered db.catalog tenantId productId id o') : o = o' := by
  obtain ⟨option, hmem, a, g, hag, hid, -, -, hgroup, rfl⟩ := h
  obtain ⟨option', hmem', a', g', hag', hid', -, -, hgroup', rfl⟩ := h'
  obtain rfl := eq_of_key (legal_modifierOptions hlegal) hmem hmem' (hid.trans hid'.symm)
  obtain rfl := eq_of_key (legal_modifierGroups hlegal) hag.group hag'.group
    (hgroup.symm.trans hgroup')
  rfl

/-- A catalog allows a line in one way. -/
theorem LineIn.unique {db : Db} (hlegal : db.legal = true) {item : CreateTransactionItemDto}
    {line line' : Product × List ResolvedOption} (h : LineIn db.catalog tenantId item line)
    (h' : LineIn db.catalog tenantId item line') : line = line' := by
  have hproduct : line.1 = line'.1 := eq_of_key (legal_products hlegal) h.product.1 h'.product.1
    (h.product.2.1.trans h'.product.2.1.symm)
  have hoptions : line.2 = line'.2 := by
    have hright : List.Forall₂ (Offered db.catalog tenantId item.productId)
      (item.modifierOptionIds.getD []) line'.2 := h'.options
    have hleft := h.options
    generalize item.modifierOptionIds.getD [] = ids at hleft hright
    generalize line.2 = os at hleft ⊢
    generalize line'.2 = os' at hright ⊢
    induction hleft generalizing os' with
    | nil =>
        cases hright
        rfl
    | cons ho _ ih =>
        cases hright with
        | cons ho' hrest => rw [ho.unique hlegal ho', ih _ hrest]
  exact Prod.ext hproduct hoptions

theorem Allowed.unique {db : Db} (hlegal : db.legal = true) {items : List CreateTransactionItemDto}
    {lines lines' : List (Product × List ResolvedOption)}
    (h : Allowed db.catalog tenantId tenant items lines)
    (h' : Allowed db.catalog tenantId tenant items lines') : lines = lines' := by
  have hleft := h.each
  have hright := h'.each
  clear h h'
  induction hleft generalizing lines' with
  | nil =>
      cases hright
      rfl
  | cons hline _ ih =>
      cases hright with
      | cons hline' hrest => rw [hline.unique hlegal hline', ih hrest]

theorem sameAmounts (items : List CreateTransactionItemDto)
    (lines : List (Product × List ResolvedOption)) :
    SameAmounts (List.zipWith heldLine items lines, estimatesOf tenant items lines)
      (List.zipWith saleLine items lines, totalsOf tenant items lines) where
  lines := by
    induction items generalizing lines with
    | nil => exact .nil
    | cons item items ih =>
        cases lines with
        | nil => exact .nil
        | cons line lines => exact .cons ⟨rfl, rfl, rfl, rfl, rfl⟩ (ih lines)
  subtotal := rfl
  tax := rfl
  total := rfl

/-- A check that the rest implies decides nothing. -/
theorem guarded_iff {α β : Type} {c : Bool} {e : Exc} {p : Except Exc α} {f : α → Except Exc β}
    {x : β} {P : Prop} (hrest : (p >>= f) = .ok x ↔ P) (hguard : P → c = true) :
    ((Checked.guard c e >>= fun _ => p) >>= f) = .ok x ↔ P := by
  rw [bind_assoc, Checked.then_ok, Checked.guard_ok, hrest]
  exact ⟨And.right, fun h => ⟨hguard h, h⟩⟩

section State

variable {db : Db} (hlegal : db.legal = true) (hok : db.catalog.Ok) {envs : Nat → Env} {n : Nat}
include hlegal hok

/-- What `holdLines` accepts, and with which lines and estimates. -/
theorem holdLines_iff {raw : List CreateTransactionItemDto} (hpos : ∀ item ∈ raw, 1 ≤ item.quantity)
    {x : List ResolvedItem × Estimates} :
    ((holdLines tenantId tenant raw).solo db envs n id).result = .ok x ↔
      ∃ lines, Allowed db.catalog tenantId tenant (raw.map CreateTransactionItemDto.normalized) lines ∧
        x = (List.zipWith heldLine (raw.map CreateTransactionItemDto.normalized) lines,
          estimatesOf tenant (raw.map CreateTransactionItemDto.normalized) lines) := by
  have hnormal : ∀ item ∈ raw.map CreateTransactionItemDto.normalized, 1 ≤ item.quantity := by
    intro item hitem
    obtain ⟨i, hi, rfl⟩ := List.mem_map.mp hitem
    exact hpos i hi
  have hanswers : (holdLines tenantId tenant raw).Answers db _ :=
    (resolveItems_answers raw).bind fun resolved =>
      (Prog.answers_lift (totals resolved tenant)).bind fun estimates => Prog.answers_ret (resolved, estimates)
  rw [hanswers.2 envs n]
  apply guarded_iff (resolveLines_iff hlegal hok hnormal)
  rintro ⟨lines, hallowed, -⟩
  exact Allowed.found hlegal hallowed.each

/-- What `sellLines` accepts, and with which lines and totals. -/
theorem sellLines_iff {items : List CreateTransactionItemDto} (hpos : ∀ item ∈ items, 1 ≤ item.quantity)
    {x : List ValidatedItem × Totals} :
    ((sellLines tenantId tenant 0 items).solo db envs n id).result = .ok x ↔
      ∃ lines, Allowed db.catalog tenantId tenant items lines ∧
        x = (List.zipWith saleLine items lines, totalsOf tenant items lines) := by
  have hanswers : (sellLines tenantId tenant 0 items).Answers db _ :=
    (loadCatalog_answers items).bind fun catalog =>
      (Prog.answers_lift (validateItems catalog items)).bind fun validated =>
        (Prog.answers_lift (priceTotals tenant 0 validated)).bind
          fun totals => Prog.answers_ret (validated, totals)
  have hrest : ((Except.ok (saleCatalog tenantId items db) : Except Exc LoadedCatalog) >>= fun catalog =>
      validateItems catalog items >>= fun validated => priceTotals tenant 0 validated >>= fun totals =>
        .ok (validated, totals)) = .ok x ↔ _ := validateItems_iff hlegal hok hpos
  rw [hanswers.2 envs n]
  apply guarded_iff hrest
  rintro ⟨lines, hallowed, -⟩
  exact Allowed.found hlegal hallowed.each

end State

/-- **Holding and selling agree.**  In every state that calls can lead to, the lines of a
    request are held exactly if they can be sold without a discount, which is exactly if the
    catalog allows them and no amount leaves the range of a number; and then every line has
    the same product, options and price, and the totals are the same. -/
theorem hold_and_sell_agree {db0 : Db} {σ : State} (h0 : Wf db0) (hok0 : db0.catalog.Ok)
    (hreach : kasir.Reach db0 σ) (tenantId : Id) (tenant : Tenant)
    (raw items : List CreateTransactionItemDto)
    (hitems : items = raw.map CreateTransactionItemDto.normalized)
    (hvalid : ∀ item ∈ raw, item.valid = true) (envs envs' : Nat → Env) (n n' : Nat)
    (held : Except Exc (List ResolvedItem × Estimates))
    (hheld : held = ((holdLines tenantId tenant raw).solo σ.db envs n id).result)
    (sold : Except Exc (List ValidatedItem × Totals))
    (hsold : sold = ((sellLines tenantId tenant 0 items).solo σ.db envs' n' id).result) :
    ((∃ x, held = .ok x) ↔ ∃ lines, Allowed σ.db.catalog tenantId tenant items lines) ∧
    ((∃ y, sold = .ok y) ↔ ∃ lines, Allowed σ.db.catalog tenantId tenant items lines) ∧
    ∀ x y, held = .ok x → sold = .ok y → SameAmounts x y := by
  have hsound := reach_sound h0 hreach
  have hok : σ.db.catalog.Ok := hsound.invariant (fun db => db.catalog.Ok) hok0
    fun _ hcommit hok => hcommit.post.catalog_ok hok
  have hlegal : σ.db.legal = true := hsound.inv.legal
  have hpos : ∀ item ∈ raw, 1 ≤ item.quantity := by
    intro item hitem
    have h := hvalid item hitem
    unfold CreateTransactionItemDto.valid at h
    simp only [Bool.and_eq_true, decide_eq_true_eq] at h
    exact h.1.1.1.2
  have hpos' : ∀ item ∈ items, 1 ≤ item.quantity := by
    intro item hitem
    rw [hitems] at hitem
    obtain ⟨i, hi, rfl⟩ := List.mem_map.mp hitem
    exact hpos i hi
  have hhold : ∀ x, held = .ok x ↔ ∃ lines, Allowed σ.db.catalog tenantId tenant items lines ∧
      x = (List.zipWith heldLine items lines, estimatesOf tenant items lines) := by
    intro x
    rw [hheld, hitems]
    exact holdLines_iff hlegal hok hpos
  have hsell : ∀ y, sold = .ok y ↔ ∃ lines, Allowed σ.db.catalog tenantId tenant items lines ∧
      y = (List.zipWith saleLine items lines, totalsOf tenant items lines) := by
    intro y
    rw [hsold]
    exact sellLines_iff hlegal hok hpos'
  refine ⟨⟨?_, ?_⟩, ⟨?_, ?_⟩, ?_⟩
  · rintro ⟨x, hx⟩
    obtain ⟨lines, hallowed, -⟩ := (hhold x).mp hx
    exact ⟨lines, hallowed⟩
  · rintro ⟨lines, hallowed⟩
    exact ⟨_, (hhold _).mpr ⟨lines, hallowed, rfl⟩⟩
  · rintro ⟨y, hy⟩
    obtain ⟨lines, hallowed, -⟩ := (hsell y).mp hy
    exact ⟨lines, hallowed⟩
  · rintro ⟨lines, hallowed⟩
    exact ⟨_, (hsell _).mpr ⟨lines, hallowed, rfl⟩⟩
  · intro x y hx hy
    obtain ⟨lines, hallowed, rfl⟩ := (hhold x).mp hx
    obtain ⟨lines', hallowed', rfl⟩ := (hsell y).mp hy
    obtain rfl := hallowed.unique hlegal hallowed'
    exact sameAmounts items lines

end Reached

namespace Shop

/-- Ten per cent is a rate. -/
theorem tenPercent : 1000 ≤ 10000 := by omega

/-- The tenant of the shop. -/
def tenantRow : Tenant :=
  { id := tenant, isActive := true, taxEnabled := true, taxRate := ⟨1000, tenPercent⟩ }

theorem cafe_catalogOk : cafe.catalog.Ok where
  noRequiredMultiple := by decide +kernel
  groupNames := by decide +kernel

/-- The order, as it is held and sold. -/
def orderHeld (db : Db) : Except Exc (List ResolvedItem × Estimates) :=
  ((holdLines tenant tenantRow order).solo db (envs 2) 0 id).result

def orderSold (db : Db) : Except Exc (List ValidatedItem × Totals) :=
  ((sellLines tenant tenantRow 0 (order.map CreateTransactionItemDto.normalized)).solo db
    (envs 3) 0 id).result

end Shop

/-- After the owner has changed the price of an option and the order has been sold, it can be
    held and sold once more, for the same. -/
theorem hold_and_sell_agree_shop : ∃ (σ : State) (x : List ResolvedItem × Estimates)
    (y : List ValidatedItem × Totals), kasir.Reach Shop.cafe σ ∧
    σ.db.sales.transactions.length = 1 ∧ Shop.orderHeld σ.db = .ok x ∧ Shop.orderSold σ.db = .ok y ∧
    x.2.totalEstimate = 2860 ∧ SameAmounts x y := by
  obtain ⟨σ, -, hrun, hp, -⟩ := Shop.runFrom noMarks Shop.cafe Shop.cafeCalls
    (fun _ after => decide (after.sales.transactions.length = 1) &&
      decide ((Shop.orderHeld after).map (fun x => x.2.totalEstimate) = .ok 2860))
    (by decide +kernel)
  rw [Bool.and_eq_true, decide_eq_true_eq, decide_eq_true_eq] at hp
  obtain ⟨hsales, hmap⟩ := hp
  obtain ⟨hheld, hsold, hsame⟩ := hold_and_sell_agree Shop.cafe_wf Shop.cafe_catalogOk hrun.reach
    Shop.tenant Shop.tenantRow Shop.order (Shop.order.map CreateTransactionItemDto.normalized) rfl
    (by decide +kernel) (Shop.envs 2) (Shop.envs 3) 0 0 (Shop.orderHeld σ.db) rfl (Shop.orderSold σ.db) rfl
  cases hx : Shop.orderHeld σ.db with
  | error e =>
      rw [hx] at hmap
      cases hmap
  | ok x =>
      rw [hx] at hmap
      obtain ⟨y, hy⟩ := hsold.mpr (hheld.mp ⟨x, hx⟩)
      exact ⟨σ, x, y, hrun.reach, hsales, hx, hy, Except.ok.inj hmap, hsame x y hx hy⟩

end Kasir
