/-
  Kasir.Lines

  What an accepted line is, in either service.

  Holding an order and selling resolve lines with code of their own.  Both accept a
  line of a loaded catalog for the same reason, `LineOk`, and make the same price of
  it; they differ in the errors, and in the checks that the catalog services make
  redundant.
-/

import Kasir.HeldOrders.Pricing
import Mathlib.Algebra.Order.BigOperators.Group.List

namespace Kasir

open Txn Transactions HeldOrders

-- ============================================================================
-- Lists that correspond
-- ============================================================================

section Forall₂

variable {α β γ : Type} {R : α → β → Prop} {xs : List α} {ys : List β}

/-- What related elements agree on, related lists agree on. -/
theorem map_eq_of_forall₂ {f : α → γ} {g : β → γ} (h : List.Forall₂ R xs ys)
    (hfg : ∀ x y, R x y → f x = g y) : xs.map f = ys.map g := by
  rw [← List.forall₂_eq_eq_eq, List.forall₂_map_left_iff, List.forall₂_map_right_iff]
  exact h.imp hfg

/-- Related elements are at the same place. -/
theorem forall₂_zipIdx (h : List.Forall₂ R xs ys) (n : Nat) :
    List.Forall₂ (fun x y => R x.1 y.1 ∧ x.2 = y.2) (xs.zipIdx n) (ys.zipIdx n) := by
  induction h generalizing n with
  | nil => exact .nil
  | cons hxy _ ih =>
      rw [List.zipIdx_cons, List.zipIdx_cons]
      exact .cons ⟨hxy, rfl⟩ (ih (n + 1))

/-- Lists related to one list are related. -/
theorem forall₂_comp {S : β → γ → Prop} {T : α → γ → Prop} {zs : List γ}
    (h : List.Forall₂ R xs ys) (h' : List.Forall₂ S ys zs)
    (hT : ∀ x y z, R x y → S y z → T x z) : List.Forall₂ T xs zs := by
  induction h generalizing zs with
  | nil =>
      rw [List.forall₂_nil_left_iff.mp h']
      exact .nil
  | cons hxy _ ih =>
      obtain ⟨z, zs, hyz, hrest, rfl⟩ := List.forall₂_cons_left_iff.mp h'
      exact .cons (hT _ _ _ hxy hyz) (ih hrest)

end Forall₂

-- ============================================================================
-- Amounts
-- ============================================================================

/-- An amount in range passes `money`, of either service. -/
def InRange (value : Int) : Prop := 0 ≤ value ∧ value ≤ maxSafeInteger

theorem not_out_of_range {value : Int} :
    ¬ (value < 0 ∨ maxSafeInteger < value) ↔ InRange value := by
  rw [InRange, not_or, not_lt, not_lt]

theorem HeldOrders.money_ok {value : Int} : HeldOrders.money value = .ok () ↔ InRange value := by
  rw [← not_out_of_range, HeldOrders.money]
  split
  · exact ⟨fun h => (nomatch h), fun h => absurd ‹_› h⟩
  · exact ⟨fun _ => ‹_›, fun _ => rfl⟩

theorem Transactions.moneys_ok {values : List Int} :
    moneys values = .ok () ↔ ∀ v ∈ values, InRange v := by
  rw [moneys, Checked.forM_ok]
  refine forall₂_congr fun v _ => ?_
  rw [← not_out_of_range, Checked.bind_ok, Transactions.money]
  split
  · exact ⟨fun ⟨_, h, _⟩ => (nomatch h), fun h => absurd ‹_› h⟩
  · exact ⟨fun _ => ‹_›, fun _ => ⟨v, rfl, rfl⟩⟩

-- ============================================================================
-- Options
-- ============================================================================

/-- The option of a line with this identifier, as the loaded rows show it. -/
def OptionOf (options : List ModifierOption) (itemAssignments : List LoadedAssignment) (id : Id)
    (o : ResolvedOption) : Prop :=
  ∃ option ∈ options.find? (fun o => o.id == id),
    ∃ a ∈ itemAssignments.find? (fun a => a.modifierGroupId == option.modifierGroupId),
      o = { id := option.id, modifierGroupId := option.modifierGroupId
            groupName := a.groupName, optionName := option.name, priceDelta := option.priceDelta }

section OptionOf

variable {options : List ModifierOption} {itemAssignments : List LoadedAssignment} {id : Id}
  {o : ResolvedOption}

theorem OptionOf.id_eq (h : OptionOf options itemAssignments id o) : o.id = id := by
  obtain ⟨option, hoption, a, -, rfl⟩ := h
  exact beq_iff_eq.mp (List.find?_some (p := fun o : ModifierOption => o.id == id) hoption)

/-- No option lowers the price. -/
theorem OptionOf.priceDelta_nonneg (h : OptionOf options itemAssignments id o) :
    0 ≤ o.priceDelta := by
  obtain ⟨option, -, a, -, rfl⟩ := h
  exact option.priceDelta_nonneg

theorem HeldOrders.resolveOption_ok :
    HeldOrders.resolveOption options itemAssignments id = .ok o ↔
      OptionOf options itemAssignments id o := by
  unfold HeldOrders.resolveOption OptionOf
  cases options.find? (fun o => o.id == id) with
  | none => simp
  | some option =>
      simp only [Option.mem_def, Option.some.injEq, exists_eq_left']
      cases itemAssignments.find? (fun a => a.modifierGroupId == option.modifierGroupId) with
      | none => simp
      | some a => simp [eq_comm]

theorem Transactions.resolveOption_ok :
    Transactions.resolveOption options itemAssignments id = .ok o ↔
      OptionOf options itemAssignments id o ∧ o.groupName.isEmpty = false := by
  unfold Transactions.resolveOption OptionOf
  cases options.find? (fun o => o.id == id) with
  | none => simp
  | some option =>
      simp only [Option.mem_def, Option.some.injEq, exists_eq_left']
      cases itemAssignments.find? (fun a => a.modifierGroupId == option.modifierGroupId) with
      | none => simp
      | some a =>
          simp only [Option.some.injEq, exists_eq_left']
          split
          · rename_i hempty
            refine ⟨fun h => (nomatch h), ?_⟩
            rintro ⟨rfl, h⟩
            simp [hempty] at h
          · rename_i hempty
            rw [Except.ok.injEq, eq_comm]
            refine ⟨fun h => ⟨h, ?_⟩, And.left⟩
            rw [h]
            simpa using hempty

end OptionOf

-- ============================================================================
-- The rules of an assignment
-- ============================================================================

/-- A single-selection group gets one option if it is required, and at most one if
    it is not. -/
def SelectionsMet (options : List ResolvedOption) (a : LoadedAssignment) : Prop :=
  a.selectionType = .single →
    if a.required then groupSelections options a.modifierGroupId = 1
    else groupSelections options a.modifierGroupId ≤ 1

/-- The kind of assignment that the catalog services refuse. -/
def Transactions.LoadedAssignment.requiredMultiple (a : LoadedAssignment) : Bool :=
  a.required && a.selectionType == .multiple

section Assignment

variable {options : List ResolvedOption} {a : LoadedAssignment}

theorem HeldOrders.checkAssignment_ok : checkAssignment options a = .ok () ↔
    SelectionsMet options a ∧ a.requiredMultiple = false := by
  unfold checkAssignment SelectionsMet LoadedAssignment.requiredMultiple
  generalize groupSelections options a.modifierGroupId = count
  rcases a with ⟨_, _, _ | _, _ | _, _⟩ <;> simp
  split <;> simp_all

theorem Transactions.checkSelections_ok : checkSelections options a = .ok () ↔
    SelectionsMet options a ∧ a.requiredMultiple = false := by
  unfold checkSelections SelectionsMet LoadedAssignment.requiredMultiple
  generalize groupSelections options a.modifierGroupId = count
  rcases a with ⟨_, _, _ | _, _ | _, _⟩ <;> simp

theorem Transactions.checkNoSelections_ok : checkNoSelections a = .ok () ↔ SelectionsMet [] a := by
  unfold checkNoSelections SelectionsMet
  rcases a with ⟨_, _, _ | _, _ | _, _⟩ <;> simp [groupSelections]

end Assignment

-- ============================================================================
-- Lines
-- ============================================================================

/-- The assignments of a line's product. -/
def assignmentsOf (catalog : LoadedCatalog) (item : CreateTransactionItemDto) :
    List LoadedAssignment :=
  catalog.assignments.filter fun a => a.productId == item.productId

/-- The loaded catalog allows the line, for this product with these options. -/
structure LineOk (catalog : LoadedCatalog) (item : CreateTransactionItemDto) (product : Product)
    (options : List ResolvedOption) : Prop where
  found : catalog.products.find? (fun p => p.id == item.productId) = some product
  chosen : List.Forall₂ (OptionOf catalog.options (assignmentsOf catalog item))
    (item.modifierOptionIds.getD []) options
  selections : ∀ a ∈ assignmentsOf catalog item, SelectionsMet options a

/-- The price of one piece. -/
def priceOf (product : Product) (options : List ResolvedOption) : Int :=
  product.price + (options.map ResolvedOption.priceDelta).sum

section Line

variable {catalog : LoadedCatalog} {item : CreateTransactionItemDto} {product : Product}
  {options : List ResolvedOption}

namespace LineOk

variable (h : LineOk catalog item product options)
include h

theorem productId : product.id = item.productId :=
  beq_iff_eq.mp (List.find?_some (p := fun p : Product => p.id == item.productId) h.found)

theorem optionIds : options.map ResolvedOption.id = item.modifierOptionIds.getD [] := by
  have hids := h.chosen
  clear h
  generalize item.modifierOptionIds.getD [] = ids at hids
  induction hids with
  | nil => rfl
  | cons ho _ ih => rw [List.map_cons, ih, ho.id_eq]

theorem price_nonneg : 0 ≤ priceOf product options := by
  refine add_nonneg product.price_nonneg (List.sum_nonneg fun delta hdelta => ?_)
  obtain ⟨o, ho, rfl⟩ := List.mem_map.mp hdelta
  obtain ⟨k, hk, rfl⟩ := List.mem_iff_getElem.mp ho
  exact (h.chosen.get (h.chosen.length_eq ▸ hk) hk).priceDelta_nonneg

end LineOk

/-- No line is accepted for an assignment that is required and multiple, or whose
    group has no name. -/
structure Sellable (catalog : LoadedCatalog) : Prop where
  noRequiredMultiple : ∀ a ∈ catalog.assignments, a.requiredMultiple = false
  groupNames : ∀ a ∈ catalog.assignments, a.groupName.isEmpty = false

theorem HeldOrders.resolveItem_ok {r : ResolvedItem} :
    resolveItem catalog item = .ok r ↔
      ∃ product options, LineOk catalog item product options ∧
        (∀ a ∈ assignmentsOf catalog item, a.requiredMultiple = false) ∧
        InRange (priceOf product options) ∧ InRange (priceOf product options * item.quantity) ∧
        r = { product, quantity := item.quantity, note := noteOrNull item.note, options
              effectivePrice := priceOf product options } := by
  unfold resolveItem
  cases hp : catalog.products.find? (fun p => p.id == item.productId) with
  | none =>
      refine ⟨fun h => (nomatch h), ?_⟩
      rintro ⟨product, options, h, -⟩
      rw [h.found] at hp
      cases hp
  | some product =>
      simp only [↓Checked.then_ok, Checked.bind_ok, Checked.mapM_ok, Checked.forM_ok,
        HeldOrders.resolveOption_ok, checkAssignment_ok, HeldOrders.money_ok, Except.ok.injEq]
      constructor
      · rintro ⟨options, hoptions, hchecks, hprice, htotal, rfl⟩
        exact ⟨product, options, ⟨hp, hoptions, fun a ha => (hchecks a ha).1⟩,
          fun a ha => (hchecks a ha).2, hprice, htotal, rfl⟩
      · rintro ⟨product', options, h, hmultiple, hprice, htotal, rfl⟩
        obtain rfl := Option.some.inj (hp.symm.trans h.found)
        exact ⟨options, h.chosen, fun a ha => ⟨h.selections a ha, hmultiple a ha⟩, hprice, htotal,
          rfl⟩

/-- What a validated line is. -/
theorem Transactions.resolveOptions_ok (h : resolveOptions catalog item = .ok options) :
    List.Forall₂ (OptionOf catalog.options (assignmentsOf catalog item))
        (item.modifierOptionIds.getD []) options ∧
      ∀ a ∈ assignmentsOf catalog item, SelectionsMet options a := by
  unfold resolveOptions at h
  simp only at h
  split at h
  · simp only [↓Checked.then_ok, Checked.bind_ok, Checked.mapM_ok, Checked.forM_ok,
      Transactions.resolveOption_ok, checkSelections_ok, Except.ok.injEq] at h
    obtain ⟨_, hoptions, hchecks, rfl⟩ := h
    exact ⟨hoptions.imp fun _ _ ho => ho.1, fun a ha => (hchecks a ha).1⟩
  · rename_i hids
    simp only [Checked.then_ok, Checked.forM_ok, checkNoSelections_ok, Except.ok.injEq] at h
    obtain ⟨hchecks, rfl⟩ := h
    have hnil : item.modifierOptionIds.getD [] = [] := by simpa using hids
    rw [hnil]
    exact ⟨.nil, hchecks⟩

theorem Transactions.validateItem_ok {v : ValidatedItem} (h : validateItem catalog item = .ok v) :
    ∃ product options, LineOk catalog item product options ∧
      v = { product, options, effectivePrice := priceOf product options
            quantity := item.quantity, note := item.note } := by
  unfold validateItem at h
  cases hp : catalog.products.find? (fun p => p.id == item.productId) with
  | none =>
      rw [hp] at h
      cases h
  | some product =>
      rw [hp] at h
      obtain ⟨options, hoptions, h⟩ := Checked.bind_ok.mp h
      obtain ⟨hforall, hselections⟩ := resolveOptions_ok hoptions
      exact ⟨product, options, ⟨hp, hforall, hselections⟩, (Except.ok.inj h).symm⟩

/-- In a catalog as its services keep it, nothing else is checked. -/
theorem Transactions.validateItem_of_lineOk (hc : Sellable catalog)
    (h : LineOk catalog item product options) :
    validateItem catalog item = .ok
      { product, options, effectivePrice := priceOf product options
        quantity := item.quantity, note := item.note } := by
  have hmem : ∀ a ∈ assignmentsOf catalog item, a ∈ catalog.assignments :=
    fun a ha => List.mem_of_mem_filter ha
  have hoptions : resolveOptions catalog item = .ok options := by
    unfold resolveOptions
    simp only
    split
    · simp only [↓Checked.then_ok, Checked.bind_ok, Checked.mapM_ok, Checked.forM_ok,
        Transactions.resolveOption_ok, checkSelections_ok, Except.ok.injEq]
      refine ⟨options, h.chosen.imp fun _ o ho => ⟨ho, ?_⟩, fun a ha =>
        ⟨h.selections a ha, hc.noRequiredMultiple a (hmem a ha)⟩, rfl⟩
      obtain ⟨_, -, a, ha, rfl⟩ := ho
      exact hc.groupNames a (hmem a (List.mem_of_find?_eq_some ha))
    · rename_i hids
      have hnil : item.modifierOptionIds.getD [] = [] := by simpa using hids
      have hforall := h.chosen
      rw [hnil, List.forall₂_nil_left_iff] at hforall
      subst hforall
      simp only [Checked.then_ok, Checked.forM_ok, checkNoSelections_ok]
      exact ⟨h.selections, trivial⟩
  unfold validateItem
  rw [h.found]
  simp only [hoptions]
  rfl

end Line

end Kasir
