/-
  Kasir.HeldOrders.Rows

  What the statements of the held-order service do to the rows of one order, and
  that they leave every other order alone.
-/

import Kasir.Ownership
import Kasir.Transactions.Rows

namespace Kasir

open HeldOrders

/-- A line as it is stored: its row and the rows of its options. -/
abbrev HeldLine := HeldOrderItem × List HeldOrderItemModifier

namespace Held

-- ============================================================================
-- Changes
-- ============================================================================

def addOrder (o : HeldOrder) (h : Held) : Held := { h with heldOrders := h.heldOrders ++ [o] }

def changeOrder (id : Id) (row : HeldOrder → HeldOrder) (h : Held) : Held :=
  { h with heldOrders := h.heldOrders.map fun o => if o.id = id then row o else o }

def addLines (lines : List HeldLine) (h : Held) : Held :=
  { h with
    heldOrderItems := h.heldOrderItems ++ lines.map Prod.fst
    heldOrderItemModifiers := h.heldOrderItemModifiers ++ lines.flatMap Prod.snd }

def removeLines (ids : List Id) (h : Held) : Held :=
  { h with
    heldOrderItems := h.heldOrderItems.filter fun i => !ids.contains i.id
    heldOrderItemModifiers :=
      h.heldOrderItemModifiers.filter fun m => !ids.contains m.heldOrderItemId }

@[simp] theorem addLines_nil (h : Held) : h.addLines [] = h := by
  simp [addLines]

/-- The identifiers of the lines of an order. -/
def lineIds (h : Held) (id : Id) : List Id :=
  (h.heldOrderItems.filter fun i => i.heldOrderId == id).map HeldOrderItem.id

/-- The lines are those of the order, and each has its own options. -/
structure LinesFit (tenantId orderId : Id) (lines : List HeldLine) : Prop where
  order : ∀ l ∈ lines, l.1.heldOrderId = orderId ∧ l.1.tenantId = tenantId
  options : ∀ l ∈ lines, ∀ m ∈ l.2, m.heldOrderItemId = l.1.id ∧ m.tenantId = tenantId

/-- The options of a line among those of all lines. -/
theorem filter_flatMap_own {lines : List HeldLine}
    (hown : ∀ l ∈ lines, ∀ m ∈ l.2, m.heldOrderItemId = l.1.id)
    (hnodup : (lines.map fun l => l.1.id).Nodup) {l : HeldLine} (hl : l ∈ lines) :
    (lines.flatMap Prod.snd).filter (fun m => m.heldOrderItemId == l.1.id) = l.2 := by
  induction lines with
  | nil => cases hl
  | cons x lines ih =>
      rw [List.map_cons, List.nodup_cons] at hnodup
      rw [List.flatMap_cons, List.filter_append]
      have hrest : ∀ y ∈ lines, y.1.id ≠ x.1.id := fun y hy heq =>
        hnodup.1 (heq ▸ List.mem_map_of_mem (f := fun l : HeldLine => l.1.id) hy)
      rcases List.mem_cons.mp hl with rfl | hl
      · have hself : l.2.filter (fun m => m.heldOrderItemId == l.1.id) = l.2 :=
          List.filter_eq_self.mpr fun m hm => by simp [hown l (List.mem_cons_self ..) m hm]
        have hother : (lines.flatMap Prod.snd).filter (fun m => m.heldOrderItemId == l.1.id) = [] := by
          refine List.filter_eq_nil_iff.mpr fun m hm heq => ?_
          obtain ⟨y, hy, hm⟩ := List.mem_flatMap.mp hm
          rw [beq_iff_eq, hown y (List.mem_cons_of_mem _ hy) m hm] at heq
          exact hrest y hy heq
        rw [hself, hother, List.append_nil]
      · have hother : x.2.filter (fun m => m.heldOrderItemId == l.1.id) = [] := by
          refine List.filter_eq_nil_iff.mpr fun m hm heq => ?_
          rw [beq_iff_eq, hown x (List.mem_cons_self ..) m hm] at heq
          exact hrest l hl heq.symm
        rw [hother, List.nil_append]
        exact ih (fun y hy => hown y (List.mem_cons_of_mem _ hy)) hnodup.2 hl

section AddLines

variable {h : Held} {tenantId orderId : Id} {lines : List HeldLine}

/-- Lines added to one order are no lines of another. -/
theorem slice_addLines_other (hfit : LinesFit tenantId orderId lines)
    (hfresh : ∀ i ∈ h.heldOrderItems, ∀ l ∈ lines, i.id ≠ l.1.id) {id : Id} (hid : id ≠ orderId) :
    (h.addLines lines).slice id = h.slice id := by
  have hitems : (h.heldOrderItems ++ lines.map Prod.fst).filter (fun i => i.heldOrderId == id) =
      h.heldOrderItems.filter fun i => i.heldOrderId == id := by
    refine Transactions.filter_append_of_none fun i hi => ?_
    obtain ⟨l, hl, rfl⟩ := List.mem_map.mp hi
    simp [(hfit.order l hl).1, Ne.symm hid]
  unfold slice addLines
  simp only [hitems]
  refine congrArg _ (List.map_congr_left fun i hi => ?_)
  refine congrArg _ (Transactions.filter_append_of_none fun m hm => ?_)
  obtain ⟨l, hl, hm⟩ := List.mem_flatMap.mp hm
  simp [(hfit.options l hl m hm).1, Ne.symm (hfresh i (List.mem_of_mem_filter hi) l hl)]

/-- An order without lines gets the lines added. -/
theorem slice_addLines_own (hclosed : h.Closed) (hfit : LinesFit tenantId orderId lines)
    (hfresh : ∀ i ∈ h.heldOrderItems, ∀ l ∈ lines, i.id ≠ l.1.id)
    (hnodup : (lines.map fun l => l.1.id).Nodup)
    (hnone : ∀ i ∈ h.heldOrderItems, i.heldOrderId ≠ orderId) :
    ((h.addLines lines).slice orderId).2 = lines := by
  have hitems : (h.heldOrderItems ++ lines.map Prod.fst).filter
      (fun i => i.heldOrderId == orderId) = lines.map Prod.fst := by
    rw [Transactions.filter_append_of_none_old fun i hi => by simp [hnone i hi]]
    refine List.filter_eq_self.mpr fun i hi => ?_
    obtain ⟨l, hl, rfl⟩ := List.mem_map.mp hi
    simp [(hfit.order l hl).1]
  unfold slice addLines
  simp only [hitems, List.map_map]
  conv_rhs => rw [← List.map_id lines]
  refine List.map_congr_left fun l hl => ?_
  have hold : ∀ m ∈ h.heldOrderItemModifiers, (m.heldOrderItemId == l.1.id) = false := by
    intro m hm
    obtain ⟨i, hi, hown⟩ := hclosed.modifierParent m hm
    simp only [heldModifierOf, Bool.and_eq_true, beq_iff_eq] at hown
    simp [hown.1, hfresh i hi l hl]
  simp only [Function.comp_apply, id_eq]
  rw [Transactions.filter_append_of_none_old hold,
    filter_flatMap_own (fun l hl m hm => (hfit.options l hl m hm).1) hnodup hl]

theorem closed_addLines (hclosed : h.Closed) (hfit : LinesFit tenantId orderId lines)
    {o : HeldOrder} (ho : o ∈ h.heldOrders) (hid : o.id = orderId) (htenant : o.tenantId = tenantId) :
    (h.addLines lines).Closed := by
  refine ⟨fun i hi => ?_, fun m hm => ?_⟩
  · rcases List.mem_append.mp hi with hi | hi
    · exact hclosed.itemParent i hi
    · obtain ⟨l, hl, rfl⟩ := List.mem_map.mp hi
      exact ⟨o, ho, by simp [heldItemOf, (hfit.order l hl).1, (hfit.order l hl).2, hid, htenant]⟩
  · rcases List.mem_append.mp hm with hm | hm
    · obtain ⟨i, hi, hown⟩ := hclosed.modifierParent m hm
      exact ⟨i, List.mem_append_left _ hi, hown⟩
    · obtain ⟨l, hl, hm⟩ := List.mem_flatMap.mp hm
      refine ⟨l.1, List.mem_append_right _ (List.mem_map_of_mem hl), ?_⟩
      simp [heldModifierOf, (hfit.options l hl m hm).1, (hfit.options l hl m hm).2,
        (hfit.order l hl).2]

end AddLines

section RemoveLines

variable {h : Held} {ids : List Id}

theorem closed_removeLines (hclosed : h.Closed) : (h.removeLines ids).Closed := by
  refine ⟨fun i hi => hclosed.itemParent i (List.mem_of_mem_filter hi), fun m hm => ?_⟩
  obtain ⟨hm, hkeep⟩ := List.mem_filter.mp hm
  obtain ⟨i, hi, hown⟩ := hclosed.modifierParent m hm
  refine ⟨i, List.mem_filter.mpr ⟨hi, ?_⟩, hown⟩
  simp only [heldModifierOf, Bool.and_eq_true, beq_iff_eq] at hown
  rw [← hown.1]
  exact hkeep

/-- The lines removed are all lines of one order. -/
theorem slice_removeLines_other {orderId id : Id} (hnodup : (h.heldOrderItems.map HeldOrderItem.id).Nodup)
    (hid : id ≠ orderId) : (h.removeLines (h.lineIds orderId)).slice id = h.slice id := by
  -- a line of another order is not removed
  have hkeep : ∀ i ∈ h.heldOrderItems, i.heldOrderId = id →
      i.id ∉ h.lineIds orderId := by
    intro i hi hown hmem
    obtain ⟨j, hj, heq⟩ := List.mem_map.mp hmem
    obtain ⟨hj, hown'⟩ := List.mem_filter.mp hj
    have hij : j = i := eq_of_key hnodup hj hi heq
    subst hij
    exact hid (hown.symm.trans (beq_iff_eq.mp hown'))
  have hitems : (h.removeLines (h.lineIds orderId)).heldOrderItems.filter
      (fun i => i.heldOrderId == id) = h.heldOrderItems.filter fun i => i.heldOrderId == id := by
    simp only [removeLines, List.filter_filter]
    refine List.filter_congr fun i hi => ?_
    by_cases hown : i.heldOrderId = id
    · simp [hown, hkeep i hi hown]
    · simp [hown]
  unfold slice
  rw [hitems]
  refine congrArg _ (List.map_congr_left fun i hi => congrArg _ ?_)
  obtain ⟨hi, hown⟩ := List.mem_filter.mp hi
  simp only [removeLines, List.filter_filter]
  refine List.filter_congr fun m _ => ?_
  by_cases hm : m.heldOrderItemId = i.id
  · simp [hm, hkeep i hi (beq_iff_eq.mp hown)]
  · simp [hm]

theorem no_line_of_removed {orderId : Id} :
    ∀ i ∈ (h.removeLines (h.lineIds orderId)).heldOrderItems, i.heldOrderId ≠ orderId := by
  intro i hi hown
  obtain ⟨hi, hkeep⟩ := List.mem_filter.mp hi
  have hmem : i.id ∈ h.lineIds orderId :=
    List.mem_map_of_mem (List.mem_filter.mpr ⟨hi, by simp [hown]⟩)
  rw [List.contains_eq_mem, decide_eq_true hmem] at hkeep
  cases hkeep

end RemoveLines

-- ============================================================================
-- One order is edited
-- ============================================================================

/-- The row of an order is changed, and its lines are replaced if there are new
    ones. -/
def edit (orderId : Id) (row : HeldOrder → HeldOrder) (lines : Option (List HeldLine)) (h : Held) :
    Held :=
  match lines with
  | none => h.changeOrder orderId row
  | some lines => ((h.changeOrder orderId row).removeLines (h.lineIds orderId)).addLines lines

/-- The rows of the orders do not depend on the lines. -/
theorem mem_edit {orderId : Id} {row : HeldOrder → HeldOrder} {lines : Option (List HeldLine)}
    {h : Held} {o' : HeldOrder} : o' ∈ (h.edit orderId row lines).heldOrders ↔
      ∃ o ∈ h.heldOrders, (if o.id = orderId then row o else o) = o' := by
  have hrows : (h.edit orderId row lines).heldOrders = (h.changeOrder orderId row).heldOrders := by
    cases lines <;> rfl
  rw [hrows]
  exact List.mem_map

/-- The new lines fit the order, under identifiers of their own. -/
structure NewLines (tenantId orderId : Id) (lines : List HeldLine) (old : List HeldOrderItem) :
    Prop where
  fit : LinesFit tenantId orderId lines
  nodup : (lines.map fun l => l.1.id).Nodup
  fresh : ∀ i ∈ old, ∀ l ∈ lines, i.id ≠ l.1.id

theorem newLines_of_legal {h : Held} {tenantId orderId : Id} {lines : List HeldLine}
    (hfit : LinesFit tenantId orderId lines)
    (hlegal : ((h.addLines lines).heldOrderItems.map HeldOrderItem.id).Nodup) :
    NewLines tenantId orderId lines h.heldOrderItems := by
  simp only [addLines, List.map_append, List.map_map] at hlegal
  obtain ⟨-, hnodup, hdisj⟩ := List.nodup_append.mp hlegal
  exact ⟨hfit, hnodup, fun i hi l hl => hdisj i.id (List.mem_map_of_mem hi) l.1.id
    (List.mem_map_of_mem (f := HeldOrderItem.id ∘ Prod.fst) hl)⟩

section Edit

variable {h : Held} {tenantId orderId : Id} {row : HeldOrder → HeldOrder}

theorem closed_changeOrder (hrow : ∀ o, (row o).origin = o.origin) (hclosed : h.Closed) :
    (h.changeOrder orderId row).Closed := by
  refine ⟨fun i hi => ?_, hclosed.modifierParent⟩
  obtain ⟨o, ho, hown⟩ := hclosed.itemParent i hi
  refine ⟨_, List.mem_map_of_mem ho, ?_⟩
  split
  · have horigin := hrow o
    simp only [HeldOrder.origin, Prod.mk.injEq] at horigin
    simpa [heldItemOf, horigin.1, horigin.2.1] using hown
  · exact hown

theorem slice_changeOrder_other (hrow : ∀ o, (row o).origin = o.origin) {id : Id}
    (hid : id ≠ orderId) : (h.changeOrder orderId row).slice id = h.slice id := by
  unfold slice changeOrder
  refine congrArg (·, _) ?_
  simp only [List.filter_map]
  have hpred : ∀ o : HeldOrder, ((fun o : HeldOrder => o.id == id) ∘
      fun o => if o.id = orderId then row o else o) o = (o.id == id) := by
    intro o
    simp only [Function.comp_apply]
    split
    · rw [show (row o).id = o.id from congrArg Prod.fst (hrow o)]
    · rfl
  rw [List.filter_congr fun o _ => hpred o]
  conv_rhs => rw [← List.map_id (h.heldOrders.filter fun o => o.id == id)]
  refine List.map_congr_left fun o ho => ?_
  have hoid : o.id = id := beq_iff_eq.mp (List.mem_filter.mp ho).2
  simp [hoid, hid]

theorem slice_changeOrder_own (hrow : ∀ o, (row o).origin = o.origin) :
    (h.changeOrder orderId row).slice orderId =
      ((h.slice orderId).1.map row, (h.slice orderId).2) := by
  unfold slice changeOrder
  refine congrArg (·, _) ?_
  simp only [List.filter_map]
  have hpred : ∀ o : HeldOrder, ((fun o : HeldOrder => o.id == orderId) ∘
      fun o => if o.id = orderId then row o else o) o = (o.id == orderId) := by
    intro o
    simp only [Function.comp_apply]
    split
    · rw [show (row o).id = o.id from congrArg Prod.fst (hrow o)]
    · rfl
  rw [List.filter_congr fun o _ => hpred o]
  refine List.map_congr_left fun o ho => ?_
  have hoid : o.id = orderId := beq_iff_eq.mp (List.mem_filter.mp ho).2
  simp [hoid]

variable {lines : Option (List HeldLine)} (hrow : ∀ o, (row o).origin = o.origin)
  (hnodup : (h.heldOrderItems.map HeldOrderItem.id).Nodup)
  (hnew : ∀ ls ∈ lines, NewLines tenantId orderId ls
    ((h.changeOrder orderId row).removeLines (h.lineIds orderId)).heldOrderItems)
include hrow

include hnodup hnew in
/-- Editing one order leaves every other order alone. -/
theorem slice_edit_other {id : Id} (hid : id ≠ orderId) :
    (h.edit orderId row lines).slice id = h.slice id := by
  cases lines with
  | none => exact slice_changeOrder_other hrow hid
  | some ls =>
      have hls := hnew ls rfl
      unfold edit
      rw [slice_addLines_other hls.fit hls.fresh hid]
      rw [show h.lineIds orderId = (h.changeOrder orderId row).lineIds orderId from rfl,
        slice_removeLines_other (h := h.changeOrder orderId row) hnodup hid,
        slice_changeOrder_other hrow hid]

theorem slice_edit_own_row : ((h.edit orderId row lines).slice orderId).1 =
    (h.slice orderId).1.map row := by
  have hchange : ((h.changeOrder orderId row).slice orderId).1 = (h.slice orderId).1.map row := by
    rw [slice_changeOrder_own hrow]
  cases lines with
  | none => exact hchange
  | some ls => exact hchange

include hnew in
/-- The lines of an edited order: the new ones, or else the old ones. -/
theorem slice_edit_own_lines (hclosed : h.Closed) :
    ((h.edit orderId row lines).slice orderId).2 = lines.getD (h.slice orderId).2 := by
  cases lines with
  | none =>
      change ((h.changeOrder orderId row).slice orderId).2 = (h.slice orderId).2
      rw [slice_changeOrder_own hrow]
  | some ls =>
      have hls := hnew ls rfl
      exact slice_addLines_own (closed_removeLines (closed_changeOrder hrow hclosed)) hls.fit
        hls.fresh hls.nodup (no_line_of_removed (h := h.changeOrder orderId row))

include hnew in
theorem closed_edit (hclosed : h.Closed) {o : HeldOrder} (ho : o ∈ h.heldOrders)
    (hid : o.id = orderId) (htenant : o.tenantId = tenantId) :
    (h.edit orderId row lines).Closed := by
  have hchanged : (h.changeOrder orderId row).Closed := closed_changeOrder hrow hclosed
  cases lines with
  | none => exact hchanged
  | some ls =>
      have horigin := hrow o
      simp only [HeldOrder.origin, Prod.mk.injEq] at horigin
      refine closed_addLines (closed_removeLines hchanged) (hnew ls rfl).fit (o := row o) ?_
        (horigin.1.trans hid) (horigin.2.1.trans htenant)
      refine List.mem_map.mpr ⟨o, ho, ?_⟩
      rw [if_pos hid]

include hnodup hnew in
/-- An edit that raises the version is a legitimate evolution. -/
theorem evolves_edit (hversion : ∀ o ∈ h.heldOrders, o.id = orderId → o.version < (row o).version) :
    Evolves h (h.edit orderId row lines) := by
  intro o ho
  by_cases hid : o.id = orderId
  · refine ⟨row o, ?_, hrow o, (hversion o ho hid).le, fun heq => ?_⟩
    · have hmem : row o ∈ (h.changeOrder orderId row).heldOrders :=
        List.mem_map.mpr ⟨o, ho, if_pos hid⟩
      cases lines <;> exact hmem
    · exact absurd heq (hversion o ho hid).ne'
  · refine ⟨o, ?_, rfl, le_refl _, fun _ => slice_edit_other hrow hnodup hnew hid⟩
    have hmem : o ∈ (h.changeOrder orderId row).heldOrders :=
      List.mem_map.mpr ⟨o, ho, if_neg hid⟩
    cases lines <;> exact hmem

end Edit

-- ============================================================================
-- An order is added
-- ============================================================================

section Add

variable {h : Held} {tenantId : Id} {o : HeldOrder} {lines : List HeldLine}
  (hclosed : h.Closed) (hfresh : ∀ x ∈ h.heldOrders, x.id ≠ o.id)
  (hnew : NewLines tenantId o.id lines h.heldOrderItems)

include hnew in
theorem slice_add_other {id : Id} (hid : id ≠ o.id) :
    ((h.addOrder o).addLines lines).slice id = h.slice id := by
  rw [slice_addLines_other (h := h.addOrder o) hnew.fit hnew.fresh hid]
  unfold slice addOrder
  refine congrArg (·, _) (Transactions.filter_append_of_none fun x hx => ?_)
  rw [List.mem_singleton.mp hx]
  simp [Ne.symm hid]

include hclosed hfresh in
/-- A new order has no lines yet. -/
theorem no_line_of_fresh : ∀ i ∈ h.heldOrderItems, i.heldOrderId ≠ o.id := by
  intro i hi heq
  obtain ⟨x, hx, hown⟩ := hclosed.itemParent i hi
  simp only [heldItemOf, Bool.and_eq_true, beq_iff_eq] at hown
  exact hfresh x hx (hown.1.symm.trans heq)

include hclosed in
theorem closed_addOrder : (h.addOrder o).Closed :=
  ⟨fun i hi => by
    obtain ⟨x, hx, hown⟩ := hclosed.itemParent i hi
    exact ⟨x, List.mem_append_left _ hx, hown⟩, hclosed.modifierParent⟩

include hclosed hnew in
theorem closed_add (htenant : o.tenantId = tenantId) : ((h.addOrder o).addLines lines).Closed :=
  closed_addLines (closed_addOrder hclosed) hnew.fit
    (List.mem_append_right _ (List.mem_singleton.mpr rfl)) rfl htenant

include hclosed hfresh hnew in
theorem slice_add_own : ((h.addOrder o).addLines lines).slice o.id = ([o], lines) := by
  refine Prod.ext ?_ (slice_addLines_own (closed_addOrder hclosed) hnew.fit hnew.fresh hnew.nodup
    (no_line_of_fresh (h := h) hclosed hfresh))
  change (h.heldOrders ++ [o]).filter (fun x => x.id == o.id) = [o]
  rw [Transactions.filter_append_of_none_old fun x hx => by simp [hfresh x hx]]
  simp

include hfresh hnew in
theorem evolves_add : Evolves h ((h.addOrder o).addLines lines) := fun x hx =>
  ⟨x, List.mem_append_left _ hx, rfl, le_refl _, fun _ =>
    slice_add_other hnew (hfresh x hx)⟩

end Add

end Held

end Kasir
