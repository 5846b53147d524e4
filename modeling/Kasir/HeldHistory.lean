/-
  Kasir.HeldHistory

  One held order over a run: how it comes to be, what a commit may do to it, and
  that nothing happens to it once it is no longer OPEN.
-/

import Kasir.Frames

namespace Kasir

open Txn Transactions HeldOrders

-- ============================================================================
-- The row and lines of an order
-- ============================================================================

theorem mem_slice {h : Held} {x : Id} {o : HeldOrder} :
    o ∈ (h.slice x).1 ↔ o ∈ h.heldOrders ∧ o.id = x := by
  simp [Held.slice]

/-- An order's identifier leads to its row alone. -/
theorem slice_of_mem {db : Db} (hwf : Wf db) {o : HeldOrder} (ho : o ∈ db.held.heldOrders) :
    (db.held.slice o.id).1 = [o] := by
  have hnodup : (db.held.slice o.id).1.Nodup :=
    (List.Nodup.of_map _ (legal_heldOrders hwf.legal)).filter _
  have hall : ∀ x ∈ (db.held.slice o.id).1, x = o := fun x hx =>
    eq_of_key (legal_heldOrders hwf.legal) (mem_slice.mp hx).1 ho (mem_slice.mp hx).2
  have hmem : o ∈ (db.held.slice o.id).1 := mem_slice.mpr ⟨ho, rfl⟩
  match hcase : (db.held.slice o.id).1 with
  | [] => rw [hcase] at hmem; cases hmem
  | [x] => rw [hall x (by simp [hcase])]
  | x :: y :: rest =>
      rw [hcase] at hnodup
      have hx := hall x (by simp [hcase])
      have hy := hall y (by simp [hcase])
      simp [hx, hy] at hnodup

/-- A line as it is read back: the options may come in any order. -/
def ReadsLine (r : HeldItemRecord) (l : HeldLine) : Prop := r.item = l.1 ∧ r.modifiers.Perm l.2

/-- A record of an order has the stored lines, in display order. -/
theorem heldRecordOf_lines {db : Db} (hwf : Wf db) {o : HeldOrder} (ho : o ∈ db.held.heldOrders)
    (rank : Id → Nat) :
    ∃ lines, lines.Perm (db.held.slice o.id).2 ∧
      List.Forall₂ ReadsLine (heldRecordOf db rank o).items lines := by
  -- a child names its parent, so the tenant says nothing more
  have hitems : db.held.heldOrderItems.filter (heldItemOf o) =
      db.held.heldOrderItems.filter fun i => i.heldOrderId == o.id := by
    refine List.filter_congr fun i hi => ?_
    obtain ⟨o', ho', hown⟩ := hwf.held.itemParent i hi
    simp only [heldItemOf, Bool.and_eq_true, beq_iff_eq] at hown
    by_cases hid : i.heldOrderId = o.id
    · have hoo : o' = o := eq_of_key (legal_heldOrders hwf.legal) ho' ho (hown.1.symm.trans hid)
      subst hoo
      simp [heldItemOf, hid, hown.2]
    · simp [heldItemOf, hid]
  have hmodifiers : ∀ i ∈ db.held.heldOrderItems,
      db.held.heldOrderItemModifiers.filter (heldModifierOf i) =
        db.held.heldOrderItemModifiers.filter fun m => m.heldOrderItemId == i.id := by
    intro i hi
    refine List.filter_congr fun m hm => ?_
    obtain ⟨i', hi', hown⟩ := hwf.held.modifierParent m hm
    simp only [heldModifierOf, Bool.and_eq_true, beq_iff_eq] at hown
    by_cases hid : m.heldOrderItemId = i.id
    · have hii : i' = i := eq_of_key (legal_heldOrderItems hwf.legal) hi' hi (hown.1.symm.trans hid)
      subst hii
      simp [heldModifierOf, hid, hown.2]
    · simp [heldModifierOf, hid]
  refine ⟨(orderBy rank HeldOrderItem.displayOrder HeldOrderItem.id
    (db.held.heldOrderItems.filter (heldItemOf o))).map fun i =>
      (i, db.held.heldOrderItemModifiers.filter fun m => m.heldOrderItemId == i.id), ?_, ?_⟩
  · rw [hitems]
    exact (orderBy_perm ..).map _
  · rw [heldRecordOf, List.forall₂_map_left_iff, List.forall₂_map_right_iff]
    refine List.forall₂_same.mpr fun i hi => ⟨rfl, ?_⟩
    have hmem := List.mem_of_mem_filter ((orderBy_perm ..).mem_iff.mp hi)
    exact (orderBy_perm ..).trans (.of_eq (hmodifiers i hmem))

-- ============================================================================
-- One commit
-- ============================================================================

section Step

variable {R : Token → Prop} {c : Call} {r : Result} {seen : List Db} {a b : Db}

/-- What a commit may do to one order: nothing, create it, or swap its row while it
    is OPEN at the version of the request. -/
theorem Effect.order_cases (h : Effect R c r seen a b) (hwf : Wf a) (x : Id) :
    (b.held.slice x = a.held.slice x ∧ ∀ v, swapOf c r ≠ some (x, v)) ∨
    (∃ user input order resolved lines, c = .holdCreate user input ∧ order.id = x ∧
      NewOrder R user.normalized (createRequest input) order resolved lines seen a ∧
      b.held.slice x = ([order], lines)) ∨
    (∃ tenantId version row lines o, Swap c r seen tenantId x version row lines ∧
      OpenOrder tenantId x version o a ∧
      b.held.slice x = ([row o], lines.getD (a.held.slice x).2)) := by
  rcases h.held_cases with ⟨hh, hnone⟩ | ⟨user, input, order, resolved, lines, hc, hnew, rfl⟩ |
    ⟨tenantId, orderId, version, row, lines, o, hswap, ho, hlines, hh, -⟩
  · exact Or.inl ⟨by rw [hh], fun v => by simp [hnone]⟩
  · by_cases hx : x = order.id
    · subst hx
      exact Or.inr (Or.inl ⟨user, input, order, resolved, lines, hc, rfl, hnew,
        Held.slice_add_own hwf.held hnew.fresh hnew.newLines⟩)
    · exact Or.inl ⟨Held.slice_add_other hnew.newLines hx, fun v => by simp [hc, swapOf]⟩
  · by_cases hx : x = orderId
    · subst hx
      refine Or.inr (Or.inr ⟨tenantId, version, row, lines, o, hswap, ho, ?_⟩)
      rw [hh]
      refine Prod.ext ?_ (Held.slice_edit_own_lines hswap.origin hlines hwf.held)
      rw [Held.slice_edit_own_row hswap.origin, ← ho.id, slice_of_mem hwf ho.mem]
      rfl
    · refine Or.inl ⟨?_, fun v => by simp [hswap.swapOf, Ne.symm hx]⟩
      rw [hh]
      exact Held.slice_edit_other hswap.origin (legal_heldOrderItems hwf.legal) hlines hx

/-- No commit touches an order that is not OPEN. -/
theorem Effect.not_open (h : Effect R c r seen a b) (hwf : Wf a) {o : HeldOrder}
    (ho : o ∈ a.held.heldOrders) (hstatus : o.status ≠ .open) :
    b.held.slice o.id = a.held.slice o.id := by
  rcases h.order_cases hwf o.id with ⟨hs, -⟩ | ⟨user, input, order, resolved, lines, -, hid, hnew, -⟩ |
    ⟨tenantId, version, row, lines, x, -, hx, -⟩
  · exact hs
  · exact absurd hid.symm (hnew.fresh o ho)
  · exact absurd (hx.only hwf o ho rfl ▸ hx.status) hstatus

/-- The order of a conversion is as the conversion has read it. -/
theorem ConvertedOrder.unchanged {actor : JwtPayload} {orderId : Id} {version : Int}
    {record : HeldOrderRecord} {o : HeldOrder}
    (h : ConvertedOrder actor orderId version record o seen a) (hwf : Wf a) :
    ∃ s rank, s ∈ seen ∧ Wf s ∧ o ∈ s.held.heldOrders ∧ record = heldRecordOf s rank o ∧
      a.held.slice orderId = s.held.slice orderId := by
  obtain ⟨s, hs, hwfs, hev, rank, x, hx, hid, -, hversion, hrecord⟩ := h.read
  obtain ⟨y, hy, horigin, -, hsame⟩ := hev.held x hx
  have hyid : y.id = orderId := (congrArg Prod.fst horigin).trans hid
  have hyo : y = o := h.target.only hwf y hy hyid
  subst hyo
  have hslice := hsame (h.target.version.trans hversion.symm)
  -- equal slices have equal rows
  have hmem : x ∈ (a.held.slice x.id).1 := hslice ▸ mem_slice.mpr ⟨hx, rfl⟩
  have hxy : x = y := h.target.only hwf x (mem_slice.mp hmem).1 hid
  subst hxy
  exact ⟨s, rank, hs, hwfs, hx, hrecord, hid ▸ hslice⟩

/-- The lines of the record a conversion sells are those of its order. -/
theorem ConvertedOrder.lines {actor : JwtPayload} {orderId : Id} {version : Int}
    {record : HeldOrderRecord} {o : HeldOrder}
    (h : ConvertedOrder actor orderId version record o seen a) (hwf : Wf a) :
    record.order = o ∧ ∃ lines, lines.Perm (a.held.slice orderId).2 ∧
      List.Forall₂ ReadsLine record.items lines := by
  obtain ⟨s, rank, -, hwfs, ho, rfl, hslice⟩ := h.unchanged hwf
  refine ⟨rfl, ?_⟩
  obtain ⟨lines, hperm, hread⟩ := heldRecordOf_lines hwfs ho rank
  exact ⟨lines, by rw [hslice, ← h.target.id]; exact hperm, hread⟩

end Step

-- ============================================================================
-- Runs
-- ============================================================================

section Runs

variable {R : Token → Prop} {db0 : Db} {σ : State}

/-- Orders that are not OPEN stay as they are. -/
def TerminalStays (a b : Db) : Prop :=
  ∀ o ∈ a.held.heldOrders, o.status ≠ .open → b.held.slice o.id = a.held.slice o.id

/-- Where an order that is not OPEN stays, it is there. -/
theorem TerminalStays.mem {a b : Db} (h : TerminalStays a b) {o : HeldOrder}
    (ho : o ∈ a.held.heldOrders) (hstatus : o.status ≠ .open) : o ∈ b.held.heldOrders := by
  have hmem : o ∈ (b.held.slice o.id).1 := h o ho hstatus ▸ mem_slice.mpr ⟨ho, rfl⟩
  exact (mem_slice.mp hmem).1

theorem TerminalStays.refl (a : Db) : TerminalStays a a := fun _ _ _ => rfl

theorem TerminalStays.trans {a b c : Db} (h1 : TerminalStays a b) (h2 : TerminalStays b c) :
    TerminalStays a c := by
  intro o ho hstatus
  exact (h2 o (h1.mem ho hstatus) hstatus).trans (h1 o ho hstatus)

theorem terminalStays_commit {e : KasirCommit}
    (h : CommitOk kasir (protocol R) (Effect R) e) : TerminalStays e.before e.after :=
  fun _ ho hstatus => h.post.not_open h.invBefore ho hstatus

/-- What was not OPEN in an earlier state of the run is as it was. -/
theorem terminal_of_mem_states (h : KasirSound R db0 σ) {s : Db}
    (hs : s ∈ states db0 σ.history) : TerminalStays s σ.db :=
  h.rel_of_mem_states TerminalStays TerminalStays.refl TerminalStays.trans
    (fun e he => terminalStays_commit (h.commits e he)) hs

/-- Of two commits one comes first, and what it leaves as not OPEN the other finds so. -/
theorem terminal_ordered (h : KasirSound R db0 σ) {e e' : KasirCommit} (he : e ∈ σ.history)
    (he' : e' ∈ σ.history) (hne : e ≠ e') :
    TerminalStays e.after e'.before ∨ TerminalStays e'.after e.before :=
  h.rel_ordered TerminalStays TerminalStays.refl TerminalStays.trans
    (fun e he => terminalStays_commit (h.commits e he)) he he' hne

/-- What a commit has read as not OPEN is so when it commits. -/
theorem terminal_of_mem_seen (h : KasirSound R db0 σ) {e : KasirCommit} (he : e ∈ σ.history)
    {s : Db} (hs : s ∈ e.seen) : TerminalStays s e.before :=
  h.rel_of_mem_seen TerminalStays TerminalStays.refl TerminalStays.trans
    (fun e he => terminalStays_commit (h.commits e he)) he hs

end Runs

end Kasir
