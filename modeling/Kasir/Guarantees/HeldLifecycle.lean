/-
  Kasir.Guarantees.HeldLifecycle

  The life of a held order.

  An order is created OPEN at version 1.  Updates, cancellations and conversions are
  compare-and-swaps on its row: each commits only on an OPEN order at the version the
  caller has seen, and raises the version by one, so of several writers that have
  seen the same version one gets through.  The lines are replaced as a whole, behind
  the swap.
-/

import Kasir.HeldHistory
import Kasir.Lines

namespace Kasir

open Txn Js Transactions HeldOrders

-- ============================================================================
-- Lines and estimates as they are stored
-- ============================================================================

/-- The stored line of a requested line at its place. -/
structure LineStored (item : CreateTransactionItemDto × Nat) (l : HeldLine) : Prop where
  displayOrder : l.1.displayOrder = item.2
  productId : l.1.productId = item.1.productId
  quantity : l.1.quantity = item.1.quantity
  note : l.1.noteSnapshot = noteOrNull item.1.note
  options : l.2.map HeldOrderItemModifier.modifierOptionId =
    (item.1.modifierOptionIds.getD []).map some
  price : l.1.effectivePriceSnapshot =
    l.1.basePriceSnapshot + (l.2.map HeldOrderItemModifier.priceDeltaSnapshot).sum
  lineSubtotal : l.1.lineSubtotal = l.1.effectivePriceSnapshot * l.1.quantity
  lineDiscount : l.1.lineDiscount = 0
  lineTotal : l.1.lineTotal = l.1.lineSubtotal

/-- An order as a request with these items leaves it: its lines are the items in
    order, its estimates those of its lines at a tax setting the call has read. -/
structure ItemsStored (tenantId : Id) (items : List CreateTransactionItemDto) (seen : List Db)
    (o : HeldOrder) (lines : List HeldLine) : Prop where
  stored : List.Forall₂ LineStored (items.map CreateTransactionItemDto.normalized).zipIdx lines
  subtotal : o.subtotalEstimate = (lines.map fun l => l.1.lineTotal).sum
  tax : ∃ tenant, (Saw seen fun s => tenant ∈ s.accounts.tenants ∧ tenant.id = tenantId ∧
      tenant.isActive = true) ∧
    o.taxEstimate = (calculateTax tenant.taxEnabled tenant.taxRate o.subtotalEstimate).tax
  total : o.totalEstimate = o.subtotalEstimate + o.taxEstimate
  range : InRange o.subtotalEstimate ∧ InRange o.taxEstimate ∧ InRange o.totalEstimate

theorem map_modifierRows {α : Type} (f : HeldOrderItemModifier → α) (g : ResolvedOption → α)
    {tenantId itemId : Id} {env : Env} (options : List ResolvedOption)
    (hfg : ∀ o k, f { id := env.fresh k, tenantId, heldOrderItemId := itemId
                      modifierGroupId := some o.modifierGroupId, modifierOptionId := some o.id
                      groupNameSnapshot := o.groupName, optionNameSnapshot := o.optionName
                      priceDeltaSnapshot := o.priceDelta, createdAt := env.now } = g o) :
    (HeldOrders.modifierRows tenantId itemId options env).map f = options.map g := by
  rw [HeldOrders.modifierRows, List.map_map]
  conv_rhs => rw [← List.zipIdx_map_fst 0 options, List.map_map]
  exact List.map_congr_left fun x _ => hfg x.1 x.2

/-- The line of a resolved item. -/
theorem HeldOrders.LineOf.stored {tenantId orderId : Id} {catalog : LoadedCatalog}
    {item : CreateTransactionItemDto} {r : ResolvedItem} {k : Nat} {l : HeldLine}
    (hr : resolveItem catalog item = .ok r) (h : LineOf tenantId orderId (r, k) l) :
    LineStored (item, k) l := by
  obtain ⟨product, options, hline, -, -, -, rfl⟩ := resolveItem_ok.mp hr
  obtain ⟨row, modifiers⟩ := l
  obtain ⟨⟨env, hrow⟩, env', hmodifiers⟩ := h
  dsimp only at hrow hmodifiers
  subst hmodifiers hrow
  exact
    { displayOrder := rfl, productId := hline.productId, quantity := rfl, note := rfl
      options := by
        rw [← hline.optionIds, List.map_map]
        exact map_modifierRows _ _ options fun _ _ => rfl
      price := by
        rw [map_modifierRows _ ResolvedOption.priceDelta options fun _ _ => rfl]
        rfl
      lineSubtotal := rfl, lineDiscount := rfl, lineTotal := rfl }

/-- What was priced and written is stored. -/
theorem HeldOrders.Priced.itemsStored {tenantId orderId : Id}
    {items : List CreateTransactionItemDto} {resolved : List ResolvedItem} {estimates : Estimates}
    {seen : List Db} {lines : List HeldLine} {o : HeldOrder}
    (h : Priced tenantId items resolved estimates seen)
    (hlines : LinesOf tenantId orderId resolved lines)
    (ho : o.subtotalEstimate = estimates.subtotalEstimate ∧ o.taxEstimate = estimates.taxEstimate ∧
      o.totalEstimate = estimates.totalEstimate) : ItemsStored tenantId items seen o lines := by
  obtain ⟨tenant, catalog, htenant, -, hresolved, htotals⟩ := h.result
  obtain ⟨hsub, htax, htotal⟩ := ho
  rw [resolveLines, Checked.mapM_ok] at hresolved
  simp only [totals, Checked.then_ok, Checked.forM_ok, HeldOrders.money_ok,
    Except.ok.injEq] at htotals
  obtain ⟨hrange, rfl⟩ := htotals
  have hsum : resolved.map ResolvedItem.lineTotal = lines.map fun l => l.1.lineTotal := by
    rw [← List.zipIdx_map_fst 0 resolved, List.map_map]
    refine map_eq_of_forall₂ hlines fun x l hl => ?_
    obtain ⟨⟨env, hitem⟩, -⟩ := hl
    rw [hitem]
    rfl
  refine ⟨?_, by rw [hsub, hsum], ⟨tenant, htenant, by rw [htax, hsub]⟩,
    by rw [htotal, hsub, htax, calculateTax_total], ?_⟩
  · exact forall₂_comp (forall₂_zipIdx hresolved 0) hlines fun x y l hxy hl => by
      obtain ⟨x, k⟩ := x
      obtain ⟨y, k'⟩ := y
      obtain ⟨hxy, rfl⟩ := hxy
      exact hl.stored hxy
  · rw [hsub, htax, htotal]
    simp only [List.forall_mem_cons] at hrange
    exact ⟨hrange.1, hrange.2.1, hrange.2.2.1⟩

-- ============================================================================
-- One commit
-- ============================================================================

/-- A committed call gives this order lines: the items are those of the request that
    creates it, or of an update. -/
inductive Itemizes (a b : Db) (x : Id) : Call → Id → List CreateTransactionItemDto → Prop
  | create {user input} (hnew : ∀ o ∈ a.held.heldOrders, o.id ≠ x)
      (hmade : ∃ o ∈ b.held.heldOrders, o.id = x) :
      Itemizes a b x (.holdCreate user input) user.normalized.tenantId (createRequest input).items
  | update {user id input items} (hid : toLowerCase id = x)
      (hitems : (updateRequest input).items = some items) :
      Itemizes a b x (.holdUpdate user id input) user.normalized.tenantId items

/-- The estimates of an order. -/
def HeldOrder.estimates (o : HeldOrder) : Int × Int × Int :=
  (o.subtotalEstimate, o.taxEstimate, o.totalEstimate)

/-- The status in which a swap leaves its order. -/
def statusAfter : Call → HeldOrderStatus
  | .holdCancel .. => .cancelled
  | .holdCheckout .. => .converted
  | _ => .open

section Step

variable {R : Token → Prop} {c : Call} {r : Result} {seen : List Db} {a b : Db} {x : Id}

theorem Swap.status {tenantId orderId : Id} {version : Int} {row : HeldOrder → HeldOrder}
    {lines : Option (List HeldLine)} (h : Swap c r seen tenantId orderId version row lines)
    {o : HeldOrder} (ho : o.status = .open) : (row o).status = statusAfter c := by
  cases h with
  | @update user id input _ repriced =>
      have hkeep : (updatedRow (updateRequest input).label (repriced.map Prod.snd) o).status =
          o.status := by
        cases (updateRequest input).label <;> cases repriced <;> rfl
      exact hkeep.trans ho
  | cancel => rfl
  | convert => rfl

/-- A new order is OPEN at version 1, and comes from a create. -/
theorem Effect.created (h : Effect R c r seen a b) {o : HeldOrder} (ho : o ∈ b.held.heldOrders)
    (hnew : ∀ o' ∈ a.held.heldOrders, o'.id ≠ o.id) :
    (∃ user input, c = .holdCreate user input) ∧ o.status = .open ∧ o.version = 1 := by
  rcases h.held_cases with ⟨hh, -⟩ | ⟨user, input, order, resolved, lines, hc, hcreated, rfl⟩ |
    ⟨tenantId, orderId, version, row, lines, y, hswap, -, -, hh, -⟩
  · exact absurd rfl (hnew o (hh ▸ ho))
  · rcases List.mem_append.mp ho with ho | ho
    · exact absurd rfl (hnew o ho)
    · rw [List.mem_singleton.mp ho]
      exact ⟨⟨user, input, hc⟩, hcreated.row_eq.2.2⟩
  · rw [hh] at ho
    obtain ⟨z, hz, rfl⟩ := Held.mem_edit.mp ho
    refine absurd ?_ (hnew z hz)
    split
    · exact (congrArg Prod.fst (hswap.origin z)).symm
    · rfl

/-- A committed swap found its order OPEN at the version expected, and raised the
    version by one. -/
theorem Effect.swapped (h : Effect R c r seen a b) (hwf : Wf a) {v : Int}
    (hswap : swapOf c r = some (x, v)) :
    (∃ o ∈ a.held.heldOrders, o.id = x ∧ o.status = .open ∧ o.version = v) ∧
      ∃ o ∈ b.held.heldOrders, o.id = x ∧ o.status = statusAfter c ∧ o.version = v + 1 := by
  rcases h.order_cases hwf x with ⟨-, hnone⟩ | ⟨user, input, order, resolved, lines, rfl, -⟩ |
    ⟨tenantId, version, row, lines, o, hs, ho, hslice⟩
  · exact absurd hswap (hnone v)
  · cases hswap
  · have hversion := (Prod.mk.inj (Option.some.inj (hs.swapOf.symm.trans hswap))).2
    subst hversion
    have hmem := mem_slice.mp (hslice ▸ List.mem_singleton.mpr rfl : row o ∈ (b.held.slice x).1)
    exact ⟨⟨o, ho.mem, ho.id, ho.status, ho.version⟩, row o, hmem.1, hmem.2, hs.status ho.status,
      (hs.version_succ o).trans (congrArg (· + 1) ho.version)⟩

/-- An order that no swap of the commit is about stays as it is. -/
theorem Effect.not_swapped (h : Effect R c r seen a b) (hwf : Wf a) {o : HeldOrder}
    (ho : o ∈ a.held.heldOrders) (hswap : ∀ v, swapOf c r ≠ some (o.id, v)) :
    b.held.slice o.id = a.held.slice o.id := by
  rcases h.order_cases hwf o.id with ⟨hs, -⟩ | ⟨user, input, order, resolved, lines, -, hid, hnew, -⟩ |
    ⟨tenantId, version, row, lines, y, hs, -⟩
  · exact hs
  · exact absurd hid.symm (hnew.fresh o ho)
  · exact absurd hs.swapOf (hswap version)

/-- A commit that gives an order lines leaves it with these. -/
theorem Effect.itemsStored (h : Effect R c r seen a b) (hwf : Wf a) {tenantId : Id}
    {items : List CreateTransactionItemDto} (hi : Itemizes a b x c tenantId items) :
    ∀ o ∈ b.held.heldOrders, o.id = x → ItemsStored tenantId items seen o (b.held.slice x).2 := by
  intro o ho hid
  have hmem : o ∈ (b.held.slice x).1 := mem_slice.mpr ⟨ho, hid⟩
  rcases h.order_cases hwf x with ⟨hs, hnone⟩ | ⟨user, input, order, resolved, lines, hc, -, hnew, hs⟩ |
    ⟨tenantId', version, row, lines, y, hswap, hy, hs⟩
  · cases hi with
    | create hnew hmade =>
        rw [hs] at hmem
        exact absurd hid (hnew o (mem_slice.mp hmem).1)
    | @update user id input items hid hitems => exact absurd rfl (hid ▸ hnone input.expectedVersion)
  · rw [hs] at hmem ⊢
    rw [List.mem_singleton.mp hmem]
    obtain ⟨estimates, env, rfl, hpriced⟩ := hnew.priced
    cases hi with
    | create => cases hc; exact hpriced.itemsStored hnew.linesOf ⟨rfl, rfl, rfl⟩
    | update => cases hc
  · rw [hs] at hmem ⊢
    rw [List.mem_singleton.mp hmem]
    cases hi with
    | create hnew _ => exact absurd hy.id (hnew y hy.mem)
    | @update user id input items hid hitems =>
        cases hswap with
        | @update _ _ _ _ repriced lines _ hpriced hlines =>
            rw [hitems] at hpriced
            cases hpriced with
            | some hpriced =>
                cases hlines with
                | some hlines =>
                    exact hpriced.itemsStored hlines
                      (by cases (updateRequest input).label <;> exact ⟨rfl, rfl, rfl⟩)

/-- Another commit leaves lines and estimates of every order. -/
theorem Effect.not_itemized (h : Effect R c r seen a b) (hwf : Wf a)
    (hi : ∀ tenantId items, ¬ Itemizes a b x c tenantId items) :
    ∀ o' ∈ b.held.heldOrders, o'.id = x → ∃ o ∈ a.held.heldOrders, o.id = x ∧
      o'.estimates = o.estimates ∧ (b.held.slice x).2 = (a.held.slice x).2 := by
  intro o' ho' hid
  have hmem : o' ∈ (b.held.slice x).1 := mem_slice.mpr ⟨ho', hid⟩
  rcases h.order_cases hwf x with ⟨hs, -⟩ | ⟨user, input, order, resolved, lines, rfl, rfl, hnew, -⟩ |
    ⟨tenantId, version, row, lines, o, hswap, ho, hs⟩
  · rw [hs] at hmem ⊢
    exact ⟨o', (mem_slice.mp hmem).1, hid, rfl, rfl⟩
  · exact absurd (.create hnew.fresh ⟨o', ho', hid⟩) (hi _ _)
  · rw [hs] at hmem ⊢
    refine ⟨o, ho.mem, ho.id, ?_⟩
    rw [List.mem_singleton.mp hmem]
    cases hswap with
    | @update user id input detail repriced lines _ hpriced hlines =>
        -- an update without items
        cases hitems : (updateRequest input).items with
        | some items => exact absurd (.update rfl hitems) (hi _ _)
        | none =>
            rw [hitems] at hpriced
            cases hpriced with
            | none =>
                cases hlines with
                | none => exact ⟨by cases (updateRequest input).label <;> rfl, rfl⟩
    | cancel => exact ⟨rfl, rfl⟩
    | convert => exact ⟨rfl, rfl⟩

end Step

-- ============================================================================
-- Every run
-- ============================================================================

section Runs

variable {R : Token → Prop} {db0 : Db} {σ : State}

/-- The lines of an order are those it started with, or those of the last commit
    that gave it lines. -/
def LastItems (db0 : Db) (history : List KasirCommit) (d : Db) (o : HeldOrder) : Prop :=
  ((∃ o0 ∈ db0.held.heldOrders, o0.id = o.id ∧ o.estimates = o0.estimates ∧
      (d.held.slice o.id).2 = (db0.held.slice o.id).2) ∧
    ∀ e ∈ history, ∀ tenantId items, ¬ Itemizes e.before e.after o.id e.call tenantId items) ∨
  ∃ pre e post tenantId items, history = pre ++ e :: post ∧
    Itemizes e.before e.after o.id e.call tenantId items ∧
    ItemsStored tenantId items e.seen o (d.held.slice o.id).2 ∧
    ∀ e' ∈ post, ∀ tenantId items, ¬ Itemizes e'.before e'.after o.id e'.call tenantId items

theorem ItemsStored.of_estimates {tenantId : Id} {items : List CreateTransactionItemDto}
    {seen : List Db} {o o' : HeldOrder} {lines : List HeldLine}
    (h : ItemsStored tenantId items seen o lines) (ho : o'.estimates = o.estimates) :
    ItemsStored tenantId items seen o' lines := by
  simp only [HeldOrder.estimates, Prod.mk.injEq] at ho
  obtain ⟨hsub, htax, htotal⟩ := ho
  exact
    { stored := h.stored, subtotal := hsub.trans h.subtotal, tax := by rw [hsub, htax]; exact h.tax
      total := by rw [hsub, htax, htotal]; exact h.total
      range := by rw [hsub, htax, htotal]; exact h.range }

theorem lastItems (h : KasirSound R db0 σ) : ∀ o ∈ σ.db.held.heldOrders,
    LastItems db0 σ.history σ.db o := by
  refine h.chain.induction (fun history d => ∀ o ∈ d.held.heldOrders, LastItems db0 history d o)
    (fun o ho => Or.inl ⟨⟨o, ho, rfl, rfl, rfl⟩, fun _ he => (nomatch he)⟩) ?_
  intro pre e post heq hbefore o' ho'
  have hcommit := h.commits e (heq ▸ List.mem_append_right _ (List.mem_cons_self ..))
  by_cases hi : ∃ tenantId items, Itemizes e.before e.after o'.id e.call tenantId items
  · obtain ⟨tenantId, items, hi⟩ := hi
    exact Or.inr ⟨pre, e, [], tenantId, items, rfl, hi,
      hcommit.post.itemsStored hcommit.invBefore hi o' ho' rfl, fun _ he => (nomatch he)⟩
  · have hi' : ∀ tenantId items, ¬ Itemizes e.before e.after o'.id e.call tenantId items :=
      fun t items h => hi ⟨t, items, h⟩
    obtain ⟨o, ho, hid, hestimates, hlines⟩ :=
      hcommit.post.not_itemized hcommit.invBefore hi' o' ho' rfl
    rcases hbefore o ho with ⟨⟨o0, ho0, hid0, he0, hl0⟩, hnone⟩ |
      ⟨pre', e', post', tenantId, items, hsplit, hitemizes, hstored, hnone⟩
    · rw [hid] at hid0 hl0 hnone
      refine Or.inl ⟨⟨o0, ho0, hid0, hestimates.trans he0, hlines.trans hl0⟩, fun x hx => ?_⟩
      rcases List.mem_append.mp hx with hx | hx
      · exact hnone x hx
      · rw [List.mem_singleton.mp hx]
        exact hi'
    · rw [hid] at hitemizes hstored hnone
      refine Or.inr ⟨pre', e', post' ++ [e], tenantId, items, by rw [hsplit]; simp, hitemizes,
        ?_, fun x hx => ?_⟩
      · rw [hlines]
        exact hstored.of_estimates hestimates
      · rcases List.mem_append.mp hx with hx | hx
        · exact hnone x hx
        · rw [List.mem_singleton.mp hx]
          exact hi'

/-- A swap's version is gone from every later state. -/
theorem version_gone {e e' : KasirCommit} {x : Id} {v : Int}
    (h : CommitOk kasir (protocol R) (Effect R) e) (h' : CommitOk kasir (protocol R) (Effect R) e')
    (hswap : swapOf e.call e.result = some (x, v)) (hswap' : swapOf e'.call e'.result = some (x, v))
    (hev : Evolves e.after e'.before) : False := by
  obtain ⟨-, o, ho, hid, -, hversion⟩ := h.post.swapped h.invBefore hswap
  obtain ⟨⟨o', ho', hid', -, hversion'⟩, -⟩ := h'.post.swapped h'.invBefore hswap'
  obtain ⟨y, hy, horigin, hle, -⟩ := hev.held o ho
  have hyo : y = o' := eq_of_key (legal_heldOrders h'.invBefore.legal) hy ho'
    ((congrArg Prod.fst horigin).trans (hid.trans hid'.symm))
  subst hyo
  omega

/-- Of the calls that expect one version of an order one commits. -/
theorem one_swap (h : KasirSound R db0 σ) {i j : Nat} {c c' : Call} {r r' : Result} {x : Id} {v : Int}
    (hi : σ.Answered i c r) (hj : σ.Answered j c' r') (hswap : swapOf c r = some (x, v))
    (hswap' : swapOf c' r' = some (x, v)) : i = j := by
  obtain ⟨e, he, rfl, rfl, rfl⟩ := h.commit_of_answer hi
  obtain ⟨e', he', rfl, rfl, rfl⟩ := h.commit_of_answer hj
  by_contra hne
  have hne' : e ≠ e' := fun heq => hne (heq ▸ rfl)
  rcases h.ordered he he' hne' with hev | hev
  · exact version_gone (h.commits e he) (h.commits e' he') hswap hswap' hev
  · exact version_gone (h.commits e' he') (h.commits e he) hswap' hswap hev

end Runs

/-- **The life of a held order.**  In every run, in the state reached: the state is
    that of the commits, and a call that has not succeeded has none; an order that a
    commit adds is OPEN at version 1; a committed update, cancellation or conversion
    found its order OPEN at the version it expected and raised the version by one,
    and other commits leave the order alone; of the calls that expect one version at
    most one succeeds; an order that is not OPEN in an earlier state is as it was,
    lines included; and the lines and estimates are those of the last commit that
    carried items. -/
theorem held_order_lifecycle {db0 : Db} {σ : State} (h0 : Wf db0) (h : kasir.Reach db0 σ) :
    (Chain db0 σ.history σ.db ∧
      (∀ i, (∀ c r, ¬ σ.Answered i c r) → ∀ e ∈ σ.history, e.pid ≠ i) ∧
      ∀ l σ', kasir.step σ l = some σ' → (∀ i, l ≠ .commit i) → σ'.db = σ.db) ∧
    (∀ e ∈ σ.history, ∀ o ∈ e.after.held.heldOrders,
      (∀ o' ∈ e.before.held.heldOrders, o'.id ≠ o.id) →
        (∃ user input, e.call = .holdCreate user input) ∧ o.status = .open ∧ o.version = 1) ∧
    (∀ e ∈ σ.history, ∀ x v, swapOf e.call e.result = some (x, v) →
      (∃ o ∈ e.before.held.heldOrders, o.id = x ∧ o.status = .open ∧ o.version = v) ∧
        ∃ o ∈ e.after.held.heldOrders, o.id = x ∧ o.status = statusAfter e.call ∧
          o.version = v + 1) ∧
    (∀ e ∈ σ.history, ∀ o ∈ e.before.held.heldOrders,
      (∀ v, swapOf e.call e.result ≠ some (o.id, v)) →
        e.after.held.slice o.id = e.before.held.slice o.id) ∧
    (∀ i j c c' r r' x v, σ.Answered i c r → σ.Answered j c' r' →
      swapOf c r = some (x, v) → swapOf c' r' = some (x, v) → i = j) ∧
    (∀ s ∈ states db0 σ.history, ∀ o ∈ s.held.heldOrders, o.status ≠ .open →
      σ.db.held.slice o.id = s.held.slice o.id) ∧
    ∀ o ∈ σ.db.held.heldOrders, LastItems db0 σ.history σ.db o := by
  have hsound := reach_sound h0 h
  refine ⟨⟨hsound.chain, fun i hi => hsound.no_commit_of_not_answered hi,
    fun l σ' hstep hl => App.db_of_step kasir hstep hl⟩, ?_, ?_, ?_, ?_, ?_, lastItems hsound⟩
  · exact fun e he o ho hnew => (hsound.commits e he).post.created ho hnew
  · exact fun e he x v hswap =>
      (hsound.commits e he).post.swapped (hsound.commits e he).invBefore hswap
  · exact fun e he o ho hswap =>
      (hsound.commits e he).post.not_swapped (hsound.commits e he).invBefore ho hswap
  · exact fun i j c c' r r' x v hi hj hswap hswap' => one_swap hsound hi hj hswap hswap'
  · exact fun s hs => terminal_of_mem_states hsound hs

/-- The third of four calls fails, and the other edits do not. -/
def Shop.secondEditFails : Shop.Turns → Bool
  | [_, ⟨_, .ok _, _, _⟩, ⟨_, .error _, _, _⟩, ⟨_, .ok _, _, _⟩] => true
  | _ => false

/-- In the shop an order is edited; a second edit from the same version is refused,
    and no other could have succeeded. -/
theorem held_order_lifecycle_shop :
    ∃ (σ : State) (r : Result) (x : Exc), kasir.Reach Shop.db σ ∧
      σ.Answered 1 (Shop.edit (Shop.uuid 2 7 0) 1 Shop.water) r ∧
      σ.calls[2]? = some (Shop.edit (Shop.uuid 2 7 0) 1 Shop.coffee, .done (.error x)) ∧
      ∀ j c r', σ.Answered j c r' → swapOf c r' = some (Shop.uuid 2 7 0, 1) → j = 1 := by
  obtain ⟨σ, turns, hrun, hp, hturns, hcalls, -⟩ := Shop.run noMarks
    ([(Shop.hold Shop.coffee, Shop.envs 1),
      (Shop.edit (Shop.uuid 2 7 0) 1 Shop.water, Shop.envs 2),
      (Shop.edit (Shop.uuid 2 7 0) 1 Shop.coffee, Shop.envs 3),
      (Shop.cancel (Shop.uuid 2 7 0) 2, Shop.envs 4)])
    (fun turns _ => Shop.secondEditFails turns)
    (by decide +kernel)
  unfold Shop.secondEditFails at hp
  split at hp
  · rename_i first _ r _ _ _ x _ _ _ last _ _
    simp only [List.map_cons, List.map_nil, List.cons.injEq, and_true] at hturns
    obtain ⟨-, rfl, rfl, -⟩ := hturns
    have hi : σ.Answered 1 (Shop.edit (Shop.uuid 2 7 0) 1 Shop.water) r := by
      simp [Sys.Answered, hcalls]
    refine ⟨σ, r, x, hrun.reach, hi, by simp [hcalls], fun j c r' hj hswap => ?_⟩
    have hid : toLowerCase (Shop.uuid 2 7 0) = Shop.uuid 2 7 0 := by decide +kernel
    exact (held_order_lifecycle Shop.wf hrun.reach).2.2.2.2.1 j 1 c _ r' r _ _ hj hi hswap
      (congrArg (fun x => some (x, 1)) hid)
  · cases hp

end Kasir
