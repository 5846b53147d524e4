/-
  Kasir.Guarantees.Conversions

  Conversions of held orders and the sales they link to.

  A conversion claims its order and then calls the sale core, which looks the
  request's key up like any other caller.  Where the key already has a sale that
  matches, the core returns that sale and nothing is sold, but the order becomes
  CONVERTED all the same and the caller is told that this is no replay.  So a
  conversion makes a sale of its own exactly when its key is new.
-/

import Kasir.SaleHistory
import Kasir.HeldHistory

namespace Kasir

open Txn Js Transactions HeldOrders

/-- A conversion that is not a replay recorded, in its own commit, the sale that the
    order is linked to. -/
def OwnSale (e : KasirCommit) : Prop :=
  ∀ user id input resp, e.call = .holdCheckout user id input →
    e.result = .conversion ⟨resp, false⟩ →
    ∃ actor dto mode tx sale, RecordedBy noMarks e actor dto mode tx sale resp ∧
      ∃ o ∈ e.after.held.heldOrders, o.id = toLowerCase id ∧ o.status = .converted ∧
        o.convertedTransactionId = some sale.rows.transaction.id

/-- The key with which an OPEN order is converted has no sale yet. -/
def FreshKey (e : KasirCommit) : Prop :=
  ∀ user id input, e.call = .holdCheckout user id input →
    (∃ o ∈ e.before.held.heldOrders, o.id = toLowerCase id ∧ o.status = .open) →
    ∀ x ∈ e.before.sales.transactions,
      hasKey user.normalized.tenantId (toLowerCase input.clientTransactionId) x = false

/-- Every CONVERTED order is linked, every link leads to a sale of the tenant, and no
    two orders share one. -/
structure LinksOk (db : Db) : Prop where
  linked : ∀ o ∈ db.held.heldOrders, o.status = .converted → o.convertedTransactionId ≠ none
  target : ∀ o ∈ db.held.heldOrders, ∀ t, o.convertedTransactionId = some t →
    ∃ x ∈ db.sales.transactions, x.id = t ∧ x.tenantId = o.tenantId
  own : ∀ o ∈ db.held.heldOrders, ∀ o' ∈ db.held.heldOrders, ∀ t,
    o.convertedTransactionId = some t → o'.convertedTransactionId = some t → o = o'

/-- The CONVERTED orders of a tenant. -/
def convertedOrders (tenantId : Id) (db : Db) : List HeldOrder :=
  db.held.heldOrders.filter fun o => o.tenantId == tenantId && o.status == .converted

/-- The sales of a tenant. -/
def salesOf (tenantId : Id) (db : Db) : List Transaction :=
  db.sales.transactions.filter fun x => x.tenantId == tenantId

/-- With links of their own, the CONVERTED orders are no more than the sales. -/
theorem LinksOk.count {db : Db} (h : LinksOk db) (hwf : Wf db) (tenantId : Id) :
    (convertedOrders tenantId db).length ≤ (salesOf tenantId db).length := by
  have hnodup : ((convertedOrders tenantId db).map HeldOrder.convertedTransactionId).Nodup := by
    refine List.Nodup.map_on (fun o ho o' ho' heq => ?_)
      ((List.Nodup.of_map _ (legal_heldOrders hwf.legal)).filter _)
    simp only [convertedOrders, List.mem_filter, Bool.and_eq_true, beq_iff_eq] at ho ho'
    obtain ⟨t, ht⟩ := Option.ne_none_iff_exists'.mp (h.linked o ho.1 ho.2.2)
    exact h.own o ho.1 o' ho'.1 t ht (heq ▸ ht)
  have hsub : (convertedOrders tenantId db).map HeldOrder.convertedTransactionId ⊆
      (salesOf tenantId db).map fun x => some x.id := by
    intro link hlink
    obtain ⟨o, ho, rfl⟩ := List.mem_map.mp hlink
    simp only [convertedOrders, List.mem_filter, Bool.and_eq_true, beq_iff_eq] at ho
    obtain ⟨t, ht⟩ := Option.ne_none_iff_exists'.mp (h.linked o ho.1 ho.2.2)
    obtain ⟨x, hx, hid, htenant⟩ := h.target o ho.1 t ht
    refine List.mem_map.mpr ⟨x, ?_, by rw [ht, hid]⟩
    simp [salesOf, hx, htenant, ho.2.1]
  simpa using (List.subperm_of_subset hnodup hsub).length_le

-- ============================================================================
-- One commit
-- ============================================================================

section Step

variable {R : Token → Prop} {c : Call} {r : Result} {seen : List Db} {a b : Db}

/-- A conversion whose key is new has sold. -/
theorem Effect.sold_of_free {user : JwtPayload} {id : String} {input : CheckoutHeldOrderDto}
    {resp : TransactionResponse}
    (h : Effect R (.holdCheckout user id input) (.conversion ⟨resp, false⟩) seen a b)
    (hfree : ∀ x ∈ a.sales.transactions,
      hasKey user.normalized.tenantId (toLowerCase input.clientTransactionId) x = false) :
    ∃ record o env sale, ConvertedOrder user.normalized (toLowerCase id) input.expectedVersion
        record o seen a ∧
      b.held = a.held.edit (toLowerCase id) (conversionRow resp.transactionId env) none ∧
      NewSale R .serializable user.normalized (coreRequest (heldCheckoutDto record input) .v1) .v1
        sale resp seen a ∧
      b.sales = sale.rows.sales a.sales ∧ b.stocks = sale.rows.stocks a.stocks := by
  rcases h.conversion_cases with ⟨_, _, _, heq, -⟩ |
    ⟨record, o, resp', env, heq, horder, hheld, hsale, -⟩
  · cases heq
  · cases heq
    rcases hsale with ⟨⟨rank, x, hx, hkey, -⟩, -⟩ | ⟨sale, hnew, hs, hst⟩
    · have hno := hfree x hx
      rw [show (coreRequest (heldCheckoutDto record input) .v1).clientTransactionId =
        toLowerCase input.clientTransactionId from toLowerCase_toLowerCase _] at hkey
      rw [hno] at hkey
      cases hkey
    · exact ⟨record, o, env, sale, horder, hheld, hnew, hs, hst⟩

/-- One commit keeps the links in order if its conversion sells. -/
theorem LinksOk.step (ha : LinksOk a) (hwf : Wf a) (hwfb : Wf b)
    (hgrows : Sales.Grows a.sales b.sales) (h : Effect R c r seen a b)
    (hfree : ∀ user id input resp, c = .holdCheckout user id input →
      r = .conversion ⟨resp, false⟩ → ∀ x ∈ a.sales.transactions,
        hasKey user.normalized.tenantId (toLowerCase input.clientTransactionId) x = false) :
    LinksOk b := by
  -- the sale a link of this commit leads to is new
  have hnew : ∀ user id input resp, c = .holdCheckout user id input →
      r = .conversion ⟨resp, false⟩ →
      (∃ x ∈ b.sales.transactions, x.id = resp.transactionId ∧
        x.tenantId = user.normalized.tenantId) ∧
      ∀ x ∈ a.sales.transactions, x.id ≠ resp.transactionId := by
    rintro user id input resp rfl rfl
    obtain ⟨record, o, env, sale, -, -, hsale, hs, -⟩ :=
      h.sold_of_free (hfree user id input resp rfl rfl)
    rw [hsale.transactionId_eq]
    refine ⟨⟨sale.rows.transaction, ?_, rfl, hsale.built.tenantId⟩, hsale.fresh⟩
    rw [hs]
    exact List.mem_append_right _ (List.mem_singleton.mpr rfl)
  have hlink := h.link_cases hwf
  refine ⟨fun o' ho' hstatus => ?_, fun o' ho' t ht => ?_, fun o1 ho1 o2 ho2 t ht1 ht2 => ?_⟩
  · rcases hlink o' ho' with ⟨o, ho, -, heq, hs⟩ | ⟨-, hs⟩ | ⟨user, id, input, resp, -, -, -, -, heq⟩
    · exact heq ▸ ha.linked o ho (hs hstatus)
    · exact absurd hstatus hs
    · simp [heq]
  · rcases hlink o' ho' with ⟨o, ho, horigin, heq, -⟩ | ⟨hnone, -⟩ |
      ⟨user, id, input, resp, hc, hr, -, htenant, heq⟩
    · obtain ⟨x, hx, hid, htenant⟩ := ha.target o ho t (heq ▸ ht)
      simp only [HeldOrder.origin, Prod.mk.injEq] at horigin
      exact ⟨x, hgrows.mem hx, hid, htenant.trans horigin.2.1.symm⟩
    · rw [hnone] at ht
      cases ht
    · obtain ⟨⟨x, hx, hid, htenant'⟩, -⟩ := hnew user id input resp hc hr
      rw [heq] at ht
      cases ht
      exact ⟨x, hx, hid, htenant'.trans htenant.symm⟩
  · -- an old link leads to an old sale
    have hold : ∀ o ∈ a.held.heldOrders, ∀ user id input resp, c = .holdCheckout user id input →
        r = .conversion ⟨resp, false⟩ → o.convertedTransactionId ≠ some resp.transactionId := by
      intro o ho user id input resp hc hr heq
      obtain ⟨x, hx, hid, -⟩ := ha.target o ho _ heq
      exact (hnew user id input resp hc hr).2 x hx hid
    refine eq_of_key (legal_heldOrders hwfb.legal) ho1 ho2 ?_
    rcases hlink o1 ho1 with ⟨x, hx, hox, heqx, -⟩ | ⟨hnone, -⟩ |
      ⟨user, id, input, resp, hc, hr, hid, -, heq⟩
    · rcases hlink o2 ho2 with ⟨y, hy, hoy, heqy, -⟩ | ⟨hnone, -⟩ |
        ⟨user, id, input, resp, hc, hr, -, -, heq⟩
      · have hxy := ha.own x hx y hy t (heqx ▸ ht1) (heqy ▸ ht2)
        simp only [HeldOrder.origin, Prod.mk.injEq] at hox hoy
        rw [hox.1, hxy, hoy.1]
      · rw [hnone] at ht2
        cases ht2
      · rw [heq] at ht2
        exact absurd (heqx ▸ ht1) (ht2 ▸ hold x hx user id input resp hc hr)
    · rw [hnone] at ht1
      cases ht1
    · rcases hlink o2 ho2 with ⟨y, hy, -, heqy, -⟩ | ⟨hnone, -⟩ |
        ⟨user', id', input', resp', hc', hr', hid', -, -⟩
      · rw [heq] at ht1
        exact absurd (heqy ▸ ht2) (ht1 ▸ hold y hy user id input resp hc hr)
      · rw [hnone] at ht2
        cases ht2
      · rw [hc] at hc'
        cases hc'
        rw [hid, hid']

end Step

-- ============================================================================
-- Every run
-- ============================================================================

section Runs

variable {db0 : Db} {σ : State}

/-- A conversion has a sale of its own exactly if its key was new. -/
theorem ownSale_iff (h : KasirSound noMarks db0 σ) {e : KasirCommit} (he : e ∈ σ.history) :
    FreshKey e ↔ OwnSale e := by
  have hcommit := h.commits e he
  have hpost := hcommit.post
  constructor
  · intro hfresh user id input resp hcall hresult
    rw [hcall, hresult] at hpost
    -- the order that was converted was OPEN
    obtain ⟨o, ho, hid, hopen⟩ : ∃ o ∈ e.before.held.heldOrders, o.id = toLowerCase id ∧
        o.status = .open := by
      rcases hpost.conversion_cases with ⟨_, _, _, heq, -⟩ | ⟨record, o, _, _, -, horder, -⟩
      · cases heq
      · exact ⟨o, horder.target.mem, horder.target.id, horder.target.status⟩
    obtain ⟨record, x, env, sale, hx, hheld, hsale, hs, hst⟩ :=
      hpost.sold_of_free (hfresh user id input hcall ⟨o, ho, hid, hopen⟩)
    refine ⟨_, _, _, _, sale, ⟨hcall ▸ hresult ▸ .conversion hx, hsale, hs, hst⟩, ?_⟩
    refine ⟨conversionRow resp.transactionId env x, ?_, hx.target.id, rfl, ?_⟩
    · rw [hheld]
      exact Held.mem_edit.mpr ⟨x, hx.target.mem, if_pos hx.target.id⟩
    · rw [← hsale.transactionId_eq]
      rfl
  · rintro hown user id input hcall ⟨o, ho, hid, hopen⟩ x hx
    rw [hcall] at hpost
    rcases hpost.conversion_cases with ⟨order, existing, resp, hresult, hrep, -⟩ |
      ⟨record, o', resp, env, hresult, horder, hheld, hsale, -⟩
    · -- an order that was read as CONVERTED is not OPEN
      obtain ⟨s, hs, hwf, -, hmem, hoid, -, hconverted⟩ := hrep.read
      have hsame := terminal_of_mem_seen h he hs order hmem (by simp [hconverted])
      have hmem' : order ∈ (e.before.held.slice order.id).1 :=
        hsame ▸ mem_slice.mpr ⟨hmem, rfl⟩
      have heq := eq_of_key (legal_heldOrders hcommit.invBefore.legal) (mem_slice.mp hmem').1 ho
        (hoid.trans hid.symm)
      rw [heq, hopen] at hconverted
      cases hconverted
    · rcases hsale with ⟨-, hs, -⟩ | ⟨sale, hnew, -⟩
      · -- a commit that leaves the sales alone recorded none
        obtain ⟨actor, dto, mode, tx, sale, hrec, -⟩ := hown user id input resp hcall hresult
        have hlen := congrArg (fun s : Sales => s.transactions.length) (hs.symm.trans hrec.sales)
        simp [SaleRows.sales] at hlen
      · have hfree := hnew.free x hx
        rwa [show (coreRequest (heldCheckoutDto record input) .v1).clientTransactionId =
          toLowerCase input.clientTransactionId from toLowerCase_toLowerCase _] at hfree

/-- **Every conversion is its own sale, where keys are not reused.**  In every run,
    the conversions make sales of their own exactly if every OPEN order is converted
    with a key that has no sale; and then no two held orders share a sale, and a
    tenant has no more CONVERTED orders than sales. -/
theorem conversion_is_own_sale (h0 : Wf db0) (hlinks : LinksOk db0) (h : kasir.Reach db0 σ) :
    ((∀ e ∈ σ.history, OwnSale e) ↔ ∀ e ∈ σ.history, FreshKey e) ∧
    ((∀ e ∈ σ.history, FreshKey e) → LinksOk σ.db ∧
      ∀ tenantId, (convertedOrders tenantId σ.db).length ≤ (salesOf tenantId σ.db).length) := by
  have hsound := reach_sound h0 h
  refine ⟨forall₂_congr fun e he => (ownSale_iff hsound he).symm, fun hfresh => ?_⟩
  have hok : LinksOk σ.db := by
    refine hsound.chain.invariant LinksOk hlinks fun e he hbefore => ?_
    have hcommit := hsound.commits e he
    refine hbefore.step hcommit.invBefore hcommit.invAfter hcommit.evolves.sales hcommit.post ?_
    intro user id input resp hcall hresult
    have hpost := hcommit.post
    rw [hcall, hresult] at hpost
    rcases hpost.conversion_cases with ⟨_, _, _, heq, -⟩ | ⟨record, o, _, _, -, horder, -⟩
    · cases heq
    · exact hfresh e he user id input hcall
        ⟨o, horder.target.mem, horder.target.id, horder.target.status⟩
  exact ⟨hok, hok.count hsound.inv⟩

end Runs

theorem Shop.linksOk : LinksOk Shop.db where
  linked := fun _ ho => nomatch ho
  target := fun _ ho => nomatch ho
  own := fun _ ho => nomatch ho

/-- In the shop an order is held and sold with a new key. -/
theorem conversion_is_own_sale_shop :
    ∃ σ : State, kasir.Reach Shop.db σ ∧ (convertedOrders Shop.tenant σ.db).length = 1 ∧
      (∀ e ∈ σ.history, OwnSale e) ∧ LinksOk σ.db := by
  obtain ⟨σ, turns, hrun, hp, -, -, hhistory⟩ := Shop.run noMarks
    ([(Shop.hold Shop.coffee, Shop.envs 1),
      (Shop.sellHeld (Shop.uuid 2 7 0) 1 (Shop.uuid 9 9 9), Shop.envs 2)])
    (fun turns after => turns.all (fun t => t.before.sales.transactions.isEmpty) &&
      (convertedOrders Shop.tenant after).length == 1)
    (by decide +kernel)
  simp only [Bool.and_eq_true, beq_iff_eq, List.all_eq_true, List.isEmpty_iff] at hp
  have hfresh : ∀ e ∈ σ.history, FreshKey e := by
    intro e he user id input _ _ x hx
    rw [hp.1 _ (App.mem_turns hhistory he)] at hx
    cases hx
  have hown := conversion_is_own_sale Shop.wf Shop.linksOk hrun.reach
  exact ⟨σ, hrun.reach, hp.2, hown.1.mpr hfresh, (hown.2 hfresh).1⟩

/-- The last of four calls converts an order and sells nothing. -/
def Shop.convertsWithoutSale : Shop.Turns → Bool
  | [_, _, _, ⟨_, .ok (.conversion ⟨_, false⟩), before, after⟩] =>
      after.sales.transactions.length == before.sales.transactions.length
  | _ => false

/-- There are two orders, and both are linked to one sale. -/
def Shop.shareSale : List HeldOrder → Bool
  | [o, o'] => decide (o.id ≠ o'.id ∧ o.tenantId = o'.tenantId ∧
      o.convertedTransactionId ≠ none ∧ o.convertedTransactionId = o'.convertedTransactionId)
  | _ => false

/-- The same order is held twice, and both orders are sold with one key: the second
    conversion sells nothing, is answered as no replay, and links its order to the
    sale of the first. -/
theorem two_orders_one_sale :
    ∃ σ : State, kasir.Reach Shop.db σ ∧ (∃ e ∈ σ.history, ¬ OwnSale e) ∧
      (∃ o ∈ σ.db.held.heldOrders, ∃ o' ∈ σ.db.held.heldOrders, o.id ≠ o'.id ∧
        o.tenantId = o'.tenantId ∧ o.convertedTransactionId ≠ none ∧
        o.convertedTransactionId = o'.convertedTransactionId) ∧
      (salesOf Shop.tenant σ.db).length < (convertedOrders Shop.tenant σ.db).length := by
  obtain ⟨σ, turns, hrun, hp, hturns, -, hhistory⟩ := Shop.run noMarks
    ([(Shop.hold Shop.coffee, Shop.envs 1), (Shop.hold Shop.coffee, Shop.envs 2),
      (Shop.sellHeld (Shop.uuid 2 7 0) 1 (Shop.uuid 9 9 9), Shop.envs 3),
      (Shop.sellHeld (Shop.uuid 3 7 0) 1 (Shop.uuid 9 9 9), Shop.envs 4)])
    (fun turns after =>
      Shop.convertsWithoutSale turns && Shop.shareSale after.held.heldOrders &&
      decide ((salesOf Shop.tenant after).length < (convertedOrders Shop.tenant after).length))
    (by decide +kernel)
  simp only [Bool.and_eq_true, decide_eq_true_eq] at hp
  obtain ⟨⟨hlast, horders⟩, hcount⟩ := hp
  refine ⟨σ, hrun.reach, ?_, ?_, hcount⟩
  · unfold Shop.convertsWithoutSale at hlast
    split at hlast
    · simp only [List.map_cons, List.map_nil, List.cons.injEq, and_true] at hturns
      obtain ⟨-, -, -, rfl⟩ := hturns
      obtain ⟨e, he, hcall, hresult, rfl, rfl⟩ := App.mem_history hhistory
        (List.mem_cons_of_mem _ (List.mem_cons_of_mem _ (List.mem_cons_of_mem _
          (List.mem_singleton.mpr rfl))))
      refine ⟨e, he, fun hown => ?_⟩
      obtain ⟨actor, dto, mode, tx, sale, hrec, -⟩ := hown _ _ _ _ hcall hresult
      rw [hrec.sales] at hlast
      simp [SaleRows.sales] at hlast
    · cases hlast
  · unfold Shop.shareSale at horders
    split at horders
    · rename_i o o' heq
      simp only [decide_eq_true_eq] at horders
      exact ⟨o, by simp [heq], o', by simp [heq], horders⟩
    · cases horders

end Kasir
