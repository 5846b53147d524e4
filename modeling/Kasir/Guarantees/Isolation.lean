/-
  Kasir.Guarantees.Isolation

  Tenants are isolated from each other.

  The tables are shared, and so are locks and the order of commits, and yet no tenant can
  tell that there are others: what a tenant's calls are answered in any interleaving, they
  are answered in one in which the others' calls never take a step, on a database that
  holds the tenant's rows only.
-/

import Kasir.TenantCalls
import Kasir.Owners

namespace Kasir

open Txn Js Transactions HeldOrders

-- ============================================================================
-- Calls of tenants
-- ============================================================================

/-- The tenant a call is made for.  The administration of accounts is nobody's. -/
def Call.tenant : Call → Option Id
  | .create user _ | .createLegacySync user _ | .holdCreate user _ | .holdUpdate user _ _
  | .holdCancel user _ _ | .holdCheckout user _ _ | .shiftOpen user _ | .shiftClose user _
  | .shiftSummary user _ | .adjustStock user _ | .catalog user _ => some user.normalized.tenantId
  | .administer _ => none

/-- The call is the tenant's, or the administration's. -/
def Call.concerns (tenantId : Id) (c : Call) : Bool := c.tenant.all (· == tenantId)

/-- What is left of a call on the rows of a tenant: the administration sets the tenant's
    accounts only, all others are what they were. -/
def Call.only (tenantId : Id) : Call → Call
  | .administer accounts => .administer (accounts.only tenantId)
  | c => c

variable {w : Owners} {t : Id}

/-- All calls but the edit of a held order leave the rows of others alone, whatever the
    statements of others do meanwhile. -/
theorem stays_body {c : Call} (hc : c.tenant = some t)
    (hno : ∀ user id input, c ≠ .holdUpdate user id input) :
    ∃ K, Stays w t (Owned w) K c.body := by
  cases c with
  | administer accounts => cases hc
  | holdUpdate user id input => exact absurd rfl (hno user id input)
  | create user input =>
      obtain rfl := Option.some.inj hc
      exact ⟨_, stays_createBody.answer Result.sale⟩
  | createLegacySync user input =>
      obtain rfl := Option.some.inj hc
      exact ⟨_, stays_createBody.answer Result.sale⟩
  | holdCreate user input =>
      obtain rfl := Option.some.inj hc
      exact ⟨_, stays_holdCreate.answer Result.heldOrder⟩
  | holdCancel user id input =>
      obtain rfl := Option.some.inj hc
      exact ⟨_, stays_holdCancel.answer Result.heldOrder⟩
  | holdCheckout user id input =>
      obtain rfl := Option.some.inj hc
      exact ⟨_, stays_holdCheckout.answer Result.conversion⟩
  | shiftOpen user outletId =>
      obtain rfl := Option.some.inj hc
      exact ⟨_, stays_openBody.answer Result.shift⟩
  | shiftClose user id =>
      obtain rfl := Option.some.inj hc
      exact ⟨_, stays_closeBody.answer Result.shift⟩
  | shiftSummary user id =>
      obtain rfl := Option.some.inj hc
      exact ⟨_, stays_summaryBody.answer Result.summary⟩
  | adjustStock user input =>
      obtain rfl := Option.some.inj hc
      exact ⟨_, stays_adjustmentBody.answer Result.stock⟩
  | catalog user op =>
      obtain rfl := Option.some.inj hc
      exact ⟨_, stays_catalogBody.answer Result.catalog⟩

theorem concerns_tenant {c : Call} (hc : c.tenant = some t) : c.concerns t = true := by
  unfold Call.concerns
  rw [hc]
  exact beq_self_eq_true t

theorem only_eq {c : Call} {t' : Id} (hc : c.tenant = some t') : c.only t = c := by
  cases c with
  | administer accounts => cases hc
  | _ => rfl

/-- A call that is not the tenant's is somebody else's. -/
theorem tenant_of_not_concerns {c : Call} (hc : c.concerns t = false) :
    ∃ t', c.tenant = some t' ∧ t ≠ t' := by
  unfold Call.concerns at hc
  cases htenant : c.tenant with
  | none =>
      rw [htenant] at hc
      cases hc
  | some t' =>
      rw [htenant, Option.all_some, beq_eq_false_iff_ne] at hc
      exact ⟨t', rfl, Ne.symm hc⟩

/-- The call is the same on the tenant's rows. -/
theorem body_within {c : Call} (hc : c.concerns t = true) : ∃ (apart : Db → Db → Prop)
    (K : Db → Prop), c.body.Within (Db.only w.outlet t) apart K (Owned w) (c.only t).body := by
  cases htenant : c.tenant with
  | none =>
      cases c with
      | administer accounts =>
          refine ⟨fun _ _ => True, fun _ => True, Prog.Within.write (fun _ _ _ => rfl) ?_⟩
          intro _ _ _ _ _
          exact ⟨rfl, trivial, trivial⟩
      | _ => cases htenant
  | some t' =>
      obtain rfl : t' = t := by
        unfold Call.concerns at hc
        rw [htenant] at hc
        exact beq_iff_eq.mp hc
      rw [only_eq htenant]
      by_cases hupdate : ∃ user id input, c = .holdUpdate user id input
      · obtain ⟨user, id, input, rfl⟩ := hupdate
        obtain rfl := Option.some.inj htenant
        exact ⟨_, _, within_holdUpdate.answer Result.heldOrder⟩
      · obtain ⟨K, hbody⟩ := stays_body (w := w) htenant
          fun user id input heq => hupdate ⟨user, id, input, heq⟩
        exact ⟨_, K, hbody⟩

/-- A tenant is a party of the backend. -/
theorem tenant_party (w : Owners) (t : Id) :
    kasir.Party (Db.only w.outlet t) (Owned w) (Call.concerns t) (Call.only t) where
  precheck c := by cases c <;> rfl
  iso c := by cases c <;> rfl
  handle c n e := by cases c <;> rfl
  body _ hc := body_within hc
  legal _ hd := legal_only hd

-- ============================================================================
-- What the others commit
-- ============================================================================

/-- A row that an edit of the tenant's order changes or removes is the tenant's. -/
theorem editedOrder_apart {orderId : Id} {dto : UpdateHeldOrderDto} {o : HeldOrder}
    {repriced : Option (List ResolvedItem × Estimates)} {lines : Option (List HeldLine)}
    {seen : List Db} {db : Db} {label : Option (Option String)} {estimates : Option Estimates}
    (hwf : Wf db) (h : EditedOrder t orderId dto o repriced lines seen db) :
    Apart w t db (onHeld (fun h => h.edit orderId (updatedRow label estimates) lines) db) := by
  intro a ha
  have horder : ∀ x ∈ db.held.heldOrders, x.id = orderId → x.tenantId = t := by
    intro x hx hid
    have hxo : x = o := eq_of_key (legal_heldOrders hwf.legal) hx h.target.mem
      (hid.trans h.target.id.symm)
    rw [hxo, h.target.tenantId]
  -- the lines removed are those of the order
  have hline : ∀ i ∈ db.held.heldOrderItems, i.id ∈ db.held.lineIds orderId → i.tenantId = t := by
    intro i hi hmem
    obtain ⟨j, hj, hid⟩ := List.mem_map.mp hmem
    obtain ⟨hj, hof⟩ := List.mem_filter.mp hj
    have hij : j = i := eq_of_key (legal_heldOrderItems hwf.legal) hj hi hid
    subst hij
    obtain ⟨x, hx, hown⟩ := hwf.held.itemParent j hj
    simp only [heldItemOf, Bool.and_eq_true, beq_iff_eq] at hown
    rw [hown.2]
    exact horder x hx (hown.1.symm.trans (beq_iff_eq.mp hof))
  have hmodifier : ∀ m ∈ db.held.heldOrderItemModifiers,
      m.heldOrderItemId ∈ db.held.lineIds orderId → m.tenantId = t := by
    intro m hm hmem
    obtain ⟨i, hi, hown⟩ := hwf.held.modifierParent m hm
    simp only [heldModifierOf, Bool.and_eq_true, beq_iff_eq] at hown
    rw [hown.2]
    exact hline i hi (hown.1 ▸ hmem)
  have horders : ownedBy HeldOrder.tenantId a (db.held.heldOrders.map fun x =>
        if x.id = orderId then updatedRow label estimates x else x) =
      ownedBy HeldOrder.tenantId a db.held.heldOrders := by
    apply ownedBy_map_same
    · intro x
      split
      · exact updatedRow_tenantId x
      · rfl
    · intro x hx howner
      rw [if_neg]
      exact fun hid => ha (howner.symm.trans (horder x hx hid))
  have hitems : (ownedBy HeldOrderItem.tenantId a db.held.heldOrderItems).filter
        (fun i => !(db.held.lineIds orderId).contains i.id) =
      ownedBy HeldOrderItem.tenantId a db.held.heldOrderItems := by
    apply List.filter_eq_self.mpr
    intro i hi
    obtain ⟨hmem, howner⟩ := mem_ownedBy.mp hi
    rw [Bool.not_eq_true', ← Bool.not_eq_true, List.contains_iff_mem]
    exact fun hin => ha (howner.symm.trans (hline i hmem hin))
  have hmodifiers : (ownedBy HeldOrderItemModifier.tenantId a db.held.heldOrderItemModifiers).filter
        (fun m => !(db.held.lineIds orderId).contains m.heldOrderItemId) =
      ownedBy HeldOrderItemModifier.tenantId a db.held.heldOrderItemModifiers := by
    apply List.filter_eq_self.mpr
    intro m hm
    obtain ⟨hmem, howner⟩ := mem_ownedBy.mp hm
    rw [Bool.not_eq_true', ← Bool.not_eq_true, List.contains_iff_mem]
    exact fun hin => ha (howner.symm.trans (hmodifier m hmem hin))
  cases lines with
  | none =>
      show ({ db.only w.outlet a with
        held := Held.only a (db.held.changeOrder orderId _) } : Db) = _
      unfold Held.changeOrder Held.only
      dsimp only
      rw [horders]
      rfl
  | some ls =>
      have hfit := (h.newLines ls rfl).fit
      have hnewItems : ∀ i ∈ ls.map Prod.fst, i.tenantId = t := by
        intro i hi
        obtain ⟨l, hl, rfl⟩ := List.mem_map.mp hi
        exact (hfit.order l hl).2
      have hnewModifiers : ∀ m ∈ ls.flatMap Prod.snd, m.tenantId = t := by
        intro m hm
        obtain ⟨l, hl, hml⟩ := List.mem_flatMap.mp hm
        exact (hfit.options l hl m hml).2
      show ({ db.only w.outlet a with
        held := Held.only a (((db.held.changeOrder orderId _).removeLines
          (db.held.lineIds orderId)).addLines ls) } : Db) = _
      unfold Held.addLines Held.removeLines Held.changeOrder Held.only
      dsimp only
      rw [horders, ownedBy_add_other hnewItems ha, ownedBy_add_other hnewModifiers ha,
        ownedBy_filter, ownedBy_filter, hitems, hmodifiers]
      rfl

/-- An edit leaves the rows of others alone. -/
theorem holdUpdate_apart {R : Token → Prop} {user : JwtPayload} {id : String}
    {input : UpdateHeldOrderDto} {r : Result} {seen : List Db} {a b : Db}
    (h : Effect R (.holdUpdate user id input) r seen a b) (ha : Wf a) :
    Apart w user.normalized.tenantId a b := by
  cases h with
  | found hc _ => cases hc
  | sold hc _ => cases hc
  | updated h => exact editedOrder_apart ha h

variable {db0 : Db} {σ : State}

/-- **Nobody else changes a tenant's rows.** -/
theorem others_apart (h0 : Wf db0) (hrun : kasir.Reach db0 σ) (hw0 : Owned w db0)
    (hw : ∀ e ∈ σ.history, Owned w e.after) : ∀ e ∈ σ.history, e.call.concerns t = false →
      e.after.only w.outlet t = e.before.only w.outlet t := by
  intro e he hother
  obtain ⟨t', htenant, hne⟩ := tenant_of_not_concerns hother
  by_cases hupdate : ∃ user id input, e.call = .holdUpdate user id input
  · -- lines are deleted by identifiers that were looked up before: it is the commit that tells
    obtain ⟨user, id, input, hcall⟩ := hupdate
    have hok := (reach_sound h0 hrun).commits e he
    have hpost : Effect noMarks e.call e.result e.seen e.before e.after := hok.post
    rw [hcall] at hpost htenant
    obtain rfl := Option.some.inj htenant
    exact holdUpdate_apart hpost hok.invBefore t hne
  · have hcommits := (hrun.commits_apart (J := Owned w)
      (A := fun c => Apart w (c.tenant.getD t))
      (S := fun c => (∃ t', c.tenant = some t') ∧ ∀ user id input, c ≠ .holdUpdate user id input)
      (fun c => Apart.refl w _) (fun c x y z => Apart.trans) hw0 hw ?_).2
    · have hsel : ∀ user id input, e.call ≠ .holdUpdate user id input :=
        fun user id input heq => hupdate ⟨user, id, input, heq⟩
      have hapart := hcommits e he ⟨⟨t', htenant⟩, hsel⟩
      rw [htenant] at hapart
      exact hapart t hne
    · rintro c ⟨⟨a, ha⟩, hno⟩
      obtain ⟨K, hbody⟩ := stays_body (w := w) ha hno
      rw [ha]
      exact ⟨_, K, _, hbody⟩

-- ============================================================================
-- Isolation
-- ============================================================================

/-- **Tenants are isolated.**  If no outlet changes hands, no call of anybody else changes a
    row of the tenant, and the tenant's calls are answered as in a run on the tenant's rows
    alone, in which nobody else takes a step: with every answer, every row that was read and
    every row that is there in the end. -/
theorem tenants_isolated (h0 : Wf db0) (hrun : kasir.Reach db0 σ) {outlet : Id → Id}
    (houtlets : ∀ d ∈ states db0 σ.history, OutletsOf outlet d) (t : Id) :
    (∀ e ∈ σ.history, e.call.concerns t = false →
      e.after.only outlet t = e.before.only outlet t) ∧
    ∃ σ', kasir.Reach (db0.only outlet t) σ' ∧ σ'.db = σ.db.only outlet t ∧
      σ'.history = (σ.history.filter fun e => e.call.concerns t).map
        (Commit.map (Db.only outlet t) (Call.only t)) ∧
      (∀ (i : Nat) (c : Call) (a : Except Exc Result), c.concerns t = true →
        σ.calls[i]? = some (c, .done a) → σ'.calls[i]? = some (c.only t, .done a)) ∧
      ∀ (i : Nat) (c : Call) (cs : CallState Db Env Token Exc Exc Result),
        c.concerns t = false → σ.calls[i]? = some (c, cs) →
        σ'.calls[i]? = some (c, kasir.enter c) := by
  let w := ownersAt outlet σ.db
  have howned : ∀ d ∈ states db0 σ.history, Owned w d := fun d hd =>
    owned_of_states h0 hrun hd (houtlets d hd)
  have hw0 : Owned w db0 := howned db0 (mem_states.mpr (Or.inl rfl))
  have hw : ∀ e ∈ σ.history, Owned w e.after := fun e he =>
    howned e.after (mem_states.mpr (Or.inr ⟨e, he, rfl⟩))
  have hothers := others_apart (t := t) h0 hrun hw0 hw
  obtain ⟨σ', hreach, hproj⟩ := App.Run.project hrun (tenant_party w t) hw0 hw hothers
  refine ⟨hothers, σ', hreach, hproj.db, hproj.history, fun i c a hc hi => ?_,
    fun i c cs hc hi => ?_⟩
  · obtain ⟨cs', hi', hmine, -⟩ := hproj.calls i c _ hi
    have halike := hmine hc
    generalize hdone : (CallState.done a : CallState Db Env Token Exc Exc Result) = cs at halike
    cases halike with
    | done a' =>
        obtain rfl := CallState.done.inj hdone
        exact hi'
    | active => cases hdone
  · obtain ⟨cs', hi', -, hother⟩ := hproj.calls i c cs hi
    obtain ⟨t', htenant, -⟩ := tenant_of_not_concerns hc
    rw [hother hc, only_eq htenant] at hi'
    exact hi'

/-- A call that runs alone leaves the rows of others alone. -/
theorem alone_apart {a a' : Db} {c : Call} {envs : Nat → Env} {x : Except Exc Result} (ha : Wf a)
    (hw : Owned w a) (hc : c.tenant = some t) (hx : kasir.alone c a envs = some (x, a')) :
    Apart w t a a' := by
  rcases App.alone_db hx with rfl | ⟨⟨r, rfl⟩, hlog⟩
  · exact Apart.refl w t a'
  · by_cases hupdate : ∃ user id input, c = .holdUpdate user id input
    · obtain ⟨user, id, input, rfl⟩ := hupdate
      obtain rfl := Option.some.inj hc
      obtain ⟨-, seen, -, heffect⟩ := alone_effect ha hx
      exact holdUpdate_apart heffect ha
    · obtain ⟨K, hbody⟩ := stays_body (w := w) hc
        fun user id input heq => hupdate ⟨user, id, input, heq⟩
      rw [hlog]
      exact hbody.solo_apart (Apart.refl w t) (fun x y z => Apart.trans) hw

/-- **A call does not tell tenants apart.**  On two databases that agree on the rows of its
    tenant, and may differ in all other rows, a call that is answered on both is answered
    alike, leaves the tenant the same rows and everybody else theirs. -/
theorem call_noninterferes {a b a' b' : Db} {c : Call} {envs : Nat → Env}
    {x y : Except Exc Result} (ha : Wf a) (hwa : Owned w a) (hwb : Owned w b)
    (hc : c.tenant = some t) (hsame : a.only w.outlet t = b.only w.outlet t)
    (hx : kasir.alone c a envs = some (x, a')) (hy : kasir.alone c b envs = some (y, b')) :
    x = y ∧ a'.only w.outlet t = b'.only w.outlet t ∧
      ∀ t', t' ≠ t → a'.only w.outlet t' = a.only w.outlet t' := by
  have hconcerns := concerns_tenant hc
  have hparty := tenant_party w t
  have hx' := hparty.alone hconcerns hwa hx
  have hy' := hparty.alone hconcerns hwb hy
  rw [hsame, hy'] at hx'
  obtain ⟨rfl, hrows⟩ := Prod.mk.inj (Option.some.inj hx')
  exact ⟨rfl, hrows.symm, alone_apart ha hwa hc hx⟩

namespace Shop

def otherTenant : Id := uuid 0 1 1

def otherOutlet : Id := uuid 0 1 3

/-- The shop shares its database with another tenant, who has one outlet and coffee. -/
def shared : Db :=
  { db with
    accounts :=
      { db.accounts with
        tenants := db.accounts.tenants ++
          db.accounts.tenants.map fun t => { t with id := otherTenant }
        outlets := db.accounts.outlets ++
          db.accounts.outlets.map fun o => { o with id := otherOutlet, tenantId := otherTenant } }
    catalog :=
      { db.catalog with
        products := db.catalog.products ++ (db.catalog.products.take 1).map fun p =>
          { p with id := uuid 0 1 4, tenantId := otherTenant } }
    stocks :=
      { db.stocks with
        productStocks := db.stocks.productStocks ++ db.stocks.productStocks.map fun s =>
          { s with outletId := otherOutlet, productId := uuid 0 1 4 } } }

/-- Whose the two outlets are. -/
def outletOwner (id : Id) : Id := if id = otherOutlet then otherTenant else tenant

/-- Tea is new in a tenant's catalog. -/
def newTea (tenantId : Id) : Call :=
  .catalog { user with tenantId }
    (.createProduct { name := "Tea", sku := "T1", price := 500, cost := 100, minimumStock := 0 })

/-- The tenant sells coffee. -/
def coffeeSale : Call := sale (uuid 9 9 7)

/-- Both tenants have tea at the same time, while one of them sells coffee. -/
def bothTea : List (Label Env Exc Call) :=
  .call (newTea tenant) :: .call (newTea otherTenant) :: .call coffeeSale ::
    .stmt 0 (envs 1 0) :: .stmt 1 (envs 2 0) :: stmts 2 3 0 13 ++
    [.commit 1, .commit 0, .commit 2]

theorem shared_wf : Wf shared where
  legal := by decide +kernel
  sales := Shop.wf.sales
  held := Shop.wf.held
  origin := Shop.wf.origin

/-- The run has ended, each tenant has the product, and the sale is made. -/
def teaThere (σ : State) : Bool :=
  decide (∀ d ∈ states shared σ.history, ∀ o ∈ d.accounts.outlets, outletOwner o.id = o.tenantId) &&
    decide ((σ.db.only outletOwner tenant).catalog.products.length = 3) &&
    decide ((σ.db.only outletOwner otherTenant).catalog.products.length = 2) &&
    answered coffeeSale (fun a => a.toOption.isSome) σ.calls[2]?

end Shop

/-- Two tenants add a product at the same time; the one sees a run with its product only, in
    which its sale is answered the same. -/
theorem tenants_isolated_shop : ∃ σ σ' : State, kasir.Reach Shop.shared σ ∧
    kasir.Reach (Shop.shared.only Shop.outletOwner Shop.tenant) σ' ∧
    σ'.db = σ.db.only Shop.outletOwner Shop.tenant ∧
    (σ.db.only Shop.outletOwner Shop.otherTenant).catalog.products.length = 2 ∧
    σ'.db.catalog.products.length = 3 ∧
    ∃ r : Result, σ.calls[2]? = some (Shop.coffeeSale, .done (.ok r)) ∧
      σ'.calls[2]? = some (Shop.coffeeSale, .done (.ok r)) := by
  obtain ⟨σ, hrun, hp⟩ := Shop.reached Shop.shared (fun _ _ => true) Shop.bothTea Shop.teaThere
    (by decide +kernel)
  simp only [Shop.teaThere, Bool.and_eq_true, decide_eq_true_eq] at hp
  obtain ⟨⟨⟨houtlets, hmine⟩, hother⟩, hsale⟩ := hp
  obtain ⟨a, ha, hcall⟩ := Shop.of_answered hsale
  obtain ⟨-, σ', hreach, hdb, -, hanswers, -⟩ :=
    tenants_isolated Shop.shared_wf hrun.reach houtlets Shop.tenant
  have hcall' := hanswers 2 Shop.coffeeSale a (by decide +kernel) hcall
  refine ⟨σ, σ', hrun.reach, hreach, hdb, hother, ?_, ?_⟩
  · rw [hdb]
    exact hmine
  · cases a with
    | error e => cases ha
    | ok r => exact ⟨r, hcall, hcall'⟩

/-- A sale is answered alike whether or not the other tenant is there. -/
theorem call_noninterferes_shop : ∃ (x : Except Exc Result) (a b : Db),
    kasir.alone (Shop.sale (Shop.uuid 9 9 7)) Shop.db (Shop.envs 1) = some (x, a) ∧
    kasir.alone (Shop.sale (Shop.uuid 9 9 7)) Shop.shared (Shop.envs 1) = some (x, b) ∧
    a.only Shop.outletOwner Shop.tenant = b.only Shop.outletOwner Shop.tenant ∧
    a.sales.transactions.length = 1 := by
  have hone : (kasir.alone (Shop.sale (Shop.uuid 9 9 7)) Shop.db (Shop.envs 1)).any
      (fun r => decide (r.2.sales.transactions.length = 1)) = true := by decide +kernel
  have htwo : (kasir.alone (Shop.sale (Shop.uuid 9 9 7)) Shop.shared (Shop.envs 1)).any
      (fun _ => true) = true := by decide +kernel
  obtain ⟨⟨x, a⟩, hx, hlength⟩ := (Option.any_eq_true _ _).mp hone
  obtain ⟨⟨y, b⟩, hy, -⟩ := (Option.any_eq_true _ _).mp htwo
  have hw : Owned (ownersAt Shop.outletOwner Shop.shared) Shop.db := by
    constructor <;> decide +kernel
  have hw' : Owned (ownersAt Shop.outletOwner Shop.shared) Shop.shared := by
    constructor <;> decide +kernel
  obtain ⟨rfl, hrows, -⟩ := call_noninterferes (t := Shop.tenant) Shop.wf hw hw' rfl
    (by decide +kernel) hx hy
  exact ⟨x, a, b, hx, hy, hrows, of_decide_eq_true hlength⟩

end Kasir
