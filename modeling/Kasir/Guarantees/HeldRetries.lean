/-
  Kasir.Guarantees.HeldRetries

  A conversion sent again.

  Whoever sends the checkout of a CONVERTED order again is answered from the key of
  the request: with the linked sale, if it is the key of that sale and the user and
  the payment are those of the conversion, and with an error of its own otherwise.
  Nothing is written, and the order is converted once.
-/

import Kasir.Replays
import Kasir.HeldHistory
import Kasir.Guarantees.SameKey

namespace Kasir

open Txn Js Transactions HeldOrders

-- ============================================================================
-- Answers
-- ============================================================================

def convertedNoLink : Exc :=
  .coded .conflict "Held order is converted but linked transaction not found"
    "HELD_ORDER_CONVERTED_NO_LINK"

def linkMismatch : Exc :=
  .coded .conflict "Held order converted to a different transaction" "HELD_ORDER_LINK_MISMATCH"

def transactionRetryRequired : Exc :=
  .coded .serviceUnavailable "Please retry with the same client_transaction_id"
    "TRANSACTION_RETRY_REQUIRED"

/-- How a conversion sent again is answered: `t` is the sale the order is linked to,
    `same` that user and payment are those of the conversion, and the third argument
    the sale with the key of the request. -/
inductive RetryAnswer (t : Transaction) (same : Prop) :
    Option Transaction → Except Exc Result → Prop
  | replayed {r : TransactionResponse} (hsame : same) (hid : r.transactionId = t.id) :
      RetryAnswer t same (some t) (.ok (.conversion ⟨r, true⟩))
  | mismatch (hsame : ¬ same) : RetryAnswer t same (some t) (.error idempotencyPayloadMismatch)
  | otherSale {x : Transaction} (hx : x ≠ t) :
      RetryAnswer t same (some x) (.error linkMismatch)
  | noSale : RetryAnswer t same none (.error convertedNoLink)

/-- The user is active and `readScope` admits the order. -/
def InScope (user : JwtPayload) (o : HeldOrder) (db : Db) : Prop :=
  o.tenantId = user.tenantId ∧
  (∃ t ∈ db.accounts.tenants, t.id = user.tenantId ∧ t.isActive = true) ∧
  ∃ u ∈ db.accounts.users, u.id = user.sub ∧ u.tenantId = user.tenantId ∧ u.isActive = true ∧
    (u.role = .cashier → u.outletId = some o.outletId ∧
      ∃ x ∈ db.accounts.outlets, x.id = o.outletId ∧ x.tenantId = user.tenantId ∧ x.isActive = true)

theorem InScope.activeIn {user : JwtPayload} {o : HeldOrder} {db : Db} (h : InScope user o db) :
    ActiveIn user db := by
  obtain ⟨-, htenant, u, hu, hid, htid, hactive, -⟩ := h
  exact ⟨⟨u, hu, hid, htid, hactive⟩, htenant⟩

/-- The sale with a key. -/
def saleWithKey (tenantId key : Id) (db : Db) : Option Transaction :=
  db.sales.transactions.find? (hasKey tenantId key)

/-- The order is CONVERTED and linked to the sale of this request. -/
structure Linked (o : HeldOrder) (t : Transaction) (user : JwtPayload) (dto : CheckoutDto)
    (db : Db) : Prop where
  order : o ∈ db.held.heldOrders
  status : o.status = .converted
  link : o.convertedTransactionId = some t.id
  tenant : o.tenantId = user.tenantId
  sale : Answers t user dto db
  sales : SalesOk db

/-- What a later checkout of the order relies on. -/
structure Retrying (o : HeldOrder) (t : Transaction) (user : JwtPayload) (dto : CheckoutDto)
    (user' : JwtPayload) (key : Id) (link : Option Transaction) (db : Db) : Prop where
  linked : Linked o t user dto db
  scope : InScope user' o db
  link : db.sales.transactions.find? (hasKey o.tenantId key) = link

-- ============================================================================
-- The body
-- ============================================================================

section Body

variable {R : Token → Prop} {Err : Exc → Prop} {J : Db → Prop} {st : St Db Token} {db : Db}
  {user : JwtPayload} {o : HeldOrder}

/-- `readScope` admits the order, and the transaction has begun to read. -/
theorem wpe_readScope (hJ : ∀ s, J s → InScope user o s) (hlog : ∀ d, st.log d = d)
    {Q : Scope → St Db Token → Db → Prop}
    (h : ∀ scope s st' db', ((protocol R).during J).Inv s → scope.contains o = true →
      st'.snap = some s → (∀ d, st'.log d = d) → Q scope st' db') :
    wpe ((protocol R).during J) .serializable Err (HeldOrders.readScope user) Q st db := by
  unfold HeldOrders.readScope principal
  rw [wpe_bind, wpe_bind]
  refine wpe_read_first hlog fun v hv st1 db1 hsnap1 hlog1 => ?_
  obtain ⟨htenant, ⟨t, ht, htid, htactive⟩, u, hu, hid, hutenant, hactive, hcashier⟩ := hJ _ hv.2
  -- the user found is the one of the scope
  obtain ⟨u', hfound, hu', hp⟩ := find?_of_mem (p := fun u : User =>
    u.id == user.sub && u.tenantId == user.tenantId && u.isActive &&
      v.snap.accounts.tenants.any fun t => t.id == u.tenantId && t.isActive) hu (by
    simp only [hid, hutenant, hactive, beq_self_eq_true, Bool.and_true, Bool.true_and,
      List.any_eq_true, Bool.and_eq_true, beq_iff_eq]
    exact ⟨t, ht, htid, htactive⟩)
  have huu : u' = u := by
    simp only [Bool.and_eq_true, beq_iff_eq] at hp
    exact eq_of_key (legal_users hv.1.legal) hu' hu (hp.1.1.1.trans hid.symm)
  subst huu
  simp only [hfound, Prog.require_some, wpe_ret]
  have hwide : (Scope.mk user.tenantId none).contains o = true := by
    simp [Scope.contains, htenant]
  cases hrole : u'.role with
  | owner => exact h _ v.snap st1 db1 hv hwide hsnap1 hlog1
  | admin => exact h _ v.snap st1 db1 hv hwide hsnap1 hlog1
  | cashier =>
      obtain ⟨houtlet, x, hx, hxid, hxtenant, hxactive⟩ := hcashier hrole
      simp only [houtlet, Prog.require_some]
      unfold findOutlet
      rw [wpe_bind, wpe_ret, wpe_bind, wpe_bind]
      refine wpe_read_again (by simp) hsnap1 hlog1 fun v2 hv2 st2 db2 hsnap2 hlog2 => ?_
      obtain ⟨x', hfoundx, -⟩ := find?_of_mem (p := fun x : Outlet =>
        x.id == o.outletId && x.tenantId == user.tenantId && x.isActive) hx
        (by simp [hxid, hxtenant, hxactive])
      rw [hv2]
      simp only [hfoundx, Option.isSome_some]
      refine h _ v.snap st2 db2 hv ?_ hsnap2 hlog2
      simp [Scope.contains, htenant]

/-- The order is found. -/
theorem wpe_findInScope {s : Db} {scope : Scope} (hwf : Wf s) (ho : o ∈ s.held.heldOrders)
    (hscope : scope.contains o = true) (hsnap : st.snap = some s) (hlog : ∀ d, st.log d = d)
    {Q : HeldOrderRecord → St Db Token → Db → Prop}
    (h : ∀ record st' db', record.order = o → st'.snap = some s → (∀ d, st'.log d = d) →
      Q record st' db') :
    wpe ((protocol R).during J) .serializable Err (findInScope scope o.id) Q st db := by
  unfold findInScope
  rw [wpe_bind]
  refine wpe_read_again (by simp) hsnap hlog fun v hv st1 db1 hsnap1 hlog1 => ?_
  obtain ⟨y, hfound, hy, hp⟩ := find?_of_mem (p := fun x : HeldOrder =>
    scope.contains x && x.id == o.id) ho (by simp [hscope])
  have hyo : y = o := by
    simp only [Bool.and_eq_true, beq_iff_eq] at hp
    exact eq_of_key (legal_heldOrders hwf.legal) hy ho hp.2
  subst hyo
  rw [hv]
  simp only [hfound, Option.map_some, Prog.require_some]
  exact h _ st1 db1 rfl hsnap1 hlog1

variable {t : Transaction} {user0 : JwtPayload} {dto : CheckoutDto} {input : CheckoutHeldOrderDto}
  {link : Option Transaction}

/-- The same user and the same payment. -/
def SamePayer (user0 user : JwtPayload) (dto : CheckoutDto) (input : CheckoutHeldOrderDto) : Prop :=
  user0.sub = user.sub ∧ dto.payment.method = input.payment.method ∧
    resolveTender dto.payment = resolveTender input.payment

/-- The branch for an order that is CONVERTED already. -/
theorem wpe_replayConversion {s : Db} (hdto : ConversionRequest o dto) (hinput : input.valid = true)
    (hJ : ∀ s, J s → Retrying o t user0 dto user (toLowerCase input.clientTransactionId) link s)
    (hs : ((protocol R).during J).Inv s) (hsnap : st.snap = some s) (hlog : ∀ d, st.log d = d)
    {Q : CheckoutHeldOrderResult → St Db Token → Db → Prop}
    (hQ : ∀ result st' db', RetryAnswer t (SamePayer user0 user dto input) link
      (.ok (.conversion result)) → (∀ d, st'.log d = d) → Q result st' db')
    (herr : ∀ x, RetryAnswer t (SamePayer user0 user dto input) link (.error x) → Err x) :
    wpe ((protocol R).during J) .serializable Err (replayConversion .serializable user o input) Q
      st db := by
  obtain ⟨hlinked, hscope, hlink⟩ := hJ s hs.2
  have htenant : user.tenantId = o.tenantId := hscope.1.symm
  unfold replayConversion findLinked
  rw [wpe_bind]
  refine wpe_read_again (by simp) hsnap hlog fun v hv st1 db1 hsnap1 hlog1 => ?_
  rw [wpe_bind, hv, htenant]
  dsimp only
  rw [hlink]
  cases link with
  | none => exact herr _ .noSale
  | some x =>
      have hx := List.mem_of_find?_eq_some hlink
      simp only [Option.map_some, Prog.require_some, wpe_ret]
      rw [wpe_bind]
      refine wpe_guard (fun hguard => ?_) fun hguard => ?_
      · -- the key leads to the linked sale
        have hxt : x = t := by
          rw [hlinked.link] at hguard
          exact eq_of_key (legal_transactions hs.1.legal) hx hlinked.sale.mem
            (Option.some.inj (beq_iff_eq.mp hguard))
        subst hxt
        rw [wpe_bind]
        unfold executeTransactionCore
        rw [show ({ transaction := x, items := _, payments := _ } : TransactionRecord) =
          linkedRecord s.sales v.env.rank x from rfl,
          prepareCore_replayDto hlinked.sale v.env.rank hdto input hinput]
        have hsame : ∀ s', J s' → ∀ rank', sameRequest (recordOf s'.sales rank' x) user
            (coreRequest (replayDto o (linkedRecord s.sales v.env.rank x) input) .v1) = true ↔
              SamePayer user0 user dto input := fun s' hs' rank' =>
          sameRequest_replayDto hlinked.sale v.env.rank hdto input user (hJ s' hs').linked.sale rank'
        refine wpe_checkout_found (fun s' hs' => (hJ s' hs').scope.activeIn) hlog1
          (fun s' hs' => ?_) (fun s' hs' => (hJ s' hs').linked.sale.readable) hsame
          (fun hsame r st2 db2 hid hlog2 => ?_) fun hsame => ?_
        · have hfind := (hJ s' hs').link
          rw [← htenant] at hfind
          show s'.sales.transactions.find? (hasKey user.tenantId
            (toLowerCase (toLowerCase input.clientTransactionId))) = some x
          rw [toLowerCase_toLowerCase]
          exact hfind
        · exact hQ _ st2 db2 (.replayed hsame hid) hlog2
        · exact herr _ (.mismatch hsame)
      · refine herr _ (.otherSale fun hxt => ?_)
        subst hxt
        rw [hlinked.link, beq_self_eq_true] at hguard
        cases hguard

/-- The checkout of a CONVERTED order. -/
theorem wpe_checkout_converted {id : String} (hdto : ConversionRequest o dto)
    (hpre : prepareCheckout user id input = .ok (user.normalized, toLowerCase id, input))
    (hid : toLowerCase id = o.id) (hinput : input.valid = true)
    (hJ : ∀ s, J s → Retrying o t user0 dto user.normalized
      (toLowerCase input.clientTransactionId) link s)
    {Q : CheckoutHeldOrderResult → St Db Token → Db → Prop}
    (hQ : ∀ result st' db', RetryAnswer t (SamePayer user0 user.normalized dto input) link
      (.ok (.conversion result)) → (∀ d, st'.log d = d) → Q result st' db')
    (herr : ∀ x, RetryAnswer t (SamePayer user0 user.normalized dto input) link (.error x) →
      Err x) :
    wpe ((protocol R).during J) .serializable Err (checkoutBody user id input) Q St.start db := by
  unfold checkoutBody
  rw [hpre]
  simp only [Prog.lift_ok, Prog.ret_bind]
  unfold convertHeldOrder
  rw [wpe_bind]
  refine wpe_readScope (o := o) (fun s hs => (hJ s hs).scope) (fun _ => rfl)
    fun scope s st1 db1 hs hscope hsnap1 hlog1 => ?_
  rw [wpe_bind, hid]
  refine wpe_findInScope hs.1 (hJ s hs.2).linked.order hscope hsnap1 hlog1
    fun record st2 db2 hrecord hsnap2 hlog2 => ?_
  rw [hrecord, if_pos (hJ s hs.2).linked.status]
  exact wpe_replayConversion hdto hinput hJ hs hsnap2 hlog2 hQ herr

end Body

-- ============================================================================
-- Calls
-- ============================================================================

/-- Errors of a retry are passed on. -/
theorem handle_retryAnswer {t : Transaction} {same : Prop} {link : Option Transaction} {n : Nat}
    {x : Exc} (h : RetryAnswer t same link (.error x)) : handleCheckout n x = some x := by
  cases h <;> rfl

section Call

variable {user0 user : JwtPayload} {dto : CheckoutDto} {input : CheckoutHeldOrderDto} {id : String}
  {o : HeldOrder} {t : Transaction} {link : Option Transaction}
  (hdto : ConversionRequest o dto)
  (hpre : (Call.holdCheckout user id input).precheck = none) (hid : toLowerCase id = o.id)
include hdto hpre hid

/-- A checkout of the CONVERTED order, once it is let in. -/
theorem wpe_call_converted {R : Token → Prop} {Err : Exc → Prop} {J : Db → Prop} {db : Db}
    (hJ : ∀ s, J s → Retrying o t user0 dto user.normalized
      (toLowerCase input.clientTransactionId) link s)
    {Good : Result → (Db → Db) → Prop}
    (hgood : ∀ result log, RetryAnswer t (SamePayer user0 user.normalized dto input) link
      (.ok result) → (∀ d, log d = d) → Good result log)
    (herr : ∀ x, RetryAnswer t (SamePayer user0 user.normalized dto input) link (.error x) →
      Err x) :
    wpe ((protocol R).during J) .serializable Err (Call.holdCheckout user id input).body
      (fun result st _ => Good result st.log) St.start db := by
  obtain ⟨⟨actor, orderId, input'⟩, hprepare⟩ := errorOf_none hpre
  obtain ⟨rfl, rfl, rfl⟩ := prepareCheckout_ok hprepare
  have hvalid : input'.valid = true := by
    unfold prepareCheckout at hprepare
    obtain ⟨x, -, hcheck⟩ := Checked.bind_ok.mp hprepare
    by_contra hno
    dsimp only at hcheck
    rw [if_neg hno] at hcheck
    cases hcheck
  refine (wpe_bind _ _ _).mpr (wpe_checkout_converted hdto hprepare hid hvalid hJ ?_ herr)
  exact fun result st' db' hanswer hlog => hgood _ _ hanswer hlog

/-- A retry by itself. -/
theorem alone_converted {db : Db} (hwf : Wf db)
    (hretry : Retrying o t user0 dto user.normalized (toLowerCase input.clientTransactionId) link db)
    (envs : Nat → Env) :
    ∃ a, kasir.alone (.holdCheckout user id input) db envs = some (a, db) ∧
      RetryAnswer t (SamePayer user0 user.normalized dto input) link a := by
  let c : Call := .holdCheckout user id input
  let J := Retrying o t user0 dto user.normalized (toLowerCase input.clientTransactionId) link
  let Good : Result → (Db → Db) → Prop := fun result log =>
    RetryAnswer t (SamePayer user0 user.normalized dto input) link (.ok result) ∧ ∀ d, log d = d
  have hwpe : wpe ((protocol noMarks).during J) c.isolation
      (fun x => RetryAnswer t (SamePayer user0 user.normalized dto input) link (.error x)) c.body
      (fun result st _ => Good result st.log) St.start db :=
    wpe_call_converted hdto hpre hid (fun _ hs => hs) (fun _ _ hanswer hlog => ⟨hanswer, hlog⟩)
      fun _ hanswer => hanswer
  have hpre' : kasir.precheck c = none := hpre
  rcases kasir.alone_of_wpe hpre' hwpe ⟨hwf, hretry⟩ envs with
    ⟨result, st, ⟨hanswer, hlog⟩, halone⟩ | ⟨x, hanswer, halone⟩
  · have hlegal : kasir.legal (st.log db) = true := by
      rw [hlog]
      exact hwf.legal
    refine ⟨.ok result, ?_, hanswer⟩
    rw [halone hlegal, hlog]
  · have hhandle : kasir.handle (.holdCheckout user id input) 0 x = some x :=
      handle_retryAnswer hanswer
    refine ⟨.error x, ?_, hanswer⟩
    rw [halone, hhandle]
    rfl

/-- A retry in any interleaving, which the database breaks off with serialization
    conflicts only. -/
theorem later_converted {db0 : Db} {σ σ' : State} {ok : State → Label Env Exc Call → Prop}
    (h0 : Wf db0) (hrun : kasir.Reach db0 σ) (hsteps : kasir.Steps ok σ σ')
    (hfault : ∀ σ1 i x, ok σ1 (.fault i x) → x = .prisma .P2034)
    (hretry : ∀ {σ1 : State}, kasir.Steps ok σ σ1 →
      Retrying o t user0 dto user.normalized (toLowerCase input.clientTransactionId) link σ1.db)
    {i : Nat} (hi : σ.calls.length ≤ i) {a : Except Exc Result}
    (ha : σ'.calls[i]? = some (.holdCheckout user id input, .done a)) :
    (RetryAnswer t (SamePayer user0 user.normalized dto input) link a ∨
      a = .error transactionRetryRequired) ∧ ∀ e ∈ σ'.history, e.pid = i → e.after = e.before := by
  let c : Call := .holdCheckout user id input
  let same := SamePayer user0 user.normalized dto input
  let Good : Call → Result → (Db → Db) → Prop := fun c' result log => c' = c →
    RetryAnswer t same link (.ok result) ∧ ∀ d, log d = d
  let Err : Call → Exc → Prop := fun c' x => c' = c →
    RetryAnswer t same link (.error x) ∨ x = .prisma .P2034
  let J := Retrying o t user0 dto user.normalized (toLowerCase input.clientTransactionId) link
  have hbody : ∀ c', kasir.precheck c' = none → ∀ db, ((protocol noMarks).during J).Inv db →
      wpe ((protocol noMarks).during J) (kasir.iso c') (Err c') (kasir.body c')
        (fun result st _ => Good c' result st.log) St.start db := by
    intro c' hpre' db _
    by_cases hcc : c' = c
    · subst hcc
      exact wpe_call_converted hdto hpre' hid (fun _ hs => hs)
        (fun _ _ hanswer hlog _ => ⟨hanswer, hlog⟩) fun _ hanswer _ => Or.inl hanswer
    · exact wpe_mono (fun _ _ _ _ heq => absurd heq hcc) (wpe_of_any fun x heq => absurd heq hcc)
  have hsettled := settled_reach h0 hbody
    (fun σ1 j c1 n tx p hok _ _ => Or.inr (hfault σ1 j _ hok)) hretry hrun hsteps
  have hsound := reach_sound h0 (hsteps.run (fun _ _ _ => trivial) hrun)
  refine ⟨?_, fun e he hpid => ?_⟩
  · cases a with
    | ok result =>
        obtain ⟨e, he, rfl, hcall, rfl⟩ := hsound.commit_of_answer ha
        obtain ⟨log, hgood, -⟩ := hsettled.committed e he hi
        exact Or.inl (hgood hcall).1
    | error x =>
        rcases hsettled.failed i c x hi ha with hrejected | ⟨n, x', herr, hhandle⟩
        · have hnone : kasir.precheck c = none := hpre
          rw [hnone] at hrejected
          cases hrejected
        · have hcheckout : handleCheckout n x' = some x := hhandle
          rcases herr rfl with hanswer | rfl
          · rw [handle_retryAnswer hanswer] at hcheckout
            obtain rfl := Option.some.inj hcheckout
            exact Or.inl hanswer
          · unfold handleCheckout at hcheckout
            dsimp only at hcheckout
            split at hcheckout
            · cases hcheckout
            · exact Or.inr (congrArg Except.error (Option.some.inj hcheckout).symm)
  · have howner := hsound.owner e he
    rw [hpid, ha] at howner
    obtain ⟨hcall, -⟩ := Prod.mk.inj (Option.some.inj howner)
    obtain ⟨log, hgood, hafter⟩ := hsettled.committed e he (hpid ▸ hi)
    rw [hafter, (hgood hcall.symm).2]

end Call

-- ============================================================================
-- Conversions
-- ============================================================================

/-- A sale that is recorded answers its request. -/
theorem Transactions.NewSale.foundSale {R : Token → Prop} {tx : TransactionClient}
    {user : JwtPayload} {dto : CheckoutDto} {mode : CheckoutMode} {sale : Sale}
    {r : TransactionResponse} {seen : List Db} {a b : Db}
    (h : NewSale R tx user dto mode sale r seen a) (hwf : Wf a) (hwell : Wellformed dto)
    (hb : b.sales = sale.rows.sales a.sales) : FoundSale user dto r b := by
  obtain ⟨rank, hr⟩ := h.response
  have hown : recordOf b.sales rank sale.rows.transaction =
      recordOf (sale.rows.sales {}) rank sale.rows.transaction := by
    rw [hb]
    exact SaleRows.recordOf_own hwf h.built.linked h.fresh h.freshItems rank
  have hasked := h.built.asked hwell h.nodupItems rank
  refine ⟨rank, sale.rows.transaction, ?_, h.built.hasKey, ?_, ?_⟩
  · rw [hb]
    exact List.mem_append_right _ (List.mem_singleton.mpr rfl)
  · rw [hown]
    exact (sameRequest_iff hasked).mpr ⟨rfl, rfl, rfl, rfl, rfl, ⟨rfl, rfl⟩, rfl⟩
  · rw [hown]
    exact hr

/-- What a conversion has left: the order as it is since, the sale it is linked to, and
    the request of the conversion. -/
structure LeftBy (user : JwtPayload) (id : String) (input : CheckoutHeldOrderDto)
    (resp : TransactionResponse) (o : HeldOrder) (t : Transaction) (dto : CheckoutDto) : Prop where
  id : o.id = toLowerCase id
  request : ConversionRequest o dto
  payment : dto.payment = input.payment
  key : dto.clientTransactionId = toLowerCase input.clientTransactionId
  answer : resp.transactionId = t.id

section Step

variable {R : Token → Prop} {seen : List Db} {a b : Db} {user : JwtPayload} {id : String}
  {input : CheckoutHeldOrderDto}

/-- An order that is converted is linked to a sale that answers its request. -/
theorem Effect.linked {resp : TransactionResponse}
    (h : Effect R (.holdCheckout user id input) (.conversion ⟨resp, false⟩) seen a b) (hwf : Wf a)
    (hsales : SalesOk b) : ∃ o t dto, LeftBy user id input resp o t dto ∧
      Linked o t user.normalized dto b := by
  rcases h.conversion_cases with ⟨_, _, _, heq, -⟩ |
    ⟨record, x, resp', env, heq, horder, hheld, hsale, haccepted⟩
  · cases heq
  · cases heq
    obtain ⟨hrecord, -⟩ := horder.lines hwf
    have hfound : FoundSale user.normalized (coreRequest (heldCheckoutDto record input) .v1) resp
        b := by
      rcases hsale with ⟨hfound, hs, -⟩ | ⟨sale, hnew, hs, -⟩
      · obtain ⟨rank, t, ht, hkey, hsame, hr⟩ := hfound
        exact ⟨rank, t, hs ▸ ht, hkey, hs ▸ hsame, hs ▸ hr⟩
      · exact hnew.foundSale hwf haccepted.wellformed hs
    obtain ⟨t, hanswers, hid⟩ := hfound.answers
    refine ⟨conversionRow resp.transactionId env x, t, _,
      { id := horder.target.id, payment := rfl, answer := hid, key := toLowerCase_toLowerCase _
        request :=
          { wellformed := haccepted.wellformed, normal := coreRequest_coreRequest _ _
            outletId := by rw [← hrecord]; rfl
            session := by rw [← hrecord]; rfl
            customer := rfl } },
      { order := ?_, status := rfl, link := congrArg some hid, tenant := horder.target.tenantId
        sale := hanswers, sales := hsales }⟩
    rw [hheld]
    exact Held.mem_edit.mpr ⟨x, horder.target.mem, if_pos horder.target.id⟩

/-- An order that is linked stays so. -/
theorem Linked.later {o : HeldOrder} {t : Transaction} {dto : CheckoutDto}
    (h : Linked o t user dto a) (hstays : TerminalStays a b) (hgrows : Sales.Grows a.sales b.sales)
    (hsales : SalesOk b) : Linked o t user dto b :=
  { h with
    order := hstays.mem h.order (by rw [h.status]; decide)
    sale := h.sale.later hgrows, sales := hsales }

/-- The only sale with the key of the linked one is the linked one. -/
theorem Linked.eq_of_key {o : HeldOrder} {t x : Transaction} {dto : CheckoutDto}
    (h : Linked o t user dto a) {tenantId key : Id} (hx : x ∈ a.sales.transactions)
    (hkey : hasKey tenantId key x = true) (ht : hasKey tenantId key t = true) : x = t :=
  h.sales.uniqueKey x hx t h.sale.mem tenantId key hkey ht

end Step

section Runs

variable {db0 : Db} {σ : State} {e e' : KasirCommit}

/-- An order leaves OPEN for CONVERTED in one commit at most. -/
theorem converted_once (h : KasirSound noMarks db0 σ) (he : e ∈ σ.history) (he' : e' ∈ σ.history)
    {orderId : Id}
    (hbefore : ∃ x ∈ e.before.held.heldOrders, x.id = orderId ∧ x.status = .open)
    (hafter : ∃ x ∈ e.after.held.heldOrders, x.id = orderId ∧ x.status = .converted)
    (hbefore' : ∃ x ∈ e'.before.held.heldOrders, x.id = orderId ∧ x.status = .open)
    (hafter' : ∃ x ∈ e'.after.held.heldOrders, x.id = orderId ∧ x.status = .converted) :
    e' = e := by
  -- what one commit leaves CONVERTED a later one does not find OPEN
  have hclash : ∀ {c d : KasirCommit}, d ∈ σ.history → TerminalStays c.after d.before →
      (∃ x ∈ c.after.held.heldOrders, x.id = orderId ∧ x.status = .converted) →
      (∃ x ∈ d.before.held.heldOrders, x.id = orderId ∧ x.status = .open) → False := by
    rintro c d hd hstays ⟨x, hx, hxid, hconverted⟩ ⟨y, hy, hyid, hopen⟩
    have hmem := hstays.mem hx (by rw [hconverted]; decide)
    have hxy := eq_of_key (legal_heldOrders (h.commits d hd).invBefore.legal) hmem hy
      (hxid.trans hyid.symm)
    rw [hxy, hopen] at hconverted
    cases hconverted
  by_contra hne
  rcases terminal_ordered h he he' (Ne.symm hne) with hstays | hstays
  · exact hclash he' hstays hafter hbefore'
  · exact hclash he hstays hafter' hbefore

variable {user : JwtPayload} {id : String} {input : CheckoutHeldOrderDto}
  {resp : TransactionResponse}

/-- A conversion finds its order OPEN and leaves it CONVERTED. -/
theorem transition_of_conversion (h : KasirSound noMarks db0 σ) (he : e ∈ σ.history)
    (hcall : e.call = .holdCheckout user id input) (hresult : e.result = .conversion ⟨resp, false⟩) :
    (∃ x ∈ e.before.held.heldOrders, x.id = toLowerCase id ∧ x.status = .open) ∧
      ∃ x ∈ e.after.held.heldOrders, x.id = toLowerCase id ∧ x.status = .converted := by
  have hpost := (h.commits e he).post
  rw [hcall, hresult] at hpost
  rcases hpost.conversion_cases with ⟨_, _, _, heq, -⟩ | ⟨record, x, resp', env, -, horder, hheld, -⟩
  · cases heq
  · refine ⟨⟨x, horder.target.mem, horder.target.id, horder.target.status⟩,
      conversionRow resp'.transactionId env x, ?_, horder.target.id, rfl⟩
    rw [hheld]
    exact Held.mem_edit.mpr ⟨x, horder.target.mem, if_pos horder.target.id⟩

/-- A conversion's order and sale, in the state reached. -/
theorem linked_of_conversion (h0 : SalesOk db0) (h : KasirSound noMarks db0 σ) (he : e ∈ σ.history)
    (hcall : e.call = .holdCheckout user id input) (hresult : e.result = .conversion ⟨resp, false⟩) :
    ∃ o t dto, LeftBy user id input resp o t dto ∧ Linked o t user.normalized dto e.after ∧
      ∀ {s : Db}, TerminalStays e.after s → Sales.Grows e.after.sales s.sales → SalesOk s →
        Linked o t user.normalized dto s := by
  have hcommit := h.commits e he
  have hpost := hcommit.post
  rw [hcall, hresult] at hpost
  have hsales : SalesOk e.after :=
    (h.invariant_commit SalesOk h0 (fun _ he ha => ha.step he.invBefore he.post) he).2
  obtain ⟨o, t, dto, hleft, hlinked⟩ := hpost.linked hcommit.invBefore hsales
  exact ⟨o, t, dto, hleft, hlinked, fun hstays hgrows hs => hlinked.later hstays hgrows hs⟩

/-- Any other checkout of the order that succeeds is a replay, and writes nothing. -/
theorem replay_of_other (h0 : SalesOk db0) (h : KasirSound noMarks db0 σ) (he : e ∈ σ.history)
    (hcall : e.call = .holdCheckout user id input) (hresult : e.result = .conversion ⟨resp, false⟩)
    {o : HeldOrder} {t : Transaction} {dto : CheckoutDto}
    (hleft : LeftBy user id input resp o t dto) (hlinked : Linked o t user.normalized dto σ.db)
    (he' : e' ∈ σ.history) {user' : JwtPayload} {id' : String} {input' : CheckoutHeldOrderDto}
    (hcall' : e'.call = .holdCheckout user' id' input') (hid : toLowerCase id' = o.id) :
    e' = e ∨ ∃ r, e'.result = .conversion ⟨r, true⟩ ∧ r.transactionId = t.id ∧
      e'.after = e'.before := by
  have hcommit' := h.commits e' he'
  have hpost' := hcommit'.post
  rw [hcall'] at hpost'
  rcases hpost'.conversion_cases with ⟨order, existing, r, hr, hreplay, hfound, hsame⟩ |
    ⟨record, x, resp', env, hr, -⟩
  · refine Or.inr ⟨r, hr, ?_, hsame⟩
    -- the order that was read is the order of the end
    obtain ⟨s, hs, -, -, horder, hoid, -, hconverted⟩ := hreplay.read
    have hstatus : order.status ≠ .open := by rw [hconverted]; decide
    have hstays : TerminalStays s σ.db := (terminal_of_mem_seen h he' hs).trans
      ((terminalStays_commit hcommit').trans
        (terminal_of_mem_states h (mem_states.mpr (Or.inr ⟨e', he', rfl⟩))))
    have hfinal : Wf σ.db := h.inv
    have hoo : order = o := eq_of_key (legal_heldOrders hfinal.legal) (hstays.mem horder hstatus)
      hlinked.order (hoid.trans hid)
    subst hoo
    -- and the sale found is the linked one
    obtain ⟨s', -, -, hev, t', ht', hkey', -, hlink'⟩ := hreplay.linked
    obtain ⟨t'', hanswers, hrid⟩ := hfound.answers
    have hkey'' := hanswers.hasKey
    have hlower : (coreRequest (replayDto order existing input') .v1).clientTransactionId =
        toLowerCase input'.clientTransactionId := toLowerCase_toLowerCase _
    rw [hlower] at hkey''
    have htt : t' = t'' := (h0.before h he').uniqueKey t' (hev.sales.mem ht') t'' hanswers.mem _ _
      hkey' hkey''
    rw [hrid, ← htt]
    exact Option.some.inj (hlink'.symm.trans hlinked.link)
  · left
    obtain ⟨hbefore, hafter⟩ := transition_of_conversion h he hcall hresult
    obtain ⟨hbefore', hafter'⟩ := transition_of_conversion h he' hcall' hr
    rw [hid.trans hleft.id] at hbefore' hafter'
    exact converted_once h he he' hbefore hafter hbefore' hafter'

/-- The same user pays in the same way. -/
def SentAgain (user : JwtPayload) (input : CheckoutHeldOrderDto) (user' : JwtPayload)
    (input' : CheckoutHeldOrderDto) : Prop :=
  toLowerCase user.sub = toLowerCase user'.sub ∧ input.payment.method = input'.payment.method ∧
    resolveTender input.payment = resolveTender input'.payment

/-- A step of a run while a user sends a conversion again: the user stays active and
    `readScope` admits the order, a key without a sale stays without, and the
    database breaks transactions off with serialization conflicts only. -/
def RetryStep (user : JwtPayload) (o : HeldOrder) (key : Id) (link : Option Transaction) (σ : State)
    (l : Label Env Exc Call) : Prop :=
  kasir.Into (fun s => InScope user o s ∧ (link = none → saleWithKey o.tenantId key s = none)) σ l ∧
    ∀ i x, l = .fault i x → x = .prisma .P2034

/-- What the steps keep of the state they start from. -/
theorem Linked.retrying {σ' : State} {o : HeldOrder} {t : Transaction} {dto : CheckoutDto}
    {user' : JwtPayload} {key : Id} (h0 : Wf db0) (hsales : SalesOk db0) (hrun : kasir.Reach db0 σ)
    (hlinked : Linked o t user dto σ.db) (hscope : InScope user' o σ.db)
    (hsteps : kasir.Steps (RetryStep user' o key (saleWithKey o.tenantId key σ.db)) σ σ') :
    Retrying o t user dto user' key (saleWithKey o.tenantId key σ.db) σ'.db := by
  have hsound := reach_sound h0 hrun
  have hsound' := reach_sound h0 (hsteps.run (fun _ _ _ => trivial) hrun)
  have hstate := hsteps.mem_states hsound
  have hgrows := (hsound'.evolves_of_mem_states hstate).sales
  have hok := hsales.invariant hsound'
  obtain ⟨hscope', hfree⟩ := hsteps.holds (fun _ _ hl => hl.1) ⟨hscope, fun hnone => hnone⟩
  refine ⟨hlinked.later (terminal_of_mem_states hsound' hstate) hgrows hok, hscope', ?_⟩
  show saleWithKey o.tenantId key σ'.db = _
  cases hlink : saleWithKey o.tenantId key σ.db with
  | none => exact hfree hlink
  | some x =>
      -- a key keeps its sale
      have hkey : hasKey o.tenantId key x = true := List.find?_some hlink
      have hx := hgrows.mem (List.mem_of_find?_eq_some hlink)
      obtain ⟨y, hfound, hy, hkeyy⟩ := find?_of_mem hx hkey
      rw [saleWithKey, hfound, hok.uniqueKey y hy x hx _ _ hkeyy hkey]

/-- **The retry law of held orders.**  A checkout has converted an order.  In every
    later state the order is linked to one sale, which has the key of that checkout;
    the order left OPEN for CONVERTED in that commit only, and every other checkout
    of it that has succeeded is a replay that wrote nothing.  Whoever sends a checkout
    of the order then, active and in its scope and with whatever version, is answered
    as `RetryAnswer` says and writes nothing: alone, and in any interleaving, where
    the third serialization conflict is answered with a request to retry. -/
theorem held_order_retry_law (h0 : Wf db0) (hsales : SalesOk db0) (hrun : kasir.Reach db0 σ)
    (he : e ∈ σ.history) (hcall : e.call = .holdCheckout user id input)
    (hresult : e.result = .conversion ⟨resp, false⟩) :
    ∃ o t, (o ∈ σ.db.held.heldOrders ∧ o.id = toLowerCase id ∧ o.status = .converted ∧
        o.convertedTransactionId = some t.id) ∧
      (t ∈ σ.db.sales.transactions ∧ resp.transactionId = t.id ∧
        saleWithKey o.tenantId (toLowerCase input.clientTransactionId) σ.db = some t) ∧
      (∀ e' ∈ σ.history, (∃ x ∈ e'.before.held.heldOrders, x.id = o.id ∧ x.status = .open) →
        (∃ x ∈ e'.after.held.heldOrders, x.id = o.id ∧ x.status = .converted) → e' = e) ∧
      (∀ e' ∈ σ.history, ∀ user' id' input', e'.call = .holdCheckout user' id' input' →
        toLowerCase id' = o.id → e' = e ∨
          ∃ r, e'.result = .conversion ⟨r, true⟩ ∧ r.transactionId = t.id ∧ e'.after = e'.before) ∧
      ∀ user' id' input', (Call.holdCheckout user' id' input').precheck = none →
        toLowerCase id' = o.id → InScope user'.normalized o σ.db →
        let key := toLowerCase input'.clientTransactionId
        let link := saleWithKey o.tenantId key σ.db
        (∀ envs, ∃ a, kasir.alone (.holdCheckout user' id' input') σ.db envs = some (a, σ.db) ∧
          RetryAnswer t (SentAgain user input user' input') link a) ∧
        (∀ σ', kasir.Steps (RetryStep user'.normalized o key link) σ σ' →
          ∀ i a, σ.calls.length ≤ i →
          σ'.calls[i]? = some (.holdCheckout user' id' input', .done a) →
          (RetryAnswer t (SentAgain user input user' input') link a ∨
            a = .error transactionRetryRequired) ∧
          ∀ e' ∈ σ'.history, e'.pid = i → e'.after = e'.before) ∧
        ∀ n, kasir.handle (.holdCheckout user' id' input') n (.prisma .P2034) =
          if n < 2 then none else some transactionRetryRequired := by
  have hsound := reach_sound h0 hrun
  obtain ⟨o, t, dto, hleft, -, hlater⟩ := linked_of_conversion hsales hsound he hcall hresult
  have hstate : e.after ∈ states db0 σ.history := mem_states.mpr (Or.inr ⟨e, he, rfl⟩)
  have hlinked := hlater (terminal_of_mem_states hsound hstate)
    (hsound.evolves_of_mem_states hstate).sales (hsales.invariant hsound)
  obtain ⟨hbefore, hafter⟩ := transition_of_conversion hsound he hcall hresult
  rw [← hleft.id] at hbefore hafter
  refine ⟨o, t, ⟨hlinked.order, hleft.id, hlinked.status, hlinked.link⟩,
    ⟨hlinked.sale.mem, hleft.answer, ?_⟩, ?_, ?_, ?_⟩
  · have hkey := hlinked.sale.hasKey
    rw [hleft.key, ← hlinked.tenant] at hkey
    obtain ⟨y, hfound, hy, hkeyy⟩ := find?_of_mem hlinked.sale.mem hkey
    rw [saleWithKey, hfound, hlinked.eq_of_key hy hkeyy hkey]
  · exact fun e' he' hb ha => converted_once hsound he he' hbefore hafter hb ha
  · exact fun e' he' user' id' input' hcall' hid =>
      replay_of_other hsales hsound he hcall hresult hleft hlinked he' hcall' hid
  · intro user' id' input' hpre hid hscope key link
    have hsame : SamePayer user.normalized user'.normalized dto input' =
        SentAgain user input user' input' := by
      unfold SamePayer SentAgain
      rw [hleft.payment]
      rfl
    have hretry : ∀ {σ1 : State}, kasir.Steps (RetryStep user'.normalized o key link) σ σ1 →
        Retrying o t user.normalized dto user'.normalized key link σ1.db :=
      fun hsteps => hlinked.retrying h0 hsales hrun hscope hsteps
    refine ⟨fun envs => ?_, fun σ' hsteps i a hi ha => ?_, fun n => rfl⟩
    · rw [← hsame]
      exact alone_converted hleft.request hpre hid hsound.inv (hretry .refl) envs
    · rw [← hsame]
      exact later_converted hleft.request hpre hid h0 hrun hsteps
        (fun σ1 j x hok => hok.2 j x rfl) hretry hi ha

end Runs

/-- The second of two calls converts an order. -/
def Shop.secondConverts : Shop.Turns → Bool
  | [_, ⟨_, .ok (.conversion ⟨_, false⟩), _, _⟩] => true
  | _ => false

/-- In the shop a held order is sold, and its checkout is sent again with another
    version. -/
theorem held_order_retry_law_shop :
    ∃ (σ : State) (e : KasirCommit) (resp : TransactionResponse) (t : Transaction)
      (a : Except Exc Result), kasir.Reach Shop.db σ ∧ e ∈ σ.history ∧
      e.result = .conversion ⟨resp, false⟩ ∧ resp.transactionId = t.id ∧
      kasir.alone (Shop.sellHeld (Shop.uuid 2 7 0) 77 (Shop.uuid 9 9 9)) σ.db (Shop.envs 3) =
        some (a, σ.db) ∧
      RetryAnswer t True (some t) a := by
  obtain ⟨σ, turns, hrun, hp, hturns, -, hhistory⟩ := Shop.run noMarks
    [(Shop.hold Shop.coffee, Shop.envs 1),
      (Shop.sellHeld (Shop.uuid 2 7 0) 1 (Shop.uuid 9 9 9), Shop.envs 2)]
    (fun turns db =>
      Shop.secondConverts turns &&
      db.held.heldOrders.all (fun o => o.tenantId == Shop.tenant && o.outletId == Shop.outlet) &&
      decide (db.accounts = Shop.db.accounts))
    (by decide +kernel)
  simp only [Bool.and_eq_true, decide_eq_true_eq, List.all_eq_true, beq_iff_eq] at hp
  obtain ⟨⟨hlast, horders⟩, haccounts⟩ := hp
  unfold Shop.secondConverts at hlast
  split at hlast
  · rename_i first last resp before after
    simp only [List.map_cons, List.map_nil, List.cons.injEq, and_true] at hturns
    obtain ⟨-, rfl⟩ := hturns
    obtain ⟨e, he, hcall, hresult, -⟩ := App.mem_history hhistory
      (List.mem_cons_of_mem _ (List.mem_cons_self ..))
    obtain ⟨o, t, ⟨ho, hid, -⟩, ⟨-, hresp, hlink⟩, -, -, hretry⟩ :=
      held_order_retry_law Shop.wf Shop.salesOk hrun.reach he hcall hresult
    obtain ⟨htenant, houtlet⟩ := horders o ho
    have hscope : InScope Shop.user.normalized o σ.db := by
      unfold InScope
      rw [haccounts, htenant, houtlet]
      decide +kernel
    obtain ⟨a, halone, hanswer⟩ := (hretry Shop.user (Shop.uuid 2 7 0)
      { expectedVersion := 77, clientTransactionId := Shop.uuid 9 9 9
        payment := { method := .cash, amountReceived := some 3000 } }
      (by decide +kernel) hid.symm hscope).1 (Shop.envs 3)
    dsimp only at hanswer
    rw [hlink] at hanswer
    have hsame : SentAgain Shop.user
        { expectedVersion := 1, clientTransactionId := Shop.uuid 9 9 9
          payment := { method := .cash, amountReceived := some 3000 } } Shop.user
        { expectedVersion := 77, clientTransactionId := Shop.uuid 9 9 9
          payment := { method := .cash, amountReceived := some 3000 } } = True :=
      eq_true ⟨rfl, rfl, rfl⟩
    rw [hsame] at hanswer
    exact ⟨σ, e, resp, t, a, hrun.reach, he, hresult, hresp, halone, hanswer⟩
  · cases hlast

end Kasir
