/-
  Kasir.Guarantees.SameKey

  A key used again.

  A sale request with the key of a stored sale is compared with the sale.  It is
  accepted exactly if it asks for the same as the request that made the sale,
  whatever has become of the catalog, of tax, of stock and of the session since; and
  neither outcome writes anything.
-/

import Kasir.SaleContents

namespace Kasir

open Txn Js Transactions

-- ============================================================================
-- Stored sales and their requests
-- ============================================================================

/-- The request that a stored sale is of. -/
structure Known (rows : SaleRows) (user : JwtPayload) (dto : CheckoutDto) (mode : CheckoutMode) :
    Prop where
  linked : rows.Linked
  asked : ∀ rank, (recordOf (rows.sales {}) rank rows.transaction).Asked user dto
  normal : NormalRequest user dto mode
  readable : ∀ db, rows.Stored db → ∀ rank,
    toResponse (recordOf db.sales rank rows.transaction) noLegacyProducts =
      .ok ((recordOf db.sales rank rows.transaction).response noLegacyProducts)

/-- A sale of the run is known by the request that made it. -/
theorem RecordedBy.known {R : Token → Prop} {e : KasirCommit} {user : JwtPayload}
    {dto : CheckoutDto} {mode : CheckoutMode} {tx : TransactionClient} {sale : Sale}
    {r : TransactionResponse} (h : RecordedBy R e user dto mode tx sale r)
    (hadmitted : e.call.precheck = none) : Known sale.rows user dto mode where
  linked := h.made.built.linked
  asked := h.made.built.asked (h.wellformed hadmitted) h.made.nodupItems
  normal := h.normalRequest hadmitted
  readable := fun _ hstored rank => h.made.toResponse_recordOf hstored rank noLegacyProducts

/-- A stored sale compares equal to a request exactly if both requests ask for the
    same. -/
theorem Known.sameRequest_iff {rows : SaleRows} {user user' : JwtPayload} {dto dto' : CheckoutDto}
    {mode mode' : CheckoutMode} {db : Db} (h : Known rows user dto mode) (hstored : rows.Stored db)
    (hnormal : NormalRequest user' dto' mode') (rank : Id → Nat) :
    sameRequest (recordOf db.sales rank rows.transaction) user' dto' = true ↔
      logicalRequest user dto mode = logicalRequest user' dto' mode' := by
  rw [hstored.recordOf_eq h.linked]
  exact sameRequest_iff_logical (h.asked rank) h.normal hnormal

-- ============================================================================
-- The answer of the core
-- ============================================================================

/-- The actor and the tenant are active. -/
structure ActiveIn (user : JwtPayload) (db : Db) : Prop where
  actor : ∃ u ∈ db.accounts.users, u.id = user.sub ∧ u.tenantId = user.tenantId ∧
    u.isActive = true
  tenant : ∃ t ∈ db.accounts.tenants, t.id = user.tenantId ∧ t.isActive = true

/-- The sale is stored, keys are not used twice, and the actor and the tenant are
    active. -/
structure Remembers (rows : SaleRows) (user : JwtPayload) (db : Db) : Prop where
  stored : rows.Stored db
  sales : SalesOk db
  active : ActiveIn user db

/-- The key leads to the sale. -/
theorem Remembers.find_key {rows : SaleRows} {user : JwtPayload} {db : Db}
    (h : Remembers rows user db) {t k : Id} (hkey : hasKey t k rows.transaction = true) :
    db.sales.transactions.find? (hasKey t k) = some rows.transaction := by
  obtain ⟨y, hy, hmem, hkeyed⟩ := find?_of_mem h.stored.transaction hkey
  have hsame := h.sales.uniqueKey y hmem _ h.stored.transaction t k hkeyed hkey
  rw [hy, hsame]

section Core

variable {R : Token → Prop} {iso : Isolation} {Err : Exc → Prop} {rows : SaleRows}
  {user : JwtPayload} {J : Db → Prop} {st : St Db Token} {db : Db}

/-- An active actor is let in. -/
theorem wpe_authorize (hJ : ∀ s, J s → ActiveIn user s) (hlog : ∀ d, st.log d = d)
    {Q : User × Tenant → St Db Token → Db → Prop}
    (h : ∀ x st' db', (∀ d, st'.log d = d) → Q x st' db') :
    wpe ((protocol R).during J) iso Err (authorize user) Q st db := by
  unfold authorize
  rw [wpe_bind]
  refine wpe_read_only hlog fun v1 hv1 st1 db1 hlog1 => ?_
  rw [wpe_bind]
  refine wpe_read_only hlog1 fun v2 hv2 st2 db2 hlog2 => ?_
  obtain ⟨u, hu, hid, htenant, hactive⟩ := (hJ _ hv1.2).actor
  obtain ⟨t, ht, htid, htactive⟩ := (hJ _ hv2.2).tenant
  obtain ⟨u', hfound, -⟩ := find?_of_mem (p := fun u : User =>
    u.id == user.sub && u.tenantId == user.tenantId && u.isActive) hu (by simp [hid, htenant, hactive])
  obtain ⟨t', hfound', -⟩ := find?_of_mem (p := fun t : Tenant =>
    t.id == user.tenantId && t.isActive) ht (by simp [htid, htactive])
  simp only [hfound, hfound']
  exact h _ st2 db2 hlog2

/-- A request whose key leads to a sale: it is compared with the sale, and answered
    with it or refused. -/
theorem wpe_checkout_found {t : Transaction} {dto : CheckoutDto} {mode : CheckoutMode} {same : Prop}
    (hactive : ∀ s, J s → ActiveIn user s) (hlog : ∀ d, st.log d = d)
    (hfind : ∀ s, J s →
      s.sales.transactions.find? (hasKey user.tenantId dto.clientTransactionId) = some t)
    (hreadable : ∀ s, J s → ∀ rank, toResponse (recordOf s.sales rank t) noLegacyProducts =
      .ok ((recordOf s.sales rank t).response noLegacyProducts))
    (hsame : ∀ s, J s → ∀ rank, sameRequest (recordOf s.sales rank t) user dto = true ↔ same)
    {Q : TransactionResponse → St Db Token → Db → Prop}
    (hQ : same → ∀ r st' db', r.transactionId = t.id → (∀ d, st'.log d = d) → Q r st' db')
    (herr : ¬ same → Err idempotencyPayloadMismatch) :
    wpe ((protocol R).during J) iso Err (checkout iso user dto mode) Q st db := by
  unfold checkout
  rw [wpe_bind]
  refine wpe_authorize hactive hlog fun x st1 db1 hlog1 => ?_
  obtain ⟨actor, tenant⟩ := x
  dsimp only
  rw [wpe_bind]
  refine wpe_read_only hlog1 fun v hv st2 db2 hlog2 => ?_
  simp only [hfind _ hv.2, Option.map_some]
  rw [wpe_bind]
  unfold assertSameRequest
  have hsame := hsame _ hv.2 v.env.rank
  by_cases heq : sameRequest (recordOf v.snap.sales v.env.rank t) user dto = true
  · rw [if_pos heq, hreadable _ hv.2]
    exact hQ (hsame.mp heq) _ st2 db2 rfl hlog2
  · rw [if_neg heq]
    exact herr fun hyes => heq (hsame.mpr hyes)

/-- The core, given a request with the key of a stored sale. -/
theorem wpe_core_stored {dto0 dto d : CheckoutDto} {user0 : JwtPayload}
    {mode0 mode : CheckoutMode} (hcore : prepareCore dto mode = .ok d)
    (hknown : Known rows user0 dto0 mode0) (hnormal : NormalRequest user d mode)
    (hJ : ∀ s, J s → Remembers rows user s) (hlog : ∀ d, st.log d = d)
    (hkey : hasKey user.tenantId d.clientTransactionId rows.transaction = true)
    {Q : TransactionResponse → St Db Token → Db → Prop}
    (hQ : logicalRequest user0 dto0 mode0 = logicalRequest user d mode → ∀ r st' db',
      r.transactionId = rows.transaction.id → (∀ d, st'.log d = d) → Q r st' db')
    (herr : logicalRequest user0 dto0 mode0 ≠ logicalRequest user d mode →
      Err idempotencyPayloadMismatch) :
    wpe ((protocol R).during J) iso Err (executeTransactionCore iso user dto mode) Q st db := by
  unfold executeTransactionCore
  rw [hcore]
  exact wpe_checkout_found (fun s hs => (hJ s hs).active) hlog (fun s hs => (hJ s hs).find_key hkey)
    (fun s hs => hknown.readable s (hJ s hs).stored)
    (fun s hs => hknown.sameRequest_iff (hJ s hs).stored hnormal) hQ herr

end Core

-- ============================================================================
-- Sale requests
-- ============================================================================

/-- What a sale call makes of its arguments, once it is let in. -/
theorem prepare_of_precheck {c : Call} {user : JwtPayload} {input : CheckoutDto}
    {mode : CheckoutMode} (hc : saleInput c = some (user, input, mode)) (h : c.precheck = none) :
    prepare user input mode = .ok (user.normalized, coreRequest input mode) := by
  cases c with
  | create user' input' =>
      obtain ⟨⟨u, d⟩, hprepare⟩ := errorOf_none h
      cases hc
      obtain ⟨rfl, rfl, -⟩ := prepare_eq hprepare
      exact hprepare
  | createLegacySync user' input' =>
      obtain ⟨⟨u, d⟩, hx⟩ := errorOf_none h
      obtain ⟨d', hd, hprepare⟩ := Checked.bind_ok.mp hx
      cases hc
      unfold prepareLegacySync at hd
      split at hd
      · cases hd
      · obtain rfl := Except.ok.inj hd
        obtain ⟨rfl, rfl, -⟩ := prepare_eq hprepare
        exact hprepare
  | _ => cases hc

/-- A sale call with the key of a stored sale. -/
theorem wpe_sale_stored {R : Token → Prop} {Err : Exc → Prop} {rows : SaleRows} {J : Db → Prop}
    {db : Db} {user0 user : JwtPayload} {dto0 input : CheckoutDto} {mode0 mode : CheckoutMode}
    {c : Call} (hc : saleInput c = some (user, input, mode)) (hpre : c.precheck = none)
    (hknown : Known rows user0 dto0 mode0) (hJ : ∀ s, J s → Remembers rows user.normalized s)
    (hkey : hasKey user.normalized.tenantId (coreRequest input mode).clientTransactionId
      rows.transaction = true)
    {Good : Result → (Db → Db) → Prop}
    (hgood : logicalRequest user0 dto0 mode0 = logicalRequest user input mode → ∀ r log,
      r.transactionId = rows.transaction.id → (∀ d, log d = d) → Good (.sale r) log)
    (herr : logicalRequest user0 dto0 mode0 ≠ logicalRequest user input mode →
      Err idempotencyPayloadMismatch) :
    wpe ((protocol R).during J) c.isolation Err c.body (fun r st _ => Good r st.log) St.start
      db := by
  have hprepare := prepare_of_precheck hc hpre
  have hnormal : NormalRequest user.normalized (coreRequest input mode) mode :=
    (wellformed_of_precheck hc hpre).normalRequest
  have hcore := prepareCore_of_prepare hprepare
  rw [← logicalRequest_coreRequest user input mode] at hgood herr
  have hbody : wpe ((protocol R).during J) .readCommitted Err (createBody user input mode)
      (fun r st _ => Good (.sale r) st.log) St.start db := by
    unfold createBody
    rw [hprepare]
    exact wpe_core_stored hcore hknown hnormal hJ (fun _ => rfl) hkey
      (fun hsame r st' _ hid hlog => hgood hsame r st'.log hid hlog) herr
  cases c with
  | create user' input' =>
      cases hc
      exact (wpe_bind _ _ _).mpr hbody
  | createLegacySync user' input' =>
      cases hc
      exact (wpe_bind _ _ _).mpr hbody
  | _ => cases hc

-- ============================================================================
-- A request with the key of a stored sale
-- ============================================================================

/-- The core, by itself, with the key of a stored sale. -/
theorem core_of_stored {rows : SaleRows} {user0 user' : JwtPayload} {dto0 dto' d : CheckoutDto}
    {mode0 mode' : CheckoutMode} {tx' : TransactionClient} {db : Db} (hwf : Wf db)
    (hknown : Known rows user0 dto0 mode0) (hremembers : Remembers rows user' db)
    (hcore : prepareCore dto' mode' = .ok d) (hnormal : NormalRequest user' d mode')
    (hkey : hasKey user'.tenantId d.clientTransactionId rows.transaction = true)
    (envs : Nat → Env) :
    let outcome := (executeTransactionCore tx' user' dto' mode').solo db envs 0 id
    (logicalRequest user0 dto0 mode0 = logicalRequest user' d mode' →
      ∃ r, outcome.result = .ok r ∧ r.transactionId = rows.transaction.id ∧ outcome.log db = db) ∧
    (logicalRequest user0 dto0 mode0 ≠ logicalRequest user' d mode' →
      outcome.result = .error idempotencyPayloadMismatch) := by
  intro outcome
  have hwpe : wpe ((protocol noMarks).during (Remembers rows user')) tx'
      (fun x => x = idempotencyPayloadMismatch ∧
        logicalRequest user0 dto0 mode0 ≠ logicalRequest user' d mode')
      (executeTransactionCore tx' user' dto' mode')
      (fun r st _ => logicalRequest user0 dto0 mode0 = logicalRequest user' d mode' ∧
        r.transactionId = rows.transaction.id ∧ ∀ x, st.log x = x) St.start db :=
    wpe_core_stored hcore hknown hnormal (fun _ hs => hs) (fun _ => rfl) hkey
      (fun hsame r st' _ hid hlog => ⟨hsame, hid, hlog⟩) fun hne => ⟨rfl, hne⟩
  rcases solo_of_wpe hwpe ⟨hwf, hremembers⟩ (Or.inl rfl) envs 0 with
    ⟨n, r, st, heq, hsame, hid, hlog⟩ | ⟨n, log, x, heq, rfl, hne⟩
  · have houtcome : outcome = ⟨n, st.log, .ok r⟩ := heq
    rw [houtcome]
    exact ⟨fun _ => ⟨r, rfl, hid, hlog db⟩, fun hne => absurd hsame hne⟩
  · have houtcome : outcome = ⟨n, log, .error idempotencyPayloadMismatch⟩ := heq
    rw [houtcome]
    exact ⟨fun hsame => absurd hsame hne, fun _ => rfl⟩

section Call

variable {rows : SaleRows} {user0 user' : JwtPayload} {dto0 input : CheckoutDto}
  {mode0 mode' : CheckoutMode} {c : Call} (hc : saleInput c = some (user', input, mode'))
  (hpre : c.precheck = none) (hknown : Known rows user0 dto0 mode0)
  (hkey : hasKey user'.normalized.tenantId (coreRequest input mode').clientTransactionId
    rows.transaction = true)
include hc hpre hknown hkey

/-- A sale call, by itself, with the key of a stored sale. -/
theorem alone_of_stored {db : Db} (hwf : Wf db) (hremembers : Remembers rows user'.normalized db)
    (envs : Nat → Env) :
    (logicalRequest user0 dto0 mode0 = logicalRequest user' input mode' →
      ∃ r, kasir.alone c db envs = some (.ok (.sale r), db) ∧
        r.transactionId = rows.transaction.id) ∧
    (logicalRequest user0 dto0 mode0 ≠ logicalRequest user' input mode' →
      kasir.alone c db envs = some (.error idempotencyPayloadMismatch, db)) := by
  let Good : Result → (Db → Db) → Prop := fun result log =>
    logicalRequest user0 dto0 mode0 = logicalRequest user' input mode' ∧
    (∃ r, result = .sale r ∧ r.transactionId = rows.transaction.id) ∧ ∀ x, log x = x
  have hwpe : wpe ((protocol noMarks).during (Remembers rows user'.normalized)) c.isolation
      (fun x => x = idempotencyPayloadMismatch ∧
        logicalRequest user0 dto0 mode0 ≠ logicalRequest user' input mode')
      c.body (fun result st _ => Good result st.log) St.start db :=
    wpe_sale_stored hc hpre hknown (fun _ hs => hs) hkey
      (fun hsame r log hid hlog => ⟨hsame, ⟨r, rfl, hid⟩, hlog⟩) fun hne => ⟨rfl, hne⟩
  rcases kasir.alone_of_wpe hpre hwpe ⟨hwf, hremembers⟩ envs with
    ⟨result, st, ⟨hsame, ⟨r, rfl, hid⟩, hlog⟩, halone⟩ | ⟨x, ⟨rfl, hne⟩, halone⟩
  · have hlegal : kasir.legal (st.log db) = true := by
      rw [hlog]
      exact hwf.legal
    refine ⟨fun _ => ⟨r, ?_, hid⟩, fun hne => absurd hsame hne⟩
    rw [halone hlegal, hlog]
  · refine ⟨fun hsame => absurd hsame hne, fun _ => ?_⟩
    rw [halone]
    cases c <;> first | rfl | cases hc

/-- A sale call with the key of a sale that is stored from a state on, in any
    interleaving from that state. -/
theorem later_of_stored {db0 : Db} {σ σ' : State} {ok : State → Label Env Exc Call → Prop}
    (h0 : Wf db0) (hrun : kasir.Reach db0 σ) (hsteps : kasir.Steps ok σ σ')
    (hremembers : ∀ {σ1 : State}, kasir.Steps ok σ σ1 → Remembers rows user'.normalized σ1.db)
    {i : Nat} (hi : σ.calls.length ≤ i) :
    (∀ result, σ'.Answered i c result →
      logicalRequest user0 dto0 mode0 = logicalRequest user' input mode' ∧
      (∃ r, result = .sale r ∧ r.transactionId = rows.transaction.id) ∧
      ∀ e ∈ σ'.history, e.pid = i → e.after = e.before) ∧
    ∀ x, σ'.calls[i]? = some (c, .done (.error x)) →
      (x = idempotencyPayloadMismatch ∧
        logicalRequest user0 dto0 mode0 ≠ logicalRequest user' input mode') ∨
      ∃ n p, handleCreate n (.prisma p) = some x := by
  -- what is known of the results and the errors of this call, whatever others do
  let Good : Call → Result → (Db → Db) → Prop := fun c' result log => c' = c →
    logicalRequest user0 dto0 mode0 = logicalRequest user' input mode' ∧
    (∃ r, result = .sale r ∧ r.transactionId = rows.transaction.id) ∧ ∀ x, log x = x
  let Err : Call → Exc → Prop := fun c' x => c' = c →
    (x = idempotencyPayloadMismatch ∧
      logicalRequest user0 dto0 mode0 ≠ logicalRequest user' input mode') ∨ ∃ p, x = .prisma p
  have hbody : ∀ c', kasir.precheck c' = none → ∀ db,
      ((protocol noMarks).during (Remembers rows user'.normalized)).Inv db →
      wpe ((protocol noMarks).during (Remembers rows user'.normalized)) (kasir.iso c') (Err c')
        (kasir.body c') (fun result st _ => Good c' result st.log) St.start db := by
    intro c' hpre' db _
    by_cases hcc : c' = c
    · subst hcc
      exact wpe_sale_stored hc hpre' hknown (fun _ hs => hs) hkey
        (fun hsame r log hid hlog _ => ⟨hsame, ⟨r, rfl, hid⟩, hlog⟩) fun hne _ => Or.inl ⟨rfl, hne⟩
    · exact wpe_mono (fun _ _ _ _ heq => absurd heq hcc) (wpe_of_any fun x heq => absurd heq hcc)
  have hsettled := settled_reach h0 hbody (fun _ _ _ _ _ p _ _ _ => Or.inr ⟨p, rfl⟩) hremembers hrun
    hsteps
  have hsound := reach_sound h0 (hsteps.run (fun _ _ _ => trivial) hrun)
  refine ⟨fun result hanswered => ?_, fun x hx => ?_⟩
  · obtain ⟨e, he, rfl, rfl, rfl⟩ := hsound.commit_of_answer hanswered
    obtain ⟨log, hgood, -⟩ := hsettled.committed e he hi
    obtain ⟨hsame, hresult, -⟩ := hgood rfl
    refine ⟨hsame, hresult, fun e1 he1 hpid => ?_⟩
    have howner := hsound.owner e1 he1
    rw [hpid, hsound.owner e he] at howner
    have hcall : e1.call = e.call := (Prod.mk.inj (Option.some.inj howner)).1.symm
    obtain ⟨log1, hgood1, hafter⟩ := hsettled.committed e1 he1 (hpid ▸ hi)
    rw [hafter, (hgood1 hcall).2.2]
  · rcases hsettled.failed i c x hi hx with hrejected | ⟨n, x', herr, hhandle⟩
    · have hnone : kasir.precheck c = none := hpre
      rw [hnone] at hrejected
      cases hrejected
    · have hcreate : handleCreate n x' = some x := by
        cases c <;> first | exact hhandle | cases hc
      rcases herr rfl with ⟨rfl, hne⟩ | ⟨p, rfl⟩
      · obtain rfl := Option.some.inj hcreate
        exact Or.inl ⟨rfl, hne⟩
      · exact Or.inr ⟨n, p, hcreate⟩

end Call

-- ============================================================================
-- Every later request
-- ============================================================================

section Later

variable {db0 : Db} {σ : State} {e : KasirCommit} {user : JwtPayload} {dto : CheckoutDto}
  {mode : CheckoutMode} {tx : TransactionClient} {sale : Sale} {r : TransactionResponse}

/-- A sale of the run is remembered as long as the actor and the tenant are active. -/
theorem RecordedBy.remembers (h0 : Wf db0) (hsales : SalesOk db0) (hrun : kasir.Reach db0 σ)
    (he : e ∈ σ.history) (hrec : RecordedBy noMarks e user dto mode tx sale r)
    {user' : JwtPayload} (hactive : ActiveIn user' σ.db) : Remembers sale.rows user' σ.db where
  stored := hrec.stored (reach_sound h0 hrun) hsales he
  sales := hsales.invariant (reach_sound h0 hrun)
  active := hactive

/-- **A key used again.**  A sale has been recorded, by a direct sale, a row of the
    legacy queue or a conversion.  Whatever has happened since, a valid request with
    its key by an active user of the tenant is accepted exactly if it asks for the
    same as the request that made the sale, and is answered with that sale; otherwise
    it is refused as a mismatch.  Neither writes anything.  First the sale core, in
    the clients of all its callers; then a call that runs alone; then a call in any
    interleaving, where the database may break it off. -/
theorem same_key_same_request (h0 : Wf db0) (hsales : SalesOk db0) (hrun : kasir.Reach db0 σ)
    (he : e ∈ σ.history) (hrec : RecordedBy noMarks e user dto mode tx sale r) :
    (∀ (tx' : TransactionClient) (user' : JwtPayload) (dto' d : CheckoutDto) (mode' : CheckoutMode)
        (envs : Nat → Env), prepareCore dto' mode' = .ok d → NormalRequest user' d mode' →
      hasKey user'.tenantId d.clientTransactionId sale.rows.transaction = true →
      ActiveIn user' σ.db →
      let outcome := (executeTransactionCore tx' user' dto' mode').solo σ.db envs 0 id
      (logicalRequest user dto mode = logicalRequest user' d mode' →
        ∃ r', outcome.result = .ok r' ∧ r'.transactionId = sale.rows.transaction.id ∧
          outcome.log σ.db = σ.db) ∧
      (logicalRequest user dto mode ≠ logicalRequest user' d mode' →
        outcome.result = .error idempotencyPayloadMismatch)) ∧
    ∀ (c : Call) (user' : JwtPayload) (input : CheckoutDto) (mode' : CheckoutMode),
      saleInput c = some (user', input, mode') → c.precheck = none →
      hasKey user'.normalized.tenantId (coreRequest input mode').clientTransactionId
        sale.rows.transaction = true →
      ActiveIn user'.normalized σ.db →
      (∀ items, Reordered input.items items →
        (logicalRequest user dto mode = logicalRequest user' { input with items } mode' ↔
          logicalRequest user dto mode = logicalRequest user' input mode')) ∧
      (∀ envs,
        (logicalRequest user dto mode = logicalRequest user' input mode' →
          ∃ r', kasir.alone c σ.db envs = some (.ok (.sale r'), σ.db) ∧
            r'.transactionId = sale.rows.transaction.id) ∧
        (logicalRequest user dto mode ≠ logicalRequest user' input mode' →
          kasir.alone c σ.db envs = some (.error idempotencyPayloadMismatch, σ.db))) ∧
      ∀ σ', kasir.Steps (kasir.Into (ActiveIn user'.normalized)) σ σ' →
        ∀ i, σ.calls.length ≤ i →
        (∀ result, σ'.Answered i c result →
          logicalRequest user dto mode = logicalRequest user' input mode' ∧
          (∃ r', result = .sale r' ∧ r'.transactionId = sale.rows.transaction.id) ∧
          ∀ e' ∈ σ'.history, e'.pid = i → e'.after = e'.before) ∧
        ∀ x, σ'.calls[i]? = some (c, .done (.error x)) →
          (x = idempotencyPayloadMismatch ∧
            logicalRequest user dto mode ≠ logicalRequest user' input mode') ∨
          ∃ n p, handleCreate n (.prisma p) = some x := by
  have hsound := reach_sound h0 hrun
  have hknown := hrec.known (hsound.commits e he).admitted
  have hremembers : ∀ {user' : JwtPayload}, ActiveIn user' σ.db → Remembers sale.rows user' σ.db :=
    fun hactive => hrec.remembers h0 hsales hrun he hactive
  refine ⟨fun tx' user' dto' d mode' envs hcore hnormal hkey hactive => ?_,
    fun c user' input mode' hc hpre hkey hactive => ⟨fun items hitems => ?_, fun envs => ?_,
      fun σ' hsteps i hi => ?_⟩⟩
  · exact core_of_stored hsound.inv hknown (hremembers hactive) hcore hnormal hkey envs
  · rw [logicalRequest_reordered hitems]
  · exact alone_of_stored hc hpre hknown hkey hsound.inv (hremembers hactive) envs
  · refine later_of_stored hc hpre hknown hkey h0 hrun hsteps (fun hsteps1 => ?_) hi
    exact hrec.remembers h0 hsales (hsteps1.run (fun _ _ _ => trivial) hrun) (hsteps1.history e he)
      (hsteps1.holds (fun _ _ h => h) hactive)

end Later

/-- In the shop a sale is recorded, and its request sent again is answered with it. -/
theorem same_key_same_request_shop :
    ∃ (σ : State) (e : KasirCommit) (user : JwtPayload) (dto : CheckoutDto) (mode : CheckoutMode)
      (tx : TransactionClient) (sale : Sale) (r r' : TransactionResponse),
      kasir.Reach Shop.db σ ∧ e ∈ σ.history ∧ RecordedBy noMarks e user dto mode tx sale r ∧
      kasir.alone (Shop.sale (Shop.uuid 9 9 9)) σ.db (Shop.envs 2) = some (.ok (.sale r'), σ.db) ∧
      r'.transactionId = sale.rows.transaction.id := by
  obtain ⟨σ, turns, hrun, hp, hturns, -, hhist⟩ := Shop.run noMarks
    [(Shop.sale (Shop.uuid 9 9 9), Shop.envs 1)]
    (fun turns db => turns.all (fun t => t.answer.isOk) &&
      db.sales.transactions.any (hasKey Shop.tenant (Shop.uuid 9 9 9)) &&
      decide (db.accounts = Shop.db.accounts))
    (by decide +kernel)
  simp only [Bool.and_eq_true, decide_eq_true_eq, List.any_eq_true] at hp
  obtain ⟨⟨-, x, hx, hkey⟩, haccounts⟩ := hp
  have hsound := reach_sound Shop.wf hrun.reach
  obtain hx | ⟨e, he, user, dto, mode, tx, sale, r, hrec, rfl⟩ := recorded_by hsound x hx
  · cases hx
  · have hcall : e.call = Shop.sale (Shop.uuid 9 9 9) := by
      have hturn := List.mem_map_of_mem (f := App.Turn.call) (App.mem_turns hhist he)
      rw [hturns] at hturn
      exact List.mem_singleton.mp hturn
    -- the recorded request is that of the call
    have hsame : logicalRequest user dto mode = logicalRequest Shop.user
        { clientTransactionId := Shop.uuid 9 9 9, outletId := Shop.outlet
          cashierSessionId := some Shop.session, items := [Shop.line Shop.coffee]
          payment := { method := .cash, amountReceived := some 3000 } } .v1 := by
      have hsale := hrec.call
      rw [hcall] at hsale
      generalize e.result = result at hsale
      cases hsale with
      | request hc =>
          cases hc
          exact logicalRequest_coreRequest ..
    have hactive : ActiveIn Shop.user.normalized σ.db := by
      constructor <;> rw [haccounts] <;> decide +kernel
    obtain ⟨r', halone, hid⟩ := ((same_key_same_request Shop.wf Shop.salesOk hrun.reach he hrec).2
      (Shop.sale (Shop.uuid 9 9 9)) _ _ _ rfl (by decide +kernel) hkey hactive).2.1
        (Shop.envs 2) |>.1 hsame
    exact ⟨σ, e, user, dto, mode, tx, sale, r, r', hrun.reach, he, hrec, halone, hid⟩

end Kasir
