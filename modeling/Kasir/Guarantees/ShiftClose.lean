/-
  Kasir.Guarantees.ShiftClose

  Whether a shift can be closed.

  A close derives the summary of the shift before it closes it, and a summary whose
  amounts leave the safe integers is refused.  The totals of the sales are safe one by
  one and their sum need not be: that is the only thing that can keep a shift open.
-/

import Kasir.Guarantees.ShiftSummary
import Kasir.Replays

namespace Kasir

open Txn Js Transactions

-- ============================================================================
-- The cash of the sessions
-- ============================================================================

/-- The opening cash of every session can be shown.  New sessions have none. -/
def CashOk (db : Db) : Prop :=
  ∀ x ∈ db.cashierSessions, Shifts.optionalMoney x.openingCash = .ok ()

/-- One commit opens no session with cash. -/
theorem CashOk.step {R : Token → Prop} {c : Call} {r : Result} {seen : List Db} {a b : Db}
    (ha : CashOk a) (h : Effect R c r seen a b) : CashOk b := by
  rcases h.sessions_cases with hs | ⟨user, outletId, row, -, hopened, rfl⟩ |
    ⟨user, id, x, env, -, -, rfl⟩
  · intro y hy
    exact ha y (hs ▸ hy)
  · intro y hy
    rcases List.mem_append.mp hy with hold | hnew
    · exact ha y hold
    · rw [List.mem_singleton.mp hnew, hopened.cash]
      rfl
  · intro y hy
    rcases of_mem_closeSessions hy with hold | ⟨z, hz, -, rfl⟩
    · exact ha y hold
    · exact ha z hz

-- ============================================================================
-- The body, alone
-- ============================================================================

section Solo

variable {user : JwtPayload} {shiftId : String} {x : CashierSession} {db : Db} {envs : Nat → Env}
  {n : Nat} {log : Db → Db}

/-- The session is closed. -/
theorem solo_closeSession (hwf : Wf db) (hx : x ∈ db.cashierSessions) (hopen : x.status = .open)
    (hlog : log db = db) :
    ∃ w, (Shifts.closeSession x.tenantId x.id).solo db envs n log = ⟨n + 1, w, .ok ()⟩ ∧
      w db = Shifts.closeSessions x.id (envs n) db := by
  have hnodup := legal_cashierSessions hwf.legal
  have hhits : (db.cashierSessions.filter fun s =>
      Shifts.shiftOf x.tenantId x.id s && s.status == .open) = [x] := by
    apply filter_eq_singleton hnodup hx
    · simp [Shifts.shiftOf, hopen]
    · intro y _ hy
      simp only [Shifts.shiftOf, Bool.and_eq_true, beq_iff_eq] at hy
      exact hy.1.1
  have hrow : x ∈ cashierSessions.rows db := hx
  refine ⟨cashierSessions.change [.session x.id] (Shifts.closedRow (envs n)) ∘ log, ?_, ?_⟩
  · unfold Shifts.closeSession updateMany
    rw [Prog.solo_bind]
    simp only [Prog.solo, hlog, show cashierSessions.rows db = db.cashierSessions from rfl, hhits,
      List.all_cons, List.all_nil, Bool.and_true]
    simp only [hx, decide_true, if_true, Prog.solo_ret, List.length_singleton, beq_self_eq_true,
      ensure, Prog.guard_true, List.map_cons, List.map_nil]
    rfl
  · show cashierSessions.change [.session x.id] (Shifts.closedRow (envs n)) (log db) = _
    rw [hlog]
    simp [Table.change, cashierSessions, Shifts.closeSessions, Db.modifyCashierSessions]

end Solo

-- ============================================================================
-- The call, alone
-- ============================================================================

/-- A close keeps the keys. -/
theorem legal_closeSessions {db : Db} (h : db.legal = true) (shiftId : Id) (env : Env) :
    (Shifts.closeSessions shiftId env db).legal = true := by
  have hids : (Shifts.closeSessions shiftId env db).cashierSessions.map CashierSession.id =
      db.cashierSessions.map CashierSession.id := by
    unfold Shifts.closeSessions Db.modifyCashierSessions
    rw [List.map_map]
    apply List.map_congr_left
    intro y _
    rw [Function.comp_apply]
    split
    · rfl
    · rfl
  have hsame : distinct CashierSession.id (Shifts.closeSessions shiftId env db).cashierSessions =
      distinct CashierSession.id db.cashierSessions := by
    unfold distinct
    rw [hids]
  unfold Db.legal at h ⊢
  rw [hsame]
  exact h

section Call

variable {user : JwtPayload} {shiftId : String} {x : CashierSession} {db : Db}
  (hwf : Wf db) (hbooks : BooksOk db) (hcash : CashOk db) (hx : x ∈ db.cashierSessions)
  (hopen : x.status = .open) (horders : ¬ db.held.hasOpenOrder x.id)
  (hown : OwnShift user shiftId x db) (envs : Nat → Env)
include hwf hbooks hcash hx hopen horders hown

/-- The body goes through to the end if the total is safe, and stops at the summary
    otherwise. -/
theorem solo_closeBody :
    (sessionTotal x db ≤ maxSafeInteger → ∃ n w r,
      (Shifts.closeBody user shiftId).solo db envs 0 id = ⟨n, w, .ok r⟩ ∧
        w db = Shifts.closeSessions x.id (envs 6) db) ∧
    (maxSafeInteger < sessionTotal x db → ∃ n w,
      (Shifts.closeBody user shiftId).solo db envs 0 id = ⟨n, w, .error cashValueExceeds⟩) := by
  have hnodup := legal_cashierSessions hwf.legal
  obtain ⟨actor, htenant, huser, hactor⟩ :=
    @solo_actorContext user shiftId x db envs 0 id hown rfl
  have hfind := @solo_findShift db envs 1 id (.plain .notFound "Shift not found") x hnodup hx
  have hnone : db.held.heldOrders.countP (Shifts.openOrderOf x.tenantId x.id) = 0 := by
    rw [List.countP_eq_zero]
    intro o ho hopenOrder
    simp only [Shifts.openOrderOf, Bool.and_eq_true, beq_iff_eq] at hopenOrder
    exact horders ⟨o, ho, hopenOrder.1.2, hopenOrder.2⟩
  have hsummary := @solo_deriveSummary x db envs 4 id hbooks rfl
  have hprepare : Shifts.prepareShift shiftId = .ok x.id := by
    unfold Shifts.prepareShift
    rw [if_pos hown.ids.2.2, hown.session.1]
  have hstart : (Shifts.closeBody user shiftId).solo db envs 0 id =
      (do
        let _ ← Shifts.deriveSummary x.tenantId (Shifts.shiftSelect db.accounts x)
        Shifts.closeSession x.tenantId x.id
        let closedShift ← Shifts.findShift x.tenantId x.id
          (.plain .internalServerError "Unable to read closed shift")
        Prog.lift (Shifts.toResponse closedShift.toCashierSession) : Body Shifts.ShiftResponse).solo db envs 4 id := by
    unfold Shifts.closeBody
    rw [hprepare, Prog.lift_ok, Prog.ret_bind, Prog.solo_bind, hactor]
    simp only [htenant]
    rw [Prog.solo_bind, hfind]
    simp only [Shifts.shiftSelect_toCashierSession, huser, hopen, bne_self_eq_false, Bool.and_false,
      Bool.not_false, ensure, Prog.guard_true, Prog.ret_bind, beq_self_eq_true]
    unfold selectSessionForUpdate query
    rw [Prog.solo_bind, Prog.solo_lock]
    simp only
    rw [Prog.solo_bind, Prog.solo_read]
    simp only [id_eq, hnone, beq_self_eq_true, Prog.guard_true, Prog.ret_bind]
  constructor
  · intro hle
    rw [if_pos hle] at hsummary
    obtain ⟨w, hclose, hw⟩ := @solo_closeSession x db envs 6 id hwf hx hopen rfl
    let y := Shifts.closedRow (envs 6) x
    have hy : y ∈ (w db).cashierSessions := by
      rw [hw]
      exact List.mem_map.mpr ⟨x, hx, if_pos rfl⟩
    have hnodup' : ((w db).cashierSessions.map CashierSession.id).Nodup := by
      rw [hw]
      exact legal_cashierSessions (legal_closeSessions hwf.legal _ _)
    have hread := @solo_findShift db envs 7 w
      (.plain .internalServerError "Unable to read closed shift") y hnodup' hy
    have hresponse : Shifts.toResponse y = .ok (Shifts.shiftResponse y) := by
      unfold Shifts.toResponse
      have hall : [y.openingCash, y.closingCash, y.expectedCash, y.difference].forM
          Shifts.optionalMoney = .ok () := by
        rw [Checked.forM_ok]
        intro m hm
        simp only [List.mem_cons, List.not_mem_nil, or_false] at hm
        rcases hm with rfl | rfl | rfl | rfl
        · exact hcash x hx
        · rfl
        · rfl
        · rfl
      rw [hall]
      rfl
    refine ⟨8, w, Shifts.shiftResponse y, ?_, hw⟩
    rw [hstart, Prog.solo_bind, hsummary]
    simp only
    rw [Prog.solo_bind, hclose]
    simp only
    rw [Prog.solo_bind]
    have hread' : (Shifts.findShift x.tenantId x.id
        (.plain .internalServerError "Unable to read closed shift")).solo db envs 7 w =
        ⟨8, w, .ok (Shifts.shiftSelect (w db).accounts y)⟩ := hread
    rw [hread']
    simp only [Shifts.shiftSelect_toCashierSession, hresponse, Prog.lift_ok, Prog.solo_ret]
  · intro hlt
    rw [if_neg (by omega)] at hsummary
    refine ⟨6, id, ?_⟩
    rw [hstart, Prog.solo_bind, hsummary]

end Call

-- ============================================================================
-- Every run
-- ============================================================================

/-- **A shift can be closed as long as its total is a safe integer.**  In every
    reachable state, an OPEN session without OPEN orders is closed by the call of its
    own active user, alone, exactly if the totals of its sales sum to at most 2⁵³ - 1;
    otherwise the call is refused and nothing changes. -/
theorem shift_can_be_closed {db0 : Db} {σ : State} (h0 : Wf db0) (hsales : SalesOk db0)
    (hbooks : BooksOk db0) (hcash : CashOk db0) (h : kasir.Reach db0 σ) {x : CashierSession}
    (hx : x ∈ σ.db.cashierSessions) (hopen : x.status = .open)
    (horders : ∀ o ∈ σ.db.held.heldOrders, o.originCashierSessionId = x.id → o.status ≠ .open)
    {user : JwtPayload} {id : String} (hown : OwnShift user id x σ.db) (envs : Nat → Env) :
    (sessionTotal x σ.db ≤ maxSafeInteger → ∃ r db', db' = Shifts.closeSessions x.id (envs 6) σ.db ∧
      kasir.alone (.shiftClose user id) σ.db envs = some (.ok (.shift r), db') ∧
      ∃ y ∈ db'.cashierSessions, y.id = x.id ∧ y.status = .closed) ∧
    (maxSafeInteger < sessionTotal x σ.db →
      kasir.alone (.shiftClose user id) σ.db envs = some (.error cashValueExceeds, σ.db)) := by
  have hsound : KasirSound noMarks db0 σ := reach_sound h0 h
  have hnone : ¬ σ.db.held.hasOpenOrder x.id := by
    rintro ⟨o, ho, horigin, hstatus⟩
    exact horders o ho horigin hstatus
  have hcash' : CashOk σ.db := hsound.invariant CashOk hcash fun _ he ha => ha.step he.post
  have hpre : kasir.precheck (.shiftClose user id) = none := by
    show errorOf (Shifts.prepareShift id) = none
    unfold Shifts.prepareShift
    rw [if_pos hown.ids.2.2]
    rfl
  obtain ⟨hsafe, hunsafe⟩ := solo_closeBody hsound.inv (BooksOk.invariant hsound hsales hbooks)
    hcash' hx hopen hnone hown envs
  constructor
  · intro hle
    obtain ⟨n, w, r, hsolo, hw⟩ := hsafe hle
    have hbody : (kasir.body (.shiftClose user id)).solo σ.db envs 0 (fun d => d) =
        ⟨n, w, .ok (.shift r)⟩ := by
      show (Shifts.closeBody user id >>= fun r => Prog.ret (Result.shift r)).solo _ _ _ _ = _
      rw [Prog.solo_bind]
      simp only [show (Shifts.closeBody user id).solo σ.db envs 0 (fun d => d) = ⟨n, w, .ok r⟩
        from hsolo, Prog.solo_ret]
    have hlegal : kasir.legal (w σ.db) = true := by
      rw [hw]
      exact legal_closeSessions hsound.inv.legal _ _
    refine ⟨r, w σ.db, hw, App.alone_of_solo_ok hpre hbody hlegal, ?_⟩
    rw [hw]
    exact ⟨Shifts.closedRow (envs 6) x, List.mem_map.mpr ⟨x, hx, if_pos rfl⟩, rfl, rfl⟩
  · intro hlt
    obtain ⟨n, w, hsolo⟩ := hunsafe hlt
    have hbody : (kasir.body (.shiftClose user id)).solo σ.db envs 0 (fun d => d) =
        ⟨n, w, .error cashValueExceeds⟩ := by
      show (Shifts.closeBody user id >>= fun r => Prog.ret (Result.shift r)).solo _ _ _ _ = _
      rw [Prog.solo_bind]
      simp only [show (Shifts.closeBody user id).solo σ.db envs 0 (fun d => d) =
        ⟨n, w, .error cashValueExceeds⟩ from hsolo]
    exact App.alone_of_solo_error hpre hbody rfl

/-- In the shop the shift is closed after a sale. -/
theorem shift_can_be_closed_shop :
    ∃ σ : State, kasir.Reach Shop.db σ ∧ ∃ x ∈ σ.db.cashierSessions, 0 < sessionTotal x σ.db ∧
      ∃ r db', kasir.alone Shop.close σ.db (Shop.envs 2) = some (.ok (.shift r), db') ∧
        ∃ y ∈ db'.cashierSessions, y.id = x.id ∧ y.status = .closed := by
  obtain ⟨σ, -, hrun, hp, -⟩ := Shop.run noMarks [(Shop.sale (Shop.uuid 9 9 9), Shop.envs 1)]
    (fun _ after => decide (after.accounts = Shop.db.accounts ∧ after.held = {} ∧
      after.cashierSessions = [Shop.openSession] ∧ 0 < sessionTotal Shop.openSession after ∧
      sessionTotal Shop.openSession after ≤ maxSafeInteger))
    (by decide +kernel)
  obtain ⟨haccounts, hheld, hsessions, hpos, hsafe⟩ := of_decide_eq_true hp
  have hreach : kasir.Reach Shop.db σ := hrun.mono fun _ _ _ => trivial
  have hx : Shop.openSession ∈ σ.db.cashierSessions := hsessions ▸ List.mem_singleton.mpr rfl
  have hown : OwnShift Shop.user Shop.session Shop.openSession σ.db :=
    { ids := by decide +kernel
      session := by decide +kernel
      active := by
        rw [haccounts]
        decide +kernel }
  have hnone : ∀ o ∈ σ.db.held.heldOrders,
      o.originCashierSessionId = Shop.openSession.id → o.status ≠ .open := by
    rw [hheld]
    exact fun _ ho => nomatch ho
  have hcash : CashOk Shop.db := by
    intro y hy
    rw [List.mem_singleton.mp hy]
    rfl
  obtain ⟨r, db', -, halone, hclosed⟩ := (shift_can_be_closed Shop.wf Shop.salesOk Shop.books hcash
    hreach hx rfl hnone hown (Shop.envs 2)).1 hsafe
  exact ⟨σ, hreach, Shop.openSession, hx, hpos, r, db', halone, hclosed⟩

-- ============================================================================
-- A shift that cannot be closed
-- ============================================================================

namespace Shop

/-- The price of water is set. -/
def priceWater : Call :=
  .catalog { user with role := "OWNER" } (.updateProduct water { price := some 3000000 })

/-- As much water as a line can be, paid by QRIS. -/
def sellWater (key : Id) : Call :=
  .create user
    { clientTransactionId := key, outletId := outlet, cashierSessionId := some session
      items := [{ productId := water, quantity := 2147483647 }], payment := { method := .qris } }

end Shop

/-- Two sales are made, each with a safe total; their session is OPEN, has no held order
    and can no longer be closed. -/
theorem shift_stays_open :
    ∃ σ : State, kasir.Reach Shop.db σ ∧ σ.db.held.heldOrders = [] ∧
      ∃ x ∈ σ.db.cashierSessions, x.status = .open ∧ OwnShift Shop.user Shop.session x σ.db ∧
        (sessionSales x σ.db).length = 2 ∧
        kasir.alone Shop.close σ.db (Shop.envs 4) = some (.error cashValueExceeds, σ.db) := by
  obtain ⟨σ, -, hrun, hp, -⟩ := Shop.run noMarks
    [(Shop.priceWater, Shop.envs 1), (Shop.sellWater (Shop.uuid 9 9 8), Shop.envs 2),
      (Shop.sellWater (Shop.uuid 9 9 9), Shop.envs 3)]
    (fun _ after => decide (after.accounts = Shop.db.accounts ∧ after.held = {} ∧
      after.cashierSessions = [Shop.openSession] ∧
      (sessionSales Shop.openSession after).length = 2 ∧
      kasir.alone Shop.close after (Shop.envs 4) = some (.error cashValueExceeds, after)))
    (by decide +kernel)
  obtain ⟨haccounts, hheld, hsessions, htwo, halone⟩ := of_decide_eq_true hp
  have hreach : kasir.Reach Shop.db σ := hrun.mono fun _ _ _ => trivial
  refine ⟨σ, hreach, by rw [hheld], Shop.openSession, hsessions ▸ List.mem_singleton.mpr rfl, rfl,
    ⟨by decide +kernel, by decide +kernel, ?_⟩, htwo, halone⟩
  rw [haccounts]
  decide +kernel

end Kasir
