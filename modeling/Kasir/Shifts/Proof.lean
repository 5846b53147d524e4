/-
  Kasir.Shifts.Proof

  What the shift transactions do, whatever commits between their statements.
-/

import Kasir.HeldOrders.Proof

namespace Kasir.Shifts

open Txn HeldOrders Transactions

section Rules

variable {R : Token → Prop} {iso : Isolation} {user : JwtPayload} {st : St Db Token} {db : Db}

theorem wp_actorContext {Q : ActorContext → St Db Token → Db → Prop} (hlog : ∀ d, st.log d = d)
    (h : ∀ actor st' db', Ran R id st db st' db' →
      actor.tenantId = Js.toLowerCase user.tenantId → actor.userId = Js.toLowerCase user.sub →
      Q actor st' db') :
    wp (protocol R) iso (actorContext user) Q st db := by
  unfold actorContext
  rw [wp_bind]
  refine wp_guard fun _ => ?_
  rw [wp_bind]
  exact wp_principal (fun d => by rw [hlog]) fun u st1 db1 hran _ => h _ st1 db1 hran rfl rfl

theorem wp_findShift {tenantId shiftId : Id} {e : Exc}
    {Q : ShiftRecord → St Db Token → Db → Prop}
    (h : ∀ s shift st' db', Ran R id st db st' db' → ReadFrom iso st' db' s →
      shift.toCashierSession ∈ (st.log s).cashierSessions → shift.id = shiftId →
      shift.tenantId = tenantId → shift = shiftSelect (st.log s).accounts shift.toCashierSession →
      Q shift st' db') :
    wp (protocol R) iso (findShift tenantId shiftId e) Q st db := by
  unfold findShift
  rw [wp_bind]
  refine wp_query fun st1 db1 s hran hread => wp_require fun record hrecord => ?_
  obtain ⟨shift, hshift, rfl⟩ := Option.map_eq_some_iff.mp hrecord
  obtain ⟨hmem, hp⟩ := mem_of_find? hshift
  simp only [shiftOf, Bool.and_eq_true, beq_iff_eq] at hp
  exact h s _ st1 db1 hran hread hmem hp.1 hp.2 rfl

theorem wp_deriveSummary {tenantId : Id} {shift : ShiftRecord}
    {Q : ShiftSummary → St Db Token → Db → Prop}
    (h : ∀ summary st' db', Ran R id st db st' db' → Q summary st' db') :
    wp (protocol R) iso (deriveSummary tenantId shift) Q st db := by
  unfold deriveSummary
  rw [wp_bind]
  refine wp_query fun st1 db1 s1 hran1 _ => ?_
  rw [wp_bind]
  refine wp_queryNow fun st2 db2 s2 now hran2 _ => ?_
  simp only [wp_bind]
  exact wp_lift fun _ _ => h _ st2 db2 (hran1.trans hran2)

-- ============================================================================
-- Open
-- ============================================================================

theorem prepareOpen_ok {outletId o : String} (h : prepareOpen outletId = .ok o) :
    o = Js.toLowerCase outletId := by
  unfold prepareOpen at h
  split at h
  · exact (Except.ok.inj h).symm
  · cases h

/-- A transaction that has inserted a session: the user has no other open one, and
    cannot get one. -/
structure Opening (user : JwtPayload) (outletId : Id) (row : CashierSession)
    (held : List Token) (db : Db) : Prop where
  made : row.tenantId = Js.toLowerCase user.tenantId ∧ row.userId = Js.toLowerCase user.sub ∧
    row.outletId = outletId ∧ row.status = .open
  lock : .openUser (Js.toLowerCase user.tenantId) (Js.toLowerCase user.sub) ∈ held
  none : ∀ x ∈ db.cashierSessions,
    openSessionOf (Js.toLowerCase user.tenantId) (Js.toLowerCase user.sub) x = false
  inserted : .sessionInserted row.id ∈ held
  cash : row.openingCash = Option.none

theorem Opening.later {outletId : Id} {row : CashierSession} {w : Db → Db}
    {st st' : St Db Token} {db db' : Db} (h : Opening user outletId row st.held db)
    (hran : Ran R w st db st' db') : Opening user outletId row st'.held db' :=
  ⟨h.made, hran.held h.lock, hran.same h.lock h.none, hran.held h.inserted, h.cash⟩

theorem wp_openBody {outletId : String} {Q : ShiftResponse → St Db Token → Db → Prop}
    (hlog : ∀ d, st.log d = d)
    (h : ∀ row st' db', Ran R (Db.addCashierSession row) st db st' db' →
      Opening user (Js.toLowerCase outletId) row st'.held db' →
      Q (shiftResponse row) st' db') :
    wp (protocol R) iso (openBody user outletId) Q st db := by
  unfold openBody
  rw [wp_bind]
  refine wp_lift fun o ho => ?_
  obtain rfl := prepareOpen_ok ho
  rw [wp_bind]
  refine wp_actorContext hlog fun actor st1 db1 hran1 htenant huser => ?_
  rw [wp_bind]
  refine wp_guard fun _ => ?_
  rw [wp_bind]
  refine wp_findOutlet fun st2 db2 hran2 => ?_
  rw [wp_bind]
  refine wp_query fun st3 db3 s hran3 _ => ?_
  rw [wp_bind]
  refine wp_guard fun _ => ?_
  rw [wp_bind, htenant, huser]
  have hran03 := (hran1.trans hran2).trans hran3
  have hlog3 : ∀ d, st3.log d = d := fun d => by rw [hran03.log, hlog]; rfl
  refine wp_insertUnique fun st4 db4 env hran4 hlock hmarks htaken => ?_
  refine wp_lift fun response hresponse => ?_
  obtain ⟨_, -, hresponse⟩ := Checked.bind_ok.mp hresponse
  rw [← Except.ok.inj hresponse]
  refine h _ st4 db4 (hran03.trans hran4) ⟨⟨htenant, huser, rfl, rfl⟩, hlock, ?_,
    hmarks (List.mem_singleton.mpr rfl), rfl⟩
  rw [hlog3] at htaken
  simpa using htaken

-- ============================================================================
-- Close
-- ============================================================================

theorem prepareShift_ok {id : String} {shiftId : Id} (h : prepareShift id = .ok shiftId) :
    shiftId = Js.toLowerCase id := by
  unfold prepareShift at h
  split at h
  · exact (Except.ok.inj h).symm
  · cases h

/-- A transaction that has closed a session: it was OPEN, it is locked, and no OPEN
    order of it can appear. -/
structure Closing (R : Token → Prop) (user : JwtPayload) (shiftId : Id) (x : CashierSession)
    (held : List Token) (db : Db) : Prop where
  row : x.id = shiftId ∧ x.tenantId = Js.toLowerCase user.tenantId ∧ x.status = .open
  lock : .session shiftId ∈ held
  closing : .closing shiftId ∈ held
  mem : x ∈ db.cashierSessions
  noOpenOrder : R (.sessionSought shiftId) → ¬ db.held.hasOpenOrder shiftId

theorem Closing.later {shiftId : Id} {x : CashierSession} {w : Db → Db} {st st' : St Db Token}
    {db db' : Db} (h : Closing R user shiftId x st.held db) (hran : Ran R w st db st' db') :
    Closing R user shiftId x st'.held db' where
  row := h.row
  lock := hran.held h.lock
  closing := hran.held h.closing
  mem := (hran.same h.lock).1 x h.mem h.row.1
  noOpenOrder hR := (hran.same h.lock).2 hR (h.noOpenOrder hR)

/-- The change of a close. -/
def closeSessions (shiftId : Id) (env : Env) : Db → Db :=
  Db.modifyCashierSessions fun s => if s.id = shiftId then closedRow env s else s

/-- No order of the tenant is OPEN, so none is: an order is of its session's tenant. -/
theorem no_open_order {tenantId shiftId : Id} {s : Db} (hwf : Wf s) {x : CashierSession}
    (hx : x ∈ s.cashierSessions) (hid : x.id = shiftId) (htenant : x.tenantId = tenantId)
    (h : s.held.heldOrders.countP (openOrderOf tenantId shiftId) = 0) :
    ¬ s.held.hasOpenOrder shiftId := by
  rintro ⟨o, ho, horigin, hopen⟩
  obtain ⟨y, hy, hyid, hytenant⟩ := hwf.origin o ho
  have hyx : y = x := eq_of_key (legal_cashierSessions hwf.legal) hy hx
    ((hyid.trans horigin).trans hid.symm)
  have hno := List.countP_eq_zero.mp h o ho
  simp [openOrderOf, horigin, hopen, ← hytenant, hyx, htenant] at hno

theorem wp_closeBody {id : String} {Q : ShiftResponse → St Db Token → Db → Prop}
    (hlog : ∀ d, st.log d = d)
    (h : ∀ x env r st' db', Ran R (closeSessions (Js.toLowerCase id) env) st db st' db' →
      Closing R user (Js.toLowerCase id) x st'.held db' → Q r st' db') :
    wp (protocol R) .readCommitted (closeBody user id) Q st db := by
  unfold closeBody
  rw [wp_bind]
  refine wp_lift fun shiftId hshiftId => ?_
  obtain rfl := prepareShift_ok hshiftId
  generalize Js.toLowerCase id = shiftId at h
  rw [wp_bind]
  refine wp_actorContext hlog fun actor st1 db1 hran1 htenant _ => ?_
  have hlog1 : ∀ d, st1.log d = d := fun d => by rw [hran1.log, hlog]; rfl
  rw [wp_bind]
  refine wp_findShift fun s2 shift st2 db2 hran2 hread2 hmem hid hshiftTenant _ => ?_
  rw [hlog1, hread2.now rfl] at hmem
  rw [wp_bind]
  refine wp_guard fun _ => ?_
  rw [wp_bind]
  refine wp_guard fun _ => ?_
  have hlog2 : ∀ d, st2.log d = d := fun d => by rw [hran2.log, hlog1]; rfl
  unfold selectSessionForUpdate
  rw [wp_bind]
  refine wp_stmt fun st3 db3 s3 _ hran3 hread3 hlocks => ?_
  have hlog3 : ∀ d, st3.log d = d := fun d => by rw [hran3.log, hlog2]; rfl
  -- the session that was found is still there, so it is locked
  obtain ⟨y, hy, horigin, -⟩ := hran3.evolves.sessions shift.toCashierSession hmem
  simp only [CashierSession.origin, Prod.mk.injEq] at horigin
  have hyid : y.id = shiftId := horigin.1.trans hid
  have hytenant : y.tenantId = actor.tenantId := horigin.2.1.trans hshiftTenant
  have hlock : .session shiftId ∈ st3.held := by
    have hthere : (s3.cashierSessions.any fun s =>
        s.id == shift.id && s.tenantId == actor.tenantId) = true := by
      rw [hread3.now rfl]
      exact List.any_eq_true.mpr ⟨y, hy, by simp [hyid, hid, hytenant]⟩
    simp only [hlog2, hthere, if_true] at hlocks
    exact hid ▸ hlocks (List.mem_singleton.mpr rfl)
  simp only [wp_ret]
  rw [wp_bind]
  refine wp_query fun st4 db4 s4 hran4 hread4 => ?_
  rw [hlog3, hread4.now rfl]
  rw [wp_bind]
  refine wp_guard fun hcount => ?_
  have hmem4 : y ∈ db4.cashierSessions := (hran4.same hlock).1 y hy hyid
  have hno4 : ¬ db4.held.hasOpenOrder shiftId :=
    no_open_order hran4.wf hmem4 hyid hytenant (hid ▸ beq_iff_eq.mp hcount)
  rw [wp_bind]
  refine wp_deriveSummary fun _ st5 db5 hran5 => ?_
  rw [wp_bind]
  have hlog5 : ∀ d, st5.log d = d := fun d => by rw [hran5.log, hran4.log, hlog3]; rfl
  refine wp_updateOne fun st6 db6 _ env x hran6 _ hlock6 hmarks _ hp hmem6 _ => ?_
  simp only [shiftOf, Bool.and_eq_true, beq_iff_eq] at hp
  obtain ⟨⟨hxid, hxtenant⟩, hxopen⟩ := hp
  have hxid' : x.id = shiftId := hxid.trans hid
  have hchange : cashierSessions.change [cashierSessions.lock x] (closedRow env) =
      closeSessions shiftId env := by
    funext d
    simp [Table.change, cashierSessions, closeSessions, Db.modifyCashierSessions, hxid']
  rw [hchange] at hran6
  have hclosing : Closing R user shiftId x st6.held db6 :=
    { row := ⟨hxid', hxtenant.trans htenant, hxopen⟩
      lock := hxid' ▸ hlock6
      closing := hxid' ▸ hmarks (List.mem_singleton.mpr rfl)
      mem := by
        change x ∈ (st5.log db6).cashierSessions at hmem6
        rwa [hlog5] at hmem6
      noOpenOrder := fun hR =>
        ((hran5.trans hran6).same (hran4.held hlock)).2 hR hno4 }
  rw [wp_bind]
  refine wp_findShift fun s7 closedShift st7 db7 hran7 _ _ _ _ _ => wp_lift fun r _ => ?_
  exact h x env r st7 db7 ((((((hran1.trans hran2).trans hran3).trans hran4).trans hran5).trans
    hran6).trans hran7) (hclosing.later hran7)

-- ============================================================================
-- Summary
-- ============================================================================

/-- The summary of a shift of the tenant, as a state has it. -/
def SummaryOf (tenantId shiftId : Id) (summary : ShiftSummary) (s : Db) : Prop :=
  ∃ x ∈ s.cashierSessions, x.id = shiftId ∧ x.tenantId = tenantId ∧ ∃ now,
    summary = summaryOf (shiftSelect s.accounts x)
      (summarize x (aggregateSales x.tenantId x.id s) (summarySales x.tenantId x.id s)) now

/-- The two queries are answered from the state the shift was found in. -/
theorem wp_deriveSummary_again {shift : ShiftRecord} {s : Db}
    {Q : ShiftSummary → St Db Token → Db → Prop} (hlog : ∀ d, st.log d = d)
    (hsnap : st.snap = some s)
    (h : ∀ st' db' now, Ran R (fun d => d) st db st' db' →
      Q (summaryOf shift (summarize shift.toCashierSession
        (aggregateSales shift.tenantId shift.id s) (summarySales shift.tenantId shift.id s)) now)
        st' db') :
    wp (protocol R) .repeatableRead (deriveSummary shift.tenantId shift) Q st db := by
  unfold deriveSummary
  rw [wp_bind]
  apply wp_query_again hsnap
  intro st1 db1 hran1 hsnap1
  have hlog1 : ∀ d, st1.log d = d := fun d => by rw [hran1.log, hlog]; rfl
  rw [wp_bind]
  apply wp_queryNow_again hsnap1
  intro st2 db2 now hran2 _
  rw [hlog, hlog1]
  simp only [wp_bind]
  exact wp_lift fun _ _ => h st2 db2 now (hran1.trans hran2)

theorem wp_summaryBody {id : String} {Q : ShiftSummary → St Db Token → Db → Prop}
    (hlog : ∀ d, st.log d = d)
    (h : ∀ summary st' db' s, Ran R (fun d => d) st db st' db' → s ∈ st'.seen →
      SummaryOf (Js.toLowerCase user.tenantId) (Js.toLowerCase id) summary s →
      Q summary st' db') :
    wp (protocol R) .repeatableRead (summaryBody user id) Q st db := by
  unfold summaryBody
  rw [wp_bind]
  refine wp_lift fun shiftId hshiftId => ?_
  obtain rfl := prepareShift_ok hshiftId
  rw [wp_bind]
  refine wp_actorContext hlog fun actor st1 db1 hran1 htenant _ => ?_
  have hlog1 : ∀ d, st1.log d = d := fun d => by rw [hran1.log, hlog]; rfl
  rw [wp_bind]
  refine wp_findShift fun s shift st2 db2 hran2 hread hmem hid hshiftTenant hshift => ?_
  have hlog2 : ∀ d, st2.log d = d := fun d => by rw [hran2.log, hlog1]; rfl
  rw [hlog1] at hmem hshift
  rw [wp_bind]
  refine wp_guard fun _ => ?_
  rw [← hshiftTenant]
  apply wp_deriveSummary_again hlog2 hread.snap
  intro st3 db3 now hran3
  exact h _ st3 db3 s ((hran1.trans hran2).trans hran3) (hran3.seen hread.seen)
    ⟨shift.toCashierSession, hmem, hid, hshiftTenant.trans htenant, now, by rw [← hshift]⟩

end Rules

end Kasir.Shifts
