/-
  Kasir.Guarantees.ShiftOrders

  Shifts and the held orders that originate from them.

  A close counts the OPEN orders of its session under the session's lock, and an
  order is created under the same lock.  So no closed shift leaves an OPEN order
  behind.  A session that is not there yet cannot be locked; what makes up for it
  is that nobody knows the identifier of a session that is still to be inserted.
-/

import Kasir.Frames

namespace Kasir

open Txn Transactions HeldOrders

/-- The marks of sessions that were looked for and not there. -/
def soughtSessions : Token → Prop := fun l => ∃ s, l = .sessionSought s

/-- `gen_random_uuid()` yields for a new session no identifier that a running call
    has already looked for. -/
abbrev UnguessedSessions : State → Label Env Exc Call → Prop := Respects soughtSessions

theorem soughtSessions_sought (s : Id) : soughtSessions (.sessionSought s) := ⟨s, rfl⟩

/-- No OPEN order originates from a session that is not OPEN, and a user has at
    most one OPEN session. -/
structure ShiftsOk (db : Db) : Prop where
  sessionOpen : ∀ o ∈ db.held.heldOrders, o.status = .open →
    ∀ s ∈ db.cashierSessions, s.id = o.originCashierSessionId → s.status = .open
  oneOpen : ∀ x ∈ db.cashierSessions, ∀ y ∈ db.cashierSessions, x.status = .open →
    y.status = .open → x.tenantId = y.tenantId → x.userId = y.userId → x = y

namespace ShiftsOk

variable {R : Token → Prop} {a b : Db}

/-- In other words: a session with an OPEN order is OPEN. -/
theorem status_of_hasOpenOrder (h : ShiftsOk a) {s : CashierSession} (hs : s ∈ a.cashierSessions)
    (hopen : a.held.hasOpenOrder s.id) : s.status = .open := by
  obtain ⟨o, ho, horigin, hstatus⟩ := hopen
  exact h.sessionOpen o ho hstatus s hs horigin.symm

theorem of_hasOpenOrder (h : ∀ s ∈ b.cashierSessions, b.held.hasOpenOrder s.id → s.status = .open)
    (hone : ∀ x ∈ b.cashierSessions, ∀ y ∈ b.cashierSessions, x.status = .open →
      y.status = .open → x.tenantId = y.tenantId → x.userId = y.userId → x = y) : ShiftsOk b :=
  ⟨fun o ho hstatus s hs hid => h s hs ⟨o, ho, hid.symm, hstatus⟩, hone⟩

/-- One commit, where the marks of sought sessions are respected. -/
theorem step {c : Call} {r : Result} {seen : List Db} (hR : ∀ s, R (.sessionSought s))
    (hwf : Wf a) (h : Effect R c r seen a b) (ha : ShiftsOk a) : ShiftsOk b := by
  rcases h.sessions_cases with hs | ⟨user, outletId, row, -, hopened, rfl⟩ |
    ⟨user, id, x, env, -, hclosed, rfl⟩
  · refine of_hasOpenOrder (fun s hmem hopen => ?_) (hs ▸ ha.oneOpen)
    rw [hs] at hmem
    rcases h.held_cases with ⟨hh, -⟩ | ⟨user, input, order, resolved, lines, -, hnew, rfl⟩ |
      ⟨tenantId, orderId, version, row, lines, o, hswap, ho, -, hh, -⟩
    · exact ha.status_of_hasOpenOrder hmem (hh ▸ hopen)
    · rcases hnew.hasOpenOrder hopen with hid | hopen
      · -- the new order's session was OPEN under its lock
        obtain ⟨x, hx, hxid, hxopen⟩ := hnew.sessionOpen (hR _)
        rw [eq_of_key (legal_cashierSessions hwf.legal) hmem hx (hid.trans hxid.symm)]
        exact hxopen
      · exact ha.status_of_hasOpenOrder hmem hopen
    · rw [hh] at hopen
      exact ha.status_of_hasOpenOrder hmem (hasOpenOrder_edit ho hwf rfl hswap.origin hopen)
  · refine of_hasOpenOrder (fun s hmem hopen => ?_) ?_
    · rcases List.mem_append.mp hmem with hmem | hmem
      · exact ha.status_of_hasOpenOrder hmem hopen
      · rw [List.mem_singleton.mp hmem]
        exact hopened.made.2.2.2
    · -- the user of the new session had no OPEN one
      have hnone : ∀ y ∈ a.cashierSessions, y.status = .open → y.tenantId = row.tenantId →
          y.userId ≠ row.userId := by
        intro y hy hstatus htenant huser
        have hno := hopened.none y hy
        simp [Shifts.openSessionOf, hstatus, htenant, huser, hopened.made] at hno
      intro x hx y hy hxopen hyopen htenant huser
      rcases List.mem_append.mp hx with hx | hx <;> rcases List.mem_append.mp hy with hy | hy
      · exact ha.oneOpen x hx y hy hxopen hyopen htenant huser
      · rw [List.mem_singleton.mp hy] at htenant huser
        exact absurd huser (hnone x hx hxopen htenant)
      · rw [List.mem_singleton.mp hx] at htenant huser
        exact absurd huser.symm (hnone y hy hyopen htenant.symm)
      · rw [List.mem_singleton.mp hx, List.mem_singleton.mp hy]
  · refine of_hasOpenOrder (fun s hmem hopen => ?_) (fun y hy z hz hyopen hzopen => ?_)
    · rcases of_mem_closeSessions hmem with hmem | ⟨y, -, hid, rfl⟩
      · exact ha.status_of_hasOpenOrder hmem hopen
      · exact absurd (hid ▸ hopen) (hclosed.noOpenOrder (hR _))
    · -- an OPEN session after the close was one before
      have hbefore : ∀ w ∈ (Shifts.closeSessions (Js.toLowerCase id) env a).cashierSessions,
          w.status = .open → w ∈ a.cashierSessions := by
        intro w hw hwopen
        rcases of_mem_closeSessions hw with hw | ⟨v, -, -, rfl⟩
        · exact hw
        · cases hwopen
      exact ha.oneOpen y (hbefore y hy hyopen) z (hbefore z hz hzopen) hyopen hzopen

end ShiftsOk

/-- A commit of a close finds its session OPEN and leaves it CLOSED. -/
theorem Effect.closes {R : Token → Prop} {user : JwtPayload} {id : String} {r : Result}
    {seen : List Db} {a b : Db} (h : Effect R (.shiftClose user id) r seen a b) :
    (∃ x ∈ a.cashierSessions, x.id = Js.toLowerCase id ∧ x.status = .open) ∧
      ∃ x ∈ b.cashierSessions, x.id = Js.toLowerCase id ∧ x.status = .closed := by
  cases h with
  | found hc _ => cases hc
  | sold hc _ => cases hc
  | @closed _ _ x env _ _ _ h =>
      exact ⟨⟨x, h.mem, h.row.1, h.row.2.2⟩, Shifts.closedRow env x,
        List.mem_map.mpr ⟨x, h.mem, if_pos h.row.1⟩, h.row.1, rfl⟩

/-- A session that is CLOSED in one state is CLOSED in every later one. -/
theorem Evolves.closed {a b : Db} (h : Evolves a b) (hwf : Wf b) {x y : CashierSession}
    (hx : x ∈ a.cashierSessions) (hclosed : x.status = .closed) (hy : y ∈ b.cashierSessions)
    (hid : y.id = x.id) : y.status = .closed := by
  obtain ⟨z, hz, -, hsame⟩ := h.sessions x hx
  have hzx := hsame hclosed
  rw [eq_of_key (legal_cashierSessions hwf.legal) hy hz (by rw [hzx, hid]), hzx, hclosed]

/-- A session that a commit leaves CLOSED was CLOSED before, or the commit is its
    close. -/
theorem Effect.closed_cases {R : Token → Prop} {c : Call} {r : Result} {seen : List Db} {a b : Db}
    (h : Effect R c r seen a b) {x : CashierSession} (hx : x ∈ b.cashierSessions)
    (hclosed : x.status = .closed) :
    x ∈ a.cashierSessions ∨ ∃ user id, c = .shiftClose user id ∧ Js.toLowerCase id = x.id := by
  rcases h.sessions_cases with hs | ⟨user, outletId, row, -, hopened, rfl⟩ |
    ⟨user, id, y, env, hc, -, rfl⟩
  · exact Or.inl (hs ▸ hx)
  · rcases List.mem_append.mp hx with hx | hx
    · exact Or.inl hx
    · rw [List.mem_singleton.mp hx, hopened.made.2.2.2] at hclosed
      cases hclosed
  · rcases of_mem_closeSessions hx with hx | ⟨z, -, hid, rfl⟩
    · exact Or.inl hx
    · exact Or.inr ⟨user, id, hc, hid.symm⟩

/-- Who closed a CLOSED session: it was CLOSED at the start, or a close did it. -/
theorem closed_by {R : Token → Prop} {db0 : Db} {σ : State} (h : KasirSound R db0 σ) :
    ∀ x ∈ σ.db.cashierSessions, x.status = .closed → x ∈ db0.cashierSessions ∨
      ∃ i user id r, σ.Answered i (.shiftClose user id) r ∧ Js.toLowerCase id = x.id := by
  refine h.chain.invariant (fun d => ∀ x ∈ d.cashierSessions, x.status = .closed →
    x ∈ db0.cashierSessions ∨ ∃ i user id r, σ.Answered i (.shiftClose user id) r ∧
      Js.toLowerCase id = x.id) (fun x hx _ => Or.inl hx) fun e he hbefore x hx hclosed => ?_
  rcases (h.commits e he).post.closed_cases hx hclosed with hx | ⟨user, id, hcall, hid⟩
  · exact hbefore x hx hclosed
  · exact Or.inr ⟨e.pid, user, id, e.result, hcall ▸ h.owner e he, hid⟩

/-- **No closed shift leaves an open order behind.**  In every run, in the state
    reached: an OPEN order's origin session is OPEN and a user has at most one OPEN
    session; a session that was CLOSED in an earlier state is CLOSED; of the close
    calls for one session at most one succeeds; and a session that is CLOSED, and
    was not so at the start, was closed by one of them. -/
theorem closed_shift_has_no_open_order {db0 : Db} {σ : State} (h0 : Wf db0) (hinit : ShiftsOk db0)
    (h : kasir.Run UnguessedSessions db0 σ) :
    ShiftsOk σ.db ∧
    (∀ s ∈ states db0 σ.history, ∀ x ∈ s.cashierSessions, x.status = .closed →
      ∀ y ∈ σ.db.cashierSessions, y.id = x.id → y.status = .closed) ∧
    (∀ i j user user' id id' r r', σ.Answered i (.shiftClose user id) r →
      σ.Answered j (.shiftClose user' id') r' → Js.toLowerCase id = Js.toLowerCase id' → i = j) ∧
    (∀ x ∈ σ.db.cashierSessions, x.status = .closed → x ∈ db0.cashierSessions ∨
      ∃ i user id r, σ.Answered i (.shiftClose user id) r ∧ Js.toLowerCase id = x.id) := by
  have hsound : KasirSound soughtSessions db0 σ := run_sound h0 (fun _ _ hok => hok) h
  refine ⟨?_, fun s hs x hx hclosed y hy hid => ?_, ?_, closed_by hsound⟩
  · exact hsound.invariant ShiftsOk hinit fun e he ha =>
      ha.step soughtSessions_sought he.invBefore he.post
  · exact (hsound.evolves_of_mem_states hs).closed hsound.inv hx hclosed hy hid
  · intro i j user user' id id' r r' hi hj hid
    obtain ⟨e1, he1, rfl, hcall1, -⟩ := hsound.commit_of_answer hi
    obtain ⟨e2, he2, rfl, hcall2, -⟩ := hsound.commit_of_answer hj
    by_contra hne
    have hne' : e1 ≠ e2 := fun heq => hne (heq ▸ rfl)
    have hpost1 := (hsound.commits e1 he1).post
    have hpost2 := (hsound.commits e2 he2).post
    rw [hcall1] at hpost1
    rw [hcall2] at hpost2
    obtain ⟨⟨x1, hx1, hid1, hopen1⟩, y1, hy1, hyid1, hclosed1⟩ := hpost1.closes
    obtain ⟨⟨x2, hx2, hid2, hopen2⟩, y2, hy2, hyid2, hclosed2⟩ := hpost2.closes
    -- the later of the two would have found the session CLOSED
    rcases hsound.ordered he1 he2 hne' with hev | hev
    · have hcl := Evolves.closed hev (hsound.commits e2 he2).invBefore hy1 hclosed1 hx2
        (hid2.trans (hid.symm.trans hyid1.symm))
      rw [hopen2] at hcl
      cases hcl
    · have hcl := Evolves.closed hev (hsound.commits e1 he1).invBefore hy2 hclosed2 hx1
        (hid1.trans (hid.trans hyid2.symm))
      rw [hopen1] at hcl
      cases hcl

theorem Shop.shiftsOk : ShiftsOk Shop.db := by
  refine ⟨fun o ho => (nomatch ho), fun x hx y hy _ _ _ _ => ?_⟩
  rw [List.mem_singleton.mp hx, List.mem_singleton.mp hy]

/-- In the shop an order is held, sold, and then the shift is closed. -/
theorem closed_shift_has_no_open_order_shop :
    ∃ σ : State, kasir.Run UnguessedSessions Shop.db σ ∧
      (∃ x ∈ σ.db.cashierSessions, x.status = .closed) ∧ ShiftsOk σ.db := by
  obtain ⟨σ, -, hrun, hp, -⟩ := Shop.run soughtSessions
    ([(Shop.hold Shop.coffee, Shop.envs 1),
      (Shop.sellHeld (Shop.uuid 2 7 0) 1 (Shop.uuid 9 9 9), Shop.envs 2), (Shop.close, Shop.envs 3)])
    (fun _ after => after.cashierSessions.any fun x => x.status == .closed)
    (by decide +kernel)
  refine ⟨σ, hrun, ?_, (closed_shift_has_no_open_order Shop.wf Shop.shiftsOk hrun).1⟩
  obtain ⟨x, hx, hclosed⟩ := List.any_eq_true.mp hp
  exact ⟨x, hx, beq_iff_eq.mp hclosed⟩

end Kasir
