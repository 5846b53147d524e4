/-
  Kasir.Scopes

  What calls have read of their actors.

  Opening a shift, and whatever is done to a held order, begins by reading the row of the
  actor.  A cashier is let through at the assigned outlet only.
-/

import Kasir.Runs
import Kasir.Txn.Seen

namespace Kasir

open Txn Js

/-- The actor was read; as a cashier, at this outlet. -/
def ActedAt (user : JwtPayload) (outletId : Id) (seen : List Db) : Prop :=
  ∃ actor : User, actor.id = toLowerCase user.sub ∧
    (actor.role = .cashier → actor.outletId = some outletId) ∧
    Saw seen fun s => actor ∈ s.accounts.users

/-- The order was read, and the actor at its outlet. -/
def ActedOn (user : JwtPayload) (orderId : Id) (seen : List Db) : Prop :=
  ∃ o : HeldOrder, o.id = orderId ∧ (Saw seen fun s => o ∈ s.held.heldOrders) ∧
    ActedAt user o.outletId seen

/-- What a call has read of its actor. -/
def Scoped : Call → List Db → Prop
  | .shiftOpen user outletId => ActedAt user (toLowerCase outletId)
  | .holdUpdate user id _ | .holdCancel user id _ | .holdCheckout user id _ =>
      ActedOn user (toLowerCase id)
  | _ => fun _ => True

section Mono

variable {user : JwtPayload} {outletId orderId : Id} {seen seen' : List Db}

theorem ActedAt.mono (h : ActedAt user outletId seen) (hsub : seen ⊆ seen') :
    ActedAt user outletId seen' := by
  obtain ⟨actor, hid, hrole, hsaw⟩ := h
  exact ⟨actor, hid, hrole, hsaw.mono hsub⟩

theorem ActedOn.mono (h : ActedOn user orderId seen) (hsub : seen ⊆ seen') :
    ActedOn user orderId seen' := by
  obtain ⟨o, hid, hsaw, hacted⟩ := h
  exact ⟨o, hid, hsaw.mono hsub, hacted.mono hsub⟩

end Mono

-- ============================================================================
-- Bodies
-- ============================================================================

section Bodies

variable {R : Token → Prop} {iso : Isolation} {st : St Db Token} {db : Db} {α : Type}

/-- The actor's row. -/
theorem wp_principal_seen {user : JwtPayload} {Q : User → St Db Token → Db → Prop}
    (hlog : ∀ d, st.log d = d)
    (h : ∀ u st' db', Ran R id st db st' db' → u.id = user.sub →
      (Saw st'.seen fun s => u ∈ s.accounts.users) → Q u st' db') :
    wp (protocol R) iso (HeldOrders.principal user) Q st db := by
  unfold HeldOrders.principal
  rw [wp_bind]
  apply wp_query
  intro st1 db1 s hran hread
  apply wp_require
  intro u hu
  rw [hlog s] at hu
  have hkey := List.find?_some hu
  simp only [Bool.and_eq_true, beq_iff_eq] at hkey
  exact h u st1 db1 hran hkey.1.1.1 ⟨s, hread.seen, List.mem_of_find?_eq_some hu⟩

/-- The scope of an actor: all outlets, or that of a cashier. -/
theorem wp_readScope_seen {user : JwtPayload} {Q : HeldOrders.Scope → St Db Token → Db → Prop}
    (hlog : ∀ d, st.log d = d)
    (h : ∀ scope u st' db', Ran R id st db st' db' → u.id = user.sub →
      (Saw st'.seen fun s => u ∈ s.accounts.users) →
      (u.role = .cashier → ∃ outletId, u.outletId = some outletId ∧ scope.outletId = some outletId) →
      Q scope st' db') :
    wp (protocol R) iso (HeldOrders.readScope user) Q st db := by
  unfold HeldOrders.readScope
  rw [wp_bind]
  apply wp_principal_seen hlog
  intro u st1 db1 hran1 hid hsaw
  have hall : u.role ≠ .cashier →
      Q { tenantId := user.tenantId, outletId := none } st1 db1 := fun hrole =>
    h _ u st1 db1 hran1 hid hsaw fun hcashier => absurd hcashier hrole
  cases hrole : u.role with
  | owner => exact hall (by rw [hrole]; intro hne; cases hne)
  | admin => exact hall (by rw [hrole]; intro hne; cases hne)
  | cashier =>
      dsimp only
      rw [wp_bind]
      apply wp_require
      intro outletId houtlet
      unfold HeldOrders.findOutlet
      rw [wp_bind, wp_bind]
      apply wp_query
      intro st2 db2 s hran2 _
      apply wp_guard
      intro _
      have hran : Ran R id st db st2 db2 := hran1.trans hran2
      exact h _ u st2 db2 hran hid (hsaw.mono hran2.seen) fun _ => ⟨outletId, houtlet, rfl⟩

/-- What comes after the order was found in the actor's scope does not undo it. -/
theorem wp_scoped {user : JwtPayload} {orderId : Id} {f : HeldOrders.HeldOrderRecord → Body α} :
    wp (protocol R) iso (HeldOrders.readScope user.normalized >>= fun scope =>
      HeldOrders.findInScope scope orderId >>= f)
      (fun _ st' _ => ActedOn user orderId st'.seen) St.start db := by
  rw [wp_bind]
  apply wp_readScope_seen (fun _ => rfl)
  intro scope u st1 db1 hran1 hid hsaw hrole
  unfold HeldOrders.findInScope
  rw [wp_bind, wp_bind]
  apply wp_queryRanked
  intro st2 db2 s rank hran2 hread
  apply wp_require
  intro record hrecord
  obtain ⟨o, ho, -⟩ := Option.map_eq_some_iff.mp hrecord
  rw [hran1.log s] at ho
  have hkey := List.find?_some ho
  simp only [Bool.and_eq_true, beq_iff_eq] at hkey
  have hacted : ActedOn user orderId st2.seen := by
    refine ⟨o, hkey.2, ⟨s, hread.seen, List.mem_of_find?_eq_some ho⟩, u, hid, fun hcashier => ?_,
      hsaw.mono hran2.seen⟩
    obtain ⟨outletId, houtlet, hscope⟩ := hrole hcashier
    have hcontains := hkey.1
    unfold HeldOrders.Scope.contains at hcontains
    rw [hscope] at hcontains
    simp only [Bool.and_eq_true, beq_iff_eq] at hcontains
    rw [houtlet, hcontains.2]
  exact wp_seen (fun _ _ hsub h => h.mono hsub) _ hacted

theorem open_scoped {user : JwtPayload} {outletId : String} :
    wp (protocol R) iso (Shifts.openBody user outletId >>= fun r => Prog.ret (Result.shift r))
      (fun _ st' _ => ActedAt user (toLowerCase outletId) st'.seen) St.start db := by
  unfold Shifts.openBody Shifts.actorContext
  simp only [Prog.bind_assoc]
  rw [wp_bind]
  apply wp_lift
  intro o ho
  unfold Shifts.prepareOpen at ho
  split at ho
  · obtain rfl := Except.ok.inj ho
    rw [wp_bind]
    apply wp_guard
    intro _
    rw [wp_bind]
    apply wp_principal_seen (fun _ => rfl)
    intro u st1 db1 hran1 hid hsaw
    simp only [Prog.pure_eq, Prog.ret_bind]
    rw [wp_bind]
    apply wp_guard
    intro hrole
    have hacted : ActedAt user (toLowerCase outletId) st1.seen := by
      refine ⟨u, hid, fun hcashier => ?_, hsaw⟩
      rw [hcashier] at hrole
      simpa using hrole
    exact wp_seen (fun _ _ hsub h => h.mono hsub) _ hacted
  · cases ho

theorem update_scoped {user : JwtPayload} {id : String} {input : HeldOrders.UpdateHeldOrderDto} :
    wp (protocol R) iso (HeldOrders.updateBody user id input)
      (fun _ st' _ => ActedOn user (toLowerCase id) st'.seen) St.start db := by
  unfold HeldOrders.updateBody
  rw [wp_bind]
  apply wp_lift
  intro x hx
  obtain ⟨actor, orderId, dto⟩ := x
  obtain ⟨rfl, rfl, rfl⟩ := HeldOrders.prepareUpdate_ok hx
  exact wp_scoped

theorem cancel_scoped {user : JwtPayload} {id : String} {input : HeldOrders.CancelHeldOrderDto} :
    wp (protocol R) iso (HeldOrders.cancelBody user id input)
      (fun _ st' _ => ActedOn user (toLowerCase id) st'.seen) St.start db := by
  unfold HeldOrders.cancelBody
  rw [wp_bind]
  apply wp_lift
  intro x hx
  obtain ⟨actor, orderId⟩ := x
  obtain ⟨rfl, rfl⟩ := HeldOrders.prepareOrder_ok hx
  exact wp_scoped

theorem checkout_scoped {user : JwtPayload} {id : String}
    {input : HeldOrders.CheckoutHeldOrderDto} :
    wp (protocol R) iso (HeldOrders.checkoutBody user id input)
      (fun _ st' _ => ActedOn user (toLowerCase id) st'.seen) St.start db := by
  unfold HeldOrders.checkoutBody
  rw [wp_bind]
  apply wp_lift
  intro x hx
  obtain ⟨actor, orderId, dto⟩ := x
  obtain ⟨rfl, rfl, rfl⟩ := HeldOrders.prepareCheckout_ok hx
  unfold HeldOrders.convertHeldOrder
  exact wp_scoped

/-- A result changes nothing about what was read. -/
theorem wp_seen_map {p : Body α} {Q : List Db → Prop} {f : α → Result}
    (h : wp (protocol R) iso p (fun _ st' _ => Q st'.seen) st db) :
    wp (protocol R) iso (p >>= fun a => Prog.ret (f a)) (fun _ st' _ => Q st'.seen) st db := by
  rw [wp_bind]
  exact h

/-- **Every call** has read what is listed of its actor. -/
theorem body_scoped (c : Call) :
    wp (protocol R) c.isolation c.body (fun _ st' _ => Scoped c st'.seen) St.start db := by
  have hnone : ∀ (p : Body Result),
      wp (protocol R) c.isolation p (fun _ _ _ => True) St.start db := fun p =>
    wp_seen (Q := fun _ => True) (fun _ _ _ h => h) p trivial
  cases c with
  | shiftOpen user outletId => exact open_scoped
  | holdUpdate user id input => exact wp_seen_map update_scoped
  | holdCancel user id input => exact wp_seen_map cancel_scoped
  | holdCheckout user id input => exact wp_seen_map checkout_scoped
  | create user input => exact hnone _
  | createLegacySync user input => exact hnone _
  | holdCreate user input => exact hnone _
  | shiftClose user id => exact hnone _
  | shiftSummary user id => exact hnone _
  | adjustStock user input => exact hnone _
  | catalog user op => exact hnone _
  | administer accounts => exact hnone _

end Bodies

-- ============================================================================
-- Runs
-- ============================================================================

/-- Whatever the interleaving, a call that has committed has read what is listed of its
    actor from committed states before its own. -/
theorem reach_scoped {db0 : Db} {σ : State} (h0 : Wf db0) (h : kasir.Reach db0 σ)
    {pre post : List KasirCommit} {e : KasirCommit} (heq : σ.history = pre ++ e :: post) :
    Scoped e.call e.seen ∧ ∀ s ∈ e.seen, s ∈ states db0 pre := by
  have hsound : Sound kasir (protocol noMarks)
      (fun c r seen a b => Effect noMarks c r seen a b ∧ Scoped c seen) db0 σ := by
    apply Run.sound _ Token.blocks_comm h0 _ h
    · intro c hprecheck db _
      exact wp_commits_seen (body_commits c hprecheck) (body_scoped c)
    · intro σ i c n tx _ hi j y hj hji l hl l' hl' hblocks
      exact (respects_noMarks σ (.commit i)).not_conflicts hi hj hji hl hl' hblocks
  have he : e ∈ σ.history := by
    rw [heq]
    exact List.mem_append_right _ (List.mem_cons_self ..)
  exact ⟨(hsound.commits e he).post.2, hsound.seen pre e post heq⟩

end Kasir
