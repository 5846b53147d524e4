/-
  Kasir.Guarantees.Confinement

  A cashier is confined to the assigned outlet.

  No call that sells compares the outlet of the sale with the cashier's own.  That a cashier
  sells at the assigned outlet only follows from the session, which was opened there, for a
  sale of its own, and from the check of the batch for a sale made offline.  It holds of
  every run in which roles and outlets of users stay as they are.
-/

import Kasir.Scopes
import Kasir.SaleHistory
import Kasir.Readers
import Kasir.Sync.Results

namespace Kasir

open Txn Js Transactions HeldOrders

-- ============================================================================
-- Posts
-- ============================================================================

/-- Users have these roles and outlets. -/
def Posted (post : Id → Role × Option Id) (db : Db) : Prop :=
  ∀ u ∈ db.accounts.users, (u.role, u.outletId) = post u.id

/-- If the user is a cashier, the outlet is the assigned one. -/
def AtPost (post : Id → Role × Option Id) (userId outletId : Id) : Prop :=
  (post userId).1 = .cashier → (post userId).2 = some outletId

/-- Sessions, sales and held orders of cashiers are at their outlets. -/
structure Confined (post : Id → Role × Option Id) (db : Db) : Prop where
  sessions : ∀ s ∈ db.cashierSessions, AtPost post s.userId s.outletId
  sales : ∀ t ∈ db.sales.transactions, AtPost post t.userId t.outletId
  held : ∀ o ∈ db.held.heldOrders, AtPost post o.cashierUserId o.outletId

/-- A sale that was made offline is at the outlet of its cashier. -/
def LegacyAt (post : Id → Role × Option Id) (c : Call) : Prop :=
  ∀ user input, c = .createLegacySync user input →
    AtPost post (toLowerCase user.sub) (toLowerCase input.outletId)

/-- The order that a call works on. -/
def Call.order : Call → Option (JwtPayload × Id)
  | .holdUpdate user id _ | .holdCancel user id _ | .holdCheckout user id _ =>
      some (user, toLowerCase id)
  | _ => none

/-- The sale that a call is answered with, and who is. -/
def answeredSale : Call → Result → Option (JwtPayload × TransactionResponse)
  | .create user _, .sale r | .createLegacySync user _, .sale r => some (user, r)
  | .holdCheckout user _ _, .conversion result => some (user, result.transaction)
  | _, _ => none

/-- What a commit works on and answers with is at the outlet of its cashier. -/
structure Handles (post : Id → Role × Option Id) (e : KasirCommit) : Prop where
  orders : ∀ user orderId, e.call.order = some (user, orderId) →
    ∀ o ∈ e.before.held.heldOrders, o.id = orderId → AtPost post (toLowerCase user.sub) o.outletId
  sales : ∀ user r, answeredSale e.call e.result = some (user, r) →
    AtPost post (toLowerCase user.sub) r.outletId

section Step

variable {post : Id → Role × Option Id} {seen : List Db}

/-- A cashier who was let through is at the assigned outlet. -/
theorem ActedAt.atPost {user : JwtPayload} {outletId : Id} (h : ActedAt user outletId seen)
    (hposted : ∀ s ∈ seen, Posted post s) : AtPost post (toLowerCase user.sub) outletId := by
  obtain ⟨actor, hid, hrole, s, hs, hactor⟩ := h
  have hpost := hposted s hs actor hactor
  rw [hid] at hpost
  intro hcashier
  rw [← hpost] at hcashier ⊢
  exact hrole hcashier

variable {R : Token → Prop} {c : Call} {r : Result} {a b : Db}
  (hposted : ∀ s ∈ seen, Posted post s) (hseen : ∀ s ∈ seen, Confined post s)
include hseen

/-- A new sale of the actor's own is where the session was opened. -/
theorem Transactions.NewSale.atPost {tx : TransactionClient} {user : JwtPayload} {dto : CheckoutDto}
    {mode : CheckoutMode} {sale : Sale} {resp : TransactionResponse}
    (h : NewSale R tx user dto mode sale resp seen a) (hmode : mode = .v1) :
    AtPost post user.sub dto.outletId := by
  obtain ⟨sid, -, ⟨s, hs, x, hx, -, -, huser, -, houtlet⟩, -⟩ := h.session hmode
  have hsession := (hseen s hs).sessions x hx
  rw [huser, houtlet] at hsession
  exact hsession

/-- A new sale is at the outlet of its cashier. -/
theorem SaleOf.atPost {user : JwtPayload} {dto : CheckoutDto} {mode : CheckoutMode}
    {tx : TransactionClient} {resp : TransactionResponse} {sale : Sale}
    (hcall : SaleOf c r seen a user dto mode tx resp)
    (h : NewSale R tx user dto mode sale resp seen a) (hlegacy : LegacyAt post c) :
    AtPost post user.sub dto.outletId := by
  cases hcall with
  | @request c user input mode r seen db hc =>
      cases mode with
      | v1 => exact h.atPost hseen rfl
      | legacySync =>
          cases c with
          | createLegacySync =>
              cases hc
              exact hlegacy _ _ rfl
          | _ => cases hc
  | conversion horder => exact h.atPost hseen rfl

include hposted in
/-- One commit keeps cashiers at their outlets. -/
theorem Confined.step (ha : Confined post a) (h : Effect R c r seen a b) (hscoped : Scoped c seen)
    (hlegacy : LegacyAt post c) : Confined post b where
  sessions := by
    rcases h.sessions_cases with hs | ⟨user, outletId, row, rfl, hopened, rfl⟩ |
      ⟨user, id, x, env, rfl, hclosed, rfl⟩
    · rw [hs]
      exact ha.sessions
    · intro s hs
      rcases List.mem_append.mp hs with hs | hs
      · exact ha.sessions s hs
      · rw [List.mem_singleton.mp hs, hopened.made.2.1, hopened.made.2.2.1]
        exact ActedAt.atPost hscoped hposted
    · intro s hs
      obtain ⟨y, hy, rfl⟩ := List.mem_map.mp hs
      have hsession := ha.sessions y hy
      split
      · exact hsession
      · exact hsession
  sales := by
    rcases h.sales_cases with ⟨hs, -⟩ | ⟨user, dto, mode, tx, sale, resp, hcall, hsale, hs, -⟩ |
      ⟨user, dto, isNew, env, env', -, -, hs, -⟩
    · rw [hs]
      exact ha.sales
    · intro t ht
      rw [hs] at ht
      rcases List.mem_append.mp ht with ht | ht
      · exact ha.sales t ht
      · obtain ⟨env, htransaction⟩ := hsale.built.transaction
        rw [List.mem_singleton.mp ht, htransaction]
        exact hcall.atPost hseen hsale hlegacy
    · rw [hs]
      exact ha.sales
  held := by
    rcases h.held_cases with ⟨hh, -⟩ | ⟨user, input, order, resolved, lines, rfl, hnew, rfl⟩ |
      ⟨tenantId, orderId, version, row, lines, x, hswap, -, -, hh, -⟩
    · rw [hh]
      exact ha.held
    · intro o ho
      rcases List.mem_append.mp ho with ho | ho
      · exact ha.held o ho
      · obtain ⟨estimates, env, rfl, -⟩ := hnew.priced
        obtain ⟨s, hs, y, hy, -, -, huser, -, houtlet⟩ := hnew.session
        have hsession := (hseen s hs).sessions y hy
        rw [huser, houtlet] at hsession
        rw [List.mem_singleton.mp ho]
        exact hsession
    · intro o' ho'
      rw [hh] at ho'
      obtain ⟨o, ho, rfl⟩ := Held.mem_edit.mp ho'
      have horder := ha.held o ho
      split
      · have horigin := hswap.origin o
        simp only [HeldOrder.origin, Prod.mk.injEq] at horigin
        rw [horigin.2.2.1, horigin.2.2.2.2]
        exact horder
      · exact horder

end Step

-- ============================================================================
-- Answers
-- ============================================================================

section Answers

variable {post : Id → Role × Option Id}

/-- A sale that is found belongs to the actor. -/
theorem FoundSale.atPost {user : JwtPayload} {dto : CheckoutDto} {r : TransactionResponse} {db : Db}
    (h : FoundSale user dto r db) (hconf : Confined post db) : AtPost post user.sub r.outletId := by
  obtain ⟨rank, t, ht, -, hsame, hr⟩ := h
  have huser : t.userId = user.sub := by
    unfold sameRequest at hsame
    simp only [Bool.and_eq_true, beq_iff_eq] at hsame
    exact hsame.1.1.1.1.1.1.1
  have hsale := hconf.sales t ht
  rw [huser] at hsale
  rw [toResponse_ok hr]
  exact hsale

/-- So does a new one. -/
theorem NewSale.answer_atPost {R : Token → Prop} {tx : TransactionClient} {user : JwtPayload}
    {dto : CheckoutDto} {mode : CheckoutMode} {sale : Sale} {r : TransactionResponse}
    {seen : List Db} {a : Db} (h : NewSale R tx user dto mode sale r seen a)
    (hat : AtPost post user.sub dto.outletId) : AtPost post user.sub r.outletId := by
  obtain ⟨rank, hr⟩ := h.response
  have houtlet : r.outletId = dto.outletId := by
    rw [toResponse_ok hr]
    exact h.built.outletId
  rw [houtlet]
  exact hat

/-- A commit is answered with a sale at the actor's outlet. -/
theorem Effect.answer_atPost {R : Token → Prop} {c : Call} {result : Result} {seen : List Db}
    {a b : Db} (h : Effect R c result seen a b) (ha : Confined post a)
    (hseen : ∀ s ∈ seen, Confined post s) (hlegacy : LegacyAt post c) {user : JwtPayload}
    {r : TransactionResponse} (hanswer : answeredSale c result = some (user, r)) :
    AtPost post (toLowerCase user.sub) r.outletId := by
  cases h with
  | @found c user' input mode r' seen db hc h =>
      have hsale := FoundSale.atPost h ha
      cases c with
      | create => cases hc; cases hanswer; exact hsale
      | createLegacySync => cases hc; cases hanswer; exact hsale
      | _ => cases hc
  | @sold c user' input mode sale r' seen db hc h =>
      have hsale := NewSale.answer_atPost h ((SaleOf.request hc).atPost hseen h hlegacy)
      cases c with
      | create => cases hc; cases hanswer; exact hsale
      | createLegacySync => cases hc; cases hanswer; exact hsale
      | _ => cases hc
  | replayed horder h =>
      cases hanswer
      exact FoundSale.atPost h ha
  | convertedFound horder h haccepted =>
      cases hanswer
      exact FoundSale.atPost h ha
  | convertedSold horder h =>
      cases hanswer
      exact NewSale.answer_atPost h (h.atPost hseen rfl)
  | held => cases hanswer
  | updated => cases hanswer
  | cancelled => cases hanswer
  | opened => cases hanswer
  | closed => cases hanswer
  | summarized => cases hanswer
  | adjusted => cases hanswer
  | edited => cases hanswer
  | administered => cases hanswer

end Answers

-- ============================================================================
-- Runs
-- ============================================================================

section Runs

variable {post : Id → Role × Option Id} {db0 : Db} {σ : State}
  (h0 : Wf db0) (hreach : kasir.Reach db0 σ)
  (hposted : ∀ d ∈ states db0 σ.history, Posted post d) (hconfined : Confined post db0)
  (hlegacy : ∀ e ∈ σ.history, LegacyAt post e.call)
include h0 hreach hposted hconfined hlegacy

/-- Cashiers are at their outlets in every committed state.  The induction is on the
    history; a call has read from the states before its commit. -/
theorem confined_states : ∀ d ∈ states db0 σ.history, Confined post d := by
  have hsound := reach_sound h0 hreach
  apply hsound.chain.induction (fun done d => ∀ s ∈ states db0 done, Confined post s)
  · intro s hs
    rcases mem_states.mp hs with rfl | ⟨e, he, -⟩
    · exact hconfined
    · cases he
  · intro pre e rest heq hpre s hs
    have he : e ∈ σ.history := by
      rw [heq]
      exact List.mem_append_right _ (List.mem_cons_self ..)
    obtain ⟨hscoped, hseen⟩ := reach_scoped h0 hreach heq
    have hchain := hsound.chain
    rw [heq] at hchain
    have hbefore : Confined post e.before := hpre _ hchain.split.1.mem_states
    have hafter : Confined post e.after := by
      apply hbefore.step _ _ (hsound.commits e he).post hscoped (hlegacy e he)
      · intro d hd
        apply hposted
        rw [heq]
        exact states_mono (hseen d hd)
      · exact fun d hd => hpre d (hseen d hd)
    rcases mem_states.mp hs with rfl | ⟨e', he', rfl⟩
    · exact hconfined
    · rcases List.mem_append.mp he' with hold | hnew
      · exact hpre _ (mem_states.mpr (Or.inr ⟨e', hold, rfl⟩))
      · rw [List.mem_singleton.mp hnew]
        exact hafter

/-- What cashiers work on and are answered with is at their outlets. -/
theorem handles_own : ∀ e ∈ σ.history, Handles post e := by
  intro e he
  have hsound := reach_sound h0 hreach
  have hstates := confined_states h0 hreach hposted hconfined hlegacy
  obtain ⟨pre, rest, heq⟩ := List.append_of_mem he
  obtain ⟨hscoped, hseen⟩ := reach_scoped h0 hreach heq
  have hchain := hsound.chain
  rw [heq] at hchain
  have hmem : ∀ {d : Db}, d ∈ states db0 pre → d ∈ states db0 σ.history := by
    intro d hd
    rw [heq]
    exact states_mono hd
  constructor
  · intro user orderId horder o ho hid
    have hacted : ActedOn user orderId e.seen := by
      generalize e.call = c at horder hscoped
      cases c with
      | holdUpdate => cases horder; exact hscoped
      | holdCancel => cases horder; exact hscoped
      | holdCheckout => cases horder; exact hscoped
      | _ => cases horder
    obtain ⟨seen, hseenId, ⟨s, hs, hseenMem⟩, hat⟩ := hacted
    -- the order that was read is the one before the commit
    have hevolves : Evolves s e.before := hsound.rel_of_mem_seen Evolves Evolves.refl Evolves.trans
      (fun e' he' => (hsound.commits e' he').evolves) he hs
    obtain ⟨o', ho', horigin, -⟩ := hevolves.held seen hseenMem
    simp only [HeldOrder.origin, Prod.mk.injEq] at horigin
    have hsame : o' = o := eq_of_key (legal_heldOrders (hsound.commits e he).invBefore.legal) ho' ho
      (horigin.1.trans (hseenId.trans hid.symm))
    subst hsame
    have hpost := hat.atPost fun d hd => hposted d (hmem (hseen d hd))
    rw [horigin.2.2.1]
    exact hpost
  · intro user r hanswer
    apply (hsound.commits e he).post.answer_atPost _ _ (hlegacy e he) hanswer
    · exact hstates _ (hmem hchain.split.1.mem_states)
    · exact fun d hd => hstates d (hmem (hseen d hd))

end Runs

-- ============================================================================
-- Readers
-- ============================================================================

section Readers

variable {db : Db} {envs : Nat → Env} {n : Nat} {log : Db → Db} {user : JwtPayload}

/-- The actor whose row a reader finds. -/
theorem principal_ok {user : JwtPayload} {n' : Nat} {u : User}
    (h : (HeldOrders.principal user).solo db envs n id = ⟨n', id, .ok u⟩) :
    u ∈ db.accounts.users ∧ u.id = user.sub := by
  have hresult := congrArg Prog.Outcome.result h
  obtain ⟨n1, found, hfound, hrest⟩ := (reading_query _).bind_ok hresult
  have hone : found = some u := by
    cases found with
    | none => cases hrest
    | some v => exact congrArg some (Except.ok.inj hrest)
  simp only [query, Prog.solo_read, Prog.Outcome.mk.injEq, Except.ok.injEq, true_and] at hfound
  have hfind := hfound.2.trans hone
  have hkey := List.find?_some hfind
  simp only [Bool.and_eq_true, beq_iff_eq] at hkey
  exact ⟨List.mem_of_find?_eq_some hfind, hkey.1.1.1⟩

/-- A reader's scope is that of its actor. -/
def ScopeOf (user : JwtPayload) (db : Db) (scope : ReadScope) : Prop :=
  ∃ u ∈ db.accounts.users, u.id = toLowerCase user.sub ∧
    (u.role = .cashier → ∃ outletId, u.outletId = some outletId ∧ scope.outletId = some outletId)

theorem ScopeOf.all {u : User} {scope : ReadScope} (hu : u ∈ db.accounts.users)
    (hid : u.id = toLowerCase user.sub) (hrole : u.role ≠ .cashier) : ScopeOf user db scope :=
  ⟨u, hu, hid, fun hcashier => absurd hcashier hrole⟩

theorem readScope_ok {n' : Nat} {scope : ReadScope}
    (h : (Transactions.readScope user).solo db envs n id = ⟨n', id, .ok scope⟩) :
    ScopeOf user db scope := by
  have hresult := congrArg Prog.Outcome.result h
  obtain ⟨n1, -, -, h1⟩ := (Prog.reading_guard _ _).bind_ok hresult
  obtain ⟨n2, u, hu, h2⟩ := (principal_reading _).bind_ok h1
  obtain ⟨hmem, hid⟩ := principal_ok hu
  cases hrole : u.role with
  | owner => exact .all hmem hid (by rw [hrole]; intro hne; cases hne)
  | admin => exact .all hmem hid (by rw [hrole]; intro hne; cases hne)
  | cashier =>
      rw [hrole] at h2
      obtain ⟨n3, outletId, houtlet, h3⟩ := (Prog.reading_require _ _).bind_ok h2
      obtain ⟨n4, found, -, h4⟩ := (reading_query _).bind_ok h3
      obtain ⟨n5, -, -, h5⟩ := (Prog.reading_guard _ _).bind_ok h4
      have hscope : { tenantId := toLowerCase user.tenantId, outletId := some outletId } = scope :=
        Except.ok.inj h5
      exact ⟨u, hmem, hid, fun _ => ⟨outletId, require_ok houtlet, hscope ▸ rfl⟩⟩

theorem receiptScope_ok {n' : Nat} {scope : ReadScope}
    (h : (Receipts.receiptScope user).solo db envs n id = ⟨n', id, .ok scope⟩) :
    ScopeOf user db scope := by
  have hresult := congrArg Prog.Outcome.result h
  obtain ⟨n1, -, -, h1⟩ := (Prog.reading_guard _ _).bind_ok hresult
  obtain ⟨n2, u, hu, h2⟩ := (principal_reading _).bind_ok h1
  obtain ⟨hmem, hid⟩ := principal_ok hu
  cases hrole : u.role with
  | owner => exact .all hmem hid (by rw [hrole]; intro hne; cases hne)
  | admin => exact .all hmem hid (by rw [hrole]; intro hne; cases hne)
  | cashier =>
      rw [hrole] at h2
      obtain ⟨n3, outletId, houtlet, h3⟩ := (Prog.reading_require _ _).bind_ok h2
      have hscope : { tenantId := toLowerCase user.tenantId, outletId := some outletId } = scope :=
        Except.ok.inj h3
      exact ⟨u, hmem, hid, fun _ => ⟨outletId, require_ok houtlet, hscope ▸ rfl⟩⟩

theorem listScope_inScope {requested : Option String} {n' : Nat} {scope : ReadScope}
    (h : (listScope user requested).solo db envs n id = ⟨n', id, .ok scope⟩) :
    ScopeOf user db scope := by
  have hresult := congrArg Prog.Outcome.result h
  obtain ⟨n1, -, -, h1⟩ := (Prog.reading_guard _ _).bind_ok hresult
  obtain ⟨n2, u, hu, h2⟩ := (principal_reading _).bind_ok h1
  obtain ⟨n3, outletId, houtlet, h3⟩ := (listOutlet_reading _ _).bind_ok h2
  obtain ⟨n4, -, -, h4⟩ := (checkOutlet_reading _ _).bind_ok h3
  obtain ⟨hmem, hid⟩ := principal_ok hu
  have hscope : { tenantId := toLowerCase user.tenantId, outletId } = scope := Except.ok.inj h4
  have houtlet := congrArg Prog.Outcome.result houtlet
  unfold listOutlet at houtlet
  cases hrole : u.role with
  | owner => exact .all hmem hid (by rw [hrole]; intro hne; cases hne)
  | admin => exact .all hmem hid (by rw [hrole]; intro hne; cases hne)
  | cashier =>
      rw [hrole] at houtlet
      obtain ⟨n5, own, hown, h5⟩ := (Prog.reading_require _ _).bind_ok houtlet
      obtain ⟨n6, -, -, h6⟩ := (Prog.reading_guard _ _).bind_ok h5
      have hsame : some own = outletId := Except.ok.inj h6
      exact ⟨u, hmem, hid, fun _ => ⟨own, require_ok hown, by rw [← hscope, hsame]⟩⟩

variable {post : Id → Role × Option Id}

/-- A sale in the scope of a cashier is at the assigned outlet. -/
theorem ScopeOf.atPost {scope : ReadScope} (h : ScopeOf user db scope) (hposted : Posted post db)
    {t : Transaction} (hadmitted : scope.admits t = true) :
    AtPost post (toLowerCase user.sub) t.outletId := by
  obtain ⟨u, hu, hid, hrole⟩ := h
  have hpost := hposted u hu
  rw [hid] at hpost
  intro hcashier
  rw [← hpost] at hcashier ⊢
  obtain ⟨outletId, houtlet, hscope⟩ := hrole hcashier
  unfold ReadScope.admits at hadmitted
  rw [hscope] at hadmitted
  simp only [Bool.and_eq_true, Option.all_some, beq_iff_eq] at hadmitted
  rw [hadmitted.2]
  exact houtlet

/-- A sale that is read is in the reader's scope. -/
theorem findOne_inScope {id : String} {r : TransactionResponse}
    (h : findOne user id db envs = .ok r) :
    ∃ scope, ScopeOf user db scope ∧ ∃ t ∈ db.sales.transactions, scope.admits t = true ∧
      r.transactionId = t.id ∧ r.outletId = t.outletId := by
  obtain ⟨n1, -, -, h1⟩ := (Prog.reading_guard _ _).bind_ok h
  obtain ⟨n2, scope, hscope, h2⟩ := (readScope_reading user).bind_ok h1
  obtain ⟨n3, found, hfound, h3⟩ := (reading_queryRanked _).bind_ok h2
  obtain ⟨n4, rec, hrec, h4⟩ := (Prog.reading_require _ _).bind_ok h3
  obtain ⟨n5, legacy, -, h5⟩ := (findLegacyProducts_reading _ _).bind_ok h4
  have hsome := require_ok hrec
  subst hsome
  simp only [queryRanked, Prog.solo_read, Prog.Outcome.mk.injEq, Except.ok.injEq, true_and] at hfound
  obtain ⟨t, ht, rfl⟩ := Option.map_eq_some_iff.mp hfound.2
  have hkey := List.find?_some ht
  rw [Bool.and_eq_true] at hkey
  have hr := toResponse_ok (lift_ok h5)
  exact ⟨scope, readScope_ok hscope, t, List.mem_of_find?_eq_some ht, hkey.1, hr ▸ rfl, hr ▸ rfl⟩

/-- So is one of which the receipt is read. -/
theorem receipt_inScope {id : String} {r : Receipts.Receipt}
    (h : Receipts.findOne user id db envs = .ok r) :
    ∃ scope, ScopeOf user db scope ∧ ∃ t ∈ db.sales.transactions, scope.admits t = true ∧
      r.transactionId = t.id := by
  obtain ⟨n1, -, -, h1⟩ := (Prog.reading_guard _ _).bind_ok h
  obtain ⟨n2, scope, hscope, h2⟩ := (Receipts.receiptScope_reading user).bind_ok h1
  obtain ⟨n3, found, hfound, h3⟩ := (reading_query _).bind_ok h2
  obtain ⟨n4, rec, hrec, h4⟩ := (Prog.reading_require _ _).bind_ok h3
  obtain ⟨n5, legacy, -, h5⟩ := (findLegacyProducts_reading _ _).bind_ok h4
  have hsome := require_ok hrec
  subst hsome
  simp only [query, Prog.solo_read, Prog.Outcome.mk.injEq, Except.ok.injEq, true_and] at hfound
  obtain ⟨t, ht, rfl⟩ := Option.map_eq_some_iff.mp hfound.2
  have hkey := List.find?_some ht
  rw [Bool.and_eq_true] at hkey
  have hr := toReceipt_ok (lift_ok h5)
  exact ⟨scope, receiptScope_ok hscope, t, List.mem_of_find?_eq_some ht, hkey.1, hr ▸ rfl⟩

/-- So are all that are listed. -/
theorem findAll_inScope {q : QueryTransactionsDto} {r : TransactionList}
    (h : findAll user q db envs = .ok r) :
    ∃ scope, ScopeOf user db scope ∧ ∀ row ∈ r.data, ∃ t ∈ db.sales.transactions,
      scope.admits t = true ∧ row = Transaction.summary t := by
  obtain ⟨n1, -, -, h1⟩ := (Prog.reading_lift _).bind_ok h
  obtain ⟨n2, scope, hscope, h2⟩ := (listScope_reading _ _).bind_ok h1
  obtain ⟨n3, total, -, h3⟩ := (reading_query _).bind_ok h2
  obtain ⟨n4, rows, hrows, h4⟩ := (reading_query _).bind_ok h3
  obtain ⟨n5, data, hdata, h5⟩ := (Prog.reading_lift _).bind_ok h4
  refine ⟨scope, listScope_inScope hscope, fun row hrow => ?_⟩
  simp only [query, Prog.solo_read, Prog.Outcome.mk.injEq, Except.ok.injEq, true_and] at hrows
  obtain rfl := hrows.2
  have hmapped := Checked.mapM_ok.mp (lift_ok (congrArg Prog.Outcome.result hdata))
  rw [← Except.ok.inj h5] at hrow
  obtain ⟨t, ht, hsummary⟩ := forall₂_mem_right hmapped row hrow
  obtain ⟨hmem, hselected⟩ := mem_listed.mp (List.mem_of_mem_drop (List.mem_of_mem_take ht))
  unfold QueryTransactionsDto.selects at hselected
  simp only [Bool.and_eq_true] at hselected
  exact ⟨t, hmem, hselected.1.1.1, toSummary_ok hsummary⟩

/-- What readers are shown is at the outlet of the cashier who reads. -/
structure ShownOwn (post : Id → Role × Option Id) (P : Db → Prop) (user : JwtPayload)
    (reads : List (Db × Env)) : Prop where
  detail : ∀ id r, findOneIn user id reads = some (.ok r) →
    AtPost post (toLowerCase user.sub) r.outletId
  listing : ∀ q page, findAllIn user q reads = some (.ok page) →
    ∀ row ∈ page.data, AtPost post (toLowerCase user.sub) row.outletId
  receipt : ∀ id c, Receipts.findOneIn user id reads = some (.ok c) →
    ∃ d, P d ∧ ∃ t ∈ d.sales.transactions, c.transactionId = t.id ∧
      AtPost post (toLowerCase user.sub) t.outletId

/-- Whatever commits while they read. -/
theorem shownOwn_of_posted {P : Db → Prop} {reads : List (Db × Env)} (hposted : ∀ d, P d → Posted post d)
    {db0 : Db} (h0 : P db0) (hreads : ∀ v ∈ reads, P v.1) : ShownOwn post P user reads where
  detail := by
    intro id r hr
    obtain ⟨d, hd, envs, hone⟩ := answerIn_of_reads (findOneBody_reading user id) hr h0 hreads
    obtain ⟨scope, hscope, t, -, hadmitted, -, houtlet⟩ := findOne_inScope hone
    rw [houtlet]
    exact hscope.atPost (hposted d hd) hadmitted
  listing := by
    intro q page hpage row hrow
    obtain ⟨d, hd, envs, hone⟩ := answerIn_of_reads (findAllBody_reading user q) hpage h0 hreads
    obtain ⟨scope, hscope, hrows⟩ := findAll_inScope hone
    obtain ⟨t, -, hadmitted, rfl⟩ := hrows row hrow
    exact hscope.atPost (hposted d hd) hadmitted
  receipt := by
    intro id c hc
    obtain ⟨d, hd, envs, hone⟩ := answerIn_of_reads (Receipts.findOneBody_reading user id) hc h0 hreads
    obtain ⟨scope, hscope, t, ht, hadmitted, hid⟩ := receipt_inScope hone
    exact ⟨d, hd, t, ht, hid, hscope.atPost (hposted d hd) hadmitted⟩

end Readers

-- ============================================================================
-- Sales made offline
-- ============================================================================

section Offline

open Sync

variable {post : Id → Role × Option Id}

/-- Every row of a batch that is let in names the outlet of its cashier. -/
theorem rows_atPost {user : JwtPayload} {transactions : List SyncTransactionInput} {db : Db}
    (h : validateSyncAccess user transactions db = .ok ()) (hposted : Posted post db)
    {row : SyncTransactionInput} (hrow : row ∈ transactions) :
    AtPost post (toLowerCase user.sub) (toLowerCase row.outletId) := by
  unfold validateSyncAccess at h
  split at h
  · split at h
    · rename_i actor hactor
      have hkey := List.find?_some hactor
      simp only [Bool.and_eq_true, beq_iff_eq] at hkey
      have hpost := hposted actor (List.mem_of_find?_eq_some hactor)
      rw [hkey.1.1.1] at hpost
      intro hcashier
      rw [← hpost] at hcashier ⊢
      dsimp only at hcashier ⊢
      unfold authorizeActor at h
      rw [hcashier] at h
      cases houtlet : actor.outletId with
      | none =>
          rw [houtlet] at h
          cases h
      | some outletId =>
          rw [houtlet] at h
          dsimp only at h
          split at h
          · rename_i hone
            -- the only outlet that is requested is the assigned one
            obtain ⟨requested, hrequested⟩ := List.length_eq_one_iff.mp hone.1
            have hin : toLowerCase row.outletId ∈ requestedOutlets transactions :=
              List.mem_eraseDups.mpr (List.mem_map.mpr ⟨row, hrow, rfl⟩)
            have hassigned := List.contains_iff_mem.mp hone.2
            rw [hrequested, List.mem_singleton] at hin hassigned
            rw [hin, hassigned]
          · cases h
    · cases h
  · cases h

theorem legacySyncTransactionDto_outletId {row : SyncTransactionInput}
    {dto : LegacySyncTransactionDto} (h : row.legacySyncTransactionDto = some dto) :
    dto.outletId = row.outletId := by
  unfold SyncTransactionInput.legacySyncTransactionDto at h
  split at h
  · split at h
    · rw [← Option.some.inj h]
    · cases h
  · cases h

/-- The calls of a batch that is let in are at the outlet of its cashier. -/
theorem admits_legacyAt {q : SyncRequest} {db : Db} {calls : List Call}
    (h : syncService.admits q db = .ok calls) (hposted : Posted post db) :
    ∀ c ∈ calls, LegacyAt post c := by
  obtain ⟨-, -, h⟩ := Checked.bind_ok.mp h
  obtain ⟨u, haccess, h⟩ := Checked.bind_ok.mp h
  rw [← Except.ok.inj h]
  intro c hc user input hlegacy
  obtain ⟨row, hrow, rfl⟩ := List.mem_map.mp hc
  unfold rowCall at hlegacy
  split at hlegacy
  · rename_i dto _ hdto
    cases hlegacy
    rw [legacySyncTransactionDto_outletId hdto]
    exact rows_atPost haccess hposted hrow
  · cases hlegacy

/-- The step makes a call for a sale that was made offline, outside any batch. -/
def outsideBatches : BatchLabel Env Exc Call SyncRequest → Bool
  | .other (.call (.createLegacySync ..)) => true
  | _ => false

/-- A sale that was made offline is not submitted but in a batch. -/
def InBatches (_ : SyncState) (l : BatchLabel Env Exc Call SyncRequest) : Prop :=
  outsideBatches l = false

variable {db0 : Db} {s : SyncState}

theorem reach_of_inBatches (h : syncService.Steps kasir InBatches (Batcher.init db0) s) :
    kasir.Reach db0 s.sys :=
  (h.sys (fun _ _ _ => trivial) fun _ _ => trivial).run (fun _ _ hl => hl) .init

/-- Then all such sales are at the outlets of their cashiers. -/
theorem legacyAt_of_inBatches (h0 : Wf db0)
    (h : syncService.Steps kasir InBatches (Batcher.init db0) s)
    (hposted : ∀ d ∈ states db0 s.sys.history, Posted post d) :
    (∀ (k : Nat) (b : SyncBatch), s.batches[k]? = some b → ∀ c ∈ b.calls, LegacyAt post c) ∧
    ∀ (i : Nat) (c : Call) (cs : CallState Db Env Token Exc Exc Result),
      s.sys.calls[i]? = some (c, cs) → LegacyAt post c := by
  induction h with
  | refl =>
      constructor
      · intro k b hb
        cases hb
      · intro i c cs hi
        cases hi
  | @step s s' l hsteps hl hstep ih =>
      have hbefore : ∀ d ∈ states db0 s.sys.history, Posted post d := by
        intro d hd
        apply hposted
        rcases mem_states.mp hd with rfl | ⟨e, he, rfl⟩
        · exact mem_states.mpr (Or.inl rfl)
        · exact mem_states.mpr (Or.inr ⟨e, Batcher.history_of_step hstep e he, rfl⟩)
      obtain ⟨hbatches, hcalls⟩ := ih hbefore
      constructor
      · intro k b hb c hc
        rcases Batcher.batch_of_step hstep hb with ⟨b0, hb0, -, hsame, -⟩ | ⟨-, hadmitted, -⟩
        · exact hbatches k b0 hb0 c (hsame ▸ hc)
        · -- the batch was let in by the state before the step
          have hlast := (reach_sound h0 (reach_of_inBatches hsteps)).chain.mem_states
          exact admits_legacyAt hadmitted (hbefore _ hlast) c hc
      · intro i c cs hi
        rcases Batcher.calls_of_step hstep hi with ⟨cs0, hold⟩ | rfl | ⟨k, b, hb, hc⟩
        · exact hcalls i c cs0 hold
        · rintro user input rfl
          cases hl
        · exact hbatches k b hb c hc

end Offline

-- ============================================================================
-- Cashiers stay at their outlets
-- ============================================================================

/-- **A cashier is confined to the assigned outlet.**  Whatever the interleaving of shifts,
    sales, batches of sales made offline, held orders and anything else, as long as users
    keep their roles and outlets: every session, sale and held order of a cashier is at the
    cashier's outlet; so is every held order that the cashier edits, cancels or converts, and
    every sale that the cashier is answered with, be it new or a replay, and every sale that
    the cashier reads, alone, in a listing or as a receipt, while others commit. -/
theorem cashier_stays_at_outlet {post : Id → Role × Option Id} {db0 : Db} {s : Sync.SyncState}
    (h0 : Wf db0) (hconfined : Confined post db0)
    (h : Sync.syncService.Steps kasir InBatches (Batcher.init db0) s)
    (hposted : ∀ d ∈ states db0 s.sys.history, Posted post d) :
    Confined post s.sys.db ∧ (∀ e ∈ s.sys.history, Handles post e) ∧
    ∀ user reads, (∀ v ∈ reads, v.1 ∈ states db0 s.sys.history) →
      ShownOwn post (fun d => d ∈ states db0 s.sys.history) user reads := by
  have hreach := reach_of_inBatches h
  have hsound := reach_sound h0 hreach
  have hlegacy : ∀ e ∈ s.sys.history, LegacyAt post e.call := fun e he =>
    (legacyAt_of_inBatches h0 h hposted).2 e.pid e.call _ (hsound.owner e he)
  have hstates := confined_states h0 hreach hposted hconfined hlegacy
  refine ⟨hstates _ hsound.chain.mem_states, handles_own h0 hreach hposted hconfined hlegacy, ?_⟩
  intro user reads hreads
  exact shownOwn_of_posted hposted (mem_states.mpr (Or.inl rfl)) hreads

namespace Shop

/-- The cashier of the shop is at the one outlet. -/
def post (userId : Id) : Role × Option Id :=
  if userId = cashier then (.cashier, some outlet) else (.owner, none)

theorem confined : Confined post db where
  sessions := by
    intro s hs _
    rw [List.mem_singleton.mp hs]
    decide +kernel
  sales := fun _ ht => nomatch ht
  held := fun _ ho => nomatch ho

/-- A sale that the cashier has made offline. -/
def offlineSale : Sync.SyncTransactionInput where
  clientTransactionId := uuid 9 9 9
  outletId := outlet
  items := [line coffee]
  payment := { method := .cash, amount := some 3000 }

/-- It is submitted in a batch. -/
def offlineLabels : List (BatchLabel Env Exc Call Sync.SyncRequest) :=
  [.submit { user, transactions := [offlineSale] }, .next 0] ++
    (stmts 0 1 0 12 ++ [Label.commit 0]).map .other

theorem offlineLabels_inBatches : ∀ l ∈ offlineLabels, ∀ s, InBatches s l := by
  have hall : offlineLabels.all (fun l => !outsideBatches l) = true := by decide +kernel
  intro l hl s
  have hnot := List.all_eq_true.mp hall l hl
  rwa [Bool.not_eq_true'] at hnot

/-- The listing is read before the sale, and then on after it. -/
def listReads (after : Db) : List (Db × Env) :=
  (after, envs 1 0) :: List.replicate 5 (db, envs 1 1)

end Shop

/-- In the shop a sale made offline is at the outlet of its cashier, who is shown it. -/
theorem cashier_stays_at_outlet_shop :
    ∃ (s : Sync.SyncState) (t : Transaction) (page : TransactionList),
      t ∈ s.sys.db.sales.transactions ∧ t.userId = Shop.cashier ∧ t.outletId = Shop.outlet ∧
      Confined Shop.post s.sys.db ∧
      findAllIn Shop.user {} (Shop.listReads s.sys.db) = some (.ok page) ∧ page.data.length = 1 ∧
      ∀ row ∈ page.data, row.outletId = Shop.outlet := by
  have hrun : (Sync.syncService.replay kasir (Batcher.init Shop.db) Shop.offlineLabels).any (fun s =>
      (s.sys.db.sales.transactions.any (fun t => t.userId == Shop.cashier) &&
      s.sys.history.all fun e => decide (e.after.accounts = Shop.db.accounts)) &&
      (findAllIn Shop.user {} (Shop.listReads s.sys.db)).any fun answer =>
        answer.toOption.any fun page => page.data.length == 1) = true := by
    decide +kernel
  obtain ⟨s, hreplay, hp⟩ := (Option.any_eq_true _ _).mp hrun
  obtain ⟨hp, hlist⟩ := Bool.and_eq_true_iff.mp hp
  obtain ⟨hsale, haccounts⟩ := Bool.and_eq_true_iff.mp hp
  obtain ⟨answer, hanswer, hlist⟩ := (Option.any_eq_true _ _).mp hlist
  obtain ⟨page, hpage, hlength⟩ := (Option.any_eq_true _ _).mp hlist
  have hok : answer = .ok page := by
    cases answer with
    | error => cases hpage
    | ok p => exact congrArg Except.ok (Option.some.inj hpage)
  obtain ⟨t, ht, huser⟩ := List.any_eq_true.mp hsale
  have huser : t.userId = Shop.cashier := beq_iff_eq.mp huser
  have hposted : ∀ d ∈ states Shop.db s.sys.history, Posted Shop.post d := by
    intro d hd
    have hsame : d.accounts = Shop.db.accounts := by
      rcases mem_states.mp hd with rfl | ⟨e, he, rfl⟩
      · rfl
      · exact of_decide_eq_true (List.all_eq_true.mp haccounts e he)
    intro u hu
    rw [hsame] at hu
    rw [List.mem_singleton.mp hu]
    decide +kernel
  have hsteps := Batcher.Steps.of_replay (.refl) Shop.offlineLabels_inBatches hreplay
  have hall := cashier_stays_at_outlet Shop.wf Shop.confined hsteps hposted
  have hpost := hall.1.sales t ht
  rw [huser] at hpost
  have hcashier : (Shop.post Shop.cashier).1 = .cashier := by decide +kernel
  have houtlet := hpost hcashier
  have hreads : ∀ v ∈ Shop.listReads s.sys.db, v.1 ∈ states Shop.db s.sys.history := by
    intro v hv
    rcases List.mem_cons.mp hv with rfl | hv
    · exact (reach_sound Shop.wf (reach_of_inBatches hsteps)).chain.mem_states
    · rw [List.eq_of_mem_replicate hv]
      exact mem_states.mpr (Or.inl rfl)
  have hshown := hall.2.2 Shop.user (Shop.listReads s.sys.db) hreads
  rw [hok] at hanswer
  refine ⟨s, t, page, ht, huser, (Option.some.inj houtlet).symm, hall.1, hanswer,
    beq_iff_eq.mp hlength, ?_⟩
  intro row hrow
  have hrowPost := hshown.listing {} page hanswer row hrow
  rw [show toLowerCase Shop.user.sub = Shop.cashier by decide +kernel] at hrowPost
  exact (Option.some.inj (hrowPost hcashier)).symm

end Kasir
