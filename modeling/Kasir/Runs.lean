/-
  Kasir.Runs

  Runs of the backend: every reachable state of the system satisfies the
  soundness invariant of the transaction logic, so its history is a chain of the
  effects listed in `Kasir.Effects`.
-/

import Kasir.Effects
import Kasir.Txn.Soundness
import Kasir.Txn.Later

namespace Kasir

open Txn Transactions

/-- The marks in `R` are respected: nobody commits what disturbs a mark of another
    running call. -/
def Respects (R : Token → Prop) (σ : State) : Label Env Exc Call → Prop
  | .commit i => ∀ c n tx, σ.calls[i]? = some (c, .active n tx) →
      ∀ j y, σ.calls[j]? = some y → j ≠ i →
        ∀ l ∈ tx.held, ∀ l' ∈ y.2.held, R l' → disturbs l l' = false
  | _ => True

/-- No mark. -/
def noMarks : Token → Prop := fun _ => False

theorem respects_noMarks (σ : State) (l : Label Env Exc Call) : Respects noMarks σ l := by
  cases l with
  | commit i => exact fun _ _ _ _ _ _ _ _ _ _ _ _ hR => hR.elim
  | call c => trivial
  | stmt i env => trivial
  | abort i => trivial
  | fault i e => trivial

/-- Where no other call holds a token, a commit disturbs nobody. -/
theorem respects_of_quiet (R : Token → Prop) (σ : State) (l : Label Env Exc Call)
    (h : ∀ i, l = .commit i → App.Quiet σ i) : Respects R σ l := by
  cases l with
  | commit i =>
      intro c n tx _ j y hj hji l _ l' hl'
      rw [h i rfl j y hj hji] at hl'
      cases hl'
  | call c => trivial
  | stmt i env => trivial
  | abort i => trivial
  | fault i e => trivial

/-- The invariant of every run that respects the marks in `R`. -/
abbrev KasirSound (R : Token → Prop) (db0 : Db) (σ : State) : Prop :=
  Sound kasir (protocol R) (Effect R) db0 σ

section Runs

variable {R : Token → Prop} {ok : State → Label Env Exc Call → Prop} {db0 : Db} {σ : State}

/-- Where the marks are respected, tokens that do not block do not conflict. -/
theorem Respects.not_conflicts {i j : Nat} {c : Call} {n : Nat}
    {tx : Tx Db Env Token Exc Result} {y : Call × CallState Db Env Token Exc Exc Result}
    {l l' : Token} (h : Respects R σ (.commit i)) (hi : σ.calls[i]? = some (c, .active n tx))
    (hj : σ.calls[j]? = some y) (hji : j ≠ i) (hl : l ∈ tx.held) (hl' : l' ∈ y.2.held)
    (hblocks : l.blocks l' = false) : ¬ conflicts R l l' := by
  rintro (hlock | ⟨hR, hdisturbs⟩)
  · exact absurd (hlock.symm.trans hblocks) (by simp)
  · have hno := h c n tx hi j y hj hji l hl l' hl' hR
    rw [hno] at hdisturbs
    cases hdisturbs

/-- **Soundness.**  Whatever the interleaving, the aborts and the retries, the
    history is a chain of listed effects. -/
theorem run_sound (h0 : Wf db0) (hok : ∀ σ l, ok σ l → Respects R σ l)
    (h : kasir.Run ok db0 σ) : KasirSound R db0 σ := by
  refine Run.sound (fun c hprecheck db _ => body_commits c hprecheck) Token.blocks_comm h0 ?_ h
  intro σ i c n tx hcommit hi j y hj hji l hl l' hl' hblocks
  exact (hok σ _ hcommit).not_conflicts hi hj hji hl hl' hblocks

theorem reach_sound (h0 : Wf db0) (h : kasir.Reach db0 σ) : KasirSound noMarks db0 σ :=
  run_sound h0 (fun σ l _ => respects_noMarks σ l) h

/-- **A call alone** commits what is listed for it, having read the database as it
    was. -/
theorem alone_effect {db db' : Db} {c : Call} {envs : Nat → Env} {r : Result} (h0 : Wf db)
    (h : kasir.alone c db envs = some (.ok r, db')) :
    kasir.precheck c = none ∧ ∃ seen, (∀ s ∈ seen, s = db) ∧ Effect noMarks c r seen db db' := by
  have hinit : kasir.Reach db (Sys.init db) := .init
  obtain ⟨σ, hrun, -, -, hhist, -⟩ := App.run_alone (fun _ _ _ => trivial) hinit
    (fun _ h => nomatch h) h
  obtain ⟨seen, hone⟩ := hhist r rfl
  have hsound : KasirSound noMarks db σ := reach_sound h0 hrun
  have hone' : σ.history = [⟨0, c, r, seen, db, db'⟩] := hone
  have hmem : (⟨0, c, r, seen, db, db'⟩ : KasirCommit) ∈ σ.history := by
    rw [hone']
    exact List.mem_singleton.mpr rfl
  have hok := hsound.commits _ hmem
  refine ⟨hok.admitted, seen, fun s hs => ?_, hok.post⟩
  exact List.mem_singleton.mp (hsound.seen [] _ [] hone' s hs)

/-- What is known of the calls from a state on, in any interleaving. -/
theorem settled_reach {σ0 : State} {J : Db → Prop} {Good : Call → Result → (Db → Db) → Prop}
    {Err : Call → Exc → Prop} (h0 : Wf db0)
    (hbody : ∀ c, kasir.precheck c = none → ∀ db, ((protocol noMarks).during J).Inv db →
      wpe ((protocol noMarks).during J) (kasir.iso c) (Err c) (kasir.body c)
        (fun r st _ => Good c r st.log) St.start db)
    (hfault : ∀ σ i c n tx p, ok σ (.fault i (.prisma p)) → σ.calls[i]? = some (c, .active n tx) →
      Err c (.prisma p))
    (hJ : ∀ {σ : State}, kasir.Steps ok σ0 σ → J σ.db) (hrun : kasir.Reach db0 σ0)
    (h : kasir.Steps ok σ0 σ) :
    Settled kasir (protocol noMarks) J Good Err σ0.calls.length σ := by
  refine App.Steps.settled hbody (fun h => reach_sound h0 h)
    (fun σ1 j c n tx _ hj k y hk hkj l hl l' hl' hblocks => ?_) (fun _ _ _ => trivial)
    (fun σ1 j c n tx x hx hfaults hj => ?_) hJ hrun h
  · exact (respects_noMarks σ1 (.commit j)).not_conflicts hj hk hkj hl hl' hblocks
  · cases x with
    | http x => cases hfaults
    | prisma p => exact hfault σ1 j c n tx p hx hj

end Runs

-- ============================================================================
-- A shop
-- ============================================================================

/-! A small shop, and calls on it, for runs that show that a guarantee is not
    vacuous or where it ends. -/

namespace Shop

/-- A digit. -/
def digit (n : Nat) : Char := Char.ofNat (48 + n % 10)

/-- A version 4 UUID. -/
def uuid (a b c : Nat) : Id :=
  String.ofList ("00000000-0000-4000-8000-000000000".toList ++ [digit a, digit b, digit c])

def tenant : Id := uuid 0 0 1

def cashier : Id := uuid 0 0 2

def outlet : Id := uuid 0 0 3

def coffee : Id := uuid 0 0 4

def session : Id := uuid 0 0 5

def water : Id := uuid 0 0 6

/-- One outlet with a cashier on an open shift; coffee is tracked, water is free. -/
def db : Db where
  accounts :=
    { tenants := [{ id := tenant, isActive := true, taxEnabled := true, taxRate := ⟨1000, by decide⟩ }]
      users := [{ id := cashier, tenantId := tenant, outletId := some outlet, name := "Ani"
                  role := .cashier, isActive := true }]
      outlets := [{ id := outlet, tenantId := tenant, name := "Main", isActive := true }] }
  catalog :=
    { products :=
        [{ id := coffee, tenantId := tenant, name := "Coffee", sku := "C1", price := 1000
           cost := 400, trackStock := true, isActive := true },
         { id := water, tenantId := tenant, name := "Water", sku := "W1", price := 0
           cost := 0, trackStock := false, isActive := true }] }
  cashierSessions :=
    [{ id := session, tenantId := tenant, outletId := outlet, userId := cashier
       openingCash := none, closingCash := none, expectedCash := none, difference := none
       status := .open, openedAt := 0, closedAt := none }]
  stocks := { productStocks := [{ outletId := outlet, productId := coffee, stock := 10 }] }

/-- The cashier's token. -/
def user : JwtPayload :=
  { sub := cashier, tenantId := tenant, role := "CASHIER", outletId := some outlet }

/-- What the statements of the `k`-th call are supplied with. -/
def envs (k : Nat) : Nat → Env := fun n => ⟨fun j => uuid (k + 1) n j, n, fun _ => 0⟩

/-- Two of a product. -/
def line (product : Id) : CreateTransactionItemDto := { productId := product, quantity := 2 }

/-- A direct cash sale of two coffees. -/
def sale (key : Id) : Call :=
  .create user
    { clientTransactionId := key, outletId := outlet, cashierSessionId := some session
      items := [line coffee], payment := { method := .cash, amountReceived := some 3000 } }

/-- An order of two of a product is held. -/
def hold (product : Id) : Call :=
  .holdCreate user { outletId := outlet, cashierSessionId := session, items := [line product] }

/-- A held order gets two of another product instead. -/
def edit (order : Id) (version : Int) (product : Id) : Call :=
  .holdUpdate user order { expectedVersion := version, items := some [line product] }

/-- A held order is cancelled. -/
def cancel (order : Id) (version : Int) : Call := .holdCancel user order { expectedVersion := version }

/-- A held order is sold for cash. -/
def sellHeld (order : Id) (version : Int) (key : Id) : Call :=
  .holdCheckout user order
    { expectedVersion := version, clientTransactionId := key
      payment := { method := .cash, amountReceived := some 3000 } }

/-- The shift is closed. -/
def close : Call := .shiftClose user session

theorem wf : Wf db where
  legal := by decide +kernel
  sales := by constructor <;> exact fun _ h => nomatch h
  held := by constructor <;> exact fun _ h => nomatch h
  origin := fun _ h => nomatch h

def size : Id := uuid 0 0 7

def large : Id := uuid 0 0 8

/-- The shop with sizes for its coffee, of which one is to be chosen. -/
def cafe : Db :=
  { db with
    catalog := { db.catalog with
      modifierGroups := [{ id := size, tenantId := tenant, name := "Size", isActive := true }]
      modifierOptions :=
        [{ id := large, tenantId := tenant, modifierGroupId := size, name := "Large"
           priceDelta := 200, isActive := true }]
      productModifierGroups :=
        [{ tuple := uuid 0 0 9, tenantId := tenant, productId := coffee, modifierGroupId := size
           required := true, selectionType := .single }] } }

theorem cafe_wf : Wf cafe where
  legal := by decide +kernel
  sales := wf.sales
  held := wf.held
  origin := wf.origin

/-- Two large coffees and two waters. -/
def order : List CreateTransactionItemDto :=
  [{ line coffee with modifierOptionIds := some [large] }, line water]

/-- The owner makes large ones dearer, and the order is sold for cash. -/
def cafeCalls : List (Call × (Nat → Env)) :=
  [(.catalog { user with role := "OWNER" } (.updateOption size large { priceDelta := some 300 }),
    envs 0),
   (.create user
      { clientTransactionId := uuid 9 9 9, outletId := outlet, cashierSessionId := some session
        items := order, payment := { method := .cash, amountReceived := some 3000 } }, envs 1)]

/-- The turns of calls one after the other. -/
abbrev Turns := List (App.Turn Db Exc Call Result)

/-- Calls one after the other are a run, which respects every mark.  `p` is what is
    to be known of the turns and of the last state. -/
theorem runFrom (R : Token → Prop) (start : Db) (calls : List (Call × (Nat → Env)))
    (p : Turns → Db → Bool)
    (h : (kasir.sequence calls start).any (fun turns => p turns (App.lastState start turns)) = true) :
    ∃ (σ : State) (turns : Turns), kasir.Run (Respects R) start σ ∧ p turns σ.db = true ∧
      turns.map App.Turn.call = calls.map Prod.fst ∧
      σ.calls = turns.map (fun t => (t.call, .done t.answer)) ∧
      σ.history.map (fun e => (e.call, e.result, e.before, e.after)) =
        turns.filterMap App.Turn.commit := by
  obtain ⟨turns, hseq, hp⟩ := (Option.any_eq_true _ _).mp h
  obtain ⟨σ, commits, hrun, hdb, -, hcalls, hhist, hcommits⟩ :=
    App.run_sequence (respects_of_quiet R) calls (Sys.init start) turns .init
      (fun _ h => by cases h) hseq
  have hhist' : σ.history = commits := by simpa [Sys.init] using hhist
  exact ⟨σ, turns, hrun, hdb ▸ hp, App.sequence_calls hseq, by simpa [Sys.init] using hcalls, hhist' ▸ hcommits⟩

/-- Calls on the shop one after the other. -/
theorem run (R : Token → Prop) (calls : List (Call × (Nat → Env))) (p : Turns → Db → Bool)
    (h : (kasir.sequence calls db).any (fun turns => p turns (App.lastState db turns)) = true) :
    ∃ (σ : State) (turns : Turns), kasir.Run (Respects R) db σ ∧ p turns σ.db = true ∧
      turns.map App.Turn.call = calls.map Prod.fst ∧
      σ.calls = turns.map (fun t => (t.call, .done t.answer)) ∧
      σ.history.map (fun e => (e.call, e.result, e.before, e.after)) =
        turns.filterMap App.Turn.commit :=
  runFrom R db calls p h

/-- The statements of the `i`-th call with these numbers. -/
def stmts (i k start count : Nat) : List (Label Env Exc Call) :=
  (List.range' start count).map fun n => .stmt i (envs k n)

/-- The call has been answered, with what `p` accepts. -/
def answered (c : Call) (p : Except Exc Result → Bool)
    (x : Option (Call × CallState Db Env Token Exc Exc Result)) : Bool :=
  x.any fun y => decide (y.1 = c) && match y.2 with
    | .done a => p a
    | .active .. => false

theorem of_answered {c : Call} {p : Except Exc Result → Bool}
    {x : Option (Call × CallState Db Env Token Exc Exc Result)} (h : answered c p x = true) :
    ∃ a, p a = true ∧ x = some (c, .done a) := by
  obtain ⟨⟨c', cs⟩, rfl, hy⟩ := (Option.any_eq_true _ _).mp h
  obtain ⟨hc, hcs⟩ := Bool.and_eq_true_iff.mp hy
  have hcall : c' = c := of_decide_eq_true hc
  subst hcall
  cases cs with
  | active n tx => cases hcs
  | done a => exact ⟨a, hcs, rfl⟩

/-- What a list of labels leads to is reached. -/
theorem replay (labels : List (Label Env Exc Call)) (p : State → Bool)
    (h : (kasir.replay (Sys.init db) labels).any p = true) :
    ∃ σ : State, kasir.Reach db σ ∧ p σ = true := by
  obtain ⟨σ, hreplay, hp⟩ := (Option.any_eq_true _ _).mp h
  exact ⟨σ, App.Run.of_replay (fun _ _ => trivial) .init hreplay, hp⟩

/-- What a list of labels, each of which satisfies `ok`, leads to from a database. -/
theorem reached (start : Db) (ok : State → Label Env Exc Call → Bool)
    (labels : List (Label Env Exc Call)) (p : State → Bool)
    (h : (kasir.replayWhere ok (Sys.init start) labels).any p = true) :
    ∃ σ : State, kasir.Run (fun σ l => ok σ l = true) start σ ∧ p σ = true := by
  obtain ⟨σ, hreplay, hp⟩ := (Option.any_eq_true _ _).mp h
  exact ⟨σ, App.Run.of_replayWhere .init hreplay, hp⟩

end Shop

end Kasir
