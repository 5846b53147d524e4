/-
  Kasir.Txn.Soundness

  From the logic of bodies to runs of the system.

  If every body meets `Commits` for its own postcondition, then in every run of
  the system, whatever the interleaving, the committed states form a chain of
  commits each of which satisfies the postcondition of its call, every answered
  call owns exactly one commit, and a call that fails owns none.  Facts about
  runs are then inductions over that chain.
-/

import Kasir.Txn.Logic

namespace Txn

variable {D N L E X C R : Type}

-- ============================================================================
-- Chains of commits
-- ============================================================================

/-- The commits lead from the first state to the last one. -/
def Chain : D → List (Commit D C R) → D → Prop
  | a, [], b => a = b
  | a, e :: es, b => e.before = a ∧ Chain e.after es b

@[simp] theorem chain_nil (a b : D) : Chain a ([] : List (Commit D C R)) b ↔ a = b := Iff.rfl

@[simp] theorem chain_cons (a b : D) (e : Commit D C R) (es : List (Commit D C R)) :
    Chain a (e :: es) b ↔ e.before = a ∧ Chain e.after es b := Iff.rfl

theorem chain_append {a b : D} {xs ys : List (Commit D C R)} :
    Chain a (xs ++ ys) b ↔ ∃ m, Chain a xs m ∧ Chain m ys b := by
  induction xs generalizing a with
  | nil => simp
  | cons e xs ih => simp [ih, and_assoc]

theorem chain_snoc {a b : D} {xs : List (Commit D C R)} {e : Commit D C R} :
    Chain a (xs ++ [e]) b ↔ Chain a xs e.before ∧ e.after = b := by
  rw [chain_append]
  constructor
  · rintro ⟨m, hx, rfl, hb⟩
    exact ⟨hx, hb⟩
  · rintro ⟨hx, hb⟩
    exact ⟨e.before, hx, rfl, hb⟩

/-- A commit in a chain splits it into the commits before and after it. -/
theorem Chain.split {a b : D} {pre post : List (Commit D C R)} {e : Commit D C R}
    (h : Chain a (pre ++ e :: post) b) : Chain a pre e.before ∧ Chain e.after post b := by
  obtain ⟨m, hx, rfl, hb⟩ := chain_append.mp h
  exact ⟨hx, hb⟩

/-- What holds at the start of a chain and is kept by its commits holds at the end. -/
theorem Chain.invariant {a b : D} {es : List (Commit D C R)} (Q : D → Prop)
    (h : Chain a es b) (h0 : Q a) (hstep : ∀ e ∈ es, Q e.before → Q e.after) : Q b := by
  induction es generalizing a with
  | nil =>
      rw [chain_nil] at h
      exact h ▸ h0
  | cons e es ih =>
      obtain ⟨rfl, hes⟩ := h
      exact ih hes (hstep e (List.mem_cons_self ..) h0)
        (fun x hx => hstep x (List.mem_cons_of_mem _ hx))

/-- It holds before and after each of them, too. -/
theorem Chain.invariant_mem {a b : D} {es : List (Commit D C R)} (Q : D → Prop)
    (h : Chain a es b) (h0 : Q a) (hstep : ∀ e ∈ es, Q e.before → Q e.after) :
    ∀ e ∈ es, Q e.before ∧ Q e.after := by
  intro e he
  obtain ⟨pre, post, rfl⟩ := List.append_of_mem he
  have hbefore : Q e.before := h.split.1.invariant Q h0 fun x hx =>
    hstep x (List.mem_append_left _ hx)
  exact ⟨hbefore, hstep e he hbefore⟩

/-- The same for what may speak of the commits so far. -/
theorem Chain.induction {a b : D} {es : List (Commit D C R)} (Q : List (Commit D C R) → D → Prop)
    (h : Chain a es b) (h0 : Q [] a)
    (hstep : ∀ pre e post, es = pre ++ e :: post → Q pre e.before → Q (pre ++ [e]) e.after) :
    Q es b := by
  have hgo : ∀ done rest d, es = done ++ rest → Chain d rest b → Q done d → Q es b := by
    intro done rest
    induction rest generalizing done with
    | nil =>
        intro d heq hc hQ
        rw [chain_nil] at hc
        rw [heq, List.append_nil, ← hc]
        exact hQ
    | cons e rest ih =>
        intro d heq hc hQ
        obtain ⟨rfl, hrest⟩ := hc
        exact ih (done ++ [e]) e.after (by rw [heq, List.append_assoc]; rfl) hrest
          (hstep done e rest heq hQ)
  exact hgo [] es a rfl h h0

/-- A relation that is reflexive, transitive and holds across each commit holds
    across the chain. -/
theorem Chain.rel {a b : D} {es : List (Commit D C R)} (T : D → D → Prop)
    (hrefl : ∀ d, T d d) (htrans : ∀ {x y z}, T x y → T y z → T x z)
    (h : Chain a es b) (hstep : ∀ e ∈ es, T e.before e.after) : T a b :=
  h.invariant (fun d => T a d ∧ True) ⟨hrefl a, trivial⟩
    (fun e he hT => ⟨htrans hT.1 (hstep e he), trivial⟩) |>.1

/-- The committed states of a chain, the first one included. -/
def states (db0 : D) (es : List (Commit D C R)) : List D := db0 :: es.map Commit.after

theorem mem_states {db0 s : D} {es : List (Commit D C R)} :
    s ∈ states db0 es ↔ s = db0 ∨ ∃ e ∈ es, e.after = s := by
  simp [states]

theorem states_mono {db0 s : D} {xs ys : List (Commit D C R)} (h : s ∈ states db0 xs) :
    s ∈ states db0 (xs ++ ys) := by
  rw [mem_states] at h ⊢
  rcases h with h | ⟨e, he, hs⟩
  · exact Or.inl h
  · exact Or.inr ⟨e, List.mem_append_left _ he, hs⟩

/-- The last state of a chain is one of its states. -/
theorem Chain.mem_states {a b : D} {es : List (Commit D C R)} (h : Chain a es b) :
    b ∈ states a es := by
  rcases List.eq_nil_or_concat es with rfl | ⟨es', e, rfl⟩
  · rw [chain_nil] at h
    simp [states, h]
  · rw [List.concat_eq_append] at h ⊢
    obtain ⟨-, hb⟩ := chain_snoc.mp h
    exact Txn.mem_states.mpr (Or.inr ⟨e, by simp, hb⟩)

-- ============================================================================
-- The invariant of the system
-- ============================================================================

/-- The logical state of a running transaction. -/
def Tx.st (tx : Tx D N L E R) : St D L := ⟨tx.snap, tx.log, tx.held, tx.seen⟩

variable (app : App D N L E X C R) (P : Protocol D L)
  (Post : C → R → List D → D → D → Prop)

/-- A running call: the rest of its body is correct from here on. -/
structure CallOk (db0 : D) (σ : Sys D N L E X C R) (c : C) (tx : Tx D N L E R) : Prop where
  admitted : app.precheck c = none
  body : wp P (app.iso c) tx.prog (Commits P app.legal (Post c)) tx.st σ.db
  snap : ∀ s, tx.snap = some s → P.Inv s ∧ P.evolves s σ.db ∧ s ∈ states db0 σ.history
  seen : ∀ s ∈ tx.seen, s ∈ states db0 σ.history

/-- A commit did what its call promises. -/
structure CommitOk (e : Commit D C R) : Prop where
  admitted : app.precheck e.call = none
  invBefore : P.Inv e.before
  invAfter : P.Inv e.after
  evolves : P.evolves e.before e.after
  legal : app.legal e.after = true
  post : Post e.call e.result e.seen e.before e.after

/-- The invariant of every run. -/
structure Sound (db0 : D) (σ : Sys D N L E X C R) : Prop where
  inv : P.Inv σ.db
  active : ∀ (i : Nat) (c : C) (n : Nat) (tx : Tx D N L E R),
    σ.calls[i]? = some (c, .active n tx) → CallOk app P Post db0 σ c tx
  exclusive : ∀ (i j : Nat) (x y : C × CallState D N L E X R), i ≠ j →
    σ.calls[i]? = some x → σ.calls[j]? = some y →
    ∀ l ∈ x.2.held, ∀ l' ∈ y.2.held, app.blocks l l' = false
  chain : Chain db0 σ.history σ.db
  commits : ∀ e ∈ σ.history, CommitOk app P Post e
  seen : ∀ pre e post, σ.history = pre ++ e :: post → ∀ s ∈ e.seen, s ∈ states db0 pre
  answered : ∀ (i : Nat) (c : C) (r : R), σ.calls[i]? = some (c, .done (.ok r)) →
    ∃ e ∈ σ.history, e.pid = i
  owner : ∀ e ∈ σ.history, σ.calls[e.pid]? = some (e.call, .done (.ok e.result))
  once : (σ.history.map Commit.pid).Nodup

variable {app P Post}

theorem getElem?_set_eq {α : Type} {xs : List α} {i j : Nat} {x y : α} (h : xs[i]? = some y) :
    (xs.set i x)[j]? = if j = i then some x else xs[j]? := by
  obtain ⟨hi, -⟩ := List.getElem?_eq_some_iff.mp h
  rw [List.getElem?_set]
  by_cases hij : i = j
  · subst hij
    simp [hi]
  · rw [if_neg hij, if_neg (Ne.symm hij)]

theorem sound_init {db0 : D} (h0 : P.Inv db0) :
    Sound app P Post db0 (Sys.init db0 : Sys D N L E X C R) where
  inv := h0
  active := by intro i c n tx h; simp [Sys.init] at h
  exclusive := by intro i j x y _ h; simp [Sys.init] at h
  chain := rfl
  commits := by intro e he; simp [Sys.init] at he
  seen := by intro pre e post h; simp [Sys.init] at h
  answered := by intro i c r h; simp [Sys.init] at h
  owner := by intro e he; simp [Sys.init] at he
  once := by simp [Sys.init]

/-- A call state that holds no lock and is not a successful answer: what a call
    enters with, and what remains of it after an error. -/
structure Idle (cs : CallState D N L E X R) (app : App D N L E X C R) (c : C) : Prop where
  held : cs.held = []
  notOk : ∀ r, cs ≠ .done (.ok r)
  fresh : ∀ n tx, cs = .active n tx → app.precheck c = none ∧ tx = Tx.start (app.body c)

theorem idle_enter (c : C) : Idle (app.enter c) app c := by
  unfold App.enter
  cases ha : app.precheck c with
  | some x => exact ⟨rfl, by simp, by simp⟩
  | none =>
      refine ⟨rfl, by simp, ?_⟩
      intro n tx h
      simp only [CallState.active.injEq] at h
      exact ⟨ha, h.2.symm⟩

theorem idle_recover {c : C} (ha : app.precheck c = none) (n : Nat) (e : E) :
    Idle (app.recover c n e) app c := by
  unfold App.recover
  cases hh : app.handle c n e with
  | some x => exact ⟨rfl, by simp, by simp⟩
  | none =>
      refine ⟨rfl, by simp, ?_⟩
      intro n' tx h
      simp only [CallState.active.injEq] at h
      exact ⟨ha, h.2.symm⟩

section Step

variable (hbody : ∀ c, app.precheck c = none → ∀ db, P.Inv db →
  wp P (app.iso c) (app.body c) (Commits P app.legal (Post c)) St.start db)

include hbody in
/-- A freshly started transaction is correct in every state. -/
theorem Idle.callOk {db0 : D} {σ : Sys D N L E X C R} {cs : CallState D N L E X R} {c : C}
    (h : Idle cs app c) (hinv : P.Inv σ.db) {n : Nat} {tx : Tx D N L E R}
    (hcs : cs = .active n tx) : CallOk app P Post db0 σ c tx := by
  obtain ⟨ha, rfl⟩ := h.fresh n tx hcs
  exact ⟨ha, hbody c ha _ hinv, by simp [Tx.start], by simp [Tx.start]⟩

variable {db0 : D} {σ : Sys D N L E X C R}

/-- Commits of others keep a running call correct. -/
theorem CallOk.rely {c : C} {tx : Tx D N L E R} (h : CallOk app P Post db0 σ c tx)
    {σ' : Sys D N L E X C R} (hr : P.Rely tx.held σ.db σ'.db)
    (hhist : ∀ s, s ∈ states db0 σ.history → s ∈ states db0 σ'.history) :
    CallOk app P Post db0 σ' c tx where
  admitted := h.admitted
  body := by
    refine wp_rely ?_ h.body hr
    intro r st d d' hQ hrel db'' hr' hlegal
    exact hQ db'' (hrel.trans hr') hlegal
  snap := fun s hs =>
    ⟨(h.snap s hs).1, P.evolves_trans (h.snap s hs).2.1 hr.evolves, hhist s (h.snap s hs).2.2⟩
  seen := fun s hs => hhist s (h.seen s hs)

include hbody in
theorem sound_call (h : Sound app P Post db0 σ) (c : C) :
    Sound app P Post db0 { σ with calls := σ.calls ++ [(c, app.enter c)] } := by
  have hidle : Idle (app.enter c) app c := idle_enter c
  -- an index of the longer list is an old one or the new call
  have hget : ∀ (i : Nat) (x : C × CallState D N L E X R),
      (σ.calls ++ [(c, app.enter c)])[i]? = some x →
      σ.calls[i]? = some x ∨ x = (c, app.enter c) := by
    intro i x hi
    rw [List.getElem?_append] at hi
    split at hi
    · exact Or.inl hi
    · right
      rw [List.getElem?_singleton] at hi
      split at hi
      · exact (Option.some.inj hi).symm
      · cases hi
  refine ⟨h.inv, ?_, ?_, h.chain, h.commits, h.seen, ?_, ?_, h.once⟩
  · intro i c' n tx hi
    rcases hget i _ hi with hi | hi
    · exact (h.active i c' n tx hi).rely (.refl h.inv) (fun _ hs => hs)
    · simp only [Prod.mk.injEq] at hi
      obtain ⟨rfl, hcs⟩ := hi
      exact hidle.callOk hbody (by exact h.inv) hcs.symm
  · intro i j x y hij hi hj l hl l' hl'
    rcases hget i x hi with hi | rfl
    · rcases hget j y hj with hj | rfl
      · exact h.exclusive i j x y hij hi hj l hl l' hl'
      · rw [hidle.held] at hl'
        cases hl'
    · rw [hidle.held] at hl
      cases hl
  · intro i c' r hi
    rcases hget i _ hi with hi | hi
    · exact h.answered i c' r hi
    · simp only [Prod.mk.injEq] at hi
      exact absurd hi.2.symm (hidle.notOk r)
  · intro e he
    have ho := h.owner e he
    obtain ⟨hlt, -⟩ := List.getElem?_eq_some_iff.mp ho
    change (σ.calls ++ [(c, app.enter c)])[e.pid]? = _
    rw [List.getElem?_append_left hlt]
    exact ho

include hbody in
theorem sound_recover (h : Sound app P Post db0 σ) {i : Nat} {c : C} {n : Nat}
    {tx : Tx D N L E R} (hi : σ.calls[i]? = some (c, .active n tx)) (e : E) :
    Sound app P Post db0 { σ with calls := σ.calls.set i (c, app.recover c n e) } := by
  have hidle := idle_recover (h.active i c n tx hi).admitted n e
  refine ⟨h.inv, ?_, ?_, h.chain, h.commits, h.seen, ?_, ?_, h.once⟩
  · intro j c' n' tx' hj
    rw [getElem?_set_eq hi] at hj
    split at hj
    · simp only [Option.some.injEq, Prod.mk.injEq] at hj
      obtain ⟨rfl, hcs⟩ := hj
      exact hidle.callOk hbody (by exact h.inv) hcs
    · exact (h.active j c' n' tx' hj).rely (.refl h.inv) (fun _ hs => hs)
  · intro j k x y hjk hj hk l hl l' hl'
    rw [getElem?_set_eq hi] at hj hk
    split at hj
    · simp only [Option.some.injEq] at hj
      subst hj
      rw [hidle.held] at hl
      cases hl
    · split at hk
      · simp only [Option.some.injEq] at hk
        subst hk
        rw [hidle.held] at hl'
        cases hl'
      · exact h.exclusive j k x y hjk hj hk l hl l' hl'
  · intro j c' r hj
    rw [getElem?_set_eq hi] at hj
    split at hj
    · simp only [Option.some.injEq, Prod.mk.injEq] at hj
      exact absurd hj.2 (hidle.notOk r)
    · exact h.answered j c' r hj
  · intro e' he'
    change (σ.calls.set i (c, app.recover c n e))[e'.pid]? = _
    rw [getElem?_set_eq hi]
    split
    · rename_i heq
      have ho := h.owner e' he'
      rw [heq, hi] at ho
      simp at ho
    · exact h.owner e' he'

/-- The state a statement reads from is committed: the latest one, or the
    transaction's snapshot. -/
theorem Sound.readPoint (h : Sound app P Post db0 σ) {i : Nat} {c : C} {n : Nat}
    {tx : Tx D N L E R} (hi : σ.calls[i]? = some (c, .active n tx)) {s : D}
    (hs : s = Txn.readPoint (app.iso c) tx.snap σ.db) :
    P.Inv s ∧ P.evolves s σ.db ∧ s ∈ states db0 σ.history := by
  have hok := h.active i c n tx hi
  have hlast : P.Inv σ.db ∧ P.evolves σ.db σ.db ∧ σ.db ∈ states db0 σ.history :=
    ⟨h.inv, P.evolves_refl σ.db, h.chain.mem_states⟩
  subst hs
  unfold Txn.readPoint
  cases hsnap : tx.snap with
  | none => cases app.iso c <;> exact hlast
  | some s0 =>
      have h0 := hok.snap s0 hsnap
      cases app.iso c <;> first | exact hlast | exact h0

/-- A body that has returned may commit. -/
theorem Sound.guar_of_commit (h : Sound app P Post db0 σ) {i : Nat} {c : C} {n : Nat}
    {tx : Tx D N L E R} (hi : σ.calls[i]? = some (c, .active n tx)) {r : R}
    (hp : tx.prog = .ret r) (hl : app.legal (tx.log σ.db) = true) :
    P.Guar tx.held σ.db (tx.log σ.db) ∧ Post c r tx.seen σ.db (tx.log σ.db) := by
  have hwp := (h.active i c n tx hi).body
  rw [hp] at hwp
  exact hwp σ.db (.refl h.inv) hl

variable (hsymm : ∀ l l', app.blocks l l' = app.blocks l' l)

include hsymm in
theorem sound_stmt (h : Sound app P Post db0 σ) {i : Nat} {c : C} {n : Nat} {tx : Tx D N L E R}
    (hi : σ.calls[i]? = some (c, .active n tx)) {locks : View D N → List L}
    {write : View D N → D → D} {next : View D N → Prog D N L E R}
    (hp : tx.prog = .stmt locks write next) {s : D}
    (hs : s = readPoint (app.iso c) tx.snap σ.db) {v : View D N} {env : N}
    (hv : v = ⟨tx.log s, tx.log σ.db, env⟩) (hg : app.grantable σ.calls i (locks v) = true) :
    Sound app P Post db0 { σ with calls := σ.calls.set i (c, .active n
      { prog := next v, snap := some s, log := write v ∘ tx.log
        held := tx.held ++ locks v, seen := tx.seen ++ [s] }) } := by
  have hok := h.active i c n tx hi
  have hpoint := h.readPoint hi hs
  have hnext : CallOk app P Post db0 σ c
      { prog := next v, snap := some s, log := write v ∘ tx.log
        held := tx.held ++ locks v, seen := tx.seen ++ [s] } := by
    have hwp := hok.body
    rw [hp] at hwp
    have hstep := hwp σ.db s env ⟨.refl h.inv, hs, hpoint.1, hpoint.2.1⟩
    refine ⟨hok.admitted, ?_, ?_, ?_⟩
    · subst hv
      exact hstep
    · intro s' hs'
      cases hs'
      exact hpoint
    · intro s' hs'
      rcases List.mem_append.mp hs' with hs' | hs'
      · exact hok.seen s' hs'
      · rw [List.mem_singleton.mp hs']
        exact hpoint.2.2
  -- the locks of the statement were granted against every other call
  have hgrant := (app.grantable_iff).mp hg
  refine ⟨h.inv, ?_, ?_, h.chain, h.commits, h.seen, ?_, ?_, h.once⟩
  · intro j c' n' tx' hj
    rw [getElem?_set_eq hi] at hj
    split at hj
    · simp only [Option.some.injEq, Prod.mk.injEq, CallState.active.injEq] at hj
      obtain ⟨rfl, -, rfl⟩ := hj
      exact hnext.rely (.refl h.inv) (fun _ hs => hs)
    · exact (h.active j c' n' tx' hj).rely (.refl h.inv) (fun _ hs => hs)
  · intro j k x y hjk hj hk l hl l' hl'
    rw [getElem?_set_eq hi] at hj hk
    split at hj
    · rename_i hji
      rw [if_neg (fun hki => hjk (hji.trans hki.symm))] at hk
      simp only [Option.some.injEq] at hj
      subst hj
      rcases List.mem_append.mp hl with hl | hl
      · exact h.exclusive j k (c, .active n tx) y hjk (hji ▸ hi) hk l hl l' hl'
      · exact hgrant k y hk (fun hki => hjk (hji.trans hki.symm)) l hl l' hl'
    · rename_i hji
      split at hk
      · rename_i hki
        simp only [Option.some.injEq] at hk
        subst hk
        rcases List.mem_append.mp hl' with hl' | hl'
        · exact h.exclusive j k x (c, .active n tx) hjk hj (hki ▸ hi) l hl l' hl'
        · rw [hsymm]
          exact hgrant j x hj hji l' hl' l hl
      · exact h.exclusive j k x y hjk hj hk l hl l' hl'
  · intro j c' r hj
    rw [getElem?_set_eq hi] at hj
    split at hj
    · simp at hj
    · exact h.answered j c' r hj
  · intro e he
    change (σ.calls.set i _)[e.pid]? = _
    rw [getElem?_set_eq hi]
    split
    · rename_i heq
      have ho := h.owner e he
      rw [heq, hi] at ho
      simp at ho
    · exact h.owner e he

theorem sound_commit (h : Sound app P Post db0 σ) {i : Nat} {c : C} {n : Nat}
    {tx : Tx D N L E R} (hi : σ.calls[i]? = some (c, .active n tx)) {r : R}
    (hp : tx.prog = .ret r) (hl : app.legal (tx.log σ.db) = true)
    (hcompat : ∀ j y, σ.calls[j]? = some y → j ≠ i →
      ∀ l ∈ tx.held, ∀ l' ∈ y.2.held, ¬ P.conflicts l l') :
    Sound app P Post db0
      { db := tx.log σ.db, calls := σ.calls.set i (c, .done (.ok r))
        history := σ.history ++ [⟨i, c, r, tx.seen, σ.db, tx.log σ.db⟩] } := by
  have hok := h.active i c n tx hi
  obtain ⟨hguar, hpost⟩ := h.guar_of_commit hi hp hl
  have hcommit : CommitOk app P Post (⟨i, c, r, tx.seen, σ.db, tx.log σ.db⟩ : Commit D C R) :=
    ⟨hok.admitted, h.inv, hguar.inv, hguar.evolves, hl, hpost⟩
  have hmono : ∀ s, s ∈ states db0 σ.history → s ∈ states db0 (σ.history ++
      [(⟨i, c, r, tx.seen, σ.db, tx.log σ.db⟩ : Commit D C R)]) := fun _ hs => states_mono hs
  -- the committing call has no commit yet
  have hnew : ∀ e ∈ σ.history, e.pid ≠ i := by
    intro e he heq
    have ho := h.owner e he
    rw [heq, hi] at ho
    simp at ho
  refine ⟨hguar.inv, ?_, ?_, chain_snoc.mpr ⟨h.chain, rfl⟩, ?_, ?_, ?_, ?_, ?_⟩
  · intro j c' n' tx' hj
    rw [getElem?_set_eq hi] at hj
    split at hj
    · simp at hj
    · rename_i hji
      refine (h.active j c' n' tx' hj).rely ?_ hmono
      exact hguar.rely (hcompat j _ hj hji)
  · intro j k x y hjk hj hk l hlx l' hly
    rw [getElem?_set_eq hi] at hj hk
    split at hj
    · simp only [Option.some.injEq] at hj
      subst hj
      cases hlx
    · split at hk
      · simp only [Option.some.injEq] at hk
        subst hk
        cases hly
      · exact h.exclusive j k x y hjk hj hk l hlx l' hly
  · intro e he
    rcases List.mem_append.mp he with he | he
    · exact h.commits e he
    · rw [List.mem_singleton.mp he]
      exact hcommit
  · intro pre e post heq s hs
    rcases List.eq_nil_or_concat post with rfl | ⟨post', e', rfl⟩
    · obtain ⟨rfl, he⟩ := List.append_inj' heq rfl
      simp only [List.cons.injEq, and_true] at he
      subst he
      exact hok.seen s hs
    · rw [List.concat_eq_append, ← List.cons_append, ← List.append_assoc] at heq
      obtain ⟨hpre, -⟩ := List.append_inj' heq rfl
      exact h.seen pre e post' hpre s hs
  · intro j c' r' hj
    rw [getElem?_set_eq hi] at hj
    split at hj
    · rename_i hji
      exact ⟨_, List.mem_append_right _ (List.mem_singleton.mpr rfl), hji.symm⟩
    · obtain ⟨e, he, hpid⟩ := h.answered j c' r' hj
      exact ⟨e, List.mem_append_left _ he, hpid⟩
  · intro e he
    change (σ.calls.set i _)[e.pid]? = _
    rw [getElem?_set_eq hi]
    rcases List.mem_append.mp he with he | he
    · rw [if_neg (hnew e he)]
      exact h.owner e he
    · rw [List.mem_singleton.mp he, if_pos rfl]
  · rw [List.map_append, List.nodup_append]
    refine ⟨h.once, by simp, ?_⟩
    intro a ha b hb
    obtain ⟨e, he, rfl⟩ := List.mem_map.mp ha
    simp only [List.map_cons, List.map_nil, List.mem_singleton] at hb
    rw [hb]
    exact hnew e he

include hbody hsymm in
/-- **Soundness.**  If every body is correct and the steps of the run let a
    transaction commit only while no other one holds a lock the protocol calls
    conflicting, the invariant of the system holds in every state reached. -/
theorem Run.sound {ok : Sys D N L E X C R → Label N E C → Prop} (h0 : P.Inv db0)
    (hcompat : ∀ (σ : Sys D N L E X C R) i c n tx, ok σ (.commit i) →
      σ.calls[i]? = some (c, .active n tx) → ∀ j y, σ.calls[j]? = some y → j ≠ i →
      ∀ l ∈ tx.held, ∀ l' ∈ y.2.held, app.blocks l l' = false → ¬ P.conflicts l l')
    (h : app.Run ok db0 σ) : Sound app P Post db0 σ := by
  induction h with
  | init => exact sound_init h0
  | @step σ σ' l _ hok hstep ih =>
      obtain ⟨c, -, rfl⟩ | ⟨i, env, c, n, tx, locks, write, next, s, v, -, hi, hp, hs, hv, hg, rfl⟩ |
        ⟨i, c, n, tx, r, rfl, hi, hp, hl, rfl⟩ | ⟨i, c, n, tx, e, -, hi, rfl⟩ :=
        app.step_cases hstep
      · exact sound_call hbody ih c
      · exact sound_stmt hsymm ih hi hp hs hv hg
      · refine sound_commit ih hi hp hl fun j y hj hji l hlx l' hly => ?_
        exact hcompat σ i c n tx hok hi j y hj hji l hlx l' hly
          (ih.exclusive i j _ y (Ne.symm hji) hi hj l hlx l' hly)
      · exact sound_recover hbody ih hi e

end Step

-- ============================================================================
-- Consequences
-- ============================================================================

namespace Sound

variable {db0 : D} {σ : Sys D N L E X C R} (h : Sound app P Post db0 σ)
include h

/-- An invariant of the committed states of a run: it holds at the start and
    every correct commit keeps it. -/
theorem invariant (Q : D → Prop) (h0 : Q db0)
    (hstep : ∀ e, CommitOk app P Post e → Q e.before → Q e.after) : Q σ.db :=
  h.chain.invariant Q h0 fun e he => hstep e (h.commits e he)

/-- The invariant holds before and after every commit of the run, too. -/
theorem invariant_commit (Q : D → Prop) (h0 : Q db0)
    (hstep : ∀ e, CommitOk app P Post e → Q e.before → Q e.after)
    {e : Commit D C R} (he : e ∈ σ.history) : Q e.before ∧ Q e.after :=
  h.chain.invariant_mem Q h0 (fun x hx => hstep x (h.commits x hx)) e he

/-- What every correct commit keeps still holds after any later commits. -/
theorem later (Q : D → Prop) (hstep : ∀ e, CommitOk app P Post e → Q e.before → Q e.after)
    {pre post : List (Commit D C R)} {e : Commit D C R} (heq : σ.history = pre ++ e :: post)
    (hQ : Q e.after) : Q σ.db := by
  have hchain := h.chain
  rw [heq] at hchain
  exact hchain.split.2.invariant Q hQ fun e' he' =>
    hstep e' (h.commits e' (by rw [heq]; simp [he']))

/-- The commit of an answered call. -/
theorem commit_of_answer {i : Nat} {c : C} {r : R} (hi : σ.Answered i c r) :
    ∃ e ∈ σ.history, e.pid = i ∧ e.call = c ∧ e.result = r := by
  obtain ⟨e, he, hpid⟩ := h.answered i c r hi
  have ho := h.owner e he
  rw [hpid, show σ.calls[i]? = some (c, .done (.ok r)) from hi] at ho
  simp only [Option.some.injEq, Prod.mk.injEq, CallState.done.injEq, Except.ok.injEq] at ho
  exact ⟨e, he, hpid, ho.1.symm, ho.2.symm⟩

/-- A call that has not been answered with a result has not committed. -/
theorem no_commit_of_not_answered {i : Nat}
    (hi : ∀ c r, σ.calls[i]? ≠ some (c, .done (.ok r))) : ∀ e ∈ σ.history, e.pid ≠ i := by
  intro e he hpid
  exact hi e.call e.result (hpid ▸ h.owner e he)

section Rel

variable (T : D → D → Prop) (hrefl : ∀ d, T d d) (htrans : ∀ {x y z}, T x y → T y z → T x z)
  (hstep : ∀ e ∈ σ.history, T e.before e.after)
include hrefl htrans hstep

/-- Every committed state of a run is related to the last one. -/
theorem rel_of_mem_states {s : D} (hs : s ∈ states db0 σ.history) : T s σ.db := by
  rcases mem_states.mp hs with rfl | ⟨e, he, rfl⟩
  · exact h.chain.rel T hrefl htrans hstep
  · obtain ⟨pre, post, heq⟩ := List.append_of_mem he
    have hchain := h.chain
    rw [heq] at hchain
    exact hchain.split.2.rel T hrefl htrans fun x hx => hstep x (by rw [heq]; simp [hx])

/-- What a commit has read from is related to the state it commits to. -/
theorem rel_of_mem_seen {e : Commit D C R} (he : e ∈ σ.history) {s : D} (hs : s ∈ e.seen) :
    T s e.before := by
  obtain ⟨pre, post, heq⟩ := List.append_of_mem he
  have hchain := h.chain
  rw [heq] at hchain
  have hpre := hchain.split.1
  have hmem : ∀ x ∈ pre, x ∈ σ.history := fun x hx => by rw [heq]; simp [hx]
  rcases mem_states.mp (h.seen pre e post heq s hs) with rfl | ⟨e', he', rfl⟩
  · exact hpre.rel T hrefl htrans fun x hx => hstep x (hmem x hx)
  · obtain ⟨pre', mid, rfl⟩ := List.append_of_mem he'
    exact hpre.split.2.rel T hrefl htrans fun x hx => hstep x (hmem x (by simp [hx]))

/-- Of two commits one comes first, and its state is related to what the other finds. -/
theorem rel_ordered {e1 e2 : Commit D C R} (he1 : e1 ∈ σ.history) (he2 : e2 ∈ σ.history)
    (hne : e1 ≠ e2) : T e1.after e2.before ∨ T e2.after e1.before := by
  obtain ⟨pre, post, heq⟩ := List.append_of_mem he1
  have hchain := h.chain
  rw [heq] at hchain he2
  obtain ⟨hpre, hpost⟩ := hchain.split
  -- what lies between the two is a chain of commits of the run
  rcases List.mem_append.mp he2 with he2 | he2
  · obtain ⟨pre', mid, rfl⟩ := List.append_of_mem he2
    exact Or.inr (hpre.split.2.rel T hrefl htrans fun x hx => hstep x (by rw [heq]; simp [hx]))
  · rcases List.mem_cons.mp he2 with rfl | he2
    · exact absurd rfl hne
    · obtain ⟨mid, post', rfl⟩ := List.append_of_mem he2
      exact Or.inl (hpost.split.1.rel T hrefl htrans fun x hx => hstep x (by rw [heq]; simp [hx]))

end Rel

/-- A part of a run's history lets the state evolve. -/
theorem evolves_of_chain {a b : D} {es : List (Commit D C R)} (hc : Chain a es b)
    (hes : ∀ e ∈ es, e ∈ σ.history) : P.evolves a b :=
  hc.rel P.evolves P.evolves_refl P.evolves_trans fun e he => (h.commits e (hes e he)).evolves

/-- Every committed state of a run has evolved to the last one. -/
theorem evolves_of_mem_states {s : D} (hs : s ∈ states db0 σ.history) : P.evolves s σ.db :=
  h.rel_of_mem_states P.evolves P.evolves_refl P.evolves_trans
    (fun e he => (h.commits e he).evolves) hs

/-- Of two commits one comes first, and the state evolves between them. -/
theorem ordered {e1 e2 : Commit D C R} (he1 : e1 ∈ σ.history) (he2 : e2 ∈ σ.history)
    (hne : e1 ≠ e2) : P.evolves e1.after e2.before ∨ P.evolves e2.after e1.before :=
  h.rel_ordered P.evolves P.evolves_refl P.evolves_trans (fun e he => (h.commits e he).evolves)
    he1 he2 hne

end Sound

end Txn
