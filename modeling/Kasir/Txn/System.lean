/-
  Kasir.Txn.System

  Many transactions on one database.

  The database is a committed state.  A call runs its body in a transaction:
  statements of different calls interleave in any order, a commit applies the
  transaction's log to the committed state, and a transaction that throws, or
  that the database breaks off at any statement, leaves no trace.

  Isolation levels:
  - Read Committed: every statement reads the latest committed state.
  - Repeatable Read and Serializable: every statement reads the state that was
    committed when the transaction sent its first statement.  The extra
    aborts of the Serializable level are among the faults that may break a
    transaction off at any point, so every serializable schedule is a run of
    this system.

  A statement that needs a lock waits until no other running transaction holds
  a conflicting one, and its transaction keeps it to the end.
-/

import Kasir.Txn.Prog

namespace Txn

/-- The isolation levels in use. -/
inductive Isolation
  | readCommitted
  | repeatableRead
  | serializable
deriving DecidableEq, Repr

/-- The committed state a statement reads from, given the transaction's snapshot
    (if it has one already) and the latest committed state. -/
def readPoint {D : Type} (iso : Isolation) (snap : Option D) (db : D) : D :=
  match iso with
  | .readCommitted => db
  | .repeatableRead | .serializable => snap.getD db

/-- A running transaction.  `seen` lists the committed states its statements
    have read from; no rule of the system depends on it. -/
structure Tx (D N L E R : Type) where
  prog : Prog D N L E R
  snap : Option D
  log : D → D
  held : List L
  seen : List D

/-- A transaction that has not sent a statement yet. -/
def Tx.start {D N L E R : Type} (p : Prog D N L E R) : Tx D N L E R :=
  { prog := p, snap := none, log := id, held := [], seen := [] }

/-- Where a call is: in its `attempt`-th transaction, or answered. -/
inductive CallState (D N L E X R : Type)
  | active (attempt : Nat) (tx : Tx D N L E R)
  | done (answer : Except X R)

/-- An application on the database: for every call what is checked before a
    transaction opens, its isolation level and body, and how errors are
    answered; and of the database which errors it may raise by itself, which
    locks conflict, and which states its schema admits. -/
structure App (D N L E X C R : Type) where
  precheck : C → Option X
  iso : C → Isolation
  body : C → Prog D N L E R
  /-- The answer to an error of the given attempt, or `none` to try again. -/
  handle : C → Nat → E → Option X
  fault : E → Bool
  blocks : L → L → Bool
  legal : D → Bool

/-- One commit: the call and its result, what its transaction read from, and the
    committed states before and after. -/
structure Commit (D C R : Type) where
  pid : Nat
  call : C
  result : R
  seen : List D
  before : D
  after : D

/-- The whole system: the committed state, every call made so far and every
    commit so far, oldest first. -/
structure Sys (D N L E X C R : Type) where
  db : D
  calls : List (C × CallState D N L E X R)
  history : List (Commit D C R)

/-- A system in which nothing has been called yet. -/
def Sys.init {D N L E X C R : Type} (db : D) : Sys D N L E X C R :=
  { db := db, calls := [], history := [] }

/-- The call with this number has been answered with this result. -/
def Sys.Answered {D N L E X C R : Type} (σ : Sys D N L E X C R) (i : Nat) (c : C) (r : R) : Prop :=
  σ.calls[i]? = some (c, .done (.ok r))

/-- What can happen next. -/
inductive Label (N E C : Type)
  | call (c : C)
  | stmt (i : Nat) (env : N)
  | commit (i : Nat)
  | abort (i : Nat)
  | fault (i : Nat) (e : E)

variable {D N L E X C R : Type}

namespace CallState

/-- The locks a call holds. -/
def held : CallState D N L E X R → List L
  | active _ tx => tx.held
  | done _ => []

@[simp] theorem held_active (n : Nat) (tx : Tx D N L E R) :
    (active n tx : CallState D N L E X R).held = tx.held := rfl

end CallState

namespace App

variable (app : App D N L E X C R)

/-- A call as it enters the system. -/
def enter (c : C) : CallState D N L E X R :=
  match app.precheck c with
  | some x => .done (.error x)
  | none => .active 0 (Tx.start (app.body c))

/-- What becomes of a call whose transaction ended with an error. -/
def recover (c : C) (attempt : Nat) (e : E) : CallState D N L E X R :=
  match app.handle c attempt e with
  | some x => .done (.error x)
  | none => .active (attempt + 1) (Tx.start (app.body c))

/-- No call but the `i`-th holds a lock that conflicts with one of `ls`. -/
def grantable (calls : List (C × CallState D N L E X R)) (i : Nat) (ls : List L) : Bool :=
  calls.zipIdx.all fun x =>
    x.2 == i || ls.all fun l => x.1.2.held.all fun l' => !app.blocks l l'

theorem grantable_iff {calls : List (C × CallState D N L E X R)} {i : Nat} {ls : List L} :
    app.grantable calls i ls = true ↔
      ∀ j cs, calls[j]? = some cs → j ≠ i →
        ∀ l ∈ ls, ∀ l' ∈ cs.2.held, app.blocks l l' = false := by
  simp only [grantable, List.all_eq_true, Bool.or_eq_true, beq_iff_eq, Bool.not_eq_true']
  constructor
  · intro h j cs hj hji
    rcases h (cs, j) (List.mem_zipIdx_iff_getElem?.mpr hj) with h | h
    · exact absurd h hji
    · exact h
  · intro h x hx
    by_cases hji : x.2 = i
    · exact Or.inl hji
    · exact Or.inr (h x.2 x.1 (List.mem_zipIdx_iff_getElem?.mp hx) hji)

/-- One step of the system, if the label is possible in the state. -/
def step (σ : Sys D N L E X C R) : Label N E C → Option (Sys D N L E X C R)
  | .call c => some { σ with calls := σ.calls ++ [(c, app.enter c)] }
  | .stmt i env =>
      match σ.calls[i]? with
      | some (c, .active n tx) =>
          match tx.prog with
          | .stmt locks write next =>
              let s := readPoint (app.iso c) tx.snap σ.db
              let v : View D N := ⟨tx.log s, tx.log σ.db, env⟩
              if app.grantable σ.calls i (locks v) then
                some { σ with calls := σ.calls.set i (c, .active n
                  { prog := next v
                    snap := some s
                    log := write v ∘ tx.log
                    held := tx.held ++ locks v
                    seen := tx.seen ++ [s] }) }
              else none
          | _ => none
      | _ => none
  | .commit i =>
      match σ.calls[i]? with
      | some (c, .active _ tx) =>
          match tx.prog with
          | .ret r =>
              if app.legal (tx.log σ.db) then
                some
                  { db := tx.log σ.db
                    calls := σ.calls.set i (c, .done (.ok r))
                    history := σ.history ++
                      [⟨i, c, r, tx.seen, σ.db, tx.log σ.db⟩] }
              else none
          | _ => none
      | _ => none
  | .abort i =>
      match σ.calls[i]? with
      | some (c, .active n tx) =>
          match tx.prog with
          | .throw e => some { σ with calls := σ.calls.set i (c, app.recover c n e) }
          | _ => none
      | _ => none
  | .fault i e =>
      match σ.calls[i]? with
      | some (c, .active n _) =>
          if app.fault e then
            some { σ with calls := σ.calls.set i (c, app.recover c n e) }
          else none
      | _ => none

/-- The states reached from `db` by steps that satisfy `ok`. -/
inductive Run (ok : Sys D N L E X C R → Label N E C → Prop) (db : D) :
    Sys D N L E X C R → Prop
  | init : Run ok db (Sys.init db)
  | step {σ σ' : Sys D N L E X C R} {l : Label N E C} :
      Run ok db σ → ok σ l → app.step σ l = some σ' → Run ok db σ'

/-- The states reached from `db` by any steps. -/
abbrev Reach (db : D) (σ : Sys D N L E X C R) : Prop :=
  app.Run (fun _ _ => True) db σ

variable {app} in
theorem Run.reach {ok : Sys D N L E X C R → Label N E C → Prop} {db : D}
    {σ : Sys D N L E X C R} (h : app.Run ok db σ) : app.Reach db σ := by
  induction h with
  | init => exact .init
  | step _ _ hstep ih => exact .step ih trivial hstep

variable {app} in
theorem Run.mono {ok ok' : Sys D N L E X C R → Label N E C → Prop} {db : D}
    {σ : Sys D N L E X C R} (hok : ∀ σ l, ok σ l → ok' σ l) (h : app.Run ok db σ) :
    app.Run ok' db σ := by
  induction h with
  | init => exact .init
  | step _ hl hstep ih => exact .step ih (hok _ _ hl) hstep

/-- Replay a list of labels. -/
def replay (σ : Sys D N L E X C R) : List (Label N E C) → Option (Sys D N L E X C R)
  | [] => some σ
  | l :: ls => (app.step σ l).bind fun σ' => replay σ' ls

variable {app} in
theorem Run.of_replay {ok : Sys D N L E X C R → Label N E C → Prop} {db : D}
    {σ σ' : Sys D N L E X C R} {ls : List (Label N E C)} (hok : ∀ σ l, ok σ l)
    (h : app.Run ok db σ) (hr : app.replay σ ls = some σ') : app.Run ok db σ' := by
  induction ls generalizing σ with
  | nil =>
      simp only [App.replay, Option.some.injEq] at hr
      exact hr ▸ h
  | cons l ls ih =>
      simp only [App.replay, Option.bind_eq_some_iff] at hr
      obtain ⟨σ1, hstep, hrest⟩ := hr
      exact ih (.step h (hok _ _) hstep) hrest

/-- Replay a list of labels, each of which must satisfy `ok`. -/
def replayWhere (ok : Sys D N L E X C R → Label N E C → Bool) (σ : Sys D N L E X C R) :
    List (Label N E C) → Option (Sys D N L E X C R)
  | [] => some σ
  | l :: ls =>
      if ok σ l then (app.step σ l).bind fun σ' => replayWhere ok σ' ls else none

variable {app} in
theorem Run.of_replayWhere {ok : Sys D N L E X C R → Label N E C → Bool} {db : D}
    {σ σ' : Sys D N L E X C R} {ls : List (Label N E C)}
    (h : app.Run (fun σ l => ok σ l = true) db σ) (hr : app.replayWhere ok σ ls = some σ') :
    app.Run (fun σ l => ok σ l = true) db σ' := by
  induction ls generalizing σ with
  | nil =>
      obtain rfl := Option.some.inj hr
      exact h
  | cons l ls ih =>
      unfold replayWhere at hr
      split at hr
      · rename_i hl
        obtain ⟨σ1, hstep, hrest⟩ := Option.bind_eq_some_iff.mp hr
        exact ih (.step h hl hstep) hrest
      · cases hr

-- ============================================================================
-- What one step does
-- ============================================================================

/-- Every step is one of five: a call enters, a statement runs, a transaction
    commits, or a call's transaction ends with an error it raised or suffered. -/
theorem step_cases {σ σ' : Sys D N L E X C R} {l : Label N E C}
    (h : app.step σ l = some σ') :
    (∃ c, l = .call c ∧ σ' = { σ with calls := σ.calls ++ [(c, app.enter c)] }) ∨
    (∃ i env c n tx locks write next s v, l = .stmt i env ∧
      σ.calls[i]? = some (c, .active n tx) ∧ tx.prog = .stmt locks write next ∧
      s = readPoint (app.iso c) tx.snap σ.db ∧
      v = (⟨tx.log s, tx.log σ.db, env⟩ : View D N) ∧
      app.grantable σ.calls i (locks v) = true ∧
      σ' = { σ with calls := σ.calls.set i (c, .active n
        { prog := next v, snap := some s, log := write v ∘ tx.log
          held := tx.held ++ locks v, seen := tx.seen ++ [s] }) }) ∨
    (∃ i c n tx r, l = .commit i ∧ σ.calls[i]? = some (c, .active n tx) ∧
      tx.prog = .ret r ∧ app.legal (tx.log σ.db) = true ∧
      σ' = { db := tx.log σ.db, calls := σ.calls.set i (c, .done (.ok r))
             history := σ.history ++ [⟨i, c, r, tx.seen, σ.db, tx.log σ.db⟩] }) ∨
    (∃ i c n tx e, ((l = .abort i ∧ tx.prog = .throw e) ∨ l = .fault i e) ∧
      σ.calls[i]? = some (c, .active n tx) ∧
      σ' = { σ with calls := σ.calls.set i (c, app.recover c n e) }) := by
  cases l with
  | call c =>
      simp only [step, Option.some.injEq] at h
      exact Or.inl ⟨c, rfl, h.symm⟩
  | stmt i env =>
      simp only [step] at h
      split at h
      · rename_i c n tx hi
        split at h
        · rename_i locks write next hp
          split at h
          · rename_i hg
            simp only [Option.some.injEq] at h
            exact Or.inr (Or.inl ⟨i, env, c, n, tx, locks, write, next, _, _, rfl, hi, hp,
              rfl, rfl, hg, h.symm⟩)
          · cases h
        · cases h
      · cases h
  | commit i =>
      simp only [step] at h
      split at h
      · rename_i c n tx hi
        split at h
        · rename_i r hp
          split at h
          · rename_i hl
            simp only [Option.some.injEq] at h
            exact Or.inr (Or.inr (Or.inl ⟨i, c, n, tx, r, rfl, hi, hp, hl, h.symm⟩))
          · cases h
        · cases h
      · cases h
  | abort i =>
      simp only [step] at h
      split at h
      · rename_i c n tx hi
        split at h
        · rename_i e hp
          simp only [Option.some.injEq] at h
          exact Or.inr (Or.inr (Or.inr ⟨i, c, n, tx, e, Or.inl ⟨rfl, hp⟩, hi, h.symm⟩))
        · cases h
      · cases h
  | fault i e =>
      simp only [step] at h
      split at h
      · rename_i c n tx hi
        split at h
        · simp only [Option.some.injEq] at h
          exact Or.inr (Or.inr (Or.inr ⟨i, c, n, tx, e, Or.inr rfl, hi, h.symm⟩))
        · cases h
      · cases h

variable {app} in
/-- What is true of every call that enters is true of every call. -/
theorem Run.calls {ok : Sys D N L E X C R → Label N E C → Prop} {db : D} {σ : Sys D N L E X C R}
    (p : C → Prop) (hok : ∀ σ c, ok σ (.call c) → p c) (h : app.Run ok db σ) :
    ∀ (i : Nat) (x : C × CallState D N L E X R), σ.calls[i]? = some x → p x.1 := by
  induction h with
  | init =>
      intro i x hi
      simp [Sys.init] at hi
  | @step σ σ' l _ hl hstep ih =>
      -- a call that goes on stays the same call
      have hset : ∀ {j : Nat} {c : C} {cs cs' : CallState D N L E X R},
          σ.calls[j]? = some (c, cs) → ∀ (i : Nat) (x : C × CallState D N L E X R),
          (σ.calls.set j (c, cs'))[i]? = some x → p x.1 := by
        intro j c cs cs' hj i x hi
        rw [List.getElem?_set] at hi
        split at hi
        · split at hi
          · obtain rfl := Option.some.inj hi
            exact ih j (c, cs) hj
          · cases hi
        · exact ih i x hi
      obtain ⟨c, rfl, rfl⟩ | ⟨i, env, c, n, tx, locks, write, next, s, v, -, hi, -, -, -, -, rfl⟩ |
        ⟨i, c, n, tx, r, -, hi, -, -, rfl⟩ | ⟨i, c, n, tx, e, -, hi, rfl⟩ := app.step_cases hstep
      · intro i x hi
        rw [List.getElem?_append] at hi
        split at hi
        · exact ih i x hi
        · rw [List.getElem?_singleton] at hi
          split at hi
          · obtain rfl := Option.some.inj hi
            exact hok σ c hl
          · cases hi
      · exact hset hi
      · exact hset hi
      · exact hset hi

/-- Only a commit changes the committed state. -/
theorem db_of_step {σ σ' : Sys D N L E X C R} {l : Label N E C} (h : app.step σ l = some σ')
    (hl : ∀ i, l ≠ .commit i) : σ'.db = σ.db := by
  rcases step_cases app h with ⟨c, -, rfl⟩ | ⟨i, env, c, n, tx, locks, write, next, s, v, -, -, -, -,
    -, -, rfl⟩ | ⟨i, c, n, tx, r, rfl, -⟩ | ⟨i, c, n, tx, e, -, -, rfl⟩
  · rfl
  · rfl
  · exact absurd rfl (hl i)
  · rfl

end App

end Txn
