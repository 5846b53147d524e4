/-
  Kasir.Txn.Serial

  What the Serializable level guarantees.

  Snapshots alone do not make transactions look as if they ran one after the other:
  two of them may each read what the other is about to change.  The Serializable level
  breaks one of them off.  Here that is a condition on steps: a commit is let through
  only while the transactions committed so far have a serial order.
-/

import Kasir.Txn.Alone
import Kasir.Txn.Soundness

namespace Txn

variable {D N L E X C R : Type}

namespace App

variable (app : App D N L E X C R)

/-- The calls of these commits, each alone and one after the other, have the same
    results and lead from `db` to `db'`. -/
def SerialOrder : D → List (Commit D C R) → D → Prop
  | db, [], db' => db = db'
  | db, e :: rest, db' =>
      ∃ envs db1, app.alone e.call db envs = some (.ok e.result, db1) ∧ SerialOrder db1 rest db'

/-- The commits made so far have a serial order. -/
def Serializable (db0 : D) (σ : Sys D N L E X C R) : Prop :=
  ∃ order, order.Perm σ.history ∧ app.SerialOrder db0 order σ.db

/-- The step leaves the commits in a serial order. -/
def serialized (db0 : D) (σ : Sys D N L E X C R) (l : Label N E C) : Prop :=
  ∀ σ', app.step σ l = some σ' → app.Serializable db0 σ'

variable {app} {db0 : D} {σ : Sys D N L E X C R}

theorem Run.serializable (h : app.Run (app.serialized db0) db0 σ) : app.Serializable db0 σ := by
  cases h with
  | init => exact ⟨[], List.Perm.refl _, rfl⟩
  | step _ hl hstep => exact hl _ hstep

-- ============================================================================
-- Calls that exclude each other
-- ============================================================================

section Once

variable {Used : D → Prop}
  (hused : ∀ c db envs r db', app.alone c db envs = some (.ok r, db') → ¬ Used db ∧ Used db')
include hused

/-- If a call that succeeds alone uses the database up, a serial order holds at most
    one. -/
theorem SerialOrder.length_le_one {order : List (Commit D C R)} {db db' : D}
    (h : app.SerialOrder db order db') :
    order.length ≤ 1 ∧ (Used db → order = []) := by
  cases order with
  | nil => exact ⟨Nat.zero_le _, fun _ => rfl⟩
  | cons e rest =>
      obtain ⟨envs, db1, halone, hrest⟩ := h
      obtain ⟨hfree, hused1⟩ := hused _ _ _ _ _ halone
      cases rest with
      | nil => exact ⟨Nat.le_refl _, fun hdb => absurd hdb hfree⟩
      | cons f later =>
          -- the second one finds the database used up
          obtain ⟨envs', db2, halone', -⟩ := hrest
          exact absurd hused1 (hused _ _ _ _ _ halone').1

/-- So does every run at the Serializable level. -/
theorem Serializable.length_le_one (h : app.Serializable db0 σ) :
    σ.history.length ≤ 1 ∧ (Used db0 → σ.history = []) := by
  obtain ⟨order, hperm, hserial⟩ := h
  obtain ⟨hlength, hnone⟩ := hserial.length_le_one hused
  refine ⟨hperm.length_eq ▸ hlength, fun hdb => ?_⟩
  have hnil := hnone hdb
  rw [hnil] at hperm
  exact hperm.symm.eq_nil

end Once

end App

-- ============================================================================
-- Answers and commits
-- ============================================================================

/-- What any run keeps of its history: it leads to the committed state, and the
    successful answers are those of the commits. -/
structure Recorded (db0 : D) (σ : Sys D N L E X C R) : Prop where
  chain : Chain db0 σ.history σ.db
  answered : ∀ i c r, σ.Answered i c r → ∃ e ∈ σ.history, e.pid = i ∧ e.call = c ∧ e.result = r
  committed : ∀ e ∈ σ.history, σ.Answered e.pid e.call e.result

namespace App

variable {app : App D N L E X C R} {db0 : D} {σ : Sys D N L E X C R}

theorem enter_not_ok (c : C) (r : R) : app.enter c ≠ .done (.ok r) := by
  unfold enter
  cases app.precheck c <;> exact fun h => nomatch h

theorem recover_not_ok (c : C) (n : Nat) (e : E) (r : R) : app.recover c n e ≠ .done (.ok r) := by
  unfold recover
  cases app.handle c n e <;> exact fun h => nomatch h

/-- Only a commit changes the database, and only a commit answers with success. -/
theorem Run.recorded {ok : Sys D N L E X C R → Label N E C → Prop} (h : app.Run ok db0 σ) :
    Recorded db0 σ := by
  induction h with
  | init => exact ⟨rfl, fun i c r h => (nomatch h), fun e h => nomatch h⟩
  | @step σ σ' l hrun hl hstep ih =>
      -- what is put in the place of a running call leaves the answers of the others
      have hkept : ∀ {i : Nat} {c : C} {n : Nat} {tx : Tx D N L E R} (cs : CallState D N L E X R),
          σ.calls[i]? = some (c, .active n tx) → ∀ e ∈ σ.history,
            (σ.calls.set i (c, cs))[e.pid]? = some (e.call, .done (.ok e.result)) := by
        intro i c n tx cs hi e he
        have howner := ih.committed e he
        rw [getElem?_set_eq hi, if_neg]
        · exact howner
        · rintro rfl
          rw [Sys.Answered, hi] at howner
          cases howner
      -- and what is no answer adds none
      have hset : ∀ {i : Nat} {c : C} {n : Nat} {tx : Tx D N L E R} {cs : CallState D N L E X R},
          σ.calls[i]? = some (c, .active n tx) → (∀ r, cs ≠ .done (.ok r)) →
          Recorded db0 { σ with calls := σ.calls.set i (c, cs) } := by
        intro i c n tx cs hi hno
        refine ⟨ih.chain, fun j d r hj => ?_, hkept cs hi⟩
        have hj' : (σ.calls.set i (c, cs))[j]? = some (d, .done (.ok r)) := hj
        rw [getElem?_set_eq hi] at hj'
        split at hj'
        · exact absurd (Prod.mk.inj (Option.some.inj hj')).2 (hno r)
        · exact ih.answered j d r hj'
      rcases app.step_cases hstep with ⟨c, -, rfl⟩ |
        ⟨i, env, c, n, tx, locks, write, next, s, v, -, hi, -, -, -, -, rfl⟩ |
        ⟨i, c, n, tx, r, -, hi, -, -, rfl⟩ | ⟨i, c, n, tx, e, -, hi, rfl⟩
      · refine ⟨ih.chain, fun j d r hj => ?_, fun e he => ?_⟩
        · have hj' : (σ.calls ++ [(c, app.enter c)])[j]? = some (d, .done (.ok r)) := hj
          rw [List.getElem?_append] at hj'
          split at hj'
          · exact ih.answered j d r hj'
          · rw [List.getElem?_singleton] at hj'
            split at hj'
            · exact absurd (Prod.mk.inj (Option.some.inj hj')).2 (enter_not_ok c r)
            · cases hj'
        · have howner := ih.committed e he
          obtain ⟨hlt, -⟩ := List.getElem?_eq_some_iff.mp howner
          exact (List.getElem?_append_left hlt).trans howner
      · exact hset hi fun r h => nomatch h
      · refine ⟨chain_snoc.mpr ⟨ih.chain, rfl⟩, fun j d r' hj => ?_, fun e he => ?_⟩
        · have hj' : (σ.calls.set i (c, .done (.ok r)))[j]? = some (d, .done (.ok r')) := hj
          rw [getElem?_set_eq hi] at hj'
          split at hj'
          · rename_i hij
            cases hj'
            exact ⟨_, List.mem_append_right _ (List.mem_singleton.mpr rfl), hij.symm, rfl, rfl⟩
          · obtain ⟨e, he, heq⟩ := ih.answered j d r' hj'
            exact ⟨e, List.mem_append_left _ he, heq⟩
        · rcases List.mem_append.mp he with he | he
          · exact hkept _ hi e he
          · rw [List.mem_singleton.mp he]
            exact getElem?_set_self' hi
      · exact hset hi fun r => recover_not_ok c n e r

-- ============================================================================
-- Runs that are serial as they stand
-- ============================================================================

/-- The commit does what its call alone does on the state before it. -/
def CommitsAlone (app : App D N L E X C R) (e : Commit D C R) : Prop :=
  ∃ envs, app.alone e.call e.before envs = some (.ok e.result, e.after)

/-- Commits that follow each other, each as if alone, are in a serial order. -/
theorem SerialOrder.of_chain {es : List (Commit D C R)} {db db' : D} (hchain : Chain db es db')
    (halone : ∀ e ∈ es, app.CommitsAlone e) : app.SerialOrder db es db' := by
  induction es generalizing db with
  | nil => exact hchain
  | cons e es ih =>
      obtain ⟨hbefore, hrest⟩ := (chain_cons ..).mp hchain
      obtain ⟨envs, he⟩ := halone e (List.mem_cons_self ..)
      exact ⟨envs, e.after, hbefore ▸ he, ih hrest fun f hf => halone f (List.mem_cons_of_mem _ hf)⟩

/-- **A run whose commits, in their order, could each have run alone** is a run at the
    Serializable level. -/
theorem Run.serialized {ok : Sys D N L E X C R → Label N E C → Prop} (h : app.Run ok db0 σ)
    (halone : ∀ e ∈ σ.history, app.CommitsAlone e) : app.Run (app.serialized db0) db0 σ := by
  induction h with
  | init => exact .init
  | @step σ σ' l hrun hl hstep ih =>
      -- the commits of a state are those of every later one
      have hearlier : ∀ e ∈ σ.history, e ∈ σ'.history := by
        rcases app.step_cases hstep with ⟨c, -, rfl⟩ |
          ⟨i, env, c, n, tx, locks, write, next, s, v, -, -, -, -, -, -, rfl⟩ |
          ⟨i, c, n, tx, r, -, -, -, -, rfl⟩ | ⟨i, c, n, tx, e, -, -, rfl⟩
        · exact fun _ he => he
        · exact fun _ he => he
        · exact fun _ he => List.mem_append_left _ he
        · exact fun _ he => he
      refine .step (ih fun e he => halone e (hearlier e he)) ?_ hstep
      intro σ'' hstep'
      obtain rfl : σ' = σ'' := Option.some.inj (hstep.symm.trans hstep')
      exact ⟨σ'.history, List.Perm.refl _, .of_chain (hrun.step hl hstep).recorded.chain halone⟩

end App

end Txn
