/-
  Kasir.Txn.Alone

  A call that runs without concurrent writers.

  `App.alone` evaluates a call in one go on a fixed committed state.  The main
  result ties it to the system: wherever no other call holds a lock, the call can
  take its steps back to back, and it is answered as `alone` says.
-/

import Kasir.Txn.System

namespace Txn

variable {D N L E X C R : Type}

namespace App

variable (app : App D N L E X C R)

/-- What a call answers and the state it leaves when nothing else runs and the
    database breaks nothing off; `none` if its first attempt asks for another. -/
def alone (c : C) (db : D) (envs : Nat → N) : Option (Except X R × D) :=
  match app.precheck c with
  | some x => some (.error x, db)
  | none =>
      match (app.body c).solo db envs 0 id with
      | ⟨_, log, .ok r⟩ => if app.legal (log db) then some (.ok r, log db) else none
      | ⟨_, _, .error e⟩ => (app.handle c 0 e).map fun x => (.error x, db)

/-- No call but the `i`-th holds a lock. -/
def Quiet (σ : Sys D N L E X C R) (i : Nat) : Prop :=
  ∀ j cs, σ.calls[j]? = some cs → j ≠ i → cs.2.held = []

variable {app}

theorem Quiet.grantable {σ : Sys D N L E X C R} {i : Nat} (h : Quiet σ i) (ls : List L) :
    app.grantable σ.calls i ls = true := by
  rw [grantable_iff]
  intro j cs hj hji l _ l' hl'
  rw [h j cs hj hji] at hl'
  cases hl'

section Alone

variable {c : C} {db : D} {envs : Nat → N} {n : Nat} {w : D → D} (hpre : app.precheck c = none)
include hpre

/-- A body that returns answers the call, where the database admits its changes. -/
theorem alone_of_solo_ok {r : R} (hsolo : (app.body c).solo db envs 0 id = ⟨n, w, .ok r⟩)
    (hlegal : app.legal (w db) = true) : app.alone c db envs = some (.ok r, w db) := by
  unfold alone
  rw [hpre]
  simp only [hsolo, hlegal, if_true]

/-- A body that fails for good answers the call and changes nothing. -/
theorem alone_of_solo_error {e : E} {x : X}
    (hsolo : (app.body c).solo db envs 0 id = ⟨n, w, .error e⟩)
    (hhandle : app.handle c 0 e = some x) : app.alone c db envs = some (.error x, db) := by
  unfold alone
  rw [hpre]
  simp only [hsolo, hhandle, Option.map_some]

end Alone

/-- The program a finished body leaves. -/
def finished : Except E R → Prog D N L E R
  | .ok r => .ret r
  | .error e => .throw e

theorem getElem?_set_self' {α : Type} {xs : List α} {i : Nat} {x y : α} (h : xs[i]? = some y) :
    (xs.set i x)[i]? = some x := by
  obtain ⟨hi, -⟩ := List.getElem?_eq_some_iff.mp h
  exact List.getElem?_set_self hi

section Run

variable {ok : Sys D N L E X C R → Label N E C → Prop} {db : D}
  (hok : ∀ σ l, (∀ i, l = .commit i → Quiet σ i) → ok σ l)
include hok

/-- A running call can send all its remaining statements back to back. -/
theorem run_solo (envs : Nat → N) {c : C} {i att : Nat} (p : Prog D N L E R) :
    ∀ (σ : Sys D N L E X C R) (tx : Tx D N L E R) (n : Nat), app.Run ok db σ →
      σ.calls[i]? = some (c, .active att tx) → tx.prog = p →
      (tx.snap = none ∨ tx.snap = some σ.db) → Quiet σ i →
      ∃ tx', app.Run ok db { σ with calls := σ.calls.set i (c, .active att tx') } ∧
        tx'.prog = finished (p.solo σ.db envs n tx.log).result ∧
        tx'.log = (p.solo σ.db envs n tx.log).log := by
  have hnone : ∀ (σ : Sys D N L E X C R) (tx : Tx D N L E R), app.Run ok db σ →
      σ.calls[i]? = some (c, .active att tx) →
      app.Run ok db { σ with calls := σ.calls.set i (c, .active att tx) } := by
    intro σ tx hrun hi
    obtain ⟨hlt, heq⟩ := List.getElem?_eq_some_iff.mp hi
    rw [← heq, List.set_getElem_self]
    exact hrun
  induction p with
  | ret r => exact fun σ tx n hrun hi hp _ _ => ⟨tx, hnone σ tx hrun hi, hp, rfl⟩
  | throw e => exact fun σ tx n hrun hi hp _ _ => ⟨tx, hnone σ tx hrun hi, hp, rfl⟩
  | stmt locks write next ih =>
      intro σ tx n hrun hi hp hsnap hq
      have hpoint : readPoint (app.iso c) tx.snap σ.db = σ.db := by
        rcases hsnap with h | h <;> rw [h] <;> cases app.iso c <;> rfl
      -- the state after this statement
      let v : View D N := ⟨tx.log σ.db, tx.log σ.db, envs n⟩
      let tx1 : Tx D N L E R :=
        { prog := next v, snap := some σ.db, log := write v ∘ tx.log
          held := tx.held ++ locks v, seen := tx.seen ++ [σ.db] }
      let σ1 : Sys D N L E X C R := { σ with calls := σ.calls.set i (c, .active att tx1) }
      have hstep : app.step σ (.stmt i (envs n)) = some σ1 := by
        simp only [step, hi, hp, hpoint, hq.grantable, if_true]
        rfl
      have hrun1 : app.Run ok db σ1 := hrun.step (hok _ _ fun j hj => by cases hj) hstep
      have hq1 : Quiet σ1 i := by
        intro j cs hj hji
        refine hq j cs ?_ hji
        rwa [List.getElem?_set_ne (Ne.symm hji)] at hj
      obtain ⟨tx', hr, hprog, hlog⟩ :=
        ih v σ1 tx1 (n + 1) hrun1 (getElem?_set_self' hi) rfl (Or.inr rfl) hq1
      refine ⟨tx', ?_, hprog, hlog⟩
      simpa only [σ1, List.set_set] using hr

/-- **A call alone.**  Where no other call holds a lock, a call can run to its
    answer by its own steps, with the answer and the state `alone` computes. -/
theorem run_alone {σ : Sys D N L E X C R} {c : C} {envs : Nat → N} {a : Except X R} {db' : D}
    (hrun : app.Run ok db σ) (hq : ∀ cs ∈ σ.calls, cs.2.held = [])
    (h : app.alone c σ.db envs = some (a, db')) :
    ∃ σ', app.Run ok db σ' ∧ σ'.db = db' ∧ σ'.calls = σ.calls ++ [(c, .done a)] ∧
      (∀ r, a = .ok r → ∃ seen, σ'.history =
        σ.history ++ [⟨σ.calls.length, c, r, seen, σ.db, db'⟩]) ∧
      (∀ x, a = .error x → σ'.history = σ.history) := by
  unfold alone at h
  split at h
  · -- rejected before a transaction opens
    rename_i x hx
    simp only [Option.some.injEq, Prod.mk.injEq] at h
    obtain ⟨rfl, rfl⟩ := h
    refine ⟨{ σ with calls := σ.calls ++ [(c, .done (.error x))] }, ?_, rfl, rfl, ?_, ?_⟩
    · refine hrun.step (l := .call c) (hok _ _ fun j hj => by cases hj) ?_
      simp [step, enter, hx]
    · intro r hr; cases hr
    · intro _ _; rfl
  · rename_i hx
    let tx0 : Tx D N L E R := Tx.start (app.body c)
    let σ1 : Sys D N L E X C R := { σ with calls := σ.calls ++ [(c, .active 0 tx0)] }
    have hrun1 : app.Run ok db σ1 := by
      refine hrun.step (l := .call c) (hok _ _ fun j hj => by cases hj) ?_
      simp only [step, enter, hx]
      rfl
    have hi : σ1.calls[σ.calls.length]? = some (c, .active 0 tx0) := by
      simp [σ1]
    have hquiet : ∀ cs, Quiet { σ with calls := σ.calls ++ [(c, cs)] } σ.calls.length := by
      intro cs' j cs hj hji
      refine hq cs ?_
      simp only [List.getElem?_append] at hj
      split at hj
      · exact List.mem_of_getElem? hj
      · rw [List.getElem?_singleton] at hj
        split at hj
        · omega
        · cases hj
    obtain ⟨tx', hr, hprog, hlog⟩ := run_solo hok envs (app.body c) σ1 tx0 0
      hrun1 hi rfl (Or.inl rfl) (hquiet _)
    have hset : σ1.calls.set σ.calls.length (c, .active 0 tx') =
        σ.calls ++ [(c, .active 0 tx')] := by
      simp [σ1]
    rw [hset] at hr
    change tx'.prog = finished ((app.body c).solo σ.db envs 0 id).result at hprog
    change tx'.log = ((app.body c).solo σ.db envs 0 id).log at hlog
    split at h
    · rename_i n log r hsolo
      rw [hsolo] at hprog hlog
      simp only at hprog hlog
      split at h
      · rename_i hl
        simp only [Option.some.injEq, Prod.mk.injEq] at h
        obtain ⟨rfl, rfl⟩ := h
        rw [← hlog] at hl
        refine ⟨{ db := tx'.log σ.db, calls := σ.calls ++ [(c, .done (.ok r))]
                  history := σ.history ++
                    [⟨σ.calls.length, c, r, tx'.seen, σ.db, tx'.log σ.db⟩] }, ?_, ?_, rfl, ?_, ?_⟩
        · refine hr.step (l := .commit σ.calls.length) (hok _ _ fun j hj => ?_) ?_
          · cases hj
            exact hquiet _
          · simp [step, hprog, finished, hl, σ1]
        · exact congrArg (· σ.db) hlog
        · intro r' hr'
          cases hr'
          exact ⟨tx'.seen, by rw [hlog]⟩
        · intro x hx'
          cases hx'
      · cases h
    · rename_i n log e hsolo
      rw [hsolo] at hprog
      simp only [Option.map_eq_some_iff, Prod.mk.injEq] at h
      obtain ⟨x, hx', rfl, rfl⟩ := h
      refine ⟨{ σ with calls := σ.calls ++ [(c, .done (.error x))] }, ?_, rfl, rfl, ?_, ?_⟩
      · refine hr.step (l := .abort σ.calls.length) (hok _ _ fun j hj => by cases hj) ?_
        simp [step, hprog, finished, recover, hx', σ1]
      · intro r' hr'
        cases hr'
      · intro _ _
        rfl

end Run

-- ============================================================================
-- One call after the other
-- ============================================================================

/-- One call of a sequence: its answer, and the states before and after it. -/
structure Turn (D X C R : Type) where
  call : C
  answer : Except X R
  before : D
  after : D

/-- What a turn leaves in the history. -/
def Turn.commit (t : Turn D X C R) : Option (C × R × D × D) :=
  match t.answer with
  | .ok r => some (t.call, r, t.before, t.after)
  | .error _ => none

section History

variable {history : List (Commit D C R)} {turns : List (Turn D X C R)}
  (h : history.map (fun e => (e.call, e.result, e.before, e.after)) = turns.filterMap Turn.commit)
include h

/-- Every commit is a turn. -/
theorem mem_turns {e : Commit D C R} (he : e ∈ history) :
    ⟨e.call, .ok e.result, e.before, e.after⟩ ∈ turns := by
  have hmem : (e.call, e.result, e.before, e.after) ∈ turns.filterMap Turn.commit :=
    h ▸ List.mem_map.mpr ⟨e, he, rfl⟩
  obtain ⟨⟨c, answer, before, after⟩, ht, hcommit⟩ := List.mem_filterMap.mp hmem
  cases answer with
  | error x => cases hcommit
  | ok r =>
      simp only [Turn.commit, Option.some.injEq, Prod.mk.injEq] at hcommit
      obtain ⟨rfl, rfl, rfl, rfl⟩ := hcommit
      exact ht

/-- Every turn with a result is a commit. -/
theorem mem_history {c : C} {r : R} {before after : D} (ht : ⟨c, .ok r, before, after⟩ ∈ turns) :
    ∃ e ∈ history, e.call = c ∧ e.result = r ∧ e.before = before ∧ e.after = after := by
  have hmem : (c, r, before, after) ∈ history.map fun e => (e.call, e.result, e.before, e.after) :=
    h ▸ List.mem_filterMap.mpr ⟨_, ht, rfl⟩
  obtain ⟨e, he, heq⟩ := List.mem_map.mp hmem
  simp only [Prod.mk.injEq] at heq
  exact ⟨e, he, heq⟩

end History

/-- The state after the turns. -/
def lastState (db : D) (turns : List (Turn D X C R)) : D := turns.foldl (fun _ t => t.after) db

variable (app)

/-- Calls one after the other, each alone. -/
def sequence : List (C × (Nat → N)) → D → Option (List (Turn D X C R))
  | [], _ => some []
  | (c, envs) :: rest, db =>
      (app.alone c db envs).bind fun x =>
        (sequence rest x.2).map fun turns => ⟨c, x.1, db, x.2⟩ :: turns

variable {app}

/-- There is a turn for each call. -/
theorem sequence_calls : ∀ {calls : List (C × (Nat → N))} {db : D} {turns : List (Turn D X C R)},
    app.sequence calls db = some turns → turns.map Turn.call = calls.map Prod.fst := by
  intro calls
  induction calls with
  | nil =>
      intro db turns h
      simp only [sequence, Option.some.injEq] at h
      rw [← h]
      rfl
  | cons x rest ih =>
      intro db turns h
      obtain ⟨c, envs⟩ := x
      simp only [sequence, Option.bind_eq_some_iff, Option.map_eq_some_iff] at h
      obtain ⟨⟨a, db1⟩, -, turns, hrest, rfl⟩ := h
      rw [List.map_cons, List.map_cons, ih hrest]

/-- What a sequence of calls answers is a run. -/
theorem run_sequence {ok : Sys D N L E X C R → Label N E C → Prop}
    (hok : ∀ σ l, (∀ i, l = .commit i → Quiet σ i) → ok σ l) {db0 : D} :
    ∀ (calls : List (C × (Nat → N))) (σ : Sys D N L E X C R) (turns : List (Turn D X C R)),
      app.Run ok db0 σ → (∀ cs ∈ σ.calls, cs.2.held = []) →
      app.sequence calls σ.db = some turns →
      ∃ σ' commits, app.Run ok db0 σ' ∧ σ'.db = lastState σ.db turns ∧
        (∀ cs ∈ σ'.calls, cs.2.held = []) ∧
        σ'.calls = σ.calls ++ turns.map (fun t => (t.call, .done t.answer)) ∧
        σ'.history = σ.history ++ commits ∧
        commits.map (fun e => (e.call, e.result, e.before, e.after)) =
          turns.filterMap Turn.commit := by
  intro calls
  induction calls with
  | nil =>
      intro σ turns hrun hq h
      simp only [sequence, Option.some.injEq] at h
      subst h
      exact ⟨σ, [], hrun, rfl, hq, by simp, by simp, rfl⟩
  | cons x rest ih =>
      intro σ turns hrun hq h
      obtain ⟨c, envs⟩ := x
      simp only [sequence, Option.bind_eq_some_iff, Option.map_eq_some_iff] at h
      obtain ⟨⟨a, db1⟩, ha, turns, hrest, rfl⟩ := h
      obtain ⟨σ1, hrun1, hdb1, hcalls1, hok1, herror1⟩ := run_alone hok hrun hq ha
      have hq1 : ∀ cs ∈ σ1.calls, cs.2.held = [] := by
        intro cs hcs
        rw [hcalls1] at hcs
        rcases List.mem_append.mp hcs with hcs | hcs
        · exact hq cs hcs
        · rw [List.mem_singleton.mp hcs]
          rfl
      obtain ⟨σ2, commits, hrun2, hdb2, hq2, hcalls2, hhist2, hcommits⟩ :=
        ih σ1 turns hrun1 hq1 (hdb1 ▸ hrest)
      have hcalls : σ2.calls = σ.calls ++
          (⟨c, a, σ.db, db1⟩ :: turns).map fun t : Turn D X C R => (t.call, .done t.answer) := by
        rw [hcalls2, hcalls1]
        simp
      have hlast : σ2.db = lastState σ.db (⟨c, a, σ.db, db1⟩ :: turns) := by
        rw [hdb2, hdb1]
        rfl
      cases a with
      | ok r =>
          obtain ⟨seen, hhist1⟩ := hok1 r rfl
          refine ⟨σ2, ⟨σ.calls.length, c, r, seen, σ.db, db1⟩ :: commits, hrun2, hlast, hq2,
            hcalls, ?_, ?_⟩
          · rw [hhist2, hhist1]
            simp
          · simp [Turn.commit, hcommits]
      | error x =>
          refine ⟨σ2, commits, hrun2, hlast, hq2, hcalls, ?_, ?_⟩
          · rw [hhist2, herror1 x rfl]
          · rw [hcommits, List.filterMap_cons_none rfl]

end App

end Txn
