/-
  Kasir.Txn.Later

  Calls that are made from some state on.

  A guarantee may begin in the middle of a run: once something has been recorded,
  every later call is answered in one way.  From that state on all committed states
  have a property `J`, which the bodies of the later calls may rely on.  What `wpe`
  says of their bodies holds of their answers, in any interleaving
  (`Steps.settled`), and of a call that runs alone (`alone_of_wpe`).
-/

import Kasir.Txn.Raises
import Kasir.Txn.Alone

namespace Txn

variable {D N L E X C R α : Type}

-- ============================================================================
-- From one state to another
-- ============================================================================

/-- The states reached from a state by steps that satisfy `ok`. -/
inductive App.Steps (app : App D N L E X C R)
    (ok : Sys D N L E X C R → Label N E C → Prop) (σ0 : Sys D N L E X C R) :
    Sys D N L E X C R → Prop
  | refl : Steps app ok σ0 σ0
  | step {σ σ' : Sys D N L E X C R} {l : Label N E C} :
      Steps app ok σ0 σ → ok σ l → app.step σ l = some σ' → Steps app ok σ0 σ'

/-- The step leads to a committed state with the property. -/
def App.Into (app : App D N L E X C R) (J : D → Prop) (σ : Sys D N L E X C R)
    (l : Label N E C) : Prop :=
  ∀ σ', app.step σ l = some σ' → J σ'.db

section Steps

variable {app : App D N L E X C R} {ok ok' : Sys D N L E X C R → Label N E C → Prop} {db0 : D}
  {σ0 σ : Sys D N L E X C R}

/-- A run goes on. -/
theorem App.Steps.run (h : app.Steps ok σ0 σ) (hok : ∀ σ l, ok σ l → ok' σ l)
    (h0 : app.Run ok' db0 σ0) : app.Run ok' db0 σ := by
  induction h with
  | refl => exact h0
  | step _ hl hstep ih => exact ih.step (hok _ _ hl) hstep

/-- What every step leads to holds from the start. -/
theorem App.Steps.holds {J : D → Prop} (h : app.Steps ok σ0 σ)
    (hok : ∀ σ l, ok σ l → app.Into J σ l) (h0 : J σ0.db) : J σ.db := by
  cases h with
  | refl => exact h0
  | step _ hl hstep => exact hok _ _ hl _ hstep

/-- A run is made of the steps from its beginning. -/
theorem App.Run.steps (h : app.Run ok db0 σ) : app.Steps ok (Sys.init db0) σ := by
  induction h with
  | init => exact .refl
  | step _ hl hstep ih => exact ih.step hl hstep

/-- A step adds to the history what it commits. -/
theorem App.grows_of_step {σ σ' : Sys D N L E X C R} {l : Label N E C}
    (h : app.step σ l = some σ') :
    ∃ es, σ'.history = σ.history ++ es ∧ σ'.db ∈ states σ.db es := by
  have hnone : σ.history = σ.history ++ [] ∧ σ.db ∈ states σ.db ([] : List (Commit D C R)) :=
    ⟨(List.append_nil _).symm, List.mem_cons_self ..⟩
  obtain ⟨c, -, rfl⟩ | ⟨i, env, c, n, tx, locks, write, next, s, v, -, -, -, -, -, -, rfl⟩ |
    ⟨i, c, n, tx, r, -, -, -, -, rfl⟩ | ⟨i, c, n, tx, e, -, -, rfl⟩ := app.step_cases h
  · exact ⟨[], hnone⟩
  · exact ⟨[], hnone⟩
  · exact ⟨_, rfl, List.mem_cons_of_mem _ (List.mem_cons_self ..)⟩
  · exact ⟨[], hnone⟩

/-- Steps add to the history what they commit. -/
theorem App.Steps.grows (h : app.Steps ok σ0 σ) :
    ∃ es, σ.history = σ0.history ++ es ∧ σ.db ∈ states σ0.db es := by
  induction h with
  | refl => exact ⟨[], (List.append_nil _).symm, List.mem_cons_self ..⟩
  | @step σ σ' l _ _ hstep ih =>
      obtain ⟨es, hes, hdb⟩ := ih
      obtain ⟨es', hes', hdb'⟩ := App.grows_of_step hstep
      refine ⟨es ++ es', by rw [hes', hes, List.append_assoc], ?_⟩
      rcases Txn.mem_states.mp hdb' with heq | ⟨e, he, heq⟩
      · rw [heq]
        exact states_mono hdb
      · exact Txn.mem_states.mpr (Or.inr ⟨e, List.mem_append_right _ he, heq⟩)

/-- What is committed stays in the history. -/
theorem App.Steps.history (h : app.Steps ok σ0 σ) : ∀ e ∈ σ0.history, e ∈ σ.history := by
  obtain ⟨es, hes, -⟩ := h.grows
  intro e he
  rw [hes]
  exact List.mem_append_left _ he

/-- What holds of all states since the first one holds of what every step leads to. -/
theorem App.Steps.into {J : D → Prop} (h : app.Steps ok σ0 σ)
    (hJ : ∀ s ∈ states σ0.db (σ.history.drop σ0.history.length), J s) :
    app.Steps (fun σ l => ok σ l ∧ app.Into J σ l) σ0 σ := by
  induction h with
  | refl => exact .refl
  | @step σ σ' l hsteps hl hstep ih =>
      obtain ⟨es, hes, -⟩ := hsteps.grows
      obtain ⟨es', hes', hdb⟩ := (hsteps.step hl hstep).grows
      obtain ⟨es1, hes1, -⟩ := App.grows_of_step hstep
      refine (ih fun s hs => hJ s ?_).step ⟨hl, fun σ'' hstep' => ?_⟩ hstep
      · rw [hes1, hes, List.append_assoc, List.drop_left]
        rw [hes, List.drop_left] at hs
        exact states_mono hs
      · obtain rfl := Option.some.inj (hstep.symm.trans hstep')
        refine hJ _ ?_
        rw [hes', List.drop_left]
        exact hdb

/-- The state the steps start from is one of the committed states. -/
theorem App.Steps.mem_states {P : Protocol D L} {Post : C → R → List D → D → D → Prop}
    (h : app.Steps ok σ0 σ) (h0 : Sound app P Post db0 σ0) : σ0.db ∈ states db0 σ.history := by
  rcases Txn.mem_states.mp h0.chain.mem_states with heq | ⟨e, he, heq⟩
  · exact Txn.mem_states.mpr (Or.inl heq)
  · exact Txn.mem_states.mpr (Or.inr ⟨e, h.history e he, heq⟩)

end Steps

-- ============================================================================
-- Bodies that rely on more
-- ============================================================================

/-- The protocol among states that satisfy `J`. -/
def Protocol.during (P : Protocol D L) (J : D → Prop) : Protocol D L :=
  { P with Inv := fun db => P.Inv db ∧ J db }

theorem Sees.of_during {P : Protocol D L} {J : D → Prop} {iso : Isolation} {st : St D L}
    {db db' s : D} (h : Sees (P.during J) iso st db db' s) : Sees P iso st db db' s :=
  ⟨⟨h.rely.inv.1, h.rely.evolves, h.rely.same⟩, h.point, h.inv.1, h.old⟩

/-- What holds among states with a property holds among all, if all have it. -/
theorem wp_of_during {P : Protocol D L} {J : D → Prop} {iso : Isolation} {Err : E → Prop}
    {p : Prog D N L E α} {Q : α → St D L → D → Prop} {st : St D L} {db : D} (hJ : ∀ d, J d)
    (h : wpe (P.during J) iso Err p Q st db) : wp P iso p Q st db := by
  induction p generalizing st db with
  | ret a => exact h
  | throw e => trivial
  | stmt locks write next ih =>
      intro db' s env hs
      have hrely : (P.during J).Rely st.held db db' :=
        ⟨⟨hs.rely.inv, hJ db'⟩, hs.rely.evolves, hs.rely.same⟩
      exact ih _ (h db' s env ⟨hrely, hs.point, ⟨hs.inv, hJ s⟩, hs.old⟩)

/-- A read of a body that has written nothing is answered from some committed state. -/
theorem wpe_read_only {P : Protocol D L} {iso : Isolation} {Err : E → Prop} {f : View D N → α}
    {Q : α → St D L → D → Prop} {st : St D L} {db : D} (hlog : ∀ d, st.log d = d)
    (h : ∀ v : View D N, P.Inv v.snap → ∀ st' db', (∀ d, st'.log d = d) → Q (f v) st' db') :
    wpe P iso Err (Prog.read f) Q st db := by
  intro db' s env hs
  have hinv : P.Inv (st.log s) := by
    rw [hlog]
    exact hs.inv
  exact h ⟨st.log s, st.log db', env⟩ hinv (st.after s id []) db' hlog

/-- The same, where the transaction keeps to the state it reads from first. -/
theorem wpe_read_first {P : Protocol D L} {iso : Isolation} {Err : E → Prop} {f : View D N → α}
    {Q : α → St D L → D → Prop} {st : St D L} {db : D} (hlog : ∀ d, st.log d = d)
    (h : ∀ v : View D N, P.Inv v.snap → ∀ st' db', st'.snap = some v.snap →
      (∀ d, st'.log d = d) → Q (f v) st' db') :
    wpe P iso Err (Prog.read f) Q st db := by
  intro db' s env hs
  have hinv : P.Inv (st.log s) := by
    rw [hlog]
    exact hs.inv
  refine h ⟨st.log s, st.log db', env⟩ hinv (st.after s id []) db' ?_ hlog
  show some s = some (st.log s)
  rw [hlog]

/-- A later read of a body that keeps to one state. -/
theorem wpe_read_again {P : Protocol D L} {iso : Isolation} {Err : E → Prop} {f : View D N → α}
    {Q : α → St D L → D → Prop} {st : St D L} {db s0 : D} (hiso : iso ≠ .readCommitted)
    (hsnap : st.snap = some s0) (hlog : ∀ d, st.log d = d)
    (h : ∀ v : View D N, v.snap = s0 → ∀ st' db', st'.snap = some s0 → (∀ d, st'.log d = d) →
      Q (f v) st' db') :
    wpe P iso Err (Prog.read f) Q st db := by
  intro db' s env hs
  have hpoint : s = s0 := by
    have heq := hs.point
    rw [hsnap] at heq
    unfold readPoint at heq
    cases iso with
    | readCommitted => exact absurd rfl hiso
    | repeatableRead => exact heq
    | serializable => exact heq
  subst hpoint
  exact h ⟨st.log s, st.log db', env⟩ (hlog s) (st.after s id []) db' rfl hlog

section Solo

variable {P : Protocol D L} {iso : Isolation} {Err : E → Prop} {db : D}

/-- What holds under any interference holds of a body that runs alone. -/
theorem solo_of_wpe {p : Prog D N L E α} {Q : α → St D L → D → Prop} {st : St D L}
    (h : wpe P iso Err p Q st db) (hinv : P.Inv db) (hsnap : st.snap = none ∨ st.snap = some db)
    (envs : Nat → N) (n : Nat) :
    (∃ n' a st', p.solo db envs n st.log = ⟨n', st'.log, .ok a⟩ ∧ Q a st' db) ∨
    ∃ n' log e, p.solo db envs n st.log = ⟨n', log, .error e⟩ ∧ Err e := by
  induction p generalizing st n with
  | ret a => exact Or.inl ⟨n, a, st, rfl, h⟩
  | throw e => exact Or.inr ⟨n, st.log, e, rfl, h⟩
  | stmt locks write next ih =>
      have hpoint : db = readPoint iso st.snap db := by
        rcases hsnap with hs | hs <;> rw [hs] <;> cases iso <;> rfl
      have hsees : Sees P iso st db db db :=
        ⟨.refl hinv, hpoint, hinv, P.evolves_refl db⟩
      exact ih _ (h db db (envs n) hsees) (Or.inr rfl) (n + 1)

/-- A call that runs alone is answered as its body says. -/
theorem App.alone_of_wpe (app : App D N L E X C R) {c : C} {Q : R → St D L → D → Prop}
    (hpre : app.precheck c = none)
    (h : wpe P (app.iso c) Err (app.body c) Q St.start db) (hinv : P.Inv db) (envs : Nat → N) :
    (∃ r st, Q r st db ∧
      (app.legal (st.log db) = true → app.alone c db envs = some (.ok r, st.log db))) ∨
    ∃ e, Err e ∧ app.alone c db envs = (app.handle c 0 e).map fun x => (.error x, db) := by
  have hsolo := solo_of_wpe h hinv (Or.inl rfl) envs 0
  unfold App.alone
  rw [hpre]
  rcases hsolo with ⟨n, r, st, heq, hQ⟩ | ⟨n, log, e, heq, hErr⟩
  · have heq' : (app.body c).solo db envs 0 id = ⟨n, st.log, .ok r⟩ := heq
    refine Or.inl ⟨r, st, hQ, fun hlegal => ?_⟩
    simp only [heq', hlegal, if_true]
  · have heq' : (app.body c).solo db envs 0 id = ⟨n, log, .error e⟩ := heq
    refine Or.inr ⟨e, hErr, ?_⟩
    simp only [heq']

end Solo

-- ============================================================================
-- The answers of later calls
-- ============================================================================

/-- What a body will return or raise does not depend on what others commit. -/
theorem wpe_later {P : Protocol D L} {iso : Isolation} {Err : E → Prop} {p : Prog D N L E α}
    {G : α → St D L → Prop} {st : St D L} {db db' : D}
    (h : wpe P iso Err p (fun a st' _ => G a st') st db)
    (hr : P.Rely st.held db db') : wpe P iso Err p (fun a st' _ => G a st') st db' := by
  cases p with
  | ret a => exact h
  | throw e => exact h
  | stmt locks write next =>
      exact fun d s env hs => h d s env ⟨hr.trans hs.rely, hs.point, hs.inv, hs.old⟩

section Settled

variable {app : App D N L E X C R} {P : Protocol D L} {Post : C → R → List D → D → D → Prop}
  {J : D → Prop} {Good : C → R → (D → D) → Prop} {Err : C → E → Prop} {n0 : Nat}

/-- The calls from the `n0`-th on: the running ones will commit what is good for them
    or raise what is listed, and the others have done so. -/
structure Settled (app : App D N L E X C R) (P : Protocol D L) (J : D → Prop)
    (Good : C → R → (D → D) → Prop) (Err : C → E → Prop) (n0 : Nat) (σ : Sys D N L E X C R) :
    Prop where
  active : ∀ (i : Nat) (c : C) (n : Nat) (tx : Tx D N L E R), n0 ≤ i →
    σ.calls[i]? = some (c, .active n tx) →
    wpe (P.during J) (app.iso c) (Err c) tx.prog (fun r st _ => Good c r st.log) tx.st σ.db ∧
      ∀ s, tx.snap = some s → J s
  committed : ∀ e ∈ σ.history, n0 ≤ e.pid →
    ∃ log, Good e.call e.result log ∧ e.after = log e.before
  failed : ∀ (i : Nat) (c : C) (x : X), n0 ≤ i → σ.calls[i]? = some (c, .done (.error x)) →
    app.precheck c = some x ∨ ∃ n e, Err c e ∧ app.handle c n e = some x

variable {σ : Sys D N L E X C R}

/-- One call goes from one state to another, the others stay. -/
theorem Settled.set (h : Settled app P J Good Err n0 σ) {i : Nat} {c : C}
    {cs cs' : CallState D N L E X R} (hi : σ.calls[i]? = some (c, cs))
    (hactive : ∀ n tx, n0 ≤ i → cs' = .active n tx →
      wpe (P.during J) (app.iso c) (Err c) tx.prog (fun r st _ => Good c r st.log) tx.st σ.db ∧
        ∀ s, tx.snap = some s → J s)
    (hfailed : ∀ x, n0 ≤ i → cs' = .done (.error x) →
      app.precheck c = some x ∨ ∃ n e, Err c e ∧ app.handle c n e = some x) :
    Settled app P J Good Err n0 { σ with calls := σ.calls.set i (c, cs') } := by
  refine ⟨fun j c1 n tx hj hget => ?_, h.committed, fun j c1 x hj hget => ?_⟩
  · rw [getElem?_set_eq hi] at hget
    split at hget
    · rename_i hji
      obtain ⟨rfl, hcs⟩ := Prod.mk.inj (Option.some.inj hget)
      exact hactive n tx (hji ▸ hj) hcs
    · exact h.active j c1 n tx hj hget
  · rw [getElem?_set_eq hi] at hget
    split at hget
    · rename_i hji
      obtain ⟨rfl, hcs⟩ := Prod.mk.inj (Option.some.inj hget)
      exact hfailed x (hji ▸ hj) hcs
    · exact h.failed j c1 x hj hget

/-- What others commit does not unsettle a call. -/
theorem Settled.commit (h : Settled app P J Good Err n0 σ) {e : Commit D C R}
    (hrely : ∀ (i : Nat) (c : C) (n : Nat) (tx : Tx D N L E R), n0 ≤ i →
      σ.calls[i]? = some (c, .active n tx) → (P.during J).Rely tx.held σ.db e.after)
    (hgood : n0 ≤ e.pid → ∃ log, Good e.call e.result log ∧ e.after = log e.before) :
    Settled app P J Good Err n0 ⟨e.after, σ.calls, σ.history ++ [e]⟩ := by
  refine ⟨fun i c n tx hi hget => ?_, fun e' he' hpid => ?_, h.failed⟩
  · obtain ⟨hwpe, hsnap⟩ := h.active i c n tx hi hget
    exact ⟨wpe_later hwpe (hrely i c n tx hi hget), hsnap⟩
  · rcases List.mem_append.mp he' with he' | he'
    · exact h.committed e' he' hpid
    · obtain rfl := List.mem_singleton.mp he'
      exact hgood hpid

/-- No call has been made from here on. -/
theorem settled_start (h : n0 = σ.calls.length) (hpids : ∀ e ∈ σ.history, e.pid < n0) :
    Settled app P J Good Err n0 σ := by
  have hnone : ∀ (i : Nat) (x : C × CallState D N L E X R), n0 ≤ i → σ.calls[i]? ≠ some x := by
    intro i x hi hget
    obtain ⟨hlt, -⟩ := List.getElem?_eq_some_iff.mp hget
    omega
  refine ⟨fun i c n tx hi hget => absurd hget (hnone i _ hi), fun e he hpid => ?_,
    fun i c x hi hget => absurd hget (hnone i _ hi)⟩
  have hlt := hpids e he
  omega

section Steps

variable (hbody : ∀ c, app.precheck c = none → ∀ db, (P.during J).Inv db →
  wpe (P.during J) (app.iso c) (Err c) (app.body c) (fun r st _ => Good c r st.log) St.start db)

include hbody in
/-- A call before its first statement. -/
theorem Idle.settled {cs : CallState D N L E X R} {c : C} {db : D} (h : Idle cs app c)
    (hinv : (P.during J).Inv db) {n : Nat} {tx : Tx D N L E R} (hcs : cs = .active n tx) :
    wpe (P.during J) (app.iso c) (Err c) tx.prog (fun r st _ => Good c r st.log) tx.st db ∧
      ∀ s, tx.snap = some s → J s := by
  obtain ⟨hpre, rfl⟩ := h.fresh n tx hcs
  exact ⟨hbody c hpre db hinv, fun s hs => nomatch hs⟩

include hbody in
theorem settled_call (h : Settled app P J Good Err n0 σ) (hinv : (P.during J).Inv σ.db) (c : C) :
    Settled app P J Good Err n0 { σ with calls := σ.calls ++ [(c, app.enter c)] } := by
  have hidle : Idle (app.enter c) app c := idle_enter c
  -- an index of the longer list is an old one or the new call
  have hget : ∀ (i : Nat) (x : C × CallState D N L E X R),
      (σ.calls ++ [(c, app.enter c)])[i]? = some x →
      σ.calls[i]? = some x ∨ x = (c, app.enter c) := by
    intro i x hi
    rw [List.getElem?_append] at hi
    split at hi
    · exact Or.inl hi
    · rw [List.getElem?_singleton] at hi
      split at hi
      · exact Or.inr (Option.some.inj hi).symm
      · cases hi
  refine ⟨fun i c' n tx hi hx => ?_, h.committed, fun i c' x hi hx => ?_⟩
  · rcases hget i _ hx with hx | hx
    · exact h.active i c' n tx hi hx
    · obtain ⟨rfl, hcs⟩ := Prod.mk.inj hx
      exact hidle.settled hbody hinv hcs.symm
  · rcases hget i _ hx with hx | hx
    · exact h.failed i c' x hi hx
    · obtain ⟨rfl, hcs⟩ := Prod.mk.inj hx
      unfold App.enter at hcs
      cases hpre : app.precheck c' with
      | some y =>
          rw [hpre] at hcs
          cases hcs
          exact Or.inl rfl
      | none =>
          rw [hpre] at hcs
          cases hcs

include hbody in
theorem settled_recover (h : Settled app P J Good Err n0 σ) (hinv : (P.during J).Inv σ.db) {i : Nat}
    {c : C} {n : Nat} {tx : Tx D N L E R} (hi : σ.calls[i]? = some (c, .active n tx))
    (hpre : app.precheck c = none) {e : E} (he : n0 ≤ i → Err c e) :
    Settled app P J Good Err n0 { σ with calls := σ.calls.set i (c, app.recover c n e) } := by
  have hidle := idle_recover hpre n e
  refine h.set hi (fun n' tx' _ hcs => hidle.settled hbody hinv hcs) fun x hn hcs => ?_
  unfold App.recover at hcs
  cases hhandle : app.handle c n e with
  | some y =>
      rw [hhandle] at hcs
      cases hcs
      exact Or.inr ⟨n, e, he hn, hhandle⟩
  | none =>
      rw [hhandle] at hcs
      cases hcs

include hbody in
/-- **Later calls.**  If from a state on every committed state satisfies `J`, then the
    calls made from then on are answered as their bodies say that rely on it. -/
theorem App.Steps.settled {ok ok' : Sys D N L E X C R → Label N E C → Prop} {db0 : D}
    {σ0 : Sys D N L E X C R}
    (hsound : ∀ {σ : Sys D N L E X C R}, app.Run ok' db0 σ → Sound app P Post db0 σ)
    (hcompat : ∀ (σ : Sys D N L E X C R) i c n tx, ok' σ (.commit i) →
      σ.calls[i]? = some (c, .active n tx) → ∀ j y, σ.calls[j]? = some y → j ≠ i →
      ∀ l ∈ tx.held, ∀ l' ∈ y.2.held, app.blocks l l' = false → ¬ P.conflicts l l')
    (hok : ∀ σ l, ok σ l → ok' σ l)
    (hfault : ∀ (σ : Sys D N L E X C R) i c n tx e, ok σ (.fault i e) → app.fault e = true →
      σ.calls[i]? = some (c, .active n tx) → Err c e)
    (hJ : ∀ {σ : Sys D N L E X C R}, app.Steps ok σ0 σ → J σ.db)
    (h0 : app.Run ok' db0 σ0) (h : app.Steps ok σ0 σ) :
    Settled app P J Good Err σ0.calls.length σ := by
  induction h with
  | refl =>
      refine settled_start rfl fun e he => ?_
      obtain ⟨hlt, -⟩ := List.getElem?_eq_some_iff.mp ((hsound h0).owner e he)
      exact hlt
  | @step σ σ' l hsteps hl hstep ih =>
      have hs := hsound (hsteps.run hok h0)
      have hinv : (P.during J).Inv σ.db := ⟨hs.inv, hJ hsteps⟩
      have hlater := hJ (hsteps.step hl hstep)
      obtain ⟨c, -, rfl⟩ | ⟨i, env, c, n, tx, locks, write, next, s, v, -, hi, hp, hpoint, hv, -, rfl⟩ |
        ⟨i, c, n, tx, r, rfl, hi, hp, hlegal, rfl⟩ | ⟨i, c, n, tx, e, hlabel, hi, rfl⟩ :=
        app.step_cases hstep
      · exact settled_call hbody ih hinv c
      · refine ih.set hi (fun n' tx' hn hcs => ?_) fun x _ hcs => by cases hcs
        cases hcs
        obtain ⟨hwpe, hsnap⟩ := ih.active i c n tx hn hi
        have hread := hs.readPoint hi hpoint
        -- the statement reads a state from here on
        have hJs : J s := by
          rw [hpoint]
          unfold readPoint
          cases hcase : tx.snap with
          | none => cases app.iso c <;> exact hinv.2
          | some s0 => cases app.iso c <;> first | exact hinv.2 | exact hsnap s0 hcase
        rw [hp] at hwpe
        subst hv
        refine ⟨hwpe σ.db s env ⟨.refl hinv, hpoint, ⟨hread.1, hJs⟩, hread.2.1⟩, fun s' hs' => ?_⟩
        obtain rfl := Option.some.inj hs'
        exact hJs
      · have hguar := (hs.guar_of_commit hi hp hlegal).1
        -- first the call is answered, then the others see the commit
        have hanswered : Settled app P J Good Err σ0.calls.length
            { σ with calls := σ.calls.set i (c, .done (.ok r)) } :=
          ih.set hi (fun n' tx' _ hcs => by cases hcs) fun x _ hcs => by cases hcs
        refine hanswered.commit (e := ⟨i, c, r, tx.seen, σ.db, tx.log σ.db⟩)
          (fun j c' n' tx' hj hget => ?_) fun hn => ?_
        · have hget' : σ.calls[j]? = some (c', .active n' tx') ∧ j ≠ i := by
            rw [getElem?_set_eq hi] at hget
            split at hget
            · cases hget
            · exact ⟨hget, ‹_›⟩
          have hrely : P.Rely tx'.held σ.db (tx.log σ.db) :=
            hguar.rely fun l hlx l' hly => hcompat σ i c n tx (hok _ _ hl) hi j _ hget'.1 hget'.2 l hlx
              l' hly (hs.exclusive i j _ _ (Ne.symm hget'.2) hi hget'.1 l hlx l' hly)
          exact ⟨⟨hrely.inv, hlater⟩, hrely.evolves, hrely.same⟩
        · have hwpe := (ih.active i c n tx hn hi).1
          rw [hp] at hwpe
          exact ⟨tx.log, hwpe, rfl⟩
      · refine settled_recover hbody ih hinv hi (hs.active i c n tx hi).admitted fun hn => ?_
        rcases hlabel with ⟨-, hp⟩ | rfl
        · have hwpe := (ih.active i c n tx hn hi).1
          rw [hp] at hwpe
          exact hwpe
        · refine hfault σ i c n tx e hl ?_ hi
          simp only [App.step, hi] at hstep
          split at hstep
          · assumption
          · cases hstep

end Steps

end Settled

end Txn
