/-
  Kasir.Txn.Reads

  What the statements of a call read, in the order in which they read it.

  A property of a call, of the states it has read and of the latest committed state
  holds of every call made from some state on, if each statement keeps it for its own
  call and each commit keeps it for the others.
-/

import Kasir.Txn.Later

namespace Txn

variable {D N L E X C R : Type}

/-- The calls from the `n0`-th on have read what `K` admits. -/
structure ReadsFrom (K : C → List D → D → Prop) (n0 : Nat) (σ : Sys D N L E X C R) : Prop where
  active : ∀ (i : Nat) (c : C) (n : Nat) (tx : Tx D N L E R), n0 ≤ i →
    σ.calls[i]? = some (c, .active n tx) → K c tx.seen σ.db
  committed : ∀ e ∈ σ.history, n0 ≤ e.pid → K e.call e.seen e.before

section Steps

variable {app : App D N L E X C R} {ok : Sys D N L E X C R → Label N E C → Prop}
  {K : C → List D → D → Prop} {n0 : Nat} {σ σ0 : Sys D N L E X C R}

/-- One call goes on, the others stay. -/
theorem ReadsFrom.set (h : ReadsFrom K n0 σ) {i : Nat} {c : C} {cs cs' : CallState D N L E X R}
    (hi : σ.calls[i]? = some (c, cs))
    (hactive : ∀ n tx, n0 ≤ i → cs' = .active n tx → K c tx.seen σ.db) :
    ReadsFrom K n0 { σ with calls := σ.calls.set i (c, cs') } := by
  refine ⟨fun j c1 n tx hj hget => ?_, h.committed⟩
  rw [getElem?_set_eq hi] at hget
  split at hget
  · rename_i hji
    obtain ⟨rfl, hcs⟩ := Prod.mk.inj (Option.some.inj hget)
    exact hactive n tx (hji ▸ hj) hcs
  · exact h.active j c1 n tx hj hget

/-- A call before its first statement has read nothing. -/
theorem Idle.seen_nil {cs : CallState D N L E X R} {c : C} (h : Idle cs app c) {n : Nat}
    {tx : Tx D N L E R} (hcs : cs = .active n tx) : tx.seen = [] := by
  obtain ⟨-, rfl⟩ := h.fresh n tx hcs
  rfl

/-- **What calls read.**  The induction is on the steps since `σ0`; only the calls made
    since then count. -/
theorem App.Steps.reads (hnil : ∀ c d, K c [] d)
    (hread : ∀ {σ : Sys D N L E X C R} {i : Nat} {env : N} {c : C} {n : Nat} {tx : Tx D N L E R},
      app.Steps ok σ0 σ → ok σ (.stmt i env) → σ.calls[i]? = some (c, .active n tx) →
      K c tx.seen σ.db → K c (tx.seen ++ [readPoint (app.iso c) tx.snap σ.db]) σ.db)
    (hkeep : ∀ {σ σ' : Sys D N L E X C R} {l : Label N E C}, app.Steps ok σ0 σ → ok σ l →
      app.step σ l = some σ' → ∀ c seen, K c seen σ.db → K c seen σ'.db)
    (hactive : ∀ (i : Nat) (c : C) (n : Nat) (tx : Tx D N L E R), n0 ≤ i →
      σ0.calls[i]? ≠ some (c, .active n tx))
    (hpids : ∀ e ∈ σ0.history, e.pid < n0) (h : app.Steps ok σ0 σ) : ReadsFrom K n0 σ := by
  induction h with
  | refl =>
      refine ⟨fun i c n tx hi hget => absurd hget (hactive i c n tx hi), fun e he hpid => ?_⟩
      have hlt := hpids e he
      omega
  | @step σ σ' l hsteps hl hstep ih =>
      obtain ⟨c, rfl, rfl⟩ | ⟨i, env, c, n, tx, locks, write, next, s, v, rfl, hi, -, hs, -, -, rfl⟩ |
        ⟨i, c, n, tx, r, rfl, hi, -, -, rfl⟩ | ⟨i, c, n, tx, e, -, hi, rfl⟩ := app.step_cases hstep
      · refine ⟨fun i c' n tx hi hget => ?_, ih.committed⟩
        rw [List.getElem?_append] at hget
        split at hget
        · exact ih.active i c' n tx hi hget
        · rw [List.getElem?_singleton] at hget
          split at hget
          · obtain ⟨rfl, hcs⟩ := Prod.mk.inj (Option.some.inj hget)
            rw [(idle_enter c).seen_nil hcs]
            exact hnil _ _
          · cases hget
      · refine ih.set hi fun n' tx' hn hcs => ?_
        cases hcs
        rw [hs]
        exact hread hsteps hl hi (ih.active i c n tx hn hi)
      · refine ⟨fun j c' n' tx' hj hget => ?_, fun e he hpid => ?_⟩
        · have hget' : σ.calls[j]? = some (c', .active n' tx') := by
            rw [getElem?_set_eq hi] at hget
            split at hget
            · cases hget
            · exact hget
          exact hkeep hsteps hl hstep c' tx'.seen (ih.active j c' n' tx' hj hget')
        · rcases List.mem_append.mp he with he | he
          · exact ih.committed e he hpid
          · obtain rfl := List.mem_singleton.mp he
            exact ih.active i c n tx hpid hi
      · refine ih.set hi fun n' tx' _ hcs => ?_
        unfold App.recover at hcs
        cases hhandle : app.handle c n e with
        | some x =>
            rw [hhandle] at hcs
            cases hcs
        | none =>
            rw [hhandle] at hcs
            cases hcs
            exact hnil _ _

end Steps

end Txn
