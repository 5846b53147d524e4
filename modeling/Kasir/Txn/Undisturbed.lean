/-
  Kasir.Txn.Undisturbed

  A call that nobody disturbs, step by step.

  `App.alone` evaluates a call in one go.  Here a call takes its own steps in the
  system while no other call takes any; the database may break its transaction off, and
  the call may try again.  It is answered with a result exactly as `alone` computes it,
  and with an error it changes nothing.
-/

import Kasir.Txn.Alone
import Kasir.Txn.Soundness

namespace Txn

variable {D N L E X C R : Type}

/-- A step of the `i`-th call.  The database breaks it off only if `F`. -/
def Label.ownedBy (F : Prop) (i : Nat) : Label N E C → Prop
  | .call _ => False
  | .stmt j _ | .commit j | .abort j => j = i
  | .fault j _ => j = i ∧ F

/-- The values drawn so far, before any later ones. -/
def Draws (drawn : List N) (envs : Nat → N) : Prop :=
  ∀ m x, drawn[m]? = some x → envs m = x

theorem draws_snoc {drawn : List N} {x : N} {envs : Nat → N} (h : Draws (drawn ++ [x]) envs) :
    Draws drawn envs ∧ envs drawn.length = x := by
  constructor
  · intro m y hm
    apply h m y
    obtain ⟨hlt, -⟩ := List.getElem?_eq_some_iff.mp hm
    rw [List.getElem?_append_left hlt, hm]
  · apply h
    rw [List.getElem?_append_right (Nat.le_refl _), Nat.sub_self]
    rfl

theorem exists_draws [Nonempty N] (drawn : List N) : ∃ envs, Draws drawn envs := by
  obtain ⟨x⟩ := ‹Nonempty N›
  refine ⟨fun m => drawn.getD m x, fun m y hm => ?_⟩
  show drawn.getD m x = y
  rw [List.getD_eq_getElem?_getD, hm]
  rfl

/-- The transaction has read nothing but `d`, and what is left of it ends as the whole
    body does alone. -/
structure Tx.Undisturbed (p : Prog D N L E R) (d : D) (tx : Tx D N L E R) : Prop where
  snap : tx.snap = none ∨ tx.snap = some d
  rest : ∃ drawn, ∀ envs, Draws drawn envs →
    p.solo d envs 0 id = tx.prog.solo d envs drawn.length tx.log

theorem Tx.undisturbed_start (p : Prog D N L E R) (d : D) : (Tx.start p).Undisturbed p d where
  snap := Or.inl rfl
  rest := ⟨[], fun _ _ => rfl⟩

/-- One more statement. -/
theorem Tx.Undisturbed.stmt {p : Prog D N L E R} {d s : D} {tx : Tx D N L E R} {iso : Isolation}
    (h : tx.Undisturbed p d) {locks : View D N → List L} {write : View D N → D → D}
    {next : View D N → Prog D N L E R} (hp : tx.prog = .stmt locks write next)
    (hs : s = readPoint iso tx.snap d) {env : N} {v : View D N}
    (hv : v = ⟨tx.log s, tx.log d, env⟩) (held : List L) (seen : List D) :
    ({ prog := next v, snap := some s, log := write v ∘ tx.log, held := held, seen := seen } :
      Tx D N L E R).Undisturbed p d := by
  have hd : s = d := by
    rw [hs]
    rcases h.snap with hsnap | hsnap
    · rw [hsnap]
      cases iso <;> rfl
    · rw [hsnap]
      cases iso <;> rfl
  subst hd
  obtain ⟨drawn, hrest⟩ := h.rest
  refine ⟨Or.inr rfl, drawn ++ [env], fun envs hdraws => ?_⟩
  obtain ⟨hbefore, hnow⟩ := draws_snoc hdraws
  rw [hrest envs hbefore, hp, List.length_append, List.length_singleton]
  show Prog.solo s envs (next ⟨tx.log s, tx.log s, envs drawn.length⟩) _ _ = _
  rw [hnow, hv]

namespace App

variable (app : App D N L E X C R) (F : Prop)

/-- The call is refused before a transaction opens, or its transaction fails when it is
    made alone. -/
def FailsAlone (c : C) (d : D) : Prop :=
  (∃ x, app.precheck c = some x) ∨
    ∃ envs n log e, (app.body c).solo d envs 0 id = ⟨n, log, .error e⟩

/-- How far a call has come that nobody disturbs since the state was `d`. -/
def Progress (c : C) (d db : D) : CallState D N L E X R → Prop
  | .active _ tx => db = d ∧ app.precheck c = none ∧ tx.Undisturbed (app.body c) d
  | .done (.ok r) => ∃ envs, app.alone c d envs = some (.ok r, db)
  | .done (.error _) => db = d ∧ (F ∨ app.FailsAlone c d)

variable {app F} {c : C} {d db : D}

theorem progress_enter : app.Progress F c d d (app.enter c) := by
  unfold enter
  cases hpre : app.precheck c with
  | some x => exact ⟨rfl, Or.inr (Or.inl ⟨x, hpre⟩)⟩
  | none => exact ⟨rfl, hpre, Tx.undisturbed_start _ _⟩

/-- A call whose attempt has failed has changed nothing, and may begin again. -/
theorem progress_recover (hpre : app.precheck c = none) {n : Nat} {e : E}
    (h : F ∨ app.FailsAlone c d) : app.Progress F c d d (app.recover c n e) := by
  unfold recover
  cases app.handle c n e with
  | some x => exact ⟨rfl, h⟩
  | none => exact ⟨rfl, hpre, Tx.undisturbed_start _ _⟩

/-- A step of the call brings it on. -/
theorem Progress.step [Nonempty N] {σ σ' : Sys D N L E X C R} {l : Label N E C} {i : Nat}
    {cs : CallState D N L E X R} (hi : σ.calls[i]? = some (c, cs))
    (h : app.Progress F c d σ.db cs) (hstep : app.step σ l = some σ') (hl : l.ownedBy F i) :
    ∃ cs', σ'.calls = σ.calls.set i (c, cs') ∧ app.Progress F c d σ'.db cs' := by
  obtain ⟨c', rfl, -⟩ | ⟨j, env, c', n, tx, locks, write, next, s, v, rfl, hj, hp, hs, hv, -, rfl⟩ |
    ⟨j, c', n, tx, r, rfl, hj, hp, hlegal, rfl⟩ | ⟨j, c', n, tx, e, hlabel, hj, rfl⟩ :=
    app.step_cases hstep
  · exact hl.elim
  · obtain rfl : j = i := hl
    obtain ⟨rfl, rfl⟩ := Prod.mk.inj (Option.some.inj (hj.symm.trans hi))
    obtain ⟨hdb, hpre, htx⟩ := h
    subst hdb
    exact ⟨_, rfl, rfl, hpre, htx.stmt hp hs hv _ _⟩
  · obtain rfl : j = i := hl
    obtain ⟨rfl, rfl⟩ := Prod.mk.inj (Option.some.inj (hj.symm.trans hi))
    obtain ⟨hdb, hpre, htx⟩ := h
    subst hdb
    obtain ⟨drawn, hrest⟩ := htx.rest
    obtain ⟨envs, hdraws⟩ := exists_draws drawn
    have hsolo := hrest envs hdraws
    rw [hp] at hsolo
    exact ⟨_, rfl, envs, alone_of_solo_ok hpre hsolo hlegal⟩
  · have hji : j = i := by
      rcases hlabel with ⟨rfl, -⟩ | rfl
      · exact hl
      · exact hl.1
    subst hji
    obtain ⟨rfl, rfl⟩ := Prod.mk.inj (Option.some.inj (hj.symm.trans hi))
    obtain ⟨hdb, hpre, htx⟩ := h
    subst hdb
    refine ⟨_, rfl, progress_recover hpre ?_⟩
    rcases hlabel with ⟨rfl, hp⟩ | rfl
    · -- the body itself fails in this state
      obtain ⟨drawn, hrest⟩ := htx.rest
      obtain ⟨envs, hdraws⟩ := exists_draws drawn
      have hsolo := hrest envs hdraws
      rw [hp] at hsolo
      exact Or.inr (Or.inr ⟨envs, _, _, _, hsolo⟩)
    · exact Or.inl hl.2

-- ============================================================================
-- Errors
-- ============================================================================

/-- An error is answered before a transaction opens, or by the error handling. -/
theorem Run.refused {ok : Sys D N L E X C R → Label N E C → Prop} {db0 : D}
    {σ : Sys D N L E X C R} (h : app.Run ok db0 σ) {i : Nat} {x : X}
    (hi : σ.calls[i]? = some (c, .done (.error x))) :
    app.precheck c = some x ∨ ∃ n e, app.handle c n e = some x := by
  induction h with
  | init => cases hi
  | @step σ σ' l _ _ hstep ih =>
      obtain ⟨c', -, rfl⟩ | ⟨j, env, c', n, tx, locks, write, next, s, v, -, hj, -, -, -, -, rfl⟩ |
        ⟨j, c', n, tx, r, -, hj, -, -, rfl⟩ | ⟨j, c', n, tx, e, -, hj, rfl⟩ := app.step_cases hstep
      · have hget : (σ.calls ++ [(c', app.enter c')])[i]? = some (c, .done (.error x)) := hi
        rw [List.getElem?_append] at hget
        split at hget
        · exact ih hget
        · obtain ⟨rfl, henter⟩ := Prod.mk.inj (List.mem_singleton.mp (List.mem_of_getElem? hget))
          unfold enter at henter
          cases hpre : app.precheck c with
          | some y =>
              rw [hpre] at henter
              cases henter
              exact Or.inl rfl
          | none =>
              rw [hpre] at henter
              cases henter
      · have hget : (σ.calls.set j _)[i]? = some (c, .done (.error x)) := hi
        rw [getElem?_set_eq hj] at hget
        split at hget
        · cases hget
        · exact ih hget
      · have hget : (σ.calls.set j _)[i]? = some (c, .done (.error x)) := hi
        rw [getElem?_set_eq hj] at hget
        split at hget
        · cases hget
        · exact ih hget
      · have hget : (σ.calls.set j _)[i]? = some (c, .done (.error x)) := hi
        rw [getElem?_set_eq hj] at hget
        split at hget
        · obtain ⟨rfl, hrecover⟩ := Prod.mk.inj (Option.some.inj hget)
          unfold recover at hrecover
          cases hhandle : app.handle c' n e with
          | some y =>
              rw [hhandle] at hrecover
              cases hrecover
              exact Or.inr ⟨n, e, hhandle⟩
          | none =>
              rw [hhandle] at hrecover
              cases hrecover
        · exact ih hget

-- ============================================================================
-- Turns
-- ============================================================================

variable (app F)

/-- The turn is one that nobody disturbs. -/
def Fair (t : Turn D X C R) : Prop := app.Progress F t.call t.before t.after (.done t.answer)

/-- Every turn begins where the one before has ended. -/
def Linked (d : D) : List (Turn D X C R) → Prop
  | [] => True
  | t :: ts => t.before = d ∧ Linked t.after ts

variable {app F}

theorem linked_snoc {ts : List (Turn D X C R)} {t : Turn D X C R} :
    Linked d (ts ++ [t]) ↔ Linked d ts ∧ t.before = lastState d ts := by
  induction ts generalizing d with
  | nil =>
      show t.before = d ∧ True ↔ True ∧ t.before = d
      rw [and_true, true_and]
  | cons u ts ih =>
      show u.before = d ∧ Linked u.after (ts ++ [t]) ↔ (u.before = d ∧ Linked u.after ts) ∧ _
      rw [ih, and_assoc]
      rfl

theorem lastState_snoc (ts : List (Turn D X C R)) (t : Turn D X C R) :
    lastState d (ts ++ [t]) = t.after := by
  unfold lastState
  rw [List.foldl_append]
  rfl

/-- The turn has a result. -/
def Turn.succeeded (t : Turn D X C R) : Bool := t.answer.isOk

/-- **Only what succeeds counts.**  The calls that were answered with a result, made alone
    one after the other, are answered in the same way and lead to the same state. -/
theorem sequence_of_fair {ts : List (Turn D X C R)} (hlinked : Linked d ts)
    (hfair : ∀ t ∈ ts, app.Fair F t) :
    ∃ calls : List (C × (Nat → N)),
      calls.map Prod.fst = (ts.filter Turn.succeeded).map Turn.call ∧
      app.sequence calls d = some (ts.filter Turn.succeeded) ∧
      lastState d (ts.filter Turn.succeeded) = lastState d ts := by
  induction ts generalizing d with
  | nil => exact ⟨[], rfl, rfl, rfl⟩
  | cons t ts ih =>
      obtain ⟨rfl, hrest⟩ := hlinked
      obtain ⟨calls, hcalls, hseq, hlast⟩ := ih hrest fun u hu => hfair u (List.mem_cons_of_mem _ hu)
      have ht := hfair t (List.mem_cons_self ..)
      obtain ⟨c, answer, before, after⟩ := t
      cases answer with
      | error x =>
          -- the failed turn is left out and has changed nothing
          obtain ⟨hsame, -⟩ := ht
          dsimp only at hsame hrest hseq hlast ⊢
          subst hsame
          exact ⟨calls, hcalls, hseq, hlast⟩
      | ok r =>
          obtain ⟨envs, halone⟩ := ht
          dsimp only at halone hseq
          refine ⟨(c, envs) :: calls, ?_, ?_, ?_⟩
          · show c :: calls.map Prod.fst = c :: List.map Turn.call _
            rw [hcalls]
          · show (app.alone c before envs).bind _ = _
            rw [halone]
            show (app.sequence calls after).map _ = _
            rw [hseq]
            rfl
          · show lastState after _ = lastState after ts
            exact hlast

end App

end Txn
