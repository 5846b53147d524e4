/-
  Kasir.Txn.Solo

  The logic of a body that runs alone.

  `Prog.solo` evaluates a body on a database that nobody else changes.  `Ends` says
  what holds of where it ends: `Q` of a result, `Err` of an error.  Unlike `wpe`, it
  decides which of the two it is, so it also shows that a body must fail.
-/

import Kasir.Txn.ReadOnly
import Kasir.Txn.Alone

namespace Txn

variable {D N L E α β : Type}

-- ============================================================================
-- Which check fails
-- ============================================================================

namespace Checked

variable {ε : Type}

/-- A list of checks fails with the first one that fails. -/
theorem forM_error_iff {f : α → Except ε Unit} {xs : List α} {e : ε} :
    xs.forM f = .error e ↔ ∃ before x after, xs = before ++ x :: after ∧
      (∀ b ∈ before, f b = .ok ()) ∧ f x = .error e := by
  induction xs with
  | nil =>
      constructor
      · intro h
        cases h
      · rintro ⟨before, x, after, h, -⟩
        exact absurd h.symm (by simp)
  | cons y ys ih =>
      show (f y >>= fun _ => ys.forM f) = .error e ↔ _
      cases hy : f y with
      | error e' =>
          constructor
          · intro h
            have he : e' = e := Except.error.inj h
            exact ⟨[], y, ys, rfl, fun _ hb => (nomatch hb), he ▸ hy⟩
          · rintro ⟨before, x, after, h, hbefore, hx⟩
            cases before with
            | nil =>
                obtain ⟨rfl, rfl⟩ := List.cons.inj h
                exact hy.symm.trans hx
            | cons b bs =>
                obtain ⟨rfl, -⟩ := List.cons.inj h
                have hb := hbefore y (List.mem_cons_self ..)
                rw [hy] at hb
                cases hb
      | ok u =>
          constructor
          · intro h
            obtain ⟨before, x, after, rfl, hbefore, hx⟩ := ih.mp h
            refine ⟨y :: before, x, after, rfl, fun b hb => ?_, hx⟩
            rcases List.mem_cons.mp hb with rfl | hb
            · exact hy
            · exact hbefore b hb
          · rintro ⟨before, x, after, h, hbefore, hx⟩
            cases before with
            | nil =>
                obtain ⟨rfl, -⟩ := List.cons.inj h
                rw [hy] at hx
                cases hx
            | cons b bs =>
                obtain ⟨-, rfl⟩ := List.cons.inj h
                exact ih.mpr ⟨bs, x, after, rfl,
                  fun b' hb' => hbefore b' (List.mem_cons_of_mem _ hb'), hx⟩

/-- The errors of a computation are among these. -/
def Fails (Err : ε → Prop) (x : Except ε α) : Prop := ∀ e, x = .error e → Err e

section Fails

variable {Err : ε → Prop}

theorem fails_ok (a : α) : Fails Err (.ok a : Except ε α) := fun _ h => nomatch h

theorem fails_error {e : ε} (h : Err e) : Fails Err (.error e : Except ε α) :=
  fun _ he => Except.error.inj he ▸ h

theorem Fails.bind {x : Except ε α} {f : α → Except ε β} (hx : Fails Err x)
    (hf : ∀ a, Fails Err (f a)) : Fails Err (x >>= f) := by
  cases x with
  | error e => exact fails_error (hx e rfl)
  | ok a => exact hf a

theorem fails_mapM {f : α → Except ε β} {xs : List α} (h : ∀ x ∈ xs, Fails Err (f x)) :
    Fails Err (xs.mapM f) := by
  induction xs with
  | nil =>
      rw [List.mapM_nil]
      exact fails_ok []
  | cons x xs ih =>
      rw [List.mapM_cons]
      apply (h x (List.mem_cons_self ..)).bind
      intro y
      apply (ih fun z hz => h z (List.mem_cons_of_mem _ hz)).bind
      intro ys
      exact fails_ok _

theorem fails_forM {f : α → Except ε Unit} {xs : List α} (h : ∀ x ∈ xs, Fails Err (f x)) :
    Fails Err (xs.forM f) := by
  intro e he
  obtain ⟨x, hx, hfx⟩ := forM_error he
  exact h x hx e hfx

end Fails

end Checked

namespace Prog

-- ============================================================================
-- A body that asks
-- ============================================================================

/-- The body changes nothing, and whatever it reads, its errors are among these. -/
def Asks (Err : E → Prop) : Prog D N L E α → Prop
  | ret _ => True
  | throw e => Err e
  | stmt _ w next => ∀ v, w v = id ∧ (next v).Asks Err

section Asks

variable {Err : E → Prop}

theorem Asks.bind {p : Prog D N L E α} {f : α → Prog D N L E β} (hp : p.Asks Err)
    (hf : ∀ a, (f a).Asks Err) : (p >>= f).Asks Err := by
  induction p with
  | ret a => exact hf a
  | throw e => exact hp
  | stmt locks w next ih =>
      intro v
      exact ⟨(hp v).1, ih v (hp v).2⟩

theorem asks_lift {x : Except E α} (h : Checked.Fails Err x) :
    (lift x : Prog D N L E α).Asks Err := by
  cases x with
  | ok a => trivial
  | error e => exact h e rfl

theorem asks_guard {c : Bool} {e : E} (h : Err e) : (guard c e : Prog D N L E Unit).Asks Err := by
  cases c with
  | true => trivial
  | false => exact h

theorem asks_require {o : Option α} {e : E} (h : Err e) :
    (require o e : Prog D N L E α).Asks Err := by
  cases o with
  | some a => trivial
  | none => exact h

theorem asks_read (f : View D N → α) : (read f : Prog D N L E α).Asks Err :=
  fun _ => ⟨rfl, trivial⟩

end Asks

-- ============================================================================
-- Where a body ends
-- ============================================================================

/-- The body that runs alone ends in `Q` of its result and log, or in `Err` of its
    error. -/
def Ends (db : D) (envs : Nat → N) (p : Prog D N L E α) (n : Nat) (log : D → D)
    (Q : α → Nat → (D → D) → Prop) (Err : E → Prop) : Prop :=
  match p.solo db envs n log with
  | ⟨n', log', .ok a⟩ => Q a n' log'
  | ⟨_, _, .error e⟩ => Err e

section Ends

variable {db : D} {envs : Nat → N} {n : Nat} {log : D → D} {Err : E → Prop}

@[simp] theorem ends_ret {a : α} {Q : α → Nat → (D → D) → Prop} :
    Ends db envs (ret a : Prog D N L E α) n log Q Err ↔ Q a n log := Iff.rfl

@[simp] theorem ends_throw {e : E} {Q : α → Nat → (D → D) → Prop} :
    Ends db envs (throw e : Prog D N L E α) n log Q Err ↔ Err e := Iff.rfl

theorem ends_stmt {locks : View D N → List L} {w : View D N → D → D}
    {next : View D N → Prog D N L E α} {Q : α → Nat → (D → D) → Prop} :
    Ends db envs (stmt locks w next) n log Q Err ↔
      Ends db envs (next ⟨log db, log db, envs n⟩) (n + 1) (w ⟨log db, log db, envs n⟩ ∘ log) Q Err :=
  Iff.rfl

theorem ends_bind {p : Prog D N L E α} {f : α → Prog D N L E β} {Q : β → Nat → (D → D) → Prop} :
    Ends db envs (p >>= f) n log Q Err ↔
      Ends db envs p n log (fun a n' log' => Ends db envs (f a) n' log' Q Err) Err := by
  unfold Ends
  rw [solo_bind]
  rcases p.solo db envs n log with ⟨n', log', e | a⟩
  · exact Iff.rfl
  · exact Iff.rfl

theorem Ends.mono {p : Prog D N L E α} {Q Q' : α → Nat → (D → D) → Prop} {Err' : E → Prop}
    (h : Ends db envs p n log Q Err) (hQ : ∀ a n' log', Q a n' log' → Q' a n' log')
    (hErr : ∀ e, Err e → Err' e) : Ends db envs p n log Q' Err' := by
  unfold Ends at h ⊢
  generalize p.solo db envs n log = outcome at h ⊢
  obtain ⟨n', log', e | a⟩ := outcome
  · exact hErr e h
  · exact hQ a n' log' h

/-- What was found of a body with `solo`. -/
theorem ends_of_ok {p : Prog D N L E α} {Q : α → Nat → (D → D) → Prop} {a : α} {n' : Nat}
    {log' : D → D} (h : p.solo db envs n log = ⟨n', log', .ok a⟩) :
    Ends db envs p n log Q Err ↔ Q a n' log' := by
  unfold Ends
  rw [h]

theorem Asks.ends {p : Prog D N L E α} (h : p.Asks Err) :
    Ends db envs p n log (fun _ _ log' => log' = log) Err := by
  induction p generalizing n log with
  | ret a => rfl
  | throw e => exact h
  | stmt locks w next ih =>
      have hrest := @ih ⟨log db, log db, envs n⟩ (n + 1) (w ⟨log db, log db, envs n⟩ ∘ log)
        (h ⟨log db, log db, envs n⟩).2
      rw [ends_stmt]
      apply hrest.mono
      · intro a n' log' hlog
        rw [hlog, (h ⟨log db, log db, envs n⟩).1]
        rfl
      · exact fun e he => he

end Ends

end Prog

-- ============================================================================
-- A call that runs alone
-- ============================================================================

namespace App

variable {C R X : Type} {app : App D N L E X C R} {c : C} {db : D} {envs : Nat → N}
  {Q : R → Nat → (D → D) → Prop} {Err : E → Prop}

/-- A call that is not let in changes nothing. -/
theorem alone_of_precheck {x : X} (hpre : app.precheck c = some x) :
    app.alone c db envs = some (.error x, db) := by
  unfold alone
  rw [hpre]

variable (hpre : app.precheck c = none)
  (h : Prog.Ends db envs (app.body c) 0 id Q Err)
include hpre h

/-- A call that fails is answered from an error of its body and changes nothing. -/
theorem alone_error {x : X} {db' : D} (halone : app.alone c db envs = some (.error x, db')) :
    db' = db ∧ ∃ e, Err e ∧ app.handle c 0 e = some x := by
  unfold alone at halone
  rw [hpre] at halone
  unfold Prog.Ends at h
  rcases hsolo : (app.body c).solo db envs 0 id with ⟨n, log, e | r⟩
  · rw [hsolo] at halone h
    obtain ⟨y, hy, heq⟩ := Option.map_eq_some_iff.mp halone
    obtain ⟨hx, hdb⟩ := Prod.mk.inj heq
    obtain rfl := Except.error.inj hx
    exact ⟨hdb.symm, e, h, hy⟩
  · rw [hsolo] at halone
    simp only at halone
    split at halone
    · cases (Prod.mk.inj (Option.some.inj halone)).1
    · cases halone

/-- A call that succeeds is answered from what its body ends with. -/
theorem alone_ok {r : R} {db' : D} (halone : app.alone c db envs = some (.ok r, db')) :
    ∃ n log, Q r n log ∧ db' = log db := by
  unfold alone at halone
  rw [hpre] at halone
  unfold Prog.Ends at h
  rcases hsolo : (app.body c).solo db envs 0 id with ⟨n, log, e | r'⟩
  · rw [hsolo] at halone
    obtain ⟨y, -, heq⟩ := Option.map_eq_some_iff.mp halone
    cases (Prod.mk.inj heq).1
  · rw [hsolo] at halone h
    simp only at halone
    split at halone
    · obtain ⟨hr, hdb⟩ := Prod.mk.inj (Option.some.inj halone)
      obtain rfl := Except.ok.inj hr
      exact ⟨n, log, h, hdb.symm⟩
    · cases halone

/-- A body that must fail answers the call with an error. -/
theorem alone_of_fails (hno : ∀ r n log, ¬ Q r n log) {x : X}
    (hx : ∀ e, Err e → app.handle c 0 e = some x) :
    app.alone c db envs = some (.error x, db) := by
  unfold Prog.Ends at h
  rcases hsolo : (app.body c).solo db envs 0 id with ⟨n, log, e | r⟩
  · rw [hsolo] at h
    exact alone_of_solo_error hpre hsolo (hx e h)
  · rw [hsolo] at h
    exact absurd h (hno r n log)

end App

end Txn
