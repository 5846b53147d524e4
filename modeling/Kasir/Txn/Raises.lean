/-
  Kasir.Txn.Raises

  The logic of bodies with errors.

  `wp` says nothing of a body that raises an error, because such a body leaves no
  trace in the database.  `wpe` adds what is to hold of the error, from which a call
  is answered.
-/

import Kasir.Txn.Soundness

namespace Txn

variable {D N L E X C R α β : Type}

/-- The weakest precondition of a body with errors: if it returns then `Q` holds
    of the result, and if it raises an error then `Err` holds of the error. -/
def wpe (P : Protocol D L) (iso : Isolation) (Err : E → Prop) :
    Prog D N L E α → (α → St D L → D → Prop) → St D L → D → Prop
  | .ret a, Q, st, db => Q a st db
  | .throw e, _, _, _ => Err e
  | .stmt locks write next, Q, st, db =>
      ∀ db' s env, Sees P iso st db db' s →
        let v : View D N := ⟨st.log s, st.log db', env⟩
        wpe P iso Err (next v) Q (st.after s (write v) (locks v)) db'

-- ============================================================================
-- Rules
-- ============================================================================

section Rules

variable {P : Protocol D L} {iso : Isolation} {Err : E → Prop} {st : St D L} {db : D}

@[simp] theorem wpe_ret (a : α) (Q : α → St D L → D → Prop) :
    wpe P iso Err (.ret a : Prog D N L E α) Q st db = Q a st db := rfl

@[simp] theorem wpe_throw (e : E) (Q : α → St D L → D → Prop) :
    wpe P iso Err (.throw e : Prog D N L E α) Q st db = Err e := rfl

theorem wpe_bind (p : Prog D N L E α) (f : α → Prog D N L E β) (Q : β → St D L → D → Prop) :
    wpe P iso Err (p >>= f) Q st db =
      wpe P iso Err p (fun a st' db' => wpe P iso Err (f a) Q st' db') st db := by
  induction p generalizing st db with
  | ret a => rfl
  | throw e => rfl
  | stmt locks write next ih =>
      simp only [Prog.stmt_bind, wpe]
      refine propext (forall_congr' fun db' => forall_congr' fun s => forall_congr' fun env =>
        forall_congr' fun _ => ?_)
      rw [ih]

theorem wpe_mono {p : Prog D N L E α} {Q Q' : α → St D L → D → Prop}
    (hQ : ∀ a st' db', Q a st' db' → Q' a st' db') (h : wpe P iso Err p Q st db) :
    wpe P iso Err p Q' st db := by
  induction p generalizing st db with
  | ret a => exact hQ _ _ _ h
  | throw e => exact h
  | stmt locks write next ih => exact fun db' s env hs => ih _ (h db' s env hs)

/-- Where errors do not matter, the two logics agree. -/
theorem wp_of_wpe {p : Prog D N L E α} {Q : α → St D L → D → Prop}
    (h : wpe P iso Err p Q st db) : wp P iso p Q st db := by
  induction p generalizing st db with
  | ret a => exact h
  | throw e => trivial
  | stmt locks write next ih => exact fun db' s env hs => ih _ (h db' s env hs)

theorem wpe_guard {c : Bool} {e : E} {Q : Unit → St D L → D → Prop}
    (h : c = true → Q () st db) (herr : c = false → Err e) :
    wpe P iso Err (Prog.guard c e : Prog D N L E Unit) Q st db := by
  cases c with
  | true => exact h rfl
  | false => exact herr rfl

theorem wpe_lift {x : Except E α} {Q : α → St D L → D → Prop}
    (h : ∀ a, x = .ok a → Q a st db) (herr : ∀ e, x = .error e → Err e) :
    wpe P iso Err (Prog.lift x : Prog D N L E α) Q st db := by
  cases x with
  | ok a => exact h a rfl
  | error e => exact herr e rfl

/-- A body about whose errors nothing is claimed. -/
theorem wpe_of_any {p : Prog D N L E α} (h : ∀ e, Err e) :
    wpe P iso Err p (fun _ _ _ => True) st db := by
  induction p generalizing st db with
  | ret a => trivial
  | throw e => exact h e
  | stmt locks write next ih => exact fun db' s env _ => ih _

end Rules

end Txn
