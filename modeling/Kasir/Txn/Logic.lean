/-
  Kasir.Txn.Logic

  A rely-guarantee logic for transaction bodies.

  A `Protocol` says what may happen to the committed state while a transaction
  runs: every commit lets the state evolve, and changes what a lock protects
  only if the committing transaction holds a lock that conflicts with it.
  `wp` is the weakest precondition of a body under that interference; `Commits`
  is the postcondition that makes the body's own commit a legitimate step of the
  protocol.
-/

import Kasir.Txn.System

namespace Txn

/-- What transactions may assume of, and owe to, each other. -/
structure Protocol (D L : Type) where
  /-- Holds of every committed state. -/
  Inv : D → Prop
  /-- What any number of commits may do to the state. -/
  evolves : D → D → Prop
  /-- What the lock protects is the same in both states. -/
  same : L → D → D → Prop
  /-- A holder of the first lock may change what the second one protects. -/
  conflicts : L → L → Prop
  evolves_refl : ∀ db, evolves db db
  evolves_trans : ∀ {a b c}, evolves a b → evolves b c → evolves a c
  same_refl : ∀ l db, same l db db
  same_trans : ∀ {l a b c}, same l a b → same l b c → same l a c

variable {D N L E X C R α β : Type}

namespace Protocol

variable (P : Protocol D L)

/-- What a transaction holding `held` may assume of the others' commits. -/
structure Rely (held : List L) (db db' : D) : Prop where
  inv : P.Inv db'
  evolves : P.evolves db db'
  same : ∀ l ∈ held, P.same l db db'

/-- What a transaction holding `held` owes to the others when it commits. -/
structure Guar (held : List L) (db db' : D) : Prop where
  inv : P.Inv db'
  evolves : P.evolves db db'
  owns : ∀ l, P.same l db db' ∨ ∃ l' ∈ held, P.conflicts l' l

variable {P}

theorem Rely.refl {held : List L} {db : D} (h : P.Inv db) : P.Rely held db db :=
  ⟨h, P.evolves_refl db, fun l _ => P.same_refl l db⟩

theorem Rely.trans {held : List L} {a b c : D} (h1 : P.Rely held a b) (h2 : P.Rely held b c) :
    P.Rely held a c :=
  ⟨h2.inv, P.evolves_trans h1.evolves h2.evolves,
    fun l hl => P.same_trans (h1.same l hl) (h2.same l hl)⟩

/-- Holding fewer locks, a transaction may assume less. -/
theorem Rely.mono {held held' : List L} {a b : D} (h : P.Rely held a b)
    (hsub : held' ⊆ held) : P.Rely held' a b :=
  ⟨h.inv, h.evolves, fun l hl => h.same l (hsub hl)⟩

/-- A commit is within what every transaction without conflicting locks assumes. -/
theorem Guar.rely {held held' : List L} {a b : D} (h : P.Guar held a b)
    (hcompat : ∀ l ∈ held, ∀ l' ∈ held', ¬ P.conflicts l l') : P.Rely held' a b := by
  refine ⟨h.inv, h.evolves, fun l hl => ?_⟩
  rcases h.owns l with hs | ⟨l', hl', hc⟩
  · exact hs
  · exact absurd hc (hcompat l' hl' l hl)

end Protocol

/-- The part of a running transaction that its body's correctness depends on. -/
structure St (D L : Type) where
  snap : Option D
  log : D → D
  held : List L
  seen : List D

/-- The state of a transaction that has not sent a statement yet. -/
def St.start : St D L := { snap := none, log := id, held := [], seen := [] }

@[simp] theorem St.start_log : (St.start : St D L).log = id := rfl

@[simp] theorem St.start_held : (St.start : St D L).held = [] := rfl

@[simp] theorem St.start_seen : (St.start : St D L).seen = [] := rfl

/-- The state after a statement that read from `s`. -/
def St.after (st : St D L) (s : D) (w : D → D) (locks : List L) : St D L :=
  { snap := some s, log := w ∘ st.log, held := st.held ++ locks, seen := st.seen ++ [s] }

section After

variable (st : St D L) (s : D) (w : D → D) (locks : List L)

@[simp] theorem St.after_snap : (st.after s w locks).snap = some s := rfl

@[simp] theorem St.after_log : (st.after s w locks).log = w ∘ st.log := rfl

@[simp] theorem St.after_held : (st.after s w locks).held = st.held ++ locks := rfl

@[simp] theorem St.after_seen : (st.after s w locks).seen = st.seen ++ [s] := rfl

end After

/-- What a statement may assume when it is sent: the committed state has moved
    on from `db` to `db'`, and reads are answered from `s`. -/
structure Sees (P : Protocol D L) (iso : Isolation) (st : St D L) (db db' s : D) : Prop where
  rely : P.Rely st.held db db'
  point : s = readPoint iso st.snap db'
  inv : P.Inv s
  old : P.evolves s db'

/-- At Read Committed a statement reads the latest committed state. -/
theorem Sees.eq_of_readCommitted {P : Protocol D L} {st : St D L} {db db' s : D}
    (h : Sees P .readCommitted st db db' s) : s = db' := h.point

/-- The weakest precondition of a body: whatever the other transactions commit
    between its statements, if it returns then `Q` holds of the result. -/
def wp (P : Protocol D L) (iso : Isolation) :
    Prog D N L E α → (α → St D L → D → Prop) → St D L → D → Prop
  | .ret a, Q, st, db => Q a st db
  | .throw _, _, _, _ => True
  | .stmt locks write next, Q, st, db =>
      ∀ db' s env, Sees P iso st db db' s →
        let v : View D N := ⟨st.log s, st.log db', env⟩
        wp P iso (next v) Q (st.after s (write v) (locks v)) db'

/-- The body may commit whenever the database admits the new state, the commit
    keeps the protocol, and `Post` holds of the result, the states read from and
    the states before and after. -/
def Commits (P : Protocol D L) (legal : D → Bool) (Post : R → List D → D → D → Prop)
    (r : R) (st : St D L) (db : D) : Prop :=
  ∀ db', P.Rely st.held db db' → legal (st.log db') = true →
    P.Guar st.held db' (st.log db') ∧ Post r st.seen db' (st.log db')

-- ============================================================================
-- Rules
-- ============================================================================

section Rules

variable {P : Protocol D L} {iso : Isolation} {st : St D L} {db : D}

@[simp] theorem wp_ret (a : α) (Q : α → St D L → D → Prop) :
    wp P iso (.ret a : Prog D N L E α) Q st db = Q a st db := rfl

@[simp] theorem wp_throw (e : E) (Q : α → St D L → D → Prop) :
    wp P iso (.throw e : Prog D N L E α) Q st db = True := rfl

theorem wp_bind (p : Prog D N L E α) (f : α → Prog D N L E β) (Q : β → St D L → D → Prop) :
    wp P iso (p >>= f) Q st db = wp P iso p (fun a st' db' => wp P iso (f a) Q st' db') st db := by
  induction p generalizing st db with
  | ret a => rfl
  | throw e => rfl
  | stmt locks write next ih =>
      simp only [Prog.stmt_bind, wp]
      refine propext (forall_congr' fun db' => forall_congr' fun s => forall_congr' fun env =>
        forall_congr' fun _ => ?_)
      rw [ih]

theorem wp_mono {p : Prog D N L E α} {Q Q' : α → St D L → D → Prop}
    (hQ : ∀ a st' db', Q a st' db' → Q' a st' db') (h : wp P iso p Q st db) :
    wp P iso p Q' st db := by
  induction p generalizing st db with
  | ret a => exact hQ _ _ _ h
  | throw e => trivial
  | stmt locks write next ih => exact fun db' s env hs => ih _ (h db' s env hs)

theorem wp_and {p : Prog D N L E α} {Q Q' : α → St D L → D → Prop} (h : wp P iso p Q st db)
    (h' : wp P iso p Q' st db) :
    wp P iso p (fun a st' db' => Q a st' db' ∧ Q' a st' db') st db := by
  induction p generalizing st db with
  | ret a => exact ⟨h, h'⟩
  | throw e => trivial
  | stmt locks write next ih => exact fun db' s env hs => ih _ (h db' s env hs) (h' db' s env hs)

/-- A precondition survives what other transactions commit. -/
theorem wp_rely {p : Prog D N L E α} {Q : α → St D L → D → Prop} {db' : D}
    (hQ : ∀ a st' d d', Q a st' d → P.Rely st'.held d d' → Q a st' d')
    (h : wp P iso p Q st db) (hr : P.Rely st.held db db') : wp P iso p Q st db' := by
  cases p with
  | ret a => exact hQ _ _ _ _ h hr
  | throw e => trivial
  | stmt locks write next =>
      exact fun d s env hs => h d s env ⟨hr.trans hs.rely, hs.point, hs.inv, hs.old⟩

theorem wp_guard {c : Bool} {e : E} {Q : Unit → St D L → D → Prop}
    (h : c = true → Q () st db) :
    wp P iso (Prog.guard c e : Prog D N L E Unit) Q st db := by
  cases c with
  | true => exact h rfl
  | false => trivial

theorem wp_require {o : Option α} {e : E} {Q : α → St D L → D → Prop}
    (h : ∀ a, o = some a → Q a st db) :
    wp P iso (Prog.require o e : Prog D N L E α) Q st db := by
  cases o with
  | some a => exact h a rfl
  | none => trivial

theorem wp_lift {x : Except E α} {Q : α → St D L → D → Prop}
    (h : ∀ a, x = .ok a → Q a st db) :
    wp P iso (Prog.lift x : Prog D N L E α) Q st db := by
  cases x with
  | ok a => exact h a rfl
  | error e => trivial

/-- The rule for loops: `I` relates the elements done so far, their results and
    the transaction's state, and is kept by each round. -/
theorem wp_each {f : α → Prog D N L E β} {as : List α} {Q : List β → St D L → D → Prop}
    (I : List α → List β → St D L → D → Prop)
    (hstep : ∀ done a rest bs st' db', as = done ++ a :: rest → I done bs st' db' →
      wp P iso (f a) (fun b st'' db'' => I (done ++ [a]) (bs ++ [b]) st'' db'') st' db')
    (hinit : I [] [] st db) (hpost : ∀ bs st' db', I as bs st' db' → Q bs st' db') :
    wp P iso (Prog.each f as) Q st db := by
  -- generalise over the prefix already done; the results so far are prepended at the end
  have key : ∀ (rest done : List α) (bs : List β) (st' : St D L) (db' : D),
      as = done ++ rest → I done bs st' db' →
      wp P iso (Prog.each f rest) (fun cs st'' db'' => Q (bs ++ cs) st'' db'') st' db' := by
    intro rest
    induction rest with
    | nil =>
        intro done bs st' db' hdone hI
        rw [List.append_nil] at hdone
        subst hdone
        simpa using hpost bs st' db' hI
    | cons a rest ih =>
        intro done bs st' db' hdone hI
        rw [Prog.each_cons, wp_bind]
        refine wp_mono ?_ (hstep done a rest bs st' db' hdone hI)
        intro b st'' db'' hI'
        rw [wp_bind]
        refine wp_mono ?_ (ih (done ++ [a]) (bs ++ [b]) st'' db'' (by simpa using hdone) hI')
        intro cs st3 db3 hQ
        simpa using hQ
  simpa using key as [] [] st db rfl hinit

end Rules

end Txn
