/-
  Kasir.Txn.Table

  Tables whose rows are updated in place, by bodies that run at Read Committed.

  An UPDATE locks the rows it hits and changes those.  In the log a change names
  the rows by their locks, because the log is applied to whatever is committed
  when the transaction commits.
-/

import Kasir.Txn.Logic

namespace Txn

variable {D N L E α ρ : Type}

-- ============================================================================
-- Tables
-- ============================================================================

/-- A table: its rows, how to change every row, and the lock of a row. -/
structure RowTable (D L ρ : Type) where
  rows : D → List ρ
  modify : (ρ → ρ) → D → D
  lock : ρ → L

namespace RowTable

variable [DecidableEq L] (table : RowTable D L ρ)

/-- The rows whose locks are in `hit` are changed. -/
def change (hit : List L) (f : ρ → ρ) (db : D) : D :=
  table.modify (fun r => if table.lock r ∈ hit then f r else r) db

/-- An UPDATE of the rows that satisfy `p`; it returns their number.  `marks` are
    left beside the locks. -/
def update (p : ρ → Bool) (marks : ρ → List L) (f : ρ → ρ) : Prog D N L E Nat :=
  let hits := fun (v : View D N) => (table.rows v.snap).filter p
  Prog.stmt
    (fun v => (hits v).map table.lock ++ (hits v).flatMap marks)
    (fun v => table.change ((hits v).map table.lock) f)
    (fun v => .ret (hits v).length)

/-- The UPDATE of a serializable transaction whose snapshot shows the rows `shown`
    to satisfy its condition.  It breaks off with a serialization failure (`none`)
    if one of them has changed since, and may do so at any time. -/
def updateShown [DecidableEq ρ] (shown : List ρ) (marks : ρ → List L) (f : ρ → ρ)
    (fails : N → Bool) : Prog D N L E (Option Nat) :=
  let broken := fun (v : View D N) => fails v.env || !shown.all fun r => r ∈ table.rows v.snap
  Prog.stmt
    (fun v => if broken v then [] else shown.map table.lock ++ shown.flatMap marks)
    (fun v => if broken v then id else table.change (shown.map table.lock) f)
    (fun v => .ret (if broken v then none else some shown.length))

/-- An UPDATE that nobody else can disturb. -/
@[simp] theorem solo_update (db : D) (envs : Nat → N) (p : ρ → Bool) (marks : ρ → List L)
    (f : ρ → ρ) (n : Nat) (log : D → D) :
    (table.update p marks f : Prog D N L E Nat).solo db envs n log =
      ⟨n + 1, table.change (((table.rows (log db)).filter p).map table.lock) f ∘ log,
        .ok ((table.rows (log db)).filter p).length⟩ := rfl

end RowTable

-- ============================================================================
-- Rules
-- ============================================================================

/-- A transaction has come from `st`, with `db` committed, to `st'`, with `db'`
    committed, and has changed the database by `w`. -/
structure Since (P : Protocol D L) (w : D → D) (st : St D L) (db : D) (st' : St D L) (db' : D) :
    Prop where
  log : ∀ d, st'.log d = w (st.log d)
  held : st.held ⊆ st'.held
  seen : st.seen <+: st'.seen
  rely : P.Rely st.held db db'

namespace Since

variable {P : Protocol D L} {w w1 w2 : D → D} {st st1 st2 : St D L} {db db1 db2 : D}

theorem trans (h1 : Since P w1 st db st1 db1) (h2 : Since P w2 st1 db1 st2 db2) :
    Since P (w2 ∘ w1) st db st2 db2 where
  log d := by rw [h2.log, h1.log]; rfl
  held := fun _ h => h2.held (h1.held h)
  seen := h1.seen.trans h2.seen
  rely := h1.rely.trans (h2.rely.mono h1.held)

theorem inv (h : Since P w st db st1 db1) : P.Inv db1 := h.rely.inv

theorem same (h : Since P w st db st1 db1) {l : L} (hl : l ∈ st.held) : P.same l db db1 :=
  h.rely.same l hl

/-- What the transaction has written so far does not show before it commits. -/
theorem log_id (h : Since P id st db st1 db1) (hlog : ∀ d, st.log d = d) :
    ∀ d, st1.log d = d := fun d => by rw [h.log, hlog, id]

end Since

section Rules

variable {P : Protocol D L} {st : St D L} {db : D}

/-- A statement at Read Committed reads the latest committed state. -/
theorem wp_stmt_readCommitted {locks : View D N → List L} {write : View D N → D → D}
    {next : View D N → Prog D N L E α} {Q : α → St D L → D → Prop}
    (h : ∀ st' db' env, Since P (write ⟨st.log db', st.log db', env⟩) st db st' db' →
      st'.seen = st.seen ++ [db'] → locks ⟨st.log db', st.log db', env⟩ ⊆ st'.held →
      wp P .readCommitted (next ⟨st.log db', st.log db', env⟩) Q st' db') :
    wp P .readCommitted (.stmt locks write next) Q st db := by
  intro db' s env hs
  obtain rfl := hs.eq_of_readCommitted
  refine h _ s env ⟨fun _ => rfl, ?_, ?_, hs.rely⟩ rfl ?_
  · intro l hl
    exact List.mem_append_left _ hl
  · exact List.prefix_append ..
  · intro l hl
    exact List.mem_append_right _ hl

theorem wp_read_readCommitted {f : View D N → α} {Q : α → St D L → D → Prop}
    (h : ∀ st' db' env, Since P id st db st' db' → st'.seen = st.seen ++ [db'] →
      Q (f ⟨st.log db', st.log db', env⟩) st' db') :
    wp P .readCommitted (Prog.read f : Prog D N L E α) Q st db :=
  wp_stmt_readCommitted fun st' db' env hsince hseen _ => h st' db' env hsince hseen

variable [DecidableEq L] {table : RowTable D L ρ}

theorem RowTable.wp_update {p : ρ → Bool} {marks : ρ → List L} {f : ρ → ρ}
    {Q : Nat → St D L → D → Prop}
    (h : ∀ hits st' db', hits = (table.rows (st.log db')).filter p →
      Since P (table.change (hits.map table.lock) f) st db st' db' →
      st'.seen = st.seen ++ [db'] → hits.map table.lock ⊆ st'.held →
      hits.flatMap marks ⊆ st'.held → Q hits.length st' db') :
    wp P .readCommitted (table.update p marks f : Prog D N L E Nat) Q st db := by
  refine wp_stmt_readCommitted fun st' db' env hsince hseen hlocks => ?_
  refine h _ st' db' rfl hsince hseen ?_ ?_
  · intro l hl
    exact hlocks (List.mem_append_left _ hl)
  · intro l hl
    exact hlocks (List.mem_append_right _ hl)

theorem RowTable.wp_updateShown [DecidableEq ρ] {shown : List ρ} {marks : ρ → List L} {f : ρ → ρ}
    {fails : N → Bool} {Q : Option Nat → St D L → D → Prop}
    (hfail : ∀ st' db', Since P id st db st' db' → st'.seen = st.seen ++ [db'] → Q none st' db')
    (h : ∀ st' db', (∀ r ∈ shown, r ∈ table.rows (st.log db')) →
      Since P (table.change (shown.map table.lock) f) st db st' db' →
      st'.seen = st.seen ++ [db'] → shown.map table.lock ⊆ st'.held →
      shown.flatMap marks ⊆ st'.held → Q (some shown.length) st' db') :
    wp P .readCommitted (table.updateShown shown marks f fails : Prog D N L E (Option Nat))
      Q st db := by
  refine wp_stmt_readCommitted fun st' db' env hsince hseen hlocks => ?_
  simp only at hsince hlocks
  cases hbroken : (fails env || !shown.all fun r => r ∈ table.rows (st.log db')) with
  | true =>
      simp only [hbroken, if_true] at hsince
      simp only [wp_ret, hbroken, if_true]
      exact hfail st' db' hsince hseen
  | false =>
      simp only [hbroken, Bool.false_eq_true, if_false] at hsince hlocks
      simp only [wp_ret, hbroken, Bool.false_eq_true, if_false]
      have hshown : ∀ r ∈ shown, r ∈ table.rows (st.log db') := by
        simpa using (Bool.or_eq_false_iff.mp hbroken).2
      refine h st' db' hshown hsince hseen ?_ ?_
      · intro l hl
        exact hlocks (List.mem_append_left _ hl)
      · intro l hl
        exact hlocks (List.mem_append_right _ hl)

end Rules

end Txn
