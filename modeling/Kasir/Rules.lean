/-
  Kasir.Rules

  Proof rules for the database statements: what a body may rely on after it has
  sent one.
-/

import Kasir.Ownership
import Kasir.Txn.Later

namespace Kasir

open Txn

/-- A transaction has come from `st`, with `db` committed, to `st'`, with `db'`
    committed, and has changed the database by `w`. -/
structure Ran (R : Token → Prop) (w : Db → Db) (st : St Db Token) (db : Db)
    (st' : St Db Token) (db' : Db) : Prop where
  log : ∀ d, st'.log d = w (st.log d)
  held : st.held ⊆ st'.held
  seen : st.seen ⊆ st'.seen
  rely : (protocol R).Rely st.held db db'

namespace Ran

variable {R : Token → Prop} {w w1 w2 : Db → Db} {st st1 st2 : St Db Token} {db db1 db2 : Db}

theorem refl (h : Wf db) : Ran R id st db st db :=
  ⟨fun _ => rfl, fun _ h => h, fun _ h => h, .refl h⟩

theorem trans (h1 : Ran R w1 st db st1 db1) (h2 : Ran R w2 st1 db1 st2 db2) :
    Ran R (w2 ∘ w1) st db st2 db2 where
  log d := by rw [h2.log, h1.log]; rfl
  held := fun _ h => h2.held (h1.held h)
  seen := fun _ h => h2.seen (h1.seen h)
  rely := h1.rely.trans (h2.rely.mono h1.held)

theorem wf (h : Ran R w st db st1 db1) : Wf db1 := h.rely.inv

theorem evolves (h : Ran R w st db st1 db1) : Evolves db db1 := h.rely.evolves

theorem same (h : Ran R w st db st1 db1) {l : Token} (hl : l ∈ st.held) : Kasir.same R l db db1 :=
  h.rely.same l hl

end Ran

/-- A statement was answered from `s`. -/
structure ReadFrom (iso : Isolation) (st' : St Db Token) (db' s : Db) : Prop where
  seen : s ∈ st'.seen
  snap : st'.snap = some s
  wf : Wf s
  evolves : Evolves s db'
  now : iso = .readCommitted → s = db'

section Rules

variable {R : Token → Prop} {iso : Isolation} {st : St Db Token} {db : Db}

theorem ran_of_sees {db' s : Db} (h : Sees (protocol R) iso st db db' s) (w : Db → Db)
    (locks : List Token) :
    Ran R w st db (st.after s w locks) db' ∧ ReadFrom iso (st.after s w locks) db' s := by
  refine ⟨⟨fun _ => rfl, ?_, ?_, h.rely⟩, ⟨?_, rfl, h.inv, h.old, ?_⟩⟩
  · intro l hl
    exact List.mem_append_left _ hl
  · intro d hd
    exact List.mem_append_left _ hd
  · simp
  · intro hiso
    subst hiso
    exact h.eq_of_readCommitted

/-- The general rule: what a statement locks, writes and returns. -/
theorem wp_stmt {α : Type} {locks : View Db Env → List Token} {write : View Db Env → Db → Db}
    {next : View Db Env → Body α} {Q : α → St Db Token → Db → Prop}
    (h : ∀ st' db' s env, Ran R (write ⟨st.log s, st.log db', env⟩) st db st' db' →
      ReadFrom iso st' db' s → locks ⟨st.log s, st.log db', env⟩ ⊆ st'.held →
      wp (protocol R) iso (next ⟨st.log s, st.log db', env⟩) Q st' db') :
    wp (protocol R) iso (.stmt locks write next) Q st db := by
  intro db' s env hs
  obtain ⟨hran, hread⟩ := ran_of_sees hs (write ⟨st.log s, st.log db', env⟩)
    (locks ⟨st.log s, st.log db', env⟩)
  exact h _ db' s env hran hread fun l hl => List.mem_append_right _ hl

/-- The general rule, with errors, among states with a property. -/
theorem wpe_stmt {α : Type} {J : Db → Prop} {Err : Exc → Prop}
    {locks : View Db Env → List Token} {write : View Db Env → Db → Db}
    {next : View Db Env → Body α} {Q : α → St Db Token → Db → Prop}
    (h : ∀ st' db' s env, Ran R (write ⟨st.log s, st.log db', env⟩) st db st' db' →
      ReadFrom iso st' db' s → J s → locks ⟨st.log s, st.log db', env⟩ ⊆ st'.held →
      wpe ((protocol R).during J) iso Err (next ⟨st.log s, st.log db', env⟩) Q st' db') :
    wpe ((protocol R).during J) iso Err (.stmt locks write next) Q st db := by
  intro db' s env hs
  obtain ⟨hran, hread⟩ := ran_of_sees hs.of_during (write ⟨st.log s, st.log db', env⟩)
    (locks ⟨st.log s, st.log db', env⟩)
  exact h _ db' s env hran hread hs.inv.2 fun l hl => List.mem_append_right _ hl

theorem wp_query {α : Type} {f : Db → α} {Q : α → St Db Token → Db → Prop}
    (h : ∀ st' db' s, Ran R id st db st' db' → ReadFrom iso st' db' s →
      Q (f (st.log s)) st' db') :
    wp (protocol R) iso (query f) Q st db :=
  wp_stmt fun st' db' s _ hran hread _ => h st' db' s hran hread

/-- At Repeatable Read further queries are answered from the same state. -/
theorem wp_query_again {α : Type} {f : Db → α} {Q : α → St Db Token → Db → Prop} {s : Db}
    (hsnap : st.snap = some s)
    (h : ∀ st' db', Ran R id st db st' db' → st'.snap = some s → Q (f (st.log s)) st' db') :
    wp (protocol R) .repeatableRead (query f) Q st db := by
  intro db' s' env hs
  have heq : s' = s := by
    have hpoint := hs.point
    rw [hsnap] at hpoint
    exact hpoint
  subst heq
  exact h _ db' (ran_of_sees hs id []).1 rfl

theorem wp_queryRanked {α : Type} {f : (Id → Nat) → Db → α} {Q : α → St Db Token → Db → Prop}
    (h : ∀ st' db' s rank, Ran R id st db st' db' → ReadFrom iso st' db' s →
      Q (f rank (st.log s)) st' db') :
    wp (protocol R) iso (queryRanked f) Q st db :=
  wp_stmt fun st' db' s env hran hread _ => h st' db' s env.rank hran hread

theorem wp_queryNow {α : Type} {f : Db → α} {Q : α × Nat → St Db Token → Db → Prop}
    (h : ∀ st' db' s now, Ran R id st db st' db' → ReadFrom iso st' db' s →
      Q (f (st.log s), now) st' db') :
    wp (protocol R) iso (queryNow f) Q st db :=
  wp_stmt fun st' db' s env hran hread _ => h st' db' s env.now hran hread

theorem wp_queryNow_again {α : Type} {f : Db → α} {Q : α × Nat → St Db Token → Db → Prop} {s : Db}
    (hsnap : st.snap = some s)
    (h : ∀ st' db' now, Ran R id st db st' db' → st'.snap = some s →
      Q (f (st.log s), now) st' db') :
    wp (protocol R) .repeatableRead (queryNow f) Q st db := by
  intro db' s' env hs
  have heq : s' = s := by
    have hpoint := hs.point
    rw [hsnap] at hpoint
    exact hpoint
  subst heq
  exact h _ db' env.now (ran_of_sees hs id []).1 rfl

theorem wp_insert {α : Type} {mk : Env → α} {add : α → Db → Db}
    {Q : α → St Db Token → Db → Prop}
    (h : ∀ st' db' env, Ran R (add (mk env)) st db st' db' → Q (mk env) st' db') :
    wp (protocol R) iso (insert mk add) Q st db :=
  wp_stmt fun st' db' _ env hran _ _ => h st' db' env hran

/-- An empty `createMany` sends nothing, which is the same as adding nothing. -/
theorem wp_createMany {α : Type} {n : Nat} {mk : Env → List α} {add : List α → Db → Db}
    {Q : Unit → St Db Token → Db → Prop} (hdb : Wf db)
    (hlen : ∀ env, (mk env).length = n) (hadd : ∀ d, add [] d = d)
    (h : ∀ st' db' env, Ran R (add (mk env)) st db st' db' → Q () st' db') :
    wp (protocol R) iso (createMany n mk add) Q st db := by
  unfold createMany
  split
  · rename_i hn
    have hnil : ∀ env, mk env = [] := fun env => List.eq_nil_of_length_eq_zero (hn ▸ hlen env)
    let env : Env := ⟨fun _ => "", 0, fun _ => 0⟩
    refine h st db env ⟨fun d => ?_, fun _ hl => hl, fun _ hs => hs, .refl hdb⟩
    rw [hnil env, hadd]
  · rw [wp_bind]
    exact wp_insert h

theorem wp_insertUnique {α : Type} {entry : Token} {marks : Env → List Token} {taken : Db → Bool}
    {index : UniqueIndex} {mk : Env → α} {add : α → Db → Db} {Q : α → St Db Token → Db → Prop}
    (h : ∀ st' db' env, Ran R (add (mk env)) st db st' db' → entry ∈ st'.held →
      marks env ⊆ st'.held → taken (st.log db') = false → Q (mk env) st' db') :
    wp (protocol R) iso (insertUnique entry marks taken index mk add) Q st db := by
  refine wp_stmt fun st' db' s env hran _ hlocks => ?_
  cases htaken : taken (st.log db') with
  | true => simp
  | false =>
      simp only [htaken, Bool.false_eq_true, if_false] at hran ⊢
      exact h st' db' env hran (hlocks (List.mem_cons_self ..))
        (fun l hl => hlocks (List.mem_cons_of_mem _ hl)) htaken

/-- An UPDATE that must change exactly one row. -/
theorem wp_updateOne {ρ : Type} [DecidableEq ρ] {table : Table ρ} {marks : ρ → List Token}
    {p : Db → ρ → Bool} {f : Env → ρ → ρ} {fits : ρ → Bool} {e : Exc}
    {Q : Unit → St Db Token → Db → Prop}
    (h : ∀ st' db' s env r, Ran R (table.change [table.lock r] (f env)) st db st' db' →
      ReadFrom iso st' db' s → table.lock r ∈ st'.held → marks r ⊆ st'.held →
      r ∈ table.rows (st.log s) → p (st.log s) r = true → r ∈ table.rows (st.log db') →
      fits (f env r) = true → Q () st' db') :
    wp (protocol R) iso (updateMany table marks p f fits >>= fun n => ensure (n == 1) e) Q st db := by
  rw [wp_bind]
  refine wp_stmt fun st' db' s env hran hread hlocks => ?_
  simp only at hran hlocks ⊢
  split
  · rename_i hcur
    split
    · rename_i hfits
      refine wp_guard fun hone => ?_
      -- exactly one row was hit
      obtain ⟨r, hr⟩ := List.length_eq_one_iff.mp (beq_iff_eq.mp hone)
      rw [hr] at hran hlocks hcur hfits
      have hmem : r ∈ (table.rows (st.log s)).filter (p (st.log s)) := by
        rw [hr]
        exact List.mem_singleton.mpr rfl
      obtain ⟨hrow, hp⟩ := List.mem_filter.mp hmem
      refine h st' db' s env r hran hread (hlocks (by simp)) (fun l hl => hlocks (by simp [hl]))
        hrow hp ?_ ?_
      · simpa using hcur
      · simpa using hfits
    · trivial
  · trivial

end Rules

end Kasir
