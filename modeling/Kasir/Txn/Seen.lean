/-
  Kasir.Txn.Seen

  What a transaction has read.

  A state that a body has read from stays among those it has read from.  What follows
  from them may therefore be established at one place in a body, whatever comes after it,
  and be added to what the body is known to commit.
-/

import Kasir.Txn.Soundness

namespace Txn

variable {D N L E R α : Type} {P : Protocol D L} {iso : Isolation}

/-- **What has been read stays read.**  The induction is on the body: every statement adds
    a state. -/
theorem wp_seen {Q : List D → Prop} (hQ : ∀ xs ys, xs ⊆ ys → Q xs → Q ys) (p : Prog D N L E α) :
    ∀ {st : St D L} {db : D}, Q st.seen → wp P iso p (fun _ st' _ => Q st'.seen) st db := by
  induction p with
  | ret a => exact fun h => h
  | throw e => exact fun _ => trivial
  | stmt locks write next ih =>
      intro st db h db' s env _
      apply ih
      exact hQ _ _ (fun x hx => List.mem_append_left _ hx) h

/-- What a body has read joins what it commits. -/
theorem wp_commits_seen {p : Prog D N L E R} {legal : D → Bool} {Post : R → List D → D → D → Prop}
    {Q : List D → Prop} {st : St D L} {db : D} (h : wp P iso p (Commits P legal Post) st db)
    (hseen : wp P iso p (fun _ st' _ => Q st'.seen) st db) :
    wp P iso p (Commits P legal fun r seen a b => Post r seen a b ∧ Q seen) st db := by
  apply wp_mono _ (wp_and h hseen)
  intro r st' db' hboth d hrely hlegal
  obtain ⟨hguar, hpost⟩ := hboth.1 d hrely hlegal
  exact ⟨hguar, hpost, hboth.2⟩

-- ============================================================================
-- The states of a run, in order
-- ============================================================================

section States

variable {C : Type} {a b : D} {es : List (Commit D C R)} {rel : D → D → Prop}

/-- Of two states of a chain the later one has come out of the earlier one. -/
theorem Chain.pairwise_states (htrans : ∀ x y z, rel x y → rel y z → rel x z) (h : Chain a es b)
    (hstep : ∀ e ∈ es, rel e.before e.after) : (states a es).Pairwise rel := by
  induction es generalizing a with
  | nil => exact List.pairwise_singleton rel a
  | cons e es ih =>
      obtain ⟨rfl, hrest⟩ := h
      have hlater := ih hrest fun e' he' => hstep e' (List.mem_cons_of_mem _ he')
      have hfirst := hstep e (List.mem_cons_self ..)
      show (e.before :: states e.after es).Pairwise rel
      refine List.pairwise_cons.mpr ⟨fun d hd => ?_, hlater⟩
      rcases List.mem_cons.mp hd with rfl | hd
      · exact hfirst
      · exact htrans _ _ _ hfirst ((List.pairwise_cons.mp hlater).1 d hd)

/-- So it is with states that are told by their numbers. -/
theorem Chain.rel_of_le (hrefl : ∀ x, rel x x) (htrans : ∀ x y z, rel x y → rel y z → rel x z)
    (h : Chain a es b) (hstep : ∀ e ∈ es, rel e.before e.after) {i j : Nat} {x y : D}
    (hij : i ≤ j) (hx : (states a es)[i]? = some x) (hy : (states a es)[j]? = some y) : rel x y := by
  obtain ⟨hi, rfl⟩ := List.getElem?_eq_some_iff.mp hx
  obtain ⟨hj, rfl⟩ := List.getElem?_eq_some_iff.mp hy
  rcases Nat.lt_or_eq_of_le hij with hlt | rfl
  · exact List.pairwise_iff_getElem.mp (h.pairwise_states htrans hstep) i j hi hj hlt
  · exact hrefl _

end States

end Txn
