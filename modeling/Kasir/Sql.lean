/-
  Kasir.Sql

  Joins and `GROUP BY` over lists of rows, and what they do to sums.

  Rows that are grouped by a key, whichever keys are listed, add up to the same; a join
  may be summed from either side.
-/

import Mathlib.Algebra.BigOperators.Group.List.Lemmas
import Mathlib.Algebra.BigOperators.Group.Multiset.Basic
import Mathlib.Data.List.Dedup

namespace Sql

variable {α β κ M : Type}

-- ============================================================================
-- Rows by key
-- ============================================================================

section Fibers

variable [DecidableEq κ] [AddCommMonoid M]

/-- The sum over the rows with a key is that over the rows of those that have it or 0. -/
theorem sum_filter (p : α → Bool) (f : α → M) (rows : List α) :
    ((rows.filter p).map f).sum = (rows.map fun r => if p r then f r else 0).sum := by
  induction rows with
  | nil => rfl
  | cons r rows ih =>
      rw [List.filter_cons, List.map_cons, List.sum_cons, ← ih]
      by_cases h : p r = true
      · rw [if_pos h, if_pos h, List.map_cons, List.sum_cons]
      · rw [if_neg h, if_neg h, zero_add]

/-- Sums over two lists may be taken in either order. -/
theorem sum_comm (f : α → β → M) (xs : List α) (ys : List β) :
    (xs.map fun x => (ys.map fun y => f x y).sum).sum =
      (ys.map fun y => (xs.map fun x => f x y).sum).sum := by
  have h := Multiset.sum_map_sum_map (xs : Multiset α) (ys : Multiset β) (f := f)
  simpa using h

/-- One of distinct keys is met once. -/
theorem sum_ite_eq_of_nodup {keys : List κ} (hnodup : keys.Nodup) {k : κ} (hk : k ∈ keys) (m : M) :
    (keys.map fun k' => if k = k' then m else 0).sum = m := by
  induction keys with
  | nil => cases hk
  | cons k' keys ih =>
      obtain ⟨hnot, hnodup'⟩ := List.nodup_cons.mp hnodup
      rw [List.map_cons, List.sum_cons]
      by_cases heq : k = k'
      · have hzero : (keys.map fun k'' => if k = k'' then m else 0).sum = 0 := by
          apply List.sum_eq_zero
          intro x hx
          obtain ⟨k'', hk'', rfl⟩ := List.mem_map.mp hx
          exact if_neg fun h => hnot (by rw [← heq, h]; exact hk'')
        rw [if_pos heq, hzero, add_zero]
      · have hk' : k ∈ keys := (List.mem_cons.mp hk).resolve_left heq
        rw [if_neg heq, zero_add, ih hnodup' hk']

/-- **Rows by key.**  The sums over the rows of each key add up to that over all rows, if
    the list of keys has them all, once. -/
theorem sum_fibers {keys : List κ} (hnodup : keys.Nodup) (rows : List α) (key : α → κ)
    (hkeys : ∀ r ∈ rows, key r ∈ keys) (f : α → M) :
    (keys.map fun k => ((rows.filter fun r => key r = k).map f).sum).sum = (rows.map f).sum := by
  have hsplit : (keys.map fun k => ((rows.filter fun r => key r = k).map f).sum) =
      keys.map fun k => (rows.map fun r => if key r = k then f r else 0).sum := by
    apply List.map_congr_left
    intro k _
    rw [sum_filter]
    simp only [decide_eq_true_eq]
  rw [hsplit, sum_comm]
  congr 1
  apply List.map_congr_left
  intro r hr
  exact sum_ite_eq_of_nodup hnodup (hkeys r hr) (f r)

/-- `GROUP BY key`. -/
def groupBy (key : α → κ) (rows : List α) : List (κ × List α) :=
  (rows.map key).dedup.map fun k => (k, rows.filter fun r => key r = k)

theorem keys_groupBy (key : α → κ) (rows : List α) :
    (groupBy key rows).map Prod.fst = (rows.map key).dedup := by
  unfold groupBy
  rw [List.map_map]
  exact List.map_id _

/-- Sums over groups add up to the sum over all rows. -/
theorem sum_groupBy (key : α → κ) (rows : List α) (f : α → M) :
    ((groupBy key rows).map fun g => (g.2.map f).sum).sum = (rows.map f).sum := by
  unfold groupBy
  rw [List.map_map]
  apply sum_fibers (List.nodup_dedup _) rows key
  intro r hr
  exact List.mem_dedup.mpr (List.mem_map_of_mem hr)

/-- A group is not empty, and its rows have its key. -/
theorem mem_groupBy {key : α → κ} {rows : List α} {g : κ × List α} (h : g ∈ groupBy key rows) :
    (∃ r ∈ rows, key r = g.1) ∧ ∀ r ∈ g.2, r ∈ rows ∧ key r = g.1 := by
  obtain ⟨k, hk, rfl⟩ := List.mem_map.mp h
  obtain ⟨r, hr, hkey⟩ := List.mem_map.mp (List.mem_dedup.mp hk)
  refine ⟨⟨r, hr, hkey⟩, fun r' hr' => ?_⟩
  rw [List.mem_filter, decide_eq_true_eq] at hr'
  exact hr'

end Fibers

-- ============================================================================
-- Joins
-- ============================================================================

/-- `INNER JOIN`. -/
def join (on : α → β → Bool) (xs : List α) (ys : List β) : List (α × β) :=
  xs.flatMap fun x => (ys.filter (on x)).map fun y => (x, y)

theorem mem_join {on : α → β → Bool} {xs : List α} {ys : List β} {r : α × β} :
    r ∈ join on xs ys ↔ r.1 ∈ xs ∧ r.2 ∈ ys ∧ on r.1 r.2 = true := by
  unfold join
  simp only [List.mem_flatMap, List.mem_map, List.mem_filter]
  constructor
  · rintro ⟨x, hx, y, ⟨hy, hon⟩, rfl⟩
    exact ⟨hx, hy, hon⟩
  · rintro ⟨hx, hy, hon⟩
    exact ⟨r.1, hx, r.2, ⟨hy, hon⟩, rfl⟩

section Sums

variable [AddCommMonoid M]

/-- A join is summed over the rows on the left. -/
theorem sum_join (on : α → β → Bool) (xs : List α) (ys : List β) (f : α × β → M) :
    ((join on xs ys).map f).sum =
      (xs.map fun x => ((ys.filter (on x)).map fun y => f (x, y)).sum).sum := by
  induction xs with
  | nil => rfl
  | cons x xs ih =>
      rw [List.map_cons, List.sum_cons, ← ih]
      show (((ys.filter (on x)).map (fun y => (x, y)) ++ join on xs ys).map f).sum = _
      rw [List.map_append, List.sum_append, List.map_map]
      rfl

/-- A join is summed over the rows on the right. -/
theorem sum_join_right (on : α → β → Bool) (xs : List α) (ys : List β) (f : α × β → M) :
    ((join on xs ys).map f).sum =
      (ys.map fun y => ((xs.filter fun x => on x y).map fun x => f (x, y)).sum).sum := by
  rw [sum_join]
  simp only [sum_filter]
  exact sum_comm _ xs ys

/-- A join in which each row on the left has one partner is summed over these rows. -/
theorem sum_join_of_unique {on : α → β → Bool} {xs : List α} {ys : List β}
    (h : ∀ x ∈ xs, ∃ y, ys.filter (on x) = [y]) (f : α → M) :
    ((join on xs ys).map fun r => f r.1).sum = (xs.map f).sum := by
  rw [sum_join]
  congr 1
  apply List.map_congr_left
  intro x hx
  obtain ⟨y, hy⟩ := h x hx
  rw [hy]
  exact List.sum_singleton

end Sums

end Sql
