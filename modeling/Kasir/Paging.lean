/-
  Kasir.Paging

  Pages of a listing, by offset and limit.

  The pages of one listing, one behind the other, are the listing.  A reader who turns the
  pages of a listing that grows in the meantime may meet a row twice, but misses none that
  was there when it began: rows are only pushed towards later pages.
-/

import Mathlib.Data.List.Sort
import Mathlib.Data.List.Nodup

namespace Paging

variable {α : Type}

-- ============================================================================
-- One listing
-- ============================================================================

/-- `OFFSET (p - 1) * limit LIMIT limit`: the `p`-th page, counted from 1. -/
def page (limit p : Nat) (rows : List α) : List α := (rows.drop ((p - 1) * limit)).take limit

/-- The number of pages of a listing of this length: `⌈total / limit⌉`. -/
def pageCount (limit total : Nat) : Nat := (total + limit - 1) / limit

/-- The first pages of a listing, one behind the other. -/
theorem flatten_pages (limit : Nat) (rows : List α) (m : Nat) :
    ((List.range m).map fun k => page limit (k + 1) rows).flatten = rows.take (m * limit) := by
  induction m with
  | zero => simp
  | succ m ih =>
      have hlast : page limit (m + 1) rows = (rows.drop (m * limit)).take limit := rfl
      rw [List.range_succ, List.map_append, List.flatten_append, ih, List.map_singleton,
        List.flatten_singleton, hlast, Nat.succ_mul, List.take_add]

theorem le_pageCount_mul {limit : Nat} (hlimit : 0 < limit) (total : Nat) :
    total ≤ pageCount limit total * limit := by
  have hdiv := Nat.div_add_mod (total + limit - 1) limit
  have hmod := Nat.mod_lt (total + limit - 1) hlimit
  have hcomm : pageCount limit total * limit = limit * ((total + limit - 1) / limit) :=
    Nat.mul_comm _ _
  omega

/-- **All pages of a listing** are the listing. -/
theorem flatten_all_pages {limit : Nat} (hlimit : 0 < limit) {rows : List α} {m : Nat}
    (hm : pageCount limit rows.length ≤ m) :
    ((List.range m).map fun k => page limit (k + 1) rows).flatten = rows := by
  have hcover := le_pageCount_mul hlimit rows.length
  have hmul : pageCount limit rows.length * limit ≤ m * limit := Nat.mul_le_mul_right limit hm
  rw [flatten_pages]
  exact List.take_of_length_le (by omega)

/-- The page of a row is told by its position. -/
theorem mem_page [DecidableEq α] {limit p : Nat} {rows : List α} {x : α} (hx : x ∈ rows)
    (hlow : (p - 1) * limit ≤ rows.idxOf x) (hhigh : rows.idxOf x < (p - 1) * limit + limit) :
    x ∈ page limit p rows := by
  have hlt : rows.idxOf x < rows.length := List.idxOf_lt_length_of_mem hx
  have hget : rows[rows.idxOf x]? = some x := by
    rw [List.getElem?_eq_getElem hlt, List.getElem_idxOf]
  apply List.mem_of_getElem? (i := rows.idxOf x - (p - 1) * limit)
  unfold page
  rw [List.getElem?_take_of_lt (by omega), List.getElem?_drop, Nat.add_sub_cancel' hlow]
  exact hget

-- ============================================================================
-- A listing that grows
-- ============================================================================

/-- More rows in the same order contain the fewer ones in theirs. -/
theorem sublist_of_sorted {r : α → α → Prop} {xs ys : List α} (hxs : xs.Pairwise r)
    (hys : ys.Pairwise r) (hsub : xs.Subperm ys)
    (hanti : ∀ a ∈ ys, ∀ b ∈ ys, r a b → r b a → a = b) : xs.Sublist ys := by
  obtain ⟨zs, hperm, hzs⟩ := hsub
  have heq : zs = xs := by
    apply hperm.eq_of_pairwise _ (hys.sublist hzs) hxs
    intro a b ha hb hab hba
    exact hanti a (hzs.subset ha) b (hzs.subset (hperm.mem_iff.mpr hb)) hab hba
  rw [← heq]
  exact hzs

/-- Rows that join a listing push the others towards its end. -/
theorem idxOf_le_of_sublist [DecidableEq α] {xs ys : List α} (h : xs.Sublist ys) (hnodup : ys.Nodup)
    {x : α} (hx : x ∈ xs) : xs.idxOf x ≤ ys.idxOf x := by
  induction h with
  | slnil => cases hx
  | @cons xs ys y hsub ih =>
      rw [List.nodup_cons] at hnodup
      have hne : x ≠ y := fun heq => hnodup.1 (heq ▸ hsub.subset hx)
      have hle := ih hnodup.2 hx
      rw [List.idxOf_cons_ne ys (Ne.symm hne)]
      omega
  | @cons_cons xs ys y hsub ih =>
      rw [List.nodup_cons] at hnodup
      by_cases heq : x = y
      · rw [heq, List.idxOf_cons_self, List.idxOf_cons_self]
      · have hmem : x ∈ xs := (List.mem_cons.mp hx).resolve_left heq
        have hle := ih hnodup.2 hmem
        rw [List.idxOf_cons_ne xs (Ne.symm heq), List.idxOf_cons_ne ys (Ne.symm heq)]
        omega

/-- **Nothing is skipped.**  The `p`-th page is read of the `p`-th of listings of which each
    contains the one before.  The induction is on the pages: a row that has been on none of
    them stands behind them. -/
theorem nothing_skipped [DecidableEq α] {limit m : Nat} {listings : Nat → List α}
    (hgrow : ∀ p, 1 ≤ p → p < m → (listings p).Sublist (listings (p + 1)))
    (hnodup : ∀ p, 1 ≤ p → p ≤ m → (listings p).Nodup) (hm : 1 ≤ m)
    (hend : (listings m).length ≤ m * limit) {x : α} (hx : x ∈ listings 1) :
    ∃ p, 1 ≤ p ∧ p ≤ m ∧ x ∈ page limit p (listings p) := by
  by_contra hnone
  have hbehind : ∀ p, 1 ≤ p → p ≤ m → x ∈ listings p ∧ p * limit ≤ (listings p).idxOf x := by
    intro p hp
    induction p, hp using Nat.le_induction with
    | base =>
        intro _
        refine ⟨hx, ?_⟩
        by_contra hlt
        exact hnone ⟨1, Nat.le_refl 1, hm, mem_page hx (by omega) (by omega)⟩
    | succ p hp ih =>
        intro hle
        obtain ⟨hmem, hpos⟩ := ih (by omega)
        have hsub := hgrow p hp (by omega)
        have hmem' : x ∈ listings (p + 1) := hsub.subset hmem
        have hpushed := idxOf_le_of_sublist hsub (hnodup (p + 1) (by omega) hle) hmem
        have hlow : (p + 1 - 1) * limit ≤ (listings (p + 1)).idxOf x := by
          rw [Nat.add_sub_cancel]
          omega
        refine ⟨hmem', ?_⟩
        by_contra hlt
        rw [Nat.succ_mul] at hlt
        rw [Nat.add_sub_cancel] at hlow
        refine hnone ⟨p + 1, by omega, hle, mem_page hmem' ?_ ?_⟩
        · rw [Nat.add_sub_cancel]
          exact hlow
        · rw [Nat.add_sub_cancel]
          omega
  obtain ⟨hmem, hpos⟩ := hbehind m hm (Nat.le_refl m)
  have hlt : (listings m).idxOf x < (listings m).length := List.idxOf_lt_length_of_mem hmem
  omega

end Paging
