/-
  Kasir.Rounding

  Rounding to a nearest integer over an ordered field, and what it does to sums.

  A rounding function is one that stays within half a unit of its argument, however
  it breaks ties.  Then the rounded parts of a sum stay within half a unit each of
  the exact sum, and the rounded sum within half a unit more of them.
-/

import Mathlib.Algebra.Order.Round
import Mathlib.Algebra.Order.BigOperators.Group.List
import Mathlib.Tactic.Linarith
import Mathlib.Tactic.Ring

namespace Kasir.Rounding

variable {K : Type} [Field K] [LinearOrder K] [IsStrictOrderedRing K]

/-- Within half a unit of the argument. -/
def Nearest (f : K → Int) : Prop := ∀ x : K, |x - f x| ≤ 1 / 2

section Sums

variable {f : K → Int}

/-- Rounded parts stay within half a unit each of the exact sum. -/
theorem Nearest.abs_sum_sub_le (hf : Nearest f) (xs : List K) :
    |xs.sum - ((xs.map f).sum : Int)| ≤ xs.length / 2 := by
  induction xs with
  | nil => simp
  | cons x xs ih =>
      have hx := hf x
      have hsplit : (x :: xs).sum - (((x :: xs).map f).sum : Int) =
          (x - f x) + (xs.sum - ((xs.map f).sum : Int)) := by
        simp only [List.sum_cons, List.map_cons, Int.cast_add]
        ring
      calc |(x :: xs).sum - (((x :: xs).map f).sum : Int)|
          = |(x - f x) + (xs.sum - ((xs.map f).sum : Int))| := by rw [hsplit]
        _ ≤ |x - f x| + |xs.sum - ((xs.map f).sum : Int)| := abs_add_le _ _
        _ ≤ 1 / 2 + xs.length / 2 := add_le_add hx ih
        _ = ((x :: xs).length : K) / 2 := by
            push_cast [List.length_cons]
            ring

/-- The rounded sum and the rounded parts differ by half a unit for each part, and
    half a unit more. -/
theorem Nearest.abs_round_sum_sub_le (hf : Nearest f) (xs : List K) :
    |((f xs.sum : Int) : K) - ((xs.map f).sum : Int)| ≤ (xs.length + 1) / 2 := by
  have hwhole : |((f xs.sum : Int) : K) - xs.sum| ≤ 1 / 2 := by
    rw [abs_sub_comm]
    exact hf xs.sum
  have hparts := hf.abs_sum_sub_le xs
  calc |((f xs.sum : Int) : K) - ((xs.map f).sum : Int)|
      ≤ |((f xs.sum : Int) : K) - xs.sum| + |xs.sum - ((xs.map f).sum : Int)| :=
        abs_sub_le _ _ _
    _ ≤ 1 / 2 + xs.length / 2 := add_le_add hwhole hparts
    _ = (xs.length + 1) / 2 := by ring

end Sums

variable [FloorRing K]

/-- `round` breaks ties upwards. -/
theorem nearest_round : Nearest (round : K → Int) := fun x => abs_sub_round x

theorem round_mono {x y : K} (h : x ≤ y) : round x ≤ round y := by
  rw [round_eq, round_eq]
  exact Int.floor_mono (by linarith)

end Kasir.Rounding
