/-
  Kasir.Js.Number

  The integers among the doubles.

  `+` on numbers rounds the exact sum to the nearest double, and to the even one of two.
  Up to 2⁵³ every integer is a double, so such sums are exact.
-/

import Mathlib.Data.Nat.Log
import Mathlib.Algebra.Order.Ring.Int
import Mathlib.Algebra.Order.BigOperators.Group.List

namespace Js

/-- The spacing of the doubles of this magnitude: 53 bits are kept. -/
def spacing (m : Nat) : Nat := 2 ^ (Nat.log2 m + 1 - 53)

/-- The nearest double, as an integer. -/
def nearestDouble (m : Nat) : Nat :=
  let u := spacing m
  let q := m / u
  let r := m % u
  if 2 * r < u then q * u
  else if u < 2 * r then (q + 1) * u
  else if q % 2 = 0 then q * u
  else (q + 1) * u

/-- `Number(n)` of an integer. -/
def toNumber (n : Int) : Int :=
  if 0 ≤ n then nearestDouble n.toNat else -(nearestDouble (-n).toNat : Int)

/-- `a + b` on numbers that are integers. -/
def addNumber (a b : Int) : Int := toNumber (a + b)

/-- Up to 2⁵³ the integers are doubles. -/
def exactBound : Nat := 2 ^ 53

theorem nearestDouble_exact {m : Nat} (h : m ≤ exactBound) : nearestDouble m = m := by
  unfold exactBound at h
  by_cases hlt : m < 2 ^ 53
  · have hlog : Nat.log2 m + 1 - 53 = 0 := by
      by_cases hm : m = 0
      · subst hm
        decide
      · have := (Nat.log2_lt hm).mpr hlt
        omega
    have hspacing : spacing m = 1 := by
      unfold spacing
      rw [hlog]
      rfl
    unfold nearestDouble
    rw [hspacing]
    simp [Nat.mod_one]
  · have heq : m = 2 ^ 53 := by omega
    subst heq
    decide

/-- An integer that is a double. -/
def IsDouble (n : Int) : Prop := spacing n.natAbs ∣ n.natAbs

instance (n : Int) : Decidable (IsDouble n) := inferInstanceAs (Decidable (_ ∣ _))

theorem spacing_dvd_nearestDouble (m : Nat) : spacing m ∣ nearestDouble m := by
  unfold nearestDouble
  dsimp only
  split
  · exact dvd_mul_left _ _
  · split
    · exact dvd_mul_left _ _
    · split
      · exact dvd_mul_left _ _
      · exact dvd_mul_left _ _

/-- The numbers that are their own nearest double. -/
theorem nearestDouble_eq_iff {m : Nat} : nearestDouble m = m ↔ spacing m ∣ m := by
  constructor
  · intro h
    exact (congrArg (spacing m ∣ ·) h).mp (spacing_dvd_nearestDouble m)
  · intro h
    have hpos : 0 < spacing m := Nat.pos_of_ne_zero (pow_ne_zero _ (by decide))
    unfold nearestDouble
    dsimp only
    rw [Nat.mod_eq_zero_of_dvd h, if_pos (by omega)]
    exact Nat.div_mul_cancel h

theorem toNumber_eq_iff {n : Int} : toNumber n = n ↔ IsDouble n := by
  unfold toNumber IsDouble
  rw [← nearestDouble_eq_iff]
  by_cases hn : 0 ≤ n
  · have habs : n.natAbs = n.toNat := by omega
    rw [if_pos hn, habs]
    omega
  · have habs : n.natAbs = (-n).toNat := by omega
    rw [if_neg hn, habs]
    omega

theorem isDouble_of_le {n : Int} (h : n.natAbs ≤ exactBound) : IsDouble n :=
  nearestDouble_eq_iff.mp (nearestDouble_exact h)

/-- A sum that does not leave the exact range is exact. -/
theorem addNumber_exact {a b : Int} (h0 : 0 ≤ a + b) (h : a + b ≤ exactBound) :
    addNumber a b = a + b := by
  unfold addNumber toNumber
  rw [if_pos h0, nearestDouble_exact (by omega)]
  omega

/-- So is a sum of amounts that are not negative, added one by one. -/
theorem foldl_addNumber_exact {xs : List Int} (hpos : ∀ x ∈ xs, 0 ≤ x) {a : Int} (ha : 0 ≤ a)
    (h : a + xs.sum ≤ exactBound) : xs.foldl addNumber a = a + xs.sum := by
  induction xs generalizing a with
  | nil => simp
  | cons x xs ih =>
      have hx : 0 ≤ x := hpos x (List.mem_cons_self ..)
      have hxs : 0 ≤ xs.sum := List.sum_nonneg fun y hy => hpos y (List.mem_cons_of_mem _ hy)
      rw [List.sum_cons] at h ⊢
      have hadd : addNumber a x = a + x := addNumber_exact (by omega) (by omega)
      rw [List.foldl_cons, hadd, ih (fun y hy => hpos y (List.mem_cons_of_mem _ hy)) (by omega)
        (by omega)]
      omega

/-- The first sum of two integers that is not. -/
example : addNumber 9007199254740992 1 = 9007199254740992 := by decide +kernel

end Js
