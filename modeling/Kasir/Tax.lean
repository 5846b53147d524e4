/-
  Kasir.Tax

  `calculateTax` of the shared tax helper.

  The rate is a `Decimal(5,2)` between 0 and 100 and reaches the helper as the
  text `toFixed(2)` prints; amounts are bigints.
-/

import Mathlib.Data.Nat.Basic
import Mathlib.Algebra.Order.Ring.Int
import Mathlib.Tactic.Linarith

namespace Kasir

/-- A tax rate, in hundredths of a per cent.  The database admits 0 to 100. -/
structure TaxRate where
  hundredths : Nat
  le : hundredths ≤ 10000 := by decide
deriving DecidableEq, Repr

namespace TaxRate

/-- `toFixed(2)`. -/
def toFixed2 (rate : TaxRate) : List Char :=
  Nat.toDigits 10 (rate.hundredths / 100) ++
    ['.', Nat.digitChar (rate.hundredths / 10 % 10), Nat.digitChar (rate.hundredths % 10)]

/-- `BigInt(decimal.toFixed(2).replace('.', ''))`. -/
def basisPoints (rate : TaxRate) : Int :=
  (Nat.ofDigitChars 10 (rate.toFixed2.erase '.') 0 : Nat)

theorem dot_not_mem_toDigits (n : Nat) : '.' ∉ Nat.toDigits 10 n := by
  intro h
  exact absurd (Nat.isDigit_of_mem_toDigits (by decide) (by decide) h) (by decide)

/-- Dropping the point of the printed rate multiplies it by a hundred. -/
theorem basisPoints_eq (rate : TaxRate) : rate.basisPoints = rate.hundredths := by
  unfold basisPoints toFixed2
  rw [List.erase_append_right _ (dot_not_mem_toDigits _), List.erase_cons_head,
    Nat.ofDigitChars_append, Nat.ofDigitChars_ten_toDigits,
    Nat.ofDigitChars_cons_digitChar_of_lt_ten (Nat.mod_lt _ (by decide)),
    Nat.ofDigitChars_cons_digitChar_of_lt_ten (Nat.mod_lt _ (by decide)),
    Nat.ofDigitChars_nil]
  have h : 10 * (10 * (rate.hundredths / 100) + rate.hundredths / 10 % 10) +
      rate.hundredths % 10 = rate.hundredths := by omega
  rw [h]

end TaxRate

/-- What `calculateTax` returns. -/
structure TaxedAmount where
  tax : Int
  total : Int
deriving DecidableEq, Repr

/-- The tax on an amount and the amount with tax.  Bigint division truncates. -/
def calculateTax (taxEnabled : Bool) (taxRate : TaxRate) (taxableAmount : Int) : TaxedAmount :=
  if !taxEnabled then { tax := 0, total := taxableAmount }
  else
    let tax := Int.tdiv (taxableAmount * taxRate.basisPoints + 5000) 10000
    { tax, total := taxableAmount + tax }

/-- `tax` is `amount * rate`, rounded half up. -/
def IsHalfUpTax (rate : TaxRate) (amount tax : Int) : Prop :=
  20000 * tax - 10000 ≤ 2 * (amount * rate.hundredths) ∧
    2 * (amount * rate.hundredths) < 20000 * tax + 10000

section CalculateTax

variable (taxEnabled : Bool) (taxRate : TaxRate) (amount : Int)

@[simp] theorem calculateTax_total :
    (calculateTax taxEnabled taxRate amount).total =
      amount + (calculateTax taxEnabled taxRate amount).tax := by
  unfold calculateTax
  cases taxEnabled <;> simp

variable {amount}

/-- On amounts that are not negative the truncated quotient is the half-up one. -/
theorem calculateTax_enabled (h : 0 ≤ amount) :
    IsHalfUpTax taxRate amount (calculateTax true taxRate amount).tax := by
  have hprod : 0 ≤ amount * (taxRate.hundredths : Int) :=
    mul_nonneg h (Int.natCast_nonneg _)
  have htax : (calculateTax true taxRate amount).tax =
      (amount * (taxRate.hundredths : Int) + 5000) / 10000 := by
    simp only [calculateTax, TaxRate.basisPoints_eq, Bool.not_true, Bool.false_eq_true, if_false]
    exact Int.tdiv_eq_ediv_of_nonneg (by omega)
  rw [htax]
  unfold IsHalfUpTax
  constructor <;> omega

theorem calculateTax_nonneg (h : 0 ≤ amount) :
    0 ≤ (calculateTax taxEnabled taxRate amount).tax := by
  cases taxEnabled with
  | false => exact le_refl 0
  | true =>
      have hhalf := calculateTax_enabled taxRate h
      have hprod : 0 ≤ amount * (taxRate.hundredths : Int) :=
        mul_nonneg h (Int.natCast_nonneg _)
      unfold IsHalfUpTax at hhalf
      omega

end CalculateTax

end Kasir
