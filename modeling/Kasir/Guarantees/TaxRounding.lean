/-
  Kasir.Guarantees.TaxRounding

  The tax of `calculateTax` is the exact product of the amount and the rate, rounded
  half up, whatever the size of the amount.

  The truncated bigint division of the source is the half-up quotient on amounts that
  are not negative (`calculateTax_enabled`); over the rationals that quotient is
  `round`, and the laws of pricing are laws of `round`.
-/

import Kasir.Tax
import Kasir.Rounding
import Mathlib.Algebra.Order.Floor.Ring
import Mathlib.Data.Rat.Floor

namespace Kasir

/-- The rate in per cent. -/
def TaxRate.percent (rate : TaxRate) : ℚ := rate.hundredths / 100

/-- The tax before it is rounded. -/
def exactTax (rate : TaxRate) (amount : Int) : ℚ := amount * rate.percent / 100

section Exact

variable (rate : TaxRate) {amount : Int}

theorem percent_nonneg : 0 ≤ rate.percent := by
  unfold TaxRate.percent
  positivity

theorem percent_le : rate.percent ≤ 100 := by
  have hle : (rate.hundredths : ℚ) ≤ 10000 := by exact_mod_cast rate.le
  unfold TaxRate.percent
  linarith

theorem exactTax_eq (amount : Int) : exactTax rate amount = amount * rate.hundredths / 10000 := by
  unfold exactTax TaxRate.percent
  ring

theorem exactTax_mono {a b : Int} (h : a ≤ b) : exactTax rate a ≤ exactTax rate b := by
  have hab : (a : ℚ) ≤ b := by exact_mod_cast h
  have hmul := mul_le_mul_of_nonneg_right hab (percent_nonneg rate)
  unfold exactTax
  linarith

theorem exactTax_le (h : 0 ≤ amount) : exactTax rate amount ≤ amount := by
  have hamount : (0 : ℚ) ≤ amount := by exact_mod_cast h
  have hmul := mul_le_mul_of_nonneg_left (percent_le rate) hamount
  unfold exactTax
  linarith

theorem exactTax_mono_rate {r s : TaxRate} (hrs : r.percent ≤ s.percent) (h : 0 ≤ amount) :
    exactTax r amount ≤ exactTax s amount := by
  have hamount : (0 : ℚ) ≤ amount := by exact_mod_cast h
  have hmul := mul_le_mul_of_nonneg_left hrs hamount
  unfold exactTax
  linarith

theorem exactTax_sum (amounts : List Int) :
    exactTax rate amounts.sum = (amounts.map (exactTax rate)).sum := by
  induction amounts with
  | nil => simp [exactTax]
  | cons a amounts ih =>
      have hsplit : exactTax rate (a + amounts.sum) = exactTax rate a + exactTax rate amounts.sum := by
        unfold exactTax
        push_cast
        ring
      rw [List.sum_cons, List.map_cons, List.sum_cons, hsplit, ih]

/-- The half-up tax in hundredths is the one over the rationals. -/
theorem isHalfUpTax_iff {tax : Int} : IsHalfUpTax rate amount tax ↔ round (exactTax rate amount) = tax := by
  rw [round_eq_iff, exactTax_eq, Set.mem_Ico]
  unfold IsHalfUpTax
  have hlow : ((20000 * tax - 10000 : Int) : ℚ) ≤ (2 * (amount * rate.hundredths) : Int) ↔
      (tax : ℚ) - 1 / 2 ≤ amount * rate.hundredths / 10000 := by
    push_cast
    constructor <;> intro h <;> linarith
  have hhigh : ((2 * (amount * rate.hundredths) : Int) : ℚ) < (20000 * tax + 10000 : Int) ↔
      (amount * rate.hundredths / 10000 : ℚ) < tax + 1 / 2 := by
    push_cast
    constructor <;> intro h <;> linarith
  rw [← hlow, ← hhigh, Int.cast_le, Int.cast_lt]

/-- The tax is the rounded exact tax. -/
theorem tax_eq_round (h : 0 ≤ amount) :
    (calculateTax true rate amount).tax = round (exactTax rate amount) :=
  ((isHalfUpTax_iff rate).mp (calculateTax_enabled rate h)).symm

theorem tax_mono {a b : Int} (ha : 0 ≤ a) (hab : a ≤ b) :
    (calculateTax true rate a).tax ≤ (calculateTax true rate b).tax := by
  rw [tax_eq_round rate ha, tax_eq_round rate (ha.trans hab)]
  exact Rounding.round_mono (exactTax_mono rate hab)

end Exact

-- ============================================================================
-- The law
-- ============================================================================

/-- What a cashier and an accountant may rely on. -/
structure TaxRoundingLaw : Prop where
  /-- the tax is the one integer within half a unit of the exact tax, a tie going up -/
  exact : ∀ (rate : TaxRate) (a : Int), 0 ≤ a → ∀ t : Int,
    (calculateTax true rate a).tax = t ↔
      (t : ℚ) - 1 / 2 ≤ a * rate.percent / 100 ∧ (a : ℚ) * rate.percent / 100 < t + 1 / 2
  total : ∀ (rate : TaxRate) (a : Int),
    (calculateTax true rate a).total = a + (calculateTax true rate a).tax
  bounded : ∀ (rate : TaxRate) (a : Int), 0 ≤ a → (calculateTax true rate a).tax ≤ a
  taxMono : ∀ (rate : TaxRate) (a b : Int), 0 ≤ a → a ≤ b →
    (calculateTax true rate a).tax ≤ (calculateTax true rate b).tax
  totalMono : ∀ (rate : TaxRate) (a b : Int), 0 ≤ a → a ≤ b →
    (calculateTax true rate a).total ≤ (calculateTax true rate b).total
  totalStrict : ∀ (rate : TaxRate) (a b : Int), 0 ≤ a → a < b →
    (calculateTax true rate a).total < (calculateTax true rate b).total
  rateMono : ∀ (r s : TaxRate) (a : Int), 0 ≤ a → r.percent ≤ s.percent →
    (calculateTax true r a).tax ≤ (calculateTax true s a).tax
  /-- the parts of a split bill -/
  split : ∀ (rate : TaxRate) (parts : List Int), (∀ a ∈ parts, 0 ≤ a) →
    |((calculateTax true rate parts.sum).tax : ℚ) -
      ((parts.map fun a => (calculateTax true rate a).tax).sum : Int)| ≤ (parts.length + 1) / 2

/-- **Tax rounding is exact**, at every rate of the schema and for amounts of any
    size. -/
theorem tax_rounding_exact : TaxRoundingLaw := by
  constructor
  case exact =>
    intro rate a ha t
    rw [tax_eq_round rate ha, round_eq_iff, Set.mem_Ico]
    rfl
  case total => exact fun rate a => calculateTax_total true rate a
  case bounded =>
    intro rate a ha
    have hround : round (exactTax rate a) ≤ round (a : ℚ) :=
      Rounding.round_mono (exactTax_le rate ha)
    rw [round_intCast] at hround
    rwa [tax_eq_round rate ha]
  case taxMono => exact fun rate a b ha hab => tax_mono rate ha hab
  case totalMono =>
    intro rate a b ha hab
    have htax := tax_mono rate ha hab
    rw [calculateTax_total, calculateTax_total]
    omega
  case totalStrict =>
    intro rate a b ha hab
    have htax := tax_mono rate ha hab.le
    rw [calculateTax_total, calculateTax_total]
    omega
  case rateMono =>
    intro r s a ha hrs
    rw [tax_eq_round r ha, tax_eq_round s ha]
    exact Rounding.round_mono (exactTax_mono_rate hrs ha)
  case split =>
    intro rate parts hparts
    have hsum : 0 ≤ parts.sum := List.sum_nonneg hparts
    have hmap : (parts.map fun a => (calculateTax true rate a).tax) =
        (parts.map (exactTax rate)).map round := by
      rw [List.map_map]
      apply List.map_congr_left
      intro a ha
      exact tax_eq_round rate (hparts a ha)
    have hbound := Rounding.nearest_round.abs_round_sum_sub_le (parts.map (exactTax rate))
    rw [List.length_map, ← exactTax_sum] at hbound
    rwa [tax_eq_round rate hsum, hmap]

/-- Half a unit rounds up, and ten parts of one unit lose the tax of the whole. -/
example : (calculateTax true ⟨1000, by decide⟩ 5).tax = 1 ∧
    (calculateTax true ⟨1000, by decide⟩ 10).tax = 1 ∧
    (calculateTax true ⟨1000, by decide⟩ 1).tax = 0 := by decide +kernel

end Kasir
