/-
  Kasir.Js.Calendar

  The calendar behind `Date`: the proleptic Gregorian calendar, with days numbered from
  1 January 1970.

  Day numbers and dates correspond, and the day after a date has the next number.  The
  text of a date of four digits corresponds to the date.
-/

import Kasir.Js.Text
import Mathlib.Algebra.Order.Ring.Int
import Mathlib.Order.Monotone.Basic

namespace Js

-- ============================================================================
-- Years
-- ============================================================================

def isLeapYear (y : Int) : Bool := y % 4 == 0 && (y % 100 != 0 || y % 400 == 0)

/-- `DayFromYear`: the number of 1 January. -/
def dayFromYear (y : Int) : Int :=
  365 * (y - 1970) + (y - 1969) / 4 - (y - 1901) / 100 + (y - 1601) / 400

def leapDay (leap : Bool) : Int := if leap then 1 else 0

theorem leapDay_isLeapYear (y : Int) :
    leapDay (isLeapYear y) = y / 4 - (y - 1) / 4 - (y / 100 - (y - 1) / 100) +
      (y / 400 - (y - 1) / 400) := by
  unfold leapDay isLeapYear
  split
  · rename_i hleap
    simp only [Bool.and_eq_true, Bool.or_eq_true, beq_iff_eq, bne_iff_ne] at hleap
    omega
  · rename_i hleap
    simp only [Bool.and_eq_true, Bool.or_eq_true, beq_iff_eq, bne_iff_ne] at hleap
    omega

/-- A year has 365 days, and a leap year one more. -/
theorem dayFromYear_succ (y : Int) :
    dayFromYear (y + 1) = dayFromYear y + 365 + leapDay (isLeapYear y) := by
  rw [leapDay_isLeapYear]
  unfold dayFromYear
  omega

theorem dayFromYear_mono {y z : Int} (h : y ≤ z) : dayFromYear y ≤ dayFromYear z := by
  unfold dayFromYear
  omega

/-- `YearFromTime`: the year that has the day.  The mean length of a year is 146097/400
    days, so the year is one of three. -/
def yearFromDay (n : Int) : Int :=
  let y := n * 400 / 146097 + 1970
  if n < dayFromYear y then y - 1 else if dayFromYear (y + 1) ≤ n then y + 1 else y

theorem yearFromDay_spec (n : Int) :
    dayFromYear (yearFromDay n) ≤ n ∧ n < dayFromYear (yearFromDay n + 1) := by
  unfold yearFromDay
  dsimp only
  split
  · rename_i hbefore
    rw [Int.sub_add_cancel]
    refine ⟨?_, hbefore⟩
    unfold dayFromYear
    omega
  · split
    · rename_i hafter
      refine ⟨hafter, ?_⟩
      unfold dayFromYear
      omega
    · omega

/-- The year of a day is determined by the days it begins and ends with. -/
theorem yearFromDay_eq {n y : Int} (h : dayFromYear y ≤ n) (h' : n < dayFromYear (y + 1)) :
    yearFromDay n = y := by
  obtain ⟨hle, hlt⟩ := yearFromDay_spec n
  rcases lt_trichotomy (yearFromDay n) y with hbefore | heq | hafter
  · have hmono : dayFromYear (yearFromDay n + 1) ≤ dayFromYear y := dayFromYear_mono hbefore
    omega
  · exact heq
  · have hmono : dayFromYear (y + 1) ≤ dayFromYear (yearFromDay n) := dayFromYear_mono hafter
    omega

-- ============================================================================
-- Months
-- ============================================================================

/-- The days of the year before the month; the 13th ends the year. -/
def daysBefore (leap : Bool) : Nat → Int
  | 0 | 1 => 0
  | 2 => 31
  | 3 => 59 + leapDay leap
  | 4 => 90 + leapDay leap
  | 5 => 120 + leapDay leap
  | 6 => 151 + leapDay leap
  | 7 => 181 + leapDay leap
  | 8 => 212 + leapDay leap
  | 9 => 243 + leapDay leap
  | 10 => 273 + leapDay leap
  | 11 => 304 + leapDay leap
  | 12 => 334 + leapDay leap
  | _ => 365 + leapDay leap

def daysInMonth (leap : Bool) (month : Nat) : Int :=
  daysBefore leap (month + 1) - daysBefore leap month

/-- Of the first `k + 1` months, the last that has begun. -/
def lastBegun (leap : Bool) (n : Int) : Nat → Nat
  | 0 => 1
  | k + 1 => if daysBefore leap (k + 2) ≤ n then k + 2 else lastBegun leap n k

/-- `MonthFromTime`. -/
def monthFromDay (leap : Bool) (n : Int) : Nat := lastBegun leap n 11

theorem lastBegun_spec {leap : Bool} {n : Int} (h0 : 0 ≤ n) (k : Nat)
    (h : n < daysBefore leap (k + 2)) :
    1 ≤ lastBegun leap n k ∧ lastBegun leap n k ≤ k + 1 ∧
      daysBefore leap (lastBegun leap n k) ≤ n ∧ n < daysBefore leap (lastBegun leap n k + 1) := by
  induction k with
  | zero => exact ⟨Nat.le_refl 1, Nat.le_refl 1, h0, h⟩
  | succ k ih =>
      unfold lastBegun
      split
      · rename_i hbegun
        exact ⟨by omega, Nat.le_refl _, hbegun, h⟩
      · rename_i hnot
        obtain ⟨h1, hle, hbegun, hend⟩ := ih (Int.not_le.mp hnot)
        exact ⟨h1, by omega, hbegun, hend⟩

theorem monthFromDay_spec {leap : Bool} {n : Int} (h0 : 0 ≤ n) (h : n < 365 + leapDay leap) :
    1 ≤ monthFromDay leap n ∧ monthFromDay leap n ≤ 12 ∧
      daysBefore leap (monthFromDay leap n) ≤ n ∧ n < daysBefore leap (monthFromDay leap n + 1) :=
  lastBegun_spec h0 11 h

theorem daysBefore_le_succ (leap : Bool) (month : Nat) :
    daysBefore leap month ≤ daysBefore leap (month + 1) := by
  have htable : ∀ leap, ∀ month : Fin 13, daysBefore leap month ≤ daysBefore leap (month + 1) := by
    decide
  by_cases h : month < 13
  · exact htable leap ⟨month, h⟩
  · obtain ⟨k, rfl⟩ := Nat.exists_eq_add_of_le' (Nat.not_lt.mp h)
    exact Int.le_refl (daysBefore leap (k + 13))

theorem daysBefore_mono (leap : Bool) {m n : Nat} (h : m ≤ n) :
    daysBefore leap m ≤ daysBefore leap n :=
  monotone_nat_of_le_succ (daysBefore_le_succ leap) h

theorem daysBefore_nonneg (leap : Bool) (month : Nat) : 0 ≤ daysBefore leap month :=
  daysBefore_mono leap (Nat.zero_le month)

theorem daysBefore_le (leap : Bool) {month : Nat} (h12 : month ≤ 12) :
    daysBefore leap (month + 1) ≤ 365 + leapDay leap :=
  daysBefore_mono leap (show month + 1 ≤ 13 by omega)

/-- The month of a day is determined by the days it begins and ends with. -/
theorem monthFromDay_eq {leap : Bool} {n : Int} {month : Nat} (h12 : month ≤ 12)
    (h : daysBefore leap month ≤ n) (h' : n < daysBefore leap (month + 1)) :
    monthFromDay leap n = month := by
  have hnonneg := daysBefore_nonneg leap month
  have hend := daysBefore_le leap h12
  obtain ⟨-, -, hle, hlt⟩ := @monthFromDay_spec leap n (by omega) (by omega)
  rcases Nat.lt_trichotomy (monthFromDay leap n) month with hbefore | heq | hafter
  · have hmono : daysBefore leap (monthFromDay leap n + 1) ≤ daysBefore leap month :=
      daysBefore_mono leap hbefore
    omega
  · exact heq
  · have hmono : daysBefore leap (month + 1) ≤ daysBefore leap (monthFromDay leap n) :=
      daysBefore_mono leap hafter
    omega

-- ============================================================================
-- Dates
-- ============================================================================

structure CalendarDate where
  year : Int
  month : Nat
  day : Int
deriving DecidableEq, Repr

namespace CalendarDate

/-- The date exists. -/
structure Valid (d : CalendarDate) : Prop where
  month : 1 ≤ d.month ∧ d.month ≤ 12
  day : 1 ≤ d.day ∧ d.day ≤ daysInMonth (isLeapYear d.year) d.month

/-- `MakeDay`.  A day too many for its month is one of the next month. -/
def number (d : CalendarDate) : Int :=
  dayFromYear d.year + daysBefore (isLeapYear d.year) d.month + d.day - 1

/-- The date with a number. -/
def ofNumber (n : Int) : CalendarDate :=
  let year := yearFromDay n
  let month := monthFromDay (isLeapYear year) (n - dayFromYear year)
  { year, month, day := n - dayFromYear year - daysBefore (isLeapYear year) month + 1 }

theorem valid_ofNumber (n : Int) : (ofNumber n).Valid := by
  obtain ⟨hle, hlt⟩ := yearFromDay_spec n
  rw [dayFromYear_succ] at hlt
  obtain ⟨h1, h12, hmonth, hmonth'⟩ :=
    @monthFromDay_spec (isLeapYear (yearFromDay n)) (n - dayFromYear (yearFromDay n))
      (by omega) (by omega)
  refine ⟨⟨h1, h12⟩, ?_⟩
  unfold ofNumber daysInMonth
  dsimp only
  omega

theorem ofNumber_number {d : CalendarDate} (h : d.Valid) : ofNumber d.number = d := by
  obtain ⟨⟨h1, h12⟩, hday, hday'⟩ := h
  unfold daysInMonth at hday'
  have hnonneg := daysBefore_nonneg (isLeapYear d.year) d.month
  have hle := daysBefore_le (isLeapYear d.year) h12
  have hyear : yearFromDay d.number = d.year := by
    apply yearFromDay_eq
    · unfold number
      omega
    · rw [dayFromYear_succ]
      unfold number
      omega
  have hmonth : monthFromDay (isLeapYear d.year) (d.number - dayFromYear d.year) = d.month := by
    apply monthFromDay_eq h12
    · unfold number
      omega
    · unfold number
      omega
  unfold ofNumber
  dsimp only
  rw [hyear, hmonth]
  have hback : d.number - dayFromYear d.year - daysBefore (isLeapYear d.year) d.month + 1 = d.day := by
    unfold number
    omega
  rw [hback]

/-- A valid date is determined by its number. -/
theorem number_injective {d e : CalendarDate} (hd : d.Valid) (he : e.Valid)
    (h : d.number = e.number) : d = e := by
  rw [← ofNumber_number hd, h, ofNumber_number he]

/-- A date that its number leads back to is valid. -/
theorem valid_iff {d : CalendarDate} : d.Valid ↔ ofNumber d.number = d := by
  constructor
  · exact ofNumber_number
  · intro h
    rw [← h]
    exact valid_ofNumber _

/-- The day after. -/
def next (d : CalendarDate) : CalendarDate :=
  if d.day < daysInMonth (isLeapYear d.year) d.month then { d with day := d.day + 1 }
  else if d.month < 12 then { d with month := d.month + 1, day := 1 }
  else { year := d.year + 1, month := 1, day := 1 }

theorem daysInMonth_pos (leap : Bool) {month : Nat} (h1 : 1 ≤ month) (h12 : month ≤ 12) :
    1 ≤ daysInMonth leap month := by
  have htable : ∀ leap, ∀ month : Fin 13, 1 ≤ (month : Nat) → 1 ≤ daysInMonth leap month := by decide
  exact htable leap ⟨month, by omega⟩ h1

theorem Valid.next {d : CalendarDate} (h : d.Valid) : d.next.Valid := by
  obtain ⟨⟨h1, h12⟩, hday, hday'⟩ := h
  unfold CalendarDate.next
  split
  · rename_i hlt
    have hday1 : 1 ≤ d.day + 1 := by omega
    exact ⟨⟨h1, h12⟩, hday1, hlt⟩
  · split
    · rename_i hlt
      have hmonth : d.month + 1 ≤ 12 := by omega
      have hmonth' : 1 ≤ d.month + 1 := by omega
      exact ⟨⟨hmonth', hmonth⟩, Int.le_refl 1, daysInMonth_pos _ hmonth' hmonth⟩
    · have h12' : 1 ≤ 12 := by decide
      exact ⟨⟨Nat.le_refl 1, h12'⟩, Int.le_refl 1, daysInMonth_pos _ (Nat.le_refl 1) h12'⟩

/-- **The day after has the next number.** -/
theorem Valid.number_next {d : CalendarDate} (h : d.Valid) : d.next.number = d.number + 1 := by
  obtain ⟨⟨h1, h12⟩, hday, hday'⟩ := h
  unfold CalendarDate.next
  split
  · show dayFromYear d.year + daysBefore (isLeapYear d.year) d.month + (d.day + 1) - 1 = d.number + 1
    unfold number
    omega
  · rename_i hlast
    unfold daysInMonth at hday' hlast
    split
    · show dayFromYear d.year + daysBefore (isLeapYear d.year) (d.month + 1) + 1 - 1 = d.number + 1
      unfold number
      omega
    · have hdecember : d.month = 12 := by omega
      show dayFromYear (d.year + 1) + 0 + 1 - 1 = d.number + 1
      rw [dayFromYear_succ]
      unfold number
      rw [hdecember] at hday' hlast ⊢
      simp only [daysBefore] at hday' hlast ⊢
      omega

end CalendarDate

-- ============================================================================
-- Digits
-- ============================================================================

/-- The last `w` digits of a number. -/
def padDigits : Nat → Nat → List Char
  | 0, _ => []
  | w + 1, n => padDigits w (n / 10) ++ [Nat.digitChar (n % 10)]

theorem length_padDigits (w n : Nat) : (padDigits w n).length = w := by
  induction w generalizing n with
  | zero => rfl
  | succ w ih => rw [padDigits, List.length_append, ih, List.length_singleton]

theorem isDigit_of_mem_padDigits {w n : Nat} {c : Char} (h : c ∈ padDigits w n) :
    c.isDigit = true := by
  induction w generalizing n with
  | zero => cases h
  | succ w ih =>
      rw [padDigits, List.mem_append, List.mem_singleton] at h
      rcases h with hinit | rfl
      · exact ih hinit
      · rw [Nat.isDigit_digitChar, decide_eq_true_eq]
        omega

/-- A number is read back from enough of its digits. -/
theorem ofDigitChars_padDigits {w n : Nat} (h : n < 10 ^ w) :
    Nat.ofDigitChars 10 (padDigits w n) 0 = n := by
  induction w generalizing n with
  | zero =>
      have hzero : n = 0 := by omega
      rw [hzero]
      rfl
  | succ w ih =>
      have hdiv : n / 10 < 10 ^ w := by omega
      have hdigit : n % 10 < 10 := Nat.mod_lt n (by decide)
      rw [padDigits, Nat.ofDigitChars_append, ih hdiv, Nat.ofDigitChars_cons_digitChar_of_lt_ten hdigit,
        Nat.ofDigitChars_nil]
      omega

theorem digit_bounds {c : Char} (h : c.isDigit = true) : 48 ≤ c.toNat ∧ c.toNat ≤ 57 := by
  unfold Char.isDigit at h
  rw [Bool.and_eq_true, decide_eq_true_eq, decide_eq_true_eq] at h
  exact h

theorem digitChar_toNat {c : Char} (h : c.isDigit = true) : Nat.digitChar (c.toNat - 48) = c := by
  obtain ⟨hmin, hmax⟩ := digit_bounds h
  apply Char.toNat_inj.mp
  rw [Nat.toNat_digitChar_of_lt_ten (by omega)]
  omega

/-- Digits are those of the number they read as. -/
theorem padDigits_ofDigitChars {cs : List Char} (h : ∀ c ∈ cs, c.isDigit = true) :
    padDigits cs.length (Nat.ofDigitChars 10 cs 0) = cs ∧
      Nat.ofDigitChars 10 cs 0 < 10 ^ cs.length := by
  induction cs using List.reverseRecOn with
  | nil => exact ⟨rfl, Nat.one_pos⟩
  | append_singleton cs c ih =>
      have hc : c.isDigit = true := h c (by simp)
      obtain ⟨hmin, hmax⟩ := digit_bounds hc
      obtain ⟨hpad, hlt⟩ := ih fun d hd => h d (List.mem_append_left _ hd)
      have hread : Nat.ofDigitChars 10 (cs ++ [c]) 0 =
          10 * Nat.ofDigitChars 10 cs 0 + (c.toNat - 48) := by
        rw [Nat.ofDigitChars_append, Nat.ofDigitChars_cons, Nat.ofDigitChars_nil]
        rfl
      rw [hread, List.length_append, List.length_singleton, padDigits]
      have hdiv : (10 * Nat.ofDigitChars 10 cs 0 + (c.toNat - 48)) / 10 = Nat.ofDigitChars 10 cs 0 := by
        omega
      have hmod : (10 * Nat.ofDigitChars 10 cs 0 + (c.toNat - 48)) % 10 = c.toNat - 48 := by omega
      refine ⟨?_, by omega⟩
      rw [hdiv, hmod, hpad, digitChar_toNat hc]

-- ============================================================================
-- Dates as text
-- ============================================================================

/-- `/^\d{4}-\d{2}-\d{2}$/`. -/
def datePattern : List (Char → Bool) :=
  let d := Char.isDigit
  let dash := fun c => c == '-'
  [d, d, d, d, dash, d, d, dash, d, d]

namespace CalendarDate

/-- The date part of `toISOString`: years that have not four digits have a sign and six. -/
def isoChars (d : CalendarDate) : List Char :=
  (if 0 ≤ d.year ∧ d.year ≤ 9999 then padDigits 4 d.year.toNat
    else (if d.year < 0 then '-' else '+') :: padDigits 6 d.year.natAbs) ++
  '-' :: padDigits 2 d.month ++ '-' :: padDigits 2 d.day.toNat

/-- The numbers in a text that matches the pattern. -/
def ofChars (cs : List Char) : CalendarDate where
  year := Nat.ofDigitChars 10 (cs.take 4) 0
  month := Nat.ofDigitChars 10 ((cs.drop 5).take 2) 0
  day := Nat.ofDigitChars 10 ((cs.drop 8).take 2) 0

/-- A text that matches the pattern is that of its numbers, and they are small. -/
theorem isoChars_ofChars {cs : List Char} (h : matchAll datePattern cs = true) :
    (ofChars cs).isoChars = cs ∧ 0 ≤ (ofChars cs).year ∧ (ofChars cs).year ≤ 9999 := by
  have hlength : cs.length = 10 := length_of_matchAll h
  unfold datePattern at h
  match cs, hlength with
  | [y1, y2, y3, y4, s, m1, m2, t, d1, d2], _ =>
      simp only [matchAll, Bool.and_eq_true, beq_iff_eq, and_true] at h
      obtain ⟨hy1, hy2, hy3, hy4, rfl, hm1, hm2, rfl, hd1, hd2⟩ := h
      obtain ⟨hyear, hyear'⟩ := @padDigits_ofDigitChars [y1, y2, y3, y4] (by simp [*])
      obtain ⟨hmonth, -⟩ := @padDigits_ofDigitChars [m1, m2] (by simp [*])
      obtain ⟨hday, -⟩ := @padDigits_ofDigitChars [d1, d2] (by simp [*])
      have hbound : 0 ≤ (ofChars [y1, y2, y3, y4, '-', m1, m2, '-', d1, d2]).year ∧
          (ofChars [y1, y2, y3, y4, '-', m1, m2, '-', d1, d2]).year ≤ 9999 := by
        change Nat.ofDigitChars 10 [y1, y2, y3, y4] 0 < 10 ^ 4 at hyear'
        show 0 ≤ ((Nat.ofDigitChars 10 [y1, y2, y3, y4] 0 : Nat) : Int) ∧
          ((Nat.ofDigitChars 10 [y1, y2, y3, y4] 0 : Nat) : Int) ≤ 9999
        omega
      refine ⟨?_, hbound⟩
      unfold isoChars
      rw [if_pos hbound]
      show padDigits 4 (Nat.ofDigitChars 10 [y1, y2, y3, y4] 0) ++
        '-' :: padDigits 2 (Nat.ofDigitChars 10 [m1, m2] 0) ++
        '-' :: padDigits 2 (Nat.ofDigitChars 10 [d1, d2] 0) = _
      change padDigits 4 _ = _ at hyear
      change padDigits 2 _ = _ at hmonth hday
      rw [hyear, hmonth, hday]
      rfl

theorem daysInMonth_le (leap : Bool) {month : Nat} (h12 : month ≤ 12) :
    daysInMonth leap month ≤ 31 := by
  have htable : ∀ leap, ∀ month : Fin 13, daysInMonth leap month ≤ 31 := by decide
  exact htable leap ⟨month, by omega⟩

/-- A date of four digits is read back from its text, which matches the pattern. -/
theorem ofChars_isoChars {d : CalendarDate} (h : d.Valid) (hyear : 0 ≤ d.year ∧ d.year ≤ 9999) :
    matchAll datePattern d.isoChars = true ∧ ofChars d.isoChars = d := by
  obtain ⟨⟨h1, h12⟩, hday, hday'⟩ := h
  have hle := daysInMonth_le (isLeapYear d.year) h12
  have hdigit : ∀ {w n : Nat} {c : Char}, c ∈ padDigits w n → c.isDigit = true :=
    isDigit_of_mem_padDigits
  unfold isoChars
  rw [if_pos hyear]
  constructor
  · show matchAll datePattern (padDigits 4 d.year.toNat ++ '-' :: padDigits 2 d.month ++
      '-' :: padDigits 2 d.day.toNat) = true
    have h4 : ∀ n, (padDigits 4 n).all Char.isDigit = true := fun n =>
      List.all_eq_true.mpr fun c hc => hdigit hc
    have h2 : ∀ n, (padDigits 2 n).all Char.isDigit = true := fun n =>
      List.all_eq_true.mpr fun c hc => hdigit hc
    have hy := h4 d.year.toNat
    have hm := h2 d.month
    have hd := h2 d.day.toNat
    simp only [padDigits, List.nil_append, List.cons_append, List.all_cons, List.all_nil,
      Bool.and_true, Bool.and_eq_true] at hy hm hd
    simp [datePattern, matchAll, padDigits, hy, hm, hd]
  · have hy : Nat.ofDigitChars 10 (padDigits 4 d.year.toNat) 0 = d.year.toNat :=
      ofDigitChars_padDigits (by omega)
    have hm : Nat.ofDigitChars 10 (padDigits 2 d.month) 0 = d.month :=
      ofDigitChars_padDigits (by omega)
    have hd : Nat.ofDigitChars 10 (padDigits 2 d.day.toNat) 0 = d.day.toNat :=
      ofDigitChars_padDigits (by omega)
    show CalendarDate.mk (Nat.ofDigitChars 10 (padDigits 4 d.year.toNat) 0 : Nat)
      (Nat.ofDigitChars 10 (padDigits 2 d.month) 0)
      (Nat.ofDigitChars 10 (padDigits 2 d.day.toNat) 0 : Nat) = d
    rw [hy, hm, hd, Int.toNat_of_nonneg hyear.1, Int.toNat_of_nonneg (by omega)]

end CalendarDate

end Js
