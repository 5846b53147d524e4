/-
  Kasir.Reports.Dates

  The dates of reports and the windows they stand for.

  A text is a report date exactly if it is that of a date of the calendar, and the windows
  of consecutive days tile the range between the first and the one after the last.
-/

import Kasir.Reports.Service

namespace Kasir.Reports

open Txn Js

-- ============================================================================
-- Report dates
-- ============================================================================

/-- The text is that of a date of the calendar, of a year of four digits. -/
structure IsDate (s : String) (d : CalendarDate) : Prop where
  valid : d.Valid
  year : 0 ≤ d.year ∧ d.year ≤ 9999
  text : s.toList = d.isoChars

def dateText (d : CalendarDate) : String := String.ofList d.isoChars

theorem isDate_dateText {d : CalendarDate} (h : d.Valid) (hyear : 0 ≤ d.year ∧ d.year ≤ 9999) :
    IsDate (dateText d) d :=
  ⟨h, hyear, String.toList_ofList⟩

theorem IsDate.unique {s : String} {d e : CalendarDate} (hd : IsDate s d) (he : IsDate s e) :
    d = e := by
  have hback := (CalendarDate.ofChars_isoChars hd.valid hd.year).2
  have hback' := (CalendarDate.ofChars_isoChars he.valid he.year).2
  rw [← hd.text] at hback
  rw [← he.text] at hback'
  exact hback.symm.trans hback'

theorem IsDate.eq_dateText {s : String} {d : CalendarDate} (h : IsDate s d) : s = dateText d := by
  apply String.toList_inj.mp
  rw [h.text, dateText, String.toList_ofList]

/-- Midnight in Jakarta. -/
def boundaryOf (n : Int) : Int := n * msPerDay - jakartaOffset

theorem isoDate_boundaryOf (n : Int) :
    isoDate (boundaryOf n + jakartaOffset) = (CalendarDate.ofNumber n).isoChars.take 10 := by
  have hday : (boundaryOf n + jakartaOffset) / msPerDay = n := by
    rw [boundaryOf, Int.sub_add_cancel]
    exact Int.mul_ediv_cancel n (by decide)
  rw [isoDate, hday]

theorem length_isoChars {d : CalendarDate} (hyear : 0 ≤ d.year ∧ d.year ≤ 9999) :
    d.isoChars.length = 10 := by
  unfold CalendarDate.isoChars
  rw [if_pos hyear]
  simp [length_padDigits]

/-- A year that has not four digits is written with a sign. -/
theorem not_match_isoChars {d : CalendarDate} (hyear : ¬ (0 ≤ d.year ∧ d.year ≤ 9999)) :
    matchAll datePattern (d.isoChars.take 10) = false := by
  unfold CalendarDate.isoChars
  rw [if_neg hyear]
  split <;> simp [datePattern, matchAll]

/-- **Report dates.**  A text has a boundary exactly if it is that of a date. -/
theorem dateBoundary_ok {s : String} {b : Int} :
    dateBoundary s = .ok b ↔ ∃ d, IsDate s d ∧ b = boundaryOf d.number := by
  constructor
  · intro h
    unfold dateBoundary at h
    split at h
    · rename_i hmatch
      obtain ⟨hchars, hyear⟩ := CalendarDate.isoChars_ofChars hmatch
      generalize hd : CalendarDate.ofChars s.toList = d at h hchars hyear
      unfold jakartaMidnight at h
      split at h
      · cases h
      · rename_i value hvalue
        split at hvalue
        · obtain rfl := Option.some.inj hvalue
          split at h
          · rename_i htext
            change isoDate (boundaryOf d.number + jakartaOffset) = s.toList at htext
            rw [isoDate_boundaryOf] at htext
            -- the date the boundary is shown as is the one that was read
            have hshown : CalendarDate.ofNumber d.number = d := by
              by_cases hfour : 0 ≤ (CalendarDate.ofNumber d.number).year ∧
                  (CalendarDate.ofNumber d.number).year ≤ 9999
              · rw [List.take_of_length_le (Nat.le_of_eq (length_isoChars hfour))] at htext
                have hback := (CalendarDate.ofChars_isoChars
                  (CalendarDate.valid_ofNumber d.number) hfour).2
                rw [htext, hd] at hback
                exact hback.symm
              · have hno := not_match_isoChars hfour
                rw [htext, hmatch] at hno
                cases hno
            obtain rfl := Except.ok.inj h
            exact ⟨d, ⟨CalendarDate.valid_iff.mpr hshown, hyear, hchars.symm⟩, rfl⟩
          · cases h
        · cases hvalue
    · cases h
  · rintro ⟨d, hdate, rfl⟩
    obtain ⟨hmatch, hback⟩ := CalendarDate.ofChars_isoChars hdate.valid hdate.year
    have hmonth := hdate.valid.month
    have hday := hdate.valid.day
    have hle := CalendarDate.daysInMonth_le (isLeapYear d.year) hmonth.2
    have hmidnight : jakartaMidnight d = some (boundaryOf d.number) :=
      if_pos ⟨hmonth.1, hmonth.2, hday.1, by omega⟩
    have htext : isoDate (boundaryOf d.number + jakartaOffset) = d.isoChars := by
      rw [isoDate_boundaryOf, CalendarDate.ofNumber_number hdate.valid]
      exact List.take_of_length_le (Nat.le_of_eq (length_isoChars hdate.year))
    unfold dateBoundary
    rw [hdate.text, if_pos hmatch, hback, hmidnight]
    exact if_pos htext

-- ============================================================================
-- Days
-- ============================================================================

/-- The window of the day with the number. -/
def dayRange (n : Int) : ReportDateRange := { start := boundaryOf n, stop := boundaryOf n + msPerDay }

/-- The day in Jakarta of an instant. -/
def dayOf (createdAt : Int) : Int := (createdAt + jakartaOffset * 1000) / (msPerDay * 1000)

theorem boundaryOf_succ (n : Int) : boundaryOf (n + 1) = boundaryOf n + msPerDay := by
  unfold boundaryOf
  rw [Int.add_mul, Int.one_mul]
  omega

theorem boundaryOf_lt {m n : Int} : boundaryOf m < boundaryOf n ↔ m < n := by
  unfold boundaryOf
  have hday : msPerDay = 86400000 := by decide
  rw [hday]
  omega

theorem contains_iff {range : ReportDateRange} {createdAt : Int} :
    range.contains createdAt = true ↔
      range.start * 1000 ≤ createdAt ∧ createdAt < range.stop * 1000 := by
  rw [ReportDateRange.contains, Bool.and_eq_true, decide_eq_true_eq, decide_eq_true_eq]

/-- Midnights cut the timeline into days. -/
theorem le_dayOf {n createdAt : Int} : n ≤ dayOf createdAt ↔ boundaryOf n * 1000 ≤ createdAt := by
  have hday : msPerDay = 86400000 := by decide
  have hoffset : jakartaOffset = 25200000 := by decide
  unfold dayOf boundaryOf
  rw [hday, hoffset]
  omega

/-- The window of a day has the instants of the day. -/
theorem contains_dayRange {n createdAt : Int} :
    (dayRange n).contains createdAt = true ↔ dayOf createdAt = n := by
  have hstop : (dayRange n).stop = boundaryOf (n + 1) := (boundaryOf_succ n).symm
  rw [contains_iff, hstop]
  have hstart : (dayRange n).start * 1000 ≤ createdAt ↔ n ≤ dayOf createdAt := le_dayOf.symm
  have hnext := @le_dayOf (n + 1) createdAt
  omega

/-- The range between two midnights has the instants of the days between them. -/
theorem contains_between {m n createdAt : Int} :
    (ReportDateRange.mk (boundaryOf m) (boundaryOf n)).contains createdAt = true ↔
      m ≤ dayOf createdAt ∧ dayOf createdAt < n := by
  rw [contains_iff]
  have hstart := @le_dayOf m createdAt
  have hstop := @le_dayOf n createdAt
  show boundaryOf m * 1000 ≤ createdAt ∧ createdAt < boundaryOf n * 1000 ↔ _
  omega

theorem dailyRange_of_isDate {s : String} {d : CalendarDate} (h : IsDate s d) :
    dailyRange s = .ok (dayRange d.number) := by
  have hboundary := dateBoundary_ok.mpr ⟨d, h, rfl⟩
  rw [dailyRange, hboundary]
  rfl

theorem summaryRange_ok {s1 s2 : String} {range : ReportDateRange} :
    summaryRange s1 s2 = .ok range ↔ ∃ d1 d2, IsDate s1 d1 ∧ IsDate s2 d2 ∧ d1.number < d2.number ∧
      range = { start := boundaryOf d1.number, stop := boundaryOf d2.number } := by
  constructor
  · intro h
    obtain ⟨b1, hb1, h⟩ := Checked.bind_ok.mp h
    obtain ⟨b2, hb2, h⟩ := Checked.bind_ok.mp h
    obtain ⟨d1, hd1, rfl⟩ := dateBoundary_ok.mp hb1
    obtain ⟨d2, hd2, rfl⟩ := dateBoundary_ok.mp hb2
    split at h
    · cases h
    · rename_i hlt
      exact ⟨d1, d2, hd1, hd2, boundaryOf_lt.mp (Int.not_le.mp hlt), (Except.ok.inj h).symm⟩
  · rintro ⟨d1, d2, hd1, hd2, hlt, rfl⟩
    have hb1 := dateBoundary_ok.mpr ⟨d1, hd1, rfl⟩
    have hb2 := dateBoundary_ok.mpr ⟨d2, hd2, rfl⟩
    rw [summaryRange, hb1, hb2]
    exact if_neg (Int.not_le.mpr (boundaryOf_lt.mpr hlt))

-- ============================================================================
-- Consecutive days
-- ============================================================================

/-- `n` consecutive days of the calendar. -/
def consecutive (d : CalendarDate) (n : Nat) : List CalendarDate :=
  (List.range n).map fun k => CalendarDate.next^[k] d

section Consecutive

variable {d : CalendarDate} (h : d.Valid)
include h

theorem valid_iterate (k : Nat) : (CalendarDate.next^[k] d).Valid := by
  induction k with
  | zero => exact h
  | succ k ih =>
      rw [Function.iterate_succ_apply']
      exact ih.next

theorem number_iterate (k : Nat) : (CalendarDate.next^[k] d).number = d.number + k := by
  induction k with
  | zero => exact (Int.add_zero _).symm
  | succ k ih =>
      rw [Function.iterate_succ_apply', (valid_iterate h k).number_next, ih]
      omega

/-- A later date is so many days later. -/
theorem iterate_eq {e : CalendarDate} (he : e.Valid) {n : Nat} (hn : e.number = d.number + n) :
    CalendarDate.next^[n] d = e :=
  CalendarDate.number_injective (valid_iterate h n) he (by rw [number_iterate h, hn])

omit h in
/-- Days before a date are of its year or an earlier one. -/
theorem year_le {e f : CalendarDate} (he : e.Valid) (hf : f.Valid) (hle : e.number ≤ f.number) :
    e.year ≤ f.year := by
  by_contra hlt
  have hmono := dayFromYear_mono (Int.add_one_le_of_lt (Int.not_le.mp hlt))
  have hfirst : dayFromYear e.year ≤ e.number := by
    have hnonneg := daysBefore_nonneg (isLeapYear e.year) e.month
    have hday := he.day.1
    unfold CalendarDate.number
    omega
  have hlast : f.number < dayFromYear (f.year + 1) := by
    have hend := daysBefore_le (isLeapYear f.year) hf.month.2
    have hday := hf.day.2
    unfold daysInMonth at hday
    rw [dayFromYear_succ]
    unfold CalendarDate.number
    omega
  omega

end Consecutive

/-- The days from one report date up to another are report dates. -/
theorem isDate_consecutive {s1 s3 : String} {d1 d3 : CalendarDate} (h1 : IsDate s1 d1)
    (h3 : IsDate s3 d3) {n : Nat} (hn : d3.number = d1.number + n) :
    ∀ d ∈ consecutive d1 n, IsDate (dateText d) d := by
  intro d hd
  obtain ⟨k, hk, rfl⟩ := List.mem_map.mp hd
  have hlt := List.mem_range.mp hk
  have hvalid := valid_iterate h1.valid k
  have hnumber := number_iterate h1.valid k
  have hfrom := year_le h1.valid hvalid (by omega)
  have hto := year_le hvalid h3.valid (by omega)
  have hmin := h1.year.1
  have hmax := h3.year.2
  exact isDate_dateText hvalid ⟨by omega, by omega⟩

/-- The windows of days that follow each other tile the range: every instant of the range
    is in the window of one of the days, and of one only. -/
theorem windows_tile {d1 d3 : CalendarDate} (h1 : d1.Valid) {n : Nat}
    (hn : d3.number = d1.number + n) :
    (∀ t : Int, (ReportDateRange.mk (boundaryOf d1.number) (boundaryOf d3.number)).contains t = true ↔
      ∃ d ∈ consecutive d1 n, (dayRange d.number).contains t = true) ∧
    (consecutive d1 n).Pairwise fun d e =>
      ∀ t : Int, ¬ ((dayRange d.number).contains t = true ∧ (dayRange e.number).contains t = true) := by
  constructor
  · intro t
    rw [contains_between]
    constructor
    · rintro ⟨hfrom, hto⟩
      refine ⟨CalendarDate.next^[(dayOf t - d1.number).toNat] d1, List.mem_map.mpr ⟨_, ?_, rfl⟩, ?_⟩
      · rw [List.mem_range]
        omega
      · rw [contains_dayRange, number_iterate h1]
        omega
    · rintro ⟨d, hd, ht⟩
      obtain ⟨k, hk, rfl⟩ := List.mem_map.mp hd
      have hlt := List.mem_range.mp hk
      rw [contains_dayRange, number_iterate h1] at ht
      omega
  · unfold consecutive
    rw [List.pairwise_map]
    refine List.pairwise_lt_range.imp fun {j k} hjk t => ?_
    rintro ⟨hj, hk⟩
    rw [contains_dayRange, number_iterate h1] at hj hk
    omega

end Kasir.Reports
