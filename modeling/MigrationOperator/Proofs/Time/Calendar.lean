/-
Dates and day counts give each other back.

A day of the 400 years after which the calendar repeats is taken apart into century, group of four years, year and day
(`exists_eraDay`), and `exists_dateOfDays` says that the date of a day count is read off these. So the date of every count
is one of the calendar (`isDate_dateOfDays`), its count is the one it came from (`daysOfDate_dateOfDays`), and from the first
to the last day of the years 0 to 9999 its numbers have no sign (`exists_date`).
-/
import Mathlib.Tactic.IntervalCases
import MigrationOperator.Time.Calendar

namespace MigrationOperator.Calendar

/-! ## Days of an era -/

/-- a day of an era by century, group of four years, year and day; years are counted from March, so the last year of a
group is the one with a leap day, unless the group is the last one of a century other than the last -/
structure EraDay (c g t n : Int) : Prop where
  century : 0 ≤ c ∧ c ≤ 3
  group : 0 ≤ g ∧ g ≤ 24
  year : 0 ≤ t ∧ t ≤ 3
  day : 0 ≤ n ∧ n ≤ 364 ∨ n = 365 ∧ t = 3 ∧ (g < 24 ∨ c = 3)

theorem exists_eraDay {d : Int} (h0 : 0 ≤ d) (h1 : d ≤ 146096) :
    ∃ c g t n, EraDay c g t n ∧ d = 36524 * c + 1461 * g + 365 * t + n := by
  let c := min (d / 36524) 3
  let r := d - 36524 * c
  let g := min (r / 1461) 24
  let s := r - 1461 * g
  let t := min (s / 365) 3
  exact ⟨c, g, t, s - 365 * t, ⟨by omega, by omega, by omega, by omega⟩, by omega⟩

theorem yearOfEra_eq {c g t n : Int} (h : EraDay c g t n) :
    let d := 36524 * c + 1461 * g + 365 * t + n
    (d - d / 1460 + d / 36524 - d / 146096) / 365 = 100 * c + 4 * g + t := by
  intro d
  obtain ⟨hc, hg, ht, hn⟩ := h
  -- the first correction is one too much on the last days of a group only, and those are all of one year
  have hgroups : d / 1460 = 25 * c + g ∨ d / 1460 = 25 * c + g + 1 := by omega
  have hcenturies : d / 36524 = c ∧ d / 146096 = 0 ∨ d / 36524 = 4 ∧ d / 146096 = 1 ∧ c = 3 := by
    have hlast : d - 36524 * c ≤ 36523 ∨ d = 146096 ∧ c = 3 := by omega
    omega
  omega

/-- the date of a day count, by the era that it falls into and the day of that -/
theorem exists_dateOfDays (days : Int) : ∃ era c g t n, EraDay c g t n ∧
    days + 719468 = 146097 * era + (36524 * c + 1461 * g + 365 * t + n) ∧
    dateOfDays days =
      let mp := (5 * n + 2) / 153
      let month := if mp < 10 then mp + 3 else mp - 9
      (100 * c + 4 * g + t + era * 400 + (if month ≤ 2 then 1 else 0), month, n - (153 * mp + 2) / 5 + 1) := by
  obtain ⟨c, g, t, n, hday, hd⟩ := exists_eraDay (d := (days + 719468) % 146097) (by omega) (by omega)
  refine ⟨(days + 719468) / 146097, c, g, t, n, hday, by omega, ?_⟩
  have hdayOfEra : days + 719468 - (days + 719468) / 146097 * 146097 = 36524 * c + 1461 * g + 365 * t + n := by omega
  have hyear := yearOfEra_eq hday
  simp only [dateOfDays, hdayOfEra, hyear]
  obtain ⟨hc, hg, ht, hn⟩ := hday
  have hgroups : (100 * c + 4 * g + t) / 4 = 25 * c + g := by omega
  have hcenturies : (100 * c + 4 * g + t) / 100 = c := by omega
  have hdayOfYear : 36524 * c + 1461 * g + 365 * t + n - (365 * (100 * c + 4 * g + t) + (25 * c + g) - c) = n := by omega
  rw [hgroups, hcenturies, hdayOfYear]

/-! ## Dates -/

/-- a year, a month of it and a day of that -/
structure IsDate (date : Int × Int × Int) : Prop where
  month : 1 ≤ date.2.1 ∧ date.2.1 ≤ 12
  day : 1 ≤ date.2.2 ∧ date.2.2 ≤ daysInMonth date.1 date.2.1

theorem IsDate.day_le {date : Int × Int × Int} (h : IsDate date) : date.2.2 ≤ 31 := by
  have hday := h.day.2
  unfold daysInMonth at hday
  split_ifs at hday <;> omega

theorem isDate_dateOfDays (days : Int) : IsDate (dateOfDays days) := by
  obtain ⟨era, c, g, t, n, ⟨hc, hg, ht, hn⟩, -, hdate⟩ := exists_dateOfDays days
  rw [hdate]
  generalize hmp : (5 * n + 2) / 153 = mp
  have hmonths : 0 ≤ mp ∧ mp ≤ 11 := by omega
  constructor
  · dsimp only
    split <;> omega
  · dsimp only [daysInMonth, isLeap]
    obtain ⟨h0, h11⟩ := hmonths
    interval_cases mp <;> simp <;> omega

theorem daysOfDate_dateOfDays (days : Int) :
    daysOfDate (dateOfDays days).1 (dateOfDays days).2.1 (dateOfDays days).2.2 = days := by
  obtain ⟨era, c, g, t, n, ⟨hc, hg, ht, hn⟩, hdays, hdate⟩ := exists_dateOfDays days
  rw [hdate]
  dsimp only [daysOfDate]
  generalize hmp : (5 * n + 2) / 153 = mp
  have hmonths : 0 ≤ mp ∧ mp ≤ 11 := by omega
  split <;> split <;> omega

theorem year_dateOfDays {days : Int} (h0 : daysOfDate 0 1 1 ≤ days) (h1 : days ≤ daysOfDate 9999 12 31) :
    0 ≤ (dateOfDays days).1 ∧ (dateOfDays days).1 ≤ 9999 := by
  obtain ⟨era, c, g, t, n, ⟨hc, hg, ht, hn⟩, hdays, hdate⟩ := exists_dateOfDays days
  have hfirst : daysOfDate 0 1 1 = -719528 := by decide
  have hlast : daysOfDate 9999 12 31 = 2932896 := by decide
  rw [hdate]
  dsimp only
  generalize hmp : (5 * n + 2) / 153 = mp
  -- counted from March, the first days are in the year -1, but from January on
  have hlow : 0 ≤ 100 * c + 4 * g + t + era * 400 ∨ 100 * c + 4 * g + t + era * 400 = -1 ∧ 306 ≤ n := by
    have hera : 0 ≤ era ∨ era = -1 := by omega
    rcases hera with hera | rfl
    · omega
    · have hcentury : c = 3 := by omega
      have hgroup : g = 24 := by omega
      omega
  have hhigh : 100 * c + 4 * g + t + era * 400 ≤ 9998 ∨ 100 * c + 4 * g + t + era * 400 = 9999 ∧ n ≤ 305 := by
    have hera : era ≤ 24 := by omega
    omega
  split <;> split <;> omega

/-- in the years 0 to 9999 a date consists of natural numbers -/
theorem exists_date {days : Int} (h0 : daysOfDate 0 1 1 ≤ days) (h1 : days ≤ daysOfDate 9999 12 31) :
    ∃ year month day : Nat, dateOfDays days = ((year : Int), (month : Int), (day : Int)) ∧ IsDate (year, month, day) ∧
      year ≤ 9999 ∧ daysOfDate year month day = days := by
  have hdate := isDate_dateOfDays days
  have hdays := daysOfDate_dateOfDays days
  obtain ⟨hyear0, hyear⟩ := year_dateOfDays h0 h1
  generalize dateOfDays days = date at hdate hdays hyear0 hyear
  obtain ⟨y, m, d⟩ := date
  obtain ⟨year, rfl⟩ := Int.eq_ofNat_of_zero_le hyear0
  obtain ⟨month, rfl⟩ := Int.eq_ofNat_of_zero_le (Int.le_trans (by decide) hdate.month.1)
  obtain ⟨day, rfl⟩ := Int.eq_ofNat_of_zero_le (Int.le_trans (by decide) hdate.day.1)
  exact ⟨year, month, day, rfl, hdate, Int.ofNat_le.1 hyear, hdays⟩

end MigrationOperator.Calendar
