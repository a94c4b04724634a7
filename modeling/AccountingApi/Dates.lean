import Mathlib.Algebra.Order.BigOperators.Group.List
import Mathlib.Data.Int.Order.Basic
import Mathlib.Logic.Function.Iterate
import Mathlib.Tactic.Ring
import Mathlib.Order.Basic

/-!
# UTC days and fiscal years

Every date the ledger stores is a UTC day; a request may carry a moment of a day. A fiscal year is
named after the calendar year it starts in, and starts on the first of a configured month.

## Main definitions

* `UtcDay`: a valid calendar date, ordered by time
* `UtcDay.next`, `UtcDay.prev`: the neighbours of a day
* `UtcDay.dateUtc`: the day of a year, a month and a day of the month, as `Date.UTC` reads them
* `Instant`, `truncateToUtcDay`, `dayBefore`: a moment, its day, and the one before
* `fiscalYearForDate`, `fiscalYearStartDate`, `fiscalYearEndDate`
* `fiscalYearFirstDay`, `fiscalYearLastDay`: the bounds in the calendar

## Main results

* `UtcDay.le_iff_epochDay`: the days are ordered as their numbers
* `fiscalYearForDate_eq_iff`: the days of a fiscal year are those between its bounds
* `next_fiscalYearLastDay`: a fiscal year ends on the day before the next one starts
* `truncateToUtcDay_compare`: a moment and a day of this century compare as days
-/

namespace AccountingApi

/-- A moment, in milliseconds. -/
abbrev Timestamp := ℕ

def isLeapYear (year : ℤ) : Bool := year % 4 = 0 && (year % 100 ≠ 0 || year % 400 = 0)

/-- The length of a month, January being `1`. -/
def daysInMonth (year : ℤ) (month : ℕ) : ℕ :=
  if month = 2 then if isLeapYear year then 29 else 28
  else if month = 4 ∨ month = 6 ∨ month = 9 ∨ month = 11 then 30
  else 31

theorem daysInMonth_pos (year : ℤ) (month : ℕ) : 1 ≤ daysInMonth year month := by
  unfold daysInMonth
  grind

theorem daysInMonth_le (year : ℤ) (month : ℕ) : daysInMonth year month ≤ 31 := by
  unfold daysInMonth
  grind

/-- A UTC day: a date of the calendar. -/
structure UtcDay where
  year : ℤ
  month : ℕ
  day : ℕ
  month_pos : 1 ≤ month
  month_le : month ≤ 12
  day_pos : 1 ≤ day
  day_le : day ≤ daysInMonth year month
deriving DecidableEq

namespace UtcDay

/-- The position of a day, in a calendar whose months all have 31 days. -/
def ord (d : UtcDay) : ℤ := d.year * 372 + (d.month - 1) * 31 + (d.day - 1)

instance : LE UtcDay := ⟨fun d e => d.ord ≤ e.ord⟩

instance : DecidableRel ((· ≤ ·) : UtcDay → UtcDay → Prop) :=
  fun d e => inferInstanceAs (Decidable (d.ord ≤ e.ord))

theorem le_iff {d e : UtcDay} : d ≤ e ↔ d.ord ≤ e.ord := Iff.rfl

@[ext] theorem ext {d e : UtcDay} (hyear : d.year = e.year) (hmonth : d.month = e.month)
    (hday : d.day = e.day) : d = e := by
  cases d
  cases e
  simp_all only

theorem day_le_31 (d : UtcDay) : d.day ≤ 31 := d.day_le.trans (daysInMonth_le _ _)

theorem eq_of_ord {d e : UtcDay} (h : d.ord = e.ord) : d = e := by
  have hd := d.day_le_31
  have he := e.day_le_31
  have hd₀ := d.day_pos
  have he₀ := e.day_pos
  have hm := d.month_le
  have hm' := e.month_le
  have hm₀ := d.month_pos
  have hm₀' := e.month_pos
  rw [ord, ord] at h
  ext <;> omega

/-- The days since the first of January 1970. -/
def epochDay (d : UtcDay) : ℤ :=
  let y := d.year - 1
  let months := (List.range (d.month - 1)).map fun m => (daysInMonth d.year (m + 1) : ℤ)
  365 * y + y / 4 - y / 100 + y / 400 + months.sum + d.day - 719163

/-- The first day of the month `month0`, counted from January of `year` as `0`. -/
def firstOfMonth (year : ℤ) (month0 : ℕ) : UtcDay where
  year := year + month0 / 12
  month := month0 % 12 + 1
  day := 1
  month_pos := Nat.le_add_left _ _
  month_le := Nat.succ_le_of_lt (Nat.mod_lt _ (by decide))
  day_pos := le_rfl
  day_le := daysInMonth_pos _ _

/-- The last day of the month `month0`, counted from January of `year` as `0`. -/
def lastOfMonth (year : ℤ) (month0 : ℕ) : UtcDay where
  year := year + month0 / 12
  month := month0 % 12 + 1
  day := daysInMonth (year + month0 / 12) (month0 % 12 + 1)
  month_pos := Nat.le_add_left _ _
  month_le := Nat.succ_le_of_lt (Nat.mod_lt _ (by decide))
  day_pos := daysInMonth_pos _ _
  day_le := le_rfl

/-! ### The neighbours of a day -/

def next (d : UtcDay) : UtcDay :=
  if h : d.day < daysInMonth d.year d.month then
    ⟨d.year, d.month, d.day + 1, d.month_pos, d.month_le, Nat.le_add_left _ _, h⟩
  else firstOfMonth d.year d.month

def prev (d : UtcDay) : UtcDay :=
  if h : 1 < d.day then
    ⟨d.year, d.month, d.day - 1, d.month_pos, d.month_le, Nat.le_sub_one_of_lt h,
      (Nat.sub_le _ _).trans d.day_le⟩
  else if d.month = 1 then lastOfMonth (d.year - 1) 11
  else lastOfMonth d.year (d.month - 2)

/-! ### The numbers of the days -/

/-- The days of the year before a month. -/
def daysBeforeMonth (year : ℤ) (month : ℕ) : ℤ :=
  ((List.range (month - 1)).map fun m => (daysInMonth year (m + 1) : ℤ)).sum

/-- The days before a year, from the first year on. -/
def daysBeforeYear (year : ℤ) : ℤ :=
  365 * (year - 1) + (year - 1) / 4 - (year - 1) / 100 + (year - 1) / 400

theorem epochDay_eq (d : UtcDay) :
    d.epochDay = daysBeforeYear d.year + daysBeforeMonth d.year d.month + d.day - 719163 := rfl

theorem daysBeforeMonth_succ (year : ℤ) {month : ℕ} (h : 1 ≤ month) :
    daysBeforeMonth year (month + 1) = daysBeforeMonth year month + daysInMonth year month := by
  obtain ⟨m, rfl⟩ := Nat.exists_eq_add_of_le' h
  simp only [daysBeforeMonth, Nat.add_sub_cancel, List.range_succ, List.map_append, List.map_cons,
    List.map_nil, List.sum_append, List.sum_cons, List.sum_nil, add_zero]

/-- Twelve months are a year. -/
theorem daysBeforeYear_succ (year : ℤ) :
    daysBeforeYear (year + 1) = daysBeforeYear year + daysBeforeMonth year 13 := by
  have hyear : daysBeforeMonth year 13 = 337 + (if isLeapYear year = true then 29 else 28) := by
    simp only [daysBeforeMonth, List.range_succ, List.range_zero, daysInMonth]
    split <;> simp
  have hleap : isLeapYear year = true ↔ year % 4 = 0 ∧ (year % 100 ≠ 0 ∨ year % 400 = 0) := by
    simp [isLeapYear]
  rw [hyear]
  simp only [daysBeforeYear]
  split <;> rename_i h <;> rw [hleap] at h <;> omega

theorem daysBeforeYear_mono {y y' : ℤ} (h : y ≤ y') : daysBeforeYear y ≤ daysBeforeYear y' := by
  simp only [daysBeforeYear]
  omega

/-- A month ends before a later one starts. -/
theorem daysBeforeMonth_add_le (year : ℤ) {m m' : ℕ} (hm : 1 ≤ m) (h : m < m') :
    daysBeforeMonth year m + daysInMonth year m ≤ daysBeforeMonth year m' := by
  induction m', h using Nat.le_induction with
  | base => exact (daysBeforeMonth_succ year hm).ge
  | succ m' hlt ih =>
    rw [daysBeforeMonth_succ year (hm.trans (Nat.le_of_succ_le hlt))]
    omega

/-- A later day has a greater number. -/
theorem epochDay_lt {d e : UtcDay} (h : d.ord < e.ord) : d.epochDay < e.epochDay := by
  have hd := d.day_le
  have he := e.day_pos
  have hd31 := d.day_le_31
  have he31 := e.day_le_31
  have hdm := d.month_le
  have hem := e.month_le
  have hdm₀ := d.month_pos
  rw [ord, ord] at h
  rw [epochDay_eq, epochDay_eq]
  rcases lt_trichotomy d.year e.year with hyear | hyear | hyear
  · -- the year ends in between
    have hend : daysBeforeMonth d.year d.month + daysInMonth d.year d.month ≤
        daysBeforeMonth d.year 13 := daysBeforeMonth_add_le d.year d.month_pos (by omega)
    have hnext := daysBeforeYear_mono (Int.add_one_le_iff.mpr hyear)
    rw [daysBeforeYear_succ] at hnext
    have hpos : 0 ≤ daysBeforeMonth e.year e.month := List.sum_nonneg (by simp)
    omega
  · rcases Nat.lt_or_ge d.month e.month with hmonth | hmonth
    · have hend := daysBeforeMonth_add_le d.year d.month_pos hmonth
      rw [hyear] at hend hd ⊢
      omega
    · have heq : d.month = e.month := by omega
      rw [hyear, heq]
      omega
  · omega

/-- **The days are ordered as their numbers.** -/
theorem le_iff_epochDay {d e : UtcDay} : d ≤ e ↔ d.epochDay ≤ e.epochDay := by
  rw [le_iff]
  refine ⟨fun h => ?_, fun h => not_lt.mp fun hlt => not_lt.mpr h (epochDay_lt hlt)⟩
  rcases h.lt_or_eq with hlt | heq
  · exact (epochDay_lt hlt).le
  · rw [eq_of_ord heq]

theorem eq_of_epochDay {d e : UtcDay} (h : d.epochDay = e.epochDay) : d = e :=
  eq_of_ord (le_antisymm (le_iff_epochDay.mpr h.le) (le_iff_epochDay.mpr h.ge))

/-- The month after the first of a month starts on the next day of its last. -/
theorem epochDay_firstOfMonth (year : ℤ) {month : ℕ} (h : 1 ≤ month) (h' : month ≤ 12) :
    (firstOfMonth year month).epochDay =
      daysBeforeYear year + daysBeforeMonth year month + daysInMonth year month - 719162 := by
  rw [epochDay_eq]
  simp only [firstOfMonth]
  rcases h'.lt_or_eq with hlt | rfl
  · have hyear : year + ((month : ℕ) : ℤ) / 12 = year := by omega
    rw [hyear, Nat.mod_eq_of_lt hlt, daysBeforeMonth_succ year h]
    push_cast
    ring
  · have hyear : year + ((12 : ℕ) : ℤ) / 12 = year + 1 := by norm_num
    have hend : daysBeforeMonth year 13 = daysBeforeMonth year 12 + daysInMonth year 12 :=
      daysBeforeMonth_succ year (by decide)
    have hfirst : daysBeforeMonth (year + 1) (12 % 12 + 1) = 0 := rfl
    rw [hyear, daysBeforeYear_succ, hend, hfirst]
    push_cast
    ring

/-- The next day's number is the next one. -/
@[simp] theorem epochDay_next (d : UtcDay) : d.next.epochDay = d.epochDay + 1 := by
  unfold next
  split
  · simp only [epochDay_eq]
    push_cast
    ring
  · have hday : d.day = daysInMonth d.year d.month := by
      have := d.day_le
      omega
    rw [epochDay_firstOfMonth d.year d.month_pos d.month_le, epochDay_eq, hday]
    ring

/-- A month starts on the day after the last one of the month before. -/
theorem next_lastOfMonth (year : ℤ) (month0 : ℕ) :
    (lastOfMonth year month0).next = firstOfMonth year (month0 + 1) := by
  have hlast : ¬ (lastOfMonth year month0).day <
      daysInMonth (lastOfMonth year month0).year (lastOfMonth year month0).month := lt_irrefl _
  rw [next, dif_neg hlast]
  ext <;> simp only [firstOfMonth, lastOfMonth] <;> omega

theorem next_prev (d : UtcDay) : d.prev.next = d := by
  have hpos := d.day_pos
  have hle := d.day_le
  unfold prev
  split
  · have hlast : d.day - 1 < daysInMonth d.year d.month := by omega
    rw [next, dif_pos hlast]
    ext
    · rfl
    · rfl
    · simp only
      omega
  · have hmonth := d.month_le
    have hmonth₀ := d.month_pos
    -- the day before is the last of its month
    split
    · rw [next_lastOfMonth]
      ext <;> simp only [firstOfMonth] <;> omega
    · rw [next_lastOfMonth]
      ext <;> simp only [firstOfMonth] <;> omega

@[simp] theorem epochDay_prev (d : UtcDay) : d.prev.epochDay = d.epochDay - 1 := by
  have h := epochDay_next d.prev
  rw [next_prev] at h
  omega

theorem prev_next (d : UtcDay) : d.next.prev = d :=
  eq_of_epochDay (by rw [epochDay_prev, epochDay_next, add_sub_cancel_right])

theorem le_prev_iff {d e : UtcDay} : e ≤ d.prev ↔ ¬ d ≤ e := by
  rw [le_iff_epochDay, le_iff_epochDay, epochDay_prev]
  omega

theorem next_le_iff {d e : UtcDay} : d.next ≤ e ↔ ¬ e ≤ d := by
  rw [le_iff_epochDay, le_iff_epochDay, epochDay_next]
  omega

/-! ### The days of `Date.UTC` -/

/-- The year `Date.UTC` reads a number as: one below a hundred is a year of the twentieth century. -/
def utcYear (year : ℤ) : ℤ := if 0 ≤ year ∧ year ≤ 99 then 1900 + year else year

/-- `Date.UTC` of a year, a month counted from January as `0`, and a day of the month; the day `0` is
the one before the month, and days past its end are days of the next months. -/
def dateUtc (year : ℤ) (month0 : ℕ) : ℕ → UtcDay
  | 0 => (firstOfMonth (utcYear year) month0).prev
  | n + 1 => next^[n] (firstOfMonth (utcYear year) month0)

/-- A year of more than two digits, or a negative one. -/
def FullYear (year : ℤ) : Prop := ¬ (0 ≤ year ∧ year ≤ 99)

instance (year : ℤ) : Decidable (FullYear year) := inferInstanceAs (Decidable (¬ _))

theorem FullYear.of_ge {year : ℤ} (h : 100 ≤ year) : FullYear year := by
  unfold FullYear
  omega

theorem utcYear_eq {year : ℤ} (h : FullYear year) : utcYear year = year := if_neg h

/-- The days of one month follow each other. -/
theorem iterate_next {d : UtcDay} {n : ℕ} (h : d.day + n ≤ daysInMonth d.year d.month) :
    (next^[n] d).year = d.year ∧ (next^[n] d).month = d.month ∧ (next^[n] d).day = d.day + n := by
  induction n with
  | zero => exact ⟨rfl, rfl, rfl⟩
  | succ n ih =>
    obtain ⟨hyear, hmonth, hday⟩ := ih (by omega)
    have hlt : (next^[n] d).day < daysInMonth (next^[n] d).year (next^[n] d).month := by
      rw [hyear, hmonth, hday]
      omega
    rw [Function.iterate_succ_apply', next, dif_pos hlt]
    exact ⟨hyear, hmonth, by simp only [hday]; omega⟩

/-- `Date.UTC` of the fields of a day is the day, in the year it reads the year as. -/
theorem dateUtc_of_le {year : ℤ} {month day : ℕ} (hm : 1 ≤ month) (hm' : month ≤ 12) (hd : 1 ≤ day)
    (hd' : day ≤ daysInMonth (utcYear year) month) :
    dateUtc year (month - 1) day = ⟨utcYear year, month, day, hm, hm', hd, hd'⟩ := by
  obtain ⟨n, rfl⟩ := Nat.exists_eq_add_of_le' hd
  have hyear : (firstOfMonth (utcYear year) (month - 1)).year = utcYear year := by
    simp only [firstOfMonth]
    omega
  have hmonth : (firstOfMonth (utcYear year) (month - 1)).month = month := by
    simp only [firstOfMonth]
    omega
  obtain ⟨hy, hmo, hda⟩ := iterate_next (d := firstOfMonth (utcYear year) (month - 1)) (n := n) (by
    rw [hyear, hmonth]
    simp only [firstOfMonth]
    omega)
  ext
  · exact hy.trans hyear
  · exact hmo.trans hmonth
  · exact hda.trans (Nat.add_comm 1 n)

theorem dateUtc_self {d : UtcDay} (h : FullYear d.year) : dateUtc d.year (d.month - 1) d.day = d := by
  have hday := d.day_le
  rw [← utcYear_eq h] at hday
  rw [dateUtc_of_le d.month_pos d.month_le d.day_pos hday]
  ext
  · exact utcYear_eq h
  · rfl
  · rfl

/-- The day `0` of a month is the last of the month before. -/
theorem dateUtc_zero {year : ℤ} (h : FullYear year) (month0 : ℕ) :
    dateUtc year (month0 + 1) 0 = lastOfMonth year month0 := by
  rw [dateUtc, utcYear_eq h, ← next_lastOfMonth, prev_next]

end UtcDay

/-- The month a fiscal year starts in, January being `1`. -/
structure StartMonth where
  month : ℕ
  pos : 1 ≤ month
  le : month ≤ 12
deriving DecidableEq

/-- The fiscal year a date falls into. -/
def fiscalYearForDate (date : UtcDay) (startMonth : StartMonth) : ℤ :=
  if date.month ≥ startMonth.month then date.year else date.year - 1

/-- The first day of a fiscal year. -/
def fiscalYearFirstDay (fiscalYear : ℤ) (startMonth : StartMonth) : UtcDay :=
  .firstOfMonth fiscalYear (startMonth.month - 1)

/-- The last day of a fiscal year. -/
def fiscalYearLastDay (fiscalYear : ℤ) (startMonth : StartMonth) : UtcDay :=
  let endYear := if startMonth.month = 1 then fiscalYear else fiscalYear + 1
  let endMonth0 := if startMonth.month = 1 then 11 else startMonth.month - 2
  .lastOfMonth endYear endMonth0

/-- **The days of a fiscal year are those between its bounds.** -/
theorem fiscalYearForDate_eq_iff {date : UtcDay} {startMonth : StartMonth} {fiscalYear : ℤ} :
    fiscalYearForDate date startMonth = fiscalYear ↔
      fiscalYearFirstDay fiscalYear startMonth ≤ date ∧
        date ≤ fiscalYearLastDay fiscalYear startMonth := by
  obtain ⟨m, hm, hm'⟩ := startMonth
  obtain ⟨y, mo, d, hmo, hmo', hd, hd'⟩ := date
  have hd31 := hd'.trans (daysInMonth_le y mo)
  simp only [UtcDay.le_iff, UtcDay.ord, fiscalYearForDate, fiscalYearFirstDay, fiscalYearLastDay,
    UtcDay.firstOfMonth, UtcDay.lastOfMonth]
  have hm0 : (m - 1) / 12 = 0 := by omega
  have hm1 : (m - 1) % 12 + 1 = m := by omega
  by_cases h1 : m = 1
  · have hdec : daysInMonth (fiscalYear + ((11 : ℕ) : ℤ) / 12) (11 % 12 + 1) = 31 := rfl
    simp only [h1, if_true, hdec]
    split_ifs <;> omega
  · have he0 : (m - 2) / 12 = 0 := by omega
    have he1 : (m - 2) % 12 + 1 = m - 1 := by omega
    have hyear : fiscalYear + 1 + ((m - 2 : ℕ) : ℤ) / 12 = fiscalYear + 1 := by omega
    have hlast : y = fiscalYear + 1 → mo = m - 1 → d ≤ daysInMonth (fiscalYear + 1) (m - 1) := by
      rintro rfl rfl
      exact hd'
    have hpos := daysInMonth_pos (fiscalYear + 1) (m - 1)
    have hle := daysInMonth_le (fiscalYear + 1) (m - 1)
    simp only [h1, if_false, he1, hyear, hm1]
    generalize daysInMonth (fiscalYear + 1) (m - 1) = D at *
    split_ifs <;> omega

theorem fiscalYearForDate_lastDay (fiscalYear : ℤ) (startMonth : StartMonth) :
    fiscalYearForDate (fiscalYearLastDay fiscalYear startMonth) startMonth = fiscalYear := by
  obtain ⟨m, hm, hm'⟩ := startMonth
  simp only [fiscalYearForDate, fiscalYearLastDay, UtcDay.lastOfMonth]
  split_ifs <;> omega

/-- A fiscal year ends on the day before the next one starts. -/
theorem next_fiscalYearLastDay (fiscalYear : ℤ) (startMonth : StartMonth) :
    (fiscalYearLastDay fiscalYear startMonth).next =
      fiscalYearFirstDay (fiscalYear + 1) startMonth := by
  obtain ⟨m, hm, hm'⟩ := startMonth
  simp only [fiscalYearLastDay, fiscalYearFirstDay, UtcDay.next_lastOfMonth]
  split_ifs <;> ext <;> simp only [UtcDay.firstOfMonth] <;> omega

/-! The bounds as the source computes them, with `Date.UTC`, which reads the two-digit years as others. -/

def fiscalYearStartDate (fiscalYear : ℤ) (startMonth : StartMonth) : UtcDay :=
  .dateUtc fiscalYear (startMonth.month - 1) 1

def fiscalYearEndDate (fiscalYear : ℤ) (startMonth : StartMonth) : UtcDay :=
  let endYear := if startMonth.month = 1 then fiscalYear else fiscalYear + 1
  let endMonth0 := if startMonth.month = 1 then 11 else startMonth.month - 2
  .dateUtc endYear (endMonth0 + 1) 0

theorem fiscalYearStartDate_eq {fiscalYear : ℤ} (h : UtcDay.FullYear fiscalYear)
    (startMonth : StartMonth) :
    fiscalYearStartDate fiscalYear startMonth = fiscalYearFirstDay fiscalYear startMonth := by
  rw [fiscalYearStartDate, UtcDay.dateUtc, UtcDay.utcYear_eq h]
  rfl

theorem fiscalYearEndDate_eq {fiscalYear : ℤ} (h : UtcDay.FullYear fiscalYear)
    (h' : UtcDay.FullYear (fiscalYear + 1)) (startMonth : StartMonth) :
    fiscalYearEndDate fiscalYear startMonth = fiscalYearLastDay fiscalYear startMonth := by
  rw [fiscalYearEndDate, UtcDay.dateUtc_zero (by split_ifs <;> assumption)]
  rfl

/-! ## Moments -/

/-- A moment: a day, and the milliseconds since it began. -/
structure Instant where
  day : UtcDay
  millis : ℕ
  millis_lt : millis < 86400000
deriving DecidableEq

namespace Instant

/-- The milliseconds since the first of January 1970 began. -/
def getTime (d : Instant) : ℤ := d.day.epochDay * 86400000 + d.millis

instance : LE Instant := ⟨fun d e => d.getTime ≤ e.getTime⟩

instance : DecidableRel ((· ≤ ·) : Instant → Instant → Prop) :=
  fun d e => inferInstanceAs (Decidable (d.getTime ≤ e.getTime))

/-- The moment a day begins. -/
def midnight (d : UtcDay) : Instant := ⟨d, 0, by decide⟩

theorem day_le {d e : Instant} (h : d ≤ e) : d.day ≤ e.day := by
  have hd := d.millis_lt
  have he := e.millis_lt
  have htime : d.getTime ≤ e.getTime := h
  rw [UtcDay.le_iff_epochDay]
  rw [getTime, getTime] at htime
  omega

end Instant

/-- The day of a moment, by way of `Date.UTC`. -/
def truncateToUtcDay (d : Instant) : UtcDay := .dateUtc d.day.year (d.day.month - 1) d.day.day

theorem truncateToUtcDay_eq {d : Instant} (h : UtcDay.FullYear d.day.year) :
    truncateToUtcDay d = d.day :=
  UtcDay.dateUtc_self h

/-- The moment the day before begins. -/
def dayBefore (d : Instant) : Instant := .midnight (truncateToUtcDay d).prev

/-- The day keeps the year, as `Date.UTC` reads it. -/
theorem year_truncateToUtcDay (d : Instant) :
    (truncateToUtcDay d).year = UtcDay.utcYear d.day.year := by
  obtain ⟨⟨year, month, day, hm, hm', hd, hd'⟩, -, -⟩ := d
  change (UtcDay.dateUtc year (month - 1) day).year = UtcDay.utcYear year
  by_cases hday : day ≤ daysInMonth (UtcDay.utcYear year) month
  · rw [UtcDay.dateUtc_of_le hm hm' hd hday]
  · -- the twenty-ninth of February of a year that is read as one without it
    have hfeb : month = 2 ∧ day = 29 ∧ daysInMonth (UtcDay.utcYear year) month = 28 := by
      unfold daysInMonth at hd' hday ⊢
      grind
    obtain ⟨rfl, rfl, hlast⟩ := hfeb
    have hyear : UtcDay.utcYear year + ((1 : ℕ) : ℤ) / 12 = UtcDay.utcYear year := by omega
    obtain ⟨hy, hmo, hda⟩ := UtcDay.iterate_next
      (d := UtcDay.firstOfMonth (UtcDay.utcYear year) 1) (n := 27) (by
        change 1 + 27 ≤ daysInMonth (UtcDay.utcYear year + ((1 : ℕ) : ℤ) / 12) 2
        rw [hyear, hlast])
    have hend : ¬ (UtcDay.next^[27] (UtcDay.firstOfMonth (UtcDay.utcYear year) 1)).day <
        daysInMonth (UtcDay.next^[27] (UtcDay.firstOfMonth (UtcDay.utcYear year) 1)).year
          (UtcDay.next^[27] (UtcDay.firstOfMonth (UtcDay.utcYear year) 1)).month := by
      rw [hy, hmo, hda]
      change ¬ 1 + 27 < daysInMonth (UtcDay.utcYear year + ((1 : ℕ) : ℤ) / 12) 2
      rw [hyear, hlast]
      decide
    change (UtcDay.next^[28] (UtcDay.firstOfMonth (UtcDay.utcYear year) 1)).year = _
    rw [Function.iterate_succ_apply', UtcDay.next, dif_neg hend, hy, hmo]
    change UtcDay.utcYear year + ((1 : ℕ) : ℤ) / 12 + ((2 : ℕ) : ℤ) / 12 = UtcDay.utcYear year
    omega

section Truncate

variable {e : UtcDay}

theorem UtcDay.le_of_year_lt {d : UtcDay} (h : d.year < e.year) : d ≤ e ∧ ¬ e ≤ d := by
  have hd := d.day_le_31
  have he := e.day_le_31
  have hd₀ := d.day_pos
  have he₀ := e.day_pos
  have hm := d.month_le
  have hm' := e.month_le
  have hm₀ := d.month_pos
  have hm₀' := e.month_pos
  rw [UtcDay.le_iff, UtcDay.le_iff, UtcDay.ord, UtcDay.ord]
  omega

/-- A day of this century and a moment compare as the moment's day, truncated or not: what is read
as a year of the last century was a year before it. -/
theorem truncateToUtcDay_compare (h : 2000 ≤ e.year) (d : Instant) :
    (e ≤ truncateToUtcDay d ↔ e ≤ d.day) ∧ (truncateToUtcDay d ≤ e ↔ d.day ≤ e) := by
  by_cases hfull : UtcDay.FullYear d.day.year
  · rw [truncateToUtcDay_eq hfull]
    exact ⟨Iff.rfl, Iff.rfl⟩
  · have htwo : 0 ≤ d.day.year ∧ d.day.year ≤ 99 := not_not.mp hfull
    have hyear := year_truncateToUtcDay d
    rw [UtcDay.utcYear, if_pos htwo] at hyear
    obtain ⟨hle, hnot⟩ := UtcDay.le_of_year_lt (d := truncateToUtcDay d) (e := e) (by omega)
    obtain ⟨hle', hnot'⟩ := UtcDay.le_of_year_lt (d := d.day) (e := e) (by omega)
    exact ⟨iff_of_false hnot hnot', iff_of_true hle hle'⟩

/-- A day of this century is before a moment's day, or it is not up to the day before. -/
theorem le_dayBefore_iff (h : 2000 ≤ e.year) (d : Instant) :
    e ≤ truncateToUtcDay (dayBefore d) ↔ ¬ d.day ≤ e := by
  rw [(truncateToUtcDay_compare h _).1, dayBefore, Instant.midnight, UtcDay.le_prev_iff,
    (truncateToUtcDay_compare h d).2]

/-- The days of this century are not before the start of a fiscal year, as it is computed, if and only
if they are not before it in the calendar. -/
theorem fiscalYearStartDate_le_iff (h : 2000 ≤ e.year) (fiscalYear : ℤ) (startMonth : StartMonth) :
    fiscalYearStartDate fiscalYear startMonth ≤ e ↔ fiscalYearFirstDay fiscalYear startMonth ≤ e := by
  by_cases hfull : UtcDay.FullYear fiscalYear
  · rw [fiscalYearStartDate_eq hfull]
  · have htwo : 0 ≤ fiscalYear ∧ fiscalYear ≤ 99 := not_not.mp hfull
    have hmonth := startMonth.le
    have hyear : (fiscalYearStartDate fiscalYear startMonth).year = 1900 + fiscalYear := by
      simp only [fiscalYearStartDate, UtcDay.dateUtc, UtcDay.utcYear, if_pos htwo, Function.iterate_zero,
        id, UtcDay.firstOfMonth]
      omega
    have hyear' : (fiscalYearFirstDay fiscalYear startMonth).year = fiscalYear := by
      simp only [fiscalYearFirstDay, UtcDay.firstOfMonth]
      omega
    exact iff_of_true (UtcDay.le_of_year_lt (by omega)).1 (UtcDay.le_of_year_lt (by omega)).1

end Truncate

end AccountingApi
