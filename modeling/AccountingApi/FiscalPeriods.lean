import AccountingApi.Statements
import AccountingApi.ReadCommitted.Alone

/-!
# The periods of the calendar

The fiscal years of a start month follow each other without a gap, and so do the twelve periods of
each of them. A day lies in one period of one fiscal year, which the posting of an entry finds. A
moment of a two-digit year is truncated to a day of the twentieth century, and its period is not
found.

## Main definitions

* `Tiles`: twelve periods that follow each other from a first day to a last one
* `Generated`: the stores left by calls that generate, close and reopen periods
* `Periods.candidates`: the open periods a date lies in
* `FiscalCalendar`: what the periods of a start month promise for a moment

## Main results

* `newPeriod_contains_iff`: the days of a period are those of a month of the fiscal year
* `tiles_newPeriods`: the periods of a fiscal year tile it
* `fiscalCalendar_iff`: the promises hold at the moments of years with more than two digits
-/

namespace AccountingApi

open ReadCommitted UtcDay

/-! ## The periods of a fiscal year -/

/-- The month of the fiscal year a day lies in, the first one being `0`. -/
def monthOfYear (date : UtcDay) (startMonth : StartMonth) : ℕ :=
  (date.month + 12 - startMonth.month) % 12

section NewPeriod

variable {fiscalYear : ℤ} {startMonth : StartMonth} {i : ℕ}

/-- A year and a month past its end are a later year and a month of it. -/
theorem firstOfMonth_carry (year : ℤ) (month0 : ℕ) :
    firstOfMonth (year + (month0 / 12 : ℕ)) (month0 % 12) = firstOfMonth year month0 := by
  ext <;> simp only [firstOfMonth] <;> omega

theorem lastOfMonth_carry (year : ℤ) (month0 : ℕ) :
    lastOfMonth (year + (month0 / 12 : ℕ)) (month0 % 12) = lastOfMonth year month0 := by
  have hyear : year + ((month0 / 12 : ℕ) : ℤ) + ((month0 % 12 : ℕ) : ℤ) / 12 =
      year + (month0 : ℤ) / 12 := by omega
  have hmonth : month0 % 12 % 12 = month0 % 12 := Nat.mod_mod _ _
  ext
  · exact hyear
  · simp only [lastOfMonth, hmonth]
  · simp only [lastOfMonth, hyear, hmonth]

theorem newPeriod_startDate (h : 100 ≤ fiscalYear) :
    (Periods.newPeriod fiscalYear startMonth.month i).startDate =
      firstOfMonth fiscalYear (startMonth.month - 1 + i) := by
  have hfull : FullYear (fiscalYear + ((startMonth.month - 1 + i) / 12 : ℕ)) := .of_ge (by omega)
  change dateUtc _ _ (0 + 1) = _
  rw [dateUtc, utcYear_eq hfull]
  exact firstOfMonth_carry _ _

theorem newPeriod_endDate (h : 100 ≤ fiscalYear) :
    (Periods.newPeriod fiscalYear startMonth.month i).endDate =
      lastOfMonth fiscalYear (startMonth.month - 1 + i) := by
  have hfull : FullYear (fiscalYear + ((startMonth.month - 1 + i) / 12 : ℕ)) := .of_ge (by omega)
  change dateUtc _ (_ + 1) 0 = _
  rw [dateUtc_zero hfull]
  exact lastOfMonth_carry _ _

/-- The days of a month. -/
theorem mem_month_iff {date : UtcDay} {year : ℤ} {month0 : ℕ} :
    firstOfMonth year month0 ≤ date ∧ date ≤ lastOfMonth year month0 ↔
      date.year = year + (month0 / 12 : ℕ) ∧ date.month = month0 % 12 + 1 := by
  have hday := date.day_le
  have hpos := date.day_pos
  have h31 := date.day_le_31
  have hmonth := date.month_le
  have hmonth₀ := date.month_pos
  have hlast := daysInMonth_le (year + (month0 : ℤ) / 12) (month0 % 12 + 1)
  rw [le_iff, le_iff, ord, ord, ord]
  simp only [firstOfMonth, lastOfMonth]
  constructor
  · rintro ⟨hfirst, hlast'⟩
    omega
  · rintro ⟨hyear, hmonth'⟩
    rw [hyear, hmonth'] at hday
    push_cast at hday
    omega

/-- **The days of a period** are those of a month of the fiscal year. -/
theorem newPeriod_contains_iff {date : UtcDay} (h : 100 ≤ fiscalYear) (hi : i < 12) :
    (Periods.newPeriod fiscalYear startMonth.month i).Contains date ↔
      fiscalYearForDate date startMonth = fiscalYear ∧ monthOfYear date startMonth = i := by
  obtain ⟨m, hm, hm'⟩ := startMonth
  have hmonth := date.month_le
  have hmonth₀ := date.month_pos
  rw [AccountingPeriod.Contains, newPeriod_startDate h, newPeriod_endDate h, mem_month_iff]
  simp only [fiscalYearForDate, monthOfYear]
  split_ifs <;> omega

end NewPeriod

/-- Twelve periods that follow each other without a gap, from a first day to a last one. -/
structure Tiles (ps : List AccountingPeriod) (first last : UtcDay) : Prop where
  sequences : ps.map (·.sequence) = (List.range 12).map (· + 1)
  ordered : ∀ p ∈ ps, p.startDate ≤ p.endDate
  consecutive : ps.IsChain fun p q => q.startDate = p.endDate.next
  first : ps.head?.map (·.startDate) = some first
  last : ps.getLast?.map (·.endDate) = some last

/-- **The periods of a fiscal year tile it.** -/
theorem tiles_newPeriods {fiscalYear : ℤ} (h : 100 ≤ fiscalYear) (startMonth : StartMonth) :
    Tiles (Periods.newPeriods fiscalYear startMonth.month)
      (fiscalYearFirstDay fiscalYear startMonth) (fiscalYearLastDay fiscalYear startMonth) where
  sequences := by
    rw [Periods.newPeriods, List.map_map]
    rfl
  ordered := by
    intro p hp
    obtain ⟨i, -, rfl⟩ := List.mem_map.mp hp
    have hpos := daysInMonth_pos (fiscalYear + ((startMonth.month - 1 + i : ℕ) : ℤ) / 12)
      ((startMonth.month - 1 + i) % 12 + 1)
    rw [newPeriod_startDate h, newPeriod_endDate h, le_iff, ord, ord]
    simp only [firstOfMonth, lastOfMonth]
    omega
  consecutive := by
    rw [Periods.newPeriods, List.isChain_map]
    refine (List.isChain_range _ 12).mpr fun i _ => ?_
    rw [newPeriod_startDate h, newPeriod_endDate h, next_lastOfMonth]
    rfl
  first := by
    rw [Periods.newPeriods, List.head?_map, List.head?_range]
    exact congrArg some (newPeriod_startDate h)
  last := by
    rw [Periods.newPeriods, List.getLast?_map, List.getLast?_range]
    refine congrArg some ((newPeriod_endDate h).trans ?_)
    have hmonth := startMonth.pos
    have hmonth' := startMonth.le
    simp only [fiscalYearLastDay]
    split_ifs with hjanuary
    · rw [hjanuary]
    · rw [← lastOfMonth_carry]
      congr 1 <;> omega

/-! ## Generated years -/

/-- The keys drawn for the periods of a year are distinct and not in use. -/
structure FreshIds (db : Db) (newId : ℕ → Uuid) : Prop where
  unused : ∀ n ∈ Set.Icc 1 12, Db.period db (newId n) = none
  distinct : Set.InjOn newId (Set.Icc 1 12)

/-- The stores left by calls that generate the periods of years, and close and reopen periods, while
the fiscal years start in a month; the years are those of the calls, the last one first. -/
inductive Generated (startMonth : StartMonth) : List ℤ → Db → Prop
  | start {db : Db} (settings : CompanySettings) : Db.settings db = some settings →
      settings.fiscalYearStartMonth = startMonth → Db.periods db = [] → Generated startMonth [] db
  | generate {years : List ℤ} {db : Db} (fiscalYear : ℤ) (newId : ℕ → Uuid) :
      Generated startMonth years db → 100 ≤ fiscalYear → FreshIds db newId →
      Generated startMonth (fiscalYear :: years)
        ((Periods.generatePeriods fiscalYear newId).alone db).2
  | close {years : List ℤ} {db : Db} (id user : Uuid) (now : Timestamp) :
      Generated startMonth years db →
      Generated startMonth years ((Periods.close id user now).alone db).2
  | reopen {years : List ℤ} {db : Db} (id : Uuid) :
      Generated startMonth years db → Generated startMonth years ((Periods.reopen id).alone db).2

/-- The period is one that is generated for a year. -/
def AccountingPeriod.OfYear (startMonth : StartMonth) (fiscalYear : ℤ) (i : ℕ)
    (p : AccountingPeriod) : Prop :=
  i < 12 ∧ (Periods.newPeriod fiscalYear startMonth.month i).Alike p

/-- The period number `i + 1` of a year is stored. -/
def HasPeriod (startMonth : StartMonth) (db : Db) (fiscalYear : ℤ) (i : ℕ) : Prop :=
  ∃ id p, Db.period db id = some p ∧ p.OfYear startMonth fiscalYear i

/-- The stored periods are those of the years, and no two are the same. -/
structure Calendar (startMonth : StartMonth) (years : List ℤ) (db : Db) : Prop where
  settings : ∃ settings, Db.settings db = some settings ∧
    settings.fiscalYearStartMonth = startMonth
  years_ge : ∀ fiscalYear ∈ years, 100 ≤ fiscalYear
  stored : ∀ {id p}, Db.period db id = some p →
    ∃ fiscalYear ∈ years, ∃ i, p.OfYear startMonth fiscalYear i
  unique : ∀ {id id' p p'}, Db.period db id = some p → Db.period db id' = some p' →
    p.fiscalYear = p'.fiscalYear → p.sequence = p'.sequence → id = id'

section Calendar

variable {startMonth : StartMonth} {years : List ℤ} {db : Db} {id : Uuid}
  {p p' : AccountingPeriod} {fiscalYear fiscalYear' : ℤ} {i i' : ℕ}

theorem AccountingPeriod.OfYear.fields (h : p.OfYear startMonth fiscalYear i) :
    p.fiscalYear = fiscalYear ∧ p.sequence = i + 1 ∧ p.name = Periods.periodName fiscalYear (i + 1) :=
  have hf := h.2.fields
  ⟨hf.1, hf.2.1, hf.2.2.1⟩

theorem AccountingPeriod.OfYear.contains_iff (h : p.OfYear startMonth fiscalYear i)
    (hyear : 100 ≤ fiscalYear) {date : UtcDay} : p.Contains date ↔
      fiscalYearForDate date startMonth = fiscalYear ∧ monthOfYear date startMonth = i := by
  obtain ⟨hi, halike⟩ := h
  rw [← newPeriod_contains_iff hyear hi, AccountingPeriod.Contains, AccountingPeriod.Contains,
    halike.fields.2.2.2.1, halike.fields.2.2.2.2]

/-- The name of a period determines its fiscal year and its number. -/
theorem periodName_inj (hi : i < 12) (hi' : i' < 12)
    (h : Periods.periodName fiscalYear (i + 1) = Periods.periodName fiscalYear' (i' + 1)) :
    fiscalYear = fiscalYear' ∧ i = i' := by
  have hlength : ∀ i < 12, (padStart 2 (toString (i + 1))).toList.length = 2 := by decide
  have hlist := congrArg String.toList h
  simp only [Periods.periodName, String.toList_append] at hlist
  obtain ⟨hyear, hpad⟩ := List.append_inj' hlist (by rw [hlength i hi, hlength i' hi'])
  have hname : i + 1 = i' + 1 := padStart_inj (String.toList_injective hpad)
  exact ⟨toString_inj (List.append_inj' hyear rfl).1, by omega⟩

/-- Two periods of the years that a unique index does not allow together have one number. -/
theorem AccountingPeriod.OfYear.of_conflicts (h : p.OfYear startMonth fiscalYear i)
    (h' : p'.OfYear startMonth fiscalYear' i') (hconflict : p.Conflicts p') :
    fiscalYear = fiscalYear' ∧ i = i' := by
  obtain ⟨hyear, hsequence, hname⟩ := h.fields
  obtain ⟨hyear', hsequence', hname'⟩ := h'.fields
  rcases hconflict with ⟨hy, hs⟩ | hn
  · exact ⟨by rw [← hyear, hy, hyear'], by omega⟩
  · exact periodName_inj h.1 h'.1 (by rw [← hname, hn, hname'])

/-- A change of a status keeps the calendar. -/
theorem Calendar.put (h : Calendar startMonth years db) (hp : Db.period db id = some p)
    (halike : p.Alike p') : Calendar startMonth years (db.put (.period id) p') := by
  -- every period is alike one that was stored under its key
  have hold : ∀ {id₂ p₂}, Db.period (db.put (.period id) p') id₂ = some p₂ →
      ∃ p₁, Db.period db id₂ = some p₁ ∧ p₁.Alike p₂ := by
    intro id₂ p₂ hp₂
    rw [period_put] at hp₂
    split at hp₂
    · rename_i hid
      obtain rfl := Option.some.inj hp₂
      exact ⟨p, hid ▸ hp, halike⟩
    · exact ⟨p₂, hp₂, .refl p₂⟩
  refine ⟨h.settings, h.years_ge, ?_, ?_⟩
  · intro id₂ p₂ hp₂
    obtain ⟨p₁, hp₁, halike₁⟩ := hold hp₂
    obtain ⟨year, hyear, j, hj, hnew⟩ := h.stored hp₁
    exact ⟨year, hyear, j, hj, hnew.trans halike₁⟩
  · intro id₂ id₃ p₂ p₃ hp₂ hp₃ hyear hsequence
    obtain ⟨p₁, hp₁, halike₁⟩ := hold hp₂
    obtain ⟨p₁', hp₁', halike₁'⟩ := hold hp₃
    refine h.unique hp₁ hp₁' ?_ ?_
    · rw [← halike₁.fields.1, hyear, halike₁'.fields.1]
    · rw [← halike₁.fields.2.1, hsequence, halike₁'.fields.2.1]

theorem HasPeriod.put (h : HasPeriod startMonth db fiscalYear i) (hp : Db.period db id = some p)
    (halike : p.Alike p') : HasPeriod startMonth (db.put (.period id) p') fiscalYear i := by
  obtain ⟨id₂, p₂, hp₂, hi, hnew⟩ := h
  by_cases hid : id = id₂
  · subst hid
    obtain rfl : p = p₂ := Option.some.inj (hp ▸ hp₂)
    exact ⟨id, p', by rw [period_put, if_pos rfl], hi, hnew.trans halike⟩
  · exact ⟨id₂, p₂, by rw [period_put, if_neg hid, hp₂], hi, hnew⟩

/-! ### Insertion -/

/-- What the insertion of a period writes. -/
def insertion (newId : ℕ → Uuid) (db : Db) (p : AccountingPeriod) : List (Write Row) :=
  if Db.periodTaken db (newId p.sequence) p then [] else [⟨.period (newId p.sequence), p⟩]

theorem evalWith_insertPeriod (newId : ℕ → Uuid) (p : AccountingPeriod) (buf : List (Write Row)) :
    (Periods.insertPeriod (newId p.sequence) p).evalWith db buf =
      (.ok (), db, buf ++ insertion newId (db.putAll buf) p) := by
  unfold insertion
  by_cases htaken : Db.periodTaken (db.putAll buf) (newId p.sequence) p
  · rw [if_pos htaken, List.append_nil]
    change (Prog.when _ _ : Program Unit).evalWith db buf = _
    rw [Prog.when, if_neg (not_not.mpr htaken)]
    rfl
  · rw [if_neg htaken]
    change (Prog.when _ _ : Program Unit).evalWith db buf = _
    rw [Prog.when, if_pos htaken]
    rfl

variable {newId : ℕ → Uuid}

/-- A period of a year whose key and unique columns are not in use, stored. -/
theorem Calendar.put_new (h : Calendar startMonth years db) (hyear : fiscalYear ∈ years)
    (hnew : p.OfYear startMonth fiscalYear i) (hfree : ¬ Db.periodTaken db id p) :
    Calendar startMonth years (db.put (.period id) p) := by
  have hkept : ∀ {id'}, id' ≠ id →
      Db.period (db.put (.period id) p) id' = Db.period db id' := by
    intro id' hid
    rw [period_put, if_neg hid.symm]
  have hself : Db.period (db.put (.period id) p) id = some p := by rw [period_put, if_pos rfl]
  -- a stored period of its number would have stood in its way
  have hother : ∀ {id' q}, id' ≠ id → Db.period (db.put (.period id) p) id' = some q →
      q.fiscalYear = p.fiscalYear → q.sequence ≠ p.sequence := by
    intro id' q hid hq hy hs
    rw [hkept hid] at hq
    exact hfree (.inr ⟨(id', q), Db.mem_periods.mpr hq, .inl ⟨hy.symm, hs.symm⟩⟩)
  refine ⟨h.settings, h.years_ge, ?_, ?_⟩
  · intro id' q hq
    by_cases hid : id' = id
    · rw [hid, hself] at hq
      obtain rfl := Option.some.inj hq
      exact ⟨fiscalYear, hyear, i, hnew⟩
    · exact h.stored ((hkept hid).symm.trans hq)
  · intro id₁ id₂ p₁ p₂ hp₁ hp₂ hy hs
    by_cases hid₁ : id₁ = id <;> by_cases hid₂ : id₂ = id
    · rw [hid₁, hid₂]
    · rw [hid₁, hself] at hp₁
      obtain rfl := Option.some.inj hp₁
      exact absurd hs.symm (hother hid₂ hp₂ hy.symm)
    · rw [hid₂, hself] at hp₂
      obtain rfl := Option.some.inj hp₂
      exact absurd hs (hother hid₁ hp₁ hy)
    · exact h.unique ((hkept hid₁).symm.trans hp₁) ((hkept hid₂).symm.trans hp₂) hy hs

/-- **One period inserted**: it is stored afterwards, if its key is a new one. -/
theorem Calendar.insert (h : Calendar startMonth years db) (hyear : fiscalYear ∈ years) (hi : i < 12)
    (hfree : Db.period db (newId (i + 1)) = none) {db' : Db}
    (hdb' : db' = db.putAll (insertion newId db
      (Periods.newPeriod fiscalYear startMonth.month i))) :
    Calendar startMonth years db' ∧ HasPeriod startMonth db' fiscalYear i ∧
      (∀ year j, HasPeriod startMonth db year j → HasPeriod startMonth db' year j) ∧
      ∀ id, id ≠ newId (i + 1) → Db.period db' id = Db.period db id := by
  have hnew : AccountingPeriod.OfYear startMonth fiscalYear i
      (Periods.newPeriod fiscalYear startMonth.month i) := ⟨hi, .refl _⟩
  rw [insertion] at hdb'
  split at hdb'
  · rename_i htaken
    rw [Store.putAll_nil] at hdb'
    subst hdb'
    refine ⟨h, ?_, fun _ _ hp => hp, fun _ _ => rfl⟩
    -- the number or the name is that of a stored period, so it is the same one
    obtain ⟨⟨id, q⟩, hq, hconflict⟩ := htaken.resolve_left (not_not.mpr hfree)
    have hq' := Db.mem_periods.mp hq
    obtain ⟨year, -, j, hof⟩ := h.stored hq'
    obtain ⟨rfl, rfl⟩ := hnew.of_conflicts hof hconflict
    exact ⟨id, q, hq', hof⟩
  · rename_i htaken
    rw [Store.putAll_cons, Store.putAll_nil] at hdb'
    subst hdb'
    have hkept : ∀ id, id ≠ newId (i + 1) → Db.period (db.put (.period (newId (i + 1)))
        (Periods.newPeriod fiscalYear startMonth.month i)) id = Db.period db id := by
      intro id hid
      rw [period_put, if_neg hid.symm]
    refine ⟨h.put_new hyear hnew htaken, ⟨newId (i + 1), _, ?_, hnew⟩, ?_, hkept⟩
    · exact (period_put _ _ _ _).trans (if_pos rfl)
    · rintro year j ⟨id, q, hq, hof⟩
      refine ⟨id, q, (hkept id ?_).trans hq, hof⟩
      rintro rfl
      rw [hfree] at hq
      cases hq

/-- The first periods of a year inserted. -/
theorem Calendar.insert_range (h : Calendar startMonth years db) (hyear : fiscalYear ∈ years)
    (hfresh : FreshIds db newId) {n : ℕ} (hn : n ≤ 12) {db' : Db}
    (hdb' : db' = (List.range n).foldl (fun db i => db.putAll (insertion newId db
      (Periods.newPeriod fiscalYear startMonth.month i))) db) :
    Calendar startMonth years db' ∧ (∀ i < n, HasPeriod startMonth db' fiscalYear i) ∧
      (∀ year j, HasPeriod startMonth db year j → HasPeriod startMonth db' year j) ∧
      ∀ m ∈ Set.Icc (n + 1) 12, Db.period db' (newId m) = none := by
  induction n generalizing db' with
  | zero =>
    subst hdb'
    exact ⟨h, by simp, fun _ _ hp => hp, hfresh.unused⟩
  | succ n ih =>
    rw [List.range_succ, List.foldl_append] at hdb'
    obtain ⟨hcalendar, hall, hkept, hfree⟩ := ih (Nat.le_of_succ_le hn) rfl
    obtain ⟨hcalendar', hhas, hkept', hother⟩ :=
      hcalendar.insert hyear hn (hfree (n + 1) ⟨le_rfl, hn⟩) hdb'
    refine ⟨hcalendar', ?_, fun year j hp => hkept' year j (hkept year j hp), ?_⟩
    · intro j hj
      rcases Nat.lt_succ_iff_lt_or_eq.mp hj with hlt | rfl
      · exact hkept' fiscalYear j (hall j hlt)
      · exact hhas
    · intro m hm
      have hne : newId m ≠ newId (n + 1) := fun he => by
        have hm' := hfresh.distinct ⟨by have := hm.1; omega, hm.2⟩ ⟨by omega, hn⟩ he
        have := hm.1
        omega
      rw [hother _ hne]
      exact hfree m ⟨by have := hm.1; omega, hm.2⟩

/-- The store that `generatePeriods` leaves. -/
theorem alone_generatePeriods {settings : CompanySettings} (hyear : 100 ≤ fiscalYear)
    (hsettings : Db.settings db = some settings) (hmonth : settings.fiscalYearStartMonth = startMonth) :
    ((Periods.generatePeriods fiscalYear newId).alone db).2 =
      if (Periods.ofYear db fiscalYear).length = 12 then db
      else (List.range 12).foldl (fun db i => db.putAll (insertion newId db
        (Periods.newPeriod fiscalYear startMonth.month i))) db := by
  have hlist : (Periods.list fiscalYear).evalWith db [] =
      (.ok (Periods.ofYear db fiscalYear), db, []) := rfl
  have hbounds : (Company.fiscalYearBounds fiscalYear).evalWith db [] =
      (.ok (fiscalYearFirstDay fiscalYear startMonth, fiscalYearLastDay fiscalYear startMonth),
        db, []) := by
    subst hmonth
    change ((Prog.orThrow (Db.settings db) _).bind _).evalWith db [] = _
    rw [hsettings, ← fiscalYearStartDate_eq (.of_ge hyear),
      ← fiscalYearEndDate_eq (.of_ge hyear) (.of_ge (by omega))]
    rfl
  have hinsert : ∀ p ∈ Periods.newPeriods fiscalYear (fiscalYearFirstDay fiscalYear startMonth).month,
      ∀ buf, (Periods.insertPeriod (newId p.sequence) p).evalWith db buf =
        (.ok (), db, buf ++ insertion newId (db.putAll buf) p) :=
    fun p _ buf => evalWith_insertPeriod newId p buf
  obtain ⟨ws, hws, hfold⟩ : ∃ ws, (Prog.forEach _ _).evalWith db [] = (.ok (), db, [] ++ ws) ∧ _ :=
    Prog.evalWith_forEach hinsert
  rw [Prog.alone, Periods.generatePeriods, Prog.bind_eq, Prog.evalWith_bind hlist]
  split
  · rfl
  · have hcommit := Prog.evalWith_transaction hws
    rw [Prog.bind_eq, Prog.evalWith_bind hbounds]
    dsimp only
    rw [Prog.bind_eq]
    erw [Prog.evalWith_bind hcommit]
    have hstart : (fiscalYearFirstDay fiscalYear startMonth).month = startMonth.month := by
      have hle := startMonth.le
      have hpos := startMonth.pos
      simp only [fiscalYearFirstDay, firstOfMonth]
      omega
    rw [hstart, Periods.newPeriods, List.foldl_map] at hfold
    exact hfold

/-- An update of a period that is there. -/
theorem evalWith_updatePeriod (f : AccountingPeriod → AccountingPeriod)
    (hp : Db.period db id = some p) :
    (Periods.updatePeriod id f).evalWith db [] = (.ok (f p), db, [⟨.period id, f p⟩]) := by
  have hrow : db.row (.period id) = some p := (db.period_eq_row id).symm.trans hp
  change ((Prog.orThrow (db.row (.period id)) _).bind _).evalWith db [] = _
  rw [hrow]
  rfl

/-- A close of a period changes its status, or nothing. -/
theorem alone_close (user : Uuid) (now : Timestamp) :
    ((Periods.close id user now).alone db).2 = db ∨ ∃ p, Db.period db id = some p ∧
      ((Periods.close id user now).alone db).2 =
        db.put (.period id) (Periods.markClosed user now p) := by
  -- the program, once the row is locked
  have heval : (Periods.close id user now).evalWith db [] =
      (transaction (Prog.orThrow (Db.period db id) (.notFound "Period not found" [("id", .id id)]) >>=
        fun period => Prog.ensure (period.status ≠ .closed)
          (.conflict "Period already closed" [("id", .id id)]) >>= fun _ =>
        Periods.updatePeriod id (Periods.markClosed user now))).evalWith db [] := rfl
  rw [Prog.alone, heval]
  cases hp : Db.period db id with
  | none => exact .inl rfl
  | some p =>
    by_cases hclosed : p.status = .closed
    · left
      change (transaction (Prog.ensure _ _ >>= _)).evalWith db [] |>.2.1 = _
      rw [Prog.ensure, if_neg (not_not.mpr hclosed)]
      rfl
    · refine .inr ⟨p, rfl, ?_⟩
      change (transaction (Prog.ensure _ _ >>= _)).evalWith db [] |>.2.1 = _
      rw [Prog.ensure, if_pos hclosed]
      exact congrArg (·.2.1) (Prog.evalWith_transaction (evalWith_updatePeriod _ hp))

/-- A reopening of a period changes its status, or nothing. -/
theorem alone_reopen :
    ((Periods.reopen id).alone db).2 = db ∨ ∃ p, Db.period db id = some p ∧
      ((Periods.reopen id).alone db).2 = db.put (.period id) (Periods.markOpen p) := by
  have heval : (Periods.reopen id).evalWith db [] =
      (Prog.orThrow (Db.period db id) (.notFound "Period not found" [("id", .id id)]) >>=
        fun period => Prog.ensure (period.status ≠ .opened)
          (.conflict "Period is not closed" [("id", .id id)]) >>= fun _ =>
        transaction (Periods.updatePeriod id Periods.markOpen)).evalWith db [] := rfl
  rw [Prog.alone, heval]
  cases hp : Db.period db id with
  | none => exact .inl rfl
  | some p =>
    by_cases hopen : p.status = .opened
    · left
      change (Prog.ensure _ _ >>= _ : Program _).evalWith db [] |>.2.1 = _
      rw [Prog.ensure, if_neg (not_not.mpr hopen)]
      rfl
    · refine .inr ⟨p, rfl, ?_⟩
      change (Prog.ensure _ _ >>= _ : Program _).evalWith db [] |>.2.1 = _
      rw [Prog.ensure, if_pos hopen]
      exact congrArg (·.2.1) (Prog.evalWith_transaction (evalWith_updatePeriod _ hp))

/-- **The calendar of generated years**: their periods are stored, each of them once. -/
theorem Generated.calendar (h : Generated startMonth years db) :
    Calendar startMonth years db ∧
      ∀ fiscalYear ∈ years, ∀ i < 12, HasPeriod startMonth db fiscalYear i := by
  induction h with
  | @start db settings hsettings hmonth hempty =>
    have hnone : ∀ {id p}, Db.period db id ≠ some p := by
      intro id p hp
      have hmem := Db.mem_periods.mpr hp
      rw [hempty] at hmem
      cases hmem
    exact ⟨⟨⟨settings, hsettings, hmonth⟩, by simp, fun hp => absurd hp hnone,
      fun hp => absurd hp hnone⟩, by simp⟩
  | @generate years db fiscalYear newId _ hyear hfresh ih =>
    obtain ⟨hcalendar, hcomplete⟩ := ih
    obtain ⟨settings, hsettings, hmonth⟩ := hcalendar.settings
    rw [alone_generatePeriods hyear hsettings hmonth]
    have hwider : Calendar startMonth (fiscalYear :: years) db :=
      ⟨hcalendar.settings, List.forall_mem_cons.mpr ⟨hyear, hcalendar.years_ge⟩, fun hp => by
        obtain ⟨year, hmem, hof⟩ := hcalendar.stored hp
        exact ⟨year, List.mem_cons_of_mem _ hmem, hof⟩, hcalendar.unique⟩
    split
    · -- the periods found are those of a call before
      rename_i hlength
      obtain ⟨⟨id, p⟩, hp⟩ := List.exists_mem_of_length_pos
        (l := Periods.ofYear db fiscalYear) (by omega)
      rw [Periods.ofYear, List.mem_insertionSort, List.mem_filter] at hp
      obtain ⟨year, hmem, j, hof⟩ := hcalendar.stored (Db.mem_periods.mp hp.1)
      have heq : year = fiscalYear := hof.fields.1.symm.trans (of_decide_eq_true hp.2)
      refine ⟨hwider, List.forall_mem_cons.mpr ⟨?_, hcomplete⟩⟩
      exact hcomplete fiscalYear (heq ▸ hmem)
    · obtain ⟨hcalendar', hall, hkept, -⟩ :=
        hwider.insert_range List.mem_cons_self hfresh le_rfl rfl
      exact ⟨hcalendar', List.forall_mem_cons.mpr
        ⟨hall, fun year hmem i hi => hkept year i (hcomplete year hmem i hi)⟩⟩
  | @close years db id user now _ ih =>
    obtain ⟨hcalendar, hcomplete⟩ := ih
    rcases alone_close user now with hkept | ⟨p, hp, hput⟩
    · rw [hkept]
      exact ⟨hcalendar, hcomplete⟩
    · rw [hput]
      exact ⟨hcalendar.put hp rfl, fun year hmem i hi => (hcomplete year hmem i hi).put hp rfl⟩
  | @reopen years db id _ ih =>
    obtain ⟨hcalendar, hcomplete⟩ := ih
    rcases alone_reopen with hkept | ⟨p, hp, hput⟩
    · rw [hkept]
      exact ⟨hcalendar, hcomplete⟩
    · rw [hput]
      exact ⟨hcalendar.put hp rfl, fun year hmem i hi => (hcomplete year hmem i hi).put hp rfl⟩

end Calendar

/-! ## The period of a date -/

/-- The open periods a date lies in. -/
def Periods.candidates (db : Db) (date : Instant) : List (Uuid × AccountingPeriod) :=
  (Db.periods db).filter fun p =>
    p.2.status = .opened ∧ p.2.startDate ≤ truncateToUtcDay date ∧ truncateToUtcDay date ≤ p.2.endDate

/-- The period found is the first candidate. -/
theorem alone_findOpenPeriodForDate (db : Db) (date : Instant) :
    ((Periods.findOpenPeriodForDate date).alone db).1 =
      .ok ((Periods.candidates db date).head?.map Prod.fst) := by
  rw [Periods.candidates, List.head?_filter]
  rfl

section Candidates

variable {startMonth : StartMonth} {years : List ℤ} {db : Db} {date : Instant} {id : Uuid}
  {p : AccountingPeriod}

theorem mem_candidates : (id, p) ∈ Periods.candidates db date ↔
    Db.period db id = some p ∧ p.status = .opened ∧ p.Contains (truncateToUtcDay date) := by
  rw [Periods.candidates, List.mem_filter, Db.mem_periods, decide_eq_true_iff]
  rfl

theorem nodup_candidates (db : Db) (date : Instant) : (Periods.candidates db date).Nodup := by
  refine List.Nodup.filter _ (List.Nodup.of_map Prod.fst (Store.nodup_map_collect ?_))
  intro k v k' v' b b' hk hk' hb
  cases k <;> cases k' <;> cases hk <;> cases hk'
  cases hb
  rfl

/-- A candidate is the period of the day's month in the day's fiscal year. -/
theorem Calendar.candidate (h : Calendar startMonth years db)
    (hp : (id, p) ∈ Periods.candidates db date) :
    p.fiscalYear = fiscalYearForDate (truncateToUtcDay date) startMonth ∧
      p.sequence = monthOfYear (truncateToUtcDay date) startMonth + 1 := by
  obtain ⟨hrow, -, hcontains⟩ := mem_candidates.mp hp
  obtain ⟨year, hmem, i, hof⟩ := h.stored hrow
  obtain ⟨hyear, hmonth⟩ := (hof.contains_iff (h.years_ge year hmem)).mp hcontains
  exact ⟨hof.fields.1.trans hyear.symm, by rw [hof.fields.2.1, hmonth]⟩

/-- A moment has one candidate at most. -/
theorem Calendar.candidates_eq (h : Calendar startMonth years db) {x : Uuid × AccountingPeriod}
    (hx : x ∈ Periods.candidates db date) : Periods.candidates db date = [x] := by
  refine List.perm_singleton.mp ((List.perm_ext_iff_of_nodup (nodup_candidates db date)
    (List.nodup_singleton x)).mpr fun y => ?_)
  rw [List.mem_singleton]
  refine ⟨fun hy => ?_, fun hy => hy ▸ hx⟩
  obtain ⟨id, p⟩ := x
  obtain ⟨id', p'⟩ := y
  obtain ⟨hyear, hsequence⟩ := h.candidate hx
  obtain ⟨hyear', hsequence'⟩ := h.candidate hy
  have hp := (mem_candidates.mp hx).1
  have hp' := (mem_candidates.mp hy).1
  obtain rfl := h.unique hp hp' (hyear.trans hyear'.symm) (hsequence.trans hsequence'.symm)
  exact congrArg _ (Option.some.inj (hp'.symm.trans hp))

end Candidates

/-- What the fiscal years and the periods of a start month promise for a moment. -/
structure FiscalCalendar (startMonth : StartMonth) (date : Instant) : Prop where
  /-- A moment is of the fiscal year its day lies in. -/
  year : ∀ fiscalYear, 100 ≤ fiscalYear → (fiscalYearForDate date.day startMonth = fiscalYear ↔
    fiscalYearStartDate fiscalYear startMonth ≤ truncateToUtcDay date ∧
      truncateToUtcDay date ≤ fiscalYearEndDate fiscalYear startMonth)
  /-- A fiscal year ends on the day before the next one starts. -/
  follows : ∀ fiscalYear, 100 ≤ fiscalYear → fiscalYearEndDate fiscalYear startMonth =
    (fiscalYearStartDate (fiscalYear + 1) startMonth).prev
  /-- Its periods tile it. -/
  months : ∀ fiscalYear, 100 ≤ fiscalYear →
    Tiles (Periods.newPeriods fiscalYear startMonth.month)
      (fiscalYearStartDate fiscalYear startMonth) (fiscalYearEndDate fiscalYear startMonth)
  /-- A moment lies in one generated period at most. -/
  candidates : ∀ years db, Generated startMonth years db →
    (Periods.candidates db date).length ≤ 1
  /-- Where all periods are open and the fiscal year is generated, its period is found. -/
  found : ∀ years db, Generated startMonth years db →
    (∀ p ∈ Db.periods db, p.2.status = .opened) → fiscalYearForDate date.day startMonth ∈ years →
    ∃ id p, Periods.candidates db date = [(id, p)] ∧
      p.fiscalYear = fiscalYearForDate date.day startMonth ∧
      ((Periods.findOpenPeriodForDate date).alone db).1 = .ok (some id)

section FiscalCalendar

variable {startMonth : StartMonth} {date : Instant}

theorem monthOfYear_lt (date : UtcDay) (startMonth : StartMonth) : monthOfYear date startMonth < 12 :=
  Nat.mod_lt _ (by decide)

/-- From the year 100 on, the bounds are those of the calendar. -/
theorem fiscalYearBounds_eq {fiscalYear : ℤ} (h : 100 ≤ fiscalYear) (startMonth : StartMonth) :
    fiscalYearStartDate fiscalYear startMonth = fiscalYearFirstDay fiscalYear startMonth ∧
      fiscalYearEndDate fiscalYear startMonth = fiscalYearLastDay fiscalYear startMonth :=
  ⟨fiscalYearStartDate_eq (.of_ge h) _, fiscalYearEndDate_eq (.of_ge h) (.of_ge (by omega)) _⟩

/-- The promises hold where truncation keeps the day. -/
theorem FiscalCalendar.of_fullYear (h : FullYear date.day.year) : FiscalCalendar startMonth date where
  year := by
    intro fiscalYear hyear
    obtain ⟨hstart, hend⟩ := fiscalYearBounds_eq hyear startMonth
    rw [truncateToUtcDay_eq h, hstart, hend]
    exact fiscalYearForDate_eq_iff
  follows := by
    intro fiscalYear hyear
    obtain ⟨hstart, -⟩ := fiscalYearBounds_eq (show 100 ≤ fiscalYear + 1 by omega) startMonth
    obtain ⟨-, hend⟩ := fiscalYearBounds_eq hyear startMonth
    rw [hstart, hend, ← next_fiscalYearLastDay, prev_next]
  months := by
    intro fiscalYear hyear
    obtain ⟨hstart, hend⟩ := fiscalYearBounds_eq hyear startMonth
    rw [hstart, hend]
    exact tiles_newPeriods hyear startMonth
  candidates := by
    intro years db hgenerated
    obtain ⟨hcalendar, -⟩ := hgenerated.calendar
    cases hlist : Periods.candidates db date with
    | nil => exact Nat.zero_le 1
    | cons x l =>
      have hmem : x ∈ Periods.candidates db date := hlist ▸ List.mem_cons_self
      rw [← hlist, hcalendar.candidates_eq hmem, List.length_singleton]
  found := by
    intro years db hgenerated hopen hmem
    obtain ⟨hcalendar, hcomplete⟩ := hgenerated.calendar
    obtain ⟨id, p, hp, hof⟩ := hcomplete _ hmem _ (monthOfYear_lt date.day startMonth)
    have hcandidate : (id, p) ∈ Periods.candidates db date := by
      refine mem_candidates.mpr ⟨hp, hopen _ (Db.mem_periods.mpr hp), ?_⟩
      rw [truncateToUtcDay_eq h]
      exact (hof.contains_iff (hcalendar.years_ge _ hmem)).mpr ⟨rfl, rfl⟩
    have heq := hcalendar.candidates_eq hcandidate
    refine ⟨id, p, heq, hof.fields.1, ?_⟩
    rw [alone_findOpenPeriodForDate, heq]
    rfl

end FiscalCalendar

end AccountingApi
