import AccountingApi.Books
import AccountingApi.FiscalPeriods
import AccountingApi.Movements
import AccountingApi.Postings

/-!
# Entries of this century

A period is generated for a fiscal year from 2000 on, and an entry is posted into a stored period of
its date. So the posted entries of every run are of this century, and its ledger is one the reports
rely on.

## Main definitions

* `OfCentury`: the periods and the posted entries are of this century

## Main results

* `ledger_of_reachable`: the ledgers of all runs
-/

namespace AccountingApi

open ReadCommitted Posting

/-- Every period starts, and every posted entry lies, in a year from 2000 on. -/
structure OfCentury (db : Db) : Prop where
  period : ∀ {id p}, Db.period db id = some p → 2000 ≤ p.startDate.year
  posted : ∀ {id e}, Db.entry db id = some e → e.status ≠ .draft → 2000 ≤ e.date.year

section Step

variable {strict : Prop} {c : Commit}

/-- A day that is not before one of this century is of this century. -/
theorem UtcDay.year_le_of_le {d e : UtcDay} (h : d ≤ e) : d.year ≤ e.year := by
  by_contra hlt
  exact (UtcDay.le_of_year_lt (not_le.mp hlt)).2 h

/-- A generated period starts in its fiscal year or the next one. -/
theorem PeriodNew.year {p : AccountingPeriod} (h : PeriodNew c p) : 2000 ≤ p.startDate.year := by
  obtain ⟨dto, _, start, _, -, -, hmem⟩ := h.generated
  obtain ⟨i, -, rfl⟩ := List.mem_map.mp hmem
  have hmin := dto.min
  let startMonth : StartMonth := ⟨start.month, start.month_pos, start.month_le⟩
  change 2000 ≤ (Periods.newPeriod dto.fiscalYear startMonth.month i).startDate.year
  rw [newPeriod_startDate (by omega)]
  simp only [UtcDay.firstOfMonth]
  omega

/-- **Every commit keeps the entries in this century.** -/
theorem OfCentury.after (h : OfCentury c.before) (hseen : ∀ q ∈ c.seen, OfCentury q.2)
    (hc : Transacts strict c) : OfCentury c.after := by
  constructor
  · intro id p hp
    cases hb : Db.period c.before id with
    | none => exact (hc.periodNew hb hp).year
    | some p₀ =>
      obtain ⟨p', hp', hnext⟩ := hc.periodNext hb
      obtain rfl : p' = p := Option.some.inj (hp'.symm.trans hp)
      rw [hnext.alike.fields.2.2.2.1]
      exact h.period hb
  · intro id e he hnot
    by_cases hbefore : ∀ e₀, Db.entry c.before id = some e₀ → e₀.status = .draft
    · -- it is posted by the commit, into a period the request has found
      obtain ⟨_, _, hposts⟩ := hc.postsEntry he hnot fun e₀ he₀ hnot₀ =>
        absurd (hbefore e₀ he₀) hnot₀
      obtain ⟨q, hq, p, hp, -, hstart, -⟩ := hposts.period
      have hyear := (hseen _ hq).period hp
      exact hyear.trans (UtcDay.year_le_of_le
        ((truncateToUtcDay_compare hyear (.midnight e.date)).1.mp hstart))
    · simp only [not_forall] at hbefore
      obtain ⟨e₀, he₀, hnot₀⟩ := hbefore
      obtain ⟨e', he', hstep⟩ := hc.entry_step he₀
      obtain rfl : e' = e := Option.some.inj (he'.symm.trans he)
      rw [hstep.lines.1]
      exact h.posted he₀ hnot₀

end Step

section Runs

variable {policy : Policy Row LockName Query Failure Response Request} {db₀ : Db} {s : Server}

/-- The entries of every store of a run that count are valid, and of this century. -/
theorem century_of_past (h₀ : Initial db₀)
    (hperiods : ∀ x ∈ Db.periods db₀, 2000 ≤ x.2.startDate.year)
    (h : Reachable code policy db₀ s) {t : Db} (ht : Past db₀ s.history t) :
    LinesValid t ∧ ∀ ⦃id : Uuid⦄ ⦃e : JournalEntry⦄, Db.entry t id = some e → e.Counts →
      2000 ≤ e.date.year := by
  have hinit : Coherent db₀ ∧ OfCentury db₀ :=
    ⟨h₀.coherent, fun hp => hperiods _ (Db.mem_periods.mpr hp),
      fun he => by rw [h₀.entry] at he; cases he⟩
  obtain ⟨hcoh, hcentury⟩ := past_of_reachable (I := fun db => Coherent db ∧ OfCentury db)
    (fun _ => True) h (fun _ _ => trivial) hinit
    (fun _ hc _ hI hseen => ⟨hI.1.after hc, hI.2.after (fun q hq => (hseen q hq).1.2) hc⟩) t ht
  refine ⟨hcoh.linesValid, fun id e he hcounts => hcentury.posted he fun hdraft => ?_⟩
  exact hcounts.1 ((hcoh.entry he).posted.mp hdraft)

/-- **The ledger of every run** is one the reports rely on, as long as its totals have no more digits
than the arithmetic. -/
theorem ledger_of_reachable (h₀ : Initial db₀)
    (hperiods : ∀ x ∈ Db.periods db₀, 2000 ≤ x.2.startDate.year)
    (h : Reachable code policy db₀ s) (hdigits : WithinDigits s.db) : Ledger s.db := by
  obtain ⟨hvalid, hcentury⟩ := century_of_past h₀ hperiods h (chain_of_reachable h).past_self
  exact ⟨hvalid, hcentury, hdigits⟩

end Runs

namespace Sample

theorem year_reachable : Reachable code (oneAtATime fun _ => True) db (served db year) :=
  served_reachable (fun _ _ => trivial) (by decide +kernel)

theorem year_ledger : Ledger (served db year).db :=
  ledger_of_reachable initial (by decide +kernel) year_reachable (by decide +kernel)

end Sample

end AccountingApi
