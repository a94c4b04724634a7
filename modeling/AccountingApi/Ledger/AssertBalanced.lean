import AccountingApi.Client

/-!
# Entries to be posted

The input of a posting, and the double-entry check it must pass: at least two lines, each with
exactly one side, and equal totals.

## Main definitions

* `PostLineInput`, `PostEntryInput`
* `assertBalanced`

## Main results

* `assertBalanced_eq_ok_iff`
-/

namespace AccountingApi

open ReadCommitted

/-- A line to be posted; an omitted side counts as zero. -/
structure PostLineInput where
  accountId : Uuid
  debit : Option ℤ := none
  credit : Option ℤ := none
  description : Option String := none
deriving DecidableEq

namespace PostLineInput

def debitOrZero (l : PostLineInput) : ℤ := l.debit.getD 0

def creditOrZero (l : PostLineInput) : ℤ := l.credit.getD 0

/-- The row of a posted line. -/
def toJournalLine (l : PostLineInput) (lineNo : ℕ) : JournalLine :=
  ⟨lineNo, l.accountId, l.debitOrZero, l.creditOrZero, l.description⟩

end PostLineInput

/-- The rows of posted lines, numbered from one. -/
def toJournalLines (lines : List PostLineInput) : List JournalLine :=
  lines.mapIdx fun i l => l.toJournalLine (i + 1)

structure PostEntryInput where
  date : UtcDay
  description : String
  sourceType : JournalSourceType
  sourceId : Option Uuid
  createdBy : Uuid
  lines : List PostLineInput

/-- The totals of the lines, or the error of the first line without exactly one side. -/
def lineTotals (debit credit : ℤ) : List PostLineInput → Except Failure (ℤ × ℤ)
  | [] => .ok (debit, credit)
  | l :: lines =>
    let dPos := !Money.isZero l.debitOrZero
    let cPos := !Money.isZero l.creditOrZero
    if dPos = cPos then
      .error (.domain .unbalancedEntry
        "Each line must have exactly one of debit or credit > 0" [])
    else
      lineTotals (Money.add debit l.debitOrZero) (Money.add credit l.creditOrZero) lines

/-- Exactly one side of the line is not zero. -/
def PostLineInput.HasOneSide (l : PostLineInput) : Prop := l.debitOrZero = 0 ↔ l.creditOrZero ≠ 0

instance (l : PostLineInput) : Decidable l.HasOneSide := inferInstanceAs (Decidable (_ ↔ _))

/-- The totals are those of lines with one side each. -/
theorem lineTotals_eq_ok_iff {lines : List PostLineInput} {debit credit : ℤ} {totals : ℤ × ℤ} :
    lineTotals debit credit lines = .ok totals ↔ (∀ l ∈ lines, l.HasOneSide) ∧
      totals = ((lines.map (·.debitOrZero)).foldl Money.add debit,
        (lines.map (·.creditOrZero)).foldl Money.add credit) := by
  induction lines generalizing debit credit with
  | nil => simp [lineTotals, eq_comm]
  | cons l lines ih =>
    have hside : (!Money.isZero l.debitOrZero) = (!Money.isZero l.creditOrZero) ↔
        ¬ l.HasOneSide := by
      unfold PostLineInput.HasOneSide Money.isZero
      by_cases hd : l.debitOrZero = 0 <;> by_cases hc : l.creditOrZero = 0 <;> simp [hd, hc]
    unfold lineTotals
    simp only [List.map_cons, List.foldl_cons, List.forall_mem_cons]
    by_cases hone : l.HasOneSide
    · rw [if_neg (mt hside.mp (not_not.mpr hone)), ih]
      simp only [hone, true_and]
    · rw [if_pos (hside.mpr hone)]
      simp only [hone, reduceCtorEq, false_and]

/-- The check reads the two sides of each line only. -/
theorem lineTotals_congr {lines lines' : List PostLineInput}
    (h : lines'.map (fun l => (l.debitOrZero, l.creditOrZero)) =
      lines.map fun l => (l.debitOrZero, l.creditOrZero)) (debit credit : ℤ) :
    lineTotals debit credit lines' = lineTotals debit credit lines := by
  induction lines generalizing lines' debit credit with
  | nil =>
    obtain rfl := List.map_eq_nil_iff.mp h
    rfl
  | cons l lines ih =>
    obtain ⟨l', lines', rfl, hl, hlines⟩ := List.map_eq_cons_iff.mp h
    obtain ⟨hdebit, hcredit⟩ := Prod.mk.inj hl
    simp only [lineTotals, hdebit, hcredit, ih hlines]

def assertBalanced (lines : List PostLineInput) : Except Failure Unit :=
  if lines.length < 2 then
    .error (.domain .unbalancedEntry "An entry needs at least two lines" [])
  else
    match lineTotals Money.zero Money.zero lines with
    | .error e => .error e
    | .ok (debit, credit) =>
      if debit = credit then .ok ()
      else
        .error (.domain .unbalancedEntry "Total debits must equal total credits"
          [("debit", .amount debit), ("credit", .amount credit)])

/-- **What the check accepts**: at least two lines, one side each, and equal totals. -/
theorem assertBalanced_eq_ok_iff {lines : List PostLineInput} :
    assertBalanced lines = .ok () ↔ 2 ≤ lines.length ∧ (∀ l ∈ lines, l.HasOneSide) ∧
      Money.sum (lines.map (·.debitOrZero)) = Money.sum (lines.map (·.creditOrZero)) := by
  unfold assertBalanced
  split
  · simp only [reduceCtorEq, false_iff]
    rintro ⟨hlength, -⟩
    omega
  · rename_i hlength
    split
    · rename_i e herror
      simp only [reduceCtorEq, false_iff]
      rintro ⟨-, hone, -⟩
      rw [lineTotals_eq_ok_iff.mpr ⟨hone, rfl⟩] at herror
      cases herror
    · rename_i debit credit htotals
      obtain ⟨hone, heq⟩ := lineTotals_eq_ok_iff.mp htotals
      obtain ⟨rfl, rfl⟩ := Prod.mk.inj heq
      split
      · rename_i hequal
        exact iff_of_true rfl ⟨by omega, hone, hequal⟩
      · rename_i hunequal
        simp only [reduceCtorEq, false_iff]
        exact fun h => hunequal h.2.2

theorem assertBalanced_congr {lines lines' : List PostLineInput}
    (h : lines'.map (fun l => (l.debitOrZero, l.creditOrZero)) =
      lines.map fun l => (l.debitOrZero, l.creditOrZero)) :
    assertBalanced lines' = assertBalanced lines := by
  have hlength : lines'.length = lines.length := by
    simpa only [List.length_map] using congrArg List.length h
  unfold assertBalanced
  rw [hlength, lineTotals_congr h]

/-- What the rows of posted lines have in common with the lines. -/
theorem map_toJournalLines {α : Type} {f : JournalLine → α} {g : PostLineInput → α}
    (h : ∀ (l : PostLineInput) (n : ℕ), f (l.toJournalLine n) = g l) (lines : List PostLineInput) :
    (toJournalLines lines).map f = lines.map g :=
  List.ext_getElem (by simp [toJournalLines]) fun _ _ _ => by simp [toJournalLines, h]

end AccountingApi
