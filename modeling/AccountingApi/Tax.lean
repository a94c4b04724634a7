import AccountingApi.Ledger.AssertBalanced
import Mathlib.Data.List.Sort

/-!
# The tax engine

The taxes of a sale or a purchase: each tax code is applied once to the sum of the lines that carry
it, and the settlement is the subtotal plus value-added tax less withholding.

## Main definitions

* `TaxService.calculate`: the tax breakdown and the journal lines, from given tax codes
* `TaxService.calculateNow`: the same, from the tax codes as they are read

## Main results

* `TaxService.calculate_ok`: what the engine computes when it succeeds
* `TaxService.mem_taxes`: the taxes are those of the tax codes the lines carry
* `TaxService.calculate_pos`: the settlement is positive
* `TaxService.calculate_journalLines`: the last journal line is the settlement
-/

namespace AccountingApi

open ReadCommitted

inductive TaxNature where
  | sale | purchase
deriving DecidableEq

structure TaxableLineInput where
  accountId : Uuid
  amount : ℤ
  taxCodeIds : List Uuid
deriving DecidableEq

structure TaxableTransaction where
  nature : TaxNature
  settlementAccountId : Uuid
  lines : List TaxableLineInput

structure TaxBreakdownRow where
  taxCodeId : Uuid
  code : String
  kind : TaxKind
  base : ℤ
  amount : ℤ
  accountId : Uuid
deriving DecidableEq

/-- The result of the tax engine; its journal lines are lines to be posted. -/
structure TaxCalculation where
  subtotal : ℤ
  taxes : List TaxBreakdownRow
  settlementAmount : ℤ
  journalLines : List PostLineInput
  taxTotal : ℤ
  withholdingTotal : ℤ
deriving DecidableEq

/-! ## The order of tax codes -/

/-- An order of strings, as `localeCompare` has it in the locale of a process. Different strings may
tie in it. -/
structure Collation where
  localeCompare : String → String → Ordering
  trans : Std.TransCmp localeCompare

attribute [instance] Collation.trans

/-- The order of the code points. Digits and capital letters have it in every locale. -/
def Collation.ordinal : Collation := ⟨compare, inferInstance⟩

def TaxKind.name : TaxKind → String
  | .ppnOutput => "PPN_OUTPUT"
  | .ppnInput => "PPN_INPUT"
  | .pphPayable => "PPH_PAYABLE"
  | .pphPrepaid => "PPH_PREPAID"

def TaxNature.name : TaxNature → String
  | .sale => "SALE"
  | .purchase => "PURCHASE"

namespace TaxService

/-- The kinds of tax code a transaction may carry. -/
def allowedKinds : TaxNature → List TaxKind
  | .sale => [.ppnOutput, .pphPrepaid]
  | .purchase => [.ppnInput, .pphPayable]

/-- The checks made before the tax codes are read. -/
def checkLines (lines : List TaxableLineInput) : Except Failure Unit :=
  if lines.isEmpty then
    .error (.validationFailed "A taxable transaction needs at least one line" [])
  else
    match lines.find? fun l => ¬ l.taxCodeIds.Nodup with
    | some l => .error (.validationFailed "A tax code may not be repeated within a single line"
        [("accountId", .id l.accountId)])
    | none => .ok ()

/-- The tax codes the lines carry, each once, in the order they first occur. -/
def taxCodeIds (lines : List TaxableLineInput) : List Uuid :=
  (lines.flatMap (·.taxCodeIds)).eraseDups

/-- The tax codes with the given keys, or the error of the first one that is unknown or inactive. -/
def resolveCodes (codes : Uuid → Option TaxCode) : List Uuid → Except Failure (List (Uuid × TaxCode))
  | [] => .ok []
  | id :: ids =>
    match codes id with
    | none => .error (.validationFailed "Unknown tax code" [("taxCodeId", .id id)])
    | some c =>
      if c.isActive then
        match resolveCodes codes ids with
        | .error e => .error e
        | .ok cs => .ok ((id, c) :: cs)
      else .error (.validationFailed "Tax code is inactive" [("taxCodeId", .id id)])

/-- The error of the first tax code whose kind the transaction does not allow. -/
def checkKinds (nature : TaxNature) (cs : List (Uuid × TaxCode)) : Except Failure Unit :=
  match cs.find? fun c => c.2.kind ∉ allowedKinds nature with
  | some (id, c) =>
    .error (.validationFailed
      ("Tax kind " ++ c.kind.name ++ " is not allowed for a " ++ nature.name)
      [("taxCodeId", .id id), ("kind", .text (c.kind.name)),
        ("nature", .text (nature.name))])
  | none => .ok ()

/-- The tax base of a code: the amounts of the lines that carry it. -/
def baseOf (lines : List TaxableLineInput) (id : Uuid) : ℤ :=
  Money.sum ((lines.filter (id ∈ ·.taxCodeIds)).map (·.amount))

/-- One tax code's row: its total is rounded once, to whole rupiah. -/
def breakdownRow (lines : List TaxableLineInput) (c : Uuid × TaxCode) : TaxBreakdownRow where
  taxCodeId := c.1
  code := c.2.code
  kind := c.2.kind
  base := baseOf lines c.1
  amount := Money.roundToRupiah (Money.multiply (baseOf lines c.1) c.2.rate 6)
  accountId := c.2.taxAccountId

/-- The rows sorted by tax code, equal codes in the order they came. -/
def sortRows (collation : Collation) (rows : List TaxBreakdownRow) : List TaxBreakdownRow :=
  rows.insertionSort fun a b => collation.localeCompare a.code b.code ≠ .gt

def isDebitKind (kind : TaxKind) : Bool := kind = .ppnInput || kind = .pphPrepaid

def isPpn (kind : TaxKind) : Bool := kind = .ppnOutput || kind = .ppnInput

def baseLine (nature : TaxNature) (l : TaxableLineInput) : PostLineInput :=
  match nature with
  | .sale => { accountId := l.accountId, credit := some l.amount }
  | .purchase => { accountId := l.accountId, debit := some l.amount }

def taxLine (t : TaxBreakdownRow) : PostLineInput :=
  if isDebitKind t.kind then { accountId := t.accountId, debit := some t.amount }
  else { accountId := t.accountId, credit := some t.amount }

def settlementLine (nature : TaxNature) (accountId : Uuid) (amount : ℤ) : PostLineInput :=
  match nature with
  | .sale => { accountId := accountId, debit := some amount }
  | .purchase => { accountId := accountId, credit := some amount }

/-- The result for resolved tax codes. -/
def summarize (collation : Collation) (input : TaxableTransaction) (cs : List (Uuid × TaxCode)) :
    Except Failure TaxCalculation :=
  let subtotal := Money.sum (input.lines.map (·.amount))
  let taxes := sortRows collation (cs.map (breakdownRow input.lines))
  let ppnTotal := Money.sum ((taxes.filter (isPpn ·.kind)).map (·.amount))
  let pphTotal := Money.sum ((taxes.filter (!isPpn ·.kind)).map (·.amount))
  let settlement := Money.subtract (Money.add subtotal ppnTotal) pphTotal
  if Money.isZero settlement || Money.isNegative settlement then
    .error (.validationFailed "Total withholding leaves a non-positive settlement amount"
      [("subtotal", .amount subtotal), ("totalWithheld", .amount pphTotal)])
  else
    let journalLines := input.lines.map (baseLine input.nature) ++ taxes.map taxLine ++
      [settlementLine input.nature input.settlementAccountId settlement]
    let totalDebit := Money.sum (journalLines.map (·.debitOrZero))
    let totalCredit := Money.sum (journalLines.map (·.creditOrZero))
    if totalDebit = totalCredit then
      .ok ⟨subtotal, taxes, settlement, journalLines, ppnTotal, pphTotal⟩
    else .error (.internal "Tax calculation did not balance")

/-- The checks and the result once the tax codes are read. -/
def applyCodes (collation : Collation) (codes : Uuid → Option TaxCode)
    (input : TaxableTransaction) : Except Failure TaxCalculation := do
  let cs ← resolveCodes codes (taxCodeIds input.lines)
  checkKinds input.nature cs
  summarize collation input cs

/-- The tax breakdown of a transaction, from given tax codes. -/
def calculate (collation : Collation) (codes : Uuid → Option TaxCode)
    (input : TaxableTransaction) : Except Failure TaxCalculation := do
  checkLines input.lines
  applyCodes collation codes input

/-- The tax breakdown of a transaction, from the tax codes as they are read. -/
def calculateNow (collation : Collation) (input : TaxableTransaction) : Program TaxCalculation := do
  Prog.ofExcept (checkLines input.lines)
  let db ← select .taxCodes
  Prog.ofExcept (applyCodes collation db.liveTaxCode input)

/-- A result: its totals, its lines, and the checks it has passed. -/
structure Summarized (collation : Collation) (input : TaxableTransaction)
    (cs : List (Uuid × TaxCode)) (res : TaxCalculation) : Prop where
  subtotal : res.subtotal = Money.sum (input.lines.map (·.amount))
  taxes : res.taxes = sortRows collation (cs.map (breakdownRow input.lines))
  positive : 0 < res.settlementAmount
  journalLines : res.journalLines = input.lines.map (baseLine input.nature) ++
    res.taxes.map taxLine ++
      [settlementLine input.nature input.settlementAccountId res.settlementAmount]
  balanced : Money.sum (res.journalLines.map (·.debitOrZero)) =
    Money.sum (res.journalLines.map (·.creditOrZero))

theorem summarize_ok {collation : Collation} {input : TaxableTransaction}
    {cs : List (Uuid × TaxCode)} {res : TaxCalculation}
    (h : summarize collation input cs = .ok res) : Summarized collation input cs res := by
  simp only [summarize] at h
  split at h
  · cases h
  · rename_i hpos
    simp only [Money.isZero, Money.isNegative, Bool.or_eq_true, decide_eq_true_eq, not_or] at hpos
    split at h
    · rename_i hbalanced
      cases h
      exact ⟨rfl, rfl, lt_of_le_of_ne (not_lt.mp hpos.2) (Ne.symm hpos.1), rfl, hbalanced⟩
    · cases h

/-- The resolved tax codes are those of the keys. -/
theorem mem_resolveCodes {codes : Uuid → Option TaxCode} {ids : List Uuid}
    {cs : List (Uuid × TaxCode)} (h : resolveCodes codes ids = .ok cs) {x : Uuid × TaxCode} :
    x ∈ cs ↔ x.1 ∈ ids ∧ codes x.1 = some x.2 := by
  induction ids generalizing cs with
  | nil =>
    cases h
    simp
  | cons id ids ih =>
    unfold resolveCodes at h
    split at h
    · cases h
    · rename_i c hc
      split at h
      · split at h
        · cases h
        · rename_i cs' hcs'
          cases h
          obtain ⟨i, d⟩ := x
          rw [List.mem_cons, List.mem_cons, ih hcs', Prod.mk.injEq]
          constructor
          · rintro (⟨rfl, rfl⟩ | ⟨hmem, hd⟩)
            · exact ⟨.inl rfl, hc⟩
            · exact ⟨.inr hmem, hd⟩
          · rintro ⟨rfl | hmem, hd⟩
            · exact .inl ⟨rfl, Option.some.inj (hd.symm.trans hc)⟩
            · exact .inr ⟨hmem, hd⟩
      · cases h

section Calculated

variable {collation : Collation} {codes : Uuid → Option TaxCode} {input : TaxableTransaction}
  {res : TaxCalculation} (h : calculate collation codes input = .ok res)
include h

/-- What the engine computes when it succeeds. -/
theorem calculate_ok :
    input.lines ≠ [] ∧ ∃ cs, resolveCodes codes (taxCodeIds input.lines) = .ok cs ∧
      Summarized collation input cs res := by
  simp only [calculate, applyCodes, bind, Except.bind] at h
  split at h
  · cases h
  · rename_i hlines
    split at h
    · cases h
    · rename_i cs hcs
      split at h
      · cases h
      · refine ⟨?_, cs, hcs, summarize_ok h⟩
        rintro hnil
        rw [hnil] at hlines
        cases hlines

/-- The taxes are the rows of the tax codes the lines carry. -/
theorem mem_taxes {t : TaxBreakdownRow} :
    t ∈ res.taxes ↔ ∃ id ∈ taxCodeIds input.lines, ∃ c ∈ codes id,
      t = breakdownRow input.lines (id, c) := by
  obtain ⟨-, cs, hcs, hres⟩ := calculate_ok h
  rw [hres.taxes, sortRows, List.mem_insertionSort, List.mem_map]
  constructor
  · rintro ⟨⟨id, c⟩, hmem, rfl⟩
    obtain ⟨hid, hc⟩ := (mem_resolveCodes hcs).mp hmem
    exact ⟨id, hid, c, hc, rfl⟩
  · rintro ⟨id, hid, c, hc, rfl⟩
    exact ⟨(id, c), (mem_resolveCodes hcs).mpr ⟨hid, hc⟩, rfl⟩

/-- The settlement is positive. -/
theorem calculate_pos : 0 < res.settlementAmount := by
  obtain ⟨-, cs, -, hres⟩ := calculate_ok h
  exact hres.positive

/-- The journal lines: the lines, the taxes and, last, the settlement. -/
theorem calculate_journalLines :
    res.journalLines = input.lines.map (baseLine input.nature) ++ res.taxes.map taxLine ++
      [settlementLine input.nature input.settlementAccountId res.settlementAmount] := by
  obtain ⟨-, cs, -, hres⟩ := calculate_ok h
  exact hres.journalLines

end Calculated

end TaxService

end AccountingApi
