import AccountingApi.PostedAccounts

/-!
# Balanced books

Where requests are served one at a time, a request commits on the store it has read, so that no
account is deleted under a posting. Every posted entry, every trial balance and every balance sheet
then balances.

## Main definitions

* `BooksBalance`: the entries, the trial balances and the balance sheets balance

## Main results

* `booksBalance_of_reachable`
-/

namespace AccountingApi

open ReadCommitted Balances

/-- Exactly one side of the line is positive, and the other is zero. -/
def JournalLine.OneSided (l : JournalLine) : Prop :=
  (0 < l.debit ∧ l.credit = 0) ∨ (l.debit = 0 ∧ 0 < l.credit)

theorem JournalLine.Valid.oneSided {l : JournalLine} (h : l.Valid) : l.OneSided := by
  obtain ⟨⟨hdebit, hcredit, hzero, hpos⟩, -⟩ := h
  unfold JournalLine.OneSided
  omega

/-- Every posted entry is balanced, and so are the trial balance and the balance sheet of every day. -/
structure BooksBalance (db : Db) : Prop where
  entry : ∀ {id e}, Db.entry db id = some e → e.status ≠ .draft →
    e.side (·.debit) = e.side (·.credit) ∧ ∀ l ∈ e.lines, l.OneSided
  trialBalance : ∀ asOf, (trialBalance db asOf).totalDebit = (trialBalance db asOf).totalCredit
  balanceSheet : ∀ asOf, ∃ sheet, BalanceSheet.generate db asOf = .ok sheet ∧
    sheet.balanced = true ∧ sheet.totalAssets = sheet.totalLiabilities + sheet.totalEquity

section Runs

variable {policy : Policy Row LockName Query Failure Response Request} {db₀ : Db} {s : Server}

/-- A request that commits on the store it has read finds there what it has found. -/
theorem accountsHold_of_found {c : Commit} (h : ∀ q ∈ c.seen, q.2 = c.before) :
    PostsOnLive c ∧ DeletesUnposted c := by
  refine ⟨fun q hq _ w _ _ l _ hlive => ?_, fun q hq _ id _ hcount => ?_⟩
  · rwa [h q hq] at hlive
  · rwa [h q hq] at hcount

/-- The settings are there from the start on. -/
theorem settings_of_reachable (hsettings : Db.settings db₀ ≠ none)
    (h : Reachable code policy db₀ s) : Db.settings s.db ≠ none :=
  invariant_of_reachable (I := fun db => Db.settings db ≠ none) (fun _ => True) h
    (fun _ _ => trivial) hsettings fun _ hc _ hI _ => by
      rcases hc.settings_after with hsame | ⟨_, _, -, -, hsome⟩
      · rwa [hsame]
      · rw [hsome]
        exact Option.some_ne_none _

/-- Every posted line is on a live account, where the requests are served one at a time. -/
theorem postedLinesLive_of_serial (h₀ : Initial db₀)
    (h : Reachable code (oneAtATime fun _ => True) db₀ s) : PostedLinesLive s.db := by
  have hserial : s.Serial := h.serial fun r _ => commitsOnce_code r
  exact postedLinesLive_of_reachable h₀ h fun c hc => accountsHold_of_found (hserial.found c hc)

/-- **The books balance**: the requests are served one at a time, the company has settings, and the
totals have no more digits than the arithmetic. -/
theorem booksBalance_of_reachable (h₀ : Initial db₀) (hsettings : Db.settings db₀ ≠ none)
    (h : Reachable code (oneAtATime fun _ => True) db₀ s) (hdigits : WithinDigits s.db) :
    BooksBalance s.db := by
  have hcoh := coherent_of_reachable h₀ h
  have hlive := postedLinesLive_of_serial h₀ h
  have hlines := hlive.linesLive hcoh
  have hdouble := doubleEntry_of_reachable h₀ h
  have hbalanced := entriesBalanced hcoh hdouble hdigits
  refine ⟨fun he hnot => ⟨?_, fun l hl => ?_⟩, fun asOf => ?_, fun asOf => ?_⟩
  · exact entry_balanced hcoh hdouble hdigits he hnot
  · exact ((hcoh.entry he).valid l hl).oneSided
  · exact trialBalance_balanced hcoh.linesValid hlines hdigits hbalanced asOf
  · exact balanceSheet_balanced hcoh.linesValid hlines hdigits hbalanced
      (settings_of_reachable hsettings h) asOf

end Runs

namespace Sample

/-- A sale, a new account and its deletion, an invoice, the close of the year and its reopening. -/
def year : List (Request × ℕ) := [
  (.createAndPostEntry cashSale 9 100 1, 16),
  (.createAccount secondRevenue 30, 6),
  (.deleteAccount 30 9 2, 7),
  (.createDocument .salesInvoice invoice 9 20 .ordinal, 9),
  (.postDocument .salesInvoice 20 9 101 3 .ordinal, 29),
  (.closeYear thisYear 9 102 4, 24),
  (.reopenYear 2026 9 103 5, 20)]

end Sample

/-- The books of a year. -/
theorem booksBalance_of_reachable_year : BooksBalance (Sample.served Sample.db Sample.year).db :=
  booksBalance_of_reachable Sample.initial (by decide +kernel)
    (Sample.served_reachable (fun _ _ => trivial) (by decide +kernel)) (by decide +kernel)

end AccountingApi
