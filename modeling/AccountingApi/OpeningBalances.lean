import AccountingApi.ExactTotals

/-!
# Opening balances

Opening balances need not balance. What they leave open goes to the opening balance equity account,
on one line after the given ones, so that the entry passes the check of a posting.

## Main definitions

* `openingLines`: the lines that are posted
* `Plugged`: the given lines, and one more where they do not balance

## Main results

* `plugged_openingLines`: the lines that are posted
* `postOpeningBalances_builds`: they are what the service hands to the posting
-/

namespace AccountingApi

open ReadCommitted Decimals

namespace PostLineInput

/-- What the line adds to the debit side. -/
def net (l : PostLineInput) : ℤ := l.debitOrZero - l.creditOrZero

theorem OneSided.hasOneSide {l : PostLineInput} (h : l.OneSided) : l.HasOneSide := by
  unfold HasOneSide
  unfold OneSided at h
  omega

theorem OneSided.net_ne_zero {l : PostLineInput} (h : l.OneSided) : l.net ≠ 0 := by
  unfold net
  unfold OneSided at h
  omega

end PostLineInput

/-- What the lines add to the debit side. -/
def netOf (lines : List PostLineInput) : ℤ := (lines.map (·.net)).sum

/-- The totals of the two sides are amounts below ten quadrillion rupiah. -/
structure WithinTotals (lines : List PostLineInput) : Prop where
  debit : (lines.map (·.debitOrZero)).sum < 10 ^ 20
  credit : (lines.map (·.creditOrZero)).sum < 10 ^ 20

instance (lines : List PostLineInput) : Decidable (WithinTotals lines) :=
  decidable_of_iff (_ ∧ _) ⟨fun h => ⟨h.1, h.2⟩, fun h => ⟨h.debit, h.credit⟩⟩

/-- The lines that are posted for the given balances. -/
def openingLines (equityId : Uuid) (balances : List PostLineInput) : List PostLineInput :=
  let diff := Money.subtract (Money.sum (balances.map (·.debitOrZero)))
    (Money.sum (balances.map (·.creditOrZero)))
  if Money.isZero diff then balances else balances ++ [Journal.plugLine equityId diff]

/-- **The given lines, and one more where they do not balance**: the line `plug` on the account
`equityId`, which takes back what the others leave open. -/
structure Plugged (equityId : Uuid) (balances lines : List PostLineInput)
    (plug : Option PostLineInput) : Prop where
  balanced : assertBalanced lines = .ok ()
  lines_eq : lines = balances ++ plug.toList
  isSome_iff : plug.isSome = true ↔ (balances.map (·.debitOrZero)).sum ≠
    (balances.map (·.creditOrZero)).sum
  account : ∀ l ∈ plug, l.accountId = equityId
  oneSided : ∀ l ∈ plug, l.OneSided
  net : ∀ l ∈ plug, l.net = -netOf balances

section Lines

variable {balances : List PostLineInput} {equityId : Uuid}

theorem netOf_eq (lines : List PostLineInput) :
    netOf lines = (lines.map (·.debitOrZero)).sum - (lines.map (·.creditOrZero)).sum := by
  induction lines with
  | nil => rfl
  | cons l lines ih =>
    simp only [netOf, PostLineInput.net, List.map_cons, List.sum_cons] at ih ⊢
    rw [ih]
    ring

section Sides

variable (h : ∀ b ∈ balances, b.OneSided)

include h

theorem debitOrZero_nonneg : ∀ b ∈ balances, 0 ≤ b.debitOrZero := by
  intro b hb
  rcases h b hb with ⟨hdebit, -⟩ | ⟨hdebit, -⟩
  · exact hdebit.le
  · exact hdebit.ge

theorem creditOrZero_nonneg : ∀ b ∈ balances, 0 ≤ b.creditOrZero := by
  intro b hb
  rcases h b hb with ⟨-, hcredit⟩ | ⟨-, hcredit⟩
  · exact hcredit.ge
  · exact hcredit.le

/-- What the check of a posting asks of lines with one side. -/
theorem assertBalanced_of_oneSided (hlength : 2 ≤ balances.length) (hwithin : WithinTotals balances)
    (hnet : netOf balances = 0) : assertBalanced balances = .ok () := by
  refine assertBalanced_eq_ok_iff.mpr ⟨hlength, fun b hb => (h b hb).hasOneSide, ?_⟩
  rw [Money.sum_eq_of_lt (debitOrZero_nonneg h) hwithin.debit,
    Money.sum_eq_of_lt (creditOrZero_nonneg h) hwithin.credit]
  exact sub_eq_zero.mp ((netOf_eq balances).symm.trans hnet)

/-- What the lines leave open is an amount of money. -/
theorem storable_netOf (hwithin : WithinTotals balances) : Money.Storable (netOf balances) := by
  have hd : 0 ≤ (balances.map (·.debitOrZero)).sum :=
    List.sum_nonneg (List.forall_mem_map.mpr (debitOrZero_nonneg h))
  have hc : 0 ≤ (balances.map (·.creditOrZero)).sum :=
    List.sum_nonneg (List.forall_mem_map.mpr (creditOrZero_nonneg h))
  have hdebit := (natAbs_lt_ten_pow_iff hd).mpr hwithin.debit
  have hcredit := (natAbs_lt_ten_pow_iff hc).mpr hwithin.credit
  rw [netOf_eq, Money.Storable]
  omega

/-- The difference of the two totals is exact. -/
theorem subtract_totals (hwithin : WithinTotals balances) :
    Money.subtract (Money.sum (balances.map (·.debitOrZero)))
      (Money.sum (balances.map (·.creditOrZero))) = netOf balances := by
  rw [Money.sum_eq_of_lt (debitOrZero_nonneg h) hwithin.debit,
    Money.sum_eq_of_lt (creditOrZero_nonneg h) hwithin.credit]
  have hstorable := storable_netOf h hwithin
  rw [netOf_eq] at hstorable ⊢
  exact Money.subtract_eq hstorable

/-- Lines that balance are two at least. -/
theorem two_le_length (hne : balances ≠ []) (hnet : netOf balances = 0) : 2 ≤ balances.length := by
  rcases balances with _ | ⟨b, _ | ⟨b', balances⟩⟩
  · exact absurd rfl hne
  · have hb := (h b List.mem_cons_self).net_ne_zero
    simp only [netOf, List.map_cons, List.map_nil, List.sum_cons, List.sum_nil, add_zero] at hnet
    exact absurd hnet hb
  · simp

end Sides

/-- The extra line takes back the difference, on one side. -/
theorem plugLine_spec (equityId : Uuid) {diff : ℤ} (hdiff : diff ≠ 0) (hstorable : Money.Storable diff) :
    (Journal.plugLine equityId diff).accountId = equityId ∧
      (Journal.plugLine equityId diff).OneSided ∧ (Journal.plugLine equityId diff).net = -diff := by
  unfold Journal.plugLine Money.isNegative
  by_cases hneg : diff < 0
  · rw [if_pos (decide_eq_true hneg), Money.multiply_neg_one hstorable]
    exact ⟨rfl, .inl ⟨Int.neg_pos_of_neg hneg, rfl⟩, sub_zero _⟩
  · rw [if_neg (by simpa using hneg)]
    exact ⟨rfl, .inr ⟨rfl, lt_of_le_of_ne (not_lt.mp hneg) hdiff.symm⟩, zero_sub _⟩

/-- One more line on top of the lines. -/
theorem netOf_append_singleton (lines : List PostLineInput) (l : PostLineInput) :
    netOf (lines ++ [l]) = netOf lines + l.net := by
  simp [netOf]

/-- The extra line brings the smaller total up to the larger one. -/
theorem withinTotals_append {l : PostLineInput} (h : ∀ b ∈ balances, b.OneSided)
    (hwithin : WithinTotals balances) (hl : l.OneSided) (hnet : l.net = -netOf balances) :
    WithinTotals (balances ++ [l]) := by
  obtain ⟨hdebit, hcredit⟩ := hwithin
  have hd : 0 ≤ (balances.map (·.debitOrZero)).sum :=
    List.sum_nonneg (List.forall_mem_map.mpr (debitOrZero_nonneg h))
  have hc : 0 ≤ (balances.map (·.creditOrZero)).sum :=
    List.sum_nonneg (List.forall_mem_map.mpr (creditOrZero_nonneg h))
  rw [netOf_eq, PostLineInput.net] at hnet
  constructor
  · rw [List.map_append, List.sum_append, List.map_singleton, List.sum_singleton]
    rcases hl with ⟨-, hl⟩ | ⟨hl, -⟩
    · rw [hl] at hnet
      linarith
    · linarith
  · rw [List.map_append, List.sum_append, List.map_singleton, List.sum_singleton]
    rcases hl with ⟨-, hl⟩ | ⟨hl, -⟩
    · linarith
    · rw [hl] at hnet
      linarith

/-- **The lines that are posted** pass the check, and are the given ones and the extra line. -/
theorem plugged_openingLines (hne : balances ≠ []) (h : ∀ b ∈ balances, b.OneSided)
    (hwithin : WithinTotals balances) (equityId : Uuid) :
    ∃ plug, Plugged equityId balances (openingLines equityId balances) plug := by
  have hdiff := subtract_totals h hwithin
  have hzero : netOf balances = 0 ↔ (balances.map (·.debitOrZero)).sum =
      (balances.map (·.creditOrZero)).sum := by
    rw [netOf_eq, sub_eq_zero]
  unfold openingLines
  rw [hdiff]
  by_cases hnet : netOf balances = 0
  · -- nothing is left open, so there are two lines already
    rw [if_pos (by simpa [Money.isZero] using hnet)]
    refine ⟨none, assertBalanced_of_oneSided h (two_le_length h hne hnet) hwithin hnet,
      (List.append_nil _).symm, ?_, ?_, ?_, ?_⟩
    · simp [← hzero, hnet]
    · intro l hl
      cases hl
    · intro l hl
      cases hl
    · intro l hl
      cases hl
  · rw [if_neg (by simpa [Money.isZero] using hnet)]
    obtain ⟨haccount, hone, hplug⟩ := plugLine_spec equityId hnet (storable_netOf h hwithin)
    refine ⟨some (Journal.plugLine equityId (netOf balances)), ?_, rfl, ?_, ?_, ?_, ?_⟩
    · refine assertBalanced_of_oneSided ?_ ?_ (withinTotals_append h hwithin hone hplug) ?_
      · exact List.forall_mem_append.mpr ⟨h, List.forall_mem_singleton.mpr hone⟩
      · rw [List.length_append, List.length_singleton]
        exact Nat.succ_le_succ (List.length_pos_iff.mpr hne)
      · rw [netOf_append_singleton, hplug, add_neg_cancel]
    · simp [← hzero, hnet]
    · rintro _ ⟨⟩
      exact haccount
    · rintro _ ⟨⟩
      exact hone
    · rintro _ ⟨⟩
      exact hplug

end Lines

/-- **What the service hands to the posting**: the given lines, and one more on the equity account
where they do not balance. -/
theorem postOpeningBalances_builds {balances : List PostLineInput} (hne : balances ≠ [])
    (h : ∀ b ∈ balances, b.OneSided) (hwithin : WithinTotals balances) (date : UtcDay)
    (postedBy id : Uuid) (now : Timestamp) :
    ∃ lines : Uuid → List PostLineInput,
      Journal.postOpeningBalances date balances postedBy id now = (do
        let db ← select .account
        let equity ← Prog.orThrow (Db.accountOfRole db .openingBalanceEquity)
          (.validationFailed "Opening Balance Equity account missing from chart" [])
        Posting.post ⟨date, "Opening balances", .opening, none, postedBy, lines equity.1⟩ postedBy id
          now) ∧
      ∀ equityId, ∃ plug, Plugged equityId balances (lines equityId) plug :=
  ⟨fun equityId => openingLines equityId balances, rfl, plugged_openingLines hne h hwithin⟩

namespace Sample

/-- Two balances in cash, one of receivables and one of payables. -/
def balances : List PostLineInput := [⟨1, some 10000, none, none⟩, ⟨1, some 5000, none, none⟩,
  ⟨2, some 20000, none, none⟩, ⟨3, none, some 8000, none⟩]

end Sample

open Sample in
/-- Balances of three accounts, one of them twice, that leave 2.7 rupiah open. -/
theorem postOpeningBalances_builds_repeated : netOf balances = 27000 ∧
    ∃ lines : Uuid → List PostLineInput,
      Journal.postOpeningBalances (.dateUtc 2026 0 1) balances 9 100 1 = (do
        let db ← select .account
        let equity ← Prog.orThrow (Db.accountOfRole db .openingBalanceEquity)
          (.validationFailed "Opening Balance Equity account missing from chart" [])
        Posting.post ⟨.dateUtc 2026 0 1, "Opening balances", .opening, none, 9, lines equity.1⟩ 9 100
          1) ∧
      ∀ equityId, ∃ plug, Plugged equityId balances (lines equityId) plug :=
  ⟨by decide, postOpeningBalances_builds (by decide) (by decide) (by decide) (.dateUtc 2026 0 1) 9
    100 1⟩

end AccountingApi
