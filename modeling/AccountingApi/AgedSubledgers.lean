import AccountingApi.AccountTree
import AccountingApi.Agings
import AccountingApi.DatedSubledgers
import AccountingApi.DocumentPartners
import AccountingApi.Settlements

/-!
# The aging report and the control accounts

What the aging report of a day has outstanding is the balance of the control account on that day, and
what has been paid by then for documents dated later: such a payment is in the ledger while its document
is in neither. The report leaves no document out, since each has a partner to be joined with, and lists
no voided one, whose entry and its reversal are of one date.

## Main definitions

* `Db.Ahead`, `Db.prepaidAsOf`: payments for documents dated later
* `OnlyLegs`: nothing but settlement legs is on an account
* `AgesSubledger`: what a report says of the control account

## Main results

* `sum_outstanding`, `sum_paidAsOf`: the documents of the report, and what had been paid to them
* `agesSubledger_of_reachable`
-/

namespace AccountingApi

open ReadCommitted Posting

/-! ## What is paid ahead -/

/-- The allocation is to a document of the side that is dated after the day. -/
def Db.Ahead (db : Db) (kind : DocumentKind) (day : UtcDay) (a : PaymentAllocation) : Prop :=
  ∃ id ∈ a.idOf kind, ∃ d ∈ Db.document db kind id, ¬ d.date ≤ day

instance (db : Db) (kind : DocumentKind) (day : UtcDay) : DecidablePred (Db.Ahead db kind day) :=
  fun a => inferInstanceAs (Decidable (∃ id ∈ a.idOf kind, _))

/-- What a payment dated up to a day puts on documents dated after it. -/
def Payment.aheadOf (p : Payment) (db : Db) (kind : DocumentKind) (day : UtcDay) : ℤ :=
  if p.status = .posted ∧ p.date ≤ day then
    ((p.allocations.filter (Db.Ahead db kind day)).map (·.amount)).sum
  else 0

/-- What the payments dated up to a day put on documents dated after it. -/
def Db.prepaidAsOf (db : Db) (kind : DocumentKind) (day : UtcDay) : ℤ :=
  payments.sum (fun _ p => p.aheadOf db kind day) db

/-! ## What has been paid by a day -/

/-- What a payment dated up to a day puts on a document. -/
def Payment.paidBy (p : Payment) (day : UtcDay) (kind : DocumentKind) (id : Uuid) : ℤ :=
  if p.status = .posted ∧ p.date ≤ day then allocatedTo kind id p.allocations else 0

section Paid

variable {db : Db} {kind : DocumentKind} {id : Uuid} {day : UtcDay}

/-- The sum over the allocations to a document, as one over all allocations. -/
theorem allocatedTo_eq_sum (kind : DocumentKind) (id : Uuid) (as : List PaymentAllocation) :
    allocatedTo kind id as = (as.map fun a => if a.idOf kind = some id then a.amount else 0).sum := by
  induction as with
  | nil => rfl
  | cons a as ih =>
    rw [allocatedTo_cons, List.map_cons, List.sum_cons, ih]

variable (hcoh : Coherent db)
include hcoh

/-- What the query sums up for a document. -/
theorem paidAsOf_eq (kind : DocumentKind) (day : UtcDay) (id : Uuid) :
    Aging.paidAsOf db kind day id = payments.sum (fun _ p => p.paidBy day kind id) db := by
  refine payments.sum_congr _ (fun _ => rfl) fun i p hp => ?_
  rw [Payment.paidBy, allocatedTo]
  by_cases hposted : p.status = .posted
  · have hlive : p.deletedAt = none := (hcoh.payment hp).live (by rw [hposted]; decide)
    simp only [hposted, hlive, true_and]
  · simp only [hposted, false_and, if_false]

theorem paidAsOf_le (kind : DocumentKind) (day : UtcDay) (id : Uuid) :
    Aging.paidAsOf db kind day id ≤ Db.paid db kind id := by
  rw [paidAsOf_eq hcoh]
  refine payments.sum_mono fun i p hp => ?_
  have hnonneg : 0 ≤ allocatedTo kind id p.allocations := allocatedTo_nonneg (hcoh.payment hp).valid.2
  rw [Payment.paidBy, Payment.paidTo]
  by_cases hposted : p.status = .posted
  · rw [if_pos hposted]
    split
    · exact le_rfl
    · exact hnonneg
  · rw [if_neg hposted, if_neg fun h => hposted h.1]

/-- By no day has more been paid for a document than its total. -/
theorem paidAsOf_le_total (hsettled : Settled db) {d : Document} (day : UtcDay)
    (hd : Db.document db kind id = some d) : Aging.paidAsOf db kind day id ≤ d.total := by
  have hpaid := hsettled.paid kind id
  rw [Db.amountPaid, hd, Option.elim_some] at hpaid
  exact ((paidAsOf_le hcoh kind day id).trans_eq hpaid.symm).trans (hsettled.solvent hd).le_total

omit hcoh in
/-- What is allocated to a document is no less than each allocation. -/
theorem le_allocatedTo {as : List PaymentAllocation} (hvalid : ∀ a ∈ as, a.Valid)
    {a : PaymentAllocation} (ha : a ∈ as) (hid : a.idOf kind = some id) :
    a.amount ≤ allocatedTo kind id as := by
  apply List.single_le_sum
  · intro x hx
    obtain ⟨a', ha', rfl⟩ := List.mem_map.mp hx
    exact (hvalid a' (List.mem_of_mem_filter ha')).1.le
  · exact List.mem_map_of_mem (List.mem_filter.mpr ⟨ha, decide_eq_true hid⟩)

/-- **A posted payment is for posted documents**: what it allocates to a document counts as paid, and
nothing has been paid for a document that is not posted. -/
theorem posted_of_allocated (hsettled : Settled db) {pid : Uuid} {p : Payment}
    (hp : Db.payment db pid = some p) (hposted : p.status = .posted) {a : PaymentAllocation}
    (ha : a ∈ p.allocations) (hid : a.idOf kind = some id) :
    ∃ d, Db.document db kind id = some d ∧ d.status = .posted := by
  have hvalid := (hcoh.payment hp).valid.2
  by_contra hnot
  have hunpaid : Db.amountPaid db kind id = 0 := by
    rw [Db.amountPaid]
    cases hd : Db.document db kind id with
    | none => rfl
    | some d => exact (hsettled.solvent hd).unpaid fun h => hnot ⟨d, hd, h⟩
  have hterms : ∀ i p, payments.get db i = some p → 0 ≤ p.paidTo kind id := by
    intro i p hp
    rw [Payment.paidTo]
    split
    · exact allocatedTo_nonneg (hcoh.payment hp).valid.2
    · exact le_rfl
  rw [hsettled.paid kind id] at hunpaid
  have hzero := (payments.sum_eq_zero_iff hterms).mp hunpaid pid p hp
  rw [Payment.paidTo, if_pos hposted] at hzero
  have hle := le_allocatedTo hvalid ha hid
  have hpos := (hvalid a ha).1
  omega

end Paid

/-! ## The documents of the report -/

/-- The document is in the report of a day, unless it had been paid by then. -/
def Document.StandsOn (d : Document) (day : UtcDay) : Prop := d.status = .posted ∧ d.date ≤ day

instance (d : Document) (day : UtcDay) : Decidable (d.StandsOn day) :=
  inferInstanceAs (Decidable (_ ∧ _))

/-- What had been paid by a day for the documents of a side that are dated up to it. -/
def Db.paidByDay (db : Db) (kind : DocumentKind) (day : UtcDay) : ℤ :=
  documents.sum (fun k d => if k.1 = kind ∧ d.StandsOn day then Aging.paidAsOf db kind day k.2 else 0) db

section Documents

variable {db : Db} {kind : DocumentKind} {day : UtcDay} (hcoh : Coherent db) (hsettled : Settled db)
include hcoh hsettled

/-- **What the documents of the report have outstanding** is what the documents dated up to the day have
billed, less what had been paid for them. -/
theorem sum_outstanding (hpartnered : Partnered db) (kind : DocumentKind) (day : UtcDay) :
    ((Aging.openDocuments db kind day).map Aging.outstanding).sum + Db.paidByDay db kind day =
      Db.billedAsOf db kind day := by
  have hrows : ((Aging.openDocuments db kind day).map Aging.outstanding).sum =
      documents.sum (fun k d => if k.1 = kind ∧ d.StandsOn day then
        d.total - Aging.paidAsOf db kind day k.2 else 0) db := by
    rw [Aging.openDocuments, Store.sum_map_collect]
    refine Store.sum_congr fun k v hv => ?_
    cases k
    case document k id =>
      change Document at v
      have hd : Db.document db k id = some v := (Db.document_eq_row _ _ _).trans hv
      show Option.elim (if k = kind ∧ v.status = .posted ∧ v.deletedAt = none ∧ v.date ≤ day then
          (Aging.docRow db kind day id v).filter fun r => r.paidAsOf < r.total else none) 0 _ =
        if k = kind ∧ v.StandsOn day then v.total - Aging.paidAsOf db kind day id else 0
      by_cases hstands : k = kind ∧ v.StandsOn day
      · obtain ⟨rfl, hposted, hdate⟩ := hstands
        have hlive : v.deletedAt = none := (hcoh.document hd).live (by rw [hposted]; decide)
        obtain ⟨partner, hpartner⟩ := Option.ne_none_iff_exists'.mp (hpartnered k id v hd)
        have hle := paidAsOf_le_total hcoh hsettled day hd
        rw [if_pos ⟨rfl, hposted, hlive, hdate⟩, if_pos ⟨rfl, hposted, hdate⟩, Aging.docRow, hpartner,
          Option.map_some, Option.filter_some]
        -- a document that had been paid is not in the report
        by_cases hopen : Aging.paidAsOf db k day id < v.total
        · rw [if_pos (decide_eq_true hopen)]
          rfl
        · rw [if_neg (by simpa using hopen)]
          show (0 : ℤ) = _
          omega
      · rw [if_neg fun h => hstands ⟨h.1, h.2.1, h.2.2.2⟩, if_neg hstands]
        rfl
    all_goals rfl
  rw [hrows, Db.paidByDay, ← documents.sum_add, Db.billedAsOf]
  refine documents.sum_congr _ (fun _ => rfl) fun k d _ => ?_
  show _ = if k.1 = kind then (if d.StandsOn day then d.total else 0) else 0
  by_cases hkind : k.1 = kind
  · by_cases hstands : d.StandsOn day
    · rw [if_pos ⟨hkind, hstands⟩, if_pos ⟨hkind, hstands⟩, if_pos hkind, if_pos hstands, sub_add_cancel]
    · rw [if_neg fun h => hstands h.2, if_neg fun h => hstands h.2, if_pos hkind, if_neg hstands, add_zero]
  · rw [if_neg fun h => hkind h.1, if_neg fun h => hkind h.1, if_neg hkind, add_zero]

omit hsettled in
theorem paidByDay_nonneg (kind : DocumentKind) (day : UtcDay) : 0 ≤ Db.paidByDay db kind day := by
  rw [← documents.sum_zero db]
  refine documents.sum_mono fun k d _ => ?_
  split
  · rw [paidAsOf_eq hcoh, ← payments.sum_zero db]
    refine payments.sum_mono fun id p hp => ?_
    rw [Payment.paidBy]
    split
    · exact allocatedTo_nonneg (hcoh.payment hp).valid.2
    · exact le_rfl
  · exact le_rfl

/-- What an allocation of a posted payment puts on the documents dated up to a day. -/
theorem sum_allocation {pid : Uuid} {p : Payment} (hp : Db.payment db pid = some p)
    (hposted : p.status = .posted) {a : PaymentAllocation} (ha : a ∈ p.allocations) :
    documents.sum (fun k d => if k.1 = kind ∧ d.StandsOn day ∧ a.idOf kind = some k.2 then a.amount
        else 0) db + (if Db.Ahead db kind day a then a.amount else 0) =
      if p.direction.target.kind = kind then a.amount else 0 := by
  obtain ⟨hthis, hother⟩ := (hcoh.payment hp).targets a ha
  by_cases hkind : p.direction.target.kind = kind
  · obtain ⟨id, hid⟩ := Option.ne_none_iff_exists'.mp hthis
    have hof : a.idOf kind = some id := by
      rw [← hkind]
      exact hid
    obtain ⟨d, hd, hdposted⟩ := posted_of_allocated hcoh hsettled hp hposted ha hof
    have hsum : documents.sum (fun k d => if k.1 = kind ∧ d.StandsOn day ∧ a.idOf kind = some k.2 then
        a.amount else 0) db =
        documents.sum (fun k d => if k = (kind, id) then (if d.StandsOn day then a.amount else 0) else 0)
          db := by
      refine documents.sum_congr _ (fun _ => rfl) fun k d _ => ?_
      rw [hof]
      by_cases hk : k = (kind, id)
      · subst hk
        simp
      · rw [if_neg hk, if_neg]
        rintro ⟨hk₁, -, hk₂⟩
        exact hk (Prod.ext hk₁ (Option.some.inj hk₂).symm)
    have hget : documents.get db (kind, id) = some d := hd
    rw [hsum, documents.sum_at, hget, Option.elim_some, if_pos hkind]
    have hahead : Db.Ahead db kind day a ↔ ¬ d.date ≤ day := by
      simp [Db.Ahead, hof, hd]
    by_cases hdate : d.date ≤ day
    · rw [if_pos ⟨hdposted, hdate⟩, if_neg fun h => hahead.mp h hdate, add_zero]
    · rw [if_neg fun h => hdate h.2, if_pos (hahead.mpr hdate), zero_add]
  · have hnone : a.idOf kind = none := by
      rw [← hother]
      cases hdirection : p.direction <;> cases kind <;>
        simp_all [PaymentTarget.otherId, PaymentDirection.target]
    have hzero : documents.sum (fun k d => if k.1 = kind ∧ d.StandsOn day ∧ a.idOf kind = some k.2 then
        a.amount else 0) db = 0 := by
      refine (documents.sum_congr _ (fun _ => rfl) fun k d _ => ?_).trans (documents.sum_zero db)
      rw [hnone]
      exact if_neg fun h => by cases h.2.2
    have hahead : ¬ Db.Ahead db kind day a := by simp [Db.Ahead, hnone]
    rw [hzero, if_neg hahead, if_neg hkind, add_zero]

/-- What a payment puts on the documents dated up to a day. -/
theorem sum_payment {pid : Uuid} {p : Payment} (hp : Db.payment db pid = some p) :
    documents.sum (fun k d => if k.1 = kind ∧ d.StandsOn day then p.paidBy day kind k.2 else 0) db +
        p.aheadOf db kind day =
      if p.direction.target.kind = kind then p.settledBy day else 0 := by
  by_cases hstands : p.status = .posted ∧ p.date ≤ day
  · have hdocs : documents.sum (fun k d => if k.1 = kind ∧ d.StandsOn day then p.paidBy day kind k.2
        else 0) db = (p.allocations.map fun a => documents.sum (fun k d =>
          if k.1 = kind ∧ d.StandsOn day ∧ a.idOf kind = some k.2 then a.amount else 0) db).sum := by
      rw [← documents.sum_list]
      refine documents.sum_congr _ (fun _ => rfl) fun k d _ => ?_
      rw [Payment.paidBy, if_pos hstands, allocatedTo_eq_sum]
      by_cases hk : k.1 = kind ∧ d.StandsOn day
      · rw [if_pos hk]
        simp only [hk, true_and]
      · rw [if_neg hk]
        refine (List.sum_eq_zero fun x hx => ?_).symm
        obtain ⟨a, -, rfl⟩ := List.mem_map.mp hx
        exact if_neg fun h => hk ⟨h.1, h.2.1⟩
    have hahead : p.aheadOf db kind day =
        (p.allocations.map fun a => if Db.Ahead db kind day a then a.amount else 0).sum := by
      rw [Payment.aheadOf, if_pos hstands, List.sum_map_ite]
      simp
    have heach : ∀ a ∈ p.allocations, documents.sum (fun k d => if k.1 = kind ∧ d.StandsOn day ∧
        a.idOf kind = some k.2 then a.amount else 0) db + (if Db.Ahead db kind day a then a.amount else 0) =
          if p.direction.target.kind = kind then a.amount else 0 :=
      fun a ha => sum_allocation hcoh hsettled hp hstands.1 ha
    rw [hdocs, hahead, ← List.sum_map_add, List.map_congr_left heach, Payment.settledBy,
      if_pos hstands, (hcoh.payment hp).amount_eq_sum]
    split
    · rfl
    · simp
  · have hdocs : documents.sum (fun k d => if k.1 = kind ∧ d.StandsOn day then p.paidBy day kind k.2
        else 0) db = 0 := by
      refine (documents.sum_congr _ (fun _ => rfl) fun k d _ => ?_).trans (documents.sum_zero db)
      rw [Payment.paidBy, if_neg hstands, ite_self]
    rw [hdocs, Payment.aheadOf, if_neg hstands, Payment.settledBy, if_neg hstands, ite_self, add_zero]

/-- **What had been paid by a day** for the documents dated up to it, and what had been paid ahead, are
the payments dated up to it. -/
theorem sum_paidAsOf (kind : DocumentKind) (day : UtcDay) :
    Db.paidByDay db kind day + Db.prepaidAsOf db kind day = Db.settledAsOf db kind day := by
  have hpaid : Db.paidByDay db kind day = payments.sum (fun _ p => documents.sum (fun k d =>
      if k.1 = kind ∧ d.StandsOn day then p.paidBy day kind k.2 else 0) db) db := by
    rw [payments.sum_comm documents, Db.paidByDay]
    refine documents.sum_congr _ (fun _ => rfl) fun k d _ => ?_
    by_cases hk : k.1 = kind ∧ d.StandsOn day
    · rw [if_pos hk, paidAsOf_eq hcoh]
      simp only [hk, and_self, if_true]
    · rw [if_neg hk]
      simp only [hk, if_false]
      exact (payments.sum_zero db).symm
  rw [hpaid, Db.prepaidAsOf, ← payments.sum_add, Db.settledAsOf]
  exact payments.sum_congr _ (fun _ => rfl) fun id p hp => sum_payment hcoh hsettled hp

end Documents

/-! ## The control account -/

/-- What debits and credits come to on the side of receivables, or of payables. -/
def DocumentKind.net (kind : DocumentKind) (debit credit : ℤ) : ℤ :=
  match kind with
  | .salesInvoice => debit - credit
  | .purchaseBill => credit - debit

/-- The posted entries dated up to a day with a line on an account that is not their settlement leg. -/
def Db.strays (db : Db) (accountId : Uuid) (day : UtcDay) : List Uuid :=
  db.collect fun
    | .entry id, e =>
      if e.Counts ∧ e.date ≤ day ∧ ¬ (e.lines.filter fun l => l.accountId = accountId) =
        (((Db.settlementLeg db e).map (·.2)).toList.filter fun l => l.accountId = accountId)
      then some id else none
    | _, _ => none

section Control

variable {db : Db} {kind : DocumentKind} {day : UtcDay} {accountId : Uuid} {a : Account}

theorem lines_of_strays (h : Db.strays db accountId day = []) {id : Uuid} {e : JournalEntry}
    (he : Db.entry db id = some e) (hcounts : e.Counts) (hdate : e.date ≤ day) :
    (e.lines.filter fun l => l.accountId = accountId) =
      (((Db.settlementLeg db e).map (·.2)).toList.filter fun l => l.accountId = accountId) := by
  by_contra hne
  have hmem : id ∈ Db.strays db accountId day :=
    Store.mem_collect.mpr ⟨.entry id, e, (Db.entry_eq_row _ _).symm.trans he,
      if_pos ⟨hcounts, hdate, hne⟩⟩
  rw [h] at hmem
  exact List.not_mem_nil hmem

theorem DocumentKind.net_sideOn (kind : DocumentKind) (e : JournalEntry) (accountId : Uuid) :
    kind.net (e.sideOn accountId (·.debit)) (e.sideOn accountId (·.credit)) =
      ((e.lines.filter fun l => l.accountId = accountId).map kind.legAmount).sum := by
  unfold JournalEntry.sideOn
  generalize (e.lines.filter fun l => l.accountId = accountId) = ls
  induction ls with
  | nil => cases kind <;> rfl
  | cons l ls ih =>
    rw [List.map_cons, List.map_cons, List.map_cons, List.sum_cons, List.sum_cons, List.sum_cons, ← ih]
    cases kind with
    | salesInvoice => exact add_sub_add_comm _ _ _ _
    | purchaseBill => exact add_sub_add_comm _ _ _ _

/-- **The control account is the settlement legs**, if nothing else is on it: the other account of the
legs has another role. -/
theorem net_control (hunique : UniqueAccounts db) (hreconciled : Reconciled db)
    (ha : Db.account db accountId = some a) (hrole : a.role = some kind.descriptor.controlRole)
    (hstrays : Db.strays db accountId day = []) :
    kind.net (Db.sideOn db accountId (·.debit) (· ≤ day)) (Db.sideOn db accountId (·.credit) (· ≤ day)) =
      Db.controlLegsAsOf db kind day := by
  have hentry : ∀ id e, entries.get db id = some e →
      kind.net (if e.Counts ∧ e.date ≤ day then e.sideOn accountId (·.debit) else 0)
        (if e.Counts ∧ e.date ≤ day then e.sideOn accountId (·.credit) else 0) =
      Db.legOn db kind day e := by
    intro id e he
    rw [Db.legOn]
    by_cases hdated : e.Counts ∧ e.date ≤ day
    · rw [if_pos hdated, if_pos hdated, if_pos hdated, kind.net_sideOn,
        lines_of_strays hstrays he hdated.1 hdated.2]
      cases hleg : Db.settlementLeg db e with
      | none => rfl
      | some x =>
        obtain ⟨kind', l⟩ := x
        obtain ⟨b, hb, hbrole⟩ := hreconciled.control he hleg
        show (([l].filter fun l => l.accountId = accountId).map kind.legAmount).sum = _
        rw [legOf_some]
        by_cases hkind : kind' = kind
        · subst hkind
          -- one account at most has the role
          have hsame : l.accountId = accountId := by
            by_contra hne
            refine hunique accountId a ha ⟨l.accountId, b, hb, hne, .inr ⟨?_, hbrole.trans hrole.symm⟩⟩
            rw [hrole]
            cases kind' <;> rfl
          have hall : ([l].filter fun l => l.accountId = accountId) = [l] :=
            List.filter_cons_of_pos (decide_eq_true hsame)
          rw [if_pos rfl, hall]
          exact add_zero _
        · have hother : l.accountId ≠ accountId := by
            intro hsame
            rw [hsame] at hb
            obtain rfl : a = b := Option.some.inj (ha.symm.trans hb)
            have := hrole.symm.trans hbrole
            cases kind <;> cases kind' <;> first | exact hkind rfl | cases this
          have hnone : ([l].filter fun l => l.accountId = accountId) = [] :=
            List.filter_cons_of_neg (by simpa using hother)
          rw [if_neg hkind, hnone]
          rfl
    · rw [if_neg hdated, if_neg hdated, if_neg hdated]
      cases kind <;> rfl
  cases kind with
  | salesInvoice =>
    show Db.sideOn db accountId _ _ - Db.sideOn db accountId _ _ = _
    rw [Db.sideOn, Db.sideOn, ← entries.sum_sub]
    exact entries.sum_congr _ (fun _ => rfl) hentry
  | purchaseBill =>
    show Db.sideOn db accountId _ _ - Db.sideOn db accountId _ _ = _
    rw [Db.sideOn, Db.sideOn, ← entries.sum_sub]
    exact entries.sum_congr _ (fun _ => rfl) hentry

end Control

/-! ## The report -/

/-- **What the report of a day says of the control account**: what it has outstanding are the settlement
legs dated up to the day and the payments made ahead, so that it agrees with the legs exactly if no
payment dated up to the day is for a document dated after it; and the legs are the balance of the control
account, if nothing else is posted on it. -/
structure AgesSubledger (collate : String → String → Bool) (db : Db) (kind : AgingKind) (asOf : Instant)
    (maxDocs : ℕ) : Prop where
  total : (Aging.aging collate db kind asOf maxDocs).totalOutstanding =
    Db.controlLegsAsOf db kind.documents (truncateToUtcDay asOf) +
      Db.prepaidAsOf db kind.documents (truncateToUtcDay asOf)
  agrees : (Aging.aging collate db kind asOf maxDocs).totalOutstanding =
      Db.controlLegsAsOf db kind.documents (truncateToUtcDay asOf) ↔
    ∀ id p, Db.payment db id = some p → p.status = .posted → p.date ≤ truncateToUtcDay asOf →
      ∀ a ∈ p.allocations, ¬ Db.Ahead db kind.documents (truncateToUtcDay asOf) a
  account : ∀ id a balance, Db.account db id = some a →
    a.role = some kind.documents.descriptor.controlRole → Db.strays db id (truncateToUtcDay asOf) = [] →
    Balances.accountBalance db id (truncateToUtcDay asOf) = .ok balance →
      kind.documents.net balance.debit balance.credit =
        Db.controlLegsAsOf db kind.documents (truncateToUtcDay asOf)

section Report

variable {db : Db} {kind : DocumentKind} {day : UtcDay}

theorem Payment.Coherent.aheadOf_nonneg {p : Payment} (h : p.Coherent) : 0 ≤ p.aheadOf db kind day := by
  rw [Payment.aheadOf]
  split
  · refine List.sum_nonneg (List.forall_mem_map.mpr fun a ha => ?_)
    exact (h.valid.2 a (List.mem_of_mem_filter ha)).1.le
  · exact le_rfl

/-- Nothing has been paid ahead if and only if no allocation is to a document dated later: every
allocation is of some amount. -/
theorem prepaidAsOf_eq_zero_iff (hcoh : Coherent db) : Db.prepaidAsOf db kind day = 0 ↔
    ∀ id p, Db.payment db id = some p → p.status = .posted → p.date ≤ day →
      ∀ a ∈ p.allocations, ¬ Db.Ahead db kind day a := by
  rw [Db.prepaidAsOf, payments.sum_eq_zero_iff fun id p hp => (hcoh.payment hp).aheadOf_nonneg]
  refine forall_congr' fun id => forall_congr' fun p => forall_congr' fun hp => ?_
  rw [Payment.aheadOf]
  constructor
  · intro hzero hposted hdate a ha hahead
    rw [if_pos ⟨hposted, hdate⟩] at hzero
    have hle : a.amount ≤ ((p.allocations.filter (Db.Ahead db kind day)).map (·.amount)).sum := by
      apply List.single_le_sum
      · intro x hx
        obtain ⟨a', ha', rfl⟩ := List.mem_map.mp hx
        exact ((hcoh.payment hp).valid.2 a' (List.mem_of_mem_filter ha')).1.le
      · exact List.mem_map_of_mem (List.mem_filter.mpr ⟨ha, decide_eq_true hahead⟩)
    have hpos := ((hcoh.payment hp).valid.2 a ha).1
    omega
  · intro hnone
    by_cases hstands : p.status = .posted ∧ p.date ≤ day
    · have hempty : p.allocations.filter (Db.Ahead db kind day) = [] :=
        List.filter_eq_nil_iff.mpr fun a ha h => hnone hstands.1 hstands.2 a ha (of_decide_eq_true h)
      rw [if_pos hstands, hempty]
      rfl
    · exact if_neg hstands

/-- The total of a report that leaves no document out. -/
theorem aging_total {collate : String → String → Bool} {kind : AgingKind} {asOf : Instant} {maxDocs : ℕ}
    (hall : (Aging.aging collate db kind asOf maxDocs).truncated = false)
    (hfits : ((Aging.openDocuments db kind.documents (truncateToUtcDay asOf)).map
      Aging.outstanding).sum < 10 ^ 20) :
    (Aging.aging collate db kind asOf maxDocs).totalOutstanding =
      ((Aging.openDocuments db kind.documents (truncateToUtcDay asOf)).map Aging.outstanding).sum := by
  rw [Aging.aging, Aging.query, Aging.report_eq] at hall ⊢
  have hperm := List.perm_insertionSort (Aging.Before collate)
    (Aging.openDocuments db kind.documents (truncateToUtcDay asOf))
  generalize List.insertionSort (Aging.Before collate) _ = rows at hall hperm ⊢
  rw [List.take_of_length_le (Nat.not_lt.mp (of_decide_eq_false hall)), ← (hperm.map _).sum_eq]
  rw [← (hperm.map _).sum_eq] at hfits
  refine (Aging.gathers_foldl (truncateToUtcDay asOf) ?_ hfits).total
  intro r hr
  obtain ⟨d, partner, -, -, -, -, -, hopen, heq⟩ := Aging.mem_openDocuments.mp (hperm.subset hr)
  rw [heq]
  exact hopen

end Report

/-! ## Runs -/

/-- What a run keeps whose updates and posts are not overtaken, and which reverses no document's entry
as such. -/
structure SubledgersKept (db : Db) : Prop where
  coherent : Coherent db
  linked : Linked db
  reversible : Reversible db
  mirrored : Mirrored db
  settled : Settled db
  legs : Legs db
  reconciled : Reconciled db
  backed : Backed db
  dated : Dated db

/-- A commit keeps all of them. -/
theorem SubledgersKept.after {strict : Prop} {c : Commit} (h : SubledgersKept c.before)
    (hc : Transacts strict c) (hupdates : UpdatesDraft c) (hreads : PostsWhatItRead c)
    (hspares : SparesDocuments c) (hpast : ∀ q ∈ c.seen, Linked q.2 ∧ Persists q.2 c.before)
    (hseen : ∀ q ∈ c.seen, AccountsKept q.2 c.before) : SubledgersKept c.after where
  coherent := h.coherent.after hc
  linked := h.linked.after h.coherent hc
  reversible := h.reversible.after hc
  mirrored := h.mirrored.after h.reversible hc
  settled := h.settled.after hc h.coherent hupdates
  legs := h.legs.after hc hupdates
  reconciled := h.reconciled.after hc h.coherent h.linked h.reversible h.settled h.legs hupdates hspares
    hpast hseen
  backed := h.backed.after hc hspares h.coherent h.linked h.reversible hpast
  dated := h.dated.after hc hupdates hreads

section Reachable

variable {policy : Policy Row LockName Query Failure Response Request} {db₀ : Db} {s : Server}

theorem subledgers_always (h₀ : Initial db₀) (h : Reachable code policy db₀ s)
    (hupdates : ∀ c ∈ s.history, UpdatesDraft c) (hreads : ∀ c ∈ s.history, PostsWhatItRead c)
    (hspares : ∀ c ∈ s.history, SparesDocuments c) : SubledgersKept s.db := by
  have hchain := chain_of_reachable h
  refine hchain.always (D := fun s db => Persists s db ∧ AccountsKept s db)
    (fun s => ⟨.refl s, .refl s⟩) (fun _ _ _ h h' => ⟨h.1.trans h'.1, h.2.trans h'.2⟩)
    (fun _ hc => ⟨hc.persists, hc.accountsKept⟩)
    ⟨h₀.coherent, h₀.linked, h₀.reversible, h₀.mirrored, h₀.settled, h₀.legs, h₀.reconciled, h₀.backed,
      h₀.dated⟩ ?_ s.db hchain.past_self
  intro c hmem hc hI hseen
  exact hI.after hc (hupdates c hmem) (hreads c hmem) (hspares c hmem)
    (fun q hq => ⟨(hseen q hq).1.linked, (hseen q hq).2.1⟩) fun q hq => (hseen q hq).2.2

/-- **The aging report of any day reconciles with the control account**, in every reachable state, where
no update and no post is overtaken, no document's entry is reversed as such, and the report leaves
nothing out. -/
theorem agesSubledger_of_reachable (h₀ : Initial db₀) (hchart : AccountTree db₀)
    (h : Reachable code policy db₀ s) (hupdates : ∀ c ∈ s.history, UpdatesDraft c)
    (hreads : ∀ c ∈ s.history, PostsWhatItRead c) (hspares : ∀ c ∈ s.history, SparesDocuments c)
    {collate : String → String → Bool} {kind : AgingKind} {asOf : Instant} {maxDocs : ℕ}
    (hall : (Aging.aging collate s.db kind asOf maxDocs).truncated = false)
    (hfits : Db.billedAsOf s.db kind.documents (truncateToUtcDay asOf) < 10 ^ 20) :
    AgesSubledger collate s.db kind asOf maxDocs := by
  obtain ⟨hcoh, hlinked, hrev, hmir, hsettled, hlegs, hreconciled, hbacked, hdated⟩ :=
    subledgers_always h₀ h hupdates hreads hspares
  have htree := accountTree_kept hchart h
  -- what had been paid cancels between the report and the settlement legs
  have hopen := sum_outstanding hcoh hsettled (partnered_always h₀ h) kind.documents
    (truncateToUtcDay asOf)
  have hpaid := sum_paidAsOf hcoh hsettled kind.documents (truncateToUtcDay asOf)
  have hcontrol := controlLegsAsOf_eq hcoh hlinked hlegs hbacked hdated hrev hmir kind.documents
    (truncateToUtcDay asOf)
  have hnonneg := paidByDay_nonneg hcoh kind.documents (truncateToUtcDay asOf)
  have htotal := aging_total hall (by omega)
  have hreport : (Aging.aging collate s.db kind asOf maxDocs).totalOutstanding =
      Db.controlLegsAsOf s.db kind.documents (truncateToUtcDay asOf) +
        Db.prepaidAsOf s.db kind.documents (truncateToUtcDay asOf) := by
    rw [htotal, hcontrol]
    omega
  refine ⟨hreport, ?_, ?_⟩
  · rw [← prepaidAsOf_eq_zero_iff hcoh, hreport]
    exact add_eq_left
  · intro id a balance ha hrole hstrays hbalance
    rw [Balances.accountBalance] at hbalance
    cases hlive : Db.liveAccount s.db id with
    | none => rw [hlive] at hbalance; cases hbalance
    | some a' =>
      rw [hlive] at hbalance
      cases hbalance
      exact net_control htree.unique hreconciled ha hrole hstrays

end Reachable

/-- A receipt of New Year's Day for the invoice of June, posted once the invoice is; a second invoice is
posted and voided. -/
def Sample.paidAhead : List (Event Request) :=
  postedInvoice ++ request 2 (.createPayment { receipt 20 with date := newYearsDay } 9 30) 7 ++
    request 3 (.postPayment 30 9 101 2 .plain .plain) 28 ++
    request 4 (.createDocument .salesInvoice invoice 9 21 .ordinal) 9 ++
    request 5 (.postDocument .salesInvoice 21 9 102 3 .ordinal) 28 ++
    request 6 (.voidDocument .salesInvoice 21 9 103 4) 24

/-- On New Year's Day the receipt has been paid ahead, and is all that the control account holds. -/
theorem agesSubledger_of_reachable_paidAhead :
    let db := (Sample.server Sample.paidAhead).db
    (Aging.aging (fun _ _ => true) db .ar (.midnight Sample.newYearsDay)).totalOutstanding = 0 ∧
      Db.prepaidAsOf db .salesInvoice Sample.newYearsDay = 100 * 10 ^ 4 ∧
      Db.strays db 2 Sample.newYearsDay = [] ∧
      AgesSubledger (fun _ _ => true) db .ar (.midnight Sample.newYearsDay) Aging.maxDocuments :=
  ⟨by decide +kernel, by decide +kernel, by decide +kernel,
    agesSubledger_of_reachable Sample.initial Sample.accountTree (Sample.reachable (by decide +kernel))
      (by decide +kernel) (by decide +kernel) (by decide +kernel) (by decide +kernel) (by decide +kernel)⟩

end AccountingApi
