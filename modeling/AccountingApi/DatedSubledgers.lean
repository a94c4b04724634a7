import AccountingApi.PostedDocuments
import AccountingApi.ReadCommitted.Joins
import AccountingApi.Subledgers

/-!
# Subledgers on any day

The settlement legs dated up to a day are the totals of the documents dated up to it less the payments
dated up to it, whatever the day: a reversal has the date of its original, so that a void takes a
document or a payment out of the past as well.

## Main definitions

* `Db.controlLegsAsOf`: the settlement legs dated up to a day
* `Db.billedAsOf`, `Db.settledAsOf`: the documents and the payments dated up to a day
* `Dated`: documents and payments have the dates of their entries

## Main results

* `sum_legOn`: the legs of originals and reversals cancel
* `controlLegsAsOf_eq`: the legs of a day are those of its documents and payments
-/

namespace AccountingApi

open ReadCommitted Posting

/-! ## Sums up to a day -/

/-- What an entry adds to the control account of a side by a day. -/
def Db.legOn (db : Db) (kind : DocumentKind) (day : UtcDay) (e : JournalEntry) : ℤ :=
  if e.Counts ∧ e.date ≤ day then kind.legOf (Db.settlementLeg db e) else 0

/-- The settlement legs of the posted entries of a side that are dated up to a day. -/
def Db.controlLegsAsOf (db : Db) (kind : DocumentKind) (day : UtcDay) : ℤ :=
  entries.sum (fun _ e => Db.legOn db kind day e) db

/-- The total of a posted document that is dated up to a day. -/
def Document.billedBy (d : Document) (day : UtcDay) : ℤ :=
  if d.status = .posted ∧ d.date ≤ day then d.total else 0

/-- The amount of a posted payment that is dated up to a day. -/
def Payment.settledBy (p : Payment) (day : UtcDay) : ℤ :=
  if p.status = .posted ∧ p.date ≤ day then p.amount else 0

/-- The totals of the documents of a side that are dated up to a day. -/
def Db.billedAsOf (db : Db) (kind : DocumentKind) (day : UtcDay) : ℤ :=
  documents.sum (fun k d => if k.1 = kind then d.billedBy day else 0) db

/-- The amounts of the payments of a side that are dated up to a day. -/
def Db.settledAsOf (db : Db) (kind : DocumentKind) (day : UtcDay) : ℤ :=
  payments.sum (fun _ p => if p.direction.target.kind = kind then p.settledBy day else 0) db

/-! ## Dates -/

/-- The entry of a document or a payment has its date. -/
structure Dated (db : Db) : Prop where
  document : ∀ {kind id d}, Db.document db kind id = some d → d.status ≠ .draft →
    ∃ entryId e, d.journalEntryId = some entryId ∧ Db.entry db entryId = some e ∧ e.date = d.date
  payment : ∀ {id p}, Db.payment db id = some p → p.status ≠ .draft →
    ∃ entryId e, p.journalEntryId = some entryId ∧ Db.entry db entryId = some e ∧ e.date = p.date

section Kept

variable {strict : Prop} {c : Commit}

theorem PaymentStep.date {p p' : Payment} (h : PaymentStep p p') : p'.date = p.date := by
  cases h <;> rfl

/-- **A commit keeps the dates**, where its post finds the document as its request has read it. -/
theorem Dated.after (h : Dated c.before) (hc : Transacts strict c) (hupdates : UpdatesDraft c)
    (hreads : PostsWhatItRead c) : Dated c.after where
  document := by
    intro kind id d hd hnot
    cases hb : Db.document c.before kind id with
    | none =>
      obtain ⟨input, totals, rfl, -⟩ := hc.document_new hb hd
      exact absurd rfl hnot
    | some d₀ =>
      by_cases hdraft : d₀.status = .draft
      · obtain ⟨d₁, hd₁, hnext⟩ := hc.documentNext hb
        obtain rfl : d = d₁ := Option.some.inj (hd.symm.trans hd₁)
        obtain ⟨t, rfl, rfl, rfl⟩ := hnext.posted hdraft hnot
        obtain ⟨_, _, _, _, entryId, e, _, -, -, -, -, -, hentry, he, -, -, -, hdate⟩ :=
          t.agrees hreads
        exact ⟨entryId, e, hentry, he, hdate⟩
      · obtain ⟨d₁, hd₁, halike, -, -⟩ := hc.document_fixed hupdates hb hdraft
        obtain rfl : d = d₁ := Option.some.inj (hd.symm.trans hd₁)
        obtain ⟨entryId, e, hentry, he, hdate⟩ := h.document hb hdraft
        obtain ⟨e', he', hstep⟩ := hc.entry_step he
        rw [halike]
        exact ⟨entryId, e', hentry, he', hstep.lines.1.trans hdate⟩
  payment := by
    intro id p hp hnot
    cases hb : Db.payment c.before id with
    | none =>
      obtain ⟨dto, user, rfl, -⟩ := hc.payment_new hb hp
      exact absurd rfl hnot
    | some p₀ =>
      obtain ⟨p₁, hp₁, hnext⟩ := hc.paymentNext hb
      obtain rfl : p = p₁ := Option.some.inj (hp.symm.trans hp₁)
      by_cases hdraft : p₀.status = .draft
      · obtain ⟨t, rfl, rfl⟩ := hnext.posted hdraft hnot
        refine ⟨t.entryId, t.entry, rfl, t.after_entry, ?_⟩
        rw [t.created.eq_postedEntry t.prepared]
        rfl
      · have hpstep := hnext.paymentStep
        obtain ⟨entryId, e, hentry, he, hdate⟩ := h.payment hb hdraft
        obtain ⟨e', he', hstep⟩ := hc.entry_step he
        rw [hpstep.date, hpstep.journalEntryId hdraft]
        exact ⟨entryId, e', hentry, he', hstep.lines.1.trans hdate⟩

end Kept

theorem Initial.dated {db : Db} (h : Initial db) : Dated db where
  document := fun hd => by rw [h.document] at hd; cases hd
  payment := fun hp => by rw [h.payment] at hp; cases hp

/-! ## Originals and reversals -/

section Legs

variable {db : Db} {kind : DocumentKind} {day : UtcDay} {id : Uuid} {e e' : JournalEntry}

theorem legOn_of_not (h : ¬ (e.Counts ∧ e.date ≤ day)) : Db.legOn db kind day e = 0 := if_neg h

theorem legOn_of_leg_none (h : Db.settlementLeg db e = none) : Db.legOn db kind day e = 0 := by
  rw [Db.legOn, h]
  exact ite_self 0

/-- What the entry of a posted document or payment adds. -/
def Db.standingLeg (db : Db) (kind : DocumentKind) (day : UtcDay) (e : JournalEntry) : ℤ :=
  if e.status = .posted ∧ e.sourceType.OfDocument then Db.legOn db kind day e else 0

/-- What the reversed entry of a document or payment adds. -/
def Db.reversedLeg (db : Db) (kind : DocumentKind) (day : UtcDay) (e : JournalEntry) : ℤ :=
  if e.status = .reversed ∧ e.sourceType.OfDocument then Db.legOn db kind day e else 0

/-- What a reversal adds. -/
def Db.reversingLeg (db : Db) (kind : DocumentKind) (day : UtcDay) (e : JournalEntry) : ℤ :=
  if e.reversalOfId ≠ none then Db.legOn db kind day e else 0

variable (hcoh : Coherent db) (hrev : Reversible db) (hmir : Mirrored db)
include hcoh

/-- The entry of a document reverses nothing. -/
theorem Coherent.reversalOfId_of_document (he : Db.entry db id = some e)
    (hsource : e.sourceType.OfDocument) : e.reversalOfId = none := by
  by_contra hne
  rw [(hcoh.entry he).reversal hne] at hsource
  exact hsource

/-- An entry is one of a posted document, one of a voided document, or a reversal, or has no leg. -/
theorem legOn_split (he : Db.entry db id = some e) : Db.legOn db kind day e =
    Db.standingLeg db kind day e + (Db.reversedLeg db kind day e + Db.reversingLeg db kind day e) := by
  unfold Db.standingLeg Db.reversedLeg Db.reversingLeg
  by_cases hsource : e.sourceType.OfDocument
  · have hnone := hcoh.reversalOfId_of_document he hsource
    cases hstatus : e.status with
    | draft =>
      have hzero : Db.legOn db kind day e = 0 :=
        legOn_of_not fun h => h.1.1 ((hcoh.entry he).posted.mp hstatus)
      simp [hzero]
    | posted => simp [hsource, hnone]
    | reversed => simp [hsource, hnone]
  · by_cases hne : e.reversalOfId = none
    · have hleg : Db.settlementLeg db e = none := by
        rw [settlementLeg_of_none hne, legAmong_of_not hsource]
      simp [hsource, hne, legOn_of_leg_none hleg]
    · simp [hsource, hne]

include hrev hmir

/-- A reversal takes off what its original adds, if that is the entry of a document. -/
theorem reversingLeg_eq {o r : Uuid} (he' : Db.entry db r = some e') (ho : e'.reversalOfId = some o)
    (he : Db.entry db o = some e) :
    Db.reversingLeg db kind day e' = -Db.reversedLeg db kind day e := by
  obtain ⟨e₀, he₀, hr⟩ := hrev.original he' ho
  obtain rfl : e = e₀ := Option.some.inj (he.symm.trans he₀)
  have hne : e'.reversalOfId ≠ none := by
    rw [ho]
    exact nofun
  have hreversed : e.status = .reversed := (hcoh.entry he).reversed.mpr (by rw [hr]; exact nofun)
  have hleg : Db.settlementLeg db e' = (Db.legAmong db e e.lines).map fun x => (x.1, swapLine x.2) := by
    rw [settlementLeg_of_some ho he, hmir.lines he hr he', legAmong_swap]
  rw [Db.reversingLeg, if_pos hne, Db.reversedLeg]
  by_cases hsource : e.sourceType.OfDocument
  · have hnone := hcoh.reversalOfId_of_document he hsource
    have hcounts : e.Counts := hcoh.counts he (by rw [hreversed]; exact nofun)
    have hcounts' : e'.Counts := hcoh.counts he' (hmir.posted he' hne)
    rw [if_pos ⟨hreversed, hsource⟩, Db.legOn, Db.legOn, hmir.date he hr he', hleg,
      settlementLeg_of_none hnone, legOf_swap]
    simp only [hcounts, hcounts', true_and]
    split
    · rfl
    · rfl
  · rw [if_neg fun h => hsource h.2, neg_zero]
    refine legOn_of_leg_none ?_
    rw [hleg, legAmong_of_not hsource]
    rfl

/-- **Voids cancel**: what the reversed entries of documents add, their reversals take off. -/
theorem sum_legOn (kind : DocumentKind) (day : UtcDay) : Db.controlLegsAsOf db kind day =
    entries.sum (fun _ e => Db.standingLeg db kind day e) db := by
  have hsplit : Db.controlLegsAsOf db kind day = entries.sum (fun _ e => Db.standingLeg db kind day e +
      (Db.reversedLeg db kind day e + Db.reversingLeg db kind day e)) db :=
    entries.sum_congr _ (fun _ => rfl) fun id e he => legOn_split hcoh he
  have hmatch : entries.sum (fun _ e => Db.reversedLeg db kind day e) db =
      entries.sum (fun _ e => -Db.reversingLeg db kind day e) db := by
    refine entries.sum_eq_sum_of_match entries
      (fun o r => ∃ e', Db.entry db r = some e' ∧ e'.reversalOfId = some o) ?_ ?_ ?_ ?_ ?_
    · intro o ho
      change Table.rowTerm _ o (Db.entry db o) ≠ 0 at ho
      cases he : Db.entry db o with
      | none => exact absurd (by rw [he]; rfl) ho
      | some e =>
        rw [he, Table.rowTerm_some, Db.reversedLeg] at ho
        have hreversed : e.status = .reversed := by
          by_contra hnot
          exact ho (if_neg fun h => hnot h.1)
        obtain ⟨r, hr⟩ := Option.ne_none_iff_exists'.mp ((hcoh.entry he).reversed.mp hreversed)
        obtain ⟨e', he', horig⟩ := hrev.reversal he hr
        exact ⟨r, e', he', horig⟩
    · intro r hr
      change Table.rowTerm _ r (Db.entry db r) ≠ 0 at hr
      cases he' : Db.entry db r with
      | none => exact absurd (by rw [he']; rfl) hr
      | some e' =>
        rw [he', Table.rowTerm_some, Db.reversingLeg] at hr
        cases ho : e'.reversalOfId with
        | none => exact absurd (by rw [ho]; rfl) hr
        | some o => exact ⟨o, e', rfl, ho⟩
    · rintro o r ⟨e', he', ho⟩
      obtain ⟨e, he, -⟩ := hrev.original he' ho
      change Table.rowTerm _ o (Db.entry db o) = Table.rowTerm _ r (Db.entry db r)
      rw [he, he', Table.rowTerm_some, Table.rowTerm_some, reversingLeg_eq hcoh hrev hmir he' ho he,
        neg_neg]
    · rintro o o' r ⟨e', he', ho⟩ ⟨e'', he'', ho'⟩
      obtain rfl : e' = e'' := Option.some.inj (he'.symm.trans he'')
      exact Option.some.inj (ho.symm.trans ho')
    · rintro o r r' ⟨e', he', ho⟩ ⟨e'', he'', ho'⟩
      exact hrev.unique he' he'' ho ho'
  rw [hsplit, entries.sum_add, entries.sum_add, hmatch, entries.sum_neg, neg_add_cancel, add_zero]

end Legs

/-! ## Documents and payments -/

/-- The entry of a document that is no draft is posted if and only if the document is. -/
theorem Db.Backs.posted_iff {db : Db} {entryId : Uuid} {e : JournalEntry} {status : DocumentStatus}
    (h : Db.Backs db (some entryId) status) (he : Db.entry db entryId = some e)
    (hnot : status ≠ .draft) : e.status = .posted ↔ status = .posted := by
  cases status with
  | draft => exact absurd rfl hnot
  | posted =>
    obtain ⟨entryId', e', hentry, he', hposted⟩ := h
    obtain rfl := Option.some.inj hentry
    obtain rfl := Option.some.inj (he.symm.trans he')
    exact iff_of_true hposted rfl
  | void =>
    obtain ⟨entryId', e', -, -, hentry, he', hreversed, -⟩ := h
    obtain rfl := Option.some.inj hentry
    obtain rfl := Option.some.inj (he.symm.trans he')
    rw [hreversed]
    exact iff_of_false nofun nofun

section Documents

variable {db : Db} {kind : DocumentKind} {id entryId : Uuid}

theorem Linked.entry_of_document {d : Document} (h : Linked db)
    (hd : Db.document db kind id = some d) (hentry : d.journalEntryId = some entryId) :
    ∃ e, Db.entry db entryId = some e ∧ e.sourceType = kind.descriptor.sourceType ∧
      e.sourceId = some id :=
  h.entry (by rw [journalEntryOf_document, hd]; exact hentry)

theorem Linked.entry_of_payment {p : Payment} (h : Linked db) (hp : Db.payment db id = some p)
    (hentry : p.journalEntryId = some entryId) :
    ∃ e, Db.entry db entryId = some e ∧ e.sourceType = .payment ∧ e.sourceId = some id :=
  h.entry (show (Db.payment db id).bind _ = _ by rw [hp]; exact hentry)

variable (hcoh : Coherent db)
include hcoh

/-- What the entry of a document adds, by its own status and date. -/
theorem standingLeg_eq {e : JournalEntry} (day : UtcDay) (he : Db.entry db entryId = some e)
    (hdoc : e.sourceType.OfDocument) : Db.standingLeg db kind day e =
      if e.status = .posted ∧ e.date ≤ day then kind.legOf (Db.legAmong db e e.lines) else 0 := by
  rw [Db.standingLeg, Db.legOn, settlementLeg_of_none (hcoh.reversalOfId_of_document he hdoc)]
  by_cases hposted : e.status = .posted
  · have hcounts : e.Counts := hcoh.counts he (by rw [hposted]; exact nofun)
    simp only [hposted, hdoc, hcounts, true_and, and_self, if_true]
  · simp only [hposted, false_and, if_false]

variable (hlinked : Linked db) (hlegs : Legs db) (hbacked : Backed db) (hdated : Dated db)
include hlinked hlegs hbacked hdated

/-- The entry of a document adds its total while the document is posted. -/
theorem standingLeg_document {d : Document} (day : UtcDay)
    (hd : Db.document db kind id = some d) (hentry : d.journalEntryId = some entryId) :
    ∃ e, Db.entry db entryId = some e ∧ e.sourceType = kind.descriptor.sourceType ∧
      Db.standingLeg db kind day e = d.billedBy day := by
  have hnot : d.status ≠ .draft := fun hdraft => by
    rw [(hcoh.document hd).journalEntry.mp hdraft] at hentry
    cases hentry
  obtain ⟨e, he, hsource, -⟩ := hlinked.entry_of_document hd hentry
  have hdoc : e.sourceType.OfDocument := by
    rw [hsource]
    cases kind <;> trivial
  obtain ⟨entryId', e₁, l, hentry₁, he₁, hlast, hamount⟩ := hlegs.document hd hnot
  obtain rfl := Option.some.inj (hentry.symm.trans hentry₁)
  obtain rfl := Option.some.inj (he.symm.trans he₁)
  obtain ⟨entryId', e₂, hentry₂, he₂, hdate⟩ := hdated.document hd hnot
  obtain rfl := Option.some.inj (hentry.symm.trans hentry₂)
  obtain rfl := Option.some.inj (he.symm.trans he₂)
  have hbacks := hbacked.document hd
  rw [hentry] at hbacks
  refine ⟨e, he, hsource, ?_⟩
  rw [standingLeg_eq hcoh day he hdoc, legAmong_document hsource, hlast, Option.map_some, legOf_some,
    if_pos rfl, hamount, hdate, Document.billedBy]
  simp only [hbacks.posted_iff he hnot]

/-- The entry of a payment takes off its amount while the payment is posted. -/
theorem standingLeg_payment {p : Payment} (day : UtcDay)
    (hp : Db.payment db id = some p) (hentry : p.journalEntryId = some entryId) :
    ∃ e, Db.entry db entryId = some e ∧ e.sourceType = .payment ∧ Db.standingLeg db kind day e =
      -(if p.direction.target.kind = kind then p.settledBy day else 0) := by
  have hnot : p.status ≠ .draft := fun hdraft => by
    rw [(hcoh.payment hp).journalEntry.mp hdraft] at hentry
    cases hentry
  obtain ⟨e, he, hsource, hid⟩ := hlinked.entry_of_payment hp hentry
  have hdoc : e.sourceType.OfDocument := by
    rw [hsource]
    trivial
  obtain ⟨entryId', e₁, l, hentry₁, he₁, hline, hamount⟩ := hlegs.payment hp hnot
  obtain rfl := Option.some.inj (hentry.symm.trans hentry₁)
  obtain rfl := Option.some.inj (he.symm.trans he₁)
  obtain ⟨entryId', e₂, hentry₂, he₂, hdate⟩ := hdated.payment hp hnot
  obtain rfl := Option.some.inj (hentry.symm.trans hentry₂)
  obtain rfl := Option.some.inj (he.symm.trans he₂)
  have hbacks := hbacked.payment hp
  rw [hentry] at hbacks
  refine ⟨e, he, hsource, ?_⟩
  rw [standingLeg_eq hcoh day he hdoc, legAmong_payment hsource hid hp, hline, Option.map_some,
    legOf_some, hamount, hdate, Payment.settledBy]
  simp only [hbacks.posted_iff he hnot]
  split <;> split <;> simp

/-- **The documents of a side** and their entries correspond. -/
theorem sum_standingLeg_document (kind : DocumentKind) (day : UtcDay) :
    entries.sum (fun _ e => if e.sourceType = kind.descriptor.sourceType then
      Db.standingLeg db kind day e else 0) db = Db.billedAsOf db kind day := by
  refine entries.sum_eq_sum_of_match documents (fun entryId k => k.1 = kind ∧
    ∃ d, Db.document db kind k.2 = some d ∧ d.journalEntryId = some entryId) ?_ ?_ ?_ ?_ ?_
  · intro entryId hne
    change Table.rowTerm _ entryId (Db.entry db entryId) ≠ 0 at hne
    cases he : Db.entry db entryId with
    | none => exact absurd (by rw [he]; rfl) hne
    | some e =>
      rw [he, Table.rowTerm_some] at hne
      have hsource : e.sourceType = kind.descriptor.sourceType := by
        by_contra hnot
        exact hne (if_neg hnot)
      obtain ⟨id, -, hof⟩ := hlinked.source he (by rw [hsource]; cases kind <;> trivial)
      rw [hsource, journalEntryOf_document] at hof
      obtain ⟨d, hd, hentry⟩ := Option.bind_eq_some_iff.mp hof
      exact ⟨(kind, id), rfl, d, hd, hentry⟩
  · rintro ⟨kind', id⟩ hne
    change Table.rowTerm _ (kind', id) (Db.document db kind' id) ≠ 0 at hne
    cases hd : Db.document db kind' id with
    | none => exact absurd (by rw [hd]; rfl) hne
    | some d =>
      rw [hd, Table.rowTerm_some] at hne
      obtain rfl : kind' = kind := by
        by_contra hnot
        exact hne (if_neg hnot)
      rw [if_pos rfl] at hne
      have hposted : d.status = .posted := by
        by_contra hnot
        exact hne (if_neg fun h => hnot h.1)
      obtain ⟨entryId, -, hentry, -⟩ := hdated.document hd (by rw [hposted]; exact nofun)
      exact ⟨entryId, rfl, d, hd, hentry⟩
  · rintro entryId ⟨kind', id⟩ ⟨rfl, d, hd, hentry⟩
    obtain ⟨e, he, hsource, hleg⟩ :=
      standingLeg_document hcoh hlinked hlegs hbacked hdated day hd hentry
    change Table.rowTerm _ entryId (Db.entry db entryId) =
      Table.rowTerm _ (kind', id) (Db.document db kind' id)
    rw [he, Table.rowTerm_some, if_pos hsource, hleg, hd, Table.rowTerm_some, if_pos rfl]
  · rintro entryId entryId' ⟨kind', id⟩ ⟨-, d, hd, hentry⟩ ⟨-, d', hd', hentry'⟩
    obtain rfl : d = d' := Option.some.inj (hd.symm.trans hd')
    exact Option.some.inj (hentry.symm.trans hentry')
  · rintro entryId ⟨kind', id⟩ ⟨kind'', id'⟩ ⟨rfl, d, hd, hentry⟩ ⟨rfl, d', hd', hentry'⟩
    obtain ⟨e, he, -, hid⟩ := hlinked.entry_of_document hd hentry
    obtain ⟨e', he', -, hid'⟩ := hlinked.entry_of_document hd' hentry'
    obtain rfl : e = e' := Option.some.inj (he.symm.trans he')
    exact Prod.ext rfl (Option.some.inj (hid.symm.trans hid'))

/-- **The payments of a side** and their entries correspond. -/
theorem sum_standingLeg_payment (kind : DocumentKind) (day : UtcDay) :
    entries.sum (fun _ e => if e.sourceType = .payment then Db.standingLeg db kind day e else 0) db =
      payments.sum (fun _ p => -(if p.direction.target.kind = kind then p.settledBy day else 0)) db := by
  refine entries.sum_eq_sum_of_match payments (fun entryId id =>
    ∃ p, Db.payment db id = some p ∧ p.journalEntryId = some entryId) ?_ ?_ ?_ ?_ ?_
  · intro entryId hne
    change Table.rowTerm _ entryId (Db.entry db entryId) ≠ 0 at hne
    cases he : Db.entry db entryId with
    | none => exact absurd (by rw [he]; rfl) hne
    | some e =>
      rw [he, Table.rowTerm_some] at hne
      have hsource : e.sourceType = .payment := by
        by_contra hnot
        exact hne (if_neg hnot)
      obtain ⟨id, -, hof⟩ := hlinked.source he (by rw [hsource]; trivial)
      rw [hsource] at hof
      obtain ⟨p, hp, hentry⟩ := Option.bind_eq_some_iff.mp hof
      exact ⟨id, p, hp, hentry⟩
  · intro id hne
    change Table.rowTerm _ id (Db.payment db id) ≠ 0 at hne
    cases hp : Db.payment db id with
    | none => exact absurd (by rw [hp]; rfl) hne
    | some p =>
      rw [hp, Table.rowTerm_some] at hne
      have hposted : p.status = .posted := by
        by_contra hnot
        have hzero : p.settledBy day = 0 := if_neg fun h => hnot h.1
        exact hne (by rw [hzero, ite_self, neg_zero])
      obtain ⟨entryId, -, hentry, -⟩ := hdated.payment hp (by rw [hposted]; exact nofun)
      exact ⟨entryId, p, rfl, hentry⟩
  · rintro entryId id ⟨p, hp, hentry⟩
    obtain ⟨e, he, hsource, hleg⟩ : ∃ e, Db.entry db entryId = some e ∧ e.sourceType = .payment ∧
        Db.standingLeg db kind day e = -(if p.direction.target.kind = kind then p.settledBy day else 0) :=
      standingLeg_payment hcoh hlinked hlegs hbacked hdated day hp hentry
    change Table.rowTerm _ entryId (Db.entry db entryId) = Table.rowTerm _ id (Db.payment db id)
    rw [he, hp, Table.rowTerm_some, Table.rowTerm_some, if_pos hsource, hleg]
  · rintro entryId entryId' id ⟨p, hp, hentry⟩ ⟨p', hp', hentry'⟩
    obtain rfl : p = p' := Option.some.inj (hp.symm.trans hp')
    exact Option.some.inj (hentry.symm.trans hentry')
  · rintro entryId id id' ⟨p, hp, hentry⟩ ⟨p', hp', hentry'⟩
    obtain ⟨e, he, -, hid⟩ := hlinked.entry_of_payment hp hentry
    obtain ⟨e', he', -, hid'⟩ := hlinked.entry_of_payment hp' hentry'
    obtain rfl : e = e' := Option.some.inj (he.symm.trans he')
    exact Option.some.inj (hid.symm.trans hid')

omit hlinked hlegs hbacked hdated in
/-- The entries of documents are those of the side, those of payments, and those of the other side,
which have no leg on this one. -/
theorem standingLeg_split {e : JournalEntry} (day : UtcDay) (he : Db.entry db id = some e) :
    Db.standingLeg db kind day e =
      (if e.sourceType = kind.descriptor.sourceType then Db.standingLeg db kind day e else 0) +
        if e.sourceType = .payment then Db.standingLeg db kind day e else 0 := by
  by_cases hsame : e.sourceType = kind.descriptor.sourceType
  · have hpay : e.sourceType ≠ .payment := by
      rw [hsame]
      cases kind <;> nofun
    rw [if_pos hsame, if_neg hpay, add_zero]
  · by_cases hpay : e.sourceType = .payment
    · rw [if_neg hsame, if_pos hpay, zero_add]
    · rw [if_neg hsame, if_neg hpay, add_zero]
      by_cases hdoc : e.sourceType.OfDocument
      · -- what is left is an entry of the other side
        obtain ⟨other, hother⟩ : ∃ other : DocumentKind, e.sourceType = other.descriptor.sourceType := by
          cases hsource : e.sourceType with
          | salesInvoice => exact ⟨.salesInvoice, rfl⟩
          | purchaseBill => exact ⟨.purchaseBill, rfl⟩
          | payment => exact absurd hsource hpay
          | manual | opening | reversal | closing =>
            rw [hsource] at hdoc
            exact hdoc.elim
        have hne : other ≠ kind := by
          rintro rfl
          exact hsame hother
        rw [standingLeg_eq hcoh day he hdoc, legAmong_document hother]
        cases e.lines.getLast? with
        | none => exact ite_self 0
        | some l => rw [Option.map_some, legOf_some, if_neg hne, ite_self]
      · exact if_neg fun h => hdoc h.2

/-- **The settlement legs of every day** are the documents dated up to it less the payments dated up to
it. -/
theorem controlLegsAsOf_eq (hrev : Reversible db) (hmir : Mirrored db) (kind : DocumentKind)
    (day : UtcDay) :
    Db.controlLegsAsOf db kind day = Db.billedAsOf db kind day - Db.settledAsOf db kind day := by
  have hsplit : entries.sum (fun _ e => Db.standingLeg db kind day e) db = entries.sum (fun _ e =>
      (if e.sourceType = kind.descriptor.sourceType then Db.standingLeg db kind day e else 0) +
        if e.sourceType = .payment then Db.standingLeg db kind day e else 0) db :=
    entries.sum_congr _ (fun _ => rfl) fun id e he => standingLeg_split hcoh day he
  rw [sum_legOn hcoh hrev hmir, hsplit, entries.sum_add,
    sum_standingLeg_document hcoh hlinked hlegs hbacked hdated,
    sum_standingLeg_payment hcoh hlinked hlegs hbacked hdated, payments.sum_neg, ← sub_eq_add_neg]
  rfl

end Documents

end AccountingApi
