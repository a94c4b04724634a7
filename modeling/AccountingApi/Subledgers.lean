import AccountingApi.Allocations
import AccountingApi.Backing
import AccountingApi.PostedDocuments
import AccountingApi.Reversals

/-!
# Subledgers and control accounts

A posted document brings its total to the control account of its side, and a posted payment takes the
sum of its allocations off it again; a void reverses either. So the settlement legs of the entries of a
side add up to what its posted documents have outstanding, whatever the order of the requests, where no
update finds a posted document and no entry of a document is reversed as such.

## Main definitions

* `Db.settlementLeg`: the line of an entry on the control account
* `Db.controlLegs`, `Db.outstanding`: the two sums
* `Legs`: documents and payments have the legs of their amounts
* `Reconciled`: the legs are on control accounts, and the two sums agree

## Main results

* `Applies.outstanding`: what a list of allocations does to the outstanding amounts
* `reconciled_of_reachable`
-/

namespace AccountingApi

open ReadCommitted Posting

/-! ## Settlement legs -/

/-- The line of a payment's entry that is not on the cash account. -/
def PaymentTarget.controlLine (t : PaymentTarget) (lines : List JournalLine) : Option JournalLine :=
  if t.cashIsDebit then lines.getLast? else lines.head?

/-- The settlement leg among the lines of an entry, or of its reversal: the last one of an invoice or a
bill, and that of a payment which is not on the cash account. -/
def Db.legAmong (db : Db) (e : JournalEntry) (lines : List JournalLine) :
    Option (DocumentKind × JournalLine) :=
  match e.sourceType with
  | .salesInvoice => lines.getLast?.map (DocumentKind.salesInvoice, ·)
  | .purchaseBill => lines.getLast?.map (DocumentKind.purchaseBill, ·)
  | .payment => (e.sourceId.bind (Db.payment db)).bind fun p =>
      (p.direction.target.controlLine lines).map (p.direction.target.kind, ·)
  | _ => none

/-- The settlement leg of an entry that originates from a document or a payment. -/
def Db.settlementLeg (db : Db) (e : JournalEntry) : Option (DocumentKind × JournalLine) :=
  Db.legAmong db (Db.origin db e) e.lines

/-- What a leg adds to the balance of its control account: receivables have debit balances, payables
credit balances. -/
def DocumentKind.legAmount (kind : DocumentKind) (l : JournalLine) : ℤ :=
  match kind with
  | .salesInvoice => l.debit - l.credit
  | .purchaseBill => l.credit - l.debit

/-- The amount of a leg of the kind. -/
def DocumentKind.legOf (kind : DocumentKind) (leg : Option (DocumentKind × JournalLine)) : ℤ :=
  leg.elim 0 fun x => if x.1 = kind then kind.legAmount x.2 else 0

/-- The settlement legs of the posted entries of a side. -/
def Db.controlLegs (db : Db) (kind : DocumentKind) : ℤ :=
  entries.sum (fun _ e => if e.Counts then kind.legOf (Db.settlementLeg db e) else 0) db

/-- What a document has outstanding. -/
def Document.outstanding (d : Document) : ℤ :=
  if d.status = .posted then d.total - d.amountPaid else 0

/-- What the posted documents of a side have outstanding. -/
def Db.outstanding (db : Db) (kind : DocumentKind) : ℤ :=
  documents.sum (fun k d => if k.1 = kind then d.outstanding else 0) db

/-- The settlement legs are on control accounts of their side, and add up to what the posted documents
of the side have outstanding. -/
structure Reconciled (db : Db) : Prop where
  control : ∀ {id e kind l}, Db.entry db id = some e → Db.settlementLeg db e = some (kind, l) →
    ∃ a, Db.account db l.accountId = some a ∧ a.role = some kind.descriptor.controlRole
  legs : ∀ kind, Db.controlLegs db kind = Db.outstanding db kind

/-! ## The outstanding amounts -/

section Outstanding

variable {db : Db} {kind target : DocumentKind} {id : Uuid} {d d' : Document}

/-- The outstanding amounts after a document is written. -/
theorem outstanding_put (hd : Db.document db target id = some d) :
    Db.outstanding (db.put (.document target id) d') kind =
      Db.outstanding db kind + if target = kind then d'.outstanding - d.outstanding else 0 := by
  have hput := documents.sum_put (fun k d => if k.1 = kind then d.outstanding else 0) db
    (k := .document target id) (v := d') rfl
  have hget : documents.get db (target, id) = some d := hd
  simp only [hget, Table.rowTerm_some] at hput
  change Db.outstanding _ kind + _ = Db.outstanding db kind + _ at hput
  by_cases hkind : target = kind
  · rw [if_pos hkind, if_pos hkind] at hput
    rw [if_pos hkind]
    omega
  · rw [if_neg hkind, if_neg hkind] at hput
    rw [if_neg hkind]
    omega

/-- **What a list of allocations does to the outstanding amounts.** -/
theorem Applies.outstanding {ok : PaymentAllocation → Document → Prop}
    {delta : PaymentAllocation → ℤ} {as : List PaymentAllocation} {ws : List (Write Row)}
    (h : Applies target ok delta db as ws) {P : Document → Prop}
    (hP : ∀ a ∈ as, ∀ d, ok a d → P d → d.status = .posted ∧ P (applyPaid (delta a) d))
    (hdocs : ∀ id d, Db.document db target id = some d → P d) (kind : DocumentKind) :
    Db.outstanding (db.putAll ws) kind =
      Db.outstanding db kind - if target = kind then (as.map delta).sum else 0 := by
  induction h with
  | nil db => simp
  | @cons db a as ws id d hid hd hlive hok hrest ih =>
    obtain ⟨hposted, hPd⟩ := hP a List.mem_cons_self d hok (hdocs id d hd)
    have hput : ∀ id' d', Db.document (db.put (.document target id) (applyPaid (delta a) d))
        target id' = some d' → P d' := by
      intro id' d' hd'
      rw [document_put] at hd'
      split at hd'
      · cases hd'
        exact hPd
      · exact hdocs id' d' hd'
    have hpaid : (applyPaid (delta a) d).outstanding - d.outstanding = -delta a := by
      simp only [Document.outstanding, applyPaid, hposted, if_true]
      ring
    rw [Store.putAll_cons, ih (fun b hb => hP b (List.mem_cons_of_mem a hb)) hput,
      outstanding_put hd, hpaid, List.map_cons, List.sum_cons]
    split <;> ring

end Outstanding

/-! ## Legs -/

section Legs

variable {db : Db} {kind : DocumentKind} {e : JournalEntry} {lines : List JournalLine}

theorem legAmount_swapLine (kind : DocumentKind) (l : JournalLine) :
    kind.legAmount (swapLine l) = -kind.legAmount l := by
  cases kind <;> exact (neg_sub _ _).symm

/-- The leg of a reversal is that of its original, with debit and credit swapped. -/
theorem legAmong_swap : Db.legAmong db e (lines.map swapLine) =
    (Db.legAmong db e lines).map fun x => (x.1, swapLine x.2) := by
  unfold Db.legAmong
  split
  · rw [List.getLast?_map, Option.map_map, Option.map_map]
    rfl
  · rw [List.getLast?_map, Option.map_map, Option.map_map]
    rfl
  · cases e.sourceId.bind (Db.payment db) with
    | none => rfl
    | some p =>
      simp only [Option.bind_some, PaymentTarget.controlLine]
      split
      · rw [List.getLast?_map, Option.map_map, Option.map_map]
        rfl
      · rw [List.head?_map, Option.map_map, Option.map_map]
        rfl
  · rfl

theorem legOf_swap (leg : Option (DocumentKind × JournalLine)) :
    kind.legOf (leg.map fun x => (x.1, swapLine x.2)) = -kind.legOf leg := by
  cases leg with
  | none => rfl
  | some x =>
    simp only [DocumentKind.legOf, Option.map_some, Option.elim_some, legAmount_swapLine]
    split
    · rfl
    · rfl

theorem legOf_some (kind kind' : DocumentKind) (l : JournalLine) :
    kind.legOf (some (kind', l)) = if kind' = kind then kind'.legAmount l else 0 := by
  change (if kind' = kind then kind.legAmount l else 0) = _
  by_cases h : kind' = kind
  · rw [if_pos h, if_pos h, h]
  · rw [if_neg h, if_neg h]

theorem legAmong_of_not (h : ¬ e.sourceType.OfDocument) : Db.legAmong db e lines = none := by
  unfold Db.legAmong
  split <;> rename_i hsource
  · exact absurd (by rw [hsource]; trivial) h
  · exact absurd (by rw [hsource]; trivial) h
  · exact absurd (by rw [hsource]; trivial) h
  · rfl

theorem legAmong_document (h : e.sourceType = kind.descriptor.sourceType) :
    Db.legAmong db e lines = lines.getLast?.map (kind, ·) := by
  unfold Db.legAmong
  rw [h]
  cases kind <;> rfl

theorem legAmong_payment {id : Uuid} {p : Payment} (h : e.sourceType = .payment)
    (hid : e.sourceId = some id) (hp : Db.payment db id = some p) : Db.legAmong db e lines =
      (p.direction.target.controlLine lines).map (p.direction.target.kind, ·) := by
  unfold Db.legAmong
  rw [h, hid]
  change ((Db.payment db id).bind _) = _
  rw [hp]
  rfl

/-- An entry that reverses nothing has its leg among its own lines. -/
theorem settlementLeg_of_none (h : e.reversalOfId = none) :
    Db.settlementLeg db e = Db.legAmong db e e.lines := by
  rw [Db.settlementLeg, origin_of_none h]

/-- A reversal has the leg of its original. -/
theorem settlementLeg_of_some {o : Uuid} {e₀ : JournalEntry} (h : e.reversalOfId = some o)
    (he₀ : Db.entry db o = some e₀) : Db.settlementLeg db e = Db.legAmong db e₀ e.lines := by
  rw [Db.settlementLeg, origin_of_some h he₀]

end Legs

/-! ## One commit -/

theorem PaymentStep.direction {p p' : Payment} (h : PaymentStep p p') :
    p'.direction = p.direction := by
  cases h <;> rfl

section Commits

variable {strict : Prop} {c : Commit} {kind : DocumentKind} {id : Uuid} {e e' : JournalEntry}

/-- The leg of a document's entry is where it was. -/
theorem Transacts.legAmong (hc : Transacts strict c) (hlinked : Linked c.before)
    (he : Db.entry c.before id = some e) (hstep : EntryStep e e') (lines : List JournalLine) :
    Db.legAmong c.after e' lines = Db.legAmong c.before e lines := by
  obtain ⟨hsource, hid⟩ := hstep.source
  by_cases hpay : e.sourceType = .payment
  · obtain ⟨pid, hpid, hof⟩ := hlinked.source he (by rw [hpay]; trivial)
    rw [hpay] at hof
    obtain ⟨p, hp, -⟩ := Option.bind_eq_some_iff.mp hof
    obtain ⟨p', hp', hpstep⟩ := hc.payment_step hp
    rw [legAmong_payment hpay hpid hp, legAmong_payment (hsource.trans hpay) (hid.trans hpid) hp',
      hpstep.direction]
  · unfold Db.legAmong
    rw [hsource]
    split
    · rfl
    · rfl
    · exact absurd ‹_› hpay
    · rfl

/-- **An entry keeps its settlement leg.** -/
theorem Transacts.settlementLeg (hc : Transacts strict c) (hlinked : Linked c.before)
    (hrev : Reversible c.before) (he : Db.entry c.before id = some e) (hstep : EntryStep e e') :
    Db.settlementLeg c.after e' = Db.settlementLeg c.before e := by
  cases ho : e.reversalOfId with
  | none =>
    rw [settlementLeg_of_none ho, settlementLeg_of_none (hstep.reversalOfId.trans ho),
      hc.legAmong hlinked he hstep, hstep.lines.2]
  | some o =>
    obtain ⟨e₀, he₀, -⟩ := hrev.original he ho
    obtain ⟨e₀', he₀', hstep₀⟩ := hc.entry_step he₀
    rw [settlementLeg_of_some ho he₀, settlementLeg_of_some (hstep.reversalOfId.trans ho) he₀',
      hc.legAmong hlinked he₀ hstep₀, hstep.lines.2]

/-- The entries of before add up to the same legs, as the store after the commit tells them. -/
theorem Transacts.controlLegs_before (hc : Transacts strict c) (hlinked : Linked c.before)
    (hrev : Reversible c.before) (kind : DocumentKind) :
    entries.sum (fun _ e => if e.Counts then kind.legOf (Db.settlementLeg c.after e) else 0)
      c.before = Db.controlLegs c.before kind := by
  refine entries.sum_congr _ (fun _ => rfl) fun id e he => ?_
  rw [hc.settlementLeg hlinked hrev he (.refl e)]

/-- The settlement leg of the entry a document is posted with. -/
theorem PostsDocument.leg (t : PostsDocument strict c) :
    ∃ l, t.entry.lines.getLast? = some l ∧ l.accountId = t.settlementId ∧
      t.kind.legAmount l = t.doc.total := by
  rw [t.created.eq_postedEntry t.prepared, t.posted]
  simp only [postedEntry, TaxedDocument.journalInput]
  rw [TaxService.calculate_journalLines t.read.result, getLast?_toJournalLines]
  refine ⟨_, rfl, ?_, ?_⟩
  · cases t.kind <;> rfl
  · cases t.kind <;> exact sub_zero _

/-- The control line of the entry a payment is posted with. -/
theorem PostsPayment.leg (t : PostsPayment strict c) :
    ∃ l, t.pay.direction.target.controlLine t.entry.lines = some l ∧ l.accountId = t.controlId ∧
      t.pay.direction.target.kind.legAmount l = -t.pay.amount := by
  rw [t.created.eq_postedEntry t.prepared]
  simp only [postedEntry, Payments.journalInput]
  cases t.pay.direction <;> exact ⟨_, rfl, rfl, zero_sub _⟩

theorem PostsDocument.settlementLeg (t : PostsDocument strict c) (db : Db) :
    ∃ l, Db.settlementLeg db t.entry = some (t.kind, l) ∧ l.accountId = t.settlementId ∧
      t.kind.legAmount l = t.doc.total := by
  obtain ⟨l, hlast, hacc, hamount⟩ := t.leg
  refine ⟨l, ?_, hacc, hamount⟩
  rw [settlementLeg_of_none t.created.isNew.reversesNothing, legAmong_document, hlast]
  · rfl
  · rw [t.created.eq_postedEntry t.prepared]
    rfl

theorem PostsPayment.settlementLeg (t : PostsPayment strict c) :
    ∃ l, Db.settlementLeg c.after t.entry = some (t.pay.direction.target.kind, l) ∧
      l.accountId = t.controlId ∧ t.pay.direction.target.kind.legAmount l = -t.pay.amount := by
  obtain ⟨l, hline, hacc, hamount⟩ := t.leg
  obtain ⟨e, he, hsource, hid⟩ := (Posts.payment t).entry
  obtain rfl : t.entry = e := Option.some.inj (t.after_entry.symm.trans he)
  refine ⟨l, ?_, hacc, hamount⟩
  rw [settlementLeg_of_none t.created.isNew.reversesNothing,
    legAmong_payment hsource hid t.after_payment]
  change (t.pay.direction.target.controlLine t.entry.lines).map _ = _
  rw [hline]
  rfl

end Commits

/-! ## Documents and their legs -/

/-- A draft of an entry belongs to no document and reverses nothing, and the entry of a document or a
payment has the leg of its amount. -/
structure Legs (db : Db) : Prop where
  draft : ∀ {id e}, Db.entry db id = some e → e.status = .draft →
    ¬ e.sourceType.OfDocument ∧ e.reversalOfId = none
  document : ∀ {kind id d}, Db.document db kind id = some d → d.status ≠ .draft →
    ∃ entryId e l, d.journalEntryId = some entryId ∧ Db.entry db entryId = some e ∧
      e.lines.getLast? = some l ∧ kind.legAmount l = d.total
  payment : ∀ {id p}, Db.payment db id = some p → p.status ≠ .draft →
    ∃ entryId e l, p.journalEntryId = some entryId ∧ Db.entry db entryId = some e ∧
      p.direction.target.controlLine e.lines = some l ∧
      p.direction.target.kind.legAmount l = -p.amount

section Kept

variable {strict : Prop} {c : Commit}

theorem PaymentStep.amount {p p' : Payment} (h : PaymentStep p p') : p'.amount = p.amount := by
  cases h <;> rfl

/-- **A commit keeps the legs**, where it updates no posted document. -/
theorem Legs.after (h : Legs c.before) (hc : Transacts strict c) (hupdates : UpdatesDraft c) :
    Legs c.after where
  draft := by
    intro id e he hdraft
    cases hb : Db.entry c.before id with
    | some e₀ =>
      obtain ⟨e₁, he₁, hstep⟩ := hc.entry_step hb
      obtain rfl : e = e₁ := Option.some.inj (he.symm.trans he₁)
      have hdraft₀ : e₀.status = .draft := by
        by_contra hnot
        exact hstep.notDraft hnot hdraft
      rw [hstep.source.1, hstep.reversalOfId]
      exact h.draft hb hdraft₀
    | none =>
      cases hc.entryNew hb he with
      | ofDocument t =>
        rw [t.created.eq_postedEntry t.prepared] at hdraft
        cases hdraft
      | ofPayment t =>
        rw [t.created.eq_postedEntry t.prepared] at hdraft
        cases hdraft
      | other hnew hnot => exact ⟨hnot, hnew.reversesNothing⟩
      | reversal t =>
        rw [t.reversed.entry_eq] at hdraft
        cases hdraft
  document := by
    intro kind id d hd hnot
    cases hb : Db.document c.before kind id with
    | none =>
      obtain ⟨input, totals, rfl, -⟩ := hc.document_new hb hd
      exact absurd rfl hnot
    | some d₀ =>
      by_cases hdraft : d₀.status = .draft
      · obtain ⟨d₁, hd₁, hnext⟩ := hc.documentNext hb
        obtain rfl : d = d₁ := Option.some.inj (hd.symm.trans hd₁)
        obtain ⟨t, rfl, rfl, rfl⟩ := hnext.posted hdraft hnot
        obtain ⟨l, hlast, -, hamount⟩ := t.leg
        exact ⟨t.entryId, t.entry, l, by rw [t.posted]; rfl, t.after_entry, hlast, hamount⟩
      · obtain ⟨d₁, hd₁, halike, -, -⟩ := hc.document_fixed hupdates hb hdraft
        obtain rfl : d = d₁ := Option.some.inj (hd.symm.trans hd₁)
        obtain ⟨entryId, e, l, hentry, he, hlast, hamount⟩ := h.document hb hdraft
        obtain ⟨e', he', hstep⟩ := hc.entry_step he
        rw [halike]
        exact ⟨entryId, e', l, hentry, he', by rw [hstep.lines.2, hlast], hamount⟩
  payment := by
    intro id p hp hnot
    cases hb : Db.payment c.before id with
    | none =>
      obtain ⟨dto, user, rfl, -⟩ := hc.payment_new hb hp
      exact absurd rfl hnot
    | some p₀ =>
      obtain ⟨p₁, hp₁, hnext⟩ := hc.paymentNext hb
      obtain rfl : p = p₁ := Option.some.inj (hp.symm.trans hp₁)
      by_cases hdraft : p₀.status = .draft
      · obtain ⟨t, rfl, rfl⟩ := hnext.posted hdraft hnot
        obtain ⟨l, hline, -, hamount⟩ := t.leg
        exact ⟨t.entryId, t.entry, l, rfl, t.after_entry, hline, hamount⟩
      · have hpstep := hnext.paymentStep
        obtain ⟨entryId, e, l, hentry, he, hline, hamount⟩ := h.payment hb hdraft
        obtain ⟨e', he', hstep⟩ := hc.entry_step he
        rw [hpstep.direction, hpstep.amount, hpstep.journalEntryId hdraft]
        exact ⟨entryId, e', l, hentry, he', by rw [hstep.lines.2, hline], hamount⟩

end Kept

/-! ## What a commit does to the legs -/

section Sums

variable {strict : Prop} {c : Commit} (hlinked : Linked c.before) (hrev : Reversible c.before)
include hlinked hrev

/-- A document that is posted adds its total. -/
theorem PostsDocument.controlLegs (t : PostsDocument strict c) (kind : DocumentKind) :
    Db.controlLegs c.after kind =
      Db.controlLegs c.before kind + if t.kind = kind then t.doc.total else 0 := by
  obtain ⟨l, hleg, -, hamount⟩ := t.settlementLeg c.after
  have hsum := entries.sum_putAll_of_singleton
    (fun _ e => if e.Counts then kind.legOf (Db.settlementLeg c.after e) else 0) c.before
    t.writes_entries
  have hfresh : entries.get c.before t.entryId = none := t.created.fresh
  have hcounts : t.entry.Counts := by
    rw [t.created.entry_eq]
    exact ⟨nofun, rfl⟩
  rwa [(Transacts.postDocument t).controlLegs_before hlinked hrev, hfresh, Table.rowTerm_none,
    add_zero, if_pos hcounts, hleg, legOf_some, hamount] at hsum

/-- A payment that is posted takes its amount off. -/
theorem PostsPayment.controlLegs (t : PostsPayment strict c) (kind : DocumentKind) :
    Db.controlLegs c.after kind = Db.controlLegs c.before kind -
      if t.pay.direction.target.kind = kind then t.pay.amount else 0 := by
  obtain ⟨l, hleg, -, hamount⟩ := t.settlementLeg
  have hsum := entries.sum_putAll_of_singleton
    (fun _ e => if e.Counts then kind.legOf (Db.settlementLeg c.after e) else 0) c.before
    t.writes_entries
  have hfresh : entries.get c.before t.entryId = none := t.created.fresh
  have hcounts : t.entry.Counts := by
    rw [t.created.entry_eq]
    exact ⟨nofun, rfl⟩
  rw [(Transacts.postPayment t).controlLegs_before hlinked hrev, hfresh, Table.rowTerm_none,
    add_zero, if_pos hcounts, hleg, legOf_some, hamount] at hsum
  change Db.controlLegs c.after kind = _ at hsum
  rw [hsum]
  split
  · rfl
  · rw [add_zero, sub_zero]

/-- A reversal takes off the leg of its original. -/
theorem ReversesEntry.controlLegs (t : ReversesEntry strict c) (hc : Transacts strict c)
    (hcoh : Coherent c.before) (kind : DocumentKind) :
    Db.controlLegs c.after kind =
      Db.controlLegs c.before kind - kind.legOf (Db.legAmong c.before t.o t.o.lines) := by
  have hne : t.id ≠ t.p.originalId := by
    intro hid
    have horig := t.reversed.original
    rw [← hid, t.reversed.fresh] at horig
    cases horig
  have hsum := entries.sum_putAll_of_pair
    (fun _ e => if e.Counts then kind.legOf (Db.settlementLeg c.after e) else 0) c.before t.writes hne
  have hfresh : entries.get c.before t.id = none := t.reversed.fresh
  have horig : entries.get c.before t.p.originalId = some t.o := t.reversed.original
  have hcounts : t.o.Counts := hcoh.counts horig t.reversed.notDraft
  have hmarked : (markReversed t.id t.o).Counts := hcounts
  have hrevCounts : t.rev.Counts := by
    rw [t.reversed.entry_eq]
    exact ⟨nofun, rfl⟩
  have hstep : EntryStep t.o (markReversed t.id t.o) :=
    .reverse t.id t.reversed.notDraft t.reversed.live
  have hleg : Db.settlementLeg c.after t.rev =
      (Db.legAmong c.before t.o t.o.lines).map fun x => (x.1, swapLine x.2) := by
    have horigin : t.rev.reversalOfId = some t.p.originalId := by
      rw [t.reversed.entry_eq]
      rfl
    rw [settlementLeg_of_some horigin t.after_original,
      hc.legAmong hlinked horig hstep, t.mirrors.2, legAmong_swap]
  have hsame : Db.settlementLeg c.after (markReversed t.id t.o) = Db.settlementLeg c.after t.o := by
    rw [hc.settlementLeg hlinked hrev horig hstep, hc.settlementLeg hlinked hrev horig (.refl _)]
  simp only [hfresh, horig, Table.rowTerm_none, Table.rowTerm_some, if_pos hcounts, if_pos hmarked,
    if_pos hrevCounts, hleg, hsame, legOf_swap, zero_add] at hsum
  rw [hc.controlLegs_before hlinked hrev] at hsum
  change Db.controlLegs c.after kind + _ = _ at hsum
  linarith

/-- A document that is voided takes its total off. -/
theorem VoidsDocument.controlLegs (t : VoidsDocument strict c) (hcoh : Coherent c.before)
    (hlegs : Legs c.before) (hpast : ∀ q ∈ c.seen, Persists q.2 c.before) (kind : DocumentKind) :
    Db.controlLegs c.after kind =
      Db.controlLegs c.before kind - if t.kind = kind then t.d.total else 0 := by
  have hnot : t.d.status ≠ .draft := by
    rw [t.posted]
    exact nofun
  obtain ⟨entryId, e, l, hentry, he, hlast, hamount⟩ := hlegs.document t.current hnot
  obtain rfl : entryId = t.p.originalId := by
    rw [t.prepared.originalId_eq]
    exact Option.some.inj (hentry.symm.trans (t.d_journalEntryId hpast))
  obtain rfl : e = t.o := Option.some.inj (he.symm.trans t.reversed.original)
  have hof : Db.journalEntryOf c.before t.kind.descriptor.sourceType t.id = some t.p.originalId := by
    rw [journalEntryOf_document, t.current]
    exact hentry
  obtain ⟨e', he', hsource, -⟩ := hlinked.entry hof
  obtain rfl : t.o = e' := Option.some.inj (he.symm.trans he')
  rw [t.reversesEntry.controlLegs hlinked hrev (.voidDocument t) hcoh]
  change _ - kind.legOf (Db.legAmong c.before t.o t.o.lines) = _
  rw [legAmong_document hsource, hlast, Option.map_some, legOf_some, hamount]

/-- A payment that is voided brings its amount back. -/
theorem VoidsPayment.controlLegs (t : VoidsPayment strict c) (hcoh : Coherent c.before)
    (hlegs : Legs c.before) (kind : DocumentKind) :
    Db.controlLegs c.after kind = Db.controlLegs c.before kind +
      if t.pay.direction.target.kind = kind then t.pay.amount else 0 := by
  have hnot : t.pay.status ≠ .draft := by
    rw [t.posted]
    exact nofun
  obtain ⟨entryId, e, l, hentry, he, hline, hamount⟩ := hlegs.payment t.current hnot
  obtain rfl : entryId = t.p.originalId := by
    rw [t.prepared.originalId_eq]
    exact Option.some.inj (hentry.symm.trans t.journalEntry)
  obtain rfl : e = t.o := Option.some.inj (he.symm.trans t.reversed.original)
  have hof : Db.journalEntryOf c.before .payment t.id = some t.p.originalId := by
    change (Db.payment c.before t.id).bind _ = _
    rw [t.current]
    exact hentry
  obtain ⟨e', he', hsource, hid⟩ := hlinked.entry hof
  obtain rfl : t.o = e' := Option.some.inj (he.symm.trans he')
  rw [t.reversesEntry.controlLegs hlinked hrev (.voidPayment t) hcoh]
  change _ - kind.legOf (Db.legAmong c.before t.o t.o.lines) = _
  rw [legAmong_payment hsource hid t.current, hline, Option.map_some, legOf_some, hamount]
  split
  · exact sub_neg_eq_add _ _
  · rw [sub_zero, add_zero]

end Sums

/-- The commit posts or voids an invoice, a bill or a payment. -/
def TouchesControl (strict : Prop) (c : Commit) : Prop :=
  Nonempty (PostsDocument strict c) ∨ Nonempty (VoidsDocument strict c) ∨ Settles strict c

section Others

variable {strict : Prop} {c : Commit} (hc : Transacts strict c) (hnot : ¬ TouchesControl strict c)
include hc hnot

/-- Other commits leave the legs alone, where they reverse no entry of a document. -/
theorem Transacts.controlLegs_of_not (hspares : SparesDocuments c) (hcoh : Coherent c.before)
    (hlinked : Linked c.before) (hrev : Reversible c.before) (hlegs : Legs c.before)
    (hpast : ∀ q ∈ c.seen, Linked q.2 ∧ Persists q.2 c.before) (kind : DocumentKind) :
    Db.controlLegs c.after kind = Db.controlLegs c.before kind := by
  have hbefore := hc.controlLegs_before hlinked hrev kind
  have hchange := hc.entryChange
  generalize hws : entries.writes c.writes = ws at hchange
  cases hchange with
  | none => exact (entries.sum_putAll_of_nil _ _ hws).trans hbefore
  | ofDocument t => exact absurd (.inl ⟨t⟩) hnot
  | ofPayment t => exact absurd (.inr (.inr (.inl ⟨t⟩))) hnot
  | new id e fresh hnew hsource =>
    have hsum := entries.sum_putAll_of_singleton
      (fun _ e => if e.Counts then kind.legOf (Db.settlementLeg c.after e) else 0) c.before hws
    have hnone : entries.get c.before id = none := fresh
    have hleg : Db.settlementLeg c.after e = none := by
      rw [settlementLeg_of_none hnew.reversesNothing, legAmong_of_not hsource]
    rw [hbefore, hnone, Table.rowTerm_none, add_zero, hleg] at hsum
    refine hsum.trans ?_
    simp [DocumentKind.legOf]
  | step id e e' current hstep hreversed =>
    have hsum := entries.sum_putAll_of_singleton
      (fun _ e => if e.Counts then kind.legOf (Db.settlementLeg c.after e) else 0) c.before hws
    have hget : entries.get c.before id = some e := current
    have hsame : (if e'.Counts then kind.legOf (Db.settlementLeg c.after e') else 0) =
        if e.Counts then kind.legOf (Db.settlementLeg c.after e) else 0 := by
      by_cases hdraft : e.status = .draft
      · -- a draft is promoted or deleted, and has no leg
        obtain ⟨hsource, hnone⟩ := hlegs.draft current hdraft
        have hleg : Db.settlementLeg c.before e = none := by
          rw [settlementLeg_of_none hnone, legAmong_of_not hsource]
        rw [hc.settlementLeg hlinked hrev current hstep,
          hc.settlementLeg hlinked hrev current (.refl e), hleg]
        simp [DocumentKind.legOf]
      · cases hstep with
        | refl => rfl
        | promote _ _ _ _ _ _ hdraft' => exact absurd hdraft' hdraft
        | reverse => exact absurd rfl hreversed
        | delete _ _ hdraft' => exact absurd hdraft' hdraft
    rw [hbefore, hget, Table.rowTerm_some, hsame] at hsum
    exact add_right_cancel hsum
  | reverse t =>
    have hsource : ¬ t.o.sourceType.OfDocument := by
      cases t.reverser.source hlinked hpast t.reversed.original with
      | voidDocument u => exact absurd (.inr (.inl ⟨u⟩)) hnot
      | voidPayment u => exact absurd (.inr (.inr (.inr ⟨u⟩))) hnot
      | closing hclosing =>
        rw [hclosing]
        exact id
      | request hreq => exact (hspares _ hreq _ t.reversed.original).1
    rw [t.controlLegs hlinked hrev hc hcoh, legAmong_of_not hsource]
    exact sub_zero _

end Others

/-! ## What a commit does to the outstanding amounts -/

section Documents

variable {strict : Prop} {c : Commit}

/-- The outstanding amounts after a commit that writes one document. -/
theorem outstanding_after {kind' : DocumentKind} {id : Uuid} {d d' : Document}
    (hwrites : documents.writes c.writes = [((kind', id), d')])
    (hd : Db.document c.before kind' id = some d) (kind : DocumentKind) :
    Db.outstanding c.after kind =
      Db.outstanding c.before kind + if kind' = kind then d'.outstanding - d.outstanding else 0 := by
  have hsum := documents.sum_putAll_of_singleton
    (fun k d => if k.1 = kind then d.outstanding else 0) c.before hwrites
  have hget : documents.get c.before (kind', id) = some d := hd
  rw [hget, Table.rowTerm_some] at hsum
  change Db.outstanding c.after kind + (if kind' = kind then d.outstanding else 0) =
    Db.outstanding c.before kind + if kind' = kind then d'.outstanding else 0 at hsum
  split at hsum <;> rename_i hkind
  · rw [if_pos hkind]
    omega
  · rw [if_neg hkind]
    omega

/-- The outstanding amounts after a commit that writes to the documents what its allocations do. -/
theorem outstanding_after_of_writes {ws : List (Write Row)}
    (h : documents.writes c.writes = documents.writes ws) (kind : DocumentKind) :
    Db.outstanding c.after kind = Db.outstanding (c.before.putAll ws) kind :=
  documents.sum_congr _ (fun k => document_after_of_writes h k.1 k.2) fun _ _ _ => rfl

/-- A document that is posted has its total outstanding. -/
theorem PostsDocument.outstanding (t : PostsDocument strict c) (hsettled : Settled c.before)
    (kind : DocumentKind) : Db.outstanding c.after kind =
      Db.outstanding c.before kind + if t.kind = kind then t.doc.total else 0 := by
  have hdraft : t.d.status ≠ .posted := by
    rw [t.draft]
    exact nofun
  have hpaid : t.d.amountPaid = 0 := (hsettled.solvent t.current).unpaid hdraft
  have hbefore : t.d.outstanding = 0 := if_neg hdraft
  have hafter : t.doc.outstanding = t.doc.total := by
    have hposted : t.doc.outstanding = t.doc.total - t.doc.amountPaid := by
      rw [t.posted]
      rfl
    have hsame : t.doc.amountPaid = 0 := by
      rw [t.posted]
      exact hpaid
    rw [hposted, hsame, sub_zero]
  rw [outstanding_after t.writes_documents t.current, hbefore, hafter, sub_zero]

/-- A document that is voided has nothing outstanding any more. -/
theorem VoidsDocument.outstanding (t : VoidsDocument strict c) (kind : DocumentKind) :
    Db.outstanding c.after kind =
      Db.outstanding c.before kind - if t.kind = kind then t.d.total else 0 := by
  have hbefore : t.d.outstanding = t.d.total := by
    rw [Document.outstanding, if_pos t.posted, t.unpaid, sub_zero]
  have hafter : (TaxedDocument.markVoid t.d).outstanding = 0 := rfl
  rw [outstanding_after t.writes_documents t.current, hbefore, hafter, zero_sub]
  split
  · rfl
  · rw [sub_zero, add_zero]

/-- A payment that is posted takes its amount off what is outstanding. -/
theorem PostsPayment.outstanding (t : PostsPayment strict c) (hcoh : Coherent c.before)
    (hsettled : Settled c.before) (kind : DocumentKind) :
    Db.outstanding c.after kind = Db.outstanding c.before kind -
      if t.pay.direction.target.kind = kind then t.pay.amount else 0 := by
  have hpay := hcoh.payment t.current
  have hsum : ((t.scan.order t.pay.allocations).map (·.amount)).sum = t.pay.amount :=
    ((t.scan.perm _).map _).sum_eq.trans hpay.amount_eq_sum.symm
  rw [outstanding_after_of_writes t.writes_documents, ← hsum]
  refine t.settled.outstanding (P := fun d => d.Solvent ∧ Money.Storable d.total) ?_ ?_ kind
  · intro a ha d hok hd
    exact ⟨hok.1, hd.1.settle hd.2 (hpay.valid.2 a (t.scan.mem_order.mp ha)) hok, hd.2⟩
  · exact fun id d hd => ⟨hsettled.solvent hd, (hcoh.document hd).total_storable⟩

/-- A payment that is voided brings its amount back. -/
theorem VoidsPayment.outstanding (t : VoidsPayment strict c) (hcoh : Coherent c.before)
    (hsettled : Settled c.before) (kind : DocumentKind) :
    Db.outstanding c.after kind = Db.outstanding c.before kind +
      if t.pay.direction.target.kind = kind then t.pay.amount else 0 := by
  have hpay := hcoh.payment t.current
  have hsum : ((t.scan.order t.pay.allocations).map fun a => -a.amount).sum = -t.pay.amount := by
    rw [((t.scan.perm _).map _).sum_eq, hpay.amount_eq_sum, List.sum_neg, List.map_map]
    rfl
  have hunwound := t.unwound.outstanding (P := fun d => d.Solvent ∧ Money.Storable d.total)
    (fun a ha d hok hd => ?_)
    (fun id d hd => ⟨hsettled.solvent hd, (hcoh.document hd).total_storable⟩) kind
  · rw [outstanding_after_of_writes t.writes_documents, hunwound, hsum]
    split
    · exact sub_neg_eq_add _ _
    · rw [sub_zero, add_zero]
  · -- what is taken back has been paid, so that the document is posted
    have hvalid := hpay.valid.2 a (t.scan.mem_order.mp ha)
    have hle := hd.1.amount_le hd.2 hvalid hok
    refine ⟨?_, hd.1.unwind hd.2 hvalid hok, hd.2⟩
    by_contra hnot
    have hzero := hd.1.unpaid hnot
    have hpos := hvalid.1
    omega

/-- Other commits leave the outstanding amounts alone, where they update no posted document. -/
theorem Transacts.outstanding_of_not (hc : Transacts strict c) (hnot : ¬ TouchesControl strict c)
    (hupdates : UpdatesDraft c) (kind : DocumentKind) :
    Db.outstanding c.after kind = Db.outstanding c.before kind := by
  have hchange := hc.documentChange
  generalize hws : documents.writes c.writes = ws at hchange
  cases hchange with
  | none => exact documents.sum_putAll_of_nil _ _ hws
  | new kind' input totals id d fresh hrow =>
    have hsum := documents.sum_putAll_of_singleton
      (fun k d => if k.1 = kind then d.outstanding else 0) c.before hws
    have hnone : documents.get c.before (kind', id) = none := fresh
    have hzero : d.outstanding = 0 := by
      rw [hrow]
      rfl
    rw [hnone, Table.rowTerm_none, add_zero, hzero, ite_self, add_zero] at hsum
    exact hsum
  | post t => exact absurd (.inl ⟨t⟩) hnot
  | void t => exact absurd (.inr (.inl ⟨t⟩)) hnot
  | step kind' id d d' current hstep hstatus halike hpaid =>
    have hsame : d'.outstanding = d.outstanding := by
      unfold Document.outstanding
      rw [hstatus, hpaid]
      split
      · rename_i hposted
        have hdraft : d.status ≠ .draft := by
          rw [hposted]
          exact nofun
        rw [halike hdraft (hupdates.notEdits current hdraft)]
      · rfl
    rw [outstanding_after hws current, hsame, sub_self, ite_self, add_zero]
  | applies _ _ _ _ _ hsettles => exact absurd (.inr (.inr hsettles)) hnot

end Documents

/-! ## The invariant -/

section Invariant

variable {strict : Prop} {c : Commit} (hc : Transacts strict c) (hcoh : Coherent c.before)
  (hlinked : Linked c.before) (hrev : Reversible c.before)
include hc hcoh hlinked hrev

/-- The legs of a new entry are on the control account its request has read. -/
theorem Transacts.control_after (hcontrol : ∀ {id e kind l}, Db.entry c.before id = some e →
      Db.settlementLeg c.before e = some (kind, l) →
      ∃ a, Db.account c.before l.accountId = some a ∧ a.role = some kind.descriptor.controlRole)
    (hseen : ∀ q ∈ c.seen, AccountsKept q.2 c.before) {id : Uuid} {e : JournalEntry}
    {kind : DocumentKind} {l : JournalLine} (he : Db.entry c.after id = some e)
    (hleg : Db.settlementLeg c.after e = some (kind, l)) :
    ∃ a, Db.account c.after l.accountId = some a ∧ a.role = some kind.descriptor.controlRole := by
  -- accounts of before keep their roles
  suffices h : ∃ s a, AccountsKept s c.before ∧ Db.account s l.accountId = some a ∧
      a.role = some kind.descriptor.controlRole by
    obtain ⟨s, a, hkept, ha, hrole⟩ := h
    obtain ⟨a', ha', -, hsame⟩ := hkept.trans hc.accountsKept ha
    exact ⟨a', ha', hsame.trans hrole⟩
  cases hb : Db.entry c.before id with
  | some e₀ =>
    obtain ⟨e₁, he₁, hstep⟩ := hc.entry_step hb
    obtain rfl : e = e₁ := Option.some.inj (he.symm.trans he₁)
    rw [hc.settlementLeg hlinked hrev hb hstep] at hleg
    obtain ⟨a, ha, hrole⟩ := hcontrol hb hleg
    exact ⟨c.before, a, .refl _, ha, hrole⟩
  | none =>
    cases hc.entryNew hb he with
    | ofDocument t =>
      obtain ⟨l', hleg', hacc, -⟩ := t.settlementLeg c.after
      obtain ⟨rfl, rfl⟩ : t.kind = kind ∧ l' = l :=
        Prod.mk.inj (Option.some.inj (hleg'.symm.trans hleg))
      obtain ⟨s, hs, a, ha⟩ := t.read.sawControl
      obtain ⟨ha, hrole⟩ := account_of_role ha
      exact ⟨s, a, hseen _ hs, by rw [hacc, ha], hrole⟩
    | ofPayment t =>
      obtain ⟨l', hleg', hacc, -⟩ := t.settlementLeg
      obtain ⟨rfl, rfl⟩ : t.pay.direction.target.kind = kind ∧ l' = l :=
        Prod.mk.inj (Option.some.inj (hleg'.symm.trans hleg))
      obtain ⟨s, hs, a, ha⟩ := t.control
      obtain ⟨ha, hrole⟩ := account_of_role ha
      refine ⟨s, a, hseen _ hs, by rw [hacc, ha], hrole.trans ?_⟩
      cases t.pay.direction <;> rfl
    | other hnew hnot =>
      rw [settlementLeg_of_none hnew.reversesNothing, legAmong_of_not hnot] at hleg
      cases hleg
    | reversal t =>
      have horig := t.reversed.original
      have horigin : t.rev.reversalOfId = some t.p.originalId := by
        rw [t.reversed.entry_eq]
        rfl
      rw [settlementLeg_of_some horigin t.after_original,
        hc.legAmong hlinked horig (.reverse t.id t.reversed.notDraft t.reversed.live), t.mirrors.2,
        legAmong_swap] at hleg
      obtain ⟨⟨kind', l'⟩, hleg', hpair⟩ := Option.map_eq_some_iff.mp hleg
      obtain ⟨rfl, rfl⟩ : kind' = kind ∧ swapLine l' = l := Prod.mk.inj hpair
      have hnone : t.o.reversalOfId = none := by
        by_contra hne
        rw [legAmong_of_not] at hleg'
        · cases hleg'
        · rw [(hcoh.entry horig).reversal hne]
          exact fun hof => hof
      obtain ⟨a, ha, hrole⟩ := hcontrol horig ((settlementLeg_of_none hnone).trans hleg')
      exact ⟨c.before, a, .refl _, ha, hrole⟩

/-- **A commit keeps the subledgers reconciled**, where it updates no posted document and reverses no
document's entry as such. -/
theorem Reconciled.after (h : Reconciled c.before) (hsettled : Settled c.before)
    (hlegs : Legs c.before) (hupdates : UpdatesDraft c) (hspares : SparesDocuments c)
    (hpast : ∀ q ∈ c.seen, Linked q.2 ∧ Persists q.2 c.before)
    (hseen : ∀ q ∈ c.seen, AccountsKept q.2 c.before) : Reconciled c.after where
  control := hc.control_after hcoh hlinked hrev h.control hseen
  legs := by
    intro kind
    by_cases htouches : TouchesControl strict c
    · rcases htouches with ⟨⟨t⟩⟩ | ⟨⟨t⟩⟩ | ⟨⟨t⟩⟩ | ⟨⟨t⟩⟩
      · rw [t.controlLegs hlinked hrev, t.outstanding hsettled, h.legs]
      · rw [t.controlLegs hlinked hrev hcoh hlegs fun q hq => (hpast q hq).2, t.outstanding, h.legs]
      · rw [t.controlLegs hlinked hrev, t.outstanding hcoh hsettled, h.legs]
      · rw [t.controlLegs hlinked hrev hcoh hlegs, t.outstanding hcoh hsettled, h.legs]
    · rw [hc.controlLegs_of_not htouches hspares hcoh hlinked hrev hlegs hpast,
        hc.outstanding_of_not htouches hupdates, h.legs]

end Invariant

/-! ## Runs -/

theorem Initial.legs {db : Db} (h : Initial db) : Legs db where
  draft := fun he => by rw [h.entry] at he; cases he
  document := fun hd => by rw [h.document] at hd; cases hd
  payment := fun hp => by rw [h.payment] at hp; cases hp

theorem Initial.reconciled {db : Db} (h : Initial db) : Reconciled db where
  control := fun he => by rw [h.entry] at he; cases he
  legs := fun kind => by
    rw [Db.controlLegs, entries.sum_eq_zero _ h.entry, Db.outstanding,
      documents.sum_eq_zero _ fun k => h.document k.1 k.2]

/-- **The subledgers reconcile with the control accounts** in every reachable state, where no update
finds a posted document and no entry of a document is reversed as such. -/
theorem reconciled_of_reachable {policy : Policy Row LockName Query Failure Response Request}
    {db₀ : Db} {s : Server} (h₀ : Initial db₀) (h : Reachable code policy db₀ s)
    (hupdates : ∀ c ∈ s.history, UpdatesDraft c) (hspares : ∀ c ∈ s.history, SparesDocuments c) :
    Reconciled s.db := by
  have hchain := chain_of_reachable h
  refine (hchain.always (I := fun db => ((Coherent db ∧ Linked db ∧ Reversible db) ∧ Settled db ∧
    Legs db) ∧ Reconciled db) (D := fun s db => Persists s db ∧ AccountsKept s db)
    (fun s => ⟨.refl s, .refl s⟩) (fun _ _ _ h h' => ⟨h.1.trans h'.1, h.2.trans h'.2⟩)
    (fun _ hc => ⟨hc.persists, hc.accountsKept⟩)
    ⟨⟨⟨h₀.coherent, h₀.linked, h₀.reversible⟩, h₀.settled, h₀.legs⟩, h₀.reconciled⟩ ?_ s.db
    hchain.past_self).2
  rintro c hmem hc ⟨⟨⟨hcoh, hlinked, hrev⟩, hsettled, hlegs⟩, hreconciled⟩ hseen
  have hpast : ∀ q ∈ c.seen, Linked q.2 ∧ Persists q.2 c.before := fun q hq =>
    ⟨(hseen q hq).1.1.1.2.1, (hseen q hq).2.1⟩
  refine ⟨⟨⟨hcoh.after hc, hlinked.after hcoh hc, hrev.after hc⟩,
    hsettled.after hc hcoh (hupdates c hmem), hlegs.after hc (hupdates c hmem)⟩, ?_⟩
  exact hreconciled.after hc hcoh hlinked hrev hsettled hlegs (hupdates c hmem) (hspares c hmem) hpast
    fun q hq => (hseen q hq).2.2

/-- Two receipts for the same invoice race, and the one that is posted is voided; then a sale is posted
and its entry reversed. -/
theorem reconciled_of_reachable_race :
    Reconciled (Sample.server (Sample.postedInvoice ++
      Sample.request 2 (.createPayment (Sample.receipt 20) 9 30) 7 ++
      Sample.request 3 (.createPayment (Sample.receipt 20) 9 31) 7 ++
      [.spawn (.postPayment 30 9 101 2 .plain .plain), .spawn (.postPayment 31 9 102 2 .plain .plain)] ++
      List.replicate 8 (.step 4) ++ List.replicate 28 (.step 5) ++
      Sample.request 6 (.voidPayment 31 9 103 3 .plain .plain) 25 ++
      Sample.request 7 (.createAndPostEntry Sample.cashSale 9 104 4) 15 ++
      Sample.request 8 (.reverseEntry 104 9 105 5) 17)).db :=
  reconciled_of_reachable Sample.initial (Sample.reachable (by decide +kernel)) (by decide +kernel)
    (by decide +kernel)

end AccountingApi
