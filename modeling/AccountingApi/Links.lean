import AccountingApi.Rows

/-!
# Documents, journal entries and reversals

A posted invoice, bill or payment points to its journal entry and the entry back to it, so that no
document has two entries. A reversed entry points to its reversal and the reversal back to it, so that
no entry has two reversals.

## Main definitions

* `Db.journalEntryOf`: the journal entry of an invoice, a bill or a payment
* `Linked`, `Reversible`: the two kinds of links

## Main results

* `linked_of_reachable`, `reversible_of_reachable`
* `Linked.unique`, `Reversible.unique`: at most one entry a document, one reversal an entry
-/

namespace AccountingApi

open ReadCommitted Posting Relation

/-- The journal entry of an invoice, a bill or a payment, which an entry's source names. -/
def Db.journalEntryOf (db : Db) : JournalSourceType → Uuid → Option Uuid
  | .salesInvoice, id => (Db.document db .salesInvoice id).bind (·.journalEntryId)
  | .purchaseBill, id => (Db.document db .purchaseBill id).bind (·.journalEntryId)
  | .payment, id => (Db.payment db id).bind (·.journalEntryId)
  | _, _ => none

theorem journalEntryOf_document (db : Db) (kind : DocumentKind) (id : Uuid) :
    Db.journalEntryOf db kind.descriptor.sourceType id =
      (Db.document db kind id).bind (·.journalEntryId) := by
  cases kind <;> rfl

/-- The entries of documents point to their documents, and these back to them; the record of a year
points to a closing entry. -/
structure Linked (db : Db) : Prop where
  entry : ∀ {source id entryId}, Db.journalEntryOf db source id = some entryId →
    ∃ e, Db.entry db entryId = some e ∧ e.sourceType = source ∧ e.sourceId = some id
  source : ∀ {entryId e}, Db.entry db entryId = some e → e.sourceType.OfDocument →
    ∃ id, e.sourceId = some id ∧ Db.journalEntryOf db e.sourceType id = some entryId
  closing : ∀ {fiscalYear rec entryId}, Db.closing db fiscalYear = some rec →
    rec.closingEntryId = some entryId →
    ∃ e, Db.entry db entryId = some e ∧ e.sourceType = .closing

/-- A document has at most one journal entry. -/
theorem Linked.unique {db : Db} (h : Linked db) {entryId entryId' : Uuid} {e e' : JournalEntry}
    (he : Db.entry db entryId = some e) (he' : Db.entry db entryId' = some e')
    (hsource : e.sourceType.OfDocument) (htype : e'.sourceType = e.sourceType)
    (hid : e'.sourceId = e.sourceId) : entryId = entryId' := by
  obtain ⟨id, hsome, hof⟩ := h.source he hsource
  obtain ⟨id', hsome', hof'⟩ := h.source he' (htype ▸ hsource)
  obtain rfl : id' = id := Option.some.inj (hsome' ▸ hid.trans hsome)
  exact Option.some.inj (hof.symm.trans (htype ▸ hof'))

/-! ## Steps -/

theorem EntryStep.source {e e' : JournalEntry} (h : EntryStep e e') :
    e'.sourceType = e.sourceType ∧ e'.sourceId = e.sourceId := by
  cases h <;> exact ⟨rfl, rfl⟩

/-- An entry keeps its date and its lines. -/
theorem EntryStep.lines {e e' : JournalEntry} (h : EntryStep e e') :
    e'.date = e.date ∧ e'.lines = e.lines := by
  cases h <;> exact ⟨rfl, rfl⟩

/-- A posted document keeps its journal entry. -/
theorem DocumentStep.journalEntryId {d d' : Document} (h : DocumentStep d d')
    (hnot : d.status ≠ .draft) : d'.journalEntryId = d.journalEntryId := by
  cases h with
  | refl => rfl
  | edit => rfl
  | post _ _ _ _ _ _ _ hdraft => exact absurd hdraft hnot
  | pay => rfl
  | void => rfl
  | delete => rfl

theorem PaymentStep.journalEntryId {p p' : Payment} (h : PaymentStep p p')
    (hnot : p.status ≠ .draft) : p'.journalEntryId = p.journalEntryId := by
  cases h with
  | refl => rfl
  | post _ _ _ _ _ _ hdraft => exact absurd hdraft hnot
  | void => rfl
  | delete => rfl

/-- The commit posts the document with the given journal entry. -/
inductive Posts (strict : Prop) (c : Commit) : JournalSourceType → Uuid → Uuid → Prop
  | document (t : PostsDocument strict c) : Posts strict c t.kind.descriptor.sourceType t.id t.entryId
  | payment (t : PostsPayment strict c) : Posts strict c .payment t.id t.entryId

section After

variable {strict : Prop} {c : Commit} {id entryId : Uuid}

theorem PostsDocument.after_entry (t : PostsDocument strict c) :
    Db.entry c.after t.entryId = some t.entry := by
  rw [entry_after, t.writes_entries, overwrite_cons, if_pos rfl, overwrite_nil]

theorem PostsDocument.after_document (t : PostsDocument strict c) :
    Db.document c.after t.kind t.id = some t.doc := by
  rw [document_after, t.writes_documents, overwrite_cons, if_pos rfl, overwrite_nil]

theorem PostsPayment.after_entry (t : PostsPayment strict c) :
    Db.entry c.after t.entryId = some t.entry := by
  rw [entry_after, t.writes_entries, overwrite_cons, if_pos rfl, overwrite_nil]

theorem PostsPayment.after_payment (t : PostsPayment strict c) :
    Db.payment c.after t.id = some t.posted := by
  rw [payment_after, t.writes_payments, overwrite_cons, if_pos rfl, overwrite_nil]

theorem ClosesYear.after_entry (t : ClosesYear strict c) :
    Db.entry c.after t.entryId = some t.entry := by
  have hwrites : entries.writes c.writes = [(t.entryId, t.entry)] := by
    rw [t.writes, Table.writes_append, t.created.stamp.ticket.entries]
    rfl
  rw [entry_after, hwrites, overwrite_cons, if_pos rfl, overwrite_nil]

/-- The posting entry names its document. -/
theorem Posts.entry {source : JournalSourceType} (h : Posts strict c source id entryId) :
    ∃ e, Db.entry c.after entryId = some e ∧ e.sourceType = source ∧ e.sourceId = some id := by
  cases h with
  | document t =>
    refine ⟨t.entry, t.after_entry, ?_⟩
    rw [t.created.eq_postedEntry t.prepared]
    exact ⟨rfl, rfl⟩
  | payment t =>
    refine ⟨t.entry, t.after_entry, ?_⟩
    rw [t.created.eq_postedEntry t.prepared]
    exact ⟨rfl, rfl⟩

/-- The document points to the posting entry. -/
theorem Posts.journalEntryOf {source : JournalSourceType} (h : Posts strict c source id entryId) :
    Db.journalEntryOf c.after source id = some entryId := by
  cases h with
  | document t =>
    rw [journalEntryOf_document, t.after_document, t.posted]
    rfl
  | payment t =>
    change (Db.payment c.after t.id).bind _ = _
    rw [t.after_payment]
    rfl

/-- A commit keeps the journal entry of a document, or posts the document. -/
theorem Transacts.journalEntryId_document (h : Transacts strict c) (hcoh : Coherent c.before)
    (kind : DocumentKind) :
    ((Db.document c.before kind id).bind (·.journalEntryId) = some entryId →
      (Db.document c.after kind id).bind (·.journalEntryId) = some entryId) ∧
    ((Db.document c.after kind id).bind (·.journalEntryId) = some entryId →
      (Db.document c.before kind id).bind (·.journalEntryId) = some entryId ∨
        ∃ t : PostsDocument strict c, t.kind = kind ∧ t.id = id ∧ t.entryId = entryId) := by
  have hafter := hcoh.after h
  cases hb : Db.document c.before kind id with
  | none =>
    refine ⟨nofun, fun hd => ?_⟩
    obtain ⟨d, hd, hentry⟩ := Option.bind_eq_some_iff.mp hd
    obtain ⟨input, totals, rfl, -⟩ := h.document_new hb hd
    cases hentry
  | some d =>
    obtain ⟨d', hd', hnext⟩ := h.documentNext hb
    rw [hd', Option.bind_some, Option.bind_some]
    by_cases hdraft : d.status = .draft
    · rw [(hcoh.document hb).journalEntry.mp hdraft]
      refine ⟨nofun, fun he => .inr ?_⟩
      have hnot : d'.status ≠ .draft := fun hdraft' => by
        rw [(hafter.document hd').journalEntry.mp hdraft'] at he
        cases he
      obtain ⟨t, hkind, hid, rfl⟩ := hnext.posted hdraft hnot
      rw [t.posted] at he
      exact ⟨t, hkind, hid, Option.some.inj he⟩
    · have hsame := hnext.documentStep.journalEntryId hdraft
      exact ⟨fun he => hsame.trans he, fun he => .inl (hsame.symm.trans he)⟩

/-- A commit keeps the journal entry of a payment, or posts the payment. -/
theorem Transacts.journalEntryId_payment (h : Transacts strict c) (hcoh : Coherent c.before) :
    ((Db.payment c.before id).bind (·.journalEntryId) = some entryId →
      (Db.payment c.after id).bind (·.journalEntryId) = some entryId) ∧
    ((Db.payment c.after id).bind (·.journalEntryId) = some entryId →
      (Db.payment c.before id).bind (·.journalEntryId) = some entryId ∨
        ∃ t : PostsPayment strict c, t.id = id ∧ t.entryId = entryId) := by
  have hafter := hcoh.after h
  cases hb : Db.payment c.before id with
  | none =>
    refine ⟨nofun, fun hp => ?_⟩
    obtain ⟨p, hp, hentry⟩ := Option.bind_eq_some_iff.mp hp
    obtain ⟨dto, user, rfl, -⟩ := h.payment_new hb hp
    cases hentry
  | some p =>
    obtain ⟨p', hp', hnext⟩ := h.paymentNext hb
    rw [hp', Option.bind_some, Option.bind_some]
    by_cases hdraft : p.status = .draft
    · rw [(hcoh.payment hb).journalEntry.mp hdraft]
      refine ⟨nofun, fun he => .inr ?_⟩
      have hnot : p'.status ≠ .draft := fun hdraft' => by
        rw [(hafter.payment hp').journalEntry.mp hdraft'] at he
        cases he
      obtain ⟨t, hid, rfl⟩ := hnext.posted hdraft hnot
      exact ⟨t, hid, Option.some.inj he⟩
    · have hsame := hnext.paymentStep.journalEntryId hdraft
      exact ⟨fun he => hsame.trans he, fun he => .inl (hsame.symm.trans he)⟩

/-- A commit keeps the journal entry of a document, or posts the document. -/
theorem Transacts.journalEntryOf (h : Transacts strict c) (hcoh : Coherent c.before)
    (source : JournalSourceType) :
    (Db.journalEntryOf c.before source id = some entryId →
      Db.journalEntryOf c.after source id = some entryId) ∧
    (Db.journalEntryOf c.after source id = some entryId →
      Db.journalEntryOf c.before source id = some entryId ∨ Posts strict c source id entryId) := by
  -- the two kinds of documents alike
  have hdoc : ∀ kind : DocumentKind,
      (Db.journalEntryOf c.before kind.descriptor.sourceType id = some entryId →
        Db.journalEntryOf c.after kind.descriptor.sourceType id = some entryId) ∧
      (Db.journalEntryOf c.after kind.descriptor.sourceType id = some entryId →
        Db.journalEntryOf c.before kind.descriptor.sourceType id = some entryId ∨
          Posts strict c kind.descriptor.sourceType id entryId) := by
    intro kind
    rw [journalEntryOf_document, journalEntryOf_document]
    refine (h.journalEntryId_document hcoh kind).imp_right fun hor he => (hor he).imp_right ?_
    rintro ⟨t, rfl, rfl, rfl⟩
    exact .document t
  cases source with
  | salesInvoice => exact hdoc .salesInvoice
  | purchaseBill => exact hdoc .purchaseBill
  | payment =>
    refine (h.journalEntryId_payment hcoh).imp_right fun hor he => (hor he).imp_right ?_
    rintro ⟨t, rfl, rfl⟩
    exact .payment t
  | manual => exact ⟨nofun, nofun⟩
  | opening => exact ⟨nofun, nofun⟩
  | reversal => exact ⟨nofun, nofun⟩
  | closing => exact ⟨nofun, nofun⟩

/-- **A commit keeps documents and their entries linked.** -/
theorem Linked.after (h : Linked c.before) (hcoh : Coherent c.before) (hc : Transacts strict c) :
    Linked c.after where
  entry := by
    intro source id entryId hof
    rcases (hc.journalEntryOf hcoh source).2 hof with hof | hposts
    · obtain ⟨e, he, htype, hid⟩ := h.entry hof
      obtain ⟨e', he', hstep⟩ := hc.entry_step he
      obtain ⟨htype', hid'⟩ := hstep.source
      exact ⟨e', he', htype'.trans htype, hid'.trans hid⟩
    · exact hposts.entry
  source := by
    intro entryId e he hsource
    cases hb : Db.entry c.before entryId with
    | some e₀ =>
      obtain ⟨e', he', hstep⟩ := hc.entry_step hb
      obtain rfl : e = e' := Option.some.inj (he ▸ he')
      obtain ⟨htype, hid⟩ := hstep.source
      rw [htype] at hsource ⊢
      obtain ⟨id, hsome, hof⟩ := h.source hb hsource
      exact ⟨id, hid.trans hsome, (hc.journalEntryOf hcoh _).1 hof⟩
    | none =>
      cases hc.entryNew hb he with
      | ofDocument t hid =>
        subst hid
        rw [t.created.eq_postedEntry t.prepared]
        exact ⟨t.id, rfl, (Posts.document t).journalEntryOf⟩
      | ofPayment t hid =>
        subst hid
        rw [t.created.eq_postedEntry t.prepared]
        exact ⟨t.id, rfl, (Posts.payment t).journalEntryOf⟩
      | other hnew hnot => exact absurd hsource hnot
      | reversal t =>
        rw [t.reversed.entry_eq] at hsource
        cases hsource
  closing := by
    intro fiscalYear rec entryId hrec hentry
    -- a record of before the commit has its entry still
    have hkeep : ∀ fiscalYear rec, Db.closing c.before fiscalYear = some rec →
        rec.closingEntryId = some entryId →
        ∃ e, Db.entry c.after entryId = some e ∧ e.sourceType = .closing := by
      intro fiscalYear rec hrec hentry
      obtain ⟨e, he, htype⟩ := h.closing hrec hentry
      obtain ⟨e', he', hstep⟩ := hc.entry_step he
      exact ⟨e', he', hstep.source.1.trans htype⟩
    rcases hc.closingNext fiscalYear with hsame | ⟨rec', hrec', hnext⟩
    · exact hkeep fiscalYear rec (hsame ▸ hrec) hentry
    · obtain rfl : rec = rec' := Option.some.inj (hrec ▸ hrec')
      cases hnext with
      | close t =>
        rw [t.record] at hentry
        cases hentry
        refine ⟨t.entry, t.after_entry, ?_⟩
        rw [t.created.eq_postedEntry t.prepared]
        rfl
      | closeEmpty => cases hentry
      | reopen t hyear => exact hkeep _ _ t.current hentry
      | reopenEmpty user now rec₀ _ hrec₀ => exact hkeep _ _ hrec₀ hentry

end After

/-! ## What is reversed -/

/-- A document keeps its journal entry. -/
theorem Persists.journalEntryId_document {s db : Db} (h : Persists s db) {kind : DocumentKind}
    {id : Uuid} {d d' : Document} (hd : Db.document s kind id = some d)
    (hnot : d.status ≠ .draft) (hlive : d.deletedAt = none)
    (hd' : Db.document db kind id = some d') : d'.journalEntryId = d.journalEntryId := by
  obtain ⟨d₁, hd₁, hsteps⟩ := h.document hd
  obtain rfl : d' = d₁ := Option.some.inj (hd' ▸ hd₁)
  clear hd' hd₁
  induction hsteps with
  | refl => rfl
  | tail hsteps hstep ih =>
    exact (hstep.journalEntryId (live_of_documentSteps hsteps hnot hlive).1).trans ih

/-- A journal entry keeps its source. -/
theorem Persists.entry_source {s db : Db} (h : Persists s db) {id : Uuid} {e e' : JournalEntry}
    (he : Db.entry s id = some e) (he' : Db.entry db id = some e') :
    e'.sourceType = e.sourceType ∧ e'.sourceId = e.sourceId := by
  obtain ⟨e₁, he₁, hsteps⟩ := h.entry he
  obtain rfl : e' = e₁ := Option.some.inj (he' ▸ he₁)
  clear he' he₁
  induction hsteps with
  | refl => exact ⟨rfl, rfl⟩
  | tail _ hstep ih => exact ⟨hstep.source.1.trans ih.1, hstep.source.2.trans ih.2⟩

section Reversed

variable {strict : Prop} {c : Commit}

/-- A document that is voided has the journal entry that is reversed. -/
theorem VoidsDocument.d_journalEntryId (t : VoidsDocument strict c)
    (hpast : ∀ q ∈ c.seen, Persists q.2 c.before) :
    t.d.journalEntryId = some t.journalEntryId := by
  obtain ⟨s, hs, hrow, hposted, hentry⟩ := t.sawPosted
  obtain ⟨hrow, hlive⟩ := Option.filter_eq_some_iff.mp hrow
  rw [← hentry]
  exact (hpast _ hs).journalEntryId_document hrow (by rw [hposted]; decide)
    (Option.isNone_iff_eq_none.mp hlive) t.current

/-- What an entry that a commit reverses is: that of the document or the payment it voids, a closing
entry, or the one its request names. -/
inductive ReversedSource (strict : Prop) (c : Commit) (id : Uuid) (e : JournalEntry) : Prop
  | voidDocument (t : VoidsDocument strict c) : t.journalEntryId = id →
      e.sourceType = t.kind.descriptor.sourceType → e.sourceId = some t.id →
      ReversedSource strict c id e
  | voidPayment (t : VoidsPayment strict c) : t.journalEntryId = id →
      e.sourceType = .payment → e.sourceId = some t.id → ReversedSource strict c id e
  | closing : e.sourceType = .closing → ReversedSource strict c id e
  | request : c.req.reversed = some id → ReversedSource strict c id e

/-- **What an entry that a commit reverses is.** -/
theorem Reverser.source {id : Uuid} {e : JournalEntry} (h : Reverser strict c id)
    (hlinked : Linked c.before) (hpast : ∀ q ∈ c.seen, Linked q.2 ∧ Persists q.2 c.before)
    (he : Db.entry c.before id = some e) : ReversedSource strict c id e := by
  cases h with
  | voidDocument t =>
    have hof : Db.journalEntryOf c.before t.kind.descriptor.sourceType t.id =
        some t.journalEntryId := by
      rw [journalEntryOf_document, t.current]
      exact t.d_journalEntryId fun q hq => (hpast q hq).2
    obtain ⟨e', he', htype, hid⟩ := hlinked.entry hof
    obtain rfl : e = e' := Option.some.inj (he ▸ he')
    exact .voidDocument t rfl htype hid
  | voidPayment t =>
    have hof : Db.journalEntryOf c.before .payment t.id = some t.journalEntryId := by
      change (Db.payment c.before t.id).bind _ = _
      rw [t.current]
      exact t.journalEntry
    obtain ⟨e', he', htype, hid⟩ := hlinked.entry hof
    obtain rfl : e = e' := Option.some.inj (he ▸ he')
    exact .voidPayment t rfl htype hid
  | reopenYear t =>
    obtain ⟨s, hs, rec, hrec, -, hentry⟩ := t.sawClosed
    obtain ⟨hlinkedₛ, hpersists⟩ := hpast _ hs
    obtain ⟨e₀, he₀, htype⟩ := hlinkedₛ.closing hrec hentry
    exact .closing ((hpersists.entry_source he₀ he).1.trans htype)
  | request id hreq => exact .request hreq

end Reversed

/-! ## Reversals -/

/-- The reversed entries point to their reversals, and these back to them. -/
structure Reversible (db : Db) : Prop where
  original : ∀ {r e o}, Db.entry db r = some e → e.reversalOfId = some o →
    ∃ e₀, Db.entry db o = some e₀ ∧ e₀.reversedById = some r
  reversal : ∀ {o e r}, Db.entry db o = some e → e.reversedById = some r →
    ∃ e', Db.entry db r = some e' ∧ e'.reversalOfId = some o

/-- An entry has at most one reversal. -/
theorem Reversible.unique {db : Db} (h : Reversible db) {o r r' : Uuid} {e e' : JournalEntry}
    (he : Db.entry db r = some e) (he' : Db.entry db r' = some e') (ho : e.reversalOfId = some o)
    (ho' : e'.reversalOfId = some o) : r = r' := by
  obtain ⟨e₀, he₀, hr⟩ := h.original he ho
  obtain ⟨e₁, he₁, hr'⟩ := h.original he' ho'
  obtain rfl : e₀ = e₁ := Option.some.inj (he₀ ▸ he₁)
  exact Option.some.inj (hr ▸ hr')

/-- An entry is reversed if and only if there is a reversal of it. -/
theorem Reversible.reversed_iff {db : Db} (h : Reversible db) (hcoh : Coherent db) {o : Uuid}
    {e : JournalEntry} (he : Db.entry db o = some e) :
    e.status = .reversed ↔ ∃ r e', Db.entry db r = some e' ∧ e'.reversalOfId = some o := by
  rw [(hcoh.entry he).reversed, Option.ne_none_iff_exists']
  constructor
  · rintro ⟨r, hr⟩
    obtain ⟨e', he', ho⟩ := h.reversal he hr
    exact ⟨r, e', he', ho⟩
  · rintro ⟨r, e', he', ho⟩
    obtain ⟨e₀, he₀, hr⟩ := h.original he' ho
    obtain rfl : e₀ = e := Option.some.inj (he₀ ▸ he)
    exact ⟨r, hr⟩

/-- **A commit keeps reversed entries and reversals matched.** The commit that reverses an entry has
found no reversal of it, under the lock that admits one. -/
theorem Reversible.after {strict : Prop} {c : Commit} (h : Reversible c.before)
    (hc : Transacts strict c) : Reversible c.after where
  original := by
    intro r e o he ho
    cases hb : Db.entry c.before r with
    | some e₀ =>
      obtain ⟨e', he', hstep⟩ := hc.entry_step hb
      obtain rfl : e = e' := Option.some.inj (he ▸ he')
      rw [hstep.reversalOfId] at ho
      obtain ⟨e₁, he₁, hr⟩ := h.original hb ho
      obtain ⟨e₁', he₁', hnext⟩ := hc.entryNext he₁
      cases hnext with
      | step _ hsame => exact ⟨e₁', he₁', hsame.trans hr⟩
      | reverse t hid =>
        have hmem : r ∈ Db.reversalsOf c.before t.p.originalId :=
          mem_reversalsOf.mpr ⟨e₀, hb, hid ▸ ho⟩
        rw [t.reversed.first] at hmem
        cases hmem
    | none =>
      cases hc.entryNew hb he with
      | ofDocument t => cases t.created.isNew.reversesNothing ▸ ho
      | ofPayment t => cases t.created.isNew.reversesNothing ▸ ho
      | other hnew => cases hnew.reversesNothing ▸ ho
      | reversal t hid =>
        rw [t.reversed.entry_eq] at ho
        cases ho
        exact ⟨_, t.after_original, congrArg some hid⟩
  reversal := by
    intro o e r he hr
    cases hb : Db.entry c.before o with
    | some e₀ =>
      obtain ⟨e', he', hnext⟩ := hc.entryNext hb
      obtain rfl : e = e' := Option.some.inj (he ▸ he')
      cases hnext with
      | step _ hsame =>
        obtain ⟨e₁, he₁, ho⟩ := h.reversal hb (hsame.symm.trans hr)
        obtain ⟨e₁', he₁', hstep⟩ := hc.entry_step he₁
        exact ⟨e₁', he₁', hstep.reversalOfId.trans ho⟩
      | reverse t hid =>
        cases hr
        exact ⟨t.rev, t.after_reversal, by rw [t.reversed.entry_eq, ← hid]; rfl⟩
    | none =>
      have hnone : e.reversedById = none := by
        rcases (hc.entryNew hb he).isNew with hnew | ⟨t, -, rfl⟩
        · exact hnew.unmarked
        · rw [t.reversed.entry_eq]
          rfl
      cases hnone ▸ hr

/-! ## In every reachable state -/

section Reachable

variable {policy : Policy Row LockName Query Failure Response Request} {db₀ : Db} {s : Server}

theorem Initial.linked {db : Db} (h : Initial db) : Linked db where
  entry := by
    intro source id entryId hof
    have hnone : Db.journalEntryOf db source id = none := by
      cases source <;> simp [Db.journalEntryOf, h.document, h.payment]
    cases hnone ▸ hof
  source := fun he => by rw [h.entry] at he; cases he
  closing := fun hrec => by rw [h.closing] at hrec; cases hrec

theorem Initial.reversible {db : Db} (h : Initial db) : Reversible db where
  original := fun he => by rw [h.entry] at he; cases he
  reversal := fun he => by rw [h.entry] at he; cases he

theorem linked_of_reachable (h₀ : Initial db₀) (h : Reachable code policy db₀ s) : Linked s.db :=
  (invariant_of_reachable (fun _ => True) (I := fun db => Coherent db ∧ Linked db) h
    (fun _ _ => trivial) ⟨h₀.coherent, h₀.linked⟩
    fun _ hc _ hI _ => ⟨hI.1.after hc, hI.2.after hI.1 hc⟩).2

theorem reversible_of_reachable (h₀ : Initial db₀) (h : Reachable code policy db₀ s) :
    Reversible s.db :=
  invariant_of_reachable (fun _ => True) h (fun _ _ => trivial) h₀.reversible
    fun _ hc _ hI _ => hI.after hc

end Reachable

end AccountingApi
