import AccountingApi.Links

/-!
# Documents and the status of their entries

A posted document is to have a posted journal entry, a voided one a reversed entry whose reversal
stands. Voiding keeps to this. The reversal of a journal entry as such takes any entry, that of a
document as well, and so a document stays posted without its entry; where it spares the entries of
documents and their reversals, every document is backed by its entry.

## Main definitions

* `Db.Backs`, `Backed`: what the journal entry of a document is to be
* `SparesDocuments`: the commit reverses no document's entry as such

## Main results

* `backed_of_reachable`: where every commit spares the documents
* `reverse_of_posted_invoice`: a run in which one does not
-/

namespace AccountingApi

open ReadCommitted Posting

/-! ## The property -/

/-- The entry is what the status of its document needs: posted for a posted document, reversed for a
voided one, by an entry that has not been reversed itself. -/
def Db.Backs (db : Db) (journalEntryId : Option Uuid) : DocumentStatus → Prop
  | .draft => True
  | .posted => ∃ entryId e, journalEntryId = some entryId ∧ Db.entry db entryId = some e ∧
      e.status = .posted
  | .void => ∃ entryId e r e', journalEntryId = some entryId ∧ Db.entry db entryId = some e ∧
      e.status = .reversed ∧ e.reversedById = some r ∧ Db.entry db r = some e' ∧
      e'.status = .posted

/-- Every invoice, bill and payment is backed by its journal entry. -/
structure Backed (db : Db) : Prop where
  document : ∀ {kind id d}, Db.document db kind id = some d → Db.Backs db d.journalEntryId d.status
  payment : ∀ {id p}, Db.payment db id = some p → Db.Backs db p.journalEntryId p.status

/-! ## The condition -/

instance : DecidablePred JournalSourceType.OfDocument
  | .salesInvoice | .purchaseBill | .payment => isTrue trivial
  | .manual | .opening | .reversal | .closing => isFalse id

/-- If the commit reverses an entry as such, it is neither that of a document nor the reversal of
one. -/
def SparesDocuments (c : Commit) : Prop :=
  ∀ id ∈ c.req.reversed, ∀ e ∈ Db.entry c.before id, ¬ e.sourceType.OfDocument ∧
    ∀ o ∈ e.reversalOfId, ∀ e₀ ∈ Db.entry c.before o, ¬ e₀.sourceType.OfDocument

instance (c : Commit) : Decidable (SparesDocuments c) :=
  inferInstanceAs (Decidable (∀ id ∈ c.req.reversed, ∀ e ∈ Db.entry c.before id, _ ∧
    ∀ o ∈ e.reversalOfId, ∀ e₀ ∈ Db.entry c.before o, _))

/-! ## Steps -/

/-- An entry that is not newly reversed keeps its status once it is posted. -/
theorem EntryStep.status {e e' : JournalEntry} (h : EntryStep e e') (he : e.Coherent)
    (hmark : e'.reversedById = e.reversedById) (hnot : e.status ≠ .draft) :
    e'.status = e.status := by
  cases h with
  | refl => rfl
  | promote _ _ _ _ _ _ hdraft => exact absurd hdraft hnot
  | reverse r =>
    refine (he.reversed.mpr ?_).symm
    rw [← hmark]
    exact nofun
  | delete _ _ hdraft => exact absurd hdraft hnot

section Commits

variable {strict : Prop} {c : Commit}

theorem VoidsDocument.after_document (t : VoidsDocument strict c) :
    Db.document c.after t.kind t.id = some (TaxedDocument.markVoid t.d) := by
  rw [document_after, t.writes_documents, overwrite_cons, if_pos rfl, overwrite_nil]

theorem VoidsPayment.after_payment (t : VoidsPayment strict c) :
    Db.payment c.after t.id = some (Payments.markVoid t.pay) := by
  rw [payment_after, t.writes_payments, overwrite_cons, if_pos rfl, overwrite_nil]

/-- The reversed entry and its reversal back a voided document. -/
theorem ReversesEntry.backs (t : ReversesEntry strict c) :
    Db.Backs c.after (some t.p.originalId) .void := by
  refine ⟨_, _, t.id, t.rev, rfl, t.after_original, rfl, rfl, t.after_reversal, ?_⟩
  rw [t.reversed.entry_eq]
  rfl

/-- What the journal entry of a document needs to stay as it is: the commit does not void the
document. -/
def NotVoided (c : Commit) (strict : Prop) (source : JournalSourceType) (id : Uuid) : Prop :=
  (∀ t : VoidsDocument strict c, t.kind.descriptor.sourceType = source → t.id ≠ id) ∧
    (∀ t : VoidsPayment strict c, .payment = source → t.id ≠ id)

variable {source : JournalSourceType} {id entryId : Uuid} {e : JournalEntry}

section Kept

variable (hc : Transacts strict c) (hspares : SparesDocuments c) (hcoh : Coherent c.before)
  (hlinked : Linked c.before) (hpast : ∀ q ∈ c.seen, Linked q.2 ∧ Persists q.2 c.before)
include hc hspares hcoh hlinked hpast

/-- The posted entry of a document that is not voided stays posted. -/
theorem entry_kept_of_notVoided (he : Db.entry c.before entryId = some e)
    (hvoid : NotVoided c strict source id)
    (hsource : source.OfDocument) (htype : e.sourceType = source) (hid : e.sourceId = some id)
    (hnot : e.status ≠ .draft) :
    ∃ e', Db.entry c.after entryId = some e' ∧ e'.status = e.status ∧
      e'.reversedById = e.reversedById := by
  obtain ⟨e', he', hnext⟩ := hc.entryNext he
  cases hnext with
  | step hstep hmark => exact ⟨e', he', hstep.status (hcoh.entry he) hmark hnot, hmark⟩
  | reverse t horig =>
    cases t.reverser.source hlinked hpast (horig ▸ he) with
    | voidDocument u _ htype' hid' =>
      exact absurd (Option.some.inj (hid'.symm.trans hid)) (hvoid.1 u (htype'.symm.trans htype))
    | voidPayment u _ htype' hid' =>
      exact absurd (Option.some.inj (hid'.symm.trans hid)) (hvoid.2 u (htype'.symm.trans htype))
    | closing hclosing =>
      rw [← htype, hclosing] at hsource
      exact hsource.elim
    | request hreq => exact absurd (htype ▸ hsource) (hspares _ hreq e (horig ▸ he)).1

/-- The reversal of a document's entry stays as it is. -/
theorem reversal_kept (he : Db.entry c.before entryId = some e) {o : Uuid} {e₀ : JournalEntry}
    (ho : e.reversalOfId = some o)
    (he₀ : Db.entry c.before o = some e₀) (hsource : e₀.sourceType.OfDocument)
    (hnot : e.status ≠ .draft) :
    ∃ e', Db.entry c.after entryId = some e' ∧ e'.status = e.status := by
  have htype : e.sourceType = .reversal := (hcoh.entry he).reversal (by rw [ho]; exact nofun)
  obtain ⟨e', he', hnext⟩ := hc.entryNext he
  cases hnext with
  | step hstep hmark => exact ⟨e', he', hstep.status (hcoh.entry he) hmark hnot⟩
  | reverse t horig =>
    cases t.reverser.source hlinked hpast (horig ▸ he) with
    | voidDocument u _ htype' =>
      have hof := u.kind.ofDocument
      rw [← htype', htype] at hof
      exact hof.elim
    | voidPayment u _ htype' => cases htype.symm.trans htype'
    | closing hclosing => cases htype.symm.trans hclosing
    | request hreq => exact absurd hsource ((hspares _ hreq e (horig ▸ he)).2 o ho e₀ he₀)

/-- What backs a document that is not voided keeps doing so. -/
theorem Db.Backs.after (hreversible : Reversible c.before) {journalEntryId : Option Uuid}
    {status : DocumentStatus} (h : Db.Backs c.before journalEntryId status)
    (hof : Db.journalEntryOf c.before source id = journalEntryId) (hsource : source.OfDocument)
    (hvoid : NotVoided c strict source id) : Db.Backs c.after journalEntryId status := by
  cases status with
  | draft => trivial
  | posted =>
    obtain ⟨entryId, e, rfl, he, hposted⟩ := h
    obtain ⟨e₁, he₁, htype, hid⟩ := hlinked.entry hof
    obtain rfl : e = e₁ := Option.some.inj (he ▸ he₁)
    obtain ⟨e', he', hstatus, -⟩ := entry_kept_of_notVoided hc hspares hcoh hlinked hpast he hvoid
      hsource htype hid (by rw [hposted]; decide)
    exact ⟨entryId, e', rfl, he', hstatus.trans hposted⟩
  | void =>
    obtain ⟨entryId, e, r, rev, rfl, he, hreversed, hmark, hrev, hposted⟩ := h
    obtain ⟨e₁, he₁, htype, hid⟩ := hlinked.entry hof
    obtain rfl : e = e₁ := Option.some.inj (he ▸ he₁)
    obtain ⟨e', he', hstatus, hmark'⟩ := entry_kept_of_notVoided hc hspares hcoh hlinked hpast he
      hvoid hsource htype hid (by rw [hreversed]; decide)
    obtain ⟨rev₁, hrev₁, ho⟩ := hreversible.reversal he hmark
    obtain rfl : rev = rev₁ := Option.some.inj (hrev ▸ hrev₁)
    obtain ⟨rev', hrev', hstatus'⟩ := reversal_kept hc hspares hcoh hlinked hpast hrev ho he
      (htype ▸ hsource) (by rw [hposted]; decide)
    exact ⟨entryId, e', r, rev', rfl, he', hstatus.trans hreversed, hmark'.trans hmark, hrev',
      hstatus'.trans hposted⟩

end Kept

theorem DocumentKind.sourceType_injective {kind kind' : DocumentKind}
    (h : kind.descriptor.sourceType = kind'.descriptor.sourceType) : kind = kind' := by
  cases kind <;> cases kind' <;> first | rfl | cases h

/-- **A commit that spares the documents keeps them backed.** -/
theorem Backed.after (h : Backed c.before) (hc : Transacts strict c) (hspares : SparesDocuments c)
    (hcoh : Coherent c.before) (hlinked : Linked c.before) (hreversible : Reversible c.before)
    (hpast : ∀ q ∈ c.seen, Linked q.2 ∧ Persists q.2 c.before) : Backed c.after where
  document := by
    intro kind id d' hd'
    cases hb : Db.document c.before kind id with
    | none =>
      obtain ⟨input, totals, rfl, -⟩ := hc.document_new hb hd'
      trivial
    | some d =>
      obtain ⟨d₁, hd₁, hnext⟩ := hc.documentNext hb
      obtain rfl : d' = d₁ := Option.some.inj (hd' ▸ hd₁)
      cases hnext with
      | post t =>
        rw [t.posted]
        refine ⟨t.entryId, t.entry, rfl, t.after_entry, ?_⟩
        rw [t.created.entry_eq]
        rfl
      | void t hkind hid hd =>
        have hentry := t.d_journalEntryId fun q hq => (hpast q hq).2
        rw [hd, ← t.prepared.originalId_eq] at hentry
        change Db.Backs c.after d.journalEntryId .void
        rw [hentry]
        exact t.reversesEntry.backs
      | step hstep hstatus =>
        rw [hstatus]
        by_cases hdraft : d.status = .draft
        · rw [hdraft]
          trivial
        · rw [hstep.journalEntryId hdraft]
          refine (h.document hb).after hc hspares hcoh hlinked hpast hreversible
            (by rw [journalEntryOf_document, hb]; rfl) kind.ofDocument ⟨fun u hkind hid => ?_, ?_⟩
          · obtain rfl := DocumentKind.sourceType_injective hkind
            subst hid
            obtain rfl : d' = _ := Option.some.inj (hd' ▸ u.after_document)
            obtain rfl : d = u.d := Option.some.inj (hb ▸ u.current)
            cases hstatus.trans u.posted
          · intro u hkind
            cases kind <;> cases hkind
  payment := by
    intro id p' hp'
    cases hb : Db.payment c.before id with
    | none =>
      obtain ⟨dto, user, rfl, -⟩ := hc.payment_new hb hp'
      trivial
    | some p =>
      obtain ⟨p₁, hp₁, hnext⟩ := hc.paymentNext hb
      obtain rfl : p' = p₁ := Option.some.inj (hp' ▸ hp₁)
      cases hnext with
      | post t =>
        refine ⟨t.entryId, t.entry, rfl, t.after_entry, ?_⟩
        rw [t.created.entry_eq]
        rfl
      | void t hid hp =>
        have hentry := t.journalEntry
        rw [hp, ← t.prepared.originalId_eq] at hentry
        change Db.Backs c.after p.journalEntryId .void
        rw [hentry]
        exact t.reversesEntry.backs
      | step hstep hstatus =>
        rw [hstatus]
        by_cases hdraft : p.status = .draft
        · rw [hdraft]
          trivial
        · rw [hstep.journalEntryId hdraft]
          have hof : Db.journalEntryOf c.before .payment id = p.journalEntryId := by
            change (Db.payment c.before id).bind _ = _
            rw [hb]
            rfl
          refine (h.payment hb).after hc hspares hcoh hlinked hpast hreversible hof trivial
            ⟨?_, fun u _ hid => ?_⟩
          · intro u hkind
            cases hu : u.kind <;> rw [hu] at hkind <;> cases hkind
          · subst hid
            obtain rfl : p' = _ := Option.some.inj (hp' ▸ u.after_payment)
            obtain rfl : p = u.pay := Option.some.inj (hb ▸ u.current)
            cases hstatus.trans u.posted

end Commits

/-! ## Runs -/

theorem Initial.backed {db : Db} (h : Initial db) : Backed db where
  document := fun hd => by rw [h.document] at hd; cases hd
  payment := fun hp => by rw [h.payment] at hp; cases hp

/-- **Documents are backed by their entries** in every run that reverses no document's entry, and no
reversal of one, as such. -/
theorem backed_of_reachable {policy : Policy Row LockName Query Failure Response Request}
    {db₀ : Db} {s : Server} (h₀ : Initial db₀) (h : Reachable code policy db₀ s)
    (hspares : ∀ c ∈ s.history, SparesDocuments c) : Backed s.db :=
  (invariant_of_reachable SparesDocuments
    (I := fun db => ((Coherent db ∧ Linked db) ∧ Reversible db) ∧ Backed db) h hspares
    ⟨⟨⟨h₀.coherent, h₀.linked⟩, h₀.reversible⟩, h₀.backed⟩
    fun _ hc hcond ⟨⟨⟨hcoh, hlinked⟩, hreversible⟩, hbacked⟩ hpast =>
      ⟨⟨⟨hcoh.after hc, hlinked.after hcoh hc⟩, hreversible.after hc⟩,
        hbacked.after hc hcond hcoh hlinked hreversible
          fun q hq => ⟨(hpast q hq).1.1.1.2, (hpast q hq).2⟩⟩).2

/-- An invoice and a receipt posted and voided, and a manual entry reversed. -/
theorem backed_of_reachable_voids :
    Backed (Sample.server (Sample.postedInvoice ++
      Sample.request 2 (.createPayment (Sample.receipt 20) 9 30) 7 ++
      Sample.request 3 (.postPayment 30 9 101 2 .plain .plain) 28 ++
      Sample.request 4 (.voidPayment 30 9 102 3 .plain .plain) 25 ++
      Sample.request 5 (.voidDocument .salesInvoice 20 9 103 4) 24 ++
      Sample.request 6 (.createAndPostEntry Sample.cashSale 9 104 5) 15 ++
      Sample.request 7 (.reverseEntry 104 9 105 6) 17)).db :=
  backed_of_reachable Sample.initial (Sample.reachable (by decide +kernel)) (by decide +kernel)

/-- An invoice is posted, and its journal entry reversed as such. -/
def Sample.reversedInvoice : List (Event Request) :=
  postedInvoice ++ request 2 (.reverseEntry 100 9 101 2) 17

/-- **The reversal of a posted invoice's entry** leaves the invoice posted. -/
theorem reverse_of_posted_invoice :
    let s := Sample.server Sample.reversedInvoice
    Reachable code (anytime fun _ => True) Sample.db s ∧ ¬ Backed s.db := by
  refine ⟨Sample.reachable (by decide +kernel), fun hbacked => ?_⟩
  have hreversed : ∃ d ∈ Db.document (Sample.server Sample.reversedInvoice).db .salesInvoice 20,
      d.status = .posted ∧
      ∀ e ∈ d.journalEntryId.bind (Db.entry (Sample.server Sample.reversedInvoice).db),
        e.status = .reversed := by
    decide +kernel
  obtain ⟨d, hd, hposted, hreversed⟩ := hreversed
  have hbacks := hbacked.document hd
  rw [hposted] at hbacks
  obtain ⟨entryId, e, hentry, he, hstatus⟩ := hbacks
  have hmem := Option.mem_def.mpr (Option.bind_eq_some_iff.mpr ⟨entryId, hentry, he⟩)
  cases hstatus.symm.trans (hreversed e hmem)

end AccountingApi
