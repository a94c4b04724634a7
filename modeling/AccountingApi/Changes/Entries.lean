import AccountingApi.Changes.Pieces

/-!
# What a commit changes: journal entries

The journal entries change in a few ways only, whatever else the commit does.

## Main definitions

* `EntryStep`: how one commit changes an entry
* `EntryNext`: the same, with the transaction that does it
* `EntryNew`: how an entry comes into being

## Main results

* `Transacts.entryChange`: the entries a commit writes
* `Transacts.entryNext`, `entry_step`: what becomes of an entry
* `Transacts.entryNew`: how entries come into being
-/

namespace AccountingApi

open ReadCommitted Posting

/-! ## Steps -/

/-- How a commit changes a journal entry. -/
inductive EntryStep : JournalEntry → JournalEntry → Prop
  | refl (e : JournalEntry) : EntryStep e e
  | promote {e : JournalEntry} (number : ℕ) (ref : String) (fiscalYear : ℤ) (periodId user : Uuid)
      (now : Timestamp) : e.status = .draft → e.deletedAt = none →
      EntryStep e (promote number ref fiscalYear periodId user now e)
  | reverse {e : JournalEntry} (reversalId : Uuid) : e.status ≠ .draft → e.deletedAt = none →
      EntryStep e (markReversed reversalId e)
  | delete {e : JournalEntry} (now : Timestamp) (user : Uuid) : e.status = .draft →
      e.deletedAt = none → EntryStep e { e with deletedAt := some now, deletedBy := some user }

/-! ## Journal entries -/

/-- The source of the entries of invoices, bills and payments. -/
def JournalSourceType.OfDocument : JournalSourceType → Prop
  | .salesInvoice | .purchaseBill | .payment => True
  | _ => False

theorem DocumentKind.ofDocument (kind : DocumentKind) : kind.descriptor.sourceType.OfDocument := by
  cases kind <;> trivial

/-- An entry as it comes into being: a draft, or posted with a number. -/
structure JournalEntry.IsNew (e : JournalEntry) : Prop where
  live : e.deletedAt = none
  reversesNothing : e.reversalOfId = none
  notReversed : e.status ≠ .reversed
  unmarked : e.reversedById = none
  numbered : e.status = .draft ∨ e.fiscalYear ≠ none ∧ e.entryNumber ≠ none
  posted : e.status = .draft ↔ e.postedAt = none
  valid : e.Valid

/-- The journal entry a request reverses as such. -/
def Request.reversed : Request → Option Uuid
  | .reverseEntry id _ _ _ => some id
  | _ => none

/-- Why a commit reverses an entry. -/
inductive Reverser (strict : Prop) (c : Commit) : Uuid → Prop
  | voidDocument (t : VoidsDocument strict c) : Reverser strict c t.journalEntryId
  | voidPayment (t : VoidsPayment strict c) : Reverser strict c t.journalEntryId
  | reopenYear (t : ReopensYear strict c) : Reverser strict c t.closingEntryId
  | request (id : Uuid) : c.req.reversed = some id → Reverser strict c id

/-- A commit that reverses a journal entry. -/
structure ReversesEntry (strict : Prop) (c : Commit) where
  p : PreparedReversal
  id : Uuid
  now : Timestamp
  n : ℕ
  wn : List (Write Row)
  (o rev : JournalEntry)
  reversed : Reversed strict c p id now n wn o rev
  dated : p.reversalDate = p.original.date
  reverser : Reverser strict c p.originalId
  writes : entries.writes c.writes = [(id, rev), (p.originalId, markReversed id o)]

/-- The entries a commit writes. -/
inductive EntryChange (strict : Prop) (c : Commit) : List (Uuid × JournalEntry) → Prop
  | none : EntryChange strict c []
  | ofDocument (t : PostsDocument strict c) : EntryChange strict c [(t.entryId, t.entry)]
  | ofPayment (t : PostsPayment strict c) : EntryChange strict c [(t.entryId, t.entry)]
  | new (id : Uuid) (e : JournalEntry) : Db.entry c.before id = none → e.IsNew →
      ¬ e.sourceType.OfDocument → (e.status ≠ .draft → Vetted c e.lines) →
      EntryChange strict c [(id, e)]
  | step (id : Uuid) (e e' : JournalEntry) : Db.entry c.before id = some e → EntryStep e e' →
      e'.status ≠ .reversed → (e'.status ≠ .draft → Vetted c e.lines) →
      EntryChange strict c [(id, e')]
  | reverse (t : ReversesEntry strict c) :
      EntryChange strict c [(t.id, t.rev), (t.p.originalId, markReversed t.id t.o)]

section Created

variable {strict : Prop} {c : Commit} {p : PreparedPosting} {id : Uuid} {now : Timestamp} {n : ℕ}
  {wn : List (Write Row)} {entry : JournalEntry}

theorem Created.isNew (h : Created strict c p id now n wn entry) : entry.IsNew := by
  have hvalid := h.valid
  rw [h.entry_eq] at hvalid ⊢
  exact ⟨rfl, rfl, nofun, rfl, .inr ⟨nofun, nofun⟩, ⟨nofun, nofun⟩, hvalid⟩

/-- The entry carries the input it was prepared from. -/
theorem Created.eq_postedEntry {input : PostEntryInput} {user : Uuid}
    (h : Created strict c p id now n wn entry) (hp : Prepared c input user p) :
    entry = postedEntry ⟨input, user, p.periodId, p.fiscalYear⟩ n
      (buildEntryRef p.fiscalYear n) now := by
  rw [h.entry_eq, ← hp.input_eq, ← hp.postedBy_eq]

/-- The lines of the entry are those the preparation has checked. -/
theorem Created.vetted {input : PostEntryInput} {user : Uuid}
    (h : Created strict c p id now n wn entry) (hp : Prepared c input user p) :
    Vetted c entry.lines := by
  rw [h.eq_postedEntry hp]
  change Vetted c (toJournalLines input.lines)
  have hsides : (draftLines (toJournalLines input.lines)).map
      (fun l => (l.debitOrZero, l.creditOrZero)) =
        input.lines.map fun l => (l.debitOrZero, l.creditOrZero) := by
    rw [draftLines, List.map_map]
    exact map_toJournalLines (fun _ _ => rfl) input.lines
  have hids : (draftLines (toJournalLines input.lines)).map (·.accountId) =
      input.lines.map (·.accountId) := by
    rw [draftLines, List.map_map]
    exact map_toJournalLines (fun _ _ => rfl) input.lines
  refine ⟨(assertBalanced_congr hsides).trans hp.balanced, ?_⟩
  unfold PostableAccounts
  rw [hids]
  exact hp.accounts

/-- The entry a preparation leads to, of an input that belongs to no document. -/
theorem Created.entryChange {input : PostEntryInput} {user : Uuid}
    (h : Created strict c p id now n wn entry) (hp : Prepared c input user p)
    (hsource : ¬ input.sourceType.OfDocument) : EntryChange strict c [(id, entry)] := by
  refine .new id entry h.fresh h.isNew ?_ fun _ => h.vetted hp
  rw [h.eq_postedEntry hp]
  exact hsource

end Created

section Writes

variable {strict : Prop} {c : Commit}

theorem PostsDocument.writes_entries (t : PostsDocument strict c) :
    entries.writes c.writes = [(t.entryId, t.entry)] := by
  rw [t.writes, Table.writes_append, Table.writes_append, t.ticket.entries,
    t.created.stamp.ticket.entries]
  rfl

theorem PostsDocument.writes_documents (t : PostsDocument strict c) :
    documents.writes c.writes = [((t.kind, t.id), t.doc)] := by
  rw [t.writes, Table.writes_append, Table.writes_append, t.ticket.documents,
    t.created.stamp.ticket.documents]
  rfl

theorem PostsPayment.writes_entries (t : PostsPayment strict c) :
    entries.writes c.writes = [(t.entryId, t.entry)] := by
  rw [t.writes, Table.writes_append, Table.writes_append, Table.writes_append, t.settled.entries,
    t.ticket.entries, t.created.stamp.ticket.entries]
  rfl

theorem PostsPayment.writes_documents (t : PostsPayment strict c) :
    documents.writes c.writes = documents.writes t.wd := by
  rw [t.writes, Table.writes_append, Table.writes_append, Table.writes_append, t.ticket.documents,
    t.created.stamp.ticket.documents, List.append_nil, List.append_nil]
  exact List.append_nil _

/-- The row of a payment once it is posted. -/
def PostsPayment.posted (t : PostsPayment strict c) : Payment :=
  Payments.finalizePosted t.n
    (buildDocRef t.pay.direction.target.documentType.code t.p.fiscalYear t.n) t.p.fiscalYear
    t.entryId t.user t.now t.pay

theorem PostsPayment.writes_payments (t : PostsPayment strict c) :
    payments.writes c.writes = [(t.id, t.posted)] := by
  rw [t.writes, Table.writes_append, Table.writes_append, Table.writes_append, t.settled.payments,
    t.ticket.payments, t.created.stamp.ticket.payments]
  rfl

theorem VoidsDocument.writes_entries (t : VoidsDocument strict c) :
    entries.writes c.writes = [(t.entryId, t.rev), (t.p.originalId, markReversed t.entryId t.o)] := by
  rw [t.writes]
  exact t.reversed.writes_entries

theorem VoidsPayment.writes_entries (t : VoidsPayment strict c) :
    entries.writes c.writes = [(t.entryId, t.rev), (t.p.originalId, markReversed t.entryId t.o)] := by
  rw [t.writes, Table.writes_append, t.unwound.entries]
  exact t.reversed.writes_entries

theorem ReopensYear.writes_entries (t : ReopensYear strict c) :
    entries.writes c.writes = [(t.entryId, t.rev), (t.p.originalId, markReversed t.entryId t.o)] := by
  rw [t.writes, Table.writes_append, t.reversed.writes_entries]
  rfl

/-- The reversal of a voided document's entry. -/
def VoidsDocument.reversesEntry (t : VoidsDocument strict c) : ReversesEntry strict c :=
  ⟨t.p, t.entryId, t.now, t.m, t.wm, t.o, t.rev, t.reversed,
    t.prepared.date_eq, t.prepared.originalId_eq.symm ▸ .voidDocument t, t.writes_entries⟩

/-- The reversal of a voided payment's entry. -/
def VoidsPayment.reversesEntry (t : VoidsPayment strict c) : ReversesEntry strict c :=
  ⟨t.p, t.entryId, t.now, t.m, t.wm, t.o, t.rev, t.reversed,
    t.prepared.date_eq, t.prepared.originalId_eq.symm ▸ .voidPayment t, t.writes_entries⟩

/-- The reversal of a closing entry. -/
def ReopensYear.reversesEntry (t : ReopensYear strict c) : ReversesEntry strict c :=
  ⟨t.p, t.entryId, t.now, t.m, t.wm, t.o, t.rev, t.reversed,
    t.prepared.date_eq, t.prepared.originalId_eq.symm ▸ .reopenYear t, t.writes_entries⟩

theorem VoidsDocument.writes_documents (t : VoidsDocument strict c) :
    documents.writes c.writes = [((t.kind, t.id), TaxedDocument.markVoid t.d)] := by
  rw [t.writes, Table.writes_cons, t.reversed.writes_documents]
  rfl

theorem VoidsPayment.writes_documents (t : VoidsPayment strict c) :
    documents.writes c.writes = documents.writes t.wd := by
  rw [t.writes, Table.writes_append, Table.writes_cons, t.reversed.writes_documents]
  exact List.append_nil _

theorem VoidsPayment.writes_payments (t : VoidsPayment strict c) :
    payments.writes c.writes = [(t.id, Payments.markVoid t.pay)] := by
  rw [t.writes, Table.writes_append, Table.writes_cons, t.unwound.payments,
    t.reversed.writes_payments]
  rfl

end Writes

/-- **The entries a commit writes.** -/
theorem Transacts.entryChange {strict : Prop} {c : Commit} (h : Transacts strict c) :
    EntryChange strict c (entries.writes c.writes) := by
  cases h
  case createDocument writes =>
    rw [writes]
    exact .none
  case updateDocument writes =>
    rw [writes]
    exact .none
  case postDocument t =>
    rw [t.writes_entries]
    exact .ofDocument t
  case voidDocument t =>
    rw [t.writes_entries]
    exact .reverse t.reversesEntry
  case deleteDocument writes =>
    rw [writes]
    exact .none
  case createPayment writes =>
    rw [writes]
    exact .none
  case postPayment t =>
    rw [t.writes_entries]
    exact .ofPayment t
  case voidPayment t =>
    rw [t.writes_entries]
    exact .reverse t.reversesEntry
  case deletePayment writes =>
    rw [writes]
    exact .none
  case createEntry row valid fresh writes =>
    rw [writes]
    rw [row] at valid ⊢
    exact .new _ _ fresh
      ⟨rfl, rfl, nofun, rfl, .inl rfl, ⟨fun _ => rfl, fun _ => rfl⟩, valid⟩ id
      fun hnot => absurd rfl hnot
  case createAndPostEntry prepared created writes =>
    rw [writes, Table.writes_append, created.stamp.ticket.entries]
    exact created.entryChange prepared id
  case postEntry current live draft balanced accounts _ _ stamp writes =>
    rw [writes, Table.writes_append, stamp.ticket.entries]
    exact .step _ _ _ current (.promote _ _ _ _ _ _ draft live) (by simp [promote])
      fun _ => ⟨balanced, accounts⟩
  case reverseEntry id _ _ _ p _ _ _ _ req prepared reversed writes =>
    have hwrites := reversed.writes_entries
    rw [← writes] at hwrites
    have hreverser : Reverser strict c p.originalId :=
      .request _ (by rw [req, prepared.originalId_eq]; rfl)
    rw [hwrites]
    exact .reverse ⟨_, _, _, _, _, _, _, reversed, prepared.date_eq, hreverser, hwrites⟩
  case deleteEntry current draft live writes =>
    rw [writes]
    exact .step _ _ _ current (.delete _ _ draft live) (by simp [draft])
      fun hnot => absurd draft hnot
  case postOpeningBalances prepared created writes =>
    rw [writes, Table.writes_append, created.stamp.ticket.entries]
    exact created.entryChange prepared id
  case closeYear t =>
    rw [t.writes, Table.writes_append, t.created.stamp.ticket.entries]
    exact t.created.entryChange t.prepared id
  case closeEmptyYear writes =>
    rw [writes]
    exact .none
  case reopenYear t =>
    rw [t.writes_entries]
    exact .reverse t.reversesEntry
  case reopenEmptyYear writes =>
    rw [writes]
    exact .none
  case updateTaxCode writes =>
    rw [writes]
    exact .none
  case account writes =>
    rw [writes]
    exact .none
  case updateCompany writes =>
    rw [writes]
    exact .none
  case periods change writes =>
    rw [writes, change.writes_entries]
    exact .none

section Entries

variable {strict : Prop} {c : Commit} {id : Uuid} {e : JournalEntry}

theorem ReversesEntry.after_reversal (t : ReversesEntry strict c) :
    Db.entry c.after t.id = some t.rev := by
  have hne : t.p.originalId ≠ t.id := by
    intro hid
    have horig := t.reversed.original
    rw [hid, t.reversed.fresh] at horig
    cases horig
  rw [entry_after, t.writes, overwrite_cons, if_pos rfl, overwrite_cons, if_neg hne, overwrite_nil]

theorem ReversesEntry.after_original (t : ReversesEntry strict c) :
    Db.entry c.after t.p.originalId = some (markReversed t.id t.o) := by
  rw [entry_after, t.writes, overwrite_cons, overwrite_cons, if_pos rfl, overwrite_nil]

/-- What becomes of a journal entry: it is reversed, or takes a step that keeps the mark of its
reversal. -/
inductive EntryNext (strict : Prop) (c : Commit) (id : Uuid) (e : JournalEntry) :
    JournalEntry → Prop
  | reverse (t : ReversesEntry strict c) : t.p.originalId = id → t.o = e →
      EntryNext strict c id e (markReversed t.id e)
  | step {e' : JournalEntry} : EntryStep e e' → e'.reversedById = e.reversedById →
      (e.status = .draft → e'.status ≠ .draft → Vetted c e.lines) → EntryNext strict c id e e'

theorem Transacts.entryNext (h : Transacts strict c) (he : Db.entry c.before id = some e) :
    ∃ e', Db.entry c.after id = some e' ∧ EntryNext strict c id e e' := by
  have hsame : EntryNext strict c id e e :=
    .step (.refl e) rfl fun hdraft hnot => absurd hdraft hnot
  -- a row that comes into being is another one
  have hnew : ∀ id', Db.entry c.before id' = none → id' ≠ id := by
    rintro id' fresh rfl
    rw [he] at fresh
    cases fresh
  rw [entry_after, he]
  have hchange := h.entryChange
  generalize entries.writes c.writes = ws at hchange ⊢
  cases hchange with
  | none => exact ⟨e, rfl, hsame⟩
  | ofDocument t =>
    exact ⟨e, by rw [overwrite_cons, if_neg (hnew _ t.created.fresh), overwrite_nil], hsame⟩
  | ofPayment t =>
    exact ⟨e, by rw [overwrite_cons, if_neg (hnew _ t.created.fresh), overwrite_nil], hsame⟩
  | new id' e' fresh =>
    exact ⟨e, by rw [overwrite_cons, if_neg (hnew _ fresh), overwrite_nil], hsame⟩
  | step id' e₀ e' current hstep hnot hvetted =>
    by_cases hid : id' = id
    · subst hid
      obtain rfl : e = e₀ := Option.some.inj (he ▸ current)
      refine ⟨e', by rw [overwrite_cons, if_pos rfl, overwrite_nil],
        .step hstep ?_ fun _ => hvetted⟩
      cases hstep with
      | refl => rfl
      | promote => rfl
      | reverse => exact absurd rfl hnot
      | delete => rfl
    · exact ⟨e, by rw [overwrite_cons, if_neg hid, overwrite_nil], hsame⟩
  | reverse t =>
    rw [overwrite_cons, if_neg (hnew _ t.reversed.fresh), overwrite_cons, overwrite_nil]
    by_cases hid : t.p.originalId = id
    · have ho : t.o = e := by
        have horig := t.reversed.original
        rw [hid, he] at horig
        exact (Option.some.inj horig).symm
      exact ⟨_, if_pos hid, ho ▸ .reverse t hid rfl⟩
    · exact ⟨e, if_neg hid, hsame⟩

theorem EntryNext.entryStep {e' : JournalEntry} (h : EntryNext strict c id e e') :
    EntryStep e e' := by
  cases h with
  | reverse t hid ho =>
    subst ho
    exact .reverse t.id t.reversed.notDraft t.reversed.live
  | step hstep => exact hstep

/-- Each row of the entries takes a step. -/
theorem Transacts.entry_step (h : Transacts strict c) (he : Db.entry c.before id = some e) :
    ∃ e', Db.entry c.after id = some e' ∧ EntryStep e e' :=
  (h.entryNext he).imp fun _ => And.imp_right EntryNext.entryStep

/-- How a journal entry comes into being. -/
inductive EntryNew (strict : Prop) (c : Commit) (id : Uuid) : JournalEntry → Prop
  | ofDocument (t : PostsDocument strict c) : t.entryId = id → EntryNew strict c id t.entry
  | ofPayment (t : PostsPayment strict c) : t.entryId = id → EntryNew strict c id t.entry
  | other {e : JournalEntry} : e.IsNew → ¬ e.sourceType.OfDocument →
      (e.status ≠ .draft → Vetted c e.lines) → EntryNew strict c id e
  | reversal (t : ReversesEntry strict c) : t.id = id → EntryNew strict c id t.rev

/-- A journal entry that was not there before the commit. -/
theorem Transacts.entryNew (h : Transacts strict c) (hb : Db.entry c.before id = none)
    (he : Db.entry c.after id = some e) : EntryNew strict c id e := by
  rw [entry_after, hb] at he
  have hchange := h.entryChange
  generalize entries.writes c.writes = ws at hchange he
  cases hchange with
  | none => cases he
  | ofDocument t =>
    rw [overwrite_cons, overwrite_nil] at he
    split at he <;> cases he
    exact .ofDocument t ‹_›
  | ofPayment t =>
    rw [overwrite_cons, overwrite_nil] at he
    split at he <;> cases he
    exact .ofPayment t ‹_›
  | new id' e' fresh hnew hsource hvetted =>
    rw [overwrite_cons, overwrite_nil] at he
    split at he <;> cases he
    exact .other hnew hsource hvetted
  | step id' e₀ e' current hstep =>
    rw [overwrite_cons, overwrite_nil] at he
    split at he
    · subst_vars
      rw [hb] at current
      cases current
    · cases he
  | reverse t =>
    rw [overwrite_cons, overwrite_cons, overwrite_nil] at he
    split at he
    · rename_i hid
      have horig := t.reversed.original
      rw [show t.p.originalId = id from hid, hb] at horig
      cases horig
    · split at he <;> cases he
      exact .reversal t ‹_›

/-- A new entry that is no draft is a reversal, or its lines have been checked. -/
theorem EntryNew.vetted (h : EntryNew strict c id e) (hnot : e.status ≠ .draft) :
    Vetted c e.lines ∨ ∃ t : ReversesEntry strict c, t.id = id ∧ t.rev = e := by
  cases h with
  | ofDocument t => exact .inl (t.created.vetted t.prepared)
  | ofPayment t => exact .inl (t.created.vetted t.prepared)
  | other _ _ hvetted => exact .inl (hvetted hnot)
  | reversal t hid => exact .inr ⟨t, hid, rfl⟩

/-- A new entry that is no reversal. -/
theorem EntryNew.isNew (h : EntryNew strict c id e) :
    e.IsNew ∨ ∃ t : ReversesEntry strict c, t.id = id ∧ t.rev = e := by
  cases h with
  | ofDocument t => exact .inl t.created.isNew
  | ofPayment t => exact .inl t.created.isNew
  | other hnew => exact .inl hnew
  | reversal t hid => exact .inr ⟨t, hid, rfl⟩

end Entries

end AccountingApi
