import AccountingApi.Links

/-!
# Lifecycles

A row moves one way only: a draft is posted or deleted, what is posted ends once. Every document has at
most one journal entry and every entry at most one reversal, and a request that fails changes nothing.

## Main definitions

* `Stage`, `Stage.Next`: where a row is in its life, and where it can go
* `Moves`: what a commit does to the stages
* `Lifecycles`: what holds of a server at any time

## Main results

* `lifecycles_of_reachable`: the lifecycles in every reachable state
-/

namespace AccountingApi

open ReadCommitted Posting Relation

/-- Where a row is in its life. -/
inductive Stage where
  | draft | posted | ended | deleted
deriving DecidableEq

/-- A row stays where it is, or a draft is posted or deleted, or what is posted ends. -/
inductive Stage.Next : Stage → Stage → Prop
  | stay (s : Stage) : Next s s
  | post : Next .draft .posted
  | finish : Next .posted .ended
  | delete : Next .draft .deleted

/-- The stage of a journal entry; it ends when it is reversed. -/
def JournalEntry.stage (e : JournalEntry) : Stage :=
  if e.deletedAt ≠ none then .deleted
  else match e.status with
    | .draft => .draft
    | .posted => .posted
    | .reversed => .ended

def DocumentStatus.stage : DocumentStatus → Stage
  | .draft => .draft
  | .posted => .posted
  | .void => .ended

/-- The stage of an invoice or a bill; it ends when it is voided. -/
def Document.stage (d : Document) : Stage :=
  if d.deletedAt ≠ none then .deleted else d.status.stage

/-- The stage of a payment; it ends when it is voided. -/
def Payment.stage (p : Payment) : Stage :=
  if p.deletedAt ≠ none then .deleted else p.status.stage

/-! ## Steps -/

theorem EntryStep.stage {e e' : JournalEntry} (h : EntryStep e e') : e.stage.Next e'.stage := by
  cases h with
  | refl => exact .stay _
  | promote number ref fiscalYear periodId user now hdraft hlive =>
    simp only [JournalEntry.stage, Posting.promote, hdraft, hlive]
    exact .post
  | reverse r hnot hlive =>
    simp only [JournalEntry.stage, markReversed, hlive]
    cases hstatus : e.status with
    | draft => exact absurd hstatus hnot
    | posted => exact .finish
    | reversed => exact .stay _
  | delete now user hdraft hlive =>
    simp only [JournalEntry.stage, hdraft, hlive]
    exact .delete

theorem DocumentStep.stage {d d' : Document} (h : DocumentStep d d') : d.stage.Next d'.stage := by
  cases h with
  | refl => exact .stay _
  | edit => exact .stay _
  | post number ref fiscalYear entryId user now totals hdraft hlive =>
    simp only [Document.stage, TaxedDocument.finalizePosted, Document.withTotals, hdraft, hlive]
    exact .post
  | pay => exact .stay _
  | void hposted hlive =>
    simp only [Document.stage, TaxedDocument.markVoid, hposted, hlive]
    exact .finish
  | delete now user hdraft hlive =>
    simp only [Document.stage, hdraft, hlive]
    exact .delete

theorem PaymentStep.stage {p p' : Payment} (h : PaymentStep p p') : p.stage.Next p'.stage := by
  cases h with
  | refl => exact .stay _
  | post number ref fiscalYear entryId user now hdraft hlive =>
    simp only [Payment.stage, Payments.finalizePosted, hdraft, hlive]
    exact .post
  | void hposted hlive =>
    simp only [Payment.stage, Payments.markVoid, hposted, hlive]
    exact .finish
  | delete now user hdraft hlive =>
    simp only [Payment.stage, hdraft, hlive]
    exact .delete

/-! ## Commits -/

/-- A commit moves the rows one way, and creates invoices, bills and payments as drafts, journal
entries as drafts or posted. -/
structure Moves (c : Commit) : Prop where
  entry : ∀ id e, Db.entry c.before id = some e →
    ∃ e', Db.entry c.after id = some e' ∧ e.stage.Next e'.stage
  document : ∀ kind id d, Db.document c.before kind id = some d →
    ∃ d', Db.document c.after kind id = some d' ∧ d.stage.Next d'.stage
  payment : ∀ id p, Db.payment c.before id = some p →
    ∃ p', Db.payment c.after id = some p' ∧ p.stage.Next p'.stage
  newEntry : ∀ id e, Db.entry c.before id = none → Db.entry c.after id = some e →
    e.stage = .draft ∨ e.stage = .posted
  newDocument : ∀ kind id d, Db.document c.before kind id = none →
    Db.document c.after kind id = some d → d.stage = .draft
  newPayment : ∀ id p, Db.payment c.before id = none → Db.payment c.after id = some p →
    p.stage = .draft

theorem JournalEntry.IsNew.stage {e : JournalEntry} (h : e.IsNew) :
    e.stage = .draft ∨ e.stage = .posted := by
  simp only [JournalEntry.stage, h.live]
  cases hstatus : e.status with
  | draft => exact .inl rfl
  | posted => exact .inr rfl
  | reversed => exact absurd hstatus h.notReversed

theorem Transacts.moves {strict : Prop} {c : Commit} (h : Transacts strict c) : Moves c where
  entry := fun _ _ he => (h.entry_step he).imp fun _ => And.imp_right EntryStep.stage
  document := fun _ _ _ hd => (h.document_step hd).imp fun _ => And.imp_right DocumentStep.stage
  payment := fun _ _ hp => (h.payment_step hp).imp fun _ => And.imp_right PaymentStep.stage
  newEntry := by
    intro id e hb he
    rcases (h.entryNew hb he).isNew with hnew | ⟨t, -, rfl⟩
    · exact hnew.stage
    · rw [t.reversed.entry_eq]
      exact .inr rfl
  newDocument := by
    intro kind id d hb hd
    obtain ⟨input, totals, rfl, -⟩ := h.document_new hb hd
    rfl
  newPayment := by
    intro id p hb hp
    obtain ⟨dto, user, rfl, -⟩ := h.payment_new hb hp
    rfl

/-! ## In every reachable state -/

/-- Only drafts are deleted, and a deleted draft stays one. -/
structure OnlyDraftsDeleted (db : Db) : Prop where
  entry : ∀ id e, Db.entry db id = some e → e.deletedAt ≠ none → e.status = .draft
  document : ∀ kind id d, Db.document db kind id = some d → d.deletedAt ≠ none → d.status = .draft
  payment : ∀ id p, Db.payment db id = some p → p.deletedAt ≠ none → p.status = .draft

theorem Coherent.onlyDraftsDeleted {db : Db} (h : Coherent db) : OnlyDraftsDeleted db where
  entry := fun _ _ he hdel => by_contra fun hnot => hdel ((h.entry he).live hnot)
  document := fun _ _ _ hd hdel => by_contra fun hnot => hdel ((h.document hd).live hnot)
  payment := fun _ _ hp hdel => by_contra fun hnot => hdel ((h.payment hp).live hnot)

/-- A source that names a document names it in one entry at most. -/
def OneEntryPerDocument (db : Db) : Prop :=
  ∀ (source : JournalSourceType) (id entryId entryId' : Uuid) (e e' : JournalEntry),
    source.OfDocument → Db.entry db entryId = some e → Db.entry db entryId' = some e' →
    e.sourceType = source → e'.sourceType = source → e.sourceId = some id →
    e'.sourceId = some id → entryId = entryId'

/-- The entry `r` reverses the entry `o`. -/
def Reverses (db : Db) (r o : Uuid) : Prop :=
  ∃ e, Db.entry db r = some e ∧ e.reversalOfId = some o

/-- An entry is reversed if and only if exactly one entry reverses it, which it points to; none is
reversed twice. -/
structure ReversedOnce (db : Db) : Prop where
  status : ∀ o e, Db.entry db o = some e → (e.status = .reversed ↔ ∃! r, Reverses db r o)
  mark : ∀ o e r, Db.entry db o = some e → Reverses db r o → e.reversedById = some r
  once : ∀ o r r', Reverses db r o → Reverses db r' o → r = r'

theorem Reversible.reversedOnce {db : Db} (h : Reversible db) (hcoh : Coherent db) :
    ReversedOnce db := by
  have honce : ∀ o r r', Reverses db r o → Reverses db r' o → r = r' := by
    rintro o r r' ⟨e, he, ho⟩ ⟨e', he', ho'⟩
    exact h.unique he he' ho ho'
  refine ⟨fun o e he => ?_, ?_, honce⟩
  · rw [h.reversed_iff hcoh he]
    exact ⟨fun ⟨r, hr⟩ => ⟨r, hr, fun r' hr' => honce o r' r hr' hr⟩, fun ⟨r, hr, _⟩ => ⟨r, hr⟩⟩
  · rintro o e r he ⟨e', he', ho⟩
    obtain ⟨e₀, he₀, hr⟩ := h.original he' ho
    obtain rfl : e = e₀ := Option.some.inj (he ▸ he₀)
    exact hr

/-- What holds of a server at any time: every commit moves rows one way, every transition has happened
once, and the store is what the commits have written, of which a request that failed has none. An update
of a draft may fail afterwards, when it reads the document again. -/
structure Lifecycles (db₀ : Db) (s : Server) : Prop where
  moves : ∀ c ∈ s.history, Moves c
  deleted : OnlyDraftsDeleted s.db
  entries : OneEntryPerDocument s.db
  reversals : ReversedOnce s.db
  written : s.db = db₀.putAll (s.history.reverse.flatMap (·.writes))
  failed : ∀ (i : ℕ) (p : Proc Row LockName Query Failure Response Request) (e : Failure),
    s.procs[i]? = some p → p.phase = .failed e → p.req.edited = none → ∀ c ∈ s.history, c.pid ≠ i

/-- **Lifecycles are one-way and every transition happens once**, in every reachable state, whatever the
interleaving. -/
theorem lifecycles_of_reachable
    {policy : Policy Row LockName Query Failure Response Request} {db₀ : Db} {s : Server}
    (h₀ : Initial db₀) (h : Reachable code policy db₀ s) : Lifecycles db₀ s where
  moves := fun _ hc => (commit_of_reachable (fun _ => True) (I := fun _ => True) h
    (fun _ _ => trivial) trivial (fun _ _ _ _ _ => trivial) hc).1.moves
  deleted := (coherent_of_reachable h₀ h).onlyDraftsDeleted
  entries := by
    rintro source id entryId entryId' e e' hsource he he' rfl htype hid hid'
    exact (linked_of_reachable h₀ h).unique he he' hsource htype (hid'.trans hid.symm)
  reversals := (reversible_of_reachable h₀ h).reversedOnce (coherent_of_reachable h₀ h)
  written := (chain_of_reachable h).eq_putAll
  failed := by
    intro i p e hi hfailed hnot
    have hsound : s.Sound (protocol False) db₀ := sound_of_reachable h False.elim
    refine hsound.failed hi hfailed ?_
    rintro ⟨kind, id, dto, collation, hreq⟩
    rw [hreq] at hnot
    cases hnot

/-- Two requests that post the same invoice: the one that locks it last fails. -/
theorem lifecycles_of_reachable_race :
    Lifecycles Sample.db (Sample.server
      (Sample.request 0 (.createDocument .salesInvoice Sample.invoice 9 20 .ordinal) 9 ++
        [.spawn (.postDocument .salesInvoice 20 9 100 1 .ordinal),
          .spawn (.postDocument .salesInvoice 20 9 101 2 .ordinal)] ++
        List.replicate 10 (.step 1) ++ List.replicate 30 (.step 2) ++
        List.replicate 2 (.step 1))) :=
  lifecycles_of_reachable Sample.initial (Sample.reachable (by decide +kernel))

end AccountingApi
