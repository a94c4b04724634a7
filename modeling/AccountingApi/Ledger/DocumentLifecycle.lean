import AccountingApi.Ledger.Posting

/-!
# Document lifecycle

What invoices, bills, payments and journal entries share: a draft is soft-deleted under the condition
that it still is a draft, and a posted document is reversed under the lock of its row.

## Main definitions

* `DocumentLifecycle.softDeleteDraft`
* `DocumentLifecycle.reverseWithGuard`
-/

namespace AccountingApi

open ReadCommitted

namespace DocumentLifecycle

/-- The soft deletion of one row that still is a draft; without such a row the request fails. -/
def softDeleteDraft (k : Key) (isDraft : Row k → Prop) [DecidablePred isDraft] (delete : Row k → Row k)
    (id : Uuid) (noun : String) : Program Unit :=
  let failure := .validationFailed ("Only a DRAFT " ++ noun ++ " can be deleted") [("id", .id id)]
  transaction do
    let db ← forUpdate k
    let v ← Prog.orThrow (db.row k) failure
    Prog.ensure (isDraft v) failure
    Prog.write k (delete v)

def softDeleteEntry (id deletedBy : Uuid) (now : Timestamp) : Program Unit :=
  softDeleteDraft (.entry id) (fun e => e.status = .draft ∧ e.deletedAt = none)
    (fun e => { e with deletedAt := some now, deletedBy := some deletedBy }) id "entry"

def softDeleteDocument (kind : DocumentKind) (noun : String) (id deletedBy : Uuid)
    (now : Timestamp) : Program Unit :=
  softDeleteDraft (.document kind id) (fun d => d.status = .draft ∧ d.deletedAt = none)
    (fun d => { d with deletedAt := some now, deletedBy := some deletedBy }) id noun

def softDeletePayment (id deletedBy : Uuid) (now : Timestamp) : Program Unit :=
  softDeleteDraft (.payment id) (fun p => p.status = .draft ∧ p.deletedAt = none)
    (fun p => { p with deletedAt := some now, deletedBy := some deletedBy }) id "payment"

/-- The reversal of a posted document's journal entry: the document's row is locked and still posted,
the document's own changes are made, and its entry is reversed, all in one transaction. -/
def reverseWithGuard {α : Type} (id journalEntryId reversedBy reversalId : Uuid) (now : Timestamp)
    (alreadyReversedMessage notPostedMessage : String) (lock : Program (Option α))
    (isPosted : α → Prop) [DecidablePred isPosted] (applyInTx : α → Program Unit) :
    Program Unit := do
  let prepared ← Posting.prepareReversal journalEntryId reversedBy none false
  mapUniqueViolation (.validationFailed alreadyReversedMessage [("id", .id id)])
    (transaction do
      let locked ← lock
      let notPosted := .validationFailed notPostedMessage [("id", .id id)]
      let doc ← Prog.orThrow locked notPosted
      Prog.ensure (isPosted doc) notPosted
      applyInTx doc
      let _ ← Posting.reverseInTx prepared reversalId now
      pure ())

end DocumentLifecycle

end AccountingApi
