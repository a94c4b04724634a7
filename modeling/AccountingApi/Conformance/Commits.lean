import AccountingApi.Api
import AccountingApi.ReadCommitted.Serial

/-!
# Every request commits once at most

A request reads, runs one transaction, and may read again. So where requests come in one at a time, a
request sees one store until it commits.

## Main results

* `commitsOnce_code`: every request commits one transaction at most
-/

namespace AccountingApi

open ReadCommitted Prog

/-! ## Statements -/

section Statements

variable {n : ℕ}

theorem silent_select (q : Query) : (select q).CommitsAtMost n := fun _ => trivial

theorem silent_forUpdate (k : Key) : (forUpdate k).CommitsAtMost n := fun _ => trivial

theorem silent_forShare (k : Key) : (forShare k).CommitsAtMost n := fun _ => trivial

theorem silent_lockName (a : LockName) (m : Mode) : (lockName a m).CommitsAtMost n :=
  fun _ => trivial

theorem silent_write (k : Key) (v : Row k) :
    (Prog.write k v : Program Unit).CommitsAtMost n := trivial

theorem silent_pure {α : Type} (a : α) : (pure a : Program α).CommitsAtMost n := trivial

theorem silent_insert (k : Key) (v : Row k) (valid : Prop) [Decidable valid] :
    (insert k v valid).CommitsAtMost 0 := by
  refine .bind_left (silent_forUpdate k) fun _ => ?_
  refine .bind_left (commitsAtMost_ensure _ _) fun _ => ?_
  exact .bind_left (commitsAtMost_ensure _ _) fun _ => silent_write k v

theorem silent_updateRow (k : Key) (live : Row k → Prop) [DecidablePred live] (f : Row k → Row k)
    (valid : Row k → Prop) [DecidablePred valid] : (updateRow k live f valid).CommitsAtMost 0 := by
  refine .bind_left (silent_forUpdate k) fun _ => ?_
  refine .bind_left (commitsAtMost_orThrow _ _) fun v => ?_
  refine .bind_left (commitsAtMost_ensure _ _) fun _ => ?_
  refine .bind_left (commitsAtMost_ensure _ _) fun _ => ?_
  exact .bind_left (silent_write k (f v)) fun _ => silent_pure _

theorem silent_nextSequenceNumber (s : Sequence) : (nextSequenceNumber s).CommitsAtMost 0 := by
  refine .bind_left (silent_forUpdate _) fun _ => ?_
  refine .bind_left (commitsAtMost_when (silent_write _ _)) fun _ => ?_
  refine .bind_left (silent_forUpdate _) fun _ => ?_
  refine .bind_left (commitsAtMost_orThrow _ _) fun _ => ?_
  exact .bind_left (silent_write _ _) fun _ => silent_pure _

/-- A transaction is one commit. -/
theorem commitsOnce_transaction {α : Type} {body : Program α} (h : body.CommitsAtMost 0) :
    (transaction body).CommitsAtMost 1 :=
  .bind_left h fun _ => trivial

theorem commitsOnce_respond {α : Type} {f : α → Response} {p : Program α}
    (h : p.CommitsAtMost 1) : (respond f p).CommitsAtMost 1 :=
  .bind_right h fun _ => trivial

end Statements

/-! ## Posting -/

section Posting

open Posting

theorem silent_findOpenPeriodForDate (date : Instant) :
    (Periods.findOpenPeriodForDate date).CommitsAtMost 0 :=
  .bind_left (silent_select _) fun _ => silent_pure _

theorem silent_companyGet : Company.get.CommitsAtMost 0 :=
  .bind_left (silent_select _) fun _ => commitsAtMost_orThrow _ _

theorem silent_fiscalYearFor (date : UtcDay) : (Company.fiscalYearFor date).CommitsAtMost 0 :=
  .bind_left silent_companyGet fun _ => silent_pure _

theorem silent_fiscalYearBounds (fiscalYear : ℤ) :
    (Company.fiscalYearBounds fiscalYear).CommitsAtMost 0 :=
  .bind_left silent_companyGet fun _ => silent_pure _

theorem silent_isSegregationViolation (sourceType : JournalSourceType) (createdBy postedBy : Uuid) :
    (Company.isSegregationViolation sourceType createdBy postedBy).CommitsAtMost 0 :=
  .bind_left silent_companyGet fun _ => silent_pure _

theorem silent_assertPostableAccounts (lines : List PostLineInput) :
    (assertPostableAccounts lines).CommitsAtMost 0 :=
  .bind_left (silent_select _) fun _ => commitsAtMost_ofExcept _

theorem silent_assertPostableDate (date : UtcDay) :
    (assertPostableDate date).CommitsAtMost 0 := by
  refine .bind_left (silent_findOpenPeriodForDate _) fun _ => ?_
  refine .bind_left (commitsAtMost_orThrow _ _) fun _ => ?_
  refine .bind_left (silent_fiscalYearFor date) fun _ => ?_
  refine .bind_left (silent_select _) fun _ => ?_
  exact .bind_left (commitsAtMost_ensure _ _) fun _ => silent_pure _

theorem silent_preparePosting (input : PostEntryInput) (postedBy : Uuid) :
    (preparePosting input postedBy).CommitsAtMost 0 := by
  refine .bind_left (commitsAtMost_ofExcept _) fun _ => ?_
  refine .bind_left (silent_isSegregationViolation _ _ _) fun _ => ?_
  refine .bind_left (commitsAtMost_ensure _ _) fun _ => ?_
  refine .bind_left (silent_assertPostableDate _) fun _ => ?_
  exact .bind_left (silent_assertPostableAccounts _) fun _ => silent_pure _

theorem silent_stampPostedInTx (periodId : Uuid) (fiscalYear : ℤ) (allowClosedYear : Bool) :
    (stampPostedInTx periodId fiscalYear allowClosedYear).CommitsAtMost 0 := by
  refine .bind_left ?_ fun _ => .bind_left (silent_nextSequenceNumber _) fun _ => silent_pure _
  refine .bind_left (commitsAtMost_when ?_) fun _ => ?_
  · refine .bind_left (silent_lockName _ _) fun _ => ?_
    exact .bind_left (silent_select _) fun _ => commitsAtMost_ensure _ _
  · exact .bind_left (silent_forShare _) fun _ => commitsAtMost_ensure _ _

theorem silent_createPostedEntryInTx (prepared : PreparedPosting) (id : Uuid) (now : Timestamp) :
    (createPostedEntryInTx prepared id now).CommitsAtMost 0 := by
  refine .bind_left (silent_stampPostedInTx _ _ _) fun _ => ?_
  exact .bind_left (silent_insert _ _ _) fun _ => silent_pure _

theorem commitsOnce_post (input : PostEntryInput) (postedBy id : Uuid) (now : Timestamp) :
    (post input postedBy id now).CommitsAtMost 1 :=
  .bind_left (silent_preparePosting _ _) fun _ =>
    commitsOnce_transaction (silent_createPostedEntryInTx _ _ _)

theorem silent_prepareReversal (entryId reversedBy : Uuid) (date : Option UtcDay)
    (allowClosedYear : Bool) :
    (prepareReversal entryId reversedBy date allowClosedYear).CommitsAtMost 0 := by
  refine .bind_left (silent_select _) fun _ => ?_
  refine .bind_left (commitsAtMost_orThrow _ _) fun _ => ?_
  refine .bind_left (commitsAtMost_ensure _ _) fun _ => ?_
  refine .bind_left (silent_findOpenPeriodForDate _) fun _ => ?_
  refine .bind_left (commitsAtMost_orThrow _ _) fun _ => ?_
  refine .bind_left (silent_fiscalYearFor _) fun _ => ?_
  refine .bind_left (commitsAtMost_when ?_) fun _ => silent_pure _
  exact .bind_left (silent_select _) fun _ => commitsAtMost_ensure _ _

theorem silent_reverseInTx (prepared : PreparedReversal) (id : Uuid) (now : Timestamp) :
    (reverseInTx prepared id now).CommitsAtMost 0 := by
  refine .bind_left (silent_stampPostedInTx _ _ _) fun _ => ?_
  refine .bind_left (silent_lockName _ _) fun _ => ?_
  refine .bind_left (commitsAtMost_ensure _ _) fun _ => ?_
  refine .bind_left (silent_insert _ _ _) fun _ => ?_
  exact .bind_left (silent_updateRow _ _ _ _) fun _ => silent_pure _

theorem commitsOnce_reverse (entryId reversedBy id : Uuid) (now : Timestamp) :
    (reverse entryId reversedBy id now).CommitsAtMost 1 :=
  .bind_left (silent_prepareReversal _ _ _ _) fun _ =>
    .mapThrow (commitsOnce_transaction (silent_reverseInTx _ _ _))

theorem commitsOnce_postDraft (draftId postedBy : Uuid) (now : Timestamp) :
    (postDraft draftId postedBy now).CommitsAtMost 1 := by
  refine .bind_left (silent_select _) fun _ => ?_
  refine .bind_left (commitsAtMost_orThrow _ _) fun _ => ?_
  refine .bind_left (commitsAtMost_ensure _ _) fun _ => ?_
  refine .bind_left (commitsAtMost_ofExcept _) fun _ => ?_
  refine .bind_left (silent_isSegregationViolation _ _ _) fun _ => ?_
  refine .bind_left (commitsAtMost_ensure _ _) fun _ => ?_
  refine .bind_left (silent_findOpenPeriodForDate _) fun _ => ?_
  refine .bind_left (commitsAtMost_orThrow _ _) fun _ => ?_
  refine .bind_left (silent_assertPostableAccounts _) fun _ => ?_
  refine .bind_left (silent_fiscalYearFor _) fun _ => ?_
  refine .bind_left (silent_select _) fun _ => ?_
  refine .bind_left (commitsAtMost_ensure _ _) fun _ => commitsOnce_transaction ?_
  refine .bind_left (silent_forUpdate _) fun _ => ?_
  refine .bind_left (commitsAtMost_ensure _ _) fun _ => ?_
  exact .bind_left (silent_stampPostedInTx _ _ _) fun _ => silent_updateRow _ _ _ _

end Posting

/-! ## Documents and payments -/

section Documents

theorem commitsOnce_softDeleteDraft (k : Key) (isDraft : Row k → Prop) [DecidablePred isDraft]
    (delete : Row k → Row k) (id : Uuid) (noun : String) :
    (DocumentLifecycle.softDeleteDraft k isDraft delete id noun).CommitsAtMost 1 := by
  refine commitsOnce_transaction (.bind_left (silent_forUpdate _) fun _ => ?_)
  refine .bind_left (commitsAtMost_orThrow _ _) fun _ => ?_
  exact .bind_left (commitsAtMost_ensure _ _) fun _ => silent_write _ _

theorem commitsOnce_reverseWithGuard {α : Type} (id journalEntryId reversedBy reversalId : Uuid)
    (now : Timestamp) (alreadyReversedMessage notPostedMessage : String)
    {lock : Program (Option α)} (isPosted : α → Prop) [DecidablePred isPosted]
    {applyInTx : α → Program Unit} (hlock : lock.CommitsAtMost 0)
    (happly : ∀ a, (applyInTx a).CommitsAtMost 0) :
    (DocumentLifecycle.reverseWithGuard id journalEntryId reversedBy reversalId now
      alreadyReversedMessage notPostedMessage lock isPosted applyInTx).CommitsAtMost 1 := by
  refine .bind_left (silent_prepareReversal _ _ _ _) fun _ => .mapThrow ?_
  refine commitsOnce_transaction (.bind_left hlock fun _ => ?_)
  refine .bind_left (commitsAtMost_orThrow _ _) fun a => ?_
  refine .bind_left (commitsAtMost_ensure _ _) fun _ => ?_
  refine .bind_left (happly a) fun _ => ?_
  exact .bind_left (silent_reverseInTx _ _ _) fun _ => silent_pure _

theorem silent_findControlAccountId (role : AccountRole) :
    (findControlAccountId role).CommitsAtMost 0 := by
  refine .bind_left (silent_select _) fun _ => ?_
  exact .bind_left (commitsAtMost_orThrow _ _) fun _ => silent_pure _

theorem silent_findPartner (id : Uuid) : (findPartner id).CommitsAtMost 0 :=
  .bind_left (silent_select _) fun _ => commitsAtMost_orThrow _ _

theorem silent_calculateNow (collation : Collation) (input : TaxableTransaction) :
    (TaxService.calculateNow collation input).CommitsAtMost 0 := by
  refine .bind_left (commitsAtMost_ofExcept _) fun _ => ?_
  exact .bind_left (silent_select _) fun _ => commitsAtMost_ofExcept _

theorem silent_computeTotals (collation : Collation) (nature : TaxNature)
    (settlementAccountId : Uuid) (lines : List TaxableLineInput) :
    (computeTotals collation nature settlementAccountId lines).CommitsAtMost 0 :=
  .bind_left (silent_calculateNow _ _) fun _ => silent_pure _

theorem silent_documentById (kind : DocumentKind) (id : Uuid) :
    (TaxedDocument.getById kind id).CommitsAtMost 0 := by
  refine .bind_left (silent_select _) fun _ => ?_
  refine .bind_left (commitsAtMost_orThrow _ _) fun _ => ?_
  exact .bind_left (silent_select _) fun _ => silent_pure _

theorem silent_assertPartner (kind : DocumentKind) (partnerId : Uuid) :
    (TaxedDocument.assertPartner kind partnerId).CommitsAtMost 0 :=
  .bind_left (silent_findPartner _) fun _ => commitsAtMost_ensure _ _

theorem commitsOnce_createDocument (kind : DocumentKind) (input : TaxedDocument.CreateInput)
    (id : Uuid) (collation : Collation) :
    (TaxedDocument.createDraft kind input id collation).CommitsAtMost 1 := by
  refine .bind_left (silent_assertPartner _ _) fun _ => ?_
  refine .bind_left (silent_findControlAccountId _) fun _ => ?_
  refine .bind_left (silent_computeTotals _ _ _ _) fun _ => ?_
  refine .bind_right (commitsOnce_transaction ?_) fun _ => silent_pure _
  exact .bind_left (silent_insert _ _ _) fun _ => silent_insert _ _ _

theorem commitsOnce_updateDocument (kind : DocumentKind) (id : Uuid)
    (input : TaxedDocument.UpdateInput) (collation : Collation) :
    (TaxedDocument.update kind id input collation).CommitsAtMost 1 := by
  refine .bind_left (silent_documentById _ _) fun _ => ?_
  refine .bind_left (commitsAtMost_ensure _ _) fun _ => ?_
  refine .bind_left (silent_findControlAccountId _) fun _ => ?_
  refine .bind_left (silent_computeTotals _ _ _ _) fun _ => ?_
  refine .bind_right (commitsOnce_transaction ?_) fun _ => silent_documentById _ _
  refine .bind_left (silent_forUpdate _) fun _ => ?_
  refine .bind_left (silent_updateRow _ _ _ _) fun _ => ?_
  exact .bind_left (commitsAtMost_ensure _ _) fun _ => silent_write _ _

theorem commitsOnce_postDocument (kind : DocumentKind) (id postedBy entryId : Uuid)
    (now : Timestamp) (collation : Collation) :
    (TaxedDocument.post kind id postedBy entryId now collation).CommitsAtMost 1 := by
  refine .bind_left (silent_documentById _ _) fun _ => ?_
  refine .bind_left (commitsAtMost_ensure _ _) fun _ => ?_
  refine .bind_left (silent_assertPartner _ _) fun _ => ?_
  refine .bind_left (silent_findControlAccountId _) fun _ => ?_
  refine .bind_left (silent_calculateNow _ _) fun _ => ?_
  refine .bind_left (silent_preparePosting _ _) fun _ => ?_
  refine .bind_right (commitsOnce_transaction ?_) fun _ => silent_documentById _ _
  refine .bind_left ?_ fun _ => .bind_left (silent_nextSequenceNumber _) fun _ => ?_
  · exact .bind_left (silent_forUpdate _) fun _ => commitsAtMost_ensure _ _
  · refine .bind_left (silent_createPostedEntryInTx _ _ _) fun _ => ?_
    exact .bind_left (silent_updateRow _ _ _ _) fun _ => silent_pure _

theorem commitsOnce_voidDocument (kind : DocumentKind) (id voidedBy reversalId : Uuid)
    (now : Timestamp) : (TaxedDocument.void kind id voidedBy reversalId now).CommitsAtMost 1 := by
  refine .bind_left (silent_documentById _ _) fun _ => ?_
  refine .bind_left (commitsAtMost_ensure _ _) fun _ => ?_
  refine .bind_left (commitsAtMost_ensure _ _) fun _ => ?_
  refine .bind_left (commitsAtMost_orThrow _ _) fun _ => ?_
  refine .bind_right (commitsOnce_reverseWithGuard _ _ _ _ _ _ _ _ ?_ fun _ => ?_) fun _ =>
    silent_documentById _ _
  · exact .bind_left (silent_forUpdate _) fun _ => silent_pure _
  · refine .bind_left (commitsAtMost_ensure _ _) fun _ => ?_
    exact .bind_left (silent_updateRow _ _ _ _) fun _ => silent_pure _

theorem silent_checkAllocations (t : PaymentTarget) (partnerId : Uuid) (allocated : Uuid → ℤ)
    (total : ℤ) (allocations : List PaymentAllocation) :
    (Payments.checkAllocations t partnerId allocated total allocations).CommitsAtMost 0 := by
  induction allocations generalizing allocated total with
  | nil => exact silent_pure _
  | cons a as ih =>
    refine .bind_left (commitsAtMost_ensure _ _) fun _ => ?_
    refine .bind_left ?_ fun _ => ?_
    · refine .bind_left (commitsAtMost_orThrow _ _) fun _ => ?_
      refine .bind_left (commitsAtMost_ensure _ _) fun _ => ?_
      refine .bind_left (silent_select _) fun _ => ?_
      exact .bind_left (commitsAtMost_orThrow _ _) fun _ => silent_pure _
    · refine .bind_left (commitsAtMost_ensure _ _) fun _ => ?_
      refine .bind_left (commitsAtMost_ensure _ _) fun _ => ?_
      exact .bind_left (commitsAtMost_ensure _ _) fun _ => ih _ _

theorem silent_settleInTx (t : PaymentTarget) (partnerId : Uuid) (a : PaymentAllocation) :
    (settleInTx t partnerId a).CommitsAtMost 0 := by
  refine .bind_left (commitsAtMost_orThrow _ _) fun _ => ?_
  refine .bind_left (silent_forUpdate _) fun _ => ?_
  refine .bind_left (commitsAtMost_orThrow _ _) fun _ => ?_
  refine .bind_left (commitsAtMost_ensure _ _) fun _ => ?_
  refine .bind_left (commitsAtMost_ensure _ _) fun _ => ?_
  refine .bind_left (commitsAtMost_ensure _ _) fun _ => ?_
  exact .bind_left (silent_updateRow _ _ _ _) fun _ => silent_pure _

theorem silent_unwindInTx (t : PaymentTarget) (a : PaymentAllocation) :
    (unwindInTx t a).CommitsAtMost 0 := by
  refine .bind_left (commitsAtMost_orThrow _ _) fun _ => ?_
  refine .bind_left (silent_forUpdate _) fun _ => ?_
  refine .bind_left (commitsAtMost_orThrow _ _) fun _ => ?_
  refine .bind_left (commitsAtMost_ensure _ _) fun _ => ?_
  exact .bind_left (silent_updateRow _ _ _ _) fun _ => silent_pure _

theorem silent_paymentById (id : Uuid) (scan : ScanOrder PaymentAllocation) :
    (Payments.getById id scan).CommitsAtMost 0 :=
  .bind_left (silent_select _) fun _ =>
    .bind_left (commitsAtMost_orThrow _ _) fun _ => silent_pure _

theorem commitsOnce_createPayment (input : Payments.CreateInput) (id : Uuid) :
    (Payments.createDraft input id).CommitsAtMost 1 := by
  refine .bind_left (commitsAtMost_ensure _ _) fun _ => ?_
  refine .bind_left (silent_findPartner _) fun _ => ?_
  refine .bind_left (commitsAtMost_ensure _ _) fun _ => ?_
  refine .bind_left (commitsAtMost_ensure _ _) fun _ => ?_
  refine .bind_left (silent_select _) fun _ => ?_
  refine .bind_left (commitsAtMost_ensure _ _) fun _ => ?_
  refine .bind_left (silent_checkAllocations _ _ _ _ _) fun _ => ?_
  exact .bind_right (commitsOnce_transaction (silent_insert _ _ _)) fun _ => silent_pure _

theorem commitsOnce_postPayment (id postedBy entryId : Uuid) (now : Timestamp)
    (scan answer : ScanOrder PaymentAllocation) :
    (Payments.post id postedBy entryId now scan answer).CommitsAtMost 1 := by
  refine .bind_left (silent_paymentById _ _) fun _ => ?_
  refine .bind_left (commitsAtMost_ensure _ _) fun _ => ?_
  refine .bind_left (silent_findControlAccountId _) fun _ => ?_
  refine .bind_left (silent_preparePosting _ _) fun _ => ?_
  refine .bind_right (commitsOnce_transaction ?_) fun _ => silent_paymentById _ _
  refine .bind_left (silent_forUpdate _) fun _ => ?_
  refine .bind_left (commitsAtMost_ensure _ _) fun _ => ?_
  refine .bind_left (commitsAtMost_forEach fun a _ => silent_settleInTx _ _ a) fun _ => ?_
  refine .bind_left (silent_nextSequenceNumber _) fun _ => ?_
  refine .bind_left (silent_createPostedEntryInTx _ _ _) fun _ => ?_
  exact .bind_left (silent_updateRow _ _ _ _) fun _ => silent_pure _

theorem commitsOnce_voidPayment (id voidedBy reversalId : Uuid) (now : Timestamp)
    (scan answer : ScanOrder PaymentAllocation) :
    (Payments.void id voidedBy reversalId now scan answer).CommitsAtMost 1 := by
  refine .bind_left (silent_paymentById _ _) fun _ => ?_
  refine .bind_left (commitsAtMost_ensure _ _) fun _ => ?_
  refine .bind_left (commitsAtMost_orThrow _ _) fun _ => ?_
  refine .bind_right (commitsOnce_reverseWithGuard _ _ _ _ _ _ _ _ ?_ fun _ => ?_) fun _ =>
    silent_paymentById _ _
  · exact .bind_left (silent_forUpdate _) fun _ => silent_pure _
  · refine .bind_left (commitsAtMost_forEach fun a _ => silent_unwindInTx _ a) fun _ => ?_
    exact .bind_left (silent_updateRow _ _ _ _) fun _ => silent_pure _

end Documents

/-! ## Opening balances, years and tax codes -/

section Years

open YearEndClose

theorem commitsOnce_postOpeningBalances (date : UtcDay) (balances : List PostLineInput)
    (postedBy id : Uuid) (now : Timestamp) :
    (Journal.postOpeningBalances date balances postedBy id now).CommitsAtMost 1 := by
  refine .bind_left (silent_select _) fun _ => ?_
  exact .bind_left (commitsAtMost_orThrow _ _) fun _ => commitsOnce_post _ _ _ _

theorem silent_upsertClosing (fiscalYear : ℤ) (rec : YearEndClosing) :
    (upsertClosing fiscalYear rec).CommitsAtMost 0 := by
  refine .bind_left (silent_forUpdate _) fun _ => ?_
  exact .bind_left (commitsAtMost_ensure _ _) fun _ => silent_write _ _

theorem silent_retainedLines (netIncome : ℤ) : (retainedLines netIncome).CommitsAtMost 0 := by
  unfold retainedLines
  split
  · exact silent_pure _
  · refine .bind_left (silent_select _) fun _ => ?_
    exact .bind_left (commitsAtMost_orThrow _ _) fun _ => silent_pure _

theorem silent_lockAndReadClosingStatus (fiscalYear : ℤ) :
    (lockAndReadClosingStatus fiscalYear).CommitsAtMost 0 := by
  refine .bind_left (silent_lockName _ _) fun _ => ?_
  exact .bind_left (silent_select _) fun _ => silent_pure _

theorem commitsOnce_close (fiscalYear : ℤ) (closedBy entryId : Uuid) (now : Timestamp) :
    (close fiscalYear closedBy entryId now).CommitsAtMost 1 := by
  refine .bind_left (silent_select _) fun _ => ?_
  refine .bind_left (commitsAtMost_ensure _ _) fun _ => ?_
  refine .bind_left (silent_fiscalYearBounds _) fun _ => ?_
  refine .bind_left (silent_select _) fun _ => ?_
  simp only
  split
  · -- a year without movement
    exact .bind_right (commitsOnce_transaction (silent_upsertClosing _ _)) fun _ => silent_pure _
  · refine .bind_left (silent_retainedLines _) fun _ => ?_
    refine .bind_left (silent_preparePosting _ _) fun _ => ?_
    refine .bind_right (commitsOnce_transaction ?_) fun _ =>
      .bind_left (silent_select _) fun _ => silent_pure _
    refine .bind_left (silent_lockAndReadClosingStatus _) fun _ => ?_
    refine .bind_left (commitsAtMost_ensure _ _) fun _ => ?_
    exact .bind_left (silent_createPostedEntryInTx _ _ _) fun _ => silent_upsertClosing _ _

theorem commitsOnce_reopen (fiscalYear : ℤ) (reopenedBy reversalId : Uuid) (now : Timestamp) :
    (reopen fiscalYear reopenedBy reversalId now).CommitsAtMost 1 := by
  refine .bind_left (silent_select _) fun _ => ?_
  refine .bind_left (commitsAtMost_orThrow _ _) fun rec => ?_
  refine .bind_right ?_ fun _ => .bind_left (silent_select _) fun _ => silent_pure _
  cases rec.closingEntryId with
  | none =>
    exact commitsOnce_transaction (.bind_left (silent_updateRow _ _ _ _) fun _ => silent_pure _)
  | some closingEntryId =>
    refine .bind_left (silent_prepareReversal _ _ _ _) fun _ => commitsOnce_transaction ?_
    refine .bind_left (silent_lockAndReadClosingStatus _) fun _ => ?_
    refine .bind_left (commitsAtMost_ensure _ _) fun _ => ?_
    refine .bind_left (silent_reverseInTx _ _ _) fun _ => ?_
    exact .bind_left (silent_updateRow _ _ _ _) fun _ => silent_pure _

theorem commitsOnce_updateTaxCode (id : Uuid) (rate : Option ℤ) (isActive : Option Bool) :
    (TaxCodes.update id rate isActive).CommitsAtMost 1 := by
  refine .bind_left (silent_select _) fun _ => ?_
  refine .bind_left (commitsAtMost_orThrow _ _) fun _ => ?_
  refine .bind_left (commitsAtMost_ofExcept _) fun _ => ?_
  exact commitsOnce_transaction (silent_updateRow _ _ _ _)

end Years

/-! ## Accounts -/

section Accounts

open Accounts

theorem silent_findById (id : Uuid) : (findById id).CommitsAtMost 0 :=
  .bind_left (silent_select _) fun _ => commitsAtMost_orThrow _ _

theorem silent_assertRoleFree (role : Option AccountRole) :
    (assertRoleFree role).CommitsAtMost 0 :=
  commitsAtMost_when (.bind_left (silent_select _) fun _ => commitsAtMost_ensure _ _)

theorem silent_resolveParent (parentCode : Option String) :
    (resolveParent parentCode).CommitsAtMost 0 := by
  cases parentCode with
  | none => exact silent_pure _
  | some code =>
    refine .bind_left (silent_select _) fun _ => ?_
    refine .bind_left (commitsAtMost_orThrow _ _) fun _ => ?_
    exact .bind_left (commitsAtMost_ensure _ _) fun _ => silent_pure _

theorem silent_uniqueCode (id : Uuid) (code : String) : (uniqueCode id code).CommitsAtMost 0 :=
  .bind_left (silent_lockName _ _) fun _ => commitsAtMost_ensure _ _

theorem silent_uniqueRole (id : Uuid) (role : Option AccountRole) :
    (uniqueRole id role).CommitsAtMost 0 := by
  cases role with
  | none => exact silent_pure _
  | some role =>
    exact commitsAtMost_when (.bind_left (silent_lockName _ _) fun _ => commitsAtMost_ensure _ _)

theorem commitsOnce_createAccount (input : CreateInput) (id : Uuid) :
    (create input id).CommitsAtMost 1 := by
  refine .bind_left (commitsAtMost_ensure _ _) fun _ => ?_
  refine .bind_left (silent_select _) fun _ => ?_
  refine .bind_left (commitsAtMost_ensure _ _) fun _ => ?_
  refine .bind_left (silent_assertRoleFree _) fun _ => ?_
  refine .bind_left (silent_resolveParent _) fun _ => ?_
  refine Prog.CommitsAtMost.mapThrow (commitsOnce_transaction ?_)
  refine .bind_left (silent_insert _ _ _) fun _ => ?_
  refine .bind_left (silent_uniqueCode _ _) fun _ => ?_
  exact .bind_left (silent_uniqueRole _ _) fun _ => silent_pure _

theorem commitsOnce_updateAccount (id : Uuid) (f : Account → Account) :
    ((findById id).bind fun _ => transaction (updateAccount id f)).CommitsAtMost 1 :=
  .bind_left (silent_findById _) fun _ => commitsOnce_transaction (silent_updateRow _ _ _ _)

theorem commitsOnce_softDeleteAccount (id deletedBy : Uuid) (now : Timestamp) :
    (softDelete id deletedBy now).CommitsAtMost 1 := by
  refine .bind_left (silent_findById _) fun _ => ?_
  refine .bind_left (silent_select _) fun _ => ?_
  refine .bind_left (commitsAtMost_ensure _ _) fun _ => commitsOnce_transaction ?_
  exact .bind_left (silent_updateRow _ _ _ _) fun _ => silent_uniqueCode _ _

end Accounts

/-! ## Settings and periods -/

section Periods

open Periods

theorem commitsOnce_updateCompany (input : Company.UpdateInput) :
    (Company.update input).CommitsAtMost 1 :=
  .bind_left silent_companyGet fun _ => commitsOnce_transaction (silent_updateRow _ _ _ _)

theorem silent_list (fiscalYear : ℤ) : (list fiscalYear).CommitsAtMost 0 :=
  .bind_left (silent_select _) fun _ => silent_pure _

theorem silent_insertPeriod (id : Uuid) (period : AccountingPeriod) :
    (insertPeriod id period).CommitsAtMost 0 := by
  refine .bind_left (silent_lockName _ _) fun _ => ?_
  refine .bind_left (silent_lockName _ _) fun _ => ?_
  exact .bind_left (silent_forUpdate _) fun _ => commitsAtMost_when (silent_write _ _)

theorem commitsOnce_generatePeriods (fiscalYear : ℤ) (newId : ℕ → Uuid) :
    (generatePeriods fiscalYear newId).CommitsAtMost 1 := by
  refine .bind_left (silent_list _) fun existing => ?_
  split
  · exact silent_pure _
  · refine .bind_left (silent_fiscalYearBounds _) fun _ => ?_
    refine .bind_right (commitsOnce_transaction ?_) fun _ => silent_list _
    exact commitsAtMost_forEach fun period _ => silent_insertPeriod _ period

theorem commitsOnce_closePeriod (id closedBy : Uuid) (now : Timestamp) :
    (Periods.close id closedBy now).CommitsAtMost 1 := by
  refine commitsOnce_transaction (.bind_left (silent_forUpdate _) fun _ => ?_)
  refine .bind_left (commitsAtMost_orThrow _ _) fun _ => ?_
  exact .bind_left (commitsAtMost_ensure _ _) fun _ => silent_updateRow _ _ _ _

theorem commitsOnce_reopenPeriod (id : Uuid) : (Periods.reopen id).CommitsAtMost 1 := by
  refine .bind_left (silent_select _) fun _ => ?_
  refine .bind_left (commitsAtMost_orThrow _ _) fun _ => ?_
  refine .bind_left (commitsAtMost_ensure _ _) fun _ => ?_
  exact commitsOnce_transaction (silent_updateRow _ _ _ _)

end Periods

/-- **Every request commits one transaction at most.** -/
theorem commitsOnce_code (r : Request) : (code r).CommitsAtMost 1 := by
  cases r with
  | createDocument kind dto user newId collation =>
    exact commitsOnce_respond (commitsOnce_createDocument _ _ _ _)
  | updateDocument kind id dto collation =>
    exact commitsOnce_respond (commitsOnce_updateDocument _ _ _ _)
  | postDocument kind id user entryId now collation =>
    exact commitsOnce_respond (commitsOnce_postDocument _ _ _ _ _ _)
  | voidDocument kind id user entryId now =>
    exact commitsOnce_respond (commitsOnce_voidDocument _ _ _ _ _)
  | deleteDocument kind id user now =>
    exact commitsOnce_respond (commitsOnce_softDeleteDraft _ _ _ _ _)
  | createPayment dto user newId => exact commitsOnce_respond (commitsOnce_createPayment _ _)
  | postPayment id user entryId now scan answer =>
    exact commitsOnce_respond (commitsOnce_postPayment _ _ _ _ _ _)
  | voidPayment id user entryId now scan answer =>
    exact commitsOnce_respond (commitsOnce_voidPayment _ _ _ _ _ _)
  | deletePayment id user now => exact commitsOnce_respond (commitsOnce_softDeleteDraft _ _ _ _ _)
  | createEntry dto user entryId =>
    exact commitsOnce_respond (commitsOnce_transaction
      (.bind_left (silent_insert _ _ _) fun _ => silent_pure _))
  | createAndPostEntry dto user entryId now =>
    exact commitsOnce_respond (commitsOnce_post _ _ _ _)
  | postEntry id user now => exact commitsOnce_respond (commitsOnce_postDraft _ _ _)
  | reverseEntry id user entryId now => exact commitsOnce_respond (commitsOnce_reverse _ _ _ _)
  | deleteEntry id user now => exact commitsOnce_respond (commitsOnce_softDeleteDraft _ _ _ _ _)
  | postOpeningBalances date balances user entryId now =>
    exact commitsOnce_respond (commitsOnce_postOpeningBalances _ _ _ _ _)
  | closeYear fiscalYear user entryId now =>
    exact commitsOnce_respond (commitsOnce_close _ _ _ _)
  | reopenYear fiscalYear user entryId now =>
    exact commitsOnce_respond (commitsOnce_reopen _ _ _ _)
  | updateTaxCode id rate isActive => exact commitsOnce_respond (commitsOnce_updateTaxCode _ _ _)
  | createAccount input newId => exact commitsOnce_respond (commitsOnce_createAccount _ _)
  | updateAccount id input => exact commitsOnce_respond (commitsOnce_updateAccount _ _)
  | deactivateAccount id => exact commitsOnce_respond (commitsOnce_updateAccount _ _)
  | deleteAccount id user now => exact commitsOnce_respond (commitsOnce_softDeleteAccount _ _ _)
  | updateCompany input => exact commitsOnce_respond (commitsOnce_updateCompany _)
  | generatePeriods dto newId => exact commitsOnce_respond (commitsOnce_generatePeriods _ _)
  | closePeriod id user now => exact commitsOnce_respond (commitsOnce_closePeriod _ _ _)
  | reopenPeriod id => exact commitsOnce_respond (commitsOnce_reopenPeriod _)

end AccountingApi
