import AccountingApi.LockOrder

/-!
# Deadlocks

A payment locks the documents it settles one after the other, in the order in which its allocations are
read. Two receipts over the same two invoices can come across them in opposite orders and wait for each
other. Where no payments cross, the transactions that post, void, reverse and close never wait in a cycle,
whatever the order of any read.

## Main definitions

* `Crossing`: payments that can wait for each other's documents in a cycle

## Main results

* `not_deadlocked`: no deadlock where no payments cross
* `not_crossing_of_shared`: payments do not cross where they share one document at most
* `deadlocked`: two receipts over the same two invoices
-/

namespace AccountingApi

open ReadCommitted Posting Relation

/-! ## Reads -/

section Reads

open Prog.OnlyQueries

theorem onlyQueries_settings : Company.get.OnlyQueries := bind (query _) fun _ => orThrow _ _

theorem onlyQueries_fiscalYearFor (date : UtcDay) : (Company.fiscalYearFor date).OnlyQueries :=
  bind onlyQueries_settings fun _ => trivial

theorem onlyQueries_fiscalYearBounds (fiscalYear : ℤ) :
    (Company.fiscalYearBounds fiscalYear).OnlyQueries :=
  bind onlyQueries_settings fun _ => trivial

theorem onlyQueries_isSegregationViolation (sourceType : JournalSourceType)
    (createdBy postedBy : Uuid) :
    (Company.isSegregationViolation sourceType createdBy postedBy).OnlyQueries :=
  bind onlyQueries_settings fun _ => trivial

theorem onlyQueries_findOpenPeriodForDate (date : Instant) :
    (Periods.findOpenPeriodForDate date).OnlyQueries :=
  bind (query _) fun _ => trivial

theorem onlyQueries_assertPostableAccounts (lines : List PostLineInput) :
    (assertPostableAccounts lines).OnlyQueries :=
  bind (query _) fun _ => ofExcept _

theorem onlyQueries_preparePosting (input : PostEntryInput) (postedBy : Uuid) :
    (preparePosting input postedBy).OnlyQueries := by
  refine bind (ofExcept _) fun _ => bind (onlyQueries_isSegregationViolation _ _ _) fun _ => ?_
  refine bind (ensure _ _) fun _ => bind ?_ fun _ => ?_
  · refine bind (onlyQueries_findOpenPeriodForDate _) fun _ => bind (orThrow _ _) fun _ => ?_
    refine bind (onlyQueries_fiscalYearFor _) fun _ => bind (query _) fun _ => ?_
    exact bind (ensure _ _) fun _ => trivial
  · exact bind (onlyQueries_assertPostableAccounts _) fun _ => trivial

theorem onlyQueries_prepareReversal (entryId reversedBy : Uuid) (date : Option UtcDay)
    (allow : Bool) : (prepareReversal entryId reversedBy date allow).OnlyQueries := by
  refine bind (query _) fun _ => bind (orThrow _ _) fun _ => bind (ensure _ _) fun _ => ?_
  refine bind (onlyQueries_findOpenPeriodForDate _) fun _ => bind (orThrow _ _) fun _ => ?_
  refine bind (onlyQueries_fiscalYearFor _) fun _ => bind (when _ ?_) fun _ => trivial
  exact bind (query _) fun _ => ensure _ _

theorem onlyQueries_getDocument (kind : DocumentKind) (id : Uuid) :
    (TaxedDocument.getById kind id).OnlyQueries :=
  bind (query _) fun _ => bind (orThrow _ _) fun _ => bind (query _) fun _ => trivial

theorem onlyQueries_getPayment (id : Uuid) (scan : ScanOrder PaymentAllocation) :
    (Payments.getById id scan).OnlyQueries :=
  bind (query _) fun _ => bind (orThrow _ _) fun _ => trivial

theorem onlyQueries_findControlAccountId (role : AccountRole) :
    (findControlAccountId role).OnlyQueries :=
  bind (query _) fun _ => bind (orThrow _ _) fun _ => trivial

theorem onlyQueries_assertPartner (kind : DocumentKind) (id : Uuid) :
    (TaxedDocument.assertPartner kind id).OnlyQueries :=
  bind (bind (query _) fun _ => orThrow _ _) fun _ => ensure _ _

theorem onlyQueries_calculateNow (collation : Collation) (input : TaxableTransaction) :
    (TaxService.calculateNow collation input).OnlyQueries :=
  bind (ofExcept _) fun _ => bind (query _) fun _ => ofExcept _

theorem onlyQueries_closing (fiscalYear : ℤ) : (do
    let db ← select .closing
    pure (Db.closing db fiscalYear) : Program (Option YearEndClosing)).OnlyQueries :=
  bind (query _) fun _ => trivial

theorem onlyQueries_retainedLines (netIncome : ℤ) :
    (YearEndClose.retainedLines netIncome).OnlyQueries := by
  unfold YearEndClose.retainedLines
  split
  · trivial
  · exact bind (query _) fun _ => bind (orThrow _ _) fun _ => trivial

end Reads

/-! ## Requests -/

/-- Nothing is locked or written, and nothing has been committed. -/
structure Outside (ℓ : Tx) : Prop where
  locks : ℓ.locks = []
  buf : ℓ.buf = []
  new : ℓ.published = false

theorem Outside.empty : Outside {} := ⟨rfl, rfl, rfl⟩

theorem Outside.reads {ℓ ℓ' : Tx} (h : Outside ℓ) (hr : ℓ.Reads ℓ') : Outside ℓ' :=
  ⟨hr.locks.trans h.locks, hr.buf.trans h.buf, hr.published.trans h.new⟩

section Requests

variable {db₀ : Db} {r : Request} {ℓ : Tx}

/-- Reads before the transaction. -/
theorem climbs_read {α : Type} {p : Program α} {post : α → Tx → Prop} (hp : p.OnlyQueries)
    (ho : Outside ℓ) (h : ∀ a ℓ', ℓ.Extends ℓ' → Outside ℓ' → post a ℓ') : Climbs db₀ r p ℓ post :=
  Prog.asks_mono (Prog.asks_of_onlyQueries hp) fun a ℓ' hr => h a ℓ' hr.ext (ho.reads hr)

/-- Reads before the transaction, with what they say about later commits. -/
theorem climbs_read_wp {α : Type} {p : Program α} {q : Request} {post : α → Tx → Prop}
    (hp : p.OnlyQueries) (ho : Outside ℓ)
    (h : p.wp (protocol False) q ℓ fun a ℓ' => Outside ℓ' → post a ℓ') : Climbs db₀ r p ℓ post :=
  Prog.asks_mono (Prog.asks_of_wp hp h) fun _ _ hr => hr.1 (ho.reads hr.2)

/-- A transaction, and the reads that answer the request. -/
theorem climbs_transaction {α β : Type} {body : Program α} {f : α → Program β}
    (h : Climbs db₀ r body ℓ fun _ _ => True) (hf : ∀ a, (f a).OnlyQueries) :
    Climbs db₀ r ((transaction body).bind f) ℓ fun _ _ => True :=
  Prog.asks_bind.mpr (Prog.asks_transaction h fun a _ =>
    Prog.asks_mono (Prog.asks_of_onlyQueries (hf a)) fun _ _ _ => trivial)

theorem climbs_respond {α : Type} {f : α → Response} {p : Program α}
    (h : Climbs db₀ r p ℓ fun _ _ => True) : Climbs db₀ r (respond f p) ℓ fun _ _ => True :=
  Prog.asks_bind.mpr (Prog.asks_mono h fun _ _ _ => trivial)

/-- A draft document is locked first, then its number and the entry. -/
theorem climbs_postDocument (kind : DocumentKind) (id user entryId : Uuid) (now : Timestamp)
    (collation : Collation) (hfree : Db.entry db₀ entryId = none) :
    Climbs db₀ (.postDocument kind id user entryId now collation)
      (code (.postDocument kind id user entryId now collation)) {} fun _ _ => True := by
  refine climbs_respond (Prog.asks_bind.mpr (climbs_read (onlyQueries_getDocument _ _) .empty
    fun x ℓ₁ _ o₁ => ?_))
  refine Prog.asks_bind.mpr (Prog.asks_ensure fun _ => ?_)
  refine Prog.asks_bind.mpr (climbs_read (onlyQueries_assertPartner _ _) o₁ fun _ ℓ₂ _ o₂ => ?_)
  refine Prog.asks_bind.mpr
    (climbs_read (onlyQueries_findControlAccountId _) o₂ fun _ ℓ₃ _ o₃ => ?_)
  refine Prog.asks_bind.mpr (climbs_read (onlyQueries_calculateNow _ _) o₃ fun c ℓ₄ _ o₄ => ?_)
  refine Prog.asks_bind.mpr
    (climbs_read (onlyQueries_preparePosting _ _) o₄ fun prepared ℓ₅ _ o₅ => ?_)
  refine climbs_transaction ?_ fun _ => onlyQueries_getDocument _ _
  refine Prog.asks_bind.mpr (Prog.asks_bind.mpr (climbs_lock (fun _ => rfl)
    (.of_locks o₅.locks _) fun _ ℓ₆ _ hheld u₆ => ?_))
  refine Prog.asks_ensure fun _ => ?_
  refine Prog.asks_bind.mpr (climbs_nextSequenceNumber (fun _ => rfl) u₆ fun _ ℓ₇ e₇ u₇ => ?_)
  refine Prog.asks_bind.mpr (climbs_createPostedEntryInTx hfree (.inl u₇) fun _ ℓ₈ e₈ _ => ?_)
  exact Prog.asks_bind.mpr
    (climbs_updateLocked ((e₇.trans e₈).locks hheld) fun _ _ _ _ => trivial)

/-- A reversal is prepared from an entry that stays in the books. -/
theorem climbs_prepareReversal {entryId reversedBy : Uuid} {allow : Bool}
    {post : PreparedReversal → Tx → Prop} (ho : Outside ℓ)
    (h : ∀ p ℓ', ℓ.Extends ℓ' → Outside ℓ' →
      (Surely db₀ ℓ' fun db => Posted p.originalId db ∧ p.allowClosedYear = allow) → post p ℓ') :
    Climbs db₀ r (prepareReversal entryId reversedBy none allow) ℓ post := by
  refine climbs_read_wp (q := .reverseEntry entryId reversedBy entryId 0)
    (onlyQueries_prepareReversal _ _ _ _) ho
    (wp_prepareReversal ho.new ho.buf fun p ℓ₁ h₁ o₁ => h p ℓ₁ h₁.ext o₁ (h₁.always ?_))
  rintro c ⟨hprepared, o, ho, hnot, -⟩ - -
  exact ⟨⟨o, ho, hnot⟩, hprepared.allowClosedYear_eq⟩

/-- The reversal of a document's entry, after the document is locked and changed. -/
theorem climbs_reverseWithGuard {α : Type} {id journalEntryId reversedBy reversalId : Uuid}
    {now : Timestamp} {already notPosted : String} {lock : Program (Option α)}
    {isPosted : α → Prop} [DecidablePred isPosted] {applyInTx : α → Program Unit} {L : Tx → Prop}
    {post : Unit → Tx → Prop} (hfree : Db.entry db₀ reversalId = none) (ho : Outside ℓ)
    (hlock : ∀ (ℓ₁ : Tx) (post : Option α → Tx → Prop), Outside ℓ₁ →
      (∀ a ℓ₂, ℓ₁.Extends ℓ₂ → L ℓ₂ → post a ℓ₂) → Climbs db₀ r lock ℓ₁ post)
    (happly : ∀ (a : α) (ℓ₂ : Tx) (post : Unit → Tx → Prop), ℓ.Extends ℓ₂ → L ℓ₂ →
      (∀ ℓ₃, ℓ₂.Extends ℓ₃ → Under db₀ ℓ₃ 4 → post () ℓ₃) →
      Climbs db₀ r (applyInTx a) ℓ₂ post) (hpost : ∀ a ℓ, post a ℓ) :
    Climbs db₀ r (DocumentLifecycle.reverseWithGuard id journalEntryId reversedBy reversalId now
      already notPosted lock isPosted applyInTx) ℓ post := by
  refine Prog.asks_bind.mpr (climbs_prepareReversal ho fun p ℓ₁ e₁ o₁ hp => ?_)
  refine Prog.asks_mapThrow.mpr (Prog.asks_transaction ?_ hpost)
  refine Prog.asks_bind.mpr (hlock ℓ₁ _ o₁ fun a ℓ₂ e₂ l₂ => ?_)
  refine Prog.asks_bind.mpr (Prog.asks_orThrow fun d _ => ?_)
  refine Prog.asks_bind.mpr (Prog.asks_ensure fun _ => ?_)
  refine Prog.asks_bind.mpr (happly d ℓ₂ _ (e₁.trans e₂) l₂ fun ℓ₃ e₃ u₃ => ?_)
  have hposted := (hp.extend (e₂.trans e₃)).mono fun _ hdb => hdb.1
  exact Prog.asks_bind.mpr
    (climbs_reverseInTx hfree (.inl u₃) hposted fun _ _ _ _ => trivial)

/-- A document is locked and marked, then its entry is reversed. -/
theorem climbs_voidDocument (kind : DocumentKind) (id user entryId : Uuid) (now : Timestamp)
    (hfree : Db.entry db₀ entryId = none) :
    Climbs db₀ (.voidDocument kind id user entryId now)
      (code (.voidDocument kind id user entryId now)) {} fun _ _ => True := by
  refine climbs_respond (Prog.asks_bind.mpr (climbs_read (onlyQueries_getDocument _ _) .empty
    fun x ℓ₁ _ o₁ => ?_))
  refine Prog.asks_bind.mpr (Prog.asks_ensure fun _ => ?_)
  refine Prog.asks_bind.mpr (Prog.asks_ensure fun _ => ?_)
  refine Prog.asks_bind.mpr (Prog.asks_orThrow fun journalEntryId _ => ?_)
  refine Prog.asks_bind.mpr (climbs_reverseWithGuard
    (L := fun ℓ => (.row (.document kind id), .exclusive) ∈ ℓ.locks ∧ Under db₀ ℓ 3) hfree o₁ ?_
    ?_ fun _ _ => ?_)
  · intro ℓ₂ post o₂ h
    exact Prog.asks_bind.mpr (climbs_lock (fun _ => rfl) (.of_locks o₂.locks _)
      fun _ ℓ₃ e₃ hheld₃ u₃ => h _ ℓ₃ e₃ ⟨hheld₃, u₃⟩)
  · rintro d ℓ₂ post _ ⟨hheld₂, u₂⟩ h
    refine Prog.asks_bind.mpr (Prog.asks_ensure fun _ => ?_)
    refine Prog.asks_bind.mpr (climbs_updateLocked hheld₂ fun _ ℓ₃ e₃ hsame => ?_)
    exact h ℓ₃ e₃ (Local.Below.extend (u₂.mono (by decide)) e₃ hsame)
  · exact Prog.asks_mono (Prog.asks_of_onlyQueries (onlyQueries_getDocument _ _)) fun _ _ _ =>
      trivial

/-- A payment settles the documents that the payment in `db₀` does. -/
theorem surely_covers {q : Request} {id : Uuid} {s : Db} {pay : Payment} {ℓ₁ : Tx}
    (scan : ScanOrder PaymentAllocation) (hpay : Db.livePayment s id = some pay)
    (h₁ : ℓ.Ran (protocol False) q ℓ₁ [] fun c => Drift (protocol False) none s c.before) :
    Surely db₀ ℓ₁ fun _ =>
      Covers db₀ id pay.direction.target.kind (Payments.scanned scan pay).documents := by
  refine h₁.always fun c hdrift _ hfollows => ?_
  obtain ⟨hpay, -⟩ := Option.filter_eq_some_iff.mp hpay
  obtain ⟨p, hp, hsteps⟩ := payment_of_drift hdrift hpay
  obtain ⟨p₀, hp₀, hdirection, hallocations⟩ := hfollows.payment hp
  obtain ⟨hdirection', hallocations'⟩ := settles_of_paymentSteps hsteps
  rw [hdirection'] at hdirection
  rw [hallocations'] at hallocations
  refine ⟨p₀, hp₀, by rw [hdirection], fun d hd => ?_⟩
  have hd := (pay.mem_documents_scanned scan d).mp hd
  rwa [Payment.documents, hdirection, hallocations] at hd

/-- The lock of a payment, before its documents. -/
theorem climbs_lockPayment {id : Uuid} (kind : DocumentKind) {post : Db → Tx → Prop}
    (ho : Outside ℓ)
    (h : ∀ s ℓ', ℓ.Extends ℓ' → Settling id kind ℓ' [] → post (ℓ.view s) ℓ') :
    Climbs db₀ r (forUpdate (.payment id)) ℓ post := by
  refine ⟨asking_of_asksInOrder _ _ (Local.asksInOrder_of_locks ho.locks), fun s _ =>
    h s _ (.hold _ s) ⟨List.mem_cons_self, List.forall_mem_nil _, ?_⟩⟩
  rw [Local.hold, ho.locks]
  exact List.forall_mem_singleton.mpr (.inl rfl)

/-- A payment is locked, then its documents, its number and the entry. -/
theorem climbs_postPayment (id user entryId : Uuid) (now : Timestamp)
    (scan answer : ScanOrder PaymentAllocation) (hfree : Db.entry db₀ entryId = none) :
    Climbs db₀ (.postPayment id user entryId now scan answer)
      (code (.postPayment id user entryId now scan answer)) {} fun _ _ => True := by
  refine climbs_respond (Prog.asks_bind.mpr (climbs_read_wp
    (q := .postPayment id user entryId now scan answer) (onlyQueries_getPayment _ _) .empty
    (wp_getPayment rfl rfl fun s pay ℓ₁ hpay h₁ o₁ => ?_)))
  have hcovers : Surely db₀ ℓ₁ _ := surely_covers scan hpay h₁
  refine Prog.asks_bind.mpr (Prog.asks_ensure fun _ => ?_)
  refine Prog.asks_bind.mpr
    (climbs_read (onlyQueries_findControlAccountId _) o₁ fun controlId ℓ₂ e₂ o₂ => ?_)
  refine Prog.asks_bind.mpr
    (climbs_read (onlyQueries_preparePosting _ _) o₂ fun prepared ℓ₃ e₃ o₃ => ?_)
  refine climbs_transaction ?_ fun _ => onlyQueries_getPayment _ _
  refine Prog.asks_bind.mpr (climbs_lockPayment pay.direction.target.kind o₃ fun _ ℓ₄ e₄ s₄ => ?_)
  refine Prog.asks_bind.mpr (Prog.asks_ensure fun _ => ?_)
  refine Prog.asks_bind.mpr (climbs_forEach (locksDocument_settleInTx rfl _ _) s₄
    (hcovers.extend (e₂.trans (e₃.trans e₄))) fun ℓ₅ _ hheld u₅ => ?_)
  refine Prog.asks_bind.mpr (climbs_nextSequenceNumber (fun _ => rfl) u₅ fun _ ℓ₆ e₆ u₆ => ?_)
  refine Prog.asks_bind.mpr (climbs_createPostedEntryInTx hfree (.inl u₆) fun _ ℓ₇ e₇ _ => ?_)
  exact Prog.asks_bind.mpr
    (climbs_updateLocked ((e₆.trans e₇).locks hheld) fun _ _ _ _ => trivial)

/-- A payment is locked, then its documents, then its entry is reversed. -/
theorem climbs_voidPayment (id user entryId : Uuid) (now : Timestamp)
    (scan answer : ScanOrder PaymentAllocation) (hfree : Db.entry db₀ entryId = none) :
    Climbs db₀ (.voidPayment id user entryId now scan answer)
      (code (.voidPayment id user entryId now scan answer)) {} fun _ _ => True := by
  refine climbs_respond (Prog.asks_bind.mpr (climbs_read_wp
    (q := .voidPayment id user entryId now scan answer) (onlyQueries_getPayment _ _) .empty
    (wp_getPayment rfl rfl fun s pay ℓ₁ hpay h₁ o₁ => ?_)))
  have hcovers : Surely db₀ ℓ₁ _ := surely_covers scan hpay h₁
  refine Prog.asks_bind.mpr (Prog.asks_ensure fun _ => ?_)
  refine Prog.asks_bind.mpr (Prog.asks_orThrow fun journalEntryId _ => ?_)
  refine Prog.asks_bind.mpr (climbs_reverseWithGuard
    (L := fun ℓ => Settling id pay.direction.target.kind ℓ []) hfree o₁ ?_ ?_ fun _ _ => ?_)
  · intro ℓ₂ post o₂ h
    exact Prog.asks_bind.mpr (climbs_lockPayment _ o₂ fun _ ℓ₃ e₃ s₃ => h _ ℓ₃ e₃ s₃)
  · intro p ℓ₂ post e₂ s₂ h
    refine Prog.asks_bind.mpr (climbs_forEach (locksDocument_unwindInTx rfl _) s₂
      (hcovers.extend e₂) fun ℓ₃ e₃ hheld u₃ => ?_)
    refine Prog.asks_bind.mpr (climbs_updateLocked hheld fun _ ℓ₄ e₄ hsame => ?_)
    exact h ℓ₄ (e₃.trans e₄) (Local.Below.extend (u₃.mono (by decide)) e₄ hsame)
  · exact Prog.asks_mono (Prog.asks_of_onlyQueries (onlyQueries_getPayment _ _)) fun _ _ _ => trivial

/-- An entry posted at once. -/
theorem climbs_post {input : PostEntryInput} {postedBy id : Uuid} {now : Timestamp}
    (hfree : Db.entry db₀ id = none) (ho : Outside ℓ) :
    Climbs db₀ r (Posting.post input postedBy id now) ℓ fun _ _ => True := by
  refine Prog.asks_bind.mpr
    (climbs_read (onlyQueries_preparePosting _ _) ho fun prepared ℓ₁ _ o₁ => ?_)
  refine Prog.asks_transaction ?_ fun _ _ => trivial
  exact climbs_createPostedEntryInTx hfree (.inl (.of_locks o₁.locks _)) fun _ _ _ _ => trivial

theorem climbs_postOpeningBalances (date : UtcDay) (balances : List JournalLineDto)
    (user entryId : Uuid) (now : Timestamp) (hfree : Db.entry db₀ entryId = none) :
    Climbs db₀ (.postOpeningBalances date balances user entryId now)
      (code (.postOpeningBalances date balances user entryId now)) {} fun _ _ => True := by
  refine climbs_respond (Prog.asks_bind.mpr
    (climbs_read (Prog.OnlyQueries.query _) .empty fun _ ℓ₁ _ o₁ => ?_))
  exact Prog.asks_bind.mpr (Prog.asks_orThrow fun equity _ => climbs_post hfree o₁)

/-- A draft entry is locked first; while it is locked it stays a draft. -/
theorem climbs_postEntry (id user : Uuid) (now : Timestamp) :
    Climbs db₀ (.postEntry id user now)
      (code (.postEntry id user now)) {} fun _ _ => True := by
  refine climbs_respond (Prog.asks_bind.mpr (climbs_read (Prog.OnlyQueries.query _) .empty
    fun _ ℓ₁ _ o₁ => ?_))
  refine Prog.asks_bind.mpr (Prog.asks_orThrow fun draft _ => ?_)
  refine Prog.asks_bind.mpr (Prog.asks_ensure fun _ => ?_)
  refine Prog.asks_bind.mpr (climbs_read (Prog.OnlyQueries.ofExcept _) o₁ fun _ ℓ₂ _ o₂ => ?_)
  refine Prog.asks_bind.mpr
    (climbs_read (onlyQueries_isSegregationViolation _ _ _) o₂ fun _ ℓ₃ _ o₃ => ?_)
  refine Prog.asks_bind.mpr (Prog.asks_ensure fun _ => ?_)
  refine Prog.asks_bind.mpr
    (climbs_read (onlyQueries_findOpenPeriodForDate _) o₃ fun _ ℓ₄ _ o₄ => ?_)
  refine Prog.asks_bind.mpr (Prog.asks_orThrow fun periodId _ => ?_)
  refine Prog.asks_bind.mpr
    (climbs_read (onlyQueries_assertPostableAccounts _) o₄ fun _ ℓ₅ _ o₅ => ?_)
  refine Prog.asks_bind.mpr
    (climbs_read (onlyQueries_fiscalYearFor _) o₅ fun fiscalYear ℓ₆ _ o₆ => ?_)
  refine Prog.asks_bind.mpr (climbs_read (Prog.OnlyQueries.query _) o₆ fun _ ℓ₇ _ o₇ => ?_)
  refine Prog.asks_bind.mpr (Prog.asks_ensure fun _ => ?_)
  refine Prog.asks_transaction ?_ fun _ _ => trivial
  refine Prog.asks_bind.mpr ⟨asking_of_asksInOrder _ _
    (Local.asksInOrder_of_locks o₇.locks), fun s _ => ?_⟩
  refine Prog.asks_bind.mpr (Prog.asks_ensure fun hdraft => ?_)
  -- nobody else posts the entry while it is locked
  have hrank : Surely db₀ (ℓ₇.hold (.row (.entry id), .exclusive) s) fun db =>
      lockRank db (.row (.entry id)) < 4 := by
    obtain ⟨e, he, hdraft⟩ := hdraft
    obtain ⟨he, -⟩ := Option.filter_eq_some_iff.mp he
    rw [Local.view, o₇.buf, Store.putAll_nil, Db.entry_eq_row] at he
    refine (Local.Always.row_eq s).mono fun db hrow => ?_
    rw [lockRank_of_draft ((Db.entry_eq_row db id).trans (hrow.trans he)) hdraft]
    decide
  have u₈ : Under db₀ (ℓ₇.hold (.row (.entry id), .exclusive) s) 4 :=
    Local.Below.hold (.of_locks o₇.locks _) hrank
  refine Prog.asks_bind.mpr (climbs_stampPostedInTx (.inl u₈) fun _ ℓ₉ e₉ _ => ?_)
  exact climbs_updateLocked (e₉.locks List.mem_cons_self) fun _ _ _ _ => trivial

theorem climbs_reverseEntry (id user entryId : Uuid) (now : Timestamp)
    (hfree : Db.entry db₀ entryId = none) :
    Climbs db₀ (.reverseEntry id user entryId now)
      (code (.reverseEntry id user entryId now)) {} fun _ _ => True := by
  refine climbs_respond (Prog.asks_bind.mpr
    (climbs_prepareReversal .empty fun p ℓ₁ _ o₁ hp => ?_))
  refine Prog.asks_mapThrow.mpr (Prog.asks_transaction ?_ fun _ _ => trivial)
  exact climbs_reverseInTx hfree (.inl (.of_locks o₁.locks _)) (hp.mono fun _ hdb => hdb.1)
    fun _ _ _ _ => trivial

/-- Closing and reopening a period lock its row only. -/
theorem climbs_closePeriod (id user : Uuid) (now : Timestamp) :
    Climbs db₀ (.closePeriod id user now)
      (code (.closePeriod id user now)) {} fun _ _ => True := by
  refine climbs_respond (Prog.asks_transaction ?_ fun _ _ => trivial)
  refine Prog.asks_bind.mpr (climbs_lock (fun _ => rfl) (.of_locks rfl _) fun _ ℓ₁ _ hheld _ => ?_)
  refine Prog.asks_bind.mpr (Prog.asks_orThrow fun p _ => ?_)
  refine Prog.asks_bind.mpr (Prog.asks_ensure fun _ => ?_)
  exact climbs_updateLocked hheld fun _ _ _ _ => trivial

theorem climbs_reopenPeriod (id : Uuid) :
    Climbs db₀ (.reopenPeriod id)
      (code (.reopenPeriod id)) {} fun _ _ => True := by
  refine climbs_respond (Prog.asks_bind.mpr
    (climbs_read (Prog.OnlyQueries.query _) .empty fun _ ℓ₁ _ o₁ => ?_))
  refine Prog.asks_bind.mpr (Prog.asks_orThrow fun p _ => ?_)
  refine Prog.asks_bind.mpr (Prog.asks_ensure fun _ => ?_)
  refine Prog.asks_transaction ?_ fun _ _ => trivial
  exact climbs_updateRow (fun _ => rfl) (.of_locks o₁.locks _) fun _ _ _ _ => trivial

/-- The exclusive lock of the year. -/
theorem climbs_lockAndReadClosingStatus {fiscalYear : ℤ} {post : Option OpenClosed → Tx → Prop}
    (hunder : Under db₀ ℓ 4)
    (h : ∀ status ℓ', ℓ.Extends ℓ' → (.named (.fiscalYear fiscalYear), .exclusive) ∈ ℓ'.locks →
      Under db₀ ℓ' 5 → post status ℓ') :
    Climbs db₀ r (YearEndClose.lockAndReadClosingStatus fiscalYear) ℓ post := by
  refine Prog.asks_bind.mpr (climbs_lock (fun _ => rfl) hunder fun _ ℓ₁ e₁ hheld u₁ => ?_)
  refine Prog.asks_bind.mpr (Prog.asks_mono
    (Prog.asks_of_onlyQueries (Prog.OnlyQueries.query _)) fun _ ℓ₂ hr => ?_)
  refine h _ ℓ₂ (e₁.trans hr.ext) (hr.ext.locks hheld) (u₁.extend hr.ext fun l hl => ?_)
  rwa [hr.locks] at hl

/-- The record of the year, written last. -/
theorem climbs_upsertClosing {fiscalYear : ℤ} {rec : YearEndClosing} (hunder : Under db₀ ℓ 10) :
    Climbs db₀ r (YearEndClose.upsertClosing fiscalYear rec) ℓ fun _ _ => True := by
  refine Prog.asks_bind.mpr (climbs_lock (fun _ => rfl) hunder fun _ ℓ₁ _ hheld _ => ?_)
  refine Prog.asks_bind.mpr (Prog.asks_ensure fun _ => ?_)
  exact Prog.asks_write asking_of_asksInOrder hheld fun _ _ _ => trivial

/-- The entry of a close is posted into the year whose lock the close holds. -/
theorem fiscalYear_of_prepared {c : Commit} {fiscalYear : ℤ} {start yearEnd : UtcDay}
    {user : Uuid} {input : PostEntryInput} {p : PreparedPosting}
    (hbounds : FiscalYearBounds c fiscalYear start yearEnd) (hprepared : Prepared c input user p)
    (hdate : input.date = yearEnd) (hseen : ∀ q ∈ c.seen, Follows db₀ q.2) :
    p.fiscalYear = fiscalYear := by
  obtain ⟨s, hs, settings, hsettings, -, rfl⟩ := hbounds
  obtain ⟨s', hs', settings', hsettings', hyear⟩ := hprepared.fiscalYear
  have hsame : settings' = settings := by
    rw [(hseen _ hs).settings] at hsettings
    rw [(hseen _ hs').settings] at hsettings'
    exact Option.some.inj (hsettings'.symm.trans hsettings)
  rw [hyear, hdate, hsame, fiscalYearForDate_lastDay]

/-- A close locks the year first and its record last. -/
theorem climbs_closeYear (dto : CloseYearDto) (user entryId : Uuid) (now : Timestamp)
    (hfree : Db.entry db₀ entryId = none) :
    Climbs db₀ (.closeYear dto user entryId now)
      (code (.closeYear dto user entryId now)) {} fun _ _ => True := by
  have hmin := dto.min
  refine climbs_respond (Prog.asks_bind.mpr (climbs_read (Prog.OnlyQueries.query _) .empty
    fun _ ℓ₁ _ o₁ => ?_))
  refine Prog.asks_bind.mpr (Prog.asks_ensure fun _ => ?_)
  refine Prog.asks_bind.mpr (climbs_read_wp
    (q := .closeYear dto user entryId now) (onlyQueries_fiscalYearBounds _) o₁
    (wp_fiscalYearBounds (by omega) o₁.new o₁.buf fun start yearEnd ℓ₂ h₂ o₂ => ?_))
  refine Prog.asks_bind.mpr (climbs_read (Prog.OnlyQueries.query _) o₂ fun s ℓ₃ e₃ o₃ => ?_)
  rcases hrows : YearEndClose.closingLines [] Money.zero
    ((Balances.movementsBetween s start yearEnd).filter fun r => YearEndClose.isPnl r.type)
    with ⟨lines, netIncome⟩
  simp only [hrows]
  by_cases hlines : lines = []
  · rw [if_pos hlines]
    exact climbs_transaction (climbs_upsertClosing (.of_locks o₃.locks _)) fun _ => trivial
  · rw [if_neg hlines]
    refine Prog.asks_bind.mpr
      (climbs_read (onlyQueries_retainedLines _) o₃ fun retained ℓ₄ e₄ o₄ => ?_)
    refine Prog.asks_bind.mpr (climbs_read_wp (q := .closeYear dto user entryId now)
      (onlyQueries_preparePosting _ _) o₄
      (wp_preparePosting o₄.new o₄.buf fun p ℓ₅ h₅ o₅ => ?_))
    -- the lock of the year is the one its entry asks for
    have hyear : Surely db₀ ℓ₅ fun _ => p.fiscalYear = dto.fiscalYear := fun db hs hseen _ =>
      fiscalYear_of_prepared (h₂.facts ℓ₅ db 0 [] (e₃.trans (e₄.trans h₅.ext)) hs)
        (h₅.facts ℓ₅ db 0 [] (.refl ℓ₅) hs) rfl hseen
    refine climbs_transaction ?_ fun _ => onlyQueries_closing dto.fiscalYear
    refine Prog.asks_bind.mpr (climbs_lockAndReadClosingStatus (.of_locks o₅.locks _)
      fun status ℓ₆ e₆ hheld₆ u₆ => ?_)
    refine Prog.asks_bind.mpr (Prog.asks_ensure fun _ => ?_)
    have hready : ReadyToStamp db₀ ℓ₆ p.fiscalYear false :=
      .inr ⟨u₆, (hyear.extend e₆).mono fun _ hdb _ => by rwa [hdb]⟩
    refine Prog.asks_bind.mpr (climbs_createPostedEntryInTx hfree hready fun _ ℓ₇ _ u₇ => ?_)
    exact climbs_upsertClosing (u₇.mono (by decide))

/-- A reopening locks the year first and its record last, and needs no shared lock of the year. -/
theorem climbs_reopenYear (fiscalYear : ℤ) (user entryId : Uuid) (now : Timestamp)
    (hfree : Db.entry db₀ entryId = none) :
    Climbs db₀ (.reopenYear fiscalYear user entryId now)
      (code (.reopenYear fiscalYear user entryId now)) {} fun _ _ => True := by
  refine climbs_respond (Prog.asks_bind.mpr (climbs_read (Prog.OnlyQueries.query _) .empty
    fun _ ℓ₁ _ o₁ => ?_))
  refine Prog.asks_bind.mpr (Prog.asks_orThrow fun rec _ => Prog.asks_bind.mpr ?_)
  have hanswer : ∀ ℓ : Tx, Climbs db₀ (.reopenYear fiscalYear user entryId now) (do
      let db ← select .closing
      pure (Db.closing db fiscalYear)) ℓ fun _ _ => True := fun ℓ =>
    Prog.asks_mono (Prog.asks_of_onlyQueries (onlyQueries_closing fiscalYear)) fun _ _ _ => trivial
  cases rec.closingEntryId with
  | none =>
    refine Prog.asks_transaction ?_ fun _ ℓ => hanswer ℓ
    exact Prog.asks_bind.mpr
      (climbs_updateRow (fun _ => rfl) (.of_locks o₁.locks _) fun _ _ _ _ => trivial)
  | some closingEntryId =>
    refine Prog.asks_bind.mpr (climbs_prepareReversal o₁ fun p ℓ₂ _ o₂ hp => ?_)
    refine Prog.asks_transaction ?_ fun _ ℓ => hanswer ℓ
    refine Prog.asks_bind.mpr (climbs_lockAndReadClosingStatus (.of_locks o₂.locks _)
      fun status ℓ₃ e₃ _ u₃ => ?_)
    refine Prog.asks_bind.mpr (Prog.asks_ensure fun _ => ?_)
    -- a reversal into a closed year takes no lock of the year
    have hready : ReadyToStamp db₀ ℓ₃ p.fiscalYear p.allowClosedYear :=
      .inr ⟨u₃, (hp.extend e₃).mono fun _ hdb hallow => by rw [hdb.2] at hallow; cases hallow⟩
    refine Prog.asks_bind.mpr (climbs_reverseInTx hfree hready
      ((hp.extend e₃).mono fun _ hdb => hdb.1) fun _ ℓ₄ _ u₄ => ?_)
    exact Prog.asks_bind.mpr (climbs_updateRow (fun _ => rfl) u₄ fun _ _ _ _ => trivial)

/-- **What a contending request asks for**, it asks for in order, or as the next document of its
payment. -/
theorem code_climbs (hcontends : r.Contends)
    (hfree : ∀ id ∈ r.entryId, Db.entry db₀ id = none) :
    Climbs db₀ r (code r) {} fun _ _ => True := by
  cases r with
  | postDocument kind id user entryId now collation =>
    exact climbs_postDocument _ _ _ _ _ _ (hfree _ rfl)
  | voidDocument kind id user entryId now => exact climbs_voidDocument _ _ _ _ _ (hfree _ rfl)
  | postPayment id user entryId now scan answer =>
    exact climbs_postPayment _ _ _ _ _ _ (hfree _ rfl)
  | voidPayment id user entryId now scan answer =>
    exact climbs_voidPayment _ _ _ _ _ _ (hfree _ rfl)
  | createAndPostEntry dto user entryId now =>
    exact climbs_respond (climbs_post (hfree _ rfl) .empty)
  | postOpeningBalances date balances user entryId now =>
    exact climbs_postOpeningBalances _ _ _ _ _ (hfree _ rfl)
  | postEntry id user now => exact climbs_postEntry _ _ _
  | reverseEntry id user entryId now => exact climbs_reverseEntry _ _ _ _ (hfree _ rfl)
  | closePeriod id user now => exact climbs_closePeriod _ _ _
  | reopenPeriod id => exact climbs_reopenPeriod _
  | closeYear dto user entryId now => exact climbs_closeYear _ _ _ _ (hfree _ rfl)
  | reopenYear fiscalYear user entryId now => exact climbs_reopenYear _ _ _ _ (hfree _ rfl)
  | _ => exact hcontends.elim

end Requests

/-! ## Runs -/

/-- `x` asks for a document that `y` holds. -/
def Stance.Meets (x y : Stance) : Prop := x.kind = y.kind ∧ x.next ∈ y.before

/-- Two stances that can be taken at the same time: different payments hold different documents. -/
def Stance.Apart (x y : Stance) : Prop :=
  x.payment ≠ y.payment ∧ (x.kind = y.kind → ∀ b ∈ x.before, b ∉ y.before)

/-- Some of these payments can take stances, all at the same time, in which they ask for each other's
documents in a cycle. -/
def Crossing (db : Db) (ids : Set Uuid) : Prop :=
  ∃ T : Set Stance, (∀ x ∈ T, x.Of db ∧ x.payment ∈ ids) ∧ (∀ x ∈ T, ∀ y ∈ T, x ≠ y → x.Apart y) ∧
    ∃ x, TransGen (fun x y => x ∈ T ∧ y ∈ T ∧ x.Meets y) x x

/-- Two of these payments settle the document. -/
def Shared (db : Db) (ids : Set Uuid) (kind : DocumentKind) (d : Uuid) : Prop :=
  ∃ id ∈ ids, ∃ id' ∈ ids, id ≠ id' ∧ Covers db id kind [d] ∧ Covers db id' kind [d]

theorem Covers.of_mem {db : Db} {id d : Uuid} {kind : DocumentKind} {ids : List Uuid}
    (h : Covers db id kind ids) (hd : d ∈ ids) : Covers db id kind [d] := by
  obtain ⟨p, hp, hkind, hsub⟩ := h
  exact ⟨p, hp, hkind, List.cons_subset.mpr ⟨hsub hd, List.nil_subset _⟩⟩

/-- The document one stance asks for and another one holds is shared. -/
theorem Stance.Meets.shared {db : Db} {ids : Set Uuid} {T : Set Stance} {x y : Stance}
    (hof : ∀ x ∈ T, x.Of db ∧ x.payment ∈ ids) (hapart : ∀ x ∈ T, ∀ y ∈ T, x ≠ y → x.Apart y)
    (hx : x ∈ T) (hy : y ∈ T) (h : x.Meets y) : Shared db ids x.kind x.next := by
  obtain ⟨⟨hcovers, hnew⟩, hid⟩ := hof x hx
  obtain ⟨⟨hcovers', -⟩, hid'⟩ := hof y hy
  have hne : x ≠ y := by
    rintro rfl
    exact hnew h.2
  refine ⟨x.payment, hid, y.payment, hid', (hapart x hx y hy hne).1,
    hcovers.of_mem (by simp), ?_⟩
  rw [h.1]
  exact hcovers'.of_mem (List.mem_append_left _ h.2)

/-- Payments do not cross where they share one document at most. -/
theorem not_crossing_of_shared {db : Db} {ids : Set Uuid}
    (h : ∀ kind d d', Shared db ids kind d → Shared db ids kind d' → d = d') :
    ¬ Crossing db ids := by
  rintro ⟨T, hof, hapart, x, hcycle⟩
  -- a stance on the cycle is met by one, and meets another one
  obtain ⟨y, ⟨hx, hy, hmeets⟩, hrest⟩ := TransGen.head'_iff.mp hcycle
  obtain ⟨w, -, hw, -, hmeets'⟩ := TransGen.tail'_iff.mp hcycle
  have hshared := hmeets.shared hof hapart hx hy
  have hshared' := hmeets'.shared hof hapart hw hx
  rw [hmeets'.1] at hshared'
  exact (hof x hx).1.2 (h _ _ _ hshared' hshared ▸ hmeets'.2)

section Runs

variable {db₀ : Db} {ops : Request → Prop} {s : Server}

/-- What the contending requests leave as it is, they have left in every store of the run. -/
theorem follows_of_reachable (hops : ∀ r, ops r → r.Contends)
    (h : Reachable code (anytime ops) db₀ s) : ∀ t, Past db₀ s.history t → Follows db₀ t := by
  have hsound : s.Sound (protocol False) db₀ := sound_of_reachable h False.elim
  refine past_of_reachable (fun c => c.req.Contends) h (fun c hc => ?_) (.refl db₀)
    fun c htransacts hcontends hbefore _ => hbefore.after htransacts hcontends
  obtain ⟨p, hp, hreq⟩ := hsound.origin c hc
  rw [← hreq]
  exact hops _ (h.forall_req (fun _ _ hr => hr) p (List.mem_of_getElem? hp))

/-- The request `i` waits in the stance `x`. -/
def Takes (db₀ : Db) (s : Server) (i : ℕ) (x : Stance) : Prop :=
  ∃ p h, s.procs[i]? = some p ∧ s.wants i = some h ∧ Stands db₀ p.req (s.locks i) h x

/-- The payment and the documents of a stance rank as high as a document at most. -/
theorem Stands.lockRank_le {r : Request} {locks : List (Held Key LockName)} {h : Held Key LockName}
    {x : Stance} (hx : Stands db₀ r locks h x) (db : Db) :
    ∀ l ∈ locks, lockRank db l.1 ≤ lockRank db h.1 := by
  intro l hl
  rw [hx.asked]
  rcases hx.only l hl with hl | ⟨b, -, hl⟩ <;> rw [hl]
  · exact Nat.le_succ 1
  · exact Nat.le_refl 2

variable (hops : ∀ r, ops r → r.Contends ∧ ∀ id ∈ r.entryId, Db.entry db₀ id = none)
  (h : Reachable code (anytime ops) db₀ s)

include hops h

/-- A request that waits asks in order, or takes a stance. -/
theorem asksInOrder_of_reachable :
    s.AsksInOrder (lockRank s.db) fun i => ∃ x, Takes db₀ s i x := by
  intro i l hw
  have hsound : s.Sound (protocol False) db₀ := sound_of_reachable h False.elim
  have hasks : ∀ (s : Server) (r : Request), anytime ops s (.spawn r) →
      (code r).asks (protocol False) (Asking db₀ r) {} fun _ _ => True :=
    fun _ r hr => code_climbs (hops r hr).1 (hops r hr).2
  obtain ⟨p, hi, hlocks, hasking⟩ :=
    h.asks_of_wants (fun _ r _ => code_wp False r) hasks (fun _ _ => False.elim) hw
  have hfollows := follows_of_reachable (fun r hr => (hops r hr).1) h
  have hp := hsound.procs i p hi
  rw [hlocks]
  refine (hasking s.db hp.since (fun q hq => hfollows _ (hp.seen q hq))
    (hfollows _ hsound.chain.past_self)).imp_right ?_
  rintro ⟨x, hx⟩
  exact ⟨⟨x, p, l, hi, hw, by rwa [hlocks]⟩, hx.lockRank_le s.db⟩

omit hops in
/-- The stances of two requests are apart. -/
theorem Takes.apart {i j : ℕ} {x y : Stance} (hx : Takes db₀ s i x) (hy : Takes db₀ s j y)
    (hij : i ≠ j) : x.Apart y := by
  have hsound : s.Sound (protocol False) db₀ := sound_of_reachable h False.elim
  obtain ⟨p, _, hi, -, hx⟩ := hx
  obtain ⟨q, _, hj, -, hy⟩ := hy
  rw [Server.locks, hi] at hx
  rw [Server.locks, hj] at hy
  -- one lock cannot be held exclusively by both
  have hfree : ∀ l, (l, .exclusive) ∈ p.loc.locks → (l, .exclusive) ∉ q.loc.locks := by
    intro l hl hl'
    simpa [Conflicts] using hsound.compat i j p q hij hi hj _ hl _ hl'
  refine ⟨fun hpayment => ?_, fun hkind b hb hb' => ?_⟩
  · exact hfree _ hx.heldPayment (hpayment ▸ hy.heldPayment)
  · exact hfree _ (hx.heldDocuments b hb) (hkind ▸ hy.heldDocuments b hb')

omit hops h in
/-- A request in a stance waits for the one that holds the next document. -/
theorem Takes.meets {i j : ℕ} {x y : Stance} (hx : Takes db₀ s i x) (hy : Takes db₀ s j y)
    (hwaits : s.Waits i j) : x.Meets y := by
  obtain ⟨-, l, hl, l', hl', hconflicts⟩ := hwaits
  obtain ⟨_, h, -, hw, hx⟩ := hx
  obtain ⟨_, _, -, -, hy⟩ := hy
  obtain rfl : h = l := Option.some.inj (hw.symm.trans hl)
  have heq := lock_eq_of_conflicts hconflicts
  rw [hx.asked] at heq
  rcases hy.only l' hl' with hl' | ⟨b, hb, hl'⟩
  · exact absurd (heq.trans hl') (by simp)
  · have heq := heq.trans hl'
    simp only [Lock.row.injEq, Key.document.injEq] at heq
    exact ⟨heq.1, heq.2 ▸ hb⟩

/-- **No deadlock where no payments cross.** The requests post, void, reverse, close and reopen, and
draw keys that no journal entry has. -/
theorem not_deadlocked (hcross : ¬ Crossing db₀ {id | ∃ r, ops r ∧ r.payment = some id}) :
    ¬ s.Deadlocked := by
  intro hdeadlocked
  have hsound : s.Sound (protocol False) db₀ := sound_of_reachable h False.elim
  obtain ⟨i, hcycle⟩ := hsound.exists_cycle (asksInOrder_of_reachable hops h) hdeadlocked
  obtain ⟨_, ⟨-, ⟨x₀, -⟩, -⟩, -⟩ := TransGen.head'_iff.mp hcycle
  have : Nonempty Stance := ⟨x₀⟩
  -- one stance for each request that waits in one
  choose! stance hstance using fun i (hi : ∃ x, Takes db₀ s i x) => hi
  refine hcross ⟨stance '' {i | ∃ x, Takes db₀ s i x}, ?_, ?_, stance i, ?_⟩
  · rintro _ ⟨j, hj, rfl⟩
    obtain ⟨p, _, hp, -, hx⟩ := hstance j hj
    exact ⟨hx.of, p.req, h.forall_req (fun _ _ hr => hr) p (List.mem_of_getElem? hp), hx.payment⟩
  · rintro _ ⟨j, hj, rfl⟩ _ ⟨k, hk, rfl⟩ hne
    exact (hstance j hj).apart h (hstance k hk) fun hjk => hne (by rw [hjk])
  · refine hcycle.lift stance fun j k ⟨hwaits, hj, hk⟩ => ?_
    exact ⟨⟨j, hj, rfl⟩, ⟨k, hk, rfl⟩, (hstance j hj).meets (hstance k hk) hwaits⟩

end Runs

/-! ## Two receipts over two invoices -/

namespace Sample

/-- A receipt that settles half of each of two invoices. -/
def halves (a b : Uuid) : CreatePaymentDto :=
  ⟨.receipt, 7, midYear, 1, none, [⟨some a, none, rupiah 50⟩, ⟨some b, none, rupiah 50⟩]⟩

/-- Three posted invoices, one receipt over the first two, and one over `a` and `b`. -/
def receipts (a b : Uuid) : Server :=
  server (postedInvoice ++
    request 2 (.createDocument .salesInvoice invoice 9 21 .ordinal) 9 ++
    request 3 (.postDocument .salesInvoice 21 9 101 1 .ordinal) 28 ++
    request 4 (.createDocument .salesInvoice invoice 9 22 .ordinal) 9 ++
    request 5 (.postDocument .salesInvoice 22 9 104 1 .ordinal) 28 ++
    request 6 (.createPayment (halves 20 21) 9 30) 8 ++
    request 7 (.createPayment (halves a b) 9 31) 8)

/-- The post of a receipt, with an entry of its own; its allocations are found as they were made. -/
def postReceipt (id : Uuid) : Request := .postPayment id 9 (72 + id) 1 .plain .plain

/-- Both receipts are being posted, the first one after the `m`th statement and the second one after the
`n`th. -/
def posting (a b : Uuid) (m n : ℕ) : Server :=
  ((Server.start (receipts a b).db).run code
    (request 0 (postReceipt 30) m ++ request 1 (postReceipt 31) n)).getD (.start (receipts a b).db)

theorem reachable_posting {a b : Uuid} {m n : ℕ}
    (h : ((Server.start (receipts a b).db).run code
      (request 0 (postReceipt 30) m ++ request 1 (postReceipt 31) n)).isSome = true) :
    Reachable code (anytime fun r => ∃ id ∈ [30, 31], r = postReceipt id) (receipts a b).db
      (posting a b m n) := by
  obtain ⟨s, hs⟩ := Option.isSome_iff_exists.mp h
  rw [posting, hs]
  refine Reachable.run .start ?_ hs
  simp [request]

/-- Nothing else has the keys of their entries. -/
theorem postReceipt_contends {db : Db} (h : ∀ id ∈ [30, 31], Db.entry db (72 + id) = none)
    (r : Request) (hr : ∃ id ∈ [30, 31], r = postReceipt id) :
    r.Contends ∧ ∀ id ∈ r.entryId, Db.entry db id = none := by
  obtain ⟨id, hid, rfl⟩ := hr
  refine ⟨trivial, ?_⟩
  rintro _ ⟨⟩
  exact h id hid

end Sample

/-- Receipts that share one invoice: the second one waits for the first, and no cycle closes. -/
theorem not_deadlocked_receipts :
    (Sample.posting 21 22 12 8).Waits 1 0 ∧ ¬ (Sample.posting 21 22 12 8).Deadlocked := by
  refine ⟨by decide +kernel, not_deadlocked (Sample.postReceipt_contends (by decide +kernel))
    (Sample.reachable_posting (by decide +kernel)) (not_crossing_of_shared ?_)⟩
  have h : ∀ id ∈ [30, 31], ∀ id' ∈ [30, 31], id ≠ id' →
      ∀ p ∈ Db.payment (Sample.receipts 21 22).db id,
      ∀ p' ∈ Db.payment (Sample.receipts 21 22).db id',
      ∀ d ∈ p.documents, d ∈ p'.documents → d = 21 := by
    decide +kernel
  have hshared : ∀ kind d, Shared (Sample.receipts 21 22).db
      {x | ∃ r, (∃ id ∈ [30, 31], r = Sample.postReceipt id) ∧ r.payment = some x} kind d →
      d = 21 := by
    rintro kind d ⟨x, ⟨_, ⟨id, hid, rfl⟩, hx⟩, y, ⟨_, ⟨id', hid', rfl⟩, hy⟩, hne, ⟨p, hp, -, hd⟩,
      p', hp', -, hd'⟩
    obtain rfl : id = x := Option.some.inj hx
    obtain rfl : id' = y := Option.some.inj hy
    exact h id hid id' hid' hne p hp p' hp' d (hd List.mem_cons_self) (hd' List.mem_cons_self)
  exact fun kind d d' hd hd' => (hshared kind d hd).trans (hshared kind d' hd').symm

/-- **Two receipts over the same invoices in opposite orders wait for each other.** All requests in
flight post, and their entries have new keys. -/
theorem deadlocked :
    let db := (Sample.receipts 21 20).db
    let ops : Request → Prop := fun r => ∃ id ∈ [30, 31], r = Sample.postReceipt id
    Reachable code (anytime fun _ => True) Sample.db (Sample.receipts 21 20) ∧
      (∀ r, ops r → r.Contends ∧ ∀ id ∈ r.entryId, Db.entry db id = none) ∧
      ∃ s : Server, Reachable code (anytime ops) db s ∧ s.Deadlocked := by
  refine ⟨Sample.reachable (by decide +kernel),
    Sample.postReceipt_contends (by decide +kernel), Sample.posting 21 20 11 11,
    Sample.reachable_posting (by decide +kernel), 0, ?_⟩
  have hwaits : (Sample.posting 21 20 11 11).Waits 0 1 ∧ (Sample.posting 21 20 11 11).Waits 1 0 := by
    decide +kernel
  exact .tail (.single hwaits.1) hwaits.2

end AccountingApi
