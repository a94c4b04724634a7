import AccountingApi.Conformance.Journal

/-!
# Invoices and bills keep the protocol

One theorem for each request on a document, and one for the update of a tax code. A post and a void
answer with the document they have just committed, which nobody can delete any more; an edit may find
it gone.
-/

namespace AccountingApi

open ReadCommitted Posting TaxedDocument

section Reads

variable {P : Protocol Row LockName Query Request} {r : Request} {ℓ : Tx}

theorem wp_findControlAccountId {role : AccountRole} {post : Uuid → Tx → Prop}
    (hnew : ℓ.published = false) (hbuf : ℓ.buf = [])
    (h : ∀ id ℓ', ℓ.Ran P r ℓ' [] (fun c => Saw c .account fun s =>
      ∃ a, Db.accountOfRole s role = some (id, a)) → post id ℓ') :
    (findControlAccountId role).wp P r ℓ post := by
  refine Prog.wp_bind.mpr (wp_read hnew hbuf fun s ℓ₁ h₁ => ?_)
  refine Prog.wp_bind.mpr (Prog.wp_orThrow h₁.new fun acc hacc => h _ ℓ₁ (h₁.mono ?_))
  exact fun c hc => ⟨s, hc.1, acc.2, hacc⟩

theorem wp_findPartner {id : Uuid} {post : BusinessPartner → Tx → Prop}
    (hnew : ℓ.published = false) (hbuf : ℓ.buf = [])
    (h : ∀ partner ℓ', ℓ.Ran P r ℓ' [] (fun _ => True) → post partner ℓ') :
    (findPartner id).wp P r ℓ post :=
  Prog.wp_bind.mpr (wp_read hnew hbuf fun _ ℓ₁ h₁ =>
    Prog.wp_orThrow h₁.new fun partner _ => h partner ℓ₁ (h₁.mono fun _ _ => trivial))

theorem wp_assertPartner {kind : DocumentKind} {id : Uuid} {post : Unit → Tx → Prop}
    (hnew : ℓ.published = false) (hbuf : ℓ.buf = [])
    (h : ∀ ℓ', ℓ.Ran P r ℓ' [] (fun _ => True) → post () ℓ') :
    (assertPartner kind id).wp P r ℓ post :=
  Prog.wp_bind.mpr (wp_findPartner hnew hbuf fun _ ℓ₁ h₁ =>
    Prog.wp_ensure h₁.new fun _ => h ℓ₁ h₁)

/-- The tax engine, on the tax codes as they are read. -/
theorem wp_calculateNow {collation : Collation} {input : TaxableTransaction}
    {post : TaxCalculation → Tx → Prop} (hnew : ℓ.published = false) (hbuf : ℓ.buf = [])
    (h : ∀ codes res ℓ', TaxService.calculate collation (Db.liveTaxCode codes) input = .ok res →
      ℓ.Ran P r ℓ' [] (fun c => (.taxCodes, codes) ∈ c.seen) → post res ℓ') :
    (TaxService.calculateNow collation input).wp P r ℓ post := by
  refine Prog.wp_bind.mpr (Prog.wp_ofExcept hnew fun _ hlines => ?_)
  refine Prog.wp_bind.mpr (wp_read hnew hbuf fun codes ℓ₁ h₁ => ?_)
  refine Prog.wp_ofExcept h₁.new fun res hres => h codes res ℓ₁ ?_ (h₁.mono fun _ hc => hc.1)
  rw [TaxService.calculate, hlines]
  exact hres

theorem wp_computeTotals {collation : Collation} {kind : DocumentKind} {id : Uuid}
    {lines : List DocumentLineInput} {post : DocumentTotals → Tx → Prop}
    (hnew : ℓ.published = false) (hbuf : ℓ.buf = [])
    (h : ∀ totals ℓ', ℓ.Ran P r ℓ' [] (fun c => Computed c collation kind lines totals) →
      post totals ℓ') :
    (computeTotals collation kind.descriptor.nature id (taxableLines lines)).wp P r ℓ post :=
  Prog.wp_bind.mpr (wp_calculateNow hnew hbuf fun codes res ℓ₁ hres h₁ =>
    h _ ℓ₁ (h₁.mono fun _ hc => ⟨id, codes, res, hc, hres, rfl⟩))

/-- The document and its lines, from two reads. -/
theorem wp_getById {kind : DocumentKind} {id : Uuid}
    {post : Document × List DocumentLine → Tx → Prop} (hnew : ℓ.published = false)
    (hbuf : ℓ.buf = [])
    (h : ∀ row lines ℓ', ℓ.Ran P r ℓ' [] (fun c =>
      (Saw c .document fun s => Db.liveDocument s kind id = some row) ∧
        Saw c .documentLines fun s => Db.documentLines s kind id = lines) →
      post (row, lines) ℓ') :
    (getById kind id).wp P r ℓ post := by
  refine Prog.wp_bind.mpr (wp_read hnew hbuf fun s₁ ℓ₁ h₁ => ?_)
  refine Prog.wp_bind.mpr (Prog.wp_orThrow h₁.new fun row hrow => ?_)
  refine Prog.wp_bind.mpr (wp_read h₁.new (buf_of_ran h₁ hbuf) fun s₂ ℓ₂ h₂ => ?_)
  exact h row _ ℓ₂ ((h₁.trans h₂).mono fun c hc => ⟨⟨s₁, hc.1.1, hrow⟩, s₂, hc.2.1, rfl⟩)

end Reads

/-- The answer of a request that has committed: it finds the document, or may fail late. -/
theorem wp_getById_published {strict : Prop} {r : Request} {ℓ : Tx} {db : Db} {kind : DocumentKind}
    {id : Uuid} (h : (protocol strict).late r ∨ ∃ d, Db.document (ℓ.view db) kind id = some d ∧
      d.status ≠ .draft ∧ d.deletedAt = none) :
    (getById kind id).wp (protocol strict) r (ℓ.publish db) fun _ _ => True := by
  refine Prog.wp_bind.mpr fun db' hs => Prog.wp_bind.mpr ?_
  have hview : (ℓ.publish db).view db' = db' := rfl
  rw [hview]
  cases hdoc : Db.liveDocument db' kind id with
  | some d => exact fun _ _ => trivial
  | none =>
    refine fun _ => h.resolve_right ?_
    rintro ⟨d, hd, hnot, hlive⟩
    obtain ⟨d', hd', hsteps⟩ := document_of_drift (hs _ List.mem_cons_self) hd
    obtain ⟨-, hlive'⟩ := live_of_documentSteps hsteps hnot hlive
    rw [Db.liveDocument, hd', Option.filter_some, hlive'] at hdoc
    cases hdoc

/-- A number drawn from a counter is no document. -/
theorem ne_document_of_sequence {ws : List (Write Row)} {s : Sequence}
    (h : ∀ w ∈ ws, w.1 = .sequence s) (kind : DocumentKind) (id : Uuid) :
    ∀ w ∈ ws, w.1 ≠ .document kind id :=
  fun w hw he => by rw [h w hw] at he; cases he

/-- The locked draft is the one the commit finds. -/
theorem wp_lockDraftInTx {P : Protocol Row LockName Query Request} {r : Request} {ℓ : Tx}
    {kind : DocumentKind} {id : Uuid} {post : Unit → Tx → Prop} (hnew : ℓ.published = false)
    (hbuf : ℓ.buf = [])
    (h : ∀ d ℓ', d.status = .draft → d.deletedAt = none →
      ℓ.Ran P r ℓ' [] (fun c => Db.document c.before kind id = some d) → post () ℓ') :
    (lockDraftInTx kind id).wp P r ℓ post := by
  refine Prog.wp_bind.mpr (wp_forUpdate hnew fun s ℓ₁ h₁ => ?_)
  refine Prog.wp_ensure h₁.new ?_
  rintro ⟨d, hd, hdraft⟩
  obtain ⟨hd, hlive⟩ := Option.filter_eq_some_iff.mp hd
  refine h d ℓ₁ hdraft (Option.isNone_iff_eq_none.mp hlive) (h₁.mono fun c hc => ?_)
  rw [hbuf, Store.putAll_nil, ← Db.document_eq_row, ← Db.document_eq_row, hd] at hc
  exact hc

section Requests

variable {strict : Prop}

theorem updateTaxCode_wp (id : Uuid) (rate : Option ℤ) (isActive : Option Bool) :
    (code (.updateTaxCode id rate isActive)).wp (protocol strict) (.updateTaxCode id rate isActive)
      {} fun _ _ => True := by
  refine wp_respond (Prog.wp_bind.mpr (wp_read rfl rfl fun s ℓ₁ h₁ => ?_))
  refine Prog.wp_bind.mpr (Prog.wp_orThrow h₁.new fun _ _ => ?_)
  refine Prog.wp_bind.mpr (Prog.wp_ofExcept h₁.new fun _ _ => wp_transaction ?_)
  refine wp_updateRow h₁.new fun code ℓ₂ _ _ h₂ db hs => ⟨?_, trivial⟩
  refine Local.Ran.guar h₂ (buf_of_ran h₁ rfl) hs fun c hreq hwrites hc => ?_
  rw [buf_of_ran h₁ rfl, Store.putAll_nil] at hc
  exact .updateTaxCode id rate isActive code hreq hc hwrites

theorem createDocument_wp (kind : DocumentKind) (dto : CreateDocumentDto) (user id : Uuid)
    (collation : Collation) :
    (code (.createDocument kind dto user id collation)).wp (protocol strict)
      (.createDocument kind dto user id collation) {} fun _ _ => True := by
  refine wp_respond (Prog.wp_bind.mpr (wp_assertPartner rfl rfl fun ℓ₁ h₁ => ?_))
  have b₁ := buf_of_ran h₁ rfl
  refine Prog.wp_bind.mpr (wp_findControlAccountId h₁.new b₁ fun settlementId ℓ₂ h₂ => ?_)
  have b₂ := buf_of_ran h₂ b₁
  refine Prog.wp_bind.mpr (wp_computeTotals h₂.new b₂ fun totals ℓ₃ h₃ => ?_)
  have b₃ := buf_of_ran h₃ b₂
  refine Prog.wp_bind.mpr (wp_transaction ?_)
  refine Prog.wp_bind.mpr (wp_insert h₃.new fun ℓ₄ hvalid h₄ => ?_)
  refine wp_insert h₄.new fun ℓ₅ _ h₅ db hs => ⟨?_, trivial⟩
  refine Local.Ran.guar (h₃.trans (h₄.trans h₅)) b₂ hs fun c hreq hwrites hc => ?_
  obtain ⟨hcomputed, hfresh, hfreshLines⟩ := hc
  rw [b₃, Store.putAll_nil, ← Db.document_eq_row] at hfresh
  rw [h₄.buf, b₃, List.nil_append, Store.putAll_cons, Store.putAll_nil,
    Store.row_put_of_ne _ _ (by simp)] at hfreshLines
  exact .createDocument kind dto user id collation totals _ _ hreq rfl hcomputed rfl hvalid hfresh
    hfreshLines hwrites

theorem deleteDocument_wp (kind : DocumentKind) (id user : Uuid) (now : Timestamp) :
    (code (.deleteDocument kind id user now)).wp (protocol strict) (.deleteDocument kind id user now)
      {} fun _ _ => True := by
  refine wp_respond (wp_softDeleteDraft fun c d hreq hwrites hrow hdraft => ?_)
  exact .deleteDocument kind id user now d hreq ((Db.document_eq_row _ _ _).trans hrow) hdraft.1
    hdraft.2 hwrites

theorem updateDocument_wp (kind : DocumentKind) (id : Uuid) (dto : UpdateDocumentDto)
    (collation : Collation) :
    (code (.updateDocument kind id dto collation)).wp (protocol strict)
      (.updateDocument kind id dto collation) {} fun _ _ => True := by
  refine wp_respond (Prog.wp_bind.mpr (wp_getById rfl rfl fun row lines ℓ₁ h₁ => ?_))
  refine Prog.wp_bind.mpr (Prog.wp_ensure h₁.new fun hdraft => ?_)
  have b₁ := buf_of_ran h₁ rfl
  refine Prog.wp_bind.mpr (wp_findControlAccountId h₁.new b₁ fun settlementId ℓ₂ h₂ => ?_)
  have b₂ := buf_of_ran h₂ b₁
  refine Prog.wp_bind.mpr (wp_computeTotals h₂.new b₂ fun totals ℓ₃ h₃ => ?_)
  have b₃ := buf_of_ran h₃ b₂
  refine Prog.wp_bind.mpr (wp_transaction ?_)
  refine Prog.wp_bind.mpr (wp_forUpdate h₃.new fun _ ℓ₄ h₄ => ?_)
  refine Prog.wp_bind.mpr (wp_updateRow h₄.new fun d ℓ₅ hlive hvalid h₅ => ?_)
  refine Prog.wp_bind.mpr (Prog.wp_ensure h₅.new fun _ => ?_)
  refine Prog.wp_write h₅.new fun ℓ₆ h₆ db hs => ⟨?_, ?_⟩
  · have hran := h₁.trans (h₂.trans (h₃.trans (h₄.trans (h₅.trans h₆))))
    refine Local.Ran.guar hran rfl hs fun c hreq hwrites hc => ?_
    obtain ⟨⟨⟨s, hseen, hrow⟩, -⟩, -, hcomputed, -, hcurrent, -⟩ := hc
    rw [buf_of_ran h₄ b₃, Store.putAll_nil, ← Db.document_eq_row] at hcurrent
    exact .updateDocument kind id dto collation row d totals _ _ hreq ⟨s, hseen, hrow, hdraft⟩
      hcomputed rfl hcurrent hlive hvalid hwrites
  · exact wp_getById_published (.inl ⟨kind, id, dto, collation, rfl⟩)

theorem postDocument_wp (kind : DocumentKind) (id user entryId : Uuid) (now : Timestamp)
    (collation : Collation) :
    (code (.postDocument kind id user entryId now collation)).wp (protocol strict)
      (.postDocument kind id user entryId now collation) {} fun _ _ => True := by
  refine wp_respond (Prog.wp_bind.mpr (wp_getById rfl rfl fun row lines ℓ₁ h₁ => ?_))
  refine Prog.wp_bind.mpr (Prog.wp_ensure h₁.new fun _ => ?_)
  have b₁ := buf_of_ran h₁ rfl
  refine Prog.wp_bind.mpr (wp_assertPartner h₁.new b₁ fun ℓ₂ h₂ => ?_)
  have b₂ := buf_of_ran h₂ b₁
  refine Prog.wp_bind.mpr (wp_findControlAccountId h₂.new b₂ fun settlementId ℓ₃ h₃ => ?_)
  have b₃ := buf_of_ran h₃ b₂
  refine Prog.wp_bind.mpr (wp_calculateNow h₃.new b₃ fun codes res ℓ₄ hres h₄ => ?_)
  have b₄ := buf_of_ran h₄ b₃
  refine Prog.wp_bind.mpr (wp_preparePosting h₄.new b₄ fun p ℓ₅ h₅ => ?_)
  have b₅ := buf_of_ran h₅ b₄
  refine Prog.wp_bind.mpr (wp_transaction ?_)
  refine Prog.wp_bind.mpr (wp_lockDraftInTx h₅.new b₅ fun d ℓ₆ hdraft hlive h₆ => ?_)
  have b₆ := buf_of_ran h₆ b₅
  refine Prog.wp_bind.mpr
    (wp_nextSequenceNumber h₆.new (.of_buf b₆ _) fun n wn ℓ₇ hwn h₇ => ?_)
  have hstamp : BeforeStamp ℓ₇ :=
    (BeforeStamp.of_buf b₆).ran h₇ fun w hw => by rw [hwn w hw]; exact trivial
  refine Prog.wp_bind.mpr
    (wp_createPostedEntryInTx h₇.new hstamp fun m wm entry ℓ₈ hwm h₈ => ?_)
  refine Prog.wp_bind.mpr (wp_updateRow h₈.new fun v ℓ₉ hv₉ hvalid h₉ db hs => ⟨?_, ?_⟩)
  · have hran := h₁.trans (h₂.trans (h₃.trans (h₄.trans (h₅.trans (h₆.trans (h₇.trans
      (h₈.trans h₉)))))))
    refine Local.Ran.guar hran rfl hs fun c hreq hwrites hc => ?_
    obtain ⟨⟨hrow, hlines⟩, -, hcontrol, hcodes, hprepared, hcurrent, hticket, hcreated, hv⟩ := hc
    have hfree : ℓ₈.Untouched (.document kind id) := by
      refine ((Local.Untouched.of_buf b₆ _).ran h₇ (ne_document_of_sequence hwn kind id)).ran h₈ ?_
      intro w hw
      rcases List.mem_append.mp hw with hw | hw
      · exact ne_document_of_sequence hwm kind id w hw
      · rw [List.mem_singleton.mp hw]
        exact nofun
    have hdoc : Db.document c.before kind id = some v :=
      ((Db.document_eq_row _ _ _).trans (hfree.row_view c.before).symm).trans hv
    obtain rfl : d = v := Option.some.inj (hcurrent ▸ hdoc)
    exact .postDocument ⟨kind, id, user, entryId, now, collation, row, d, lines, settlementId, codes,
      res, p, n, m, wn, wm, entry, _, hreq, ⟨hrow, hlines, hcontrol, hcodes, hres⟩, hprepared, hcurrent,
      hlive, hdraft, hticket, hcreated, rfl, hvalid, by simpa using hwrites⟩
  · exact wp_getById_published
      (.inr ⟨_, (Db.document_eq_row _ _ _).trans (h₉.row_view db), nofun, hv₉⟩)

theorem voidDocument_wp (kind : DocumentKind) (id user entryId : Uuid) (now : Timestamp) :
    (code (.voidDocument kind id user entryId now)).wp (protocol strict)
      (.voidDocument kind id user entryId now) {} fun _ _ => True := by
  refine wp_respond (Prog.wp_bind.mpr (wp_getById rfl rfl fun row lines ℓ₁ h₁ => ?_))
  refine Prog.wp_bind.mpr (Prog.wp_ensure h₁.new fun hposted => ?_)
  refine Prog.wp_bind.mpr (Prog.wp_ensure h₁.new fun _ => ?_)
  refine Prog.wp_bind.mpr (Prog.wp_orThrow h₁.new fun journalEntryId hentry => ?_)
  have b₁ := buf_of_ran h₁ rfl
  refine Prog.wp_bind.mpr (Prog.wp_bind.mpr (wp_prepareReversal h₁.new b₁ fun p ℓ₂ h₂ => ?_))
  have b₂ := buf_of_ran h₂ b₁
  refine Prog.wp_mapThrow.mpr (wp_transaction ?_)
  refine Prog.wp_bind.mpr (Prog.wp_bind.mpr (wp_forUpdate h₂.new fun s ℓ₃ h₃ => ?_))
  have b₃ := buf_of_ran h₃ b₂
  refine Prog.wp_bind.mpr (Prog.wp_orThrow h₃.new fun d hd => ?_)
  refine Prog.wp_bind.mpr (Prog.wp_ensure h₃.new fun hlocked => ?_)
  refine Prog.wp_bind.mpr (Prog.wp_bind.mpr (Prog.wp_ensure h₃.new fun hunpaid => ?_))
  refine Prog.wp_bind.mpr (wp_updateRow h₃.new fun v ℓ₄ hlive _ h₄ => ?_)
  have hstamp : BeforeStamp ℓ₄ := (BeforeStamp.of_buf b₃).ran h₄ (by simp [Key.BeforeStamp])
  refine Prog.wp_bind.mpr
    (wp_reverseInTx h₄.new hstamp fun n wn o rev ℓ₅ hwn h₅ db hs => ⟨?_, ?_⟩)
  · refine Local.Ran.guar (h₁.trans (h₂.trans (h₃.trans (h₄.trans h₅)))) rfl hs
      fun c hreq hwrites hc => ?_
    obtain ⟨⟨⟨s₁, hseen, hrow⟩, -⟩, ⟨hprepared, hstill⟩, hlock, hv, hreversed⟩ := hc
    obtain ⟨hd, hdlive⟩ := Option.filter_eq_some_iff.mp hd
    rw [b₂, Store.putAll_nil, ← Db.document_eq_row, ← Db.document_eq_row, hd] at hlock
    rw [b₃, Store.putAll_nil, ← Db.document_eq_row, hlock] at hv
    cases hv
    exact .voidDocument ⟨kind, id, user, entryId, journalEntryId, now, row, d, p, n, wn, o, rev, hreq,
      ⟨s₁, hseen, hrow, hposted, hentry⟩, hprepared, hlock, hlive, hlocked,
      by simpa [Money.isZero] using hunpaid, hreversed hstill, hwrites⟩
  · have hvoid : (TaxedDocument.markVoid v).status ≠ .draft := by simp [TaxedDocument.markVoid]
    refine wp_getById_published (.inr ⟨TaxedDocument.markVoid v, ?_, hvoid, hlive⟩)
    have hfree : ∀ w ∈ reversalWrites p entryId wn o rev, w.1 ≠ .document kind id := by
      intro w hw
      rcases List.mem_append.mp hw with hw | hw
      · exact ne_document_of_sequence hwn kind id w hw
      · simp only [List.mem_cons, List.not_mem_nil, or_false] at hw
        rcases hw with rfl | rfl <;> simp
    rw [Db.document_eq_row, Local.view, h₅.buf, Store.putAll_append,
      Store.row_putAll_of_notMem _ hfree]
    exact h₄.row_view db

end Requests

end AccountingApi
