import AccountingApi.Conformance.Journal

/-!
# Year-end close and reopen keep the protocol

A close and a reopen with an entry work under the exclusive lock of the year; without one they write
the year's record under its row lock only.
-/

namespace AccountingApi

open ReadCommitted Posting YearEndClose

section Pieces

variable {strict : Prop} {r : Request} {ℓ : Tx}

theorem wp_fiscalYearBounds {P : Protocol Row LockName Query Request} {fiscalYear : ℤ}
    {post : UtcDay × UtcDay → Tx → Prop} (hyear : 100 ≤ fiscalYear) (hnew : ℓ.published = false)
    (hbuf : ℓ.buf = [])
    (h : ∀ f t ℓ', ℓ.Ran P r ℓ' [] (fun c => FiscalYearBounds c fiscalYear f t) →
      post (f, t) ℓ') :
    (Company.fiscalYearBounds fiscalYear).wp P r ℓ post := by
  refine Prog.wp_bind.mpr (wp_settings hnew hbuf fun settings ℓ₁ h₁ => h _ _ ℓ₁ (h₁.mono ?_))
  rintro c ⟨s, hseen, hs⟩
  exact ⟨s, hseen, settings, hs, fiscalYearStartDate_eq (.of_ge hyear) _,
    fiscalYearEndDate_eq (.of_ge hyear) (.of_ge (by omega)) _⟩

theorem wp_retainedLines {P : Protocol Row LockName Query Request} {netIncome : ℤ}
    {post : List PostLineInput → Tx → Prop} (hnew : ℓ.published = false) (hbuf : ℓ.buf = [])
    (h : ∀ lines ℓ', ℓ.Ran P r ℓ' [] (fun c => RetainedLines c netIncome lines) →
      post lines ℓ') :
    (retainedLines netIncome).wp P r ℓ post := by
  rw [retainedLines]
  split
  · rename_i hzero
    have hnet : netIncome = 0 := by simpa [Money.isZero] using hzero
    exact h _ ℓ ((Local.Ran.refl hnew).mono fun _ _ => .inl ⟨hnet, rfl⟩)
  · rename_i hzero
    have hnet : netIncome ≠ 0 := by simpa [Money.isZero] using hzero
    refine Prog.wp_bind.mpr (wp_read hnew hbuf fun s ℓ₁ h₁ => ?_)
    refine Prog.wp_bind.mpr (Prog.wp_orThrow h₁.new fun retained hretained => ?_)
    exact h _ ℓ₁ (h₁.mono fun c hc => .inr ⟨hnet, retained.1,
      ⟨s, hc.1, retained.2, hretained⟩, rfl⟩)

/-- The year's record written under its row lock. -/
theorem wp_upsertClosing {P : Protocol Row LockName Query Request} {fiscalYear : ℤ}
    {rec : YearEndClosing} {post : Unit → Tx → Prop} (hnew : ℓ.published = false)
    (h : ∀ ℓ', rec.Valid → ℓ.Ran P r ℓ' [⟨.closing fiscalYear, rec⟩] (fun _ => True) →
      post () ℓ') :
    (upsertClosing fiscalYear rec).wp P r ℓ post := by
  refine Prog.wp_bind.mpr (wp_forUpdate hnew fun s ℓ₁ h₁ => ?_)
  refine Prog.wp_bind.mpr (Prog.wp_ensure h₁.new fun hvalid => ?_)
  refine Prog.wp_write h₁.new fun ℓ₂ h₂ => h ℓ₂ hvalid ?_
  exact (h₁.trans h₂).mono fun _ _ => trivial

/-- Under the exclusive lock, a year that is not closed does not become closed with an entry. -/
theorem wp_lockAndReadClosingStatus {fiscalYear : ℤ} {post : Option OpenClosed → Tx → Prop}
    (hnew : ℓ.published = false) (hbuf : ℓ.buf = [])
    (h : ∀ status ℓ', ℓ.Ran (protocol strict) r ℓ' [] (fun c =>
      (.named (.fiscalYear fiscalYear), .exclusive) ∈ c.locks ∧
        (status ≠ some .closed → ¬ ClosedWithEntry c.before fiscalYear)) → post status ℓ') :
    (lockAndReadClosingStatus fiscalYear).wp (protocol strict) r ℓ post := by
  refine Prog.wp_bind.mpr (Prog.wp_lock hnew fun _ ℓ₁ h₁ hmem => ?_)
  refine Prog.wp_bind.mpr (Prog.wp_query h₁.new fun s ℓ₂ h₂ => h _ ℓ₂ ((h₁.trans h₂).mono ?_))
  rintro c ⟨⟨hlock, -⟩, -, -, hheld⟩
  refine ⟨hlock, fun hstatus => notClosedWithEntry_of_drift (hheld _ hmem) ?_⟩
  rintro ⟨rec, hrec, hclosed, -⟩
  refine hstatus ?_
  rw [Local.view, buf_of_ran h₁ hbuf, Store.putAll_nil, hrec, Option.map_some, hclosed]

end Pieces

section Requests

variable {strict : Prop}

theorem closeYear_wp (dto : CloseYearDto) (user entryId : Uuid) (now : Timestamp) :
    (code (.closeYear dto user entryId now)).wp (protocol strict)
      (.closeYear dto user entryId now) {} fun _ _ => True := by
  obtain ⟨fiscalYear, hmin, hmax⟩ := dto
  refine wp_respond (Prog.wp_bind.mpr (wp_read rfl rfl fun s₁ ℓ₁ h₁ => ?_))
  refine Prog.wp_bind.mpr (Prog.wp_ensure h₁.new fun hopen => ?_)
  have b₁ := buf_of_ran h₁ rfl
  refine Prog.wp_bind.mpr (wp_fiscalYearBounds (by simp only; omega) h₁.new b₁ fun f t ℓ₂ h₂ => ?_)
  have b₂ := buf_of_ran h₂ b₁
  refine Prog.wp_bind.mpr (wp_read h₂.new b₂ fun s₃ ℓ₃ h₃ => ?_)
  have b₃ := buf_of_ran h₃ b₂
  have h₁₃ := h₁.trans (h₂.trans h₃)
  rcases hread : closingLines [] Money.zero (pnlRows s₃ f t) with ⟨lines, netIncome⟩
  have hrows : closingLines [] Money.zero ((Balances.movementsBetween s₃ f t).filter fun r =>
      isPnl r.type) = (lines, netIncome) := hread
  simp only [hrows]
  by_cases hlines : lines = []
  · subst hlines
    rw [if_pos rfl]
    refine Prog.wp_bind.mpr (wp_transaction ?_)
    refine wp_upsertClosing h₃.new fun ℓ₄ hvalid h₄ db hs => ⟨?_, trivial⟩
    refine Local.Ran.guar (h₁₃.trans h₄) rfl hs fun c hreq hwrites hc => ?_
    obtain ⟨⟨⟨hsaw, -⟩, hbounds, hseen, -⟩, -⟩ := hc
    exact .closeEmptyYear fiscalYear hmin hmax user entryId now f t netIncome _ ⟨s₁, hsaw, hopen⟩ hreq
      hbounds ⟨s₃, hseen, hread⟩ rfl hwrites
  · rw [if_neg hlines]
    refine Prog.wp_bind.mpr (wp_retainedLines h₃.new b₃ fun retained ℓ₄ h₄ => ?_)
    have b₄ := buf_of_ran h₄ b₃
    refine Prog.wp_bind.mpr (wp_preparePosting h₄.new b₄ fun p ℓ₅ h₅ => ?_)
    have b₅ := buf_of_ran h₅ b₄
    refine Prog.wp_bind.mpr (wp_transaction ?_)
    refine Prog.wp_bind.mpr (wp_lockAndReadClosingStatus h₅.new b₅ fun status ℓ₆ h₆ => ?_)
    refine Prog.wp_bind.mpr (Prog.wp_ensure h₆.new fun hstatus => ?_)
    have b₆ := buf_of_ran h₆ b₅
    refine Prog.wp_bind.mpr
      (wp_createPostedEntryInTx h₆.new (.of_buf b₆) fun n wn entry ℓ₇ _ h₇ => ?_)
    refine wp_upsertClosing h₇.new fun ℓ₈ hvalid h₈ db hs => ⟨?_, fun _ _ => trivial⟩
    have hran := h₁₃.trans (h₄.trans (h₅.trans (h₆.trans (h₇.trans h₈))))
    refine Local.Ran.guar hran rfl hs fun c hreq hwrites hc => ?_
    obtain ⟨⟨-, hbounds, hseen, -⟩, hretained, hprepared, ⟨hlock, hnot⟩, hcreated, -⟩ := hc
    exact .closeYear ⟨fiscalYear, hmin, hmax, user, entryId, now, f, t, lines, retained, netIncome, p,
      n, wn, entry, _, hreq, hbounds, ⟨s₃, hseen, hread⟩, hlines, hretained, hprepared, hlock, hnot hstatus,
      hcreated, rfl, hvalid, by simpa using hwrites⟩

theorem reopenYear_wp (fiscalYear : ℤ) (user entryId : Uuid) (now : Timestamp) :
    (code (.reopenYear fiscalYear user entryId now)).wp (protocol strict)
      (.reopenYear fiscalYear user entryId now) {} fun _ _ => True := by
  refine wp_respond (Prog.wp_bind.mpr (wp_read rfl rfl fun s ℓ₁ h₁ => ?_))
  refine Prog.wp_bind.mpr (Prog.wp_orThrow h₁.new fun rec hrec => ?_)
  have b₁ := buf_of_ran h₁ rfl
  obtain ⟨hrec, hclosed⟩ := Option.filter_eq_some_iff.mp hrec
  have hclosed : rec.status = .closed := by simpa using hclosed
  refine Prog.wp_bind.mpr ?_
  cases hentry : rec.closingEntryId with
  | none =>
    refine wp_transaction ?_
    refine Prog.wp_bind.mpr (wp_updateRow h₁.new fun v ℓ₂ _ _ h₂ db hs => ⟨?_, fun _ _ => trivial⟩)
    refine Local.Ran.guar (h₁.trans h₂) rfl hs fun c hreq hwrites hc => ?_
    obtain ⟨⟨hseen, -⟩, hcurrent⟩ := hc
    rw [b₁, Store.putAll_nil, ← Db.closing_eq_row] at hcurrent
    exact .reopenEmptyYear fiscalYear user entryId now v hreq ⟨s, hseen, rec, hrec, hclosed, hentry⟩
      hcurrent hwrites
  | some closingEntryId =>
    refine Prog.wp_bind.mpr (wp_prepareReversal h₁.new b₁ fun p ℓ₂ h₂ => wp_transaction ?_)
    have b₂ := buf_of_ran h₂ b₁
    refine Prog.wp_bind.mpr (wp_lockAndReadClosingStatus h₂.new b₂ fun status ℓ₃ h₃ => ?_)
    refine Prog.wp_bind.mpr (Prog.wp_ensure h₃.new fun _ => ?_)
    have b₃ := buf_of_ran h₃ b₂
    refine Prog.wp_bind.mpr
      (wp_reverseInTx h₃.new (.of_buf b₃) fun n wn o rev ℓ₄ _ h₄ => ?_)
    refine Prog.wp_bind.mpr (wp_updateRow h₄.new fun v ℓ₅ _ _ h₅ db hs => ⟨?_, fun _ _ => trivial⟩)
    have hran := h₁.trans (h₂.trans (h₃.trans (h₄.trans h₅)))
    refine Local.Ran.guar hran rfl hs fun c hreq hwrites hc => ?_
    obtain ⟨⟨hseen, -⟩, ⟨hprepared, hstill⟩, ⟨hlock, -⟩, hreversed, hcurrent⟩ := hc
    have hrev := hreversed hstill
    have hsame := closings.get_putAll c.before (reversalWrites p entryId wn o rev) fiscalYear
    rw [hrev.writes_closings, overwrite_nil] at hsame
    rw [h₄.buf, b₃, List.nil_append, ← Db.closing_eq_row, Db.closing, hsame] at hcurrent
    exact .reopenYear ⟨fiscalYear, user, entryId, closingEntryId, now, v, p, n, wn, o, rev, hreq,
      ⟨s, hseen, rec, hrec, hclosed, hentry⟩, hprepared, hlock, hrev, hcurrent,
      by simpa using hwrites⟩

end Requests

end AccountingApi
