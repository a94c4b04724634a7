import AccountingApi.Conformance.Posting

/-!
# The journal keeps the protocol

One theorem for each request on journal entries.
-/

namespace AccountingApi

open ReadCommitted Posting

section SoftDelete

variable {P : Protocol Row LockName Query Request} {r : Request}

/-- The soft deletion of a draft. -/
theorem wp_softDeleteDraft {k : Key} {isDraft : Row k → Prop} [DecidablePred isDraft]
    {delete : Row k → Row k} {id : Uuid} {noun : String}
    (hguar : ∀ (c : Commit) (v : Row k), c.req = r → c.writes = [⟨k, delete v⟩] →
      c.before.row k = some v → isDraft v → P.guar c) :
    (DocumentLifecycle.softDeleteDraft k isDraft delete id noun).wp P r {} fun _ _ => True := by
  refine wp_transaction ?_
  refine Prog.wp_bind.mpr (wp_forUpdate rfl fun s ℓ₁ h₁ => ?_)
  refine Prog.wp_bind.mpr (Prog.wp_orThrow h₁.new fun v hv => ?_)
  refine Prog.wp_bind.mpr (Prog.wp_ensure h₁.new fun hdraft => ?_)
  refine Prog.wp_write h₁.new fun ℓ₂ h₂ db hs => ⟨?_, trivial⟩
  refine Local.Ran.guar (h₁.trans h₂) rfl hs fun c hreq hwrites hc => ?_
  exact hguar c v hreq hwrites (hc.1.trans hv) hdraft

end SoftDelete

section Journal

variable {strict : Prop}

theorem createEntry_wp (dto : CreateJournalEntryDto) (user id : Uuid) :
    (code (.createEntry dto user id)).wp (protocol strict) (.createEntry dto user id) {}
      fun _ _ => True := by
  refine wp_respond (wp_transaction ?_)
  refine Prog.wp_bind.mpr (wp_insert rfl fun ℓ₁ hvalid h₁ db hs => ⟨?_, trivial⟩)
  refine Local.Ran.guar h₁ rfl hs fun c hreq hwrites hfresh => ?_
  exact .createEntry dto user id _ hreq rfl hvalid ((Db.entry_eq_row _ _).trans hfresh) hwrites

theorem deleteEntry_wp (id user : Uuid) (now : Timestamp) :
    (code (.deleteEntry id user now)).wp (protocol strict) (.deleteEntry id user now) {}
      fun _ _ => True := by
  refine wp_respond (wp_softDeleteDraft fun c e hreq hwrites hrow hdraft => ?_)
  exact .deleteEntry id user now e hreq ((Db.entry_eq_row _ _).trans hrow) hdraft.1 hdraft.2
    hwrites

theorem reverseEntry_wp (id user newId : Uuid) (now : Timestamp) :
    (code (.reverseEntry id user newId now)).wp (protocol strict) (.reverseEntry id user newId now)
      {} fun _ _ => True := by
  refine wp_respond (Prog.wp_bind.mpr (wp_prepareReversal rfl rfl fun p ℓ₁ h₁ => ?_))
  refine Prog.wp_mapThrow.mpr (wp_transaction ?_)
  refine wp_reverseInTx h₁.new (.of_buf (buf_of_ran h₁ rfl))
    fun n wn o rev ℓ₂ _ h₂ db hs => ⟨?_, trivial⟩
  refine Local.Ran.guar (h₁.trans h₂) rfl hs fun c hreq hwrites hc => ?_
  exact .reverseEntry id user newId now p n wn o rev hreq hc.1.1 (hc.2 hc.1.2) hwrites

theorem createAndPostEntry_wp (dto : CreateJournalEntryDto) (user id : Uuid) (now : Timestamp) :
    (code (.createAndPostEntry dto user id now)).wp (protocol strict)
      (.createAndPostEntry dto user id now) {} fun _ _ => True := by
  refine wp_respond (wp_post rfl rfl fun c p n wn entry hreq hwrites hprepared hcreated => ?_)
  exact .createAndPostEntry dto user id now p n wn entry hreq hprepared hcreated hwrites

theorem postOpeningBalances_wp (date : UtcDay) (balances : List JournalLineDto) (user id : Uuid)
    (now : Timestamp) :
    (code (.postOpeningBalances date balances user id now)).wp (protocol strict)
      (.postOpeningBalances date balances user id now) {} fun _ _ => True := by
  refine wp_respond (Prog.wp_bind.mpr (wp_read rfl rfl fun s ℓ₁ h₁ => ?_))
  refine Prog.wp_bind.mpr (Prog.wp_orThrow h₁.new fun equity _ => ?_)
  refine wp_post h₁.new (buf_of_ran h₁ rfl)
    fun c p n wn entry hreq hwrites hprepared hcreated => ?_
  exact .postOpeningBalances date balances user id now _ p n wn entry hreq hprepared hcreated
    hwrites

/-- The draft is validated on a plain read; under its lock it still is a draft, so it has not
changed. -/
theorem postEntry_wp (id user : Uuid) (now : Timestamp) :
    (code (.postEntry id user now)).wp (protocol strict) (.postEntry id user now) {}
      fun _ _ => True := by
  refine wp_respond (Prog.wp_bind.mpr (wp_read rfl rfl fun s ℓ₁ h₁ => ?_))
  refine Prog.wp_bind.mpr (Prog.wp_orThrow h₁.new fun draft hdraft => ?_)
  refine Prog.wp_bind.mpr (Prog.wp_ensure h₁.new fun _ => ?_)
  refine Prog.wp_bind.mpr (Prog.wp_ofExcept h₁.new fun _ hbalanced => ?_)
  have b₁ := buf_of_ran h₁ rfl
  refine Prog.wp_bind.mpr (wp_isSegregationViolation h₁.new b₁ fun b ℓ₂ h₂ => ?_)
  refine Prog.wp_bind.mpr (Prog.wp_ensure h₂.new fun _ => ?_)
  have b₂ := buf_of_ran h₂ b₁
  refine Prog.wp_bind.mpr (wp_findOpenPeriodForDate h₂.new b₂ fun o ℓ₃ h₃ => ?_)
  refine Prog.wp_bind.mpr (Prog.wp_orThrow h₃.new fun periodId hperiod => ?_)
  have b₃ := buf_of_ran h₃ b₂
  refine Prog.wp_bind.mpr (wp_assertPostableAccounts h₃.new b₃ fun ℓ₄ h₄ => ?_)
  have b₄ := buf_of_ran h₄ b₃
  refine Prog.wp_bind.mpr (wp_fiscalYearFor h₄.new b₄ fun y ℓ₅ h₅ => ?_)
  have b₅ := buf_of_ran h₅ b₄
  refine Prog.wp_bind.mpr (wp_read h₅.new b₅ fun s₆ ℓ₆ h₆ => ?_)
  have b₆ := buf_of_ran h₆ b₅
  refine Prog.wp_bind.mpr (Prog.wp_ensure h₆.new fun _ => wp_transaction ?_)
  refine Prog.wp_bind.mpr (wp_forUpdate h₆.new fun s₇ ℓ₇ h₇ => ?_)
  refine Prog.wp_bind.mpr (Prog.wp_ensure h₇.new fun hlocked => ?_)
  have b₇ := buf_of_ran h₇ b₆
  refine Prog.wp_bind.mpr
    (wp_stampPostedInTx h₇.new (.of_buf b₇) fun n wn ℓ₈ hwn h₈ => ?_)
  refine wp_updateRow h₈.new fun e ℓ₉ hlive _ h₉ db hs => ⟨?_, trivial⟩
  have hran := h₁.trans (h₂.trans (h₃.trans (h₄.trans (h₅.trans (h₆.trans (h₇.trans
    (h₈.trans h₉)))))))
  refine Local.Ran.guar hran rfl hs fun c hreq hwrites hc => ?_
  obtain ⟨⟨-, hdrift⟩, -, hopen, haccounts, hyear, -, hrow, hstamp, hcurrent⟩ := hc
  obtain ⟨e', he', hstatus⟩ := hlocked
  obtain ⟨he', -⟩ := Option.filter_eq_some_iff.mp he'
  rw [b₆, Store.putAll_nil, ← Db.entry_eq_row, ← Db.entry_eq_row, he'] at hrow
  rw [h₈.buf, b₇, List.nil_append,
    Store.row_putAll_of_notMem _ (ne_entry_of_sequence hwn id), ← Db.entry_eq_row, hrow] at hcurrent
  cases hcurrent
  obtain ⟨hentry, -⟩ := Option.filter_eq_some_iff.mp hdraft
  obtain ⟨e', he', hsteps⟩ := entry_of_drift hdrift hentry
  obtain rfl : e = e' := Option.some.inj (hrow ▸ he')
  obtain rfl := eq_of_entrySteps hsteps hstatus hlive
  exact .postEntry id user periodId y now e n wn hreq hrow hlive hstatus hbalanced haccounts
    (hopen periodId hperiod) hyear hstamp hwrites

end Journal

end AccountingApi
