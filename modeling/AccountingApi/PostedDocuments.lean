import AccountingApi.Links

/-!
# What a posted document says

A posted invoice or bill is to agree with its lines, with the tax codes it was posted with and with its
journal entry, and is not to change any more. An update checks that the document is a draft before its
transaction only, and a post writes the lines and the date it has read before its own, so both can
commit on a document that has moved on. Where they do not, posted documents agree with what they were
posted from.

## Main definitions

* `UpdatesDraft`, `PostsWhatItRead`: the commits that find what their request has read
* `Document.Agrees`: a document agrees with its lines, its tax codes and its journal entry
* `Faithful`: posted documents agree and stay as they are

## Main results

* `faithful_of_reachable`: where every commit finds what its request has read
* `update_overtaken_by_post`: a run in which an update does not
-/

namespace AccountingApi

open ReadCommitted Posting

/-! ## The conditions -/

/-- The lines of a document, as the tax engine takes them. -/
def Db.taxableLines (db : Db) (kind : DocumentKind) (id : Uuid) : List TaxableLineInput :=
  AccountingApi.taxableLines ((Db.documentLines db kind id).map DocumentLineInput.ofLine)

/-- The document a request posts. -/
def Request.posted : Request → Option (DocumentKind × Uuid)
  | .postDocument kind id _ _ _ _ => some (kind, id)
  | _ => none

/-- If the commit is a post's, the document still has the date and the lines that the request read. -/
def PostsWhatItRead (c : Commit) : Prop :=
  ∀ x ∈ c.req.posted, ∀ q ∈ c.seen,
    (q.1 = .document → (Db.document q.2 x.1 x.2).map (·.date) =
      (Db.document c.before x.1 x.2).map (·.date)) ∧
    (q.1 = .documentLines → Db.taxableLines q.2 x.1 x.2 = Db.taxableLines c.before x.1 x.2)

instance (c : Commit) : Decidable (PostsWhatItRead c) :=
  inferInstanceAs (Decidable (∀ x ∈ c.req.posted, ∀ q ∈ c.seen, (_ → _) ∧ (_ → _)))

/-! ## The property -/

/-- The amount of a control line: invoices are debited to receivables, bills credited to payables. -/
def DocumentKind.settled (kind : DocumentKind) (l : JournalLine) : ℤ :=
  match kind with
  | .salesInvoice => l.debit
  | .purchaseBill => l.credit

/-- The totals a document stores. -/
def Document.totals (d : Document) : DocumentTotals :=
  ⟨d.subtotal, d.taxTotal, d.withholdingTotal, d.total⟩

/-- The document agrees with what the commit `c` posted: the tax engine computes its totals from its
lines, and the tax codes and the collation of the post; and its journal entry is of its date and ends with
its total on the control account. -/
def Document.Agrees (c : Commit) (db : Db) (kind : DocumentKind) (id : Uuid) (d : Document) : Prop :=
  ∃ collation settlementId codes res entryId e l,
    (∃ user entryId now, c.req = .postDocument kind id user entryId now collation) ∧
    (.taxCodes, codes) ∈ c.seen ∧
    Saw c .account (fun s =>
      ∃ a, Db.accountOfRole s kind.descriptor.controlRole = some (settlementId, a)) ∧
    TaxService.calculate collation (Db.liveTaxCode codes)
      ⟨kind.descriptor.nature, settlementId, Db.taxableLines db kind id⟩ = .ok res ∧
    summarizeTotals res = d.totals ∧
    d.journalEntryId = some entryId ∧ Db.entry db entryId = some e ∧
    e.lines.getLast? = some l ∧ l.accountId = settlementId ∧ kind.settled l = d.total ∧
    e.date = d.date

/-- Posted and voided documents agree with what they were posted from, and no commit changes anything of
them but the paid amount and, from posted to void, the status. -/
structure Faithful (s : Server) : Prop where
  agrees : ∀ kind id d, Db.document s.db kind id = some d → d.status ≠ .draft →
    ∃ c ∈ s.history, c.req.posted = some (kind, id) ∧ d.Agrees c s.db kind id
  fixed : ∀ c ∈ s.history, ∀ kind id d, Db.document c.before kind id = some d →
    d.status ≠ .draft → ∃ d', Db.document c.after kind id = some d' ∧ d.Alike d' ∧
      (d'.status = d.status ∨ d.status = .posted ∧ d'.status = .void) ∧
      Db.documentLines c.after kind id = Db.documentLines c.before kind id

/-! ## Steps -/

theorem DocumentStep.status {d d' : Document} (h : DocumentStep d d') (hnot : d.status ≠ .draft) :
    d'.status = d.status ∨ d.status = .posted ∧ d'.status = .void := by
  cases h with
  | refl => exact .inl rfl
  | edit => exact .inl rfl
  | post _ _ _ _ _ _ _ hdraft => exact absurd hdraft hnot
  | pay => exact .inl rfl
  | void hposted => exact .inr ⟨hposted, rfl⟩
  | delete => exact .inl rfl

/-- The last line of an entry is the last line it was posted with. -/
theorem getLast?_toJournalLines (lines : List PostLineInput) (l : PostLineInput) :
    (toJournalLines (lines ++ [l])).getLast? = some (l.toJournalLine (lines.length + 1)) := by
  simp [toJournalLines, List.mapIdx_append]

section Commits

variable {strict : Prop} {c : Commit}

theorem PostsDocument.notEdits (t : PostsDocument strict c) (kind : DocumentKind) (id : Uuid) :
    ¬ Edits c kind id := by
  rw [Edits, t.req]
  rintro ⟨⟩

/-- The control line of the entry a document is posted with. -/
theorem PostsDocument.getLast?_lines (t : PostsDocument strict c) :
    ∃ l, t.entry.lines.getLast? = some l ∧ l.accountId = t.settlementId ∧
      t.kind.settled l = t.doc.total := by
  rw [t.created.eq_postedEntry t.prepared, t.posted]
  simp only [postedEntry, TaxedDocument.journalInput]
  rw [TaxService.calculate_journalLines t.read.result, getLast?_toJournalLines]
  refine ⟨_, rfl, ?_, ?_⟩ <;> cases t.kind <;> rfl

/-- The date a document is posted on is the one that was read. -/
theorem PostsDocument.date_eq (t : PostsDocument strict c) (hread : PostsWhatItRead c) :
    t.row.date = t.d.date := by
  obtain ⟨s, hs, hrow⟩ := t.read.sawRow
  have hsame := (hread (t.kind, t.id) (by rw [t.req]; rfl) _ hs).1 rfl
  obtain ⟨hrow, -⟩ := Option.filter_eq_some_iff.mp hrow
  rw [hrow, t.current] at hsame
  exact Option.some.inj hsame

/-- The lines a document is posted with are those that were read. -/
theorem PostsDocument.lines_eq (t : PostsDocument strict c) (hread : PostsWhatItRead c) :
    taxableLines (t.lines.map DocumentLineInput.ofLine) = Db.taxableLines c.after t.kind t.id := by
  obtain ⟨s, hs, hlines⟩ := t.read.sawLines
  have hsame := (hread (t.kind, t.id) (by rw [t.req]; rfl) _ hs).2 rfl
  rw [Db.taxableLines, hlines] at hsame
  rw [hsame, Db.taxableLines, Db.taxableLines,
    (Transacts.postDocument t).documentLines t.current (t.notEdits _ _)]

/-- A post that finds what it has read leaves a document that agrees. -/
theorem PostsDocument.agrees (t : PostsDocument strict c) (hread : PostsWhatItRead c) :
    t.doc.Agrees c c.after t.kind t.id := by
  obtain ⟨l, hlast, hacc, hsettled⟩ := t.getLast?_lines
  refine ⟨t.collation, t.settlementId, t.codes, t.res, t.entryId, t.entry, l, ⟨_, _, _, t.req⟩,
    t.read.sawCodes, t.read.sawControl, ?_, ?_, ?_, t.after_entry, hlast, hacc, hsettled, ?_⟩
  · rw [← t.lines_eq hread]
    exact t.read.result
  · rw [t.posted]
    rfl
  · rw [t.posted]
    rfl
  · rw [t.created.eq_postedEntry t.prepared, t.posted]
    exact t.date_eq hread

/-- What the commit of another request leaves of a document that agrees. -/
theorem Document.Agrees.after {c₀ : Commit} {kind : DocumentKind} {id : Uuid} {d d' : Document}
    (h : d.Agrees c₀ c.before kind id) (hc : Transacts strict c) (halike : d.Alike d')
    (hlines : Db.documentLines c.after kind id = Db.documentLines c.before kind id) :
    d'.Agrees c₀ c.after kind id := by
  obtain ⟨collation, settlementId, codes, res, entryId, e, l, hreq, hcodes, hcontrol, hres, htotals,
    hentry, he, hlast, hacc, hsettled, hdate⟩ := h
  obtain ⟨e', he', hstep⟩ := hc.entry_step he
  obtain ⟨hdate', hlines'⟩ := hstep.lines
  rw [halike]
  refine ⟨collation, settlementId, codes, res, entryId, e', l, hreq, hcodes, hcontrol, ?_, htotals,
    hentry, he', by rw [hlines', hlast], hacc, hsettled, hdate'.trans hdate⟩
  rw [Db.taxableLines, hlines]
  exact hres

/-- What a commit leaves of a document that is no draft. -/
theorem Transacts.document_fixed (hc : Transacts strict c) (hupdates : UpdatesDraft c)
    {kind : DocumentKind} {id : Uuid} {d : Document} (hd : Db.document c.before kind id = some d)
    (hnot : d.status ≠ .draft) :
    ∃ d', Db.document c.after kind id = some d' ∧ d.Alike d' ∧
      (d'.status = d.status ∨ d.status = .posted ∧ d'.status = .void) ∧
      Db.documentLines c.after kind id = Db.documentLines c.before kind id := by
  have hedit := hupdates.notEdits hd hnot
  obtain ⟨d', hd', hnext⟩ := hc.documentNext hd
  exact ⟨d', hd', hnext.alike hnot hedit, hnext.documentStep.status hnot,
    hc.documentLines hd hedit⟩

end Commits

/-! ## Runs -/

section Reachable

variable {policy : Policy Row LockName Query Failure Response Request} {db₀ : Db} {s : Server}

/-- **Posted documents are faithful** in every run whose updates commit on drafts and whose posts commit
on what they have read. -/
theorem faithful_of_reachable (h₀ : Initial db₀) (h : Reachable code policy db₀ s)
    (hupdates : ∀ c ∈ s.history, UpdatesDraft c) (hreads : ∀ c ∈ s.history, PostsWhatItRead c) :
    Faithful s where
  agrees := by
    -- the commits that have posted a document are among those of the run so far
    have key := (chain_of_reachable h).invariant (I := fun h db =>
      (∀ c ∈ h, UpdatesDraft c ∧ PostsWhatItRead c) → ∀ kind id d,
        Db.document db kind id = some d → d.status ≠ .draft →
        ∃ c ∈ h, c.req.posted = some (kind, id) ∧ d.Agrees c db kind id) ?_ ?_
    · exact key fun c hc => ⟨hupdates c hc, hreads c hc⟩
    · intro _ kind id d hd
      rw [h₀.document] at hd
      cases hd
    · intro c h _ hc _ ih hcond kind id d hd hnot
      obtain ⟨hcupdates, hcreads⟩ := hcond c List.mem_cons_self
      cases hb : Db.document c.before kind id with
      | none =>
        obtain ⟨input, totals, rfl, -⟩ := hc.document_new hb hd
        exact absurd rfl hnot
      | some d₀ =>
        by_cases hdraft : d₀.status = .draft
        · obtain ⟨d', hd', hnext⟩ := hc.documentNext hb
          obtain rfl : d = d' := Option.some.inj (hd ▸ hd')
          obtain ⟨t, rfl, rfl, rfl⟩ := hnext.posted hdraft hnot
          exact ⟨c, List.mem_cons_self, by rw [t.req]; rfl, t.agrees hcreads⟩
        · obtain ⟨c₀, hc₀, hreq, hagrees⟩ :=
            ih (fun c' hc' => hcond c' (List.mem_cons_of_mem c hc')) kind id d₀ hb hdraft
          obtain ⟨d', hd', halike, -, hlines⟩ := hc.document_fixed hcupdates hb hdraft
          obtain rfl : d = d' := Option.some.inj (hd ▸ hd')
          exact ⟨c₀, List.mem_cons_of_mem c hc₀, hreq, hagrees.after hc halike hlines⟩
  fixed := by
    intro c hc kind id d hd hnot
    obtain ⟨hguar, -⟩ := commit_of_reachable (fun _ => True) (I := fun _ => True) h
      (fun _ _ => trivial) trivial (fun _ _ _ _ _ => trivial) hc
    exact hguar.document_fixed (hupdates c hc) hd hnot

end Reachable

/-- An invoice drafted, doubled and posted, one request after the other. -/
theorem faithful_of_reachable_sale :
    Faithful (Sample.server
      (Sample.request 0 (.createDocument .salesInvoice Sample.invoice 9 20 .ordinal) 9 ++
        Sample.request 1 (.updateDocument .salesInvoice 20 Sample.doubled .ordinal) 12 ++
        Sample.request 2 (.postDocument .salesInvoice 20 9 100 1 .ordinal) 30)) :=
  faithful_of_reachable Sample.initial (Sample.reachable (by decide +kernel)) (by decide +kernel)
    (by decide +kernel)

/-- An update reads a draft, a post of the draft runs from its beginning to its end, and then the
update's transaction doubles the total. -/
def Sample.overtakenUpdate : List (Event Request) :=
  request 0 (.createDocument .salesInvoice invoice 9 20 .ordinal) 9 ++
    request 1 (.updateDocument .salesInvoice 20 doubled .ordinal) 4 ++
    request 2 (.postDocument .salesInvoice 20 9 100 1 .ordinal) 30 ++ List.replicate 8 (.step 1)

/-- **An update that is overtaken by a post** leaves a posted invoice whose total is not what its
journal entry says. -/
theorem update_overtaken_by_post :
    let s := Sample.server Sample.overtakenUpdate
    Reachable code (anytime fun _ => True) Sample.db s ∧ ¬ Faithful s := by
  refine ⟨Sample.reachable (by decide +kernel), fun hfaithful => ?_⟩
  have hdiffers : ∃ d ∈ Db.document (Sample.server Sample.overtakenUpdate).db .salesInvoice 20,
      d.status ≠ .draft ∧
      ∀ e ∈ d.journalEntryId.bind (Db.entry (Sample.server Sample.overtakenUpdate).db),
        ∀ l ∈ e.lines.getLast?, DocumentKind.settled .salesInvoice l ≠ d.total := by
    decide +kernel
  obtain ⟨d, hd, hnot, hne⟩ := hdiffers
  obtain ⟨c, -, -, _, _, _, _, entryId, e, l, -, -, -, -, -, hentry, he, hlast, -, hsettled, -⟩ :=
    hfaithful.agrees _ _ _ hd hnot
  have hmem := Option.mem_def.mpr (Option.bind_eq_some_iff.mpr ⟨entryId, hentry, he⟩)
  exact hne e hmem l hlast hsettled

end AccountingApi
