import AccountingApi.Changes.Entries

/-!
# What a commit changes: invoices and bills

## Main definitions

* `DocumentStep`: how one commit changes a document
* `DocumentNext`: the same, with the transaction that does it

## Main results

* `Transacts.documentChange`: the documents a commit writes
* `Transacts.documentNext`, `document_step`: what becomes of a document
* `Transacts.document_new`, `documentLines`: how documents come into being, and what becomes of their
  lines
-/

namespace AccountingApi

open ReadCommitted Posting

/-! ## Steps -/

/-- The total is positive and fits its column. -/
def DocumentTotals.Fit (t : DocumentTotals) : Prop := 0 < t.total ∧ Money.Storable t.total

/-- How a commit changes an invoice or a bill. -/
inductive DocumentStep : Document → Document → Prop
  | refl (d : Document) : DocumentStep d d
  | edit {d : Document} (kind : DocumentKind) (input : TaxedDocument.UpdateInput) (row : Document)
      (totals : DocumentTotals) : d.deletedAt = none → totals.Fit →
      DocumentStep d (TaxedDocument.applyUpdate kind input row totals d)
  | post {d : Document} (number : ℕ) (ref : String) (fiscalYear : ℤ) (entryId user : Uuid)
      (now : Timestamp) (totals : DocumentTotals) : d.status = .draft → d.deletedAt = none →
      totals.Fit → DocumentStep d
        (TaxedDocument.finalizePosted number ref fiscalYear entryId user now totals d)
  | pay {d : Document} (amountPaid : ℤ) : d.deletedAt = none →
      DocumentStep d { d with amountPaid := amountPaid }
  | void {d : Document} : d.status = .posted → d.deletedAt = none → d.amountPaid = 0 →
      DocumentStep d (TaxedDocument.markVoid d)
  | delete {d : Document} (now : Timestamp) (user : Uuid) : d.status = .draft →
      d.deletedAt = none → DocumentStep d { d with deletedAt := some now, deletedBy := some user }

/-! ## Documents -/

/-- Nothing but the paid amount and the status changes. -/
def Document.Alike (d d' : Document) : Prop :=
  d' = { d with amountPaid := d'.amountPaid, status := d'.status }

/-- The document a request updates. -/
def Request.edited : Request → Option (DocumentKind × Uuid)
  | .updateDocument kind id _ _ => some (kind, id)
  | _ => none

/-- The commit is the one of an update of the document. -/
def Edits (c : Commit) (kind : DocumentKind) (id : Uuid) : Prop := c.req.edited = some (kind, id)

/-- If the commit is an update's, the document still is a draft. -/
def UpdatesDraft (c : Commit) : Prop :=
  ∀ x ∈ c.req.edited, ∀ d ∈ Db.document c.before x.1 x.2, d.status = .draft

instance (c : Commit) : Decidable (UpdatesDraft c) :=
  inferInstanceAs (Decidable (∀ x ∈ c.req.edited, ∀ d ∈ Db.document c.before x.1 x.2, _))

theorem UpdatesDraft.notEdits {c : Commit} (h : UpdatesDraft c) {kind : DocumentKind} {id : Uuid}
    {d : Document} (hd : Db.document c.before kind id = some d) (hnot : d.status ≠ .draft) :
    ¬ Edits c kind id := fun hedit => hnot (h _ hedit d hd)

/-- The commit posts or voids a payment. -/
def Settles (strict : Prop) (c : Commit) : Prop :=
  Nonempty (PostsPayment strict c) ∨ Nonempty (VoidsPayment strict c)

/-- The documents a commit writes. -/
inductive DocumentChange (strict : Prop) (c : Commit) :
    List ((DocumentKind × Uuid) × Document) → Prop
  | none : DocumentChange strict c []
  | new (kind : DocumentKind) (input : TaxedDocument.CreateInput) (totals : DocumentTotals)
      (id : Uuid) (d : Document) : Db.document c.before kind id = none →
      d = TaxedDocument.draftRow kind input totals → totals.Fit →
      DocumentChange strict c [((kind, id), d)]
  | post (t : PostsDocument strict c) : DocumentChange strict c [((t.kind, t.id), t.doc)]
  | void (t : VoidsDocument strict c) :
      DocumentChange strict c [((t.kind, t.id), TaxedDocument.markVoid t.d)]
  | step (kind : DocumentKind) (id : Uuid) (d d' : Document) :
      Db.document c.before kind id = some d → DocumentStep d d' → d'.status = d.status →
      (d.status ≠ .draft → ¬ Edits c kind id → d.Alike d') → d'.amountPaid = d.amountPaid →
      DocumentChange strict c [((kind, id), d')]
  | applies (kind : DocumentKind) (ok : PaymentAllocation → Document → Prop)
      (delta : PaymentAllocation → ℤ) (as : List PaymentAllocation) (ws : List (Write Row)) :
      Settles strict c → Applies kind ok delta c.before as ws →
      DocumentChange strict c (documents.writes ws)

/-- **The documents a commit writes.** -/
theorem Transacts.documentChange {strict : Prop} {c : Commit} (h : Transacts strict c) :
    DocumentChange strict c (documents.writes c.writes) := by
  cases h
  case createDocument row computed _ valid fresh _ writes =>
    rw [writes]
    rw [row] at valid
    exact .new _ _ _ _ _ fresh row ⟨computed.pos, valid.2.2.2.1⟩
  case updateDocument req _ computed _ current live valid writes =>
    rw [writes]
    exact .step _ _ _ _ current (.edit _ _ _ _ live ⟨computed.pos, valid.2.2.2.1⟩) rfl
      (fun _ hnot => absurd (by rw [Edits, req]; rfl) hnot) rfl
  case postDocument t =>
    rw [t.writes_documents]
    exact .post t
  case voidDocument t =>
    rw [t.writes_documents]
    exact .void t
  case deleteDocument current draft live writes =>
    rw [writes]
    exact .step _ _ _ _ current (.delete _ _ draft live) rfl (fun hnot _ => absurd draft hnot) rfl
  case createPayment writes =>
    rw [writes]
    exact .none
  case postPayment t =>
    rw [t.writes_documents]
    exact .applies _ _ _ _ _ (.inl ⟨t⟩) t.settled
  case voidPayment t =>
    rw [t.writes_documents]
    exact .applies _ _ _ _ _ (.inr ⟨t⟩) t.unwound
  case deletePayment writes =>
    rw [writes]
    exact .none
  case createEntry writes =>
    rw [writes]
    exact .none
  case createAndPostEntry created writes =>
    rw [writes, Table.writes_append, created.stamp.ticket.documents]
    exact .none
  case postEntry stamp writes =>
    rw [writes, Table.writes_append, stamp.ticket.documents]
    exact .none
  case reverseEntry reversed writes =>
    rw [writes, reversed.writes_documents]
    exact .none
  case deleteEntry writes =>
    rw [writes]
    exact .none
  case postOpeningBalances created writes =>
    rw [writes, Table.writes_append, created.stamp.ticket.documents]
    exact .none
  case closeYear t =>
    rw [t.writes, Table.writes_append, t.created.stamp.ticket.documents]
    exact .none
  case closeEmptyYear writes =>
    rw [writes]
    exact .none
  case reopenYear t =>
    rw [t.writes, Table.writes_append, t.reversed.writes_documents]
    exact .none
  case reopenEmptyYear writes =>
    rw [writes]
    exact .none
  case updateTaxCode writes =>
    rw [writes]
    exact .none
  case account writes =>
    rw [writes]
    exact .none
  case updateCompany writes =>
    rw [writes]
    exact .none
  case periods change writes =>
    rw [writes, change.writes_documents]
    exact .none

theorem document_put (db : Db) (kind kind' : DocumentKind) (id id' : Uuid) (d : Document) :
    Db.document (db.put (.document kind id) d) kind' id' =
      if (kind, id) = (kind', id') then some d else Db.document db kind' id' :=
  documents.get_put db (.document kind id) d (kind', id')

/-- A document the allocations write changes its paid amount only. -/
theorem Applies.document_eq {kind : DocumentKind} {ok : PaymentAllocation → Document → Prop}
    {delta : PaymentAllocation → ℤ} {db : Db} {as : List PaymentAllocation}
    {ws : List (Write Row)} (h : Applies kind ok delta db as ws) {kind' : DocumentKind} {id : Uuid}
    {d : Document} (hd : Db.document db kind' id = some d) :
    ∃ a, Db.document (db.putAll ws) kind' id = some { d with amountPaid := a } ∧
      (a = d.amountPaid ∨ d.deletedAt = none) := by
  induction h generalizing d with
  | nil db => exact ⟨d.amountPaid, hd, .inl rfl⟩
  | @cons db a as ws id' d' hid hd' hlive hok hrest ih =>
    rw [Store.putAll_cons]
    by_cases hk : (kind, id') = (kind', id)
    · cases hk
      obtain rfl : d = d' := Option.some.inj (hd ▸ hd')
      have hput : Db.document (db.put (.document kind id) (applyPaid (delta a) d)) kind id =
          some (applyPaid (delta a) d) := by
        rw [document_put, if_pos rfl]
      obtain ⟨a', ha', -⟩ := ih hput
      exact ⟨a', ha', .inr hlive⟩
    · have hput : Db.document (db.put (.document kind id') (applyPaid (delta a) d')) kind' id =
          some d := by
        rw [document_put, if_neg hk, hd]
      exact ih hput

/-- The allocations create no document. -/
theorem Applies.document_none {kind : DocumentKind} {ok : PaymentAllocation → Document → Prop}
    {delta : PaymentAllocation → ℤ} {db : Db} {as : List PaymentAllocation}
    {ws : List (Write Row)} (h : Applies kind ok delta db as ws) {kind' : DocumentKind} {id : Uuid}
    (hd : Db.document db kind' id = none) : Db.document (db.putAll ws) kind' id = none := by
  induction h with
  | nil db => exact hd
  | @cons db a as ws id' d' hid hd' hlive hok hrest ih =>
    rw [Store.putAll_cons]
    refine ih ?_
    have hk : (kind, id') ≠ (kind', id) := by
      rintro ⟨⟩
      rw [hd] at hd'
      cases hd'
    rw [document_put, if_neg hk, hd]

section Documents

variable {strict : Prop} {c : Commit} {kind : DocumentKind} {id : Uuid} {d d' : Document}

/-- What becomes of a document: it is posted or voided, or takes a step that keeps its status. -/
inductive DocumentNext (strict : Prop) (c : Commit) (kind : DocumentKind) (id : Uuid)
    (d : Document) : Document → Prop
  | post (t : PostsDocument strict c) : t.kind = kind → t.id = id → t.d = d →
      DocumentNext strict c kind id d t.doc
  | void (t : VoidsDocument strict c) : t.kind = kind → t.id = id → t.d = d →
      DocumentNext strict c kind id d (TaxedDocument.markVoid d)
  | step {d' : Document} : DocumentStep d d' → d'.status = d.status →
      (d.status ≠ .draft → ¬ Edits c kind id → d.Alike d') →
      (¬ Settles strict c → d'.amountPaid = d.amountPaid) → DocumentNext strict c kind id d d'

theorem Transacts.documentNext (h : Transacts strict c)
    (hd : Db.document c.before kind id = some d) :
    ∃ d', Db.document c.after kind id = some d' ∧ DocumentNext strict c kind id d d' := by
  have hsame : DocumentNext strict c kind id d d := .step (.refl d) rfl (fun _ _ => rfl) fun _ => rfl
  rw [document_after, hd]
  have hchange := h.documentChange
  generalize documents.writes c.writes = ws at hchange ⊢
  cases hchange with
  | none => exact ⟨d, rfl, hsame⟩
  | new kind' input totals id' d' fresh =>
    have hne : (kind', id') ≠ (kind, id) := by
      rintro ⟨⟩
      rw [hd] at fresh
      cases fresh
    exact ⟨d, by rw [overwrite_cons, if_neg hne, overwrite_nil], hsame⟩
  | post t =>
    by_cases hid : (t.kind, t.id) = (kind, id)
    · obtain ⟨rfl, rfl⟩ := Prod.ext_iff.mp hid
      have ht : t.d = d := Option.some.inj (t.current ▸ hd)
      exact ⟨t.doc, by rw [overwrite_cons, if_pos rfl, overwrite_nil], .post t rfl rfl ht⟩
    · exact ⟨d, by rw [overwrite_cons, if_neg hid, overwrite_nil], hsame⟩
  | void t =>
    by_cases hid : (t.kind, t.id) = (kind, id)
    · obtain ⟨rfl, rfl⟩ := Prod.ext_iff.mp hid
      have ht : t.d = d := Option.some.inj (t.current ▸ hd)
      exact ⟨TaxedDocument.markVoid d, by rw [overwrite_cons, if_pos rfl, overwrite_nil, ht],
        .void t rfl rfl ht⟩
    · exact ⟨d, by rw [overwrite_cons, if_neg hid, overwrite_nil], hsame⟩
  | step kind' id' d₀ d' current hstep hstatus halike hpaid =>
    by_cases hid : (kind', id') = (kind, id)
    · cases hid
      obtain rfl : d = d₀ := Option.some.inj (hd ▸ current)
      exact ⟨d', by rw [overwrite_cons, if_pos rfl, overwrite_nil],
        .step hstep hstatus halike fun _ => hpaid⟩
    · exact ⟨d, by rw [overwrite_cons, if_neg hid, overwrite_nil], hsame⟩
  | applies kind' ok delta as ws hsettles happ =>
    obtain ⟨a, ha, hor⟩ := happ.document_eq hd
    have hput := documents.get_putAll c.before ws (kind, id)
    change Db.document _ kind id = overwrite _ (Db.document _ kind id) _ at hput
    rw [ha, hd] at hput
    refine ⟨_, hput.symm, .step ?_ rfl (fun _ _ => rfl) fun hnot => absurd hsettles hnot⟩
    rcases hor with rfl | hlive
    · exact .refl d
    · exact .pay a hlive

theorem DocumentNext.documentStep (h : DocumentNext strict c kind id d d') :
    DocumentStep d d' := by
  cases h with
  | post t hkind hid hd =>
    rw [t.posted, hd]
    have hvalid := t.valid
    rw [t.posted] at hvalid
    exact .post _ _ _ _ _ _ _ (hd ▸ t.draft) (hd ▸ t.live) ⟨t.read.pos, hvalid.2.2.2.1⟩
  | void t hkind hid hd => exact .void (hd ▸ t.posted) (hd ▸ t.live) (hd ▸ t.unpaid)
  | step hstep => exact hstep

/-- A document of the store takes a step. -/
theorem Transacts.document_step (h : Transacts strict c)
    (hd : Db.document c.before kind id = some d) :
    ∃ d', Db.document c.after kind id = some d' ∧ DocumentStep d d' :=
  (h.documentNext hd).imp fun _ => And.imp_right DocumentNext.documentStep

/-- A draft that is no draft after the commit was posted by it. -/
theorem DocumentNext.posted (h : DocumentNext strict c kind id d d') (hdraft : d.status = .draft)
    (hnot : d'.status ≠ .draft) :
    ∃ t : PostsDocument strict c, t.kind = kind ∧ t.id = id ∧ t.doc = d' := by
  cases h with
  | post t hkind hid => exact ⟨t, hkind, hid, rfl⟩
  | void t _ _ hd => cases hdraft ▸ hd ▸ t.posted
  | step _ hstatus => exact absurd (hstatus.trans hdraft) hnot

/-- Unless it is edited, a document that is no draft changes its paid amount and its status only. -/
theorem DocumentNext.alike (h : DocumentNext strict c kind id d d') (hnot : d.status ≠ .draft)
    (hedit : ¬ Edits c kind id) : d.Alike d' := by
  cases h with
  | post t _ _ hd => exact absurd (hd ▸ t.draft) hnot
  | void => rfl
  | step _ _ halike => exact halike hnot hedit

/-- A document that was not there before the commit is a draft. -/
theorem Transacts.document_new (h : Transacts strict c)
    (hb : Db.document c.before kind id = none)
    (hd : Db.document c.after kind id = some d) :
    ∃ input totals, d = TaxedDocument.draftRow kind input totals ∧ totals.Fit := by
  rw [document_after, hb] at hd
  have hchange := h.documentChange
  generalize documents.writes c.writes = ws at hchange hd
  cases hchange with
  | none => cases hd
  | new kind' input totals id' d' fresh hrow hpos =>
    rw [overwrite_cons, overwrite_nil] at hd
    split at hd
    · rename_i hid
      cases hid
      cases hd
      exact ⟨input, totals, hrow, hpos⟩
    · cases hd
  | post t =>
    rw [overwrite_cons, overwrite_nil] at hd
    split at hd
    · rename_i hid
      cases hid
      have hcurrent := t.current
      rw [hb] at hcurrent
      cases hcurrent
    · cases hd
  | void t =>
    rw [overwrite_cons, overwrite_nil] at hd
    split at hd
    · rename_i hid
      cases hid
      have hcurrent := t.current
      rw [hb] at hcurrent
      cases hcurrent
    · cases hd
  | step kind' id' d₀ d' current hstep =>
    rw [overwrite_cons, overwrite_nil] at hd
    split at hd
    · rename_i hid
      cases hid
      rw [hb] at current
      cases current
    · cases hd
  | applies kind' ok delta as ws _ happ =>
    have hnone := happ.document_none hb
    have hput := documents.get_putAll c.before ws (kind, id)
    change Db.document _ kind id = overwrite _ (Db.document _ kind id) _ at hput
    rw [hnone, hb, hd] at hput
    cases hput

/-- The lines a commit writes are those of a new document or of the document it edits. -/
theorem Transacts.lines_written (h : Transacts strict c) :
    ∀ w ∈ linesOfDocuments.writes c.writes,
      Db.document c.before w.1.1 w.1.2 = none ∨ Edits c w.1.1 w.1.2 := by
  have hnone : linesOfDocuments.writes c.writes = [] →
      ∀ w ∈ linesOfDocuments.writes c.writes,
        Db.document c.before w.1.1 w.1.2 = none ∨ Edits c w.1.1 w.1.2 := by
    intro hnil w hw
    rw [hnil] at hw
    cases hw
  cases h
  case createDocument fresh _ writes =>
    rw [writes]
    exact List.forall_mem_singleton.mpr (.inl fresh)
  case updateDocument req _ _ _ _ _ _ writes =>
    rw [writes]
    exact List.forall_mem_singleton.mpr (.inr (by rw [Edits, req]; rfl))
  case postDocument t =>
    refine hnone ?_
    rw [t.writes, Table.writes_append, Table.writes_append, t.ticket.linesOfDocuments,
      t.created.stamp.ticket.linesOfDocuments]
    rfl
  case voidDocument t =>
    refine hnone ?_
    rw [t.writes, Table.writes_cons, t.reversed.writes_linesOfDocuments]
    rfl
  case deleteDocument writes => exact hnone (by rw [writes]; rfl)
  case createPayment writes => exact hnone (by rw [writes]; rfl)
  case postPayment t =>
    refine hnone ?_
    rw [t.writes, Table.writes_append, Table.writes_append, Table.writes_append,
      t.settled.linesOfDocuments, t.ticket.linesOfDocuments,
      t.created.stamp.ticket.linesOfDocuments]
    rfl
  case voidPayment t =>
    refine hnone ?_
    rw [t.writes, Table.writes_append, t.unwound.linesOfDocuments, Table.writes_cons,
      t.reversed.writes_linesOfDocuments]
    rfl
  case deletePayment writes => exact hnone (by rw [writes]; rfl)
  case createEntry writes => exact hnone (by rw [writes]; rfl)
  case createAndPostEntry created writes =>
    refine hnone ?_
    rw [writes, Table.writes_append, created.stamp.ticket.linesOfDocuments]
    rfl
  case postEntry stamp writes =>
    refine hnone ?_
    rw [writes, Table.writes_append, stamp.ticket.linesOfDocuments]
    rfl
  case reverseEntry reversed writes =>
    exact hnone (by rw [writes, reversed.writes_linesOfDocuments])
  case deleteEntry writes => exact hnone (by rw [writes]; rfl)
  case postOpeningBalances created writes =>
    refine hnone ?_
    rw [writes, Table.writes_append, created.stamp.ticket.linesOfDocuments]
    rfl
  case closeYear t =>
    refine hnone ?_
    rw [t.writes, Table.writes_append, t.created.stamp.ticket.linesOfDocuments]
    rfl
  case closeEmptyYear writes => exact hnone (by rw [writes]; rfl)
  case reopenYear t =>
    refine hnone ?_
    rw [t.writes, Table.writes_append, t.reversed.writes_linesOfDocuments]
    rfl
  case reopenEmptyYear writes => exact hnone (by rw [writes]; rfl)
  case updateTaxCode writes => exact hnone (by rw [writes]; rfl)
  case account writes => exact hnone (by rw [writes]; rfl)
  case updateCompany writes => exact hnone (by rw [writes]; rfl)
  case periods change writes => exact hnone (by rw [writes, change.writes_linesOfDocuments])

/-- Unless it is edited, a document keeps its lines. -/
theorem Transacts.documentLines (h : Transacts strict c)
    (hd : Db.document c.before kind id = some d) (hedit : ¬ Edits c kind id) :
    Db.documentLines c.after kind id = Db.documentLines c.before kind id := by
  unfold Db.documentLines
  rw [Commit.after, linesOfDocuments.get_putAll_of_notMem]
  rintro w hw hid
  rcases h.lines_written w hw with hnone | hedits
  · rw [hid, hd] at hnone
    cases hnone
  · rw [hid] at hedits
    exact hedit hedits

end Documents

end AccountingApi
