import AccountingApi.ReadCommitted.UniqueIndex
import AccountingApi.Rows

/-!
# The partners of documents

An invoice or a bill is drafted for a partner its request has found, and stays with that partner. No
request deletes the row of a partner, so that every document has one.

## Main definitions

* `KnowsPartner`: a commit that drafts a document has found its partner
* `Partnered`: every document has a partner

## Main results

* `Transacts.writes_known`: the other requests write documents that are there
* `code_knowsPartner`: every request finds the partner of the document it drafts
* `partnered_always`
-/

namespace AccountingApi

open ReadCommitted Posting TaxedDocument

/-- Every invoice and every bill has the row of its partner. -/
def Partnered (db : Db) : Prop :=
  ∀ kind id d, Db.document db kind id = some d → Db.partner db d.partnerId ≠ none

/-- A commit that drafts a document has found its partner. -/
def KnowsPartner (c : Commit) : Prop :=
  ∀ kind id d, Db.document c.before kind id = none → Db.document c.after kind id = some d →
    Saw c .partner fun s => Db.partner s d.partnerId ≠ none

/-! ## Commits -/

section Commits

variable {strict : Prop} {c : Commit} {kind : DocumentKind} {id : Uuid} {d d' : Document}

theorem DocumentStep.partnerId (h : DocumentStep d d') : d'.partnerId = d.partnerId := by
  cases h <;> rfl

/-- Partners are not written. -/
theorem Transacts.partner_after (h : Transacts strict c) (id : Uuid) :
    Db.partner c.after id = Db.partner c.before id := by
  have hkept : (∀ w ∈ c.writes, w.1 ≠ .partner id) → Db.partner c.after id = Db.partner c.before id :=
    Store.row_putAll_of_notMem c.before
  have hchange := h.masterChange
  generalize c.writes = ws at hchange hkept
  refine hkept fun w hw hk => ?_
  cases hchange with
  | account | settings => cases (congrArg Sigma.fst (List.mem_singleton.mp hw)).symm.trans hk
  | periods _ change =>
    obtain ⟨id, hid⟩ := change.keys w hw
    cases hid.symm.trans hk
  | none _ hnone =>
    refine hnone w hw ?_
    rw [hk]
    trivial

/-- The allocations are to documents that are there. -/
theorem Applies.writes_known {ok : PaymentAllocation → Document → Prop}
    {delta : PaymentAllocation → ℤ} {db : Db} {as : List PaymentAllocation} {ws : List (Write Row)}
    (h : Applies kind ok delta db as ws) :
    ∀ w ∈ documents.writes ws, Db.document db w.1.1 w.1.2 ≠ none := by
  induction h with
  | nil db => exact List.forall_mem_nil _
  | @cons db a as ws id' d' hid hd' hlive hok hrest ih =>
    refine List.forall_mem_cons.mpr ⟨?_, fun w hw hnone => ih w hw ?_⟩
    · show Db.document db kind id' ≠ none
      rw [hd']
      exact nofun
    · have hk : (kind, id') ≠ (w.1.1, w.1.2) := by
        rintro hk
        obtain ⟨rfl, rfl⟩ := Prod.mk.inj hk
        rw [hd'] at hnone
        cases hnone
      rw [document_put, if_neg hk, hnone]

/-- **The documents other requests write** are there already. -/
theorem Transacts.writes_known (h : Transacts strict c)
    (hreq : ∀ kind dto user id collation, c.req ≠ .createDocument kind dto user id collation) :
    ∀ w ∈ documents.writes c.writes, Db.document c.before w.1.1 w.1.2 ≠ none := by
  have hnone : documents.writes c.writes = [] →
      ∀ w ∈ documents.writes c.writes, Db.document c.before w.1.1 w.1.2 ≠ none := by
    intro hnil w hw
    rw [hnil] at hw
    cases hw
  have hone : ∀ {kind id d d'}, documents.writes c.writes = [((kind, id), d')] →
      Db.document c.before kind id = some d →
      ∀ w ∈ documents.writes c.writes, Db.document c.before w.1.1 w.1.2 ≠ none := by
    intro kind id d d' hwrites hd w hw
    rw [hwrites, List.mem_singleton] at hw
    rw [hw, hd]
    exact nofun
  cases h
  case createDocument req _ _ _ _ _ _ _ => exact absurd req (hreq _ _ _ _ _)
  case updateDocument current _ _ writes => exact hone (by rw [writes]; rfl) current
  case postDocument t => exact hone t.writes_documents t.current
  case voidDocument t => exact hone t.writes_documents t.current
  case deleteDocument current _ _ writes => exact hone (by rw [writes]; rfl) current
  case createPayment writes => exact hnone (by rw [writes]; rfl)
  case postPayment t =>
    rw [t.writes_documents]
    exact t.settled.writes_known
  case voidPayment t =>
    rw [t.writes_documents]
    exact t.unwound.writes_known
  case deletePayment writes => exact hnone (by rw [writes]; rfl)
  case createEntry writes => exact hnone (by rw [writes]; rfl)
  case createAndPostEntry created writes =>
    exact hnone (by rw [writes, Table.writes_append, created.stamp.ticket.documents]; rfl)
  case postEntry stamp writes =>
    exact hnone (by rw [writes, Table.writes_append, stamp.ticket.documents]; rfl)
  case reverseEntry reversed writes => exact hnone (by rw [writes, reversed.writes_documents])
  case deleteEntry writes => exact hnone (by rw [writes]; rfl)
  case postOpeningBalances created writes =>
    exact hnone (by rw [writes, Table.writes_append, created.stamp.ticket.documents]; rfl)
  case closeYear t =>
    exact hnone (by rw [t.writes, Table.writes_append, t.created.stamp.ticket.documents]; rfl)
  case closeEmptyYear writes => exact hnone (by rw [writes]; rfl)
  case reopenYear t =>
    exact hnone (by rw [t.writes, Table.writes_append, t.reversed.writes_documents]; rfl)
  case reopenEmptyYear writes => exact hnone (by rw [writes]; rfl)
  case updateTaxCode writes => exact hnone (by rw [writes]; rfl)
  case account writes => exact hnone (by rw [writes]; rfl)
  case updateCompany writes => exact hnone (by rw [writes]; rfl)
  case periods change writes => exact hnone (by rw [writes, change.writes_documents])

/-- The other requests draft no document. -/
theorem Transacts.knowsPartner (h : Transacts strict c)
    (hreq : ∀ kind dto user id collation, c.req ≠ .createDocument kind dto user id collation) :
    KnowsPartner c := by
  intro kind id d hnone hd
  rw [document_after, hnone] at hd
  have hmem := mem_of_overwrite hd nofun
  exact absurd hnone (h.writes_known hreq _ hmem)

end Commits

/-! ## Requests -/

/-- The protocol of the API, with what it guarantees of the partners. -/
abbrev partnerProtocol : Protocol Row LockName Query Request := (protocol False).also KnowsPartner

section Requests

variable {P : Protocol Row LockName Query Request} {r : Request} {ℓ : Tx}

/-- The partner has been found. -/
theorem wp_foundPartner {kind : DocumentKind} {id : Uuid} {post : Unit → Tx → Prop}
    (hnew : ℓ.published = false) (hbuf : ℓ.buf = [])
    (h : ∀ ℓ', ℓ.Ran P r ℓ' [] (fun c => Saw c .partner fun s => Db.partner s id ≠ none) → post () ℓ') :
    (assertPartner kind id).wp P r ℓ post := by
  refine Prog.wp_bind.mpr (Prog.wp_bind.mpr (wp_read hnew hbuf fun s ℓ₁ h₁ => ?_))
  refine Prog.wp_orThrow h₁.new fun partner hpartner => Prog.wp_ensure h₁.new fun _ => h ℓ₁ ?_
  refine h₁.mono fun c hc => ⟨s, hc.1, ?_⟩
  show Db.partner s id ≠ none
  rw [(Option.filter_eq_some_iff.mp hpartner).1]
  exact nofun

/-- **A document is drafted** for a partner that has been found. -/
theorem createDocument_knowsPartner (kind : DocumentKind) (dto : CreateDocumentDto) (user id : Uuid)
    (collation : Collation) :
    (code (.createDocument kind dto user id collation)).wp partnerProtocol
      (.createDocument kind dto user id collation) {} fun _ _ => True := by
  refine wp_respond (Prog.wp_bind.mpr (wp_foundPartner rfl rfl fun ℓ₁ h₁ => ?_))
  have b₁ := buf_of_ran h₁ rfl
  refine Prog.wp_bind.mpr (wp_findControlAccountId h₁.new b₁ fun settlementId ℓ₂ h₂ => ?_)
  have b₂ := buf_of_ran h₂ b₁
  refine Prog.wp_bind.mpr (wp_computeTotals h₂.new b₂ fun totals ℓ₃ h₃ => ?_)
  have b₃ := buf_of_ran h₃ b₂
  refine Prog.wp_bind.mpr (wp_transaction ?_)
  refine Prog.wp_bind.mpr (wp_insert h₃.new fun ℓ₄ hvalid h₄ => ?_)
  refine wp_insert h₄.new fun ℓ₅ _ h₅ db hs => ⟨?_, trivial⟩
  have hran := h₁.trans (h₂.trans (h₃.trans (h₄.trans h₅)))
  refine Local.Ran.guar hran rfl hs fun c hreq hwrites hc => ?_
  obtain ⟨hknown, -, hcomputed, hfresh, hfreshLines⟩ := hc
  rw [b₃, Store.putAll_nil, ← Db.document_eq_row] at hfresh
  rw [h₄.buf, b₃, List.nil_append, Store.putAll_cons, Store.putAll_nil,
    Store.row_put_of_ne _ _ (by simp)] at hfreshLines
  refine ⟨.createDocument kind dto user id collation totals _ _ hreq rfl hcomputed rfl hvalid hfresh
    hfreshLines hwrites, ?_⟩
  -- the document written is the draft for the partner of the request
  intro kind' id' d hnone hd
  have hdocs : documents.writes c.writes = [((kind, id), draftRow kind (dto.toInput user) totals)] := by
    rw [hwrites]
    rfl
  rw [document_after, hnone, hdocs, overwrite_cons, overwrite_nil] at hd
  split at hd
  · cases hd
    exact hknown
  · cases hd

/-- **Every request** finds the partner of the document it drafts. -/
theorem code_knowsPartner (r : Request) : (code r).wp partnerProtocol r {} fun _ _ => True := by
  by_cases hcreate : ∃ kind dto user id collation, r = .createDocument kind dto user id collation
  · obtain ⟨kind, dto, user, id, collation, rfl⟩ := hcreate
    exact createDocument_knowsPartner kind dto user id collation
  refine Prog.wp_also (code_wp False r) fun c hreq hguar => ?_
  subst hreq
  exact hguar.knowsPartner fun kind dto user id collation h =>
    hcreate ⟨kind, dto, user, id, collation, h⟩

end Requests

/-! ## Runs -/

/-- A commit leaves every document a partner. -/
theorem Partnered.after {strict : Prop} {c : Commit} (h : Partnered c.before) (hc : Transacts strict c)
    (hknows : KnowsPartner c) (hseen : ∀ q ∈ c.seen, Db.partner q.2 = Db.partner c.before) :
    Partnered c.after := by
  intro kind id d hd
  rw [hc.partner_after]
  cases hb : Db.document c.before kind id with
  | some d₀ =>
    obtain ⟨d', hd', hstep⟩ := hc.document_step hb
    obtain rfl : d = d' := Option.some.inj (hd.symm.trans hd')
    rw [hstep.partnerId]
    exact h kind id d₀ hb
  | none =>
    obtain ⟨s, hs, hpartner⟩ := hknows kind id d hb hd
    rwa [hseen _ hs] at hpartner

/-- **Every document has a partner**, in every reachable state. -/
theorem partnered_always {policy : Policy Row LockName Query Failure Response Request} {db₀ : Db}
    {s : Server} (h₀ : Initial db₀) (h : Reachable code policy db₀ s) : Partnered s.db := by
  refine (chain_of_reachable h).always (D := fun s db => Db.partner s = Db.partner db) (fun _ => rfl)
    (fun _ _ _ h h' => h.trans h') (fun _ hc => (funext hc.partner_after).symm) ?_ ?_ _
    (chain_of_reachable h).past_self
  · intro kind id d hd
    rw [h₀.document] at hd
    cases hd
  · intro c hmem hc hI hseen
    have hknows := ReadCommitted.Reachable.also h code_knowsPartner (fun _ _ => False.elim) c hmem
    exact hI.after hc hknows fun q hq => (hseen q hq).2

end AccountingApi
