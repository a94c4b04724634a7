import AccountingApi.ReadCommitted.Deadlock
import AccountingApi.Runs

/-!
# The order of the locks

The transactions that post, void, reverse and close take their locks in one order: the draft entry,
the payment, the documents, the document numbers, the fiscal year, the period, the entry numbers, the
slot in the index of reversals, the new entry, the entry that is reversed, the record of the year. A
draft ranks before everything else and an entry in the books after almost everything, so the rank of an
entry is the one it has in the committed store. Only a payment locks more than one document, in the
order in which its allocations are read, and this order is the database's to choose.

## Main definitions

* `Request.Contends`, `Request.entryId`, `Request.payment`: the contending requests, the keys they
  draw and the payments they post or void
* `Follows`: what these requests leave as it is in the store
* `lockRank`: the rank of a lock
* `Covers`, `Stance`, `Stands`: the documents a payment settles, and a payment that holds some of them
  and asks for the next one
* `Asking`: a lock is asked for in order, or is the next document of a payment

## Main results

* `Follows.after`: contending requests leave settings, drafts and the allocations of payments
* `climbs_createPostedEntryInTx`, `climbs_reverseInTx`: the locks of a posting
* `climbs_forEach`: the locks of the documents a payment settles
-/

namespace AccountingApi

open ReadCommitted Posting Relation

/-! ## Requests -/

/-- The requests that post, void, reverse and close. -/
def Request.Contends : Request → Prop
  | .postDocument .. | .voidDocument .. | .postPayment .. | .voidPayment .. => True
  | .createAndPostEntry .. | .postOpeningBalances .. | .postEntry .. | .reverseEntry .. => True
  | .closePeriod .. | .reopenPeriod .. | .closeYear .. | .reopenYear .. => True
  | _ => False

/-- The key drawn for the journal entry a contending request creates. -/
def Request.entryId : Request → Option Uuid
  | .postDocument _ _ _ entryId _ _ | .voidDocument _ _ _ entryId _ => some entryId
  | .postPayment _ _ entryId _ _ _ | .voidPayment _ _ entryId _ _ _ => some entryId
  | .createAndPostEntry _ _ entryId _ | .postOpeningBalances _ _ _ entryId _ => some entryId
  | .reverseEntry _ _ entryId _ | .closeYear _ _ entryId _ | .reopenYear _ _ entryId _ =>
    some entryId
  | _ => none

/-- The payment a contending request posts or voids. -/
def Request.payment : Request → Option Uuid
  | .postPayment id _ _ _ _ _ | .voidPayment id _ _ _ _ _ => some id
  | _ => none

/-- The store leaves the settings of `db₀`, the drafts and the payments with what they settle: no
draft and no payment is new. -/
structure Follows (db₀ db : Db) : Prop where
  settings : Db.settings db = Db.settings db₀
  draft : ∀ {id e}, Db.entry db id = some e → e.status = .draft → Db.entry db₀ id ≠ none
  payment : ∀ {id p}, Db.payment db id = some p → ∃ p₀, Db.payment db₀ id = some p₀ ∧
    p.direction = p₀.direction ∧ p.allocations = p₀.allocations

theorem Follows.refl (db₀ : Db) : Follows db₀ db₀ where
  settings := rfl
  draft := fun he _ hnone => by rw [he] at hnone; cases hnone
  payment := fun hp => ⟨_, hp, rfl, rfl⟩

/-- What a payment settles never changes. -/
theorem PaymentStep.settles {p p' : Payment} (h : PaymentStep p p') :
    p'.direction = p.direction ∧ p'.allocations = p.allocations := by
  cases h <;> exact ⟨rfl, rfl⟩

theorem settles_of_paymentSteps {p p' : Payment} (h : ReflTransGen PaymentStep p p') :
    p'.direction = p.direction ∧ p'.allocations = p.allocations := by
  induction h with
  | refl => exact ⟨rfl, rfl⟩
  | tail _ hstep ih =>
    exact ⟨hstep.settles.1.trans ih.1, hstep.settles.2.trans ih.2⟩

/-- A draft was a draft. -/
theorem EntryStep.draft {e e' : JournalEntry} (h : EntryStep e e') (he : e'.status = .draft) :
    e.status = .draft := by
  cases h with
  | refl => exact he
  | promote => cases he
  | reverse => cases he
  | delete now user hdraft => exact hdraft

section After

variable {db₀ : Db} {c : Commit}

theorem Created.posted {p : PreparedPosting} {id : Uuid} {now : Timestamp} {n : ℕ}
    {wn : List (Write Row)} {entry : JournalEntry} (h : Created False c p id now n wn entry) :
    entry.status ≠ .draft := by
  rw [h.entry_eq]
  exact nofun

theorem Reversed.posted {p : PreparedReversal} {id : Uuid} {now : Timestamp} {n : ℕ}
    {wn : List (Write Row)} {o rev : JournalEntry} (h : Reversed False c p id now n wn o rev) :
    ∀ x ∈ entries.writes (reversalWrites p id wn o rev), x.2.status ≠ .draft := by
  rw [h.writes_entries, h.entry_eq]
  simp [reversalEntry, markReversed]

/-- **What a contending request writes**: no draft and no new payment. -/
theorem Transacts.writes_of_contends (h : Transacts False c) (hreq : c.req.Contends) :
    (∀ x ∈ entries.writes c.writes, x.2.status ≠ .draft) ∧
      ∀ x ∈ payments.writes c.writes, Db.payment c.before x.1 ≠ none := by
  cases h
  case postDocument t =>
    refine ⟨?_, ?_⟩
    · rw [t.writes_entries]
      exact List.forall_mem_singleton.mpr t.created.posted
    · rw [t.writes, Table.writes_append, Table.writes_append, t.ticket.payments,
        t.created.stamp.ticket.payments]
      exact List.forall_mem_nil _
  case voidDocument t =>
    refine ⟨?_, ?_⟩
    · rw [t.writes, Table.writes_cons]
      exact t.reversed.posted
    · rw [t.writes, Table.writes_cons, t.reversed.writes_payments]
      exact List.forall_mem_nil _
  case postPayment t =>
    refine ⟨?_, ?_⟩
    · rw [t.writes_entries]
      exact List.forall_mem_singleton.mpr t.created.posted
    · rw [t.writes_payments]
      exact List.forall_mem_singleton.mpr (by rw [t.current]; exact nofun)
  case voidPayment t =>
    refine ⟨?_, ?_⟩
    · rw [t.writes, Table.writes_append, t.unwound.entries, Table.writes_cons]
      exact t.reversed.posted
    · rw [t.writes_payments]
      exact List.forall_mem_singleton.mpr (by rw [t.current]; exact nofun)
  case createAndPostEntry created writes =>
    rw [writes, Table.writes_append, Table.writes_append, created.stamp.ticket.entries,
      created.stamp.ticket.payments]
    exact ⟨List.forall_mem_singleton.mpr created.posted, List.forall_mem_nil _⟩
  case postEntry stamp writes =>
    rw [writes, Table.writes_append, Table.writes_append, stamp.ticket.entries,
      stamp.ticket.payments]
    exact ⟨List.forall_mem_singleton.mpr nofun, List.forall_mem_nil _⟩
  case reverseEntry reversed writes =>
    rw [writes]
    refine ⟨reversed.posted, ?_⟩
    rw [reversed.writes_payments]
    exact List.forall_mem_nil _
  case postOpeningBalances created writes =>
    rw [writes, Table.writes_append, Table.writes_append, created.stamp.ticket.entries,
      created.stamp.ticket.payments]
    exact ⟨List.forall_mem_singleton.mpr created.posted, List.forall_mem_nil _⟩
  case closeYear t =>
    rw [t.writes, Table.writes_append, Table.writes_append, t.created.stamp.ticket.entries,
      t.created.stamp.ticket.payments]
    exact ⟨List.forall_mem_singleton.mpr t.created.posted, List.forall_mem_nil _⟩
  case closeEmptyYear writes =>
    rw [writes]
    exact ⟨List.forall_mem_nil _, List.forall_mem_nil _⟩
  case reopenYear t =>
    rw [t.writes, Table.writes_append, Table.writes_append, t.reversed.writes_payments]
    refine ⟨fun x hx => ?_, List.forall_mem_nil _⟩
    rcases List.mem_append.mp hx with hx | hx
    · exact t.reversed.posted x hx
    · cases hx
  case reopenEmptyYear writes =>
    rw [writes]
    exact ⟨List.forall_mem_nil _, List.forall_mem_nil _⟩
  case periods change writes =>
    rw [writes, change.writes_entries, change.writes_payments]
    exact ⟨List.forall_mem_nil _, List.forall_mem_nil _⟩
  case account change writes =>
    rw [writes]
    exact ⟨List.forall_mem_nil _, List.forall_mem_nil _⟩
  -- the other requests do not contend
  all_goals simp_all only [Request.Contends]

/-- A contending request creates no draft. -/
theorem Transacts.no_draft_of_contends (h : Transacts False c) (hreq : c.req.Contends) {id : Uuid}
    {e : JournalEntry} (hb : Db.entry c.before id = none) (he : Db.entry c.after id = some e) :
    e.status ≠ .draft := by
  rw [entry_after, hb] at he
  exact (h.writes_of_contends hreq).1 _ (mem_of_overwrite he nofun)

/-- A contending request creates no payment. -/
theorem Transacts.payment_before (h : Transacts False c) (hreq : c.req.Contends) {id : Uuid}
    {p : Payment} (hp : Db.payment c.after id = some p) :
    ∃ p₀, Db.payment c.before id = some p₀ ∧ PaymentStep p₀ p := by
  cases hb : Db.payment c.before id with
  | some p₀ =>
    obtain ⟨p', hp', hstep⟩ := h.payment_step hb
    obtain rfl : p = p' := Option.some.inj (hp ▸ hp')
    exact ⟨p₀, rfl, hstep⟩
  | none =>
    rw [payment_after, hb] at hp
    exact absurd hb ((h.writes_of_contends hreq).2 _ (mem_of_overwrite hp nofun))

/-- **Contending requests leave settings, drafts and the allocations of payments.** -/
theorem Follows.after (hf : Follows db₀ c.before) (h : Transacts False c) (hreq : c.req.Contends) :
    Follows db₀ c.after where
  settings := by
    rcases h.settings_after with hsame | ⟨input, settings, hupdate, -⟩
    · exact hsame.trans hf.settings
    · rw [hupdate] at hreq
      exact hreq.elim
  draft := by
    intro id e he hdraft
    cases hb : Db.entry c.before id with
    | none => exact absurd hdraft (h.no_draft_of_contends hreq hb he)
    | some e₀ =>
      obtain ⟨e', he', hstep⟩ := h.entry_step hb
      obtain rfl : e = e' := Option.some.inj (he ▸ he')
      exact hf.draft hb (hstep.draft hdraft)
  payment := by
    intro id p hp
    obtain ⟨p₁, hp₁, hstep⟩ := h.payment_before hreq hp
    obtain ⟨p₀, hp₀, hdirection, hallocations⟩ := hf.payment hp₁
    exact ⟨p₀, hp₀, hstep.settles.1.trans hdirection, hstep.settles.2.trans hallocations⟩

end After

/-! ## Ranks -/

/-- The rank of a lock in the store `db`. -/
def lockRank (db : Db) : Lock Key LockName → ℕ
  -- the post of a draft locks it first, a reversal the original after the new entry
  | .row (.entry id) =>
    match Db.entry db id with
    | some e => if e.status = .draft then 0 else 9
    | none => 8
  | .row (.payment _) => 1
  | .row (.document _ _) => 2
  | .row (.sequence (.document _ _)) => 3
  | .named (.fiscalYear _) => 4
  | .row (.period _) => 5
  | .row (.sequence (.journal _)) => 6
  | .named (.reversalOf _) => 7
  | .row (.closing _) => 10
  | _ => 11

section Ranks

variable {db : Db} {id : Uuid}

theorem lockRank_of_draft {e : JournalEntry} (he : Db.entry db id = some e)
    (hdraft : e.status = .draft) : lockRank db (.row (.entry id)) = 0 := by
  simp only [lockRank, he, if_pos hdraft]

theorem lockRank_of_posted {e : JournalEntry} (he : Db.entry db id = some e)
    (hposted : e.status ≠ .draft) : lockRank db (.row (.entry id)) = 9 := by
  simp only [lockRank, he, if_neg hposted]

theorem lockRank_of_none (he : Db.entry db id = none) : lockRank db (.row (.entry id)) = 8 := by
  simp only [lockRank, he]

/-- A key that was free ranks as a new entry, or as one in the books. -/
theorem Follows.le_lockRank {db₀ : Db} (h : Follows db₀ db) (hfree : Db.entry db₀ id = none) :
    8 ≤ lockRank db (.row (.entry id)) := by
  cases he : Db.entry db id with
  | none => exact (lockRank_of_none he).ge
  | some e =>
    rw [lockRank_of_posted he fun hdraft => h.draft he hdraft hfree]
    decide

end Ranks

/-! ## Payments -/

/-- The documents a payment settles. -/
def Payment.documents (p : Payment) : List Uuid :=
  p.allocations.filterMap p.direction.target.allocId

/-- The allocations are read in any order; the documents are the same. -/
theorem Payment.mem_documents_scanned (scan : ScanOrder PaymentAllocation) (p : Payment) (d : Uuid) :
    d ∈ (Payments.scanned scan p).documents ↔ d ∈ p.documents :=
  ((scan.perm p.allocations).filterMap _).mem_iff

/-- The payment in the store settles these documents. -/
def Covers (db : Db) (id : Uuid) (kind : DocumentKind) (ids : List Uuid) : Prop :=
  ∃ p, Db.payment db id = some p ∧ p.direction.target.kind = kind ∧ ids ⊆ p.documents

/-- A payment that holds some documents and asks for the next one. -/
structure Stance where
  payment : Uuid
  kind : DocumentKind
  before : List Uuid
  next : Uuid

/-- The payment in the store settles these documents, whatever their order, and holds the next one not
yet. -/
def Stance.Of (db : Db) (x : Stance) : Prop :=
  Covers db x.payment x.kind (x.before ++ [x.next]) ∧ x.next ∉ x.before

/-- The request takes this stance: it asks for the document, and holds the payment and the other
documents only. -/
structure Stands (db₀ : Db) (r : Request) (locks : List (Held Key LockName))
    (h : Held Key LockName) (x : Stance) : Prop where
  payment : r.payment = some x.payment
  of : x.Of db₀
  asked : h = (.row (.document x.kind x.next), .exclusive)
  heldPayment : (.row (.payment x.payment), .exclusive) ∈ locks
  heldDocuments : ∀ b ∈ x.before, (.row (.document x.kind b), .exclusive) ∈ locks
  only : ∀ l ∈ locks, l.1 = .row (.payment x.payment) ∨
    ∃ b ∈ x.before, l.1 = .row (.document x.kind b)

/-- The lock is asked for in order, or is the next document of a payment. -/
def Asking (db₀ : Db) (r : Request) (ℓ : Tx) (h : Held Key LockName) : Prop :=
  ℓ.Always (protocol False) (Follows db₀) fun db =>
    InOrder (lockRank db) ℓ.locks h ∨ ∃ x, Stands db₀ r ℓ.locks h x

/-! ## Statements -/

/-- Whatever the program asks for is asked for as it should, and what it ends with satisfies `post`. -/
abbrev Climbs (db₀ : Db) (r : Request) {α : Type} (p : Program α) (ℓ : Tx)
    (post : α → Tx → Prop) : Prop :=
  p.asks (protocol False) (Asking db₀ r) ℓ post

/-- The locks held rank below `n`, whatever is committed from now on. -/
abbrev Under (db₀ : Db) (ℓ : Tx) (n : ℕ) : Prop :=
  ℓ.Below (protocol False) (Follows db₀) lockRank n

/-- Whatever is committed from now on, the committed store satisfies `F`. -/
abbrev Surely (db₀ : Db) (ℓ : Tx) (F : Db → Prop) : Prop :=
  ℓ.Always (protocol False) (Follows db₀) F

section Statements

variable {db₀ : Db} {r : Request} {ℓ : Tx} {i : ℕ}

/-- A lock that is asked for in order. -/
theorem asking_of_asksInOrder (ℓ : Tx) (h : Held Key LockName)
    (hasks : ℓ.AsksInOrder (protocol False) (Follows db₀) lockRank h) : Asking db₀ r ℓ h :=
  Local.Always.mono hasks fun _ => .inl

/-- A lock of the rank `i`. -/
theorem climbs_lock {l : Lock Key LockName} {m : Mode} {post : Db → Tx → Prop}
    (hrank : ∀ db, lockRank db l = i) (hunder : Under db₀ ℓ i)
    (h : ∀ s ℓ', ℓ.Extends ℓ' → (l, m) ∈ ℓ'.locks → Under db₀ ℓ' (i + 1) → post (ℓ.view s) ℓ') :
    Climbs db₀ r (Prog.lock l m) ℓ post :=
  Prog.asks_lock asking_of_asksInOrder hunder (.of_forall fun db _ => (hrank db).ge) i.le_succ
    (fun db => Nat.lt_succ_of_le (hrank db).le) h

/-- An update of a row that is locked already. -/
theorem climbs_updateLocked {k : Key} {live : Row k → Prop} [DecidablePred live]
    {f : Row k → Row k} {valid : Row k → Prop} [DecidablePred valid] {post : Row k → Tx → Prop}
    (hheld : (.row k, .exclusive) ∈ ℓ.locks)
    (h : ∀ v ℓ', ℓ.Extends ℓ' → ℓ'.locks ⊆ ℓ.locks → post v ℓ') :
    Climbs db₀ r (updateRow k live f valid) ℓ post := by
  refine Prog.asks_bind.mpr (Prog.asks_relock asking_of_asksInOrder hheld fun s ℓ₁ e₁ s₁ => ?_)
  refine Prog.asks_bind.mpr (Prog.asks_orThrow fun v _ => ?_)
  refine Prog.asks_bind.mpr (Prog.asks_ensure fun _ => ?_)
  refine Prog.asks_bind.mpr (Prog.asks_ensure fun _ => ?_)
  refine Prog.asks_bind.mpr
    (Prog.asks_write asking_of_asksInOrder (e₁.locks hheld) fun ℓ₂ e₂ s₂ => ?_)
  exact h _ ℓ₂ (e₁.trans e₂) (List.Subset.trans s₂ s₁)

/-- An update of a row of the rank `i`. -/
theorem climbs_updateRow {k : Key} {live : Row k → Prop} [DecidablePred live]
    {f : Row k → Row k} {valid : Row k → Prop} [DecidablePred valid] {post : Row k → Tx → Prop}
    (hrank : ∀ db, lockRank db (.row k) = i) (hunder : Under db₀ ℓ i)
    (h : ∀ v ℓ', ℓ.Extends ℓ' → Under db₀ ℓ' (i + 1) → post v ℓ') :
    Climbs db₀ r (updateRow k live f valid) ℓ post := by
  refine Prog.asks_bind.mpr (climbs_lock hrank hunder fun s ℓ₁ e₁ hheld u₁ => ?_)
  refine Prog.asks_bind.mpr (Prog.asks_orThrow fun v _ => ?_)
  refine Prog.asks_bind.mpr (Prog.asks_ensure fun _ => ?_)
  refine Prog.asks_bind.mpr (Prog.asks_ensure fun _ => ?_)
  refine Prog.asks_bind.mpr (Prog.asks_write asking_of_asksInOrder hheld fun ℓ₂ e₂ s₂ => ?_)
  exact h _ ℓ₂ (e₁.trans e₂) (u₁.extend e₂ s₂)

/-- The counter is locked once more after its first use has created it. -/
theorem climbs_nextSequenceNumber {s : Sequence} {post : ℕ → Tx → Prop}
    (hrank : ∀ db, lockRank db (.row (.sequence s)) = i) (hunder : Under db₀ ℓ i)
    (h : ∀ a ℓ', ℓ.Extends ℓ' → Under db₀ ℓ' (i + 1) → post a ℓ') :
    Climbs db₀ r (nextSequenceNumber s) ℓ post := by
  refine Prog.asks_bind.mpr (climbs_lock hrank hunder fun _ ℓ₁ e₁ hheld u₁ => ?_)
  -- what follows, whether the counter has been created or not
  have hnext : ∀ ℓ₂ : Tx, ℓ₁.Extends ℓ₂ → ℓ₂.locks ⊆ ℓ₁.locks → Climbs db₀ r (do
      let db ← forUpdate (.sequence s)
      let current ← Prog.orThrow (db.sequence s) (.internal "rows[0] is undefined")
      Prog.write (.sequence s) (current + 1 : ℕ)
      pure current) ℓ₂ post := by
    intro ℓ₂ e₂ s₂
    have hheld₂ := e₂.locks hheld
    refine Prog.asks_bind.mpr (Prog.asks_relock asking_of_asksInOrder hheld₂ fun _ ℓ₃ e₃ s₃ => ?_)
    refine Prog.asks_bind.mpr (Prog.asks_orThrow fun current _ => ?_)
    refine Prog.asks_bind.mpr
      (Prog.asks_write asking_of_asksInOrder (e₃.locks hheld₂) fun ℓ₄ e₄ s₄ => ?_)
    have hsame := List.Subset.trans s₄ (List.Subset.trans s₃ s₂)
    have e₁₄ := e₂.trans (e₃.trans e₄)
    exact h _ ℓ₄ (e₁.trans e₁₄) (u₁.extend e₁₄ hsame)
  refine Prog.asks_bind.mpr
    (Prog.asks_when (fun _ => ?_) fun _ => hnext ℓ₁ (.refl ℓ₁) (List.Subset.refl _))
  exact Prog.asks_write asking_of_asksInOrder hheld hnext

end Statements

/-! ## Postings -/

section Postings

variable {db₀ : Db} {r : Request} {ℓ : Tx}

/-- The insert of a new entry. -/
theorem climbs_insertEntry {id : Uuid} {e : JournalEntry} {post : Unit → Tx → Prop}
    (hfree : Db.entry db₀ id = none) (hunder : Under db₀ ℓ 8)
    (h : ∀ ℓ', ℓ.Extends ℓ' → Under db₀ ℓ' 9 → post () ℓ') :
    Climbs db₀ r (insert (.entry id) e e.Valid) ℓ post := by
  refine Prog.asks_bind.mpr ⟨asking_of_asksInOrder _ _
    (hunder.asksInOrder (.of_forall fun db hI => hI.le_lockRank hfree)), fun s _ => ?_⟩
  have hheld : (.row (.entry id), .exclusive) ∈ (ℓ.hold (.row (.entry id), .exclusive) s).locks :=
    List.mem_cons_self
  refine Prog.asks_bind.mpr (Prog.asks_ensure fun hnone => ?_)
  -- the row stays free while it is locked
  have hnone := Store.row_eq_none_of_putAll (Option.isNone_iff_eq_none.mp hnone)
  have hrank : Surely db₀ (ℓ.hold (.row (.entry id), .exclusive) s) fun db =>
      lockRank db (.row (.entry id)) < 9 := by
    refine (Local.Always.row_eq s).mono fun db hrow => ?_
    rw [lockRank_of_none ((Db.entry_eq_row db id).trans (hrow.trans hnone))]
    decide
  refine Prog.asks_bind.mpr (Prog.asks_ensure fun _ => ?_)
  refine Prog.asks_write asking_of_asksInOrder hheld fun ℓ' e' s' => ?_
  exact h ℓ' (.trans (.hold _ s) e') (((hunder.mono (by decide)).hold hrank).extend e' s')

/-- A posting can take the shared lock of the year, or holds the exclusive one where it takes it at
all. -/
def ReadyToStamp (db₀ : Db) (ℓ : Tx) (fiscalYear : ℤ)
    (allowClosedYear : Bool) : Prop :=
  Under db₀ ℓ 4 ∨ Under db₀ ℓ 5 ∧ Surely db₀ ℓ fun _ =>
    allowClosedYear = false → (.named (.fiscalYear fiscalYear), .exclusive) ∈ ℓ.locks

theorem ReadyToStamp.under {fiscalYear : ℤ} {allow : Bool}
    (h : ReadyToStamp db₀ ℓ fiscalYear allow) : Under db₀ ℓ 5 :=
  h.elim (fun h => h.mono (by decide)) And.left

/-- The shared lock of the year, then the one of the period. -/
theorem climbs_assertPostablePeriodInTx {periodId : Uuid} {fiscalYear : ℤ} {allow : Bool}
    {post : Unit → Tx → Prop} (hready : ReadyToStamp db₀ ℓ fiscalYear allow)
    (h : ∀ ℓ', ℓ.Extends ℓ' → Under db₀ ℓ' 6 → post () ℓ') :
    Climbs db₀ r (assertPostablePeriodInTx periodId fiscalYear allow) ℓ post := by
  have hperiod : ∀ ℓ₁ : Tx, ℓ.Extends ℓ₁ → Under db₀ ℓ₁ 5 → Climbs db₀ r (do
      let db ← forShare (.period periodId)
      Prog.ensure (∃ p ∈ Db.period db periodId, p.status = .opened)
        (.validationFailed "No open accounting period contains this date"
          [("periodId", .id periodId)])) ℓ₁ post := by
    intro ℓ₁ e₁ u₁
    refine Prog.asks_bind.mpr (climbs_lock (fun _ => rfl) u₁ fun _ ℓ₂ e₂ _ u₂ => ?_)
    exact Prog.asks_ensure fun _ => h ℓ₂ (e₁.trans e₂) u₂
  refine Prog.asks_bind.mpr (Prog.asks_when (fun hallow => ?_) fun _ =>
    hperiod ℓ (.refl ℓ) hready.under)
  have hlock : ℓ.AsksInOrder (protocol False) (Follows db₀) lockRank
      (.named (.fiscalYear fiscalYear), .shared) := by
    -- a close holds the exclusive lock of the year, so it does not wait for the shared one
    rcases hready with hunder | ⟨-, hheld⟩
    · exact hunder.asksInOrder (.of_forall fun _ _ => le_rfl)
    · exact hheld.mono fun _ hheld => .inl (hheld hallow)
  refine Prog.asks_bind.mpr ⟨asking_of_asksInOrder _ _ hlock, fun s _ => ?_⟩
  have u₁ : Under db₀ (ℓ.hold (.named (.fiscalYear fiscalYear), .shared) s) 5 :=
    hready.under.hold (.of_forall fun _ _ => Nat.lt_succ_self 4)
  refine Prog.asks_bind.mpr fun s₂ _ => Prog.asks_ensure fun _ => ?_
  have e₂ : ℓ.Extends ((ℓ.hold (.named (.fiscalYear fiscalYear), .shared) s).see .closing s₂) :=
    .trans (.hold _ s) (.see _ s₂)
  exact hperiod _ e₂ (Local.Below.extend u₁ (.see _ s₂) fun _ hl => hl)

/-- The checks and the number of an entry. -/
theorem climbs_stampPostedInTx {periodId : Uuid} {fiscalYear : ℤ} {allow : Bool}
    {post : ℕ × String → Tx → Prop} (hready : ReadyToStamp db₀ ℓ fiscalYear allow)
    (h : ∀ x ℓ', ℓ.Extends ℓ' → Under db₀ ℓ' 7 → post x ℓ') :
    Climbs db₀ r (stampPostedInTx periodId fiscalYear allow) ℓ post := by
  refine Prog.asks_bind.mpr (climbs_assertPostablePeriodInTx hready fun ℓ₁ e₁ u₁ => ?_)
  refine Prog.asks_bind.mpr (climbs_nextSequenceNumber (fun _ => rfl) u₁ fun n ℓ₂ e₂ u₂ => ?_)
  exact h _ ℓ₂ (e₁.trans e₂) u₂

/-- A fresh entry. -/
theorem climbs_createPostedEntryInTx {prepared : PreparedPosting} {id : Uuid} {now : Timestamp}
    {post : JournalEntry → Tx → Prop} (hfree : Db.entry db₀ id = none)
    (hready : ReadyToStamp db₀ ℓ prepared.fiscalYear false)
    (h : ∀ e ℓ', ℓ.Extends ℓ' → Under db₀ ℓ' 9 → post e ℓ') :
    Climbs db₀ r (createPostedEntryInTx prepared id now) ℓ post := by
  refine Prog.asks_bind.mpr (climbs_stampPostedInTx hready fun x ℓ₁ e₁ u₁ => ?_)
  refine Prog.asks_bind.mpr
    (climbs_insertEntry hfree (u₁.mono (by decide)) fun ℓ₂ e₂ u₂ => ?_)
  exact h _ ℓ₂ (e₁.trans e₂) u₂

/-- The entry is in the books, and no draft. -/
def Posted (id : Uuid) (db : Db) : Prop := ∃ e, Db.entry db id = some e ∧ e.status ≠ .draft

/-- A reversal of an entry in the books. -/
theorem climbs_reverseInTx {prepared : PreparedReversal} {id : Uuid} {now : Timestamp}
    {post : JournalEntry → Tx → Prop} (hfree : Db.entry db₀ id = none)
    (hready : ReadyToStamp db₀ ℓ prepared.fiscalYear prepared.allowClosedYear)
    (hposted : Surely db₀ ℓ (Posted prepared.originalId))
    (h : ∀ e ℓ', ℓ.Extends ℓ' → Under db₀ ℓ' 10 → post e ℓ') :
    Climbs db₀ r (reverseInTx prepared id now) ℓ post := by
  refine Prog.asks_bind.mpr (climbs_stampPostedInTx hready fun x ℓ₁ e₁ u₁ => ?_)
  refine Prog.asks_bind.mpr (climbs_lock (fun _ => rfl) u₁ fun _ ℓ₂ e₂ _ u₂ => ?_)
  refine Prog.asks_bind.mpr (Prog.asks_ensure fun _ => ?_)
  refine Prog.asks_bind.mpr (climbs_insertEntry hfree u₂ fun ℓ₃ e₃ u₃ => ?_)
  -- what is in the books stays there
  have hrank : Surely db₀ ℓ₃ fun db =>
      lockRank db (.row (.entry prepared.originalId)) = 9 := by
    refine (hposted.extend (e₁.trans (e₂.trans e₃))).mono ?_
    rintro db ⟨e, he, hnot⟩
    exact lockRank_of_posted he hnot
  refine Prog.asks_bind.mpr (Prog.asks_bind.mpr
    ⟨asking_of_asksInOrder _ _ (u₃.asksInOrder (hrank.mono fun _ hdb => hdb.ge)), fun s _ => ?_⟩)
  have u₄ : Under db₀ (ℓ₃.hold (.row (.entry prepared.originalId), .exclusive) s) 10 :=
    (u₃.mono (by decide)).hold ((hrank.extend (.hold _ s)).mono fun _ hdb =>
      hdb.trans_lt (by decide))
  refine Prog.asks_bind.mpr (Prog.asks_orThrow fun v _ => ?_)
  refine Prog.asks_bind.mpr (Prog.asks_ensure fun _ => ?_)
  refine Prog.asks_bind.mpr (Prog.asks_ensure fun _ => ?_)
  refine Prog.asks_bind.mpr
    (Prog.asks_write asking_of_asksInOrder List.mem_cons_self fun ℓ₅ e₅ s₅ => ?_)
  exact h _ ℓ₅ (e₁.trans (e₂.trans (e₃.trans (.trans (.hold _ s) e₅)))) (u₄.extend e₅ s₅)

end Postings

/-! ## The documents of a payment -/

section Documents

variable {db₀ : Db} {r : Request} {id d : Uuid} {kind : DocumentKind} {ℓ ℓ' : Tx}
  {seen : List Uuid}

/-- The payment and the documents `seen` are locked, and nothing else. -/
structure Settling (id : Uuid) (kind : DocumentKind) (ℓ : Tx) (seen : List Uuid) : Prop where
  payment : (.row (.payment id), .exclusive) ∈ ℓ.locks
  documents : ∀ b ∈ seen, (.row (.document kind b), .exclusive) ∈ ℓ.locks
  only : ∀ l ∈ ℓ.locks, l.1 = .row (.payment id) ∨ ∃ b ∈ seen, l.1 = .row (.document kind b)

theorem Settling.under (h : Settling id kind ℓ seen) : Under db₀ ℓ 3 := by
  intro db _ _ _ l hl
  rcases h.only l hl with hl | ⟨b, -, hl⟩ <;> rw [hl]
  · exact Nat.lt_of_sub_pos (Nat.zero_lt_succ 1)
  · exact Nat.lt_succ_self 2

/-- One more document. -/
theorem climbs_lockDocument {post : Db → Tx → Prop} (hpayment : r.payment = some id)
    (hs : Settling id kind ℓ seen) (hcovers : Surely db₀ ℓ fun _ => Covers db₀ id kind (seen ++ [d]))
    (h : ∀ s ℓ', ℓ.Extends ℓ' → Settling id kind ℓ' (seen ++ [d]) → post (ℓ.view s) ℓ') :
    Climbs db₀ r (forUpdate (.document kind d)) ℓ post := by
  by_cases hmem : d ∈ seen
  -- a document that two allocations name is locked already
  · refine Prog.asks_relock asking_of_asksInOrder (hs.documents d hmem) fun s ℓ' e' s' =>
      h s ℓ' e' ⟨e'.locks hs.payment, fun b hb => e'.locks ?_, fun l hl => ?_⟩
    · rcases List.mem_append.mp hb with hb | hb
      · exact hs.documents b hb
      · rw [List.mem_singleton.mp hb]
        exact hs.documents d hmem
    · refine (hs.only l (s' hl)).imp_right fun ⟨b, hb, hl⟩ => ⟨b, List.mem_append_left _ hb, hl⟩
  · refine ⟨hcovers.mono fun db hdb => .inr ⟨⟨id, kind, seen, d⟩, hpayment, ⟨hdb, hmem⟩, rfl,
      hs.payment, hs.documents, hs.only⟩, fun s _ => h s _ (.hold _ s) ⟨?_, ?_, ?_⟩⟩
    · exact List.mem_cons_of_mem _ hs.payment
    · intro b hb
      rcases List.mem_append.mp hb with hb | hb
      · exact List.mem_cons_of_mem _ (hs.documents b hb)
      · rw [List.mem_singleton.mp hb]
        exact List.mem_cons_self
    · refine List.forall_mem_cons.mpr ⟨.inr ⟨d, by simp, rfl⟩, fun l hl => ?_⟩
      exact (hs.only l hl).imp_right fun ⟨b, hb, hl⟩ => ⟨b, List.mem_append_left _ hb, hl⟩

theorem Settling.same (hs : Settling id kind ℓ seen) (he : ℓ.Extends ℓ')
    (hlocks : ℓ'.locks ⊆ ℓ.locks) : Settling id kind ℓ' seen :=
  ⟨he.locks hs.payment, fun b hb => he.locks (hs.documents b hb), fun l hl => hs.only l (hlocks hl)⟩

/-- What one allocation does: it locks its document. -/
def LocksDocument (db₀ : Db) (r : Request) (id : Uuid) (t : PaymentTarget)
    (f : PaymentAllocation → Program Unit) : Prop :=
  ∀ (a : PaymentAllocation) (ℓ : Tx) (seen : List Uuid) (post : Unit → Tx → Prop),
    Settling id t.kind ℓ seen →
    (∀ d, t.allocId a = some d →
      Surely db₀ ℓ fun _ => Covers db₀ id t.kind (seen ++ [d])) →
    (∀ d ℓ', t.allocId a = some d → ℓ.Extends ℓ' → Settling id t.kind ℓ' (seen ++ [d]) →
      post () ℓ') →
    Climbs db₀ r (f a) ℓ post

/-- An allocation settled. -/
theorem locksDocument_settleInTx (hpayment : r.payment = some id) (t : PaymentTarget)
    (partnerId : Uuid) : LocksDocument db₀ r id t (settleInTx t partnerId) := by
  intro a ℓ seen post hs hcovers h
  refine Prog.asks_bind.mpr (Prog.asks_orThrow fun d hd => ?_)
  refine Prog.asks_bind.mpr (climbs_lockDocument hpayment hs (hcovers d hd) fun _ ℓ₁ e₁ s₁ => ?_)
  refine Prog.asks_bind.mpr (Prog.asks_orThrow fun doc _ => ?_)
  refine Prog.asks_bind.mpr (Prog.asks_ensure fun _ => ?_)
  refine Prog.asks_bind.mpr (Prog.asks_ensure fun _ => ?_)
  refine Prog.asks_bind.mpr (Prog.asks_ensure fun _ => ?_)
  have hheld := s₁.documents d (List.mem_append_right _ List.mem_cons_self)
  refine Prog.asks_bind.mpr (climbs_updateLocked hheld fun _ ℓ₂ e₂ hsame => ?_)
  exact h d ℓ₂ hd (e₁.trans e₂) (s₁.same e₂ hsame)

/-- An allocation taken back. -/
theorem locksDocument_unwindInTx (hpayment : r.payment = some id) (t : PaymentTarget) :
    LocksDocument db₀ r id t (unwindInTx t) := by
  intro a ℓ seen post hs hcovers h
  refine Prog.asks_bind.mpr (Prog.asks_orThrow fun d hd => ?_)
  refine Prog.asks_bind.mpr (climbs_lockDocument hpayment hs (hcovers d hd) fun _ ℓ₁ e₁ s₁ => ?_)
  refine Prog.asks_bind.mpr (Prog.asks_orThrow fun doc _ => ?_)
  refine Prog.asks_bind.mpr (Prog.asks_ensure fun _ => ?_)
  have hheld := s₁.documents d (List.mem_append_right _ List.mem_cons_self)
  refine Prog.asks_bind.mpr (climbs_updateLocked hheld fun _ ℓ₂ e₂ hsame => ?_)
  exact h d ℓ₂ hd (e₁.trans e₂) (s₁.same e₂ hsame)

/-- **The loop over the allocations** locks the documents one after the other. -/
theorem climbs_forEach {t : PaymentTarget} {f : PaymentAllocation → Program Unit}
    (hf : LocksDocument db₀ r id t f) {as : List PaymentAllocation} {post : Unit → Tx → Prop}
    (hs : Settling id t.kind ℓ seen)
    (hcovers : Surely db₀ ℓ fun _ => Covers db₀ id t.kind (seen ++ as.filterMap t.allocId))
    (h : ∀ ℓ', ℓ.Extends ℓ' → (.row (.payment id), .exclusive) ∈ ℓ'.locks → Under db₀ ℓ' 3 →
      post () ℓ') :
    Climbs db₀ r (Prog.forEach as f) ℓ post := by
  -- the induction is on the allocations, over the documents locked so far
  induction as generalizing ℓ seen with
  | nil => exact h ℓ (.refl ℓ) hs.payment hs.under
  | cons a as ih =>
    have hcons : ∀ d, t.allocId a = some d → Surely db₀ ℓ fun _ =>
        Covers db₀ id t.kind (seen ++ [d] ++ as.filterMap t.allocId) := fun d hd =>
      hcovers.mono fun _ hdb => by
        rwa [List.filterMap_cons_some hd, List.append_cons] at hdb
    refine Prog.asks_bind.mpr (hf a ℓ seen _ hs (fun d hd => ?_) fun d ℓ₁ hd e₁ s₁ => ?_)
    · refine (hcons d hd).mono ?_
      rintro _ ⟨p, hp, hkind, hsub⟩
      exact ⟨p, hp, hkind, List.Subset.trans (List.subset_append_left _ _) hsub⟩
    · exact ih s₁ ((hcons d hd).extend e₁) fun ℓ₂ e₂ => h ℓ₂ (e₁.trans e₂)

end Documents

end AccountingApi
