import AccountingApi.Lifecycle

/-!
# Paid amounts

The paid amount of an invoice or a bill is the sum of the allocations to it whose payment is posted. It
is changed by one allocation at a time, under the lock of the document, and never leaves the range from
zero to the document's total; a document that is voided has been paid nothing.

## Main definitions

* `Db.paid`: the sum of the posted allocations to a document
* `Document.Solvent`, `Settled`: the paid amount of one document, and of every document
* `Settlement`: what holds of a server at any time

## Main results

* `Applies.document_paid`: what a list of allocations does to a document
* `settlement_of_reachable`
-/

namespace AccountingApi

open ReadCommitted Posting

/-! ## Sums of allocations -/

/-- What the allocations put on a document. -/
def allocatedTo (kind : DocumentKind) (id : Uuid) (as : List PaymentAllocation) : ℤ :=
  ((as.filter fun a => a.idOf kind = some id).map (·.amount)).sum

/-- What a payment contributes to the paid amount of a document. -/
def Payment.paidTo (p : Payment) (kind : DocumentKind) (id : Uuid) : ℤ :=
  if p.status = .posted then allocatedTo kind id p.allocations else 0

/-- The allocations to a document whose payment is posted. -/
def Db.paid (db : Db) (kind : DocumentKind) (id : Uuid) : ℤ :=
  payments.sum (fun _ p => p.paidTo kind id) db

/-- The sum over the allocations of a payment of `target` documents to one document. -/
def sumTo (target : DocumentKind) (delta : PaymentAllocation → ℤ) (kind : DocumentKind) (id : Uuid)
    (as : List PaymentAllocation) : ℤ :=
  ((as.filter fun a => kind = target ∧ a.idOf target = some id).map delta).sum

/-- The allocations of a payment are to documents of its target only. -/
theorem sumTo_target {p : Payment} (h : p.Coherent) (kind : DocumentKind) (id : Uuid) :
    sumTo p.direction.target.kind (·.amount) kind id p.allocations =
      allocatedTo kind id p.allocations := by
  refine congrArg (fun as : List PaymentAllocation => (as.map (·.amount)).sum)
    (List.filter_congr fun a ha => ?_)
  obtain ⟨-, hother⟩ := h.targets a ha
  by_cases hkind : kind = p.direction.target.kind
  · simp [hkind]
  · have hnone : a.idOf kind = none := by
      cases hp : p.direction <;> cases kind <;>
        simp_all [PaymentTarget.otherId, PaymentDirection.target]
    simp [hkind, hnone]

/-- The amount of a payment is the sum of its allocations. -/
theorem Payment.Coherent.amount_eq_sum {p : Payment} (h : p.Coherent) :
    p.amount = (p.allocations.map (·.amount)).sum := by
  refine h.amount_eq.trans (Money.sum_eq_of_storable ?_ (h.amount_eq ▸ h.valid.1))
  intro x hx
  obtain ⟨a, ha, rfl⟩ := List.mem_map.mp hx
  exact (h.valid.2 a ha).1.le

theorem sumTo_neg (target kind : DocumentKind) (id : Uuid) (as : List PaymentAllocation) :
    sumTo target (fun a => -a.amount) kind id as = -sumTo target (·.amount) kind id as := by
  simp only [sumTo, List.sum_neg, List.map_map]
  rfl

/-- The order in which the allocations are read does not matter. -/
theorem sumTo_order (scan : ScanOrder PaymentAllocation) (target : DocumentKind)
    (delta : PaymentAllocation → ℤ) (kind : DocumentKind) (id : Uuid) (as : List PaymentAllocation) :
    sumTo target delta kind id (scan.order as) = sumTo target delta kind id as :=
  (((scan.perm as).filter _).map delta).sum_eq

/-! ## One document -/

/-- The paid amount lies between zero and the total, and only posted documents are paid. -/
structure Document.Solvent (d : Document) : Prop where
  nonneg : 0 ≤ d.amountPaid
  le_total : d.amountPaid ≤ d.total
  unpaid : d.status ≠ .posted → d.amountPaid = 0

/-- The check of the outstanding amount is exact on amounts that fit their columns. -/
theorem exceedsOutstanding_eq_false {total amountPaid amount : ℤ} (htotal : Money.Storable total)
    (hpaid : 0 ≤ amountPaid) (hle : amountPaid ≤ total) (hamount : 0 ≤ amount)
    (hstorable : Money.Storable amount) :
    exceedsOutstanding total amountPaid amount = false ↔ amountPaid + amount ≤ total := by
  have hfirst : Money.subtract total amountPaid = total - amountPaid :=
    Money.subtract_eq (by simp only [Money.Storable] at *; omega)
  have hsecond : Money.subtract (total - amountPaid) amount = total - amountPaid - amount :=
    Money.subtract_eq (by simp only [Money.Storable] at *; omega)
  rw [exceedsOutstanding, hfirst, hsecond, Money.isNegative, decide_eq_false_iff_not]
  omega

/-- A settled allocation keeps the document solvent. -/
theorem Document.Solvent.settle {partnerId : Uuid} {a : PaymentAllocation} {d : Document}
    (h : d.Solvent) (htotal : Money.Storable d.total) (ha : a.Valid)
    (hok : CanSettle partnerId a d) : (applyPaid a.amount d).Solvent := by
  obtain ⟨hposted, -, hexceeds, -⟩ := hok
  have hle := (exceedsOutstanding_eq_false htotal h.nonneg h.le_total ha.1.le ha.2).mp hexceeds
  exact ⟨Int.add_nonneg h.nonneg ha.1.le, hle, fun hnot => absurd hposted hnot⟩

/-- What is taken back has been paid. -/
theorem Document.Solvent.amount_le {a : PaymentAllocation} {d : Document} (h : d.Solvent)
    (htotal : Money.Storable d.total) (ha : a.Valid) (hok : CanUnwind a d) :
    a.amount ≤ d.amountPaid := by
  have hnonneg := h.nonneg
  have hle := h.le_total
  have hexact : Money.subtract d.amountPaid a.amount = d.amountPaid - a.amount :=
    Money.subtract_eq_of_nonneg hnonneg ha.1.le (by simp only [Money.Storable] at *; omega) ha.2
  rw [CanUnwind, hexact, Money.isNegative, decide_eq_false_iff_not] at hok
  omega

/-- An allocation taken back keeps the document solvent. -/
theorem Document.Solvent.unwind {a : PaymentAllocation} {d : Document} (h : d.Solvent)
    (htotal : Money.Storable d.total) (ha : a.Valid) (hok : CanUnwind a d) :
    (applyPaid (-a.amount) d).Solvent := by
  have hnonneg := h.nonneg
  have hle := h.le_total
  have hpos := ha.1
  have hamount := h.amount_le htotal ha hok
  refine ⟨?_, ?_, fun hnot => ?_⟩
  · simp only [applyPaid]
    omega
  · simp only [applyPaid]
    omega
  · have hzero := h.unpaid hnot
    omega

/-! ## A list of allocations -/

section Applies

variable {target kind : DocumentKind} {ok : PaymentAllocation → Document → Prop}
  {delta : PaymentAllocation → ℤ} {db : Db} {as : List PaymentAllocation} {ws : List (Write Row)}
  {id : Uuid}

theorem applyPaid_applyPaid (x y : ℤ) (d : Document) :
    applyPaid x (applyPaid y d) = applyPaid (y + x) d := by
  simp [applyPaid, add_assoc]

theorem sumTo_cons_of_eq {a : PaymentAllocation} (h : a.idOf kind = some id) :
    sumTo kind delta kind id (a :: as) = delta a + sumTo kind delta kind id as := by
  simp [sumTo, h]

theorem sumTo_cons_of_ne {a : PaymentAllocation} {id' : Uuid} (h : a.idOf target = some id')
    (hne : (target, id') ≠ (kind, id)) :
    sumTo target delta kind id (a :: as) = sumTo target delta kind id as := by
  have hnot : ¬ (kind = target ∧ a.idOf target = some id) := by
    rintro ⟨rfl, hid⟩
    rw [h] at hid
    cases hid
    exact hne rfl
  simp [sumTo, hnot]

/-- **What a list of allocations does to a document**: each is added, and what each of them keeps is
kept. -/
theorem Applies.document_paid (h : Applies target ok delta db as ws) {P : Document → Prop}
    (hP : ∀ a ∈ as, ∀ d, ok a d → P d → P (applyPaid (delta a) d)) {d : Document}
    (hd : Db.document db kind id = some d) (hPd : P d) :
    Db.document (db.putAll ws) kind id = some (applyPaid (sumTo target delta kind id as) d) ∧
      P (applyPaid (sumTo target delta kind id as) d) := by
  induction h generalizing d with
  | nil db =>
    have hzero : applyPaid (sumTo target delta kind id []) d = d := by simp [applyPaid, sumTo]
    rw [hzero]
    exact ⟨hd, hPd⟩
  | @cons db a as ws id' d' hid hd' hlive hok hrest ih =>
    have hP' : ∀ a ∈ as, ∀ d, ok a d → P d → P (applyPaid (delta a) d) :=
      fun a ha => hP a (List.mem_cons_of_mem _ ha)
    rw [Store.putAll_cons]
    by_cases hk : (target, id') = (kind, id)
    · cases hk
      obtain rfl : d = d' := Option.some.inj (hd ▸ hd')
      have hput : Db.document (db.put (.document target id) (applyPaid (delta a) d)) target id =
          some (applyPaid (delta a) d) := by
        rw [document_put, if_pos rfl]
      have hrest' := ih hP' hput (hP a List.mem_cons_self d hok hPd)
      rwa [applyPaid_applyPaid, ← sumTo_cons_of_eq hid] at hrest'
    · have hput : Db.document (db.put (.document target id') (applyPaid (delta a) d')) kind id =
          some d := by
        rw [document_put, if_neg hk, hd]
      rw [sumTo_cons_of_ne hid hk]
      exact ih hP' hput hPd

/-- No allocation is to a document that is not there. -/
theorem Applies.sumTo_of_none (h : Applies target ok delta db as ws)
    (hd : Db.document db kind id = none) (delta' : PaymentAllocation → ℤ) :
    sumTo target delta' kind id as = 0 := by
  induction h with
  | nil db => rfl
  | @cons db a as ws id' d' hid hd' hlive hok hrest ih =>
    have hk : (target, id') ≠ (kind, id) := by
      rintro ⟨⟩
      rw [hd] at hd'
      cases hd'
    rw [sumTo_cons_of_ne hid hk]
    exact ih (by rw [document_put, if_neg hk, hd])

end Applies

/-! ## Commits -/

/-- The paid amount of a document; a document that is not there has been paid nothing. -/
def Db.amountPaid (db : Db) (kind : DocumentKind) (id : Uuid) : ℤ :=
  (Db.document db kind id).elim 0 (·.amountPaid)

/-- Every document is solvent, and paid what its posted allocations sum up to. -/
structure Settled (db : Db) : Prop where
  solvent : ∀ {kind id d}, Db.document db kind id = some d → d.Solvent
  paid : ∀ kind id, Db.amountPaid db kind id = Db.paid db kind id

section Commits

variable {strict : Prop} {c : Commit}

theorem PaymentStep.allocations {p p' : Payment} (h : PaymentStep p p') :
    p'.allocations = p.allocations := by
  cases h <;> rfl

/-- The allocations of a payment that is posted count from then on. -/
theorem PostsPayment.paid (t : PostsPayment strict c) (kind : DocumentKind) (id : Uuid) :
    Db.paid c.after kind id = Db.paid c.before kind id + allocatedTo kind id t.pay.allocations := by
  have hsum := payments.sum_putAll_of_singleton (fun _ p => p.paidTo kind id) c.before
    t.writes_payments
  have hbefore : payments.get c.before t.id = some t.pay := t.current
  have hdraft : t.pay.paidTo kind id = 0 := by rw [Payment.paidTo, t.draft]; rfl
  rw [hbefore, Table.rowTerm_some, hdraft, add_zero] at hsum
  exact hsum

/-- The allocations of a payment that is voided count no more. -/
theorem VoidsPayment.paid (t : VoidsPayment strict c) (kind : DocumentKind) (id : Uuid) :
    Db.paid c.after kind id = Db.paid c.before kind id - allocatedTo kind id t.pay.allocations := by
  have hsum := payments.sum_putAll_of_singleton (fun _ p => p.paidTo kind id) c.before
    t.writes_payments
  have hbefore : payments.get c.before t.id = some t.pay := t.current
  have hposted : t.pay.paidTo kind id = allocatedTo kind id t.pay.allocations := by
    rw [Payment.paidTo, t.posted, if_pos rfl]
  have hvoid : (Payments.markVoid t.pay).paidTo kind id = 0 := rfl
  rw [hbefore, Table.rowTerm_some, hposted, hvoid, add_zero] at hsum
  exact eq_sub_of_add_eq hsum

/-- Other commits leave the sums of the posted allocations alone. -/
theorem Transacts.paid_of_not_settles (h : Transacts strict c) (hnot : ¬ Settles strict c)
    (kind : DocumentKind) (id : Uuid) : Db.paid c.after kind id = Db.paid c.before kind id := by
  have hchange := h.paymentChange
  unfold Db.paid Commit.after
  generalize hws : payments.writes c.writes = ws at hchange
  cases hchange with
  | none => exact payments.sum_putAll_of_nil _ _ hws
  | new dto user id' p fresh hrow =>
    have hsum := payments.sum_putAll_of_singleton (fun _ p => p.paidTo kind id) c.before hws
    have hnone : payments.get c.before id' = none := fresh
    have hdraft : p.paidTo kind id = 0 := by rw [hrow]; rfl
    rw [hnone, Table.rowTerm_none, hdraft, add_zero, add_zero] at hsum
    exact hsum
  | post t => exact absurd (.inl ⟨t⟩) hnot
  | void t => exact absurd (.inr ⟨t⟩) hnot
  | step id' p p' current hstep hstatus =>
    have hsum := payments.sum_putAll_of_singleton (fun _ p => p.paidTo kind id) c.before hws
    have hbefore : payments.get c.before id' = some p := current
    have hsame : p'.paidTo kind id = p.paidTo kind id := by
      rw [Payment.paidTo, Payment.paidTo, hstatus, hstep.allocations]
    rw [hbefore, Table.rowTerm_some, hsame] at hsum
    exact add_right_cancel hsum

/-- The documents after a commit that writes to them what its allocations do. -/
theorem document_after_of_writes {ws : List (Write Row)}
    (h : documents.writes c.writes = documents.writes ws) (kind : DocumentKind) (id : Uuid) :
    Db.document c.after kind id = Db.document (c.before.putAll ws) kind id := by
  rw [document_after, h]
  exact (documents.get_putAll c.before ws (kind, id)).symm

/-- What a commit does to the paid amounts when it writes what allocations do to the documents, each
of which keeps a document solvent. -/
theorem Settled.of_applies {target : DocumentKind} {ok : PaymentAllocation → Document → Prop}
    {delta : PaymentAllocation → ℤ} {as : List PaymentAllocation} {ws : List (Write Row)}
    (h : Settled c.before) (hcoh : Coherent c.before)
    (happ : Applies target ok delta c.before as ws)
    (hwrites : documents.writes c.writes = documents.writes ws)
    (hok : ∀ a ∈ as, ∀ d, ok a d → d.Solvent → Money.Storable d.total →
      (applyPaid (delta a) d).Solvent)
    (kind : DocumentKind) (id : Uuid) :
    (∀ d, Db.document c.after kind id = some d → d.Solvent) ∧
      Db.amountPaid c.after kind id =
        Db.amountPaid c.before kind id + sumTo target delta kind id as := by
  have hafter := document_after_of_writes hwrites kind id
  rw [Db.amountPaid, Db.amountPaid, hafter]
  rcases hb : Db.document c.before kind id with _ | d
  · rw [happ.document_none hb, happ.sumTo_of_none hb]
    exact ⟨fun d hd => (Option.some_ne_none d hd.symm).elim, rfl⟩
  · obtain ⟨hd', hsolvent, -⟩ := happ.document_paid
      (P := fun d => d.Solvent ∧ Money.Storable d.total)
      (fun a ha d hokd hd => ⟨hok a ha d hokd hd.1 hd.2, hd.2⟩) hb
      ⟨h.solvent hb, (hcoh.document hb).total_storable⟩
    rw [hd']
    exact ⟨fun d' heq => Option.some.inj heq ▸ hsolvent, rfl⟩

/-- A commit that settles nothing keeps what is paid of a document, and keeps it solvent. -/
theorem Document.Solvent.after {kind : DocumentKind} {id : Uuid} {d : Document}
    (h : d.Solvent) (hc : Transacts strict c) (hcoh : AccountingApi.Coherent c.before)
    (hupdates : UpdatesDraft c) (hnot : ¬ Settles strict c)
    (hd : Db.document c.before kind id = some d) :
    ∃ d', Db.document c.after kind id = some d' ∧ d'.Solvent ∧ d'.amountPaid = d.amountPaid := by
  obtain ⟨d', hd', hnext⟩ := hc.documentNext hd
  have hpos := ((hcoh.after hc).document hd').total_pos
  refine ⟨d', hd', ?_⟩
  cases hnext with
  | post t hkind hid hdt =>
    have hzero : d.amountPaid = 0 := h.unpaid (by rw [← hdt, t.draft]; decide)
    have hsame : t.doc.amountPaid = d.amountPaid := by rw [t.posted, hdt]; rfl
    have hstatus : t.doc.status = .posted := by rw [t.posted]; rfl
    exact ⟨⟨(hsame.trans hzero).ge, (hsame.trans hzero).le.trans hpos.le,
      fun hnot => absurd hstatus hnot⟩, hsame⟩
  | void t hkind hid hdt =>
    have hzero : d.amountPaid = 0 := hdt ▸ t.unpaid
    exact ⟨⟨h.nonneg, h.le_total, fun _ => hzero⟩, rfl⟩
  | step hstep hstatus halike hpaid =>
    have hsame := hpaid hnot
    refine ⟨⟨hsame ▸ h.nonneg, ?_, fun hdraft => ?_⟩, hsame⟩
    · by_cases hdraft : d.status = .draft
      · -- the total of a draft may change, but it has been paid nothing
        have hzero : d.amountPaid = 0 := h.unpaid (by rw [hdraft]; decide)
        rw [hsame, hzero]
        exact hpos.le
      · rw [hsame, halike hdraft (hupdates.notEdits hd hdraft)]
        exact h.le_total
    · rw [hsame]
      exact h.unpaid (hstatus ▸ hdraft)

/-- What a commit that settles nothing does to the paid amounts. -/
theorem Settled.of_not_settles (h : Settled c.before) (hc : Transacts strict c)
    (hcoh : Coherent c.before) (hupdates : UpdatesDraft c) (hnot : ¬ Settles strict c)
    (kind : DocumentKind) (id : Uuid) :
    (∀ d, Db.document c.after kind id = some d → d.Solvent) ∧
      Db.amountPaid c.after kind id = Db.amountPaid c.before kind id := by
  rw [Db.amountPaid, Db.amountPaid]
  rcases hb : Db.document c.before kind id with _ | d
  · rcases hd : Db.document c.after kind id with _ | d
    · exact ⟨fun d hd => (Option.some_ne_none d hd.symm).elim, rfl⟩
    · obtain ⟨input, totals, rfl, hfit⟩ := hc.document_new hb hd
      exact ⟨fun d' heq => Option.some.inj heq ▸ ⟨le_rfl, hfit.1.le, fun _ => rfl⟩, rfl⟩
  · obtain ⟨d', hd', hsolvent, hsame⟩ := (h.solvent hb).after hc hcoh hupdates hnot hb
    rw [hd']
    exact ⟨fun d₁ heq => Option.some.inj heq ▸ hsolvent, hsame⟩

/-- **A commit keeps the documents settled**, when no update finds a posted document. -/
theorem Settled.after (h : Settled c.before) (hc : Transacts strict c) (hcoh : Coherent c.before)
    (hupdates : UpdatesDraft c) : Settled c.after := by
  by_cases hsettles : Settles strict c
  · rcases hsettles with ⟨⟨t⟩⟩ | ⟨⟨t⟩⟩
    · have hpay := hcoh.payment t.current
      have hall := h.of_applies hcoh t.settled t.writes_documents fun a ha d hok hd htotal =>
        hd.settle htotal (hpay.valid.2 a (t.scan.mem_order.mp ha)) hok
      refine ⟨fun {kind id d} hd => (hall kind id).1 d hd, fun kind id => ?_⟩
      rw [(hall kind id).2, sumTo_order, sumTo_target hpay, t.paid, h.paid]
    · have hpay := hcoh.payment t.current
      have hall := h.of_applies hcoh t.unwound t.writes_documents fun a ha d hok hd htotal =>
        hd.unwind htotal (hpay.valid.2 a (t.scan.mem_order.mp ha)) hok
      refine ⟨fun {kind id d} hd => (hall kind id).1 d hd, fun kind id => ?_⟩
      rw [(hall kind id).2, sumTo_order, sumTo_neg, sumTo_target hpay, t.paid, h.paid, sub_eq_add_neg]
  · have hall := h.of_not_settles hc hcoh hupdates hsettles
    refine ⟨fun {kind id d} hd => (hall kind id).1 d hd, fun kind id => ?_⟩
    rw [(hall kind id).2, hc.paid_of_not_settles hsettles, h.paid]

end Commits

/-! ## In every reachable state -/

theorem Initial.settled {db : Db} (h : Initial db) : Settled db where
  solvent := fun hd => by rw [h.document] at hd; cases hd
  paid := by
    intro kind id
    rw [Db.amountPaid, h.document, Db.paid, payments.sum_eq_zero _ h.payment]
    rfl

/-- What holds of a server at any time: every document is paid what its posted allocations sum up to,
which is nothing when it is void and never more than its total; every payment is the sum of its
allocations; and the store is what the commits have written, of which a request that failed has none. -/
structure Settlement (db₀ : Db) (s : Server) : Prop where
  bounds : ∀ kind id d, Db.document s.db kind id = some d → 0 ≤ d.amountPaid ∧ d.amountPaid ≤ d.total
  paid : ∀ kind id d, Db.document s.db kind id = some d → d.amountPaid = Db.paid s.db kind id
  void : ∀ kind id d, Db.document s.db kind id = some d → d.status = .void → d.amountPaid = 0
  amount : ∀ id p, Db.payment s.db id = some p → p.amount = (p.allocations.map (·.amount)).sum
  written : s.db = db₀.putAll (s.history.reverse.flatMap (·.writes))
  failed : ∀ (i : ℕ) (p : Proc Row LockName Query Failure Response Request) (e : Failure),
    s.procs[i]? = some p → p.phase = .failed e → p.req.edited = none → ∀ c ∈ s.history, c.pid ≠ i

/-- **Documents are paid what their posted allocations sum up to**, in every run that updates no
document another request has posted. -/
theorem settlement_of_reachable
    {policy : Policy Row LockName Query Failure Response Request} {db₀ : Db} {s : Server}
    (h₀ : Initial db₀) (h : Reachable code policy db₀ s)
    (hupdates : ∀ c ∈ s.history, UpdatesDraft c) : Settlement db₀ s := by
  obtain ⟨hcoh, hsettled⟩ := invariant_of_reachable UpdatesDraft
    (I := fun db => Coherent db ∧ Settled db) h hupdates ⟨h₀.coherent, h₀.settled⟩
    fun c hc hcond ⟨hcoh, hsettled⟩ _ => ⟨hcoh.after hc, hsettled.after hc hcoh hcond⟩
  have hlife := lifecycles_of_reachable h₀ h
  refine ⟨fun kind id d hd => ?_, fun kind id d hd => ?_, fun kind id d hd hvoid => ?_,
    fun id p hp => ?_, hlife.written, hlife.failed⟩
  · have hsolvent := hsettled.solvent hd
    exact ⟨hsolvent.nonneg, hsolvent.le_total⟩
  · have hpaid := hsettled.paid kind id
    rwa [Db.amountPaid, hd] at hpaid
  · exact (hsettled.solvent hd).unpaid (by rw [hvoid]; decide)
  · exact (hcoh.payment hp).amount_eq_sum

/-- Two receipts for the whole invoice race: one of them is posted, and voided later. -/
theorem settlement_of_reachable_race :
    Settlement Sample.db (Sample.server (Sample.postedInvoice ++
      Sample.request 2 (.createPayment (Sample.receipt 20) 9 30) 7 ++
      Sample.request 3 (.createPayment (Sample.receipt 20) 9 31) 7 ++
      [.spawn (.postPayment 30 9 101 2 .plain .plain), .spawn (.postPayment 31 9 102 2 .plain .plain)] ++
      List.replicate 8 (.step 4) ++ List.replicate 28 (.step 5) ++
      Sample.request 6 (.voidPayment 31 9 103 3 .plain .plain) 25)) :=
  settlement_of_reachable Sample.initial (Sample.reachable (by decide +kernel)) (by decide +kernel)

end AccountingApi
