import AccountingApi.Runs

/-!
# The rows of every reachable state

What holds of one row by itself: a row of the store is a draft as long as it has no journal entry, is
live once it is posted, and carries amounts its columns hold.

## Main definitions

* `JournalEntry.Coherent`, `Document.Coherent`, `Payment.Coherent`
* `Coherent`: every row of the store is coherent

## Main results

* `coherent_of_reachable`
-/

namespace AccountingApi

open ReadCommitted Posting Relation

/-- What holds of a journal entry by itself. -/
structure JournalEntry.Coherent (e : JournalEntry) : Prop where
  live : e.status ≠ .draft → e.deletedAt = none
  posted : e.status = .draft ↔ e.postedAt = none
  reversed : e.status = .reversed ↔ e.reversedById ≠ none
  valid : e.Valid
  reversal : e.reversalOfId ≠ none → e.sourceType = .reversal

/-- What holds of an invoice or a bill by itself. -/
structure Document.Coherent (d : Document) : Prop where
  live : d.status ≠ .draft → d.deletedAt = none
  journalEntry : d.status = .draft ↔ d.journalEntryId = none
  total_pos : 0 < d.total
  total_storable : Money.Storable d.total

/-- What holds of a payment by itself. -/
structure Payment.Coherent (p : Payment) : Prop where
  live : p.status ≠ .draft → p.deletedAt = none
  journalEntry : p.status = .draft ↔ p.journalEntryId = none
  valid : p.Valid
  amount_eq : p.amount = Money.sum (p.allocations.map (·.amount))
  targets : ∀ a ∈ p.allocations,
    p.direction.target.allocId a ≠ none ∧ p.direction.target.otherId a = none

/-- Every row of the store is coherent. -/
structure Coherent (db : Db) : Prop where
  entry : ∀ {id e}, Db.entry db id = some e → e.Coherent
  document : ∀ {kind id d}, Db.document db kind id = some d → d.Coherent
  payment : ∀ {id p}, Db.payment db id = some p → p.Coherent

/-! ## Steps -/

theorem EntryStep.coherent {e e' : JournalEntry} (h : EntryStep e e') (he : e.Coherent) :
    e'.Coherent := by
  obtain ⟨hlive, hposted, hreversed, hvalid, hreversal⟩ := he
  cases h with
  | refl => exact ⟨hlive, hposted, hreversed, hvalid, hreversal⟩
  | promote number ref fiscalYear periodId user now hdraft hnot =>
    have hnone : e.reversedById = none := by
      by_contra hne
      have hrev := hreversed.mpr hne
      rw [hdraft] at hrev
      cases hrev
    exact ⟨fun _ => hnot, by simp [Posting.promote], by simp [Posting.promote, hnone], hvalid,
      hreversal⟩
  | reverse reversalId hnot hlive' =>
    exact ⟨fun _ => hlive', by simp [markReversed, ← hposted, hnot], by simp [markReversed], hvalid,
      hreversal⟩
  | delete now user hdraft =>
    exact ⟨fun hne => absurd hdraft hne, hposted, hreversed, hvalid, hreversal⟩

theorem DocumentStep.coherent {d d' : Document} (h : DocumentStep d d') (hd : d.Coherent) :
    d'.Coherent := by
  obtain ⟨hlive, hentry, hpos, hfit⟩ := hd
  cases h with
  | refl => exact ⟨hlive, hentry, hpos, hfit⟩
  | edit kind input row totals hnot htotal => exact ⟨hlive, hentry, htotal.1, htotal.2⟩
  | post number ref fiscalYear entryId user now totals hdraft hnot htotal =>
    exact ⟨fun _ => hnot, by simp [TaxedDocument.finalizePosted], htotal.1, htotal.2⟩
  | pay amountPaid hnot => exact ⟨hlive, hentry, hpos, hfit⟩
  | void hposted hnot hunpaid =>
    refine ⟨fun _ => hnot, ?_, hpos, hfit⟩
    simp [TaxedDocument.markVoid, ← hentry, hposted]
  | delete now user hdraft => exact ⟨fun hne => absurd hdraft hne, hentry, hpos, hfit⟩

theorem PaymentStep.coherent {p p' : Payment} (h : PaymentStep p p') (hp : p.Coherent) :
    p'.Coherent := by
  obtain ⟨hlive, hentry, hvalid, hamount, htargets⟩ := hp
  cases h with
  | refl => exact ⟨hlive, hentry, hvalid, hamount, htargets⟩
  | post number ref fiscalYear entryId user now hdraft hnot =>
    exact ⟨fun _ => hnot, by simp [Payments.finalizePosted], hvalid, hamount, htargets⟩
  | void hposted hnot =>
    refine ⟨fun _ => hnot, ?_, hvalid, hamount, htargets⟩
    simp [Payments.markVoid, ← hentry, hposted]
  | delete now user hdraft =>
    exact ⟨fun hne => absurd hdraft hne, hentry, hvalid, hamount, htargets⟩

/-! ## New rows -/

section New

variable {strict : Prop} {c : Commit} {id : Uuid} {e : JournalEntry}

theorem EntryNew.coherent (h : EntryNew strict c id e) : e.Coherent := by
  rcases h.isNew with hnew | ⟨t, -, rfl⟩
  · exact ⟨fun _ => hnew.live, hnew.posted, by simp [hnew.unmarked, hnew.notReversed], hnew.valid,
      fun hne => absurd hnew.reversesNothing hne⟩
  · have hvalid := t.reversed.valid
    rw [t.reversed.entry_eq] at hvalid ⊢
    exact ⟨fun _ => rfl, ⟨nofun, nofun⟩, by simp [reversalEntry], hvalid, fun _ => rfl⟩

theorem Document.Coherent.draftRow {kind : DocumentKind} {input : TaxedDocument.CreateInput}
    {totals : DocumentTotals} (h : totals.Fit) :
    (TaxedDocument.draftRow kind input totals).Coherent :=
  ⟨fun hne => absurd rfl hne, ⟨fun _ => rfl, fun _ => rfl⟩, h.1, h.2⟩

/-- **A commit keeps the rows coherent.** -/
theorem Coherent.after (h : Coherent c.before) (hc : Transacts strict c) : Coherent c.after where
  entry := by
    intro id e he
    cases hb : Db.entry c.before id with
    | none => exact (hc.entryNew hb he).coherent
    | some e₀ =>
      obtain ⟨e', he', hstep⟩ := hc.entry_step hb
      obtain rfl : e = e' := Option.some.inj (he ▸ he')
      exact hstep.coherent (h.entry hb)
  document := by
    intro kind id d hd
    cases hb : Db.document c.before kind id with
    | none =>
      obtain ⟨input, totals, rfl, hpos⟩ := hc.document_new hb hd
      exact .draftRow hpos
    | some d₀ =>
      obtain ⟨d', hd', hstep⟩ := hc.document_step hb
      obtain rfl : d = d' := Option.some.inj (hd ▸ hd')
      exact hstep.coherent (h.document hb)
  payment := by
    intro id p hp
    cases hb : Db.payment c.before id with
    | none =>
      obtain ⟨dto, user, rfl, hvalid, htargets⟩ := hc.payment_new hb hp
      exact ⟨fun hne => absurd rfl hne, ⟨fun _ => rfl, fun _ => rfl⟩, hvalid, rfl, htargets⟩
    | some p₀ =>
      obtain ⟨p', hp', hstep⟩ := hc.payment_step hb
      obtain rfl : p = p' := Option.some.inj (hp ▸ hp')
      exact hstep.coherent (h.payment hb)

end New

theorem Initial.coherent {db : Db} (h : Initial db) : Coherent db where
  entry := fun he => by rw [h.entry] at he; cases he
  document := fun hd => by rw [h.document] at hd; cases hd
  payment := fun hp => by rw [h.payment] at hp; cases hp

/-- **Every row of a reachable state is coherent.** -/
theorem coherent_of_reachable {policy : Policy Row LockName Query Failure Response Request}
    {db₀ : Db} {s : Server} (h₀ : Initial db₀) (h : Reachable code policy db₀ s) : Coherent s.db :=
  invariant_of_reachable (fun _ => True) h (fun _ _ => trivial) h₀.coherent
    fun _ hc _ hI _ => hI.after hc

end AccountingApi
