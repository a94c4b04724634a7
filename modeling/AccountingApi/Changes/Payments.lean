import AccountingApi.Changes.Entries

/-!
# What a commit changes: payments

## Main definitions

* `PaymentStep`: how one commit changes a payment
* `PaymentNext`: the same, with the transaction that does it

## Main results

* `Transacts.paymentChange`: the payments a commit writes
* `Transacts.paymentNext`, `payment_step`: what becomes of a payment
* `Transacts.payment_new`: how payments come into being
-/

namespace AccountingApi

open ReadCommitted Posting

/-! ## Steps -/

/-- How a commit changes a payment. -/
inductive PaymentStep : Payment → Payment → Prop
  | refl (p : Payment) : PaymentStep p p
  | post {p : Payment} (number : ℕ) (ref : String) (fiscalYear : ℤ) (entryId user : Uuid)
      (now : Timestamp) : p.status = .draft → p.deletedAt = none →
      PaymentStep p (Payments.finalizePosted number ref fiscalYear entryId user now p)
  | void {p : Payment} : p.status = .posted → p.deletedAt = none →
      PaymentStep p (Payments.markVoid p)
  | delete {p : Payment} (now : Timestamp) (user : Uuid) : p.status = .draft →
      p.deletedAt = none → PaymentStep p { p with deletedAt := some now, deletedBy := some user }

/-! ## Payments -/

/-- The payments a commit writes. -/
inductive PaymentChange (strict : Prop) (c : Commit) : List (Uuid × Payment) → Prop
  | none : PaymentChange strict c []
  | new (dto : CreatePaymentDto) (user id : Uuid) (p : Payment) : Db.payment c.before id = none →
      p = Payments.draftRow (dto.toInput user)
        (Money.sum ((dto.toInput user).allocations.map (·.amount))) → p.Valid →
      (∀ a ∈ p.allocations,
        p.direction.target.allocId a ≠ Option.none ∧ p.direction.target.otherId a = Option.none) →
      PaymentChange strict c [(id, p)]
  | post (t : PostsPayment strict c) : PaymentChange strict c [(t.id, t.posted)]
  | void (t : VoidsPayment strict c) :
      PaymentChange strict c [(t.id, Payments.markVoid t.pay)]
  | step (id : Uuid) (p p' : Payment) : Db.payment c.before id = some p → PaymentStep p p' →
      p'.status = p.status → PaymentChange strict c [(id, p')]

/-- **The payments a commit writes.** -/
theorem Transacts.paymentChange {strict : Prop} {c : Commit} (h : Transacts strict c) :
    PaymentChange strict c (payments.writes c.writes) := by
  cases h
  case createDocument writes =>
    rw [writes]
    exact .none
  case updateDocument writes =>
    rw [writes]
    exact .none
  case postDocument t =>
    rw [t.writes, Table.writes_append, Table.writes_append, t.ticket.payments,
      t.created.stamp.ticket.payments]
    exact .none
  case voidDocument t =>
    rw [t.writes, Table.writes_cons, t.reversed.writes_payments]
    exact .none
  case deleteDocument writes =>
    rw [writes]
    exact .none
  case createPayment row valid targets fresh writes =>
    rw [writes]
    exact .new _ _ _ _ fresh row valid targets
  case postPayment t =>
    rw [t.writes_payments]
    exact .post t
  case voidPayment t =>
    rw [t.writes_payments]
    exact .void t
  case deletePayment current draft live writes =>
    rw [writes]
    exact .step _ _ _ current (.delete _ _ draft live) rfl
  case createEntry writes =>
    rw [writes]
    exact .none
  case createAndPostEntry created writes =>
    rw [writes, Table.writes_append, created.stamp.ticket.payments]
    exact .none
  case postEntry stamp writes =>
    rw [writes, Table.writes_append, stamp.ticket.payments]
    exact .none
  case reverseEntry reversed writes =>
    rw [writes, reversed.writes_payments]
    exact .none
  case deleteEntry writes =>
    rw [writes]
    exact .none
  case postOpeningBalances created writes =>
    rw [writes, Table.writes_append, created.stamp.ticket.payments]
    exact .none
  case closeYear t =>
    rw [t.writes, Table.writes_append, t.created.stamp.ticket.payments]
    exact .none
  case closeEmptyYear writes =>
    rw [writes]
    exact .none
  case reopenYear t =>
    rw [t.writes, Table.writes_append, t.reversed.writes_payments]
    exact .none
  case reopenEmptyYear writes =>
    rw [writes]
    exact .none
  case updateTaxCode writes =>
    rw [writes]
    exact .none
  case account writes =>
    rw [writes]
    exact .none
  case updateCompany writes =>
    rw [writes]
    exact .none
  case periods change writes =>
    rw [writes, change.writes_payments]
    exact .none

section Payments

variable {strict : Prop} {c : Commit} {id : Uuid} {p p' : Payment}

/-- What becomes of a payment: it is posted or voided, or takes a step that keeps its status. -/
inductive PaymentNext (strict : Prop) (c : Commit) (id : Uuid) (p : Payment) : Payment → Prop
  | post (t : PostsPayment strict c) : t.id = id → t.pay = p → PaymentNext strict c id p t.posted
  | void (t : VoidsPayment strict c) : t.id = id → t.pay = p →
      PaymentNext strict c id p (Payments.markVoid p)
  | step {p' : Payment} : PaymentStep p p' → p'.status = p.status → PaymentNext strict c id p p'

theorem Transacts.paymentNext (h : Transacts strict c) (hp : Db.payment c.before id = some p) :
    ∃ p', Db.payment c.after id = some p' ∧ PaymentNext strict c id p p' := by
  have hsame : PaymentNext strict c id p p := .step (.refl p) rfl
  rw [payment_after, hp]
  have hchange := h.paymentChange
  generalize payments.writes c.writes = ws at hchange ⊢
  cases hchange with
  | none => exact ⟨p, rfl, hsame⟩
  | new dto user id' p' fresh =>
    have hne : id' ≠ id := by
      rintro rfl
      rw [hp] at fresh
      cases fresh
    exact ⟨p, by rw [overwrite_cons, if_neg hne, overwrite_nil], hsame⟩
  | post t =>
    by_cases hid : t.id = id
    · subst hid
      have ht : t.pay = p := Option.some.inj (t.current ▸ hp)
      exact ⟨t.posted, by rw [overwrite_cons, if_pos rfl, overwrite_nil], .post t rfl ht⟩
    · exact ⟨p, by rw [overwrite_cons, if_neg hid, overwrite_nil], hsame⟩
  | void t =>
    by_cases hid : t.id = id
    · subst hid
      have ht : t.pay = p := Option.some.inj (t.current ▸ hp)
      exact ⟨Payments.markVoid p, by rw [overwrite_cons, if_pos rfl, overwrite_nil, ht],
        .void t rfl ht⟩
    · exact ⟨p, by rw [overwrite_cons, if_neg hid, overwrite_nil], hsame⟩
  | step id' p₀ p' current hstep hstatus =>
    by_cases hid : id' = id
    · subst hid
      obtain rfl : p = p₀ := Option.some.inj (hp ▸ current)
      exact ⟨p', by rw [overwrite_cons, if_pos rfl, overwrite_nil], .step hstep hstatus⟩
    · exact ⟨p, by rw [overwrite_cons, if_neg hid, overwrite_nil], hsame⟩

theorem PaymentNext.paymentStep (h : PaymentNext strict c id p p') : PaymentStep p p' := by
  cases h with
  | post t hid hp =>
    subst hp
    exact .post _ _ _ _ _ _ t.draft t.live
  | void t hid hp => exact .void (hp ▸ t.posted) (hp ▸ t.live)
  | step hstep => exact hstep

/-- A payment of the store takes a step. -/
theorem Transacts.payment_step (h : Transacts strict c) (hp : Db.payment c.before id = some p) :
    ∃ p', Db.payment c.after id = some p' ∧ PaymentStep p p' :=
  (h.paymentNext hp).imp fun _ => And.imp_right PaymentNext.paymentStep

/-- A draft that is no draft after the commit was posted by it. -/
theorem PaymentNext.posted (h : PaymentNext strict c id p p') (hdraft : p.status = .draft)
    (hnot : p'.status ≠ .draft) : ∃ t : PostsPayment strict c, t.id = id ∧ t.posted = p' := by
  cases h with
  | post t hid => exact ⟨t, hid, rfl⟩
  | void t _ hp => cases hdraft ▸ hp ▸ t.posted
  | step _ hstatus => exact absurd (hstatus.trans hdraft) hnot

/-- A payment that was not there before the commit is a draft. -/
theorem Transacts.payment_new (h : Transacts strict c)
    (hb : Db.payment c.before id = none) (hp : Db.payment c.after id = some p) :
    ∃ (dto : CreatePaymentDto) (user : Uuid), p = Payments.draftRow (dto.toInput user)
        (Money.sum ((dto.toInput user).allocations.map (·.amount))) ∧ p.Valid ∧
      ∀ a ∈ p.allocations,
        p.direction.target.allocId a ≠ none ∧ p.direction.target.otherId a = none := by
  rw [payment_after, hb] at hp
  have hchange := h.paymentChange
  generalize payments.writes c.writes = ws at hchange hp
  cases hchange with
  | none => cases hp
  | new dto user id' p' fresh hrow hvalid htargets =>
    rw [overwrite_cons, overwrite_nil] at hp
    split at hp <;> cases hp
    exact ⟨dto, user, hrow, hvalid, htargets⟩
  | post t =>
    rw [overwrite_cons, overwrite_nil] at hp
    split at hp
    · subst_vars
      have hcurrent := t.current
      rw [hb] at hcurrent
      cases hcurrent
    · cases hp
  | void t =>
    rw [overwrite_cons, overwrite_nil] at hp
    split at hp
    · subst_vars
      have hcurrent := t.current
      rw [hb] at hcurrent
      cases hcurrent
    · cases hp
  | step id' p₀ p' current hstep =>
    rw [overwrite_cons, overwrite_nil] at hp
    split at hp
    · subst_vars
      rw [hb] at current
      cases current
    · cases hp

end Payments

end AccountingApi
