import AccountingApi.Transactions

/-!
# What the pieces of a transaction write

The transactions share a few pieces: a number drawn from a counter, the amounts of allocations, an entry
with its reversal, the periods of a year. Each writes rows of a few tables only; and a row after a commit
is what the commit has written last to its key, or what it was.

## Main results

* `Ticket.entries`, `Applies.entries`, `PeriodsWrite.writes_entries`, `Reversed.writes_entries`, and the
  same for the other tables
* `entry_after`, `document_after`, `payment_after`, `closing_after`, `sequence_after`
-/

namespace AccountingApi

open ReadCommitted Posting

/-! ## The writes of the pieces -/

section Pieces

variable {strict : Prop} {c : Commit} {s : Sequence} {n : ℕ} {ws : List (Write Row)}

theorem Ticket.entries (h : Ticket c s n ws) : entries.writes ws = [] := by
  rcases h with ⟨-, rfl⟩ | ⟨-, -, rfl⟩ <;> rfl

theorem Ticket.documents (h : Ticket c s n ws) : documents.writes ws = [] := by
  rcases h with ⟨-, rfl⟩ | ⟨-, -, rfl⟩ <;> rfl

theorem Ticket.linesOfDocuments (h : Ticket c s n ws) : linesOfDocuments.writes ws = [] := by
  rcases h with ⟨-, rfl⟩ | ⟨-, -, rfl⟩ <;> rfl

theorem Ticket.payments (h : Ticket c s n ws) : payments.writes ws = [] := by
  rcases h with ⟨-, rfl⟩ | ⟨-, -, rfl⟩ <;> rfl

theorem Ticket.closings (h : Ticket c s n ws) : closings.writes ws = [] := by
  rcases h with ⟨-, rfl⟩ | ⟨-, -, rfl⟩ <;> rfl

end Pieces

section Applies

variable {kind : DocumentKind} {ok : PaymentAllocation → Document → Prop}
  {delta : PaymentAllocation → ℤ} {db : Db} {as : List PaymentAllocation} {ws : List (Write Row)}

theorem Applies.entries (h : Applies kind ok delta db as ws) : entries.writes ws = [] := by
  induction h with
  | nil db => rfl
  | cons id d _ _ _ _ _ ih => exact ih

theorem Applies.linesOfDocuments (h : Applies kind ok delta db as ws) :
    linesOfDocuments.writes ws = [] := by
  induction h with
  | nil db => rfl
  | cons id d _ _ _ _ _ ih => exact ih

theorem Applies.payments (h : Applies kind ok delta db as ws) : payments.writes ws = [] := by
  induction h with
  | nil db => rfl
  | cons id d _ _ _ _ _ ih => exact ih

theorem Applies.closings (h : Applies kind ok delta db as ws) : closings.writes ws = [] := by
  induction h with
  | nil db => rfl
  | cons id d _ _ _ _ _ ih => exact ih

theorem Applies.sequences (h : Applies kind ok delta db as ws) : sequences.writes ws = [] := by
  induction h with
  | nil db => rfl
  | cons id d _ _ _ _ _ ih => exact ih

end Applies

section Periods

variable {c : Commit} {newId : ℕ → Uuid} {db : Db} {ps : List AccountingPeriod}
  {ws : List (Write Row)}

theorem Inserts.keys (h : Inserts c newId db ps ws) : ∀ w ∈ ws, ∃ id, w.1 = .period id := by
  induction h with
  | nil db => exact List.forall_mem_nil _
  | skip _ _ ih => exact ih
  | insert _ _ _ _ ih => exact List.forall_mem_cons.mpr ⟨⟨_, rfl⟩, ih⟩

theorem PeriodsWrite.keys (h : PeriodsWrite c ws) : ∀ w ∈ ws, ∃ id, w.1 = .period id := by
  cases h with
  | generate _ _ _ _ _ _ _ inserts => exact inserts.keys
  | close id => exact List.forall_mem_singleton.mpr ⟨id, rfl⟩
  | reopen id => exact List.forall_mem_singleton.mpr ⟨id, rfl⟩

/-- A table without periods is not written. -/
theorem PeriodsWrite.writes_eq_nil {ι R : Type} (t : Table Row ι R)
    (ht : ∀ id v, t.pick (.period id) v = none) (h : PeriodsWrite c ws) : t.writes ws = [] := by
  refine List.filterMap_eq_nil_iff.mpr fun ⟨k, v⟩ hw => ?_
  obtain ⟨id, rfl⟩ : ∃ id, k = .period id := h.keys _ hw
  exact ht id v

theorem PeriodsWrite.writes_entries (h : PeriodsWrite c ws) : entries.writes ws = [] :=
  h.writes_eq_nil entries fun _ _ => rfl

theorem PeriodsWrite.writes_documents (h : PeriodsWrite c ws) : documents.writes ws = [] :=
  h.writes_eq_nil documents fun _ _ => rfl

theorem PeriodsWrite.writes_linesOfDocuments (h : PeriodsWrite c ws) :
    linesOfDocuments.writes ws = [] :=
  h.writes_eq_nil linesOfDocuments fun _ _ => rfl

theorem PeriodsWrite.writes_payments (h : PeriodsWrite c ws) : payments.writes ws = [] :=
  h.writes_eq_nil payments fun _ _ => rfl

theorem PeriodsWrite.writes_closings (h : PeriodsWrite c ws) : closings.writes ws = [] :=
  h.writes_eq_nil closings fun _ _ => rfl

theorem PeriodsWrite.writes_sequences (h : PeriodsWrite c ws) : sequences.writes ws = [] :=
  h.writes_eq_nil sequences fun _ _ => rfl

end Periods

section ReversalWrites

variable {strict : Prop} {c : Commit} {p : PreparedReversal} {id : Uuid} {now : Timestamp} {n : ℕ}
  {wn : List (Write Row)} {o rev : JournalEntry}

theorem Reversed.writes_entries (h : Reversed strict c p id now n wn o rev) :
    entries.writes (reversalWrites p id wn o rev) =
      [(id, rev), (p.originalId, markReversed id o)] := by
  rw [reversalWrites, Table.writes_append, h.stamp.ticket.entries]
  rfl

theorem Reversed.writes_documents (h : Reversed strict c p id now n wn o rev) :
    documents.writes (reversalWrites p id wn o rev) = [] := by
  rw [reversalWrites, Table.writes_append, h.stamp.ticket.documents]
  rfl

theorem Reversed.writes_linesOfDocuments (h : Reversed strict c p id now n wn o rev) :
    linesOfDocuments.writes (reversalWrites p id wn o rev) = [] := by
  rw [reversalWrites, Table.writes_append, h.stamp.ticket.linesOfDocuments]
  rfl

theorem Reversed.writes_payments (h : Reversed strict c p id now n wn o rev) :
    payments.writes (reversalWrites p id wn o rev) = [] := by
  rw [reversalWrites, Table.writes_append, h.stamp.ticket.payments]
  rfl

theorem Reversed.writes_closings (h : Reversed strict c p id now n wn o rev) :
    closings.writes (reversalWrites p id wn o rev) = [] := by
  rw [reversalWrites, Table.writes_append, h.stamp.ticket.closings]
  rfl

end ReversalWrites

/-! ## The rows after a commit -/

section After

variable (c : Commit)

theorem entry_after (id : Uuid) :
    Db.entry c.after id = overwrite id (Db.entry c.before id) (entries.writes c.writes) :=
  entries.get_putAll c.before c.writes id

theorem document_after (kind : DocumentKind) (id : Uuid) :
    Db.document c.after kind id =
      overwrite (kind, id) (Db.document c.before kind id) (documents.writes c.writes) :=
  documents.get_putAll c.before c.writes (kind, id)

theorem payment_after (id : Uuid) :
    Db.payment c.after id = overwrite id (Db.payment c.before id) (payments.writes c.writes) :=
  payments.get_putAll c.before c.writes id

theorem closing_after (fiscalYear : ℤ) :
    Db.closing c.after fiscalYear =
      overwrite fiscalYear (Db.closing c.before fiscalYear) (closings.writes c.writes) :=
  closings.get_putAll c.before c.writes fiscalYear

theorem sequence_after (s : Sequence) :
    Db.sequence c.after s = overwrite s (Db.sequence c.before s) (sequences.writes c.writes) :=
  sequences.get_putAll c.before c.writes s

end After

end AccountingApi
