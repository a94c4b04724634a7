import AccountingApi.Changes.Entries

/-!
# What a commit changes: the year-end records

## Main definitions

* `Request.year`, `Request.closesYear`: the year a request closes or reopens
* `ClosingNext`: what a commit leaves of the record of a year

## Main results

* `Transacts.closingChange`: the records a commit writes
* `Transacts.closingNext`: what becomes of a record
-/

namespace AccountingApi

open ReadCommitted Posting

/-! ## Year-end records -/

/-- The year a request closes or reopens. -/
def Request.year : Request → Option ℤ
  | .closeYear dto _ _ _ => some dto.fiscalYear
  | .reopenYear fiscalYear _ _ _ => some fiscalYear
  | _ => none

/-- The year a request closes. -/
def Request.closesYear : Request → Option ℤ
  | .closeYear dto _ _ _ => some dto.fiscalYear
  | _ => none

/-- The year-end records a commit writes. -/
inductive ClosingChange (strict : Prop) (c : Commit) : List (ℤ × YearEndClosing) → Prop
  | none : ClosingChange strict c []
  | close (t : ClosesYear strict c) : ClosingChange strict c [(t.fiscalYear, t.closing)]
  | closeEmpty (fiscalYear : ℤ) (user : Uuid) (now : Timestamp) :
      c.req.closesYear = some fiscalYear →
      ClosingChange strict c [(fiscalYear, YearEndClose.closedRecord Option.none 0 user now)]
  | reopen (t : ReopensYear strict c) : ClosingChange strict c
      [(t.fiscalYear, YearEndClose.reopenedRecord t.user t.now t.closing)]
  | reopenEmpty (fiscalYear : ℤ) (user : Uuid) (now : Timestamp) (rec : YearEndClosing) :
      c.req.year = some fiscalYear → Db.closing c.before fiscalYear = some rec →
      ClosingChange strict c [(fiscalYear, YearEndClose.reopenedRecord user now rec)]

/-- **The year-end records a commit writes.** -/
theorem Transacts.closingChange {strict : Prop} {c : Commit} (h : Transacts strict c) :
    ClosingChange strict c (closings.writes c.writes) := by
  cases h
  case createDocument writes =>
    rw [writes]
    exact .none
  case updateDocument writes =>
    rw [writes]
    exact .none
  case postDocument t =>
    rw [t.writes, Table.writes_append, Table.writes_append, t.ticket.closings,
      t.created.stamp.ticket.closings]
    exact .none
  case voidDocument t =>
    rw [t.writes, Table.writes_cons, t.reversed.writes_closings]
    exact .none
  case deleteDocument writes =>
    rw [writes]
    exact .none
  case createPayment writes =>
    rw [writes]
    exact .none
  case postPayment t =>
    rw [t.writes, Table.writes_append, Table.writes_append, Table.writes_append, t.settled.closings,
      t.ticket.closings, t.created.stamp.ticket.closings]
    exact .none
  case voidPayment t =>
    rw [t.writes, Table.writes_append, Table.writes_cons, t.unwound.closings,
      t.reversed.writes_closings]
    exact .none
  case deletePayment writes =>
    rw [writes]
    exact .none
  case createEntry writes =>
    rw [writes]
    exact .none
  case createAndPostEntry created writes =>
    rw [writes, Table.writes_append, created.stamp.ticket.closings]
    exact .none
  case postEntry stamp writes =>
    rw [writes, Table.writes_append, stamp.ticket.closings]
    exact .none
  case reverseEntry reversed writes =>
    rw [writes, reversed.writes_closings]
    exact .none
  case deleteEntry writes =>
    rw [writes]
    exact .none
  case postOpeningBalances created writes =>
    rw [writes, Table.writes_append, created.stamp.ticket.closings]
    exact .none
  case closeYear t =>
    rw [t.writes, Table.writes_append, t.created.stamp.ticket.closings]
    exact .close t
  case closeEmptyYear req _ _ record writes =>
    rw [writes, record]
    exact .closeEmpty _ _ _ (by rw [req]; rfl)
  case reopenYear t =>
    rw [t.writes, Table.writes_append, t.reversed.writes_closings]
    exact .reopen t
  case reopenEmptyYear req _ current writes =>
    rw [writes]
    exact .reopenEmpty _ _ _ _ (by rw [req]; rfl) current
  case updateTaxCode writes =>
    rw [writes]
    exact .none
  case account writes =>
    rw [writes]
    exact .none
  case updateCompany writes =>
    rw [writes]
    exact .none
  case periods change writes =>
    rw [writes, change.writes_closings]
    exact .none

/-- What becomes of the record of a year that a commit writes. -/
inductive ClosingNext (strict : Prop) (c : Commit) (fiscalYear : ℤ) : YearEndClosing → Prop
  | close (t : ClosesYear strict c) : t.fiscalYear = fiscalYear →
      ClosingNext strict c fiscalYear t.closing
  | closeEmpty (user : Uuid) (now : Timestamp) : c.req.closesYear = some fiscalYear →
      ClosingNext strict c fiscalYear (YearEndClose.closedRecord none 0 user now)
  | reopen (t : ReopensYear strict c) : t.fiscalYear = fiscalYear →
      ClosingNext strict c fiscalYear (YearEndClose.reopenedRecord t.user t.now t.closing)
  | reopenEmpty (user : Uuid) (now : Timestamp) (rec : YearEndClosing) :
      c.req.year = some fiscalYear → Db.closing c.before fiscalYear = some rec →
      ClosingNext strict c fiscalYear (YearEndClose.reopenedRecord user now rec)

/-- The record of a year is kept or written. -/
theorem Transacts.closingNext {strict : Prop} {c : Commit} (h : Transacts strict c)
    (fiscalYear : ℤ) :
    Db.closing c.after fiscalYear = Db.closing c.before fiscalYear ∨
      ∃ rec, Db.closing c.after fiscalYear = some rec ∧ ClosingNext strict c fiscalYear rec := by
  rw [closing_after]
  have hchange := h.closingChange
  generalize closings.writes c.writes = ws at hchange ⊢
  cases hchange with
  | none => exact .inl rfl
  | close t =>
    rw [overwrite_cons, overwrite_nil]
    split
    · exact .inr ⟨_, rfl, .close t ‹_›⟩
    · exact .inl rfl
  | closeEmpty year user now hyear =>
    rw [overwrite_cons, overwrite_nil]
    split
    · subst_vars
      exact .inr ⟨_, rfl, .closeEmpty user now hyear⟩
    · exact .inl rfl
  | reopen t =>
    rw [overwrite_cons, overwrite_nil]
    split
    · exact .inr ⟨_, rfl, .reopen t ‹_›⟩
    · exact .inl rfl
  | reopenEmpty year user now rec hyear hrec =>
    rw [overwrite_cons, overwrite_nil]
    split
    · subst_vars
      exact .inr ⟨_, rfl, .reopenEmpty user now rec hyear hrec⟩
    · exact .inl rfl

end AccountingApi
