import AccountingApi.Numbering.Register
import AccountingApi.Runs

/-!
# The numbers of posted rows

The journal entries, documents and payments that were posted carry a number from the counter of their
kind and fiscal year. The rows and the counters together are a register of numbers, and every commit
is a series of draws from it: the two never get out of step, whatever aborts.

## Main definitions

* `Numbered`: the rows that may carry a number
* `Db.register`: the numbers and the counters of a store

## Main results

* `Transacts.draws`: a commit draws numbers, and changes none
* `numbering_gapless`: in every reachable state the numbers of each counter are gapless
* `numbers_in_order`: a number is kept, and one that is given later is greater
-/

namespace AccountingApi

open ReadCommitted Posting Numbering Function

/-! ## The register of a store -/

/-- The rows that may carry a number. -/
inductive Numbered where
  | entry (id : Uuid)
  | document (kind : DocumentKind) (id : Uuid)
  | payment (id : Uuid)
deriving DecidableEq

/-- The counter and the number of a posted entry. -/
def JournalEntry.number (e : JournalEntry) : Option (Sequence × ℕ) :=
  if e.status = .draft then none
  else e.fiscalYear.bind fun y => e.entryNumber.map fun n => (.journal y, n)

/-- The counter and the number of a posted or voided document. -/
def Document.numberOf (kind : DocumentKind) (d : Document) : Option (Sequence × ℕ) :=
  if d.status = .draft then none
  else d.fiscalYear.bind fun y => d.number.map fun n => (.document kind.descriptor.documentType y, n)

/-- The counter and the number of a posted or voided payment. -/
def Payment.numberOf (p : Payment) : Option (Sequence × ℕ) :=
  if p.status = .draft then none
  else p.fiscalYear.bind fun y => p.number.map fun n => (.document p.direction.target.documentType y, n)

/-- The rows that may carry a number, as one table. -/
def numbered : Table Row Numbered (Option (Sequence × ℕ)) where
  key
    | .entry id => .entry id
    | .document kind id => .document kind id
    | .payment id => .payment id
  key_injective := by
    rintro (_ | _ | _) (_ | _ | _) h <;> cases h <;> rfl
  read
    | .entry _, e => e.number
    | .document kind _, d => d.numberOf kind
    | .payment _, p => p.numberOf
  pick
    | .entry id, e => some (.entry id, e.number)
    | .document kind id, d => some (.document kind id, d.numberOf kind)
    | .payment id, p => some (.payment id, p.numberOf)
    | _, _ => none
  pick_key := by
    rintro (_ | _ | _) v <;> rfl
  key_of_pick := fun k _ _ h => by cases k <;> cases h <;> rfl

/-- The numbers and the counters of a store. -/
def Db.register (db : Db) : Register Numbered Sequence where
  number x := (numbered.get db x).join
  next := Db.sequence db

section Register

variable (db : Db)

theorem number_entry (id : Uuid) :
    (Db.register db).number (.entry id) = (Db.entry db id).bind JournalEntry.number := by
  rw [Db.entry_eq_row]
  change ((db.row (.entry id)).map _).join = _
  cases db.row (.entry id) <;> rfl

theorem number_document (kind : DocumentKind) (id : Uuid) :
    (Db.register db).number (.document kind id) =
      (Db.document db kind id).bind (Document.numberOf kind) := by
  rw [Db.document_eq_row]
  change ((db.row (.document kind id)).map _).join = _
  cases db.row (.document kind id) <;> rfl

theorem number_payment (id : Uuid) :
    (Db.register db).number (.payment id) = (Db.payment db id).bind Payment.numberOf := by
  rw [Db.payment_eq_row]
  change ((db.row (.payment id)).map _).join = _
  cases db.row (.payment id) <;> rfl

end Register

/-! ## The numbers of changed rows -/

theorem number_markReversed {e : JournalEntry} (h : e.status ≠ .draft) (id : Uuid) :
    (markReversed id e).number = e.number := by
  simp [JournalEntry.number, markReversed, h]

theorem numberOf_markVoid {d : Document} (h : d.status = .posted) (kind : DocumentKind) :
    (TaxedDocument.markVoid d).numberOf kind = d.numberOf kind := by
  simp [Document.numberOf, TaxedDocument.markVoid, h]

theorem numberOf_markVoid_payment {p : Payment} (h : p.status = .posted) :
    (Payments.markVoid p).numberOf = p.numberOf := by
  simp [Payment.numberOf, Payments.markVoid, h]

theorem number_of_draft {e : JournalEntry} (h : e.status = .draft) : e.number = none := if_pos h

theorem numberOf_of_draft {d : Document} (h : d.status = .draft) (kind : DocumentKind) :
    d.numberOf kind = none := if_pos h

theorem numberOf_of_draft_payment {p : Payment} (h : p.status = .draft) : p.numberOf = none :=
  if_pos h

/-! ## What a commit does to the register -/

section Pieces

variable {c : Commit} {s : Sequence} {n : ℕ} {ws : List (Write Row)}

theorem Ticket.numbers (h : Ticket c s n ws) : numbered.writes ws = [] := by
  rcases h with ⟨-, rfl⟩ | ⟨-, -, rfl⟩ <;> rfl

/-- The number drawn is the next one. -/
theorem Ticket.upcoming (h : Ticket c s n ws) : (Db.register c.before).upcoming s = n := by
  rcases h with ⟨hs, -⟩ | ⟨hs, rfl, -⟩ <;> simp [Register.upcoming, Db.register, hs]

/-- The counter moves on. -/
theorem Ticket.next (h : Ticket c s n ws) (t : Sequence) (r : Option ℕ) :
    overwrite t r (sequences.writes ws) = if s = t then some (n + 1) else r := by
  have hpick : ∀ k, sequences.pick (.sequence s) k = some (s, k) := fun _ => rfl
  rcases h with ⟨-, rfl⟩ | ⟨-, rfl, rfl⟩
  · rw [Table.writes, List.filterMap_cons, hpick, List.filterMap_nil]
    rfl
  · rw [Table.writes, List.filterMap_cons, hpick, List.filterMap_cons, hpick, List.filterMap_nil]
    simp only [overwrite_cons, overwrite_nil]
    split <;> rfl

end Pieces

/-- The register after a commit, from what the commit writes. -/
theorem register_after {c : Commit} {r : Register Numbered Sequence}
    (hnumber : ∀ w ∈ numbered.writes c.writes, w.2 = r.number w.1)
    (hother : ∀ x, (∀ w ∈ numbered.writes c.writes, w.1 ≠ x) →
      r.number x = (Db.register c.before).number x)
    (hnext : ∀ t, overwrite t (Db.sequence c.before t) (sequences.writes c.writes) = r.next t) :
    Db.register c.after = r := by
  obtain ⟨number, next⟩ := r
  simp only [Db.register, Register.mk.injEq]
  refine ⟨funext fun x => ?_, funext fun t => (sequence_after c t).trans (hnext t)⟩
  have hget := numbered.get_putAll c.before c.writes x
  change numbered.get c.after x = _ at hget
  rw [hget]
  by_cases hmem : ∃ w ∈ numbered.writes c.writes, w.1 = x
  · rw [overwrite_of_forall (fun w hw hx => hx ▸ hnumber w hw) hmem]
    rfl
  · have hnot : ∀ w ∈ numbered.writes c.writes, w.1 ≠ x := fun w hw hx => hmem ⟨w, hw, hx⟩
    rw [overwrite_of_notMem hnot]
    exact (hother x hnot).symm

/-- The allocations change no number. -/
theorem Applies.numbers {kind : DocumentKind} {ok : PaymentAllocation → Document → Prop}
    {delta : PaymentAllocation → ℤ} {db : Db} {as : List PaymentAllocation} {ws : List (Write Row)}
    (h : Applies kind ok delta db as ws) :
    ∀ w ∈ numbered.writes ws, w.2 = (Db.register db).number w.1 ∧ ∃ id, w.1 = .document kind id := by
  induction h with
  | nil db => exact fun _ hw => absurd hw List.not_mem_nil
  | @cons db a as ws id d hid hd hlive hok hrest ih =>
    have hsame : ∀ x, (Db.register (db.put (.document kind id) (applyPaid (delta a) d))).number x =
        (Db.register db).number x := by
      intro x
      by_cases hx : .document kind id = x
      · subst hx
        rw [number_document, number_document, document_put, if_pos rfl, hd]
        rfl
      · have hget := numbered.get_put db (.document kind id) (applyPaid (delta a) d) x
        have hpick : numbered.pick (.document kind id) (applyPaid (delta a) d) =
          some (.document kind id, d.numberOf kind) := rfl
        rw [hpick, Option.toList_some, overwrite_cons, if_neg hx, overwrite_nil] at hget
        exact congrArg Option.join hget
    rw [Table.writes_cons]
    refine List.forall_mem_cons.mpr ⟨⟨?_, id, rfl⟩, fun w hw => ?_⟩
    · rw [number_document, hd]
      rfl
    · exact ⟨(ih w hw).1.trans (hsame w.1), (ih w hw).2⟩

section Draws

variable {c : Commit}

/-- A commit that changes no number and no counter. -/
theorem draws_none (hnumber : ∀ w ∈ numbered.writes c.writes, w.2 = (Db.register c.before).number w.1)
    (hnext : sequences.writes c.writes = []) :
    Draws (Db.register c.before) (Db.register c.after) := by
  rw [register_after hnumber (fun _ _ => rfl) fun t => by rw [hnext]; rfl]

/-- A commit that draws one number. -/
theorem draws_one {x : Numbered} {s : Sequence} {n : ℕ} {wn : List (Write Row)}
    (hticket : Ticket c s n wn) (hx : (Db.register c.before).number x = none)
    (hmem : (x, some (s, n)) ∈ numbered.writes c.writes)
    (hnumber : ∀ w ∈ numbered.writes c.writes, w = (x, some (s, n)) ∨
      w.1 ≠ x ∧ w.2 = (Db.register c.before).number w.1)
    (hnext : sequences.writes c.writes = sequences.writes wn) :
    Draws (Db.register c.before) (Db.register c.after) := by
  refine .single ⟨x, s, hx, ?_⟩
  rw [Register.draw_eq hticket.upcoming]
  refine register_after ?_ ?_ ?_
  · intro w hw
    rcases hnumber w hw with rfl | ⟨hne, hw⟩
    · simp only [update_self]
    · simp only [update_of_ne hne, hw]
  · intro y hy
    have hyx : y ≠ x := fun he => hy _ hmem he.symm
    simp only [update_of_ne hyx]
  · intro t
    rw [hnext, hticket.next]
    by_cases hst : s = t
    · subst hst
      simp only [if_pos, update_self]
    · simp only [if_neg hst, update_of_ne (Ne.symm hst), Db.register]

/-- A commit that draws two numbers, from two counters. -/
theorem draws_two {x y : Numbered} {s t : Sequence} {n m : ℕ} {wn wm : List (Write Row)}
    (hxy : x ≠ y) (hst : s ≠ t) (hn : Ticket c s n wn) (hm : Ticket c t m wm)
    (hx : (Db.register c.before).number x = none) (hy : (Db.register c.before).number y = none)
    (hxmem : (x, some (s, n)) ∈ numbered.writes c.writes)
    (hymem : (y, some (t, m)) ∈ numbered.writes c.writes)
    (hnumber : ∀ w ∈ numbered.writes c.writes, w = (x, some (s, n)) ∨ w = (y, some (t, m)) ∨
      w.1 ≠ x ∧ w.1 ≠ y ∧ w.2 = (Db.register c.before).number w.1)
    (hnext : sequences.writes c.writes = sequences.writes wn ++ sequences.writes wm) :
    Draws (Db.register c.before) (Db.register c.after) := by
  refine (Relation.ReflTransGen.single ⟨x, s, hx, rfl⟩).tail
    ⟨y, t, (Register.number_draw_of_ne _ _ hxy.symm).trans hy, ?_⟩
  have ht : ((Db.register c.before).draw x s).upcoming t = m :=
    (Register.upcoming_draw_of_ne _ _ hst.symm).trans hm.upcoming
  rw [Register.draw_eq ht, Register.draw_eq hn.upcoming]
  refine register_after ?_ ?_ ?_
  · intro w hw
    rcases hnumber w hw with rfl | rfl | ⟨hwx, hwy, hw⟩
    · simp only [update_of_ne hxy, update_self]
    · simp only [update_self]
    · simp only [update_of_ne hwx, update_of_ne hwy, hw]
  · intro z hz
    have hzx : z ≠ x := fun he => hz _ hxmem he.symm
    have hzy : z ≠ y := fun he => hz _ hymem he.symm
    simp only [update_of_ne hzx, update_of_ne hzy]
  · intro u
    rw [hnext, overwrite_append, hm.next, hn.next]
    by_cases hu : t = u
    · subst hu
      simp only [if_pos, update_self]
    · simp only [if_neg hu, update_of_ne (Ne.symm hu)]
      by_cases hs : s = u
      · subst hs
        simp only [if_pos, update_self]
      · simp only [if_neg hs, update_of_ne (Ne.symm hs), Db.register]

end Draws

section Transacts

variable {strict : Prop} {c : Commit}

/-- The key of a fresh entry has no number. -/
theorem Created.unnumbered {p : PreparedPosting} {id : Uuid} {now : Timestamp} {n : ℕ}
    {wn : List (Write Row)} {entry : JournalEntry} (h : Created strict c p id now n wn entry) :
    (Db.register c.before).number (.entry id) = none := by
  rw [number_entry, h.fresh]
  rfl

theorem Created.draws {p : PreparedPosting} {id : Uuid} {now : Timestamp} {n : ℕ}
    {wn : List (Write Row)} {entry : JournalEntry} (h : Created strict c p id now n wn entry)
    (hnumbers : numbered.writes c.writes = [(.entry id, entry.number)])
    (hnext : sequences.writes c.writes = sequences.writes wn) :
    Draws (Db.register c.before) (Db.register c.after) := by
  have hentry : entry.number = some (.journal p.fiscalYear, n) := by rw [h.entry_eq]; rfl
  rw [hentry] at hnumbers
  refine draws_one h.stamp.ticket h.unnumbered ?_ ?_ hnext <;> rw [hnumbers]
  · exact List.mem_singleton_self _
  · exact fun w hw => .inl (List.mem_singleton.mp hw)

/-- A reversal draws a number; what it writes besides changes none. -/
theorem Reversed.draws {p : PreparedReversal} {id : Uuid} {now : Timestamp} {n : ℕ}
    {wn : List (Write Row)} {o rev : JournalEntry} (h : Reversed strict c p id now n wn o rev)
    (ws : List (Numbered × Option (Sequence × ℕ)))
    (hws : ∀ w ∈ ws, (∀ x, w.1 ≠ .entry x) ∧ w.2 = (Db.register c.before).number w.1)
    (hnumbers : numbered.writes c.writes = ws ++ numbered.writes (reversalWrites p id wn o rev))
    (hnext : sequences.writes c.writes = sequences.writes wn) :
    Draws (Db.register c.before) (Db.register c.after) := by
  have hrev : rev.number = some (.journal p.fiscalYear, n) := by rw [h.entry_eq]; rfl
  have hnone : (Db.register c.before).number (.entry id) = none := by
    rw [number_entry, h.fresh]
    rfl
  have hwrites : numbered.writes (reversalWrites p id wn o rev) =
      [(.entry id, some (.journal p.fiscalYear, n)), (.entry p.originalId, o.number)] := by
    rw [reversalWrites, Table.writes_append, h.stamp.ticket.numbers, ← hrev,
      ← number_markReversed h.notDraft id]
    rfl
  have hne : Numbered.entry p.originalId ≠ .entry id := by
    rintro ⟨⟩
    have horig := h.original
    rw [h.fresh] at horig
    cases horig
  refine draws_one h.stamp.ticket hnone ?_ ?_ hnext <;> rw [hnumbers, hwrites]
  · exact List.mem_append_right _ List.mem_cons_self
  · intro w hw
    simp only [List.mem_append, List.mem_cons, List.not_mem_nil, or_false] at hw
    rcases hw with hw | rfl | rfl
    · exact .inr ⟨(hws w hw).1 id, (hws w hw).2⟩
    · exact .inl rfl
    · refine .inr ⟨hne, ?_⟩
      rw [number_entry, h.original]
      rfl

theorem sequences_reversalWrites (p : PreparedReversal) (id : Uuid) (wn : List (Write Row))
    (o rev : JournalEntry) :
    sequences.writes (reversalWrites p id wn o rev) = sequences.writes wn := by
  rw [reversalWrites, Table.writes_append]
  exact List.append_nil _

/-- **A commit draws numbers, and changes none.** -/
theorem Transacts.draws (h : Transacts strict c) :
    Draws (Db.register c.before) (Db.register c.after) := by
  cases h
  case createDocument kind _ _ id _ _ _ _ row _ _ _ fresh _ writes =>
    refine draws_none ?_ (by rw [writes]; rfl)
    rw [writes]
    refine List.forall_mem_singleton.mpr ?_
    rw [number_document, fresh, row]
    rfl
  case updateDocument current _ _ writes =>
    refine draws_none ?_ (by rw [writes]; rfl)
    rw [writes]
    refine List.forall_mem_singleton.mpr ?_
    rw [number_document, current]
    rfl
  case postDocument t =>
    have hnumbers : numbered.writes c.writes =
        [(.entry t.entryId, some (.journal t.p.fiscalYear, t.m)), (.document t.kind t.id,
          some (.document t.kind.descriptor.documentType t.p.fiscalYear, t.n))] := by
      rw [t.writes, Table.writes_append, Table.writes_append, t.ticket.numbers,
        t.created.stamp.ticket.numbers, t.created.entry_eq, t.posted]
      rfl
    refine draws_two (by simp) (by simp) t.ticket t.created.stamp.ticket ?_ t.created.unnumbered
      (x := .document t.kind t.id) (y := .entry t.entryId) ?_ ?_ ?_ ?_
    · rw [number_document, t.current]
      exact numberOf_of_draft t.draft t.kind
    · simp [hnumbers]
    · simp [hnumbers]
    · intro w hw
      rw [hnumbers] at hw
      simp only [List.mem_cons, List.not_mem_nil, or_false] at hw
      exact hw.symm.imp_right .inl
    · rw [t.writes, Table.writes_append, Table.writes_append]
      exact List.append_nil _
  case voidDocument t =>
    refine t.reversed.draws [(.document _ _, _)] ?_ (by rw [t.writes]; rfl)
      (by rw [t.writes, Table.writes_cons, sequences_reversalWrites]; rfl)
    refine List.forall_mem_singleton.mpr ⟨nofun, ?_⟩
    rw [number_document, t.current]
    exact numberOf_markVoid t.posted _
  case deleteDocument current _ _ writes =>
    refine draws_none ?_ (by rw [writes]; rfl)
    rw [writes]
    refine List.forall_mem_singleton.mpr ?_
    rw [number_document, current]
    rfl
  case createPayment row _ _ fresh writes =>
    refine draws_none ?_ (by rw [writes]; rfl)
    rw [writes]
    refine List.forall_mem_singleton.mpr ?_
    rw [number_payment, fresh, row]
    rfl
  case postPayment t =>
    have hnumbers : numbered.writes c.writes = numbered.writes t.wd ++
        [(.entry t.entryId, some (.journal t.p.fiscalYear, t.m)), (.payment t.id,
          some (.document t.pay.direction.target.documentType t.p.fiscalYear, t.n))] := by
      rw [t.writes, Table.writes_append, Table.writes_append, Table.writes_append, t.ticket.numbers,
        t.created.stamp.ticket.numbers, t.created.entry_eq, List.append_nil, List.append_nil]
      rfl
    refine draws_two (by simp) (by simp) t.ticket t.created.stamp.ticket ?_ t.created.unnumbered
      (x := .payment t.id) (y := .entry t.entryId) ?_ ?_ ?_ ?_
    · rw [number_payment, t.current]
      exact numberOf_of_draft_payment t.draft
    · simp [hnumbers]
    · simp [hnumbers]
    · intro w hw
      rw [hnumbers] at hw
      simp only [List.mem_append, List.mem_cons, List.not_mem_nil, or_false] at hw
      rcases hw with hw | rfl | rfl
      · obtain ⟨heq, x, hx⟩ := t.settled.numbers w hw
        exact .inr (.inr ⟨by simp [hx], by simp [hx], heq⟩)
      · exact .inr (.inl rfl)
      · exact .inl rfl
    · rw [t.writes, Table.writes_append, Table.writes_append, Table.writes_append,
        t.settled.sequences]
      exact List.append_nil _
  case voidPayment t =>
    refine t.reversed.draws
      (numbered.writes t.wd ++ [(.payment t.id, (Payments.markVoid t.pay).numberOf)]) ?_ ?_ ?_
    · intro w hw
      rcases List.mem_append.mp hw with hw | hw
      · obtain ⟨heq, x, hx⟩ := t.unwound.numbers w hw
        exact ⟨fun _ => by simp [hx], heq⟩
      · rw [List.mem_singleton.mp hw, number_payment, t.current]
        exact ⟨nofun, numberOf_markVoid_payment t.posted⟩
    · rw [t.writes, Table.writes_append, List.append_assoc]
      rfl
    · rw [t.writes, Table.writes_append, t.unwound.sequences, Table.writes_cons,
        sequences_reversalWrites]
      rfl
  case deletePayment current _ _ writes =>
    refine draws_none ?_ (by rw [writes]; rfl)
    rw [writes]
    refine List.forall_mem_singleton.mpr ?_
    rw [number_payment, current]
    rfl
  case createEntry row _ fresh writes =>
    refine draws_none ?_ (by rw [writes]; rfl)
    rw [writes]
    refine List.forall_mem_singleton.mpr ?_
    rw [number_entry, fresh, row]
    rfl
  case createAndPostEntry created writes =>
    refine created.draws ?_ ?_ <;> rw [writes, Table.writes_append]
    · rw [created.stamp.ticket.numbers]
      rfl
    · exact List.append_nil _
  case postEntry id _ _ fiscalYear _ _ m wm _ current _ draft _ _ _ _ stamp writes =>
    have hnumbers : numbered.writes c.writes = [(.entry id, some (.journal fiscalYear, m))] := by
      rw [writes, Table.writes_append, stamp.ticket.numbers]
      rfl
    refine draws_one stamp.ticket (x := .entry id) ?_ ?_ ?_ ?_
    · rw [number_entry, current]
      exact number_of_draft draft
    · simp [hnumbers]
    · exact fun w hw => .inl (List.mem_singleton.mp (hnumbers ▸ hw))
    · rw [writes, Table.writes_append]
      exact List.append_nil _
  case reverseEntry reversed writes =>
    exact reversed.draws [] nofun (by rw [writes]; rfl)
      (by rw [writes, sequences_reversalWrites])
  case deleteEntry current _ _ writes =>
    refine draws_none ?_ (by rw [writes]; rfl)
    rw [writes]
    refine List.forall_mem_singleton.mpr ?_
    rw [number_entry, current]
    rfl
  case postOpeningBalances created writes =>
    refine created.draws ?_ ?_ <;> rw [writes, Table.writes_append]
    · rw [created.stamp.ticket.numbers]
      rfl
    · exact List.append_nil _
  case closeYear t =>
    refine t.created.draws ?_ ?_ <;> rw [t.writes, Table.writes_append]
    · rw [t.created.stamp.ticket.numbers]
      rfl
    · exact List.append_nil _
  case closeEmptyYear writes =>
    refine draws_none ?_ (by rw [writes]; rfl)
    rw [writes]
    exact nofun
  case reopenYear t =>
    refine t.reversed.draws [] nofun ?_ ?_ <;> rw [t.writes, Table.writes_append]
    · exact List.append_nil _
    · rw [sequences_reversalWrites]
      exact List.append_nil _
  case reopenEmptyYear writes =>
    refine draws_none ?_ (by rw [writes]; rfl)
    rw [writes]
    exact nofun
  case updateTaxCode writes =>
    refine draws_none ?_ (by rw [writes]; rfl)
    rw [writes]
    exact nofun
  case account writes =>
    refine draws_none ?_ (by rw [writes]; rfl)
    rw [writes]
    exact nofun
  case updateCompany writes =>
    refine draws_none ?_ (by rw [writes]; rfl)
    rw [writes]
    exact nofun
  case periods change writes =>
    have hnumbers := change.writes_eq_nil numbered fun _ _ => rfl
    refine draws_none ?_ (by rw [writes, change.writes_sequences])
    rw [writes, hnumbers]
    exact nofun

end Transacts

/-! ## In every reachable state -/

/-- The row carries the number of the counter: the posted entries of a fiscal year, and the posted or
voided documents of a type and fiscal year. -/
def Db.carries (db : Db) : Sequence → Uuid → ℕ → Prop
  | .journal y, id, k => ∃ e, Db.entry db id = some e ∧ e.status ≠ .draft ∧
      e.fiscalYear = some y ∧ e.entryNumber = some k
  | .document .inv y, id, k => ∃ d, Db.document db .salesInvoice id = some d ∧ d.status ≠ .draft ∧
      d.fiscalYear = some y ∧ d.number = some k
  | .document .bill y, id, k => ∃ d, Db.document db .purchaseBill id = some d ∧ d.status ≠ .draft ∧
      d.fiscalYear = some y ∧ d.number = some k
  | .document .payRcv y, id, k => ∃ p, Db.payment db id = some p ∧ p.direction = .receipt ∧
      p.status ≠ .draft ∧ p.fiscalYear = some y ∧ p.number = some k
  | .document .payDsb y, id, k => ∃ p, Db.payment db id = some p ∧ p.direction = .disbursement ∧
      p.status ≠ .draft ∧ p.fiscalYear = some y ∧ p.number = some k

/-- The row that carries a number of the counter. -/
def Sequence.carrier : Sequence → Uuid → Numbered
  | .journal _ => .entry
  | .document .inv _ => .document .salesInvoice
  | .document .bill _ => .document .purchaseBill
  | .document .payRcv _ => .payment
  | .document .payDsb _ => .payment

/-- The numbers are `1, …, n`, each carried once, and `n + 1` is the next one; a counter without
numbers does not exist. -/
def OneTo (carries : Uuid → ℕ → Prop) (next : Option ℕ) : Prop :=
  ∃ n, next = (if n = 0 then none else some (n + 1)) ∧
    (∀ k, (∃ id, carries id k) ↔ 1 ≤ k ∧ k ≤ n) ∧
    ∀ id id' k, carries id k → carries id' k → id = id'

/-- The register knows who carries what. -/
theorem number_iff {db : Db} {x : Numbered} {s : Sequence} {k : ℕ} :
    (Db.register db).number x = some (s, k) ↔ ∃ id, x = s.carrier id ∧ Db.carries db s id k := by
  cases x with
  | entry id =>
    rw [number_entry]
    rcases s with y | ⟨⟨⟩, y⟩ <;>
      simp [Sequence.carrier, Db.carries, JournalEntry.number, Option.bind_eq_some_iff]
  | document kind id =>
    rw [number_document]
    cases kind <;> rcases s with y | ⟨⟨⟩, y⟩ <;>
      simp [Sequence.carrier, Db.carries, Document.numberOf, DocumentKind.descriptor,
        Option.bind_eq_some_iff]
  | payment id =>
    rw [number_payment]
    rcases s with y | ⟨⟨⟩, y⟩ <;>
      simp [Sequence.carrier, Db.carries, Payment.numberOf, PaymentDirection.target,
        Option.bind_eq_some_iff]
    all_goals grind

theorem Sequence.carrier_injective (s : Sequence) : Injective s.carrier := by
  intro id id' h
  rcases s with y | ⟨⟨⟩, y⟩ <;> cases h <;> rfl

/-- A gapless counter, as a statement about the rows. -/
theorem oneTo_of_gapless {db : Db} {s : Sequence} {n : ℕ} (h : (Db.register db).Gapless s n) :
    OneTo (Db.carries db s) (Db.sequence db s) := by
  refine ⟨n, h.next, fun k => ?_, fun id id' k hid hid' => s.carrier_injective ?_⟩
  · rw [← h.drawn k]
    refine ⟨fun ⟨id, hid⟩ => ⟨s.carrier id, number_iff.mpr ⟨id, rfl, hid⟩⟩, fun ⟨x, hx⟩ => ?_⟩
    obtain ⟨id, -, hid⟩ := number_iff.mp hx
    exact ⟨id, hid⟩
  · exact h.unique _ _ k (number_iff.mpr ⟨id, rfl, hid⟩) (number_iff.mpr ⟨id', rfl, hid'⟩)

/-- Before any request no number is drawn. -/
theorem Initial.gapless {db : Db} (h : Initial db) (s : Sequence) : (Db.register db).Gapless s 0 where
  next := h.sequence s
  drawn := fun k => by
    have hnone : ∀ x, (Db.register db).number x = none := fun x => by
      cases x with
      | entry id => rw [number_entry, h.entry, Option.bind_none]
      | document kind id => rw [number_document, h.document, Option.bind_none]
      | payment id => rw [number_payment, h.payment, Option.bind_none]
    simp only [hnone, reduceCtorEq, exists_false, false_iff]
    omega
  unique := fun x _ k hx => by
    obtain ⟨id, -, hid⟩ := number_iff.mp hx
    rcases s with y | ⟨⟨⟩, y⟩ <;> obtain ⟨_, hrow, -⟩ := hid <;>
      simp [h.entry, h.document, h.payment] at hrow

/-- What every posted row has: a fiscal year and a number. -/
structure PostedAreNumbered (db : Db) : Prop where
  entry : ∀ id e, Db.entry db id = some e → e.status ≠ .draft →
    e.fiscalYear ≠ none ∧ e.entryNumber ≠ none
  document : ∀ kind id d, Db.document db kind id = some d → d.status ≠ .draft →
    d.fiscalYear ≠ none ∧ d.number ≠ none
  payment : ∀ id p, Db.payment db id = some p → p.status ≠ .draft →
    p.fiscalYear ≠ none ∧ p.number ≠ none

theorem PostedAreNumbered.after {strict : Prop} {c : Commit} (h : PostedAreNumbered c.before)
    (hc : Transacts strict c) : PostedAreNumbered c.after where
  entry := by
    intro id e he hnot
    cases hb : Db.entry c.before id with
    | some e₀ =>
      obtain ⟨e', he', hstep⟩ := hc.entry_step hb
      obtain rfl : e = e' := Option.some.inj (he ▸ he')
      cases hstep with
      | refl => exact h.entry id e hb hnot
      | promote => exact ⟨nofun, nofun⟩
      | reverse _ hposted => exact h.entry id e₀ hb hposted
      | delete _ _ hdraft => exact absurd hdraft hnot
    | none =>
      rcases (hc.entryNew hb he).isNew with hnew | ⟨t, -, rfl⟩
      · exact hnew.numbered.resolve_left hnot
      · rw [t.reversed.entry_eq]
        exact ⟨nofun, nofun⟩
  document := by
    intro kind id d hd hnot
    cases hb : Db.document c.before kind id with
    | some d₀ =>
      obtain ⟨d', hd', hstep⟩ := hc.document_step hb
      obtain rfl : d = d' := Option.some.inj (hd ▸ hd')
      cases hstep with
      | refl => exact h.document kind id d hb hnot
      | edit => exact h.document kind id d₀ hb hnot
      | post => exact ⟨nofun, nofun⟩
      | pay => exact h.document kind id d₀ hb hnot
      | void hposted => exact h.document kind id d₀ hb (by rw [hposted]; decide)
      | delete _ _ hdraft => exact absurd hdraft hnot
    | none =>
      obtain ⟨input, totals, rfl, -⟩ := hc.document_new hb hd
      exact absurd rfl hnot
  payment := by
    intro id p hp hnot
    cases hb : Db.payment c.before id with
    | some p₀ =>
      obtain ⟨p', hp', hstep⟩ := hc.payment_step hb
      obtain rfl : p = p' := Option.some.inj (hp ▸ hp')
      cases hstep with
      | refl => exact h.payment id p hb hnot
      | post => exact ⟨nofun, nofun⟩
      | void hposted => exact h.payment id p₀ hb (by rw [hposted]; decide)
      | delete _ _ hdraft => exact absurd hdraft hnot
    | none =>
      obtain ⟨dto, user, rfl, -⟩ := hc.payment_new hb hp
      exact absurd rfl hnot

theorem Initial.postedAreNumbered {db : Db} (h : Initial db) : PostedAreNumbered db where
  entry := fun id e he => by rw [h.entry] at he; cases he
  document := fun kind id d hd => by rw [h.document] at hd; cases hd
  payment := fun id p hp => by rw [h.payment] at hp; cases hp

/-- The text a counter's references begin with. -/
def Sequence.refPrefix : Sequence → String
  | .journal _ => "JE"
  | .document documentType _ => documentType.code

def Sequence.fiscalYear : Sequence → ℤ
  | .journal y => y
  | .document _ y => y

theorem Sequence.slash_notMem_refPrefix (s : Sequence) : '/' ∉ s.refPrefix.toList := by
  rcases s with y | ⟨⟨⟩, y⟩ <;> simp [Sequence.refPrefix, DocumentType.code]

/-- References tell the counters and the numbers apart. -/
theorem buildDocRef_inj_of_sequence {s s' : Sequence} {n n' : ℕ}
    (h : buildDocRef s.refPrefix s.fiscalYear n = buildDocRef s'.refPrefix s'.fiscalYear n') :
    s = s' ∧ n = n' := by
  obtain ⟨hpre, hy, hn⟩ :=
    buildDocRef_inj s.slash_notMem_refPrefix s'.slash_notMem_refPrefix h
  refine ⟨?_, hn⟩
  rcases s with y | ⟨⟨⟩, y⟩ <;> rcases s' with y' | ⟨⟨⟩, y'⟩ <;>
    simp_all [Sequence.refPrefix, Sequence.fiscalYear, DocumentType.code]

/-- **Numbering is gapless** in every reachable state, whatever commits or aborts: for each counter the
numbers that posted rows carry are `1, …, n`, each carried once, and the counter stands at `n + 1`;
every posted row carries a number; and references built from different numbers differ. -/
theorem numbering_gapless {policy : Policy Row LockName Query Failure Response Request} {db₀ : Db}
    {s : Server} (h₀ : Initial db₀) (h : Reachable code policy db₀ s) :
    (∀ seq, OneTo (Db.carries s.db seq) (Db.sequence s.db seq)) ∧ PostedAreNumbered s.db ∧
      ∀ (seq seq' : Sequence) (n n' : ℕ),
        buildDocRef seq.refPrefix seq.fiscalYear n = buildDocRef seq'.refPrefix seq'.fiscalYear n' →
        seq = seq' ∧ n = n' := by
  refine ⟨fun seq => ?_, ?_, fun _ _ _ _ => buildDocRef_inj_of_sequence⟩
  · have hgapless := invariant_of_reachable (fun _ => True)
      (I := fun db => ∀ seq, ∃ n, (Db.register db).Gapless seq n) h (fun _ _ => trivial)
      (fun seq => ⟨0, h₀.gapless seq⟩) fun c hc _ hI _ => hc.draws.gapless hI
    obtain ⟨n, hn⟩ := hgapless seq
    exact oneTo_of_gapless hn
  · exact invariant_of_reachable (fun _ => True) h (fun _ _ => trivial)
      h₀.postedAreNumbered fun c hc _ hI _ => hI.after hc

/-- An entry posted, and another request aborted after it has taken a number. -/
theorem numbering_gapless_sale :
    let s := Sample.server (Sample.request 0 (.createAndPostEntry Sample.cashSale 9 100 1) 16 ++
      Sample.request 1 (.createAndPostEntry Sample.cashSale 9 101 2) 12 ++ [.abort 1])
    (∀ seq, OneTo (Db.carries s.db seq) (Db.sequence s.db seq)) ∧ PostedAreNumbered s.db ∧
      ∀ (seq seq' : Sequence) (n n' : ℕ),
        buildDocRef seq.refPrefix seq.fiscalYear n = buildDocRef seq'.refPrefix seq'.fiscalYear n' →
        seq = seq' ∧ n = n' :=
  numbering_gapless Sample.initial (Sample.reachable (by decide +kernel))

/-- **Numbers follow the order of the commits**, in any interleaving: what carries a number in a store of
the run carries it from then on, and a number that is given later is greater. -/
theorem numbers_in_order {policy : Policy Row LockName Query Failure Response Request} {db₀ : Db}
    {s : Server} (h₀ : Initial db₀) (h : Reachable code policy db₀ s) {t : Db}
    (ht : Past db₀ s.history t) (seq : Sequence) :
    (∀ id n, Db.carries t seq id n → Db.carries s.db seq id n) ∧
      ∀ id id' n n', Db.carries t seq id n → Db.carries s.db seq id' n' →
        ¬ Db.carries t seq id' n' → n < n' := by
  have hgapless := past_of_reachable (fun _ => True)
    (I := fun db => ∀ seq, ∃ n, (Db.register db).Gapless seq n) h (fun _ _ => trivial)
    (fun seq => ⟨0, h₀.gapless seq⟩) (fun c hc _ hI _ => hc.draws.gapless hI) t ht
  have hdraws : Draws (Db.register t) (Db.register s.db) :=
    (chain_of_reachable h).past (D := fun s t => Draws (Db.register s) (Db.register t))
      (fun _ => .refl) (fun _ _ _ => .trans) (fun _ hc => hc.draws) ht
  -- a carrier is found in the register, and there is but one row for it
  have hkept : ∀ {x k}, (Db.register t).number x = some (seq, k) →
      (Db.register s.db).number x = some (seq, k) := hdraws.number_kept
  constructor
  · intro id n hid
    obtain ⟨id', hsame, hid'⟩ := number_iff.mp (hkept (number_iff.mpr ⟨id, rfl, hid⟩))
    rwa [seq.carrier_injective hsame]
  · intro id id' n n' hid hid' hnew
    refine hdraws.lt_of_new hgapless (number_iff.mpr ⟨id, rfl, hid⟩) (number_iff.mpr ⟨id', rfl, hid'⟩) ?_
    cases hnumber : (Db.register t).number (seq.carrier id') with
    | none => rfl
    | some x =>
      have hx := hdraws.number_kept hnumber
      rw [number_iff.mpr ⟨id', rfl, hid'⟩, Option.some.injEq] at hx
      subst hx
      obtain ⟨id₁, hsame, hid₁⟩ := number_iff.mp hnumber
      obtain rfl := seq.carrier_injective hsame
      exact absurd hid₁ hnew

/-- Two sales: the second one has the greater number. -/
theorem numbers_in_order_sales :
    let s := Sample.server (Sample.request 0 (.createAndPostEntry Sample.cashSale 9 100 1) 16 ++
      Sample.request 1 (.createAndPostEntry Sample.cashSale 9 101 2) 15)
    s.history.length = 2 ∧ ∀ c ∈ s.history,
      (∀ id n, Db.carries c.after (.journal 2026) id n → Db.carries s.db (.journal 2026) id n) ∧
        ∀ id id' n n', Db.carries c.after (.journal 2026) id n →
          Db.carries s.db (.journal 2026) id' n' → ¬ Db.carries c.after (.journal 2026) id' n' →
            n < n' := by
  intro s
  exact ⟨by decide +kernel, fun c hc => numbers_in_order Sample.initial
    (Sample.reachable (by decide +kernel)) (.inr ⟨c, hc, rfl⟩) (.journal 2026)⟩

end AccountingApi
