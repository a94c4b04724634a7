import AccountingApi.Changes.Entries

/-!
# What a commit changes: settings, accounts and periods

Only requests about them write the settings, the accounts and the periods.

## Main definitions

* `MasterChange`: the settings, accounts and periods a commit writes
* `AccountsKept`: the accounts, with their types and roles
* `PeriodNext`, `PeriodNew`: what becomes of a period, and how periods come into being

## Main results

* `Transacts.settings_after`, `account_after`: the settings and the accounts after a commit
* `Transacts.periodNext`, `periodNew`: the periods
-/

namespace AccountingApi

open ReadCommitted Posting

/-! ## Master data -/

/-- The tables that only requests about accounts, settings and periods write. -/
def Key.IsMaster : Key → Prop
  | .settings | .account _ | .partner _ | .period _ => True
  | _ => False

theorem Ticket.notMaster {c : Commit} {s : Sequence} {n : ℕ} {ws : List (Write Row)}
    (h : Ticket c s n ws) : ∀ w ∈ ws, ¬ w.1.IsMaster := by
  rcases h with ⟨-, rfl⟩ | ⟨-, -, rfl⟩ <;> simp [Key.IsMaster]

theorem Applies.notMaster {kind : DocumentKind} {ok : PaymentAllocation → Document → Prop}
    {delta : PaymentAllocation → ℤ} {db : Db} {as : List PaymentAllocation}
    {ws : List (Write Row)} (h : Applies kind ok delta db as ws) :
    ∀ w ∈ ws, ¬ w.1.IsMaster := by
  induction h with
  | nil db => exact List.forall_mem_nil _
  | cons id d _ _ _ _ _ ih =>
    refine List.forall_mem_cons.mpr ⟨?_, ih⟩
    simp [Key.IsMaster]

theorem Reversed.notMaster {strict : Prop} {c : Commit} {p : PreparedReversal} {id : Uuid}
    {now : Timestamp} {n : ℕ} {wn : List (Write Row)} {o rev : JournalEntry}
    (h : Reversed strict c p id now n wn o rev) :
    ∀ w ∈ reversalWrites p id wn o rev, ¬ w.1.IsMaster :=
  List.forall_mem_append.mpr ⟨h.stamp.ticket.notMaster, by simp [Key.IsMaster]⟩

/-- The master data a commit writes. -/
inductive MasterChange (c : Commit) : List (Write Row) → Prop
  | account (id : Uuid) (a : Account) : AccountChange c id a → MasterChange c [⟨.account id, a⟩]
  | settings (input : Company.UpdateInput) (settings : CompanySettings) :
      c.req = .updateCompany input → Db.settings c.before = some settings →
      MasterChange c [⟨.settings, Company.applyUpdate input settings⟩]
  | periods (ws : List (Write Row)) : PeriodsWrite c ws → MasterChange c ws
  | none (ws : List (Write Row)) : (∀ w ∈ ws, ¬ w.1.IsMaster) → MasterChange c ws

/-- **The master data a commit writes**: one account, the settings, some periods, or none. -/
theorem Transacts.masterChange {strict : Prop} {c : Commit} (h : Transacts strict c) :
    MasterChange c c.writes := by
  cases h
  case account id a change writes => exact writes ▸ .account id a change
  case updateCompany input settings req current writes =>
    exact writes ▸ .settings input settings req current
  case periods ws change writes => exact writes ▸ .periods ws change
  all_goals refine .none _ ?_
  case createDocument writes => simp [writes, Key.IsMaster]
  case updateDocument writes => simp [writes, Key.IsMaster]
  case postDocument t =>
    rw [t.writes, List.forall_mem_append, List.forall_mem_append]
    exact ⟨⟨t.ticket.notMaster, t.created.stamp.ticket.notMaster⟩, by simp [Key.IsMaster]⟩
  case voidDocument t =>
    rw [t.writes, List.forall_mem_cons]
    exact ⟨id, t.reversed.notMaster⟩
  case deleteDocument writes => simp [writes, Key.IsMaster]
  case createPayment writes => simp [writes, Key.IsMaster]
  case postPayment t =>
    rw [t.writes, List.forall_mem_append, List.forall_mem_append, List.forall_mem_append]
    exact ⟨⟨⟨t.settled.notMaster, t.ticket.notMaster⟩, t.created.stamp.ticket.notMaster⟩,
      by simp [Key.IsMaster]⟩
  case voidPayment t =>
    rw [t.writes, List.forall_mem_append, List.forall_mem_cons]
    exact ⟨t.unwound.notMaster, id, t.reversed.notMaster⟩
  case deletePayment writes => simp [writes, Key.IsMaster]
  case createEntry writes => simp [writes, Key.IsMaster]
  case createAndPostEntry created writes =>
    rw [writes, List.forall_mem_append]
    exact ⟨created.stamp.ticket.notMaster, by simp [Key.IsMaster]⟩
  case postEntry stamp writes =>
    rw [writes, List.forall_mem_append]
    exact ⟨stamp.ticket.notMaster, by simp [Key.IsMaster]⟩
  case reverseEntry reversed writes =>
    rw [writes]
    exact reversed.notMaster
  case deleteEntry writes => simp [writes, Key.IsMaster]
  case postOpeningBalances created writes =>
    rw [writes, List.forall_mem_append]
    exact ⟨created.stamp.ticket.notMaster, by simp [Key.IsMaster]⟩
  case closeYear t =>
    rw [t.writes, List.forall_mem_append]
    exact ⟨t.created.stamp.ticket.notMaster, by simp [Key.IsMaster]⟩
  case closeEmptyYear writes => simp [writes, Key.IsMaster]
  case reopenYear t =>
    rw [t.writes, List.forall_mem_append]
    exact ⟨t.reversed.notMaster, by simp [Key.IsMaster]⟩
  case reopenEmptyYear writes => simp [writes, Key.IsMaster]
  case updateTaxCode writes => simp [writes, Key.IsMaster]

section Accounts

variable {strict : Prop} {c : Commit}

/-- The settings are kept, or the commit is one that updates them. -/
theorem Transacts.settings_after (h : Transacts strict c) :
    Db.settings c.after = Db.settings c.before ∨
      ∃ input settings, c.req = .updateCompany input ∧ Db.settings c.before = some settings ∧
        Db.settings c.after = some (Company.applyUpdate input settings) := by
  have hkept : (∀ w ∈ c.writes, w.1 ≠ .settings) → Db.settings c.after = Db.settings c.before :=
    Store.row_putAll_of_notMem c.before
  have hchange := h.masterChange
  generalize hwrites : c.writes = ws at hchange hkept
  cases hchange with
  | account id a =>
    exact .inl (hkept (List.forall_mem_singleton.mpr (by simp only [ne_eq, reduceCtorEq,
      not_false_eq_true])))
  | settings input settings req current =>
    refine .inr ⟨input, settings, req, current, ?_⟩
    change (c.before.putAll c.writes).row .settings = _
    rw [hwrites]
    exact Store.row_put_self _ _ _
  | periods _ change =>
    refine .inl (hkept fun w hw hk => ?_)
    obtain ⟨id, hid⟩ := change.keys w hw
    cases hid.symm.trans hk
  | none _ hnone =>
    refine .inl (hkept fun w hw hk => hnone w hw ?_)
    rw [hk]
    trivial

/-- An account is kept, or the commit writes it and nothing else. -/
theorem Transacts.account_after (h : Transacts strict c) (id : Uuid) :
    Db.account c.after id = Db.account c.before id ∨
      ∃ a, AccountChange c id a ∧ Db.account c.after id = some a ∧
        c.writes = [⟨.account id, a⟩] := by
  have hkept : (∀ w ∈ c.writes, w.1 ≠ .account id) →
      Db.account c.after id = Db.account c.before id := Store.row_putAll_of_notMem c.before
  have hchange := h.masterChange
  generalize hwrites : c.writes = ws at hchange hkept
  cases hchange with
  | account id' a change =>
    by_cases hid : id' = id
    · subst hid
      refine .inr ⟨a, change, ?_, rfl⟩
      change (c.before.putAll c.writes).row _ = _
      rw [hwrites]
      exact Store.row_put_self _ _ _
    · exact .inl (hkept (List.forall_mem_singleton.mpr fun hk => hid (Key.account.inj hk)))
  | settings =>
    exact .inl (hkept (List.forall_mem_singleton.mpr (by simp only [ne_eq, reduceCtorEq,
      not_false_eq_true])))
  | periods _ change =>
    refine .inl (hkept fun w hw hk => ?_)
    obtain ⟨id, hid⟩ := change.keys w hw
    cases hid.symm.trans hk
  | none _ hnone =>
    refine .inl (hkept fun w hw hk => hnone w hw ?_)
    rw [hk]
    trivial

/-- The accounts of the one store are in the other one, each with its type and its role. -/
def AccountsKept (s db : Db) : Prop :=
  ∀ ⦃id : Uuid⦄ ⦃a : Account⦄, Db.account s id = some a →
    ∃ a', Db.account db id = some a' ∧ a'.type = a.type ∧ a'.role = a.role

theorem AccountsKept.refl (db : Db) : AccountsKept db db := fun _ a ha => ⟨a, ha, rfl, rfl⟩

theorem AccountsKept.trans {s t u : Db} (h : AccountsKept s t) (h' : AccountsKept t u) :
    AccountsKept s u := by
  intro id a ha
  obtain ⟨a₁, ha₁, htype, hrole⟩ := h ha
  obtain ⟨a₂, ha₂, htype', hrole'⟩ := h' ha₁
  exact ⟨a₂, ha₂, htype'.trans htype, hrole'.trans hrole⟩

/-- An account keeps its type and its role. -/
theorem Transacts.accountsKept (h : Transacts strict c) : AccountsKept c.before c.after := by
  intro id a ha
  rcases h.account_after id with hsame | ⟨a', hchange, hafter, -⟩
  · exact ⟨a, hsame.trans ha, rfl, rfl⟩
  · refine ⟨a', hafter, ?_⟩
    cases hchange with
    | create _ _ _ hfresh => cases hfresh.symm.trans ha
    | update _ _ _ hcurrent =>
      obtain rfl := Option.some.inj (hcurrent.symm.trans ha)
      exact ⟨rfl, rfl⟩
    | delete _ _ _ _ _ _ hcurrent =>
      obtain rfl := Option.some.inj (hcurrent.symm.trans ha)
      exact ⟨rfl, rfl⟩

/-- The account a request deletes. -/
def Request.deletedAccount : Request → Option Uuid
  | .deleteAccount id _ _ => some id
  | _ => none

/-- The commit deletes an account of which its request has counted no posted lines. -/
def DeletesAccount (c : Commit) (id : Uuid) : Prop :=
  c.req.deletedAccount = some id ∧ Saw c .postedLines fun s => Db.postedLines s id = 0

/-- A live account stays live, or the commit deletes it and writes nothing else. -/
theorem Transacts.liveAccount_after (h : Transacts strict c) {id : Uuid} {a : Account}
    (ha : Db.liveAccount c.before id = some a) :
    (∃ a', Db.liveAccount c.after id = some a') ∨
      DeletesAccount c id ∧ entries.writes c.writes = [] := by
  obtain ⟨hrow, hlive⟩ := Option.filter_eq_some_iff.mp ha
  rcases h.account_after id with hsame | ⟨a', hchange, hafter, hwrites⟩
  · exact .inl ⟨a, Option.filter_eq_some_iff.mpr ⟨hsame.trans hrow, hlive⟩⟩
  · cases hchange with
    | create _ _ _ hfresh =>
      rw [hfresh] at hrow
      cases hrow
    | update input a₀ _ _ hlive₀ =>
      refine .inl ⟨_, Option.filter_eq_some_iff.mpr ⟨hafter, ?_⟩⟩
      exact Option.isNone_iff_eq_none.mpr hlive₀
    | delete user now code a₀ hreq hcount =>
      refine .inr ⟨⟨?_, hcount⟩, ?_⟩
      · rw [hreq]
        rfl
      · rw [hwrites]
        rfl

end Accounts

/-! ## Periods -/

/-- Nothing but the status, and who has closed the period when, changes. -/
def AccountingPeriod.Alike (p p' : AccountingPeriod) : Prop :=
  p' = { p with status := p'.status, closedAt := p'.closedAt, closedBy := p'.closedBy }

theorem AccountingPeriod.Alike.refl (p : AccountingPeriod) : p.Alike p := rfl

theorem AccountingPeriod.Alike.trans {p₁ p₂ p₃ : AccountingPeriod} (h : p₁.Alike p₂)
    (h' : p₂.Alike p₃) : p₁.Alike p₃ := by
  unfold AccountingPeriod.Alike at *
  rw [h', h]

/-- What the unique indexes and the dates of a period depend on stays as it is. -/
theorem AccountingPeriod.Alike.fields {p p' : AccountingPeriod} (h : p.Alike p') :
    p'.fiscalYear = p.fiscalYear ∧ p'.sequence = p.sequence ∧ p'.name = p.name ∧
      p'.startDate = p.startDate ∧ p'.endDate = p.endDate := by
  unfold AccountingPeriod.Alike at h
  rw [h]
  exact ⟨rfl, rfl, rfl, rfl, rfl⟩

theorem period_put (db : Db) (id id' : Uuid) (p : AccountingPeriod) :
    Db.period (db.put (.period id) p) id' = if id = id' then some p else Db.period db id' :=
  periods.get_put db (.period id) p id'

section Inserts

variable {c : Commit} {newId : ℕ → Uuid} {db : Db} {ps : List AccountingPeriod}
  {ws : List (Write Row)} {id : Uuid} {p : AccountingPeriod}

/-- An insert keeps the periods that are there. -/
theorem Inserts.period_of_some (h : Inserts c newId db ps ws) (hp : Db.period db id = some p) :
    Db.period (db.putAll ws) id = some p := by
  induction h with
  | nil db => exact hp
  | skip _ _ ih => exact ih hp
  | @insert db q ps ws hfree _ _ _ ih =>
    rw [Store.putAll_cons]
    refine ih ?_
    have hne : newId q.sequence ≠ id := by
      rintro rfl
      exact hfree (.inl (by rw [hp]; exact Option.some_ne_none p))
    rw [period_put, if_neg hne, hp]

/-- A period that an insert adds is one of those to be inserted, under the locks of its index
entries. -/
theorem Inserts.period_of_none (h : Inserts c newId db ps ws) (hnone : Db.period db id = none)
    (hp : Db.period (db.putAll ws) id = some p) :
    p ∈ ps ∧ (.named (.periodSequence p.fiscalYear p.sequence), .exclusive) ∈ c.locks ∧
      (.named (.periodName p.name), .exclusive) ∈ c.locks := by
  induction h with
  | nil db =>
    rw [Store.putAll_nil, hnone] at hp
    cases hp
  | skip _ _ ih => exact (ih hnone hp).imp_left (List.mem_cons_of_mem _)
  | @insert db q ps ws hfree hsequence hname hrest ih =>
    rw [Store.putAll_cons] at hp
    by_cases hid : newId q.sequence = id
    · have hput : Db.period (db.put (.period (newId q.sequence)) q) id = some q := by
        rw [period_put, if_pos hid]
      have hkept := hrest.period_of_some hput
      obtain rfl : p = q := Option.some.inj (hp ▸ hkept)
      exact ⟨List.mem_cons_self, hsequence, hname⟩
    · exact (ih (by rw [period_put, if_neg hid, hnone]) hp).imp_left (List.mem_cons_of_mem _)

end Inserts

/-- What becomes of a period. -/
inductive PeriodNext (c : Commit) (id : Uuid) (p : AccountingPeriod) : AccountingPeriod → Prop
  | kept : PeriodNext c id p p
  | close (user : Uuid) (now : Timestamp) : c.req = .closePeriod id user now →
      p.status ≠ .closed → PeriodNext c id p (Periods.markClosed user now p)
  | reopen : c.req = .reopenPeriod id → PeriodNext c id p (Periods.markOpen p)

/-- How a period comes into being. -/
structure PeriodNew (c : Commit) (p : AccountingPeriod) : Prop where
  generated : ∃ dto newId start yearEnd, c.req = .generatePeriods dto newId ∧
    FiscalYearBounds c dto.fiscalYear start yearEnd ∧
    p ∈ Periods.newPeriods dto.fiscalYear start.month
  sequenceLock : (.named (.periodSequence p.fiscalYear p.sequence), .exclusive) ∈ c.locks
  nameLock : (.named (.periodName p.name), .exclusive) ∈ c.locks

theorem PeriodNext.alike {c : Commit} {id : Uuid} {p p' : AccountingPeriod}
    (h : PeriodNext c id p p') : p.Alike p' := by
  cases h <;> rfl

section Periods

variable {strict : Prop} {c : Commit} {id : Uuid} {p : AccountingPeriod}

/-- A commit that writes no periods keeps them. -/
theorem Transacts.periodsWrite (h : Transacts strict c) :
    PeriodsWrite c c.writes ∨ ∀ id, Db.period c.after id = Db.period c.before id := by
  have hkept : (∀ id, ∀ w ∈ c.writes, w.1 ≠ .period id) →
      ∀ id, Db.period c.after id = Db.period c.before id := fun hne id =>
    congrArg (Option.map _) (Store.row_putAll_of_notMem c.before (hne id))
  have hchange := h.masterChange
  generalize c.writes = ws at hchange hkept ⊢
  cases hchange with
  | account id' a =>
    exact .inr (hkept fun id => List.forall_mem_singleton.mpr (by simp only [ne_eq, reduceCtorEq,
      not_false_eq_true]))
  | settings =>
    exact .inr (hkept fun id => List.forall_mem_singleton.mpr (by simp only [ne_eq, reduceCtorEq,
      not_false_eq_true]))
  | periods _ change => exact .inl change
  | none _ hnone =>
    refine .inr (hkept fun id w hw hk => hnone w hw ?_)
    rw [hk]
    trivial

theorem Transacts.periodNext (h : Transacts strict c) (hp : Db.period c.before id = some p) :
    ∃ p', Db.period c.after id = some p' ∧ PeriodNext c id p p' := by
  rcases h.periodsWrite with hwrite | hkept
  · unfold Commit.after
    generalize c.writes = ws at hwrite ⊢
    cases hwrite with
    | generate _ _ _ _ _ _ _ inserts => exact ⟨p, inserts.period_of_some hp, .kept⟩
    | close id' user now q req current open_ =>
      rw [Store.putAll_cons, Store.putAll_nil, period_put]
      split
      · subst_vars
        obtain rfl : p = q := Option.some.inj (hp ▸ current)
        exact ⟨_, rfl, .close user now req open_⟩
      · exact ⟨p, hp, .kept⟩
    | reopen id' q req _ current =>
      rw [Store.putAll_cons, Store.putAll_nil, period_put]
      split
      · subst_vars
        obtain rfl : p = q := Option.some.inj (hp ▸ current)
        exact ⟨_, rfl, .reopen req⟩
      · exact ⟨p, hp, .kept⟩
  · exact ⟨p, (hkept id).trans hp, .kept⟩

/-- A period that was not there before the commit. -/
theorem Transacts.periodNew (h : Transacts strict c) (hb : Db.period c.before id = none)
    (hp : Db.period c.after id = some p) : PeriodNew c p := by
  rcases h.periodsWrite with hwrite | hkept
  · unfold Commit.after at hp
    generalize c.writes = ws at hwrite hp
    cases hwrite with
    | generate dto newId start yearEnd _ req bounds inserts =>
      obtain ⟨hmem, hsequence, hname⟩ := inserts.period_of_none hb hp
      exact ⟨⟨dto, newId, start, yearEnd, req, bounds, hmem⟩, hsequence, hname⟩
    | close id' user now q req current =>
      rw [Store.putAll_cons, Store.putAll_nil, period_put] at hp
      split at hp
      · subst_vars
        rw [hb] at current
        cases current
      · rw [hb] at hp
        cases hp
    | reopen id' q req _ current =>
      rw [Store.putAll_cons, Store.putAll_nil, period_put] at hp
      split at hp
      · subst_vars
        rw [hb] at current
        cases current
      · rw [hb] at hp
        cases hp
  · rw [hkept, hb] at hp
    cases hp

end Periods

end AccountingApi
