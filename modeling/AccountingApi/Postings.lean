import AccountingApi.Runs

/-!
# Postings and the status of periods

Every entry a commit posts lies in a period that the request has found open for its date, and that is
open when the transaction commits. So nothing is posted into a closed period before a reopening
commits, however early the request has looked for a period.

## Main definitions

* `PostsEntry`: what holds of a commit that posts an entry
* `Commit.PostsInto`: the commit posts an entry of a period

## Main results

* `Transacts.postsEntry`: every entry a commit posts has passed the checks
* `frozen_of_reachable`: nothing is posted into a period between its close and a reopening
-/

namespace AccountingApi

open ReadCommitted Posting

/-! ## Entries that are posted -/

/-- An entry is posted by the commit: into a period that was open, found for the entry's date, under
the fiscal year of the date. Only the reopening of a year may find it closed. -/
structure PostsEntry (strict : Prop) (c : Commit) (e : JournalEntry) (periodId : Uuid)
    (fiscalYear : ℤ) : Prop where
  stamp : ∃ allow n ws, Stamp strict c periodId fiscalYear allow n ws ∧
    (allow = true → ∃ t : ReopensYear strict c, t.p.fiscalYear = fiscalYear)
  period : OpenPeriod c e.date periodId
  year : FiscalYearFor c e.date fiscalYear
  periodId_eq : e.periodId = some periodId
  fiscalYear_eq : e.fiscalYear = some fiscalYear

section PostsEntry

variable {strict : Prop} {c : Commit} {id : Uuid} {now : Timestamp} {n : ℕ} {wn : List (Write Row)}
  {e : JournalEntry}

theorem Created.postsEntry {p : PreparedPosting} {input : PostEntryInput} {user : Uuid}
    (h : Created strict c p id now n wn e) (hp : Prepared c input user p) :
    PostsEntry strict c e p.periodId p.fiscalYear := by
  have hperiod := hp.period
  have hyear := hp.fiscalYear
  rw [← hp.input_eq] at hperiod hyear
  rw [h.entry_eq]
  exact ⟨⟨_, _, _, h.stamp, nofun⟩, hperiod, hyear, rfl, rfl⟩

theorem Reversed.postsEntry {p : PreparedReversal} {entryId user : Uuid} {allow : Bool} {o : JournalEntry}
    (h : Reversed strict c p id now n wn o e) (hp : PreparedReverse c entryId user allow p)
    (hallow : allow = true → ∃ t : ReopensYear strict c, t.p.fiscalYear = p.fiscalYear) :
    PostsEntry strict c e p.periodId p.fiscalYear := by
  have hperiod := hp.period
  have hyear := hp.fiscalYear
  rw [← hp.date_eq] at hperiod hyear
  rw [h.entry_eq]
  rw [← hp.allowClosedYear_eq] at hallow
  exact ⟨⟨_, _, _, h.stamp, hallow⟩, hperiod, hyear, rfl, rfl⟩

/-- An entry the commit posts, or one that was posted before it. -/
def PostsOrKeeps (strict : Prop) (c : Commit) (x : Uuid × JournalEntry) : Prop :=
  x.2.status = .draft ∨ (∃ periodId fiscalYear, PostsEntry strict c x.2 periodId fiscalYear) ∨
    ∃ e, Db.entry c.before x.1 = some e ∧ e.status ≠ .draft ∧ e.periodId = x.2.periodId

/-- The entries of a reversal: the reversal is posted, the original was before. -/
theorem Reversed.postsOrKeeps {p : PreparedReversal} {entryId user : Uuid} {allow : Bool}
    {o : JournalEntry} (h : Reversed strict c p id now n wn o e)
    (hp : PreparedReverse c entryId user allow p)
    (hallow : allow = true → ∃ t : ReopensYear strict c, t.p.fiscalYear = p.fiscalYear) :
    ∀ x ∈ [(id, e), (p.originalId, markReversed id o)], PostsOrKeeps strict c x :=
  List.forall_mem_cons.mpr ⟨.inr (.inl ⟨_, _, h.postsEntry hp hallow⟩),
    List.forall_mem_singleton.mpr (.inr (.inr ⟨o, h.original, h.notDraft, rfl⟩))⟩

/-- **Every entry a commit writes** is a draft, has passed the checks of a posting, or was posted
before. -/
theorem Transacts.postsOrKeeps (h : Transacts strict c) :
    ∀ x ∈ entries.writes c.writes, PostsOrKeeps strict c x := by
  cases h
  case postDocument t =>
    rw [t.writes_entries]
    exact List.forall_mem_singleton.mpr (.inr (.inl ⟨_, _, t.created.postsEntry t.prepared⟩))
  case voidDocument t =>
    rw [t.writes_entries]
    exact t.reversed.postsOrKeeps t.prepared nofun
  case postPayment t =>
    rw [t.writes_entries]
    exact List.forall_mem_singleton.mpr (.inr (.inl ⟨_, _, t.created.postsEntry t.prepared⟩))
  case voidPayment t =>
    rw [t.writes_entries]
    exact t.reversed.postsOrKeeps t.prepared nofun
  case createEntry row valid fresh writes =>
    rw [writes, row]
    exact List.forall_mem_singleton.mpr (.inl rfl)
  case createAndPostEntry prepared created writes =>
    rw [writes, Table.writes_append, created.stamp.ticket.entries]
    exact List.forall_mem_singleton.mpr (.inr (.inl ⟨_, _, created.postsEntry prepared⟩))
  case postEntry current live draft balanced accounts period year stamp writes =>
    rw [writes, Table.writes_append, stamp.ticket.entries]
    exact List.forall_mem_singleton.mpr
      (.inr (.inl ⟨_, _, ⟨_, _, _, stamp, nofun⟩, period, year, rfl, rfl⟩))
  case reverseEntry prepared reversed writes =>
    rw [writes, reversed.writes_entries]
    exact reversed.postsOrKeeps prepared nofun
  case deleteEntry draft live writes =>
    rw [writes]
    exact List.forall_mem_singleton.mpr (.inl draft)
  case postOpeningBalances prepared created writes =>
    rw [writes, Table.writes_append, created.stamp.ticket.entries]
    exact List.forall_mem_singleton.mpr (.inr (.inl ⟨_, _, created.postsEntry prepared⟩))
  case closeYear t =>
    rw [t.writes, Table.writes_append, t.created.stamp.ticket.entries]
    exact List.forall_mem_singleton.mpr (.inr (.inl ⟨_, _, t.created.postsEntry t.prepared⟩))
  case reopenYear t =>
    rw [t.writes_entries]
    exact t.reversed.postsOrKeeps t.prepared fun _ => ⟨t, rfl⟩
  case periods change writes =>
    rw [writes, change.writes_entries]
    exact List.forall_mem_nil _
  -- the others write no entries
  all_goals
    rename_i writes
    rw [writes]
    exact List.forall_mem_nil _

/-- **An entry that a commit posts** has passed the checks of a posting. -/
theorem Transacts.postsEntry (h : Transacts strict c) (he : Db.entry c.after id = some e)
    (hnot : e.status ≠ .draft)
    (hbefore : ∀ e₀, Db.entry c.before id = some e₀ → e₀.status ≠ .draft →
      e₀.periodId ≠ e.periodId) :
    ∃ periodId fiscalYear, PostsEntry strict c e periodId fiscalYear := by
  rw [entry_after] at he
  have hne : Db.entry c.before id ≠ some e := fun hb => hbefore e hb hnot rfl
  rcases h.postsOrKeeps _ (mem_of_overwrite he hne) with hdraft | hposts | ⟨e₀, he₀, hnot₀, hperiod⟩
  · exact absurd hdraft hnot
  · exact hposts
  · exact absurd hperiod (hbefore e₀ he₀ hnot₀)

end PostsEntry

/-! ## The freeze of a closed period -/

/-- The entry `id` is posted, or posted and reversed, in the period. -/
def Db.postedInto (db : Db) (periodId id : Uuid) : Prop :=
  ∃ e, Db.entry db id = some e ∧ e.status ≠ .draft ∧ e.periodId = some periodId

/-- The commit gives a posted entry the period. -/
def PostsInto (c : Commit) (periodId : Uuid) : Prop :=
  ∃ id, Db.postedInto c.after periodId id ∧ ¬ Db.postedInto c.before periodId id

/-- The period a request closes. -/
def Request.closedPeriod : Request → Option Uuid
  | .closePeriod id _ _ => some id
  | _ => none

/-- The period a request reopens. -/
def Request.reopenedPeriod : Request → Option Uuid
  | .reopenPeriod id => some id
  | _ => none

/-- The period is stored and closed. -/
def PeriodClosed (periodId : Uuid) (db : Db) : Prop :=
  ∃ p, Db.period db periodId = some p ∧ p.status = .closed

section Freeze

variable {strict : Prop} {c : Commit} {periodId : Uuid}

/-- A posting finds its period open when it commits. -/
theorem Transacts.not_closed_of_postsInto (h : Transacts strict c) (hposts : PostsInto c periodId) :
    ¬ PeriodClosed periodId c.before := by
  obtain ⟨id, ⟨e, he, hnot, hperiod⟩, hbefore⟩ := hposts
  obtain ⟨periodId', _, hentry⟩ := h.postsEntry he hnot fun e₀ he₀ hnot₀ hsame =>
    hbefore ⟨e₀, he₀, hnot₀, hsame.trans hperiod⟩
  obtain rfl : periodId = periodId' := Option.some.inj (hperiod ▸ hentry.periodId_eq)
  obtain ⟨_, _, _, hstamp, -⟩ := hentry.stamp
  obtain ⟨p, hp, hopen⟩ := hstamp.period
  rintro ⟨q, hq, hclosed⟩
  obtain rfl : p = q := Option.some.inj ((Option.mem_def.mp hp).symm.trans hq)
  rw [hopen] at hclosed
  cases hclosed

/-- A close leaves the period closed. -/
theorem Transacts.closed_after (h : Transacts strict c)
    (hclose : c.req.closedPeriod = some periodId) : PeriodClosed periodId c.after := by
  obtain ⟨user, now, hreq⟩ : ∃ user now, c.req = .closePeriod periodId user now := by
    generalize c.req = r at hclose ⊢
    cases r <;> cases hclose
    exact ⟨_, _, rfl⟩
  cases h
  case periods change writes =>
    unfold Commit.after
    rw [writes]
    cases change with
    | generate _ _ _ _ _ req => cases hreq.symm.trans req
    | close id user' now' p req =>
      cases hreq.symm.trans req
      exact ⟨_, by rw [Store.putAll_cons, Store.putAll_nil, period_put, if_pos rfl], rfl⟩
    | reopen _ _ req => cases hreq.symm.trans req
  case account _ _ change _ =>
    cases change <;> simp_all only [reduceCtorEq, or_self]
  all_goals first
    | (rename_i t; cases hreq.symm.trans t.req)
    | simp_all only [reduceCtorEq]

/-- A commit that is no reopening of a closed period keeps it closed. -/
theorem Transacts.closed_kept (h : Transacts strict c) (hclosed : PeriodClosed periodId c.before)
    (hreq : c.req.reopenedPeriod ≠ some periodId) : PeriodClosed periodId c.after := by
  obtain ⟨p, hp, hstatus⟩ := hclosed
  obtain ⟨p', hp', hnext⟩ := h.periodNext hp
  refine ⟨p', hp', ?_⟩
  cases hnext with
  | kept => exact hstatus
  | close => rfl
  | reopen req => exact absurd (congrArg Request.reopenedPeriod req) hreq

end Freeze

section Runs

variable {policy : Policy Row LockName Query Failure Response Request} {db₀ : Db} {s : Server}

/-- **Nothing is posted into a period between its close and a reopening**, in any interleaving. -/
theorem frozen_of_reachable (h : Reachable code policy db₀ s) {h₁ h₂ h₃ : List Commit}
    {c close : Commit} {periodId : Uuid}
    (hhistory : s.history = h₃ ++ c :: (h₂ ++ close :: h₁))
    (hclose : close.req.closedPeriod = some periodId)
    (hreopen : ∀ c' ∈ h₂, c'.req.reopenedPeriod ≠ some periodId) : ¬ PostsInto c periodId := by
  have hchain := chain_of_reachable h
  rw [hhistory] at hchain
  obtain ⟨db, hc⟩ := hchain.of_append
  obtain ⟨hbefore, hguar, -, -⟩ := hc.last
  obtain ⟨db₁, hclosed⟩ := hbefore.of_append
  obtain ⟨-, hguarClose, -, rfl⟩ := hclosed.last
  -- the period stays closed from its close on
  have hfrozen : PeriodClosed periodId c.before :=
    hbefore.since hclosed (hguarClose.closed_after hclose) fun c' hc' hguar' hI =>
      hguar'.closed_kept hI (hreopen c' hc')
  exact fun hposts => hguar.not_closed_of_postsInto hposts hfrozen

/-- A posting that has found the period open before it is closed fails, and a draft is saved. -/
theorem frozen_of_reachable_race :
    let s := Sample.server (.spawn (.createAndPostEntry Sample.cashSale 9 100 1) ::
      List.replicate 7 (.step 0) ++ Sample.request 1 (.closePeriod 8 9 2) 5 ++
      List.replicate 2 (.step 0) ++ Sample.request 2 (.createEntry Sample.cashSale 9 101) 4)
    ∃ c close : Commit, s.history = [c, close] ∧ close.req.closedPeriod = some 8 ∧
      ¬ PostsInto c 8 := by
  intro s
  have hlength : s.history.length = 2 := by decide +kernel
  have hclosed : ∀ close ∈ s.history[1]?, close.req.closedPeriod = some 8 := by decide +kernel
  obtain ⟨c, close, hhistory⟩ := List.length_eq_two.mp hlength
  have hclose : close.req.closedPeriod = some 8 := hclosed close (by rw [hhistory]; rfl)
  refine ⟨c, close, hhistory, hclose, ?_⟩
  have hreachable : Reachable code (anytime fun _ => True) Sample.db s :=
    Sample.reachable (by decide +kernel)
  have hsplit : s.history = [] ++ c :: ([] ++ close :: []) := hhistory
  exact frozen_of_reachable hreachable hsplit hclose (List.forall_mem_nil _)

end Runs

end AccountingApi
