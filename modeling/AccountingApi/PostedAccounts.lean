import AccountingApi.DoubleEntry

/-!
# Posted lines and deleted accounts

A posting checks on a plain read that the accounts of its lines are there, and the deletion of an
account counts on a plain read that no posted line is on it. No lock is shared between the two: either
can commit after the other has looked. Where what each of them has found still holds when it commits,
no posted line is on a deleted account, and the balances lose none.

## Main definitions

* `PostsOnLive`, `DeletesUnposted`: what a posting and a deletion have found still holds
* `KeepsPostedLines`: the balances, which skip deleted accounts, lose no posted line

## Main results

* `keepsPostedLines_of_reachable`
* `delete_overtakes_post`: the balances lose a line when an account is deleted while it is posted to
-/

namespace AccountingApi

open ReadCommitted Posting Balances

/-! ## Conditions -/

/-- Every account that the commit posts a line on and that was live when its request read the accounts
still is. -/
def PostsOnLive (c : Commit) : Prop :=
  ∀ q ∈ c.seen, q.1 = .account → ∀ w ∈ entries.writes c.writes, w.2.status ≠ .draft →
    ∀ l ∈ w.2.lines, (Db.liveAccount q.2 l.accountId).isSome = true →
      (Db.liveAccount c.before l.accountId).isSome = true

instance (c : Commit) : Decidable (PostsOnLive c) :=
  inferInstanceAs (Decidable (∀ q ∈ c.seen, _))

/-- No posted line has come onto an account the commit deletes since its request counted them. -/
def DeletesUnposted (c : Commit) : Prop :=
  ∀ q ∈ c.seen, q.1 = .postedLines → ∀ id ∈ c.req.deletedAccount,
    Db.postedLines q.2 id = 0 → Db.postedLines c.before id = 0

instance (c : Commit) : Decidable (DeletesUnposted c) :=
  inferInstanceAs (Decidable (∀ q ∈ c.seen, _))

/-- The balances lose no posted line: none is on a deleted account, the sums per account add up to
those of all posted entries, and the trial balance balances as far as the arithmetic is exact. -/
structure KeepsPostedLines (db : Db) : Prop where
  live : PostedLinesLive db
  sums : ∀ (p : UtcDay → Prop) [DecidablePred p],
    ((groupedBalances db p).map (·.debit)).sum = Db.total db (·.debit) p ∧
      ((groupedBalances db p).map (·.credit)).sum = Db.total db (·.credit) p
  trial : WithinDigits db → ∀ asOf,
    (trialBalance db asOf).totalDebit = (trialBalance db asOf).totalCredit

/-! ## Steps -/

/-- The accounts a posting has checked were live. -/
theorem live_of_checkAccounts {account : Uuid → Option Account} {ids : List Uuid}
    (h : checkAccounts account ids = .ok ()) : ∀ id ∈ ids, (account id).isSome = true := by
  intro id hid
  obtain ⟨a, ha, -⟩ := checkAccounts_eq_ok_iff.mp h id hid
  exact Option.isSome_of_mem ha

/-- An account without posted lines. -/
theorem postedLines_eq_zero {db : Db} {accountId : Uuid} (h : Db.postedLines db accountId = 0)
    {id : Uuid} {e : JournalEntry} (he : Db.entry db id = some e) (hnot : e.status ≠ .draft) :
    ∀ l ∈ e.lines, l.accountId ≠ accountId := by
  have hstatus : e.status = .posted ∨ e.status = .reversed := by
    cases hs : e.status with
    | draft => exact absurd hs hnot
    | posted => exact .inl rfl
    | reversed => exact .inr rfl
  have hsum := List.sum_eq_zero_iff.mp h
  have hzero := hsum _ (Store.mem_collect.mpr
    ⟨.entry id, e, (Db.entry_eq_row db id).symm.trans he, if_pos hstatus⟩)
  intro l hl hid
  have hnil := List.filter_eq_nil_iff.mp (List.eq_nil_of_length_eq_zero hzero) l hl
  exact hnil (by simpa using hid)

section Step

variable {strict : Prop} {c : Commit}

/-- An entry that changes is one the commit writes. -/
theorem mem_writes_of_ne {id : Uuid} {e : JournalEntry} (he : Db.entry c.after id = some e)
    (hne : Db.entry c.before id ≠ some e) : (id, e) ∈ entries.writes c.writes := by
  rw [entry_after] at he
  exact mem_of_overwrite he hne

/-- The accounts of lines that a posting has checked are live when it commits. -/
theorem Vetted.live (hposts : PostsOnLive c) {w : Uuid × JournalEntry}
    (hw : w ∈ entries.writes c.writes) (hnot : w.2.status ≠ .draft) (h : Vetted c w.2.lines) :
    ∀ l ∈ w.2.lines, ∃ a, Db.liveAccount c.before l.accountId = some a := by
  intro l hl
  obtain ⟨s, hs, hok⟩ := h.accounts
  have hmem : l.accountId ∈ ((draftLines w.2.lines).map (·.accountId)).eraseDups := by
    rw [List.mem_eraseDups, draftLines, List.map_map]
    exact List.mem_map.mpr ⟨l, hl, rfl⟩
  have hlive := live_of_checkAccounts hok _ hmem
  exact Option.isSome_iff_exists.mp (hposts _ hs rfl w hw hnot l hl hlive)

/-- **A commit posts on live accounts and deletes accounts without posted lines.** -/
theorem PostedLinesLive.after (h : PostedLinesLive c.before) (hc : Transacts strict c)
    (hposts : PostsOnLive c) (hdeletes : DeletesUnposted c) : PostedLinesLive c.after := by
  -- a live account that a posted entry is on stays live
  have hstays : ∀ {accountId : Uuid} {a : Account}, Db.liveAccount c.before accountId = some a →
      (∃ id e, Db.entry c.before id = some e ∧ e.status ≠ .draft ∧
        ∃ l ∈ e.lines, l.accountId = accountId) ∨ entries.writes c.writes ≠ [] →
      ∃ a, Db.liveAccount c.after accountId = some a := by
    intro accountId a ha hposted
    rcases hc.liveAccount_after ha with hlive | ⟨⟨hreq, s, hs, hcount⟩, hnil⟩
    · exact hlive
    · rcases hposted with ⟨id, e, he, hnot, l, hl, hid⟩ | hwrites
      · exact absurd hid (postedLines_eq_zero (hdeletes _ hs rfl _ hreq hcount) he hnot l hl)
      · exact absurd hnil hwrites
  intro id e he hnot l hl
  cases hb : Db.entry c.before id with
  | none =>
    have hw := mem_writes_of_ne he (by rw [hb]; exact nofun)
    have hne : entries.writes c.writes ≠ [] := List.ne_nil_of_mem hw
    rcases (hc.entryNew hb he).vetted hnot with hvetted | ⟨t, -, rfl⟩
    · obtain ⟨a, ha⟩ := hvetted.live hposts hw hnot l hl
      exact hstays ha (.inr hne)
    · -- a reversal is on the accounts of its original
      rw [t.mirrors.2] at hl
      obtain ⟨l', hl', rfl⟩ := List.mem_map.mp hl
      obtain ⟨a, ha⟩ := h t.reversed.original t.reversed.notDraft l' hl'
      exact hstays ha (.inr hne)
  | some e₀ =>
    obtain ⟨e₁, he₁, hnext⟩ := hc.entryNext hb
    obtain rfl : e = e₁ := Option.some.inj (he ▸ he₁)
    have hlines := hnext.entryStep.lines.2
    by_cases hdraft : e₀.status = .draft
    · cases hnext with
      | reverse t hid ho => exact absurd (ho ▸ hdraft) t.reversed.notDraft
      | step _ _ hvetted =>
        have hw := mem_writes_of_ne he fun heq => by
          rw [hb] at heq
          cases heq
          exact hnot hdraft
        obtain ⟨a, ha⟩ := Vetted.live hposts hw hnot (hlines ▸ hvetted hdraft hnot) l hl
        exact hstays ha (.inr (List.ne_nil_of_mem hw))
    · rw [hlines] at hl
      obtain ⟨a, ha⟩ := h hb hdraft l hl
      exact hstays ha (.inl ⟨id, e₀, hb, hdraft, l, hl, rfl⟩)

end Step

/-! ## Runs -/

section Runs

variable {policy : Policy Row LockName Query Failure Response Request} {db₀ : Db} {s : Server}

theorem Initial.postedLinesLive {db : Db} (h : Initial db) : PostedLinesLive db :=
  fun _ _ he => by rw [h.entry] at he; cases he

/-- Every posted line is on a live account. -/
theorem postedLinesLive_of_reachable (h₀ : Initial db₀) (h : Reachable code policy db₀ s)
    (hcond : ∀ c ∈ s.history, PostsOnLive c ∧ DeletesUnposted c) : PostedLinesLive s.db :=
  invariant_of_reachable (fun c => PostsOnLive c ∧ DeletesUnposted c) h hcond h₀.postedLinesLive
    fun _ hc hcond hI _ => hI.after hc hcond.1 hcond.2

/-- **The balances lose no posted line**, as long as what postings and deletions have found still holds
when they commit. -/
theorem keepsPostedLines_of_reachable (h₀ : Initial db₀) (h : Reachable code policy db₀ s)
    (hcond : ∀ c ∈ s.history, PostsOnLive c ∧ DeletesUnposted c) : KeepsPostedLines s.db := by
  have hcoh := coherent_of_reachable h₀ h
  have hlive := postedLinesLive_of_reachable h₀ h hcond
  refine ⟨hlive, fun p _ => sum_groupedBalances (hlive.linesLive hcoh) p, fun hdigits asOf => ?_⟩
  exact trialBalance_balanced hcoh.linesValid (hlive.linesLive hcoh) hdigits
    (entriesBalanced hcoh (doubleEntry_of_reachable h₀ h) hdigits) asOf

end Runs

namespace Sample

/-- A sale whose accounts are checked before the revenue account is deleted, and which is posted
after that. -/
def overtaken : List (Event Request) :=
  request 0 (.createAndPostEntry cashSale 9 100 1) 5 ++ request 1 (.deleteAccount 5 9 2) 7 ++
    List.replicate 11 (.step 0)

/-- A second revenue account. -/
def secondRevenue : Accounts.CreateInput :=
  ⟨"4200", "Services", .revenue, .revenue, .credit, none, none, none, none⟩

/-- A sale, a new account, and the deletion of it and of the cost account. -/
def deletions : List (Event Request) :=
  request 0 (.createAndPostEntry cashSale 9 100 1) 16 ++
    request 1 (.createAccount secondRevenue 30) 6 ++ request 2 (.deleteAccount 30 9 2) 7 ++
    request 3 (.deleteAccount 6 9 3) 7

end Sample

/-- An account is deleted between the check of a posting and its commit: the trial balance then has
the debit of the entry only. -/
theorem delete_overtakes_post : ¬ ∀ s : Server,
    Reachable code (anytime fun _ => True) Sample.db s → KeepsPostedLines s.db := by
  intro h
  have hkeeps := h (Sample.server Sample.overtaken) (Sample.reachable (by decide +kernel))
  have htrial := hkeeps.trial (by decide +kernel) Sample.yearEnd
  exact absurd htrial (by decide +kernel)

/-- Accounts without posted lines are deleted. -/
theorem keepsPostedLines_of_reachable_deletions :
    KeepsPostedLines (Sample.server Sample.deletions).db :=
  keepsPostedLines_of_reachable Sample.initial (Sample.reachable (by decide +kernel))
    (by decide +kernel)

end AccountingApi
