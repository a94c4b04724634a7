import AccountingApi.Century
import AccountingApi.Reporting.IncomeStatement

/-!
# Books that are closed

What is posted stays. Between two stores of a run a posted journal entry keeps everything but its status
and the mark of its reversal, a posted payment everything but its status, and a posted document its number
and its entry. So the sums of an account only grow; and over days all of whose periods are closed they
stand still, until a period over these days is opened or comes into being.

## Main definitions

* `PostedKept`: what the one store has posted is posted in the other
* `DaysClosed`, `OpensDays`: no open period holds one of the days; the commit opens one
* `SameOver`: the sums and the grouped balances over some days are the same

## Main results

* `postedKept_of_reachable`: nothing that is posted is changed or lost
* `closedDays_of_reachable`: the reports over closed days stand still
-/

namespace AccountingApi

open ReadCommitted Posting Balances

/-- What is posted in `s` is posted in `db`, with the same contents. -/
structure PostedKept (s db : Db) : Prop where
  entry : ∀ {id e}, Db.entry s id = some e → e.status ≠ .draft → ∃ e', Db.entry db id = some e' ∧
    e'.status ≠ .draft ∧ (e.status = .reversed → e' = e) ∧
      e' = { e with status := e'.status, reversedById := e'.reversedById }
  payment : ∀ {id p}, Db.payment s id = some p → p.status ≠ .draft → ∃ p',
    Db.payment db id = some p' ∧ p'.status ≠ .draft ∧ (p.status = .void → p' = p) ∧
      p' = { p with status := p'.status }
  document : ∀ {kind id d}, Db.document s kind id = some d → d.status ≠ .draft → ∃ d',
    Db.document db kind id = some d' ∧ d'.status ≠ .draft ∧ (d.status = .void → d'.status = .void) ∧
      d'.number = d.number ∧ d'.ref = d.ref ∧ d'.fiscalYear = d.fiscalYear ∧
      d'.partnerId = d.partnerId ∧ d'.journalEntryId = d.journalEntryId ∧ d'.postedAt = d.postedAt

/-- No account has a smaller sum in `db` than in `s`, on either side, over any dates. -/
def SumsGrow (s db : Db) : Prop :=
  ∀ (accountId : Uuid) (p : UtcDay → Prop) [DecidablePred p],
    Db.sideOn s accountId (·.debit) p ≤ Db.sideOn db accountId (·.debit) p ∧
      Db.sideOn s accountId (·.credit) p ≤ Db.sideOn db accountId (·.credit) p

/-! ## What is posted stays -/

section Step

variable {strict : Prop} {c : Commit}

/-- A posted entry keeps everything but its status and the mark of its reversal, and a reversed one
everything: a second reversal would find the first. -/
theorem Transacts.postedEntry_after (hc : Transacts strict c) (hcoh : Coherent c.before)
    (hrev : Reversible c.before) {id : Uuid} {e : JournalEntry} (he : Db.entry c.before id = some e)
    (hnot : e.status ≠ .draft) : ∃ e', Db.entry c.after id = some e' ∧ e'.status ≠ .draft ∧
      (e.status = .reversed → e' = e) ∧
        e' = { e with status := e'.status, reversedById := e'.reversedById } := by
  obtain ⟨e', he', hnext⟩ := hc.entryNext he
  refine ⟨e', he', ?_⟩
  cases hnext with
  | reverse t hid ho =>
    refine ⟨by simp [markReversed], fun hreversed => ?_, rfl⟩
    obtain ⟨r, hr⟩ := Option.ne_none_iff_exists'.mp ((hcoh.entry he).reversed.mp hreversed)
    obtain ⟨e₁, he₁, ho₁⟩ := hrev.reversal he hr
    have hmem : r ∈ Db.reversalsOf c.before t.p.originalId :=
      mem_reversalsOf.mpr ⟨e₁, he₁, by rw [ho₁, hid]⟩
    rw [t.reversed.first] at hmem
    cases hmem
  | step hstep hmark hvetted =>
    cases hstep with
    | refl => exact ⟨hnot, fun _ => rfl, rfl⟩
    | promote _ _ _ _ _ _ hdraft => exact absurd hdraft hnot
    | reverse r =>
      -- the mark would be a new one
      have hsame : (markReversed r e) = { e with status := .reversed } := by
        rw [markReversed, show some r = e.reversedById from hmark]
      refine ⟨by simp [markReversed], fun hreversed => ?_, rfl⟩
      rw [hsame, ← hreversed]
    | delete _ _ hdraft => exact absurd hdraft hnot

/-- A posted payment keeps everything but its status, and a void one everything. -/
theorem PaymentStep.posted_after {p p' : Payment} (h : PaymentStep p p') (hnot : p.status ≠ .draft) :
    p'.status ≠ .draft ∧ (p.status = .void → p' = p) ∧ p' = { p with status := p'.status } := by
  cases h with
  | refl => exact ⟨hnot, fun _ => rfl, rfl⟩
  | post _ _ _ _ _ _ hdraft => exact absurd hdraft hnot
  | void hposted =>
    refine ⟨by simp [Payments.markVoid], fun hvoid => ?_, rfl⟩
    cases hposted.symm.trans hvoid
  | delete _ _ hdraft => exact absurd hdraft hnot

/-- A posted document keeps its number and its journal entry, even where it is edited. -/
theorem DocumentStep.posted_after {d d' : Document} (h : DocumentStep d d')
    (hnot : d.status ≠ .draft) : d'.status ≠ .draft ∧ (d.status = .void → d'.status = .void) ∧
      d'.number = d.number ∧ d'.ref = d.ref ∧ d'.fiscalYear = d.fiscalYear ∧
      d'.partnerId = d.partnerId ∧ d'.journalEntryId = d.journalEntryId ∧
      d'.postedAt = d.postedAt := by
  cases h with
  | refl => exact ⟨hnot, fun h => h, rfl, rfl, rfl, rfl, rfl, rfl⟩
  | edit => exact ⟨hnot, fun h => h, rfl, rfl, rfl, rfl, rfl, rfl⟩
  | post _ _ _ _ _ _ _ hdraft => exact absurd hdraft hnot
  | pay => exact ⟨hnot, fun h => h, rfl, rfl, rfl, rfl, rfl, rfl⟩
  | void => exact ⟨by simp [TaxedDocument.markVoid], fun _ => rfl, rfl, rfl, rfl, rfl, rfl, rfl⟩
  | delete _ _ hdraft => exact absurd hdraft hnot

end Step

namespace PostedKept

theorem refl (db : Db) : PostedKept db db where
  entry := fun he hnot => ⟨_, he, hnot, fun _ => rfl, rfl⟩
  payment := fun hp hnot => ⟨_, hp, hnot, fun _ => rfl, rfl⟩
  document := fun hd hnot => ⟨_, hd, hnot, fun h => h, rfl, rfl, rfl, rfl, rfl, rfl⟩

variable {s : Db} {strict : Prop} {c : Commit}

/-- **A commit keeps what is posted.** -/
theorem after (h : PostedKept s c.before) (hc : Transacts strict c) (hcoh : Coherent c.before)
    (hrev : Reversible c.before) : PostedKept s c.after where
  entry := by
    intro id e he hnot
    obtain ⟨e₁, he₁, hnot₁, hrev₁, hsame₁⟩ := h.entry he hnot
    obtain ⟨e₂, he₂, hnot₂, hrev₂, hsame₂⟩ := hc.postedEntry_after hcoh hrev he₁ hnot₁
    refine ⟨e₂, he₂, hnot₂, fun hreversed => ?_, ?_⟩
    · have heq := hrev₁ hreversed
      exact (hrev₂ (heq ▸ hreversed)).trans heq
    · rw [hsame₂, hsame₁]
  payment := by
    intro id p hp hnot
    obtain ⟨p₁, hp₁, hnot₁, hvoid₁, hsame₁⟩ := h.payment hp hnot
    obtain ⟨p₂, hp₂, hstep⟩ := hc.payment_step hp₁
    obtain ⟨hnot₂, hvoid₂, hsame₂⟩ := hstep.posted_after hnot₁
    refine ⟨p₂, hp₂, hnot₂, fun hvoid => ?_, ?_⟩
    · have heq := hvoid₁ hvoid
      exact (hvoid₂ (heq ▸ hvoid)).trans heq
    · rw [hsame₂, hsame₁]
  document := by
    intro kind id d hd hnot
    obtain ⟨d₁, hd₁, hnot₁, hvoid₁, hnumber₁, href₁, hyear₁, hpartner₁, hentry₁, hposted₁⟩ :=
      h.document hd hnot
    obtain ⟨d₂, hd₂, hstep⟩ := hc.document_step hd₁
    obtain ⟨hnot₂, hvoid₂, hnumber₂, href₂, hyear₂, hpartner₂, hentry₂, hposted₂⟩ :=
      hstep.posted_after hnot₁
    exact ⟨d₂, hd₂, hnot₂, fun hvoid => hvoid₂ (hvoid₁ hvoid), hnumber₂.trans hnumber₁,
      href₂.trans href₁, hyear₂.trans hyear₁, hpartner₂.trans hpartner₁, hentry₂.trans hentry₁,
      hposted₂.trans hposted₁⟩

/-- **The sums of an account only grow**, where what is posted stays. -/
theorem sideOn_le {db : Db} (h : PostedKept s db) (hcoh : Coherent s) (hvalid : LinesValid db)
    {side : JournalLine → ℤ} (hside : ∀ l : JournalLine, l.Valid → 0 ≤ side l) (accountId : Uuid)
    (p : UtcDay → Prop) [DecidablePred p] :
    Db.sideOn s accountId side p ≤ Db.sideOn db accountId side p := by
  refine entries.sum_le_sum _ fun id => ?_
  have hnonneg : 0 ≤ Table.rowTerm (fun _ e => if e.Counts ∧ p e.date then
      JournalEntry.sideOn e accountId side else 0) id (entries.get db id) := by
    cases hget : entries.get db id with
    | none => exact le_rfl
    | some e =>
      rw [Table.rowTerm_some]
      split
      · rename_i hcounts
        refine List.sum_nonneg (List.forall_mem_map.mpr fun l hl => ?_)
        exact hside l (hvalid hget hcounts.1 l (List.mem_of_mem_filter hl))
      · exact le_rfl
  cases hget : entries.get s id with
  | none => exact hnonneg
  | some e =>
    by_cases hcounts : e.Counts ∧ p e.date
    · -- an entry that counts is posted, and counts for the same
      obtain ⟨e', he', -, -, hsame⟩ := h.entry hget fun hdraft =>
        hcounts.1.1 ((hcoh.entry hget).posted.mp hdraft)
      have hget' : entries.get db id = some e' := he'
      have hcounts' : e'.Counts ∧ p e'.date := by
        rw [hsame]
        exact hcounts
      have hlines : e'.lines = e.lines := by rw [hsame]
      rw [hget', Table.rowTerm_some, Table.rowTerm_some, if_pos hcounts, if_pos hcounts',
        JournalEntry.sideOn, JournalEntry.sideOn, hlines]
    · rwa [Table.rowTerm_some, if_neg hcounts]

end PostedKept

/-! ## Days that are closed -/

/-- The entries of the two stores that count on some dates are the same, and have the same lines. -/
structure SameEntries (p : UtcDay → Prop) (s db : Db) : Prop where
  kept : ∀ {id e}, Db.entry s id = some e → e.Counts → p e.date →
    ∃ e', Db.entry db id = some e' ∧ e'.Counts ∧ e'.date = e.date ∧ e'.lines = e.lines
  found : ∀ {id e}, Db.entry db id = some e → e.Counts → p e.date →
    ∃ e', Db.entry s id = some e' ∧ e'.Counts ∧ e'.date = e.date ∧ e'.lines = e.lines

namespace SameEntries

variable {p : UtcDay → Prop} {s t u : Db}

theorem refl (p : UtcDay → Prop) (db : Db) : SameEntries p db db :=
  ⟨fun he hcounts _ => ⟨_, he, hcounts, rfl, rfl⟩, fun he hcounts _ => ⟨_, he, hcounts, rfl, rfl⟩⟩

theorem trans (h : SameEntries p s t) (h' : SameEntries p t u) : SameEntries p s u where
  kept := by
    intro id e he hcounts hp
    obtain ⟨e₁, he₁, hcounts₁, hdate₁, hlines₁⟩ := h.kept he hcounts hp
    obtain ⟨e₂, he₂, hcounts₂, hdate₂, hlines₂⟩ := h'.kept he₁ hcounts₁ (hdate₁ ▸ hp)
    exact ⟨e₂, he₂, hcounts₂, hdate₂.trans hdate₁, hlines₂.trans hlines₁⟩
  found := by
    intro id e he hcounts hp
    obtain ⟨e₁, he₁, hcounts₁, hdate₁, hlines₁⟩ := h'.found he hcounts hp
    obtain ⟨e₂, he₂, hcounts₂, hdate₂, hlines₂⟩ := h.found he₁ hcounts₁ (hdate₁ ▸ hp)
    exact ⟨e₂, he₂, hcounts₂, hdate₂.trans hdate₁, hlines₂.trans hlines₁⟩

variable [DecidablePred p]

theorem sideOn (h : SameEntries p s t) (accountId : Uuid) (side : JournalLine → ℤ) :
    Db.sideOn t accountId side p = Db.sideOn s accountId side p := by
  refine entries.sum_eq_sum _ fun id => ?_
  -- an entry that counts in one of the stores counts for the same in the other
  have hterm : ∀ {db db' : Db}, (∀ {e}, Db.entry db id = some e → e.Counts → p e.date →
      ∃ e', Db.entry db' id = some e' ∧ e'.Counts ∧ e'.date = e.date ∧ e'.lines = e.lines) →
      ∀ e, Db.entry db id = some e → e.Counts ∧ p e.date →
        Table.rowTerm (fun _ e => if e.Counts ∧ p e.date then JournalEntry.sideOn e accountId side
          else 0) id (entries.get db' id) = e.sideOn accountId side := by
    intro db db' hkept e he hcounts
    obtain ⟨e', he', hcounts', hdate, hlines⟩ := hkept he hcounts.1 hcounts.2
    have hget : entries.get db' id = some e' := he'
    rw [hget, Table.rowTerm_some, if_pos ⟨hcounts', hdate ▸ hcounts.2⟩, JournalEntry.sideOn,
      JournalEntry.sideOn, hlines]
  have hzero : ∀ {db : Db}, (∀ e, Db.entry db id = some e → ¬ (e.Counts ∧ p e.date)) →
      Table.rowTerm (fun _ e => if e.Counts ∧ p e.date then JournalEntry.sideOn e accountId side
        else 0) id (entries.get db id) = 0 := by
    intro db hnone
    cases hget : entries.get db id with
    | none => rfl
    | some e => rw [Table.rowTerm_some, if_neg (hnone e hget)]
  by_cases hs : ∃ e, Db.entry s id = some e ∧ (e.Counts ∧ p e.date)
  · obtain ⟨e, he, hcounts⟩ := hs
    have hget : entries.get s id = some e := he
    rw [hterm h.kept e he hcounts, hget, Table.rowTerm_some, if_pos hcounts]
  · have hnone : ∀ e, Db.entry s id = some e → ¬ (e.Counts ∧ p e.date) := fun e he hcounts =>
      hs ⟨e, he, hcounts⟩
    rw [hzero hnone, hzero]
    intro e he hcounts
    obtain ⟨e', he', hcounts', hdate, -⟩ := h.found he hcounts.1 hcounts.2
    exact hnone e' he' ⟨hcounts', hdate ▸ hcounts.2⟩

theorem hasLine (h : SameEntries p s t) (accountId : Uuid) :
    Db.hasLine t accountId p = Db.hasLine s accountId p := by
  rw [Bool.eq_iff_iff, hasLine_iff, hasLine_iff]
  constructor
  · rintro ⟨id, e, he, hcounts, hp, hl⟩
    obtain ⟨e', he', hcounts', hdate, hlines⟩ := h.found he hcounts hp
    exact ⟨id, e', he', hcounts', hdate ▸ hp, hlines ▸ hl⟩
  · rintro ⟨id, e, he, hcounts, hp, hl⟩
    obtain ⟨e', he', hcounts', hdate, hlines⟩ := h.kept he hcounts hp
    exact ⟨id, e', he', hcounts', hdate ▸ hp, hlines ▸ hl⟩

end SameEntries

/-- No period that is open holds one of the days. -/
def DaysClosed (p : UtcDay → Prop) (db : Db) : Prop :=
  ∀ {id q}, Db.period db id = some q → q.status = .opened → ∀ d, p d → ¬ q.Contains d

/-- The commit opens a period that holds one of the days, or brings one into being. -/
def OpensDays (p : UtcDay → Prop) (c : Commit) : Prop := DaysClosed p c.before ∧ ¬ DaysClosed p c.after

/-- The request may open a period. -/
def Request.opensPeriod : Request → Bool
  | .reopenPeriod _ => true
  | .generatePeriods _ _ => true
  | _ => false

/-- The sums over some dates are the same, and the grouped balances where the accounts are. -/
structure SameOver (p : UtcDay → Prop) [DecidablePred p] (s db : Db) : Prop where
  sums : ∀ accountId side, Db.sideOn db accountId side p = Db.sideOn s accountId side p
  rows : Db.accounts db = Db.accounts s → groupedBalances db p = groupedBalances s p

theorem SameEntries.sameOver {p : UtcDay → Prop} [DecidablePred p] {s db : Db}
    (h : SameEntries p s db) : SameOver p s db where
  sums := h.sideOn
  rows := fun haccounts => by
    unfold Balances.groupedBalances
    simp only [haccounts, h.hasLine, h.sideOn]

section Closed

variable {strict : Prop} {c : Commit} {p : UtcDay → Prop}

/-- An entry that a commit posts lies in a period that is open when the transaction commits. -/
theorem Transacts.period_of_posts (hc : Transacts strict c)
    (hseen : ∀ q ∈ c.seen, OfCentury q.2 ∧ Persists q.2 c.before) {id : Uuid} {e : JournalEntry}
    (he : Db.entry c.after id = some e) (hnot : e.status ≠ .draft)
    (hdraft : ∀ e₀, Db.entry c.before id = some e₀ → e₀.status = .draft) :
    ∃ periodId q, Db.period c.before periodId = some q ∧ q.status = .opened ∧ q.Contains e.date := by
  obtain ⟨periodId, _, hposts⟩ := hc.postsEntry he hnot fun e₀ he₀ hnot₀ =>
    absurd (hdraft e₀ he₀) hnot₀
  obtain ⟨_, _, _, hstamp, -⟩ := hposts.stamp
  obtain ⟨q, hq, hopen⟩ := hstamp.period
  obtain ⟨s, hs, q₀, hq₀, -, hstart, hend⟩ := hposts.period
  obtain ⟨hcentury, hpersists⟩ := hseen _ hs
  -- the period has been found with the dates that it still has
  obtain ⟨q', hq', halike⟩ := hpersists.period hq₀
  obtain rfl : q = q' := Option.some.inj ((Option.mem_def.mp hq).symm.trans hq')
  obtain ⟨-, -, -, hstart', hend'⟩ := halike.fields
  have hyear := hcentury.period hq₀
  have hyear' : 2000 ≤ q₀.endDate.year :=
    (hyear.trans (UtcDay.year_le_of_le hstart)).trans (UtcDay.year_le_of_le hend)
  refine ⟨periodId, q, hq', hopen, ?_, ?_⟩
  · rw [hstart']
    exact (truncateToUtcDay_compare hyear (.midnight e.date)).1.mp hstart
  · rw [hend']
    exact (truncateToUtcDay_compare hyear' (.midnight e.date)).2.mp hend

/-- **A commit that finds the days closed** posts nothing on them. -/
theorem Transacts.sameEntries (hc : Transacts strict c) (hcoh : Coherent c.before)
    (hrev : Reversible c.before) (hseen : ∀ q ∈ c.seen, OfCentury q.2 ∧ Persists q.2 c.before)
    (hclosed : DaysClosed p c.before) : SameEntries p c.before c.after where
  kept := by
    intro id e he hcounts _
    obtain ⟨e', he', -, -, hsame⟩ := hc.postedEntry_after hcoh hrev he fun hdraft =>
      hcounts.1 ((hcoh.entry he).posted.mp hdraft)
    exact ⟨e', he', by rw [hsame]; exact hcounts, by rw [hsame], by rw [hsame]⟩
  found := by
    intro id e he hcounts hp
    have hnot : e.status ≠ .draft := fun hdraft =>
      hcounts.1 (((hcoh.after hc).entry he).posted.mp hdraft)
    by_cases hdraft : ∀ e₀, Db.entry c.before id = some e₀ → e₀.status = .draft
    · obtain ⟨_, q, hq, hopen, hcontains⟩ := hc.period_of_posts hseen he hnot hdraft
      exact absurd hcontains (hclosed hq hopen e.date hp)
    · simp only [not_forall] at hdraft
      obtain ⟨e₀, he₀, hnot₀⟩ := hdraft
      obtain ⟨e', he', -, -, hsame⟩ := hc.postedEntry_after hcoh hrev he₀ hnot₀
      obtain rfl : e' = e := Option.some.inj (he'.symm.trans he)
      refine ⟨e₀, he₀, ?_, by rw [hsame], by rw [hsame]⟩
      rw [hsame] at hcounts
      exact hcounts

/-- Only the reopening of a period and the generation of periods open days. -/
theorem Transacts.not_opensDays (hc : Transacts strict c) (hreq : c.req.opensPeriod = false) :
    ¬ OpensDays p c := by
  rintro ⟨hclosed, hnot⟩
  refine hnot fun {id q} hq hopen d hd hcontains => ?_
  cases hb : Db.period c.before id with
  | none =>
    obtain ⟨_, _, _, _, hgenerate, -⟩ := (hc.periodNew hb hq).generated
    rw [hgenerate] at hreq
    cases hreq
  | some q₀ =>
    obtain ⟨q', hq', hnext⟩ := hc.periodNext hb
    obtain rfl : q' = q := Option.some.inj (hq'.symm.trans hq)
    cases hnext with
    | kept => exact hclosed hb hopen d hd hcontains
    | close => cases hopen
    | reopen hreopen =>
      rw [hreopen] at hreq
      cases hreq

end Closed

/-! ## Runs -/

section Runs

variable {policy : Policy Row LockName Query Failure Response Request} {db₀ : Db} {s : Server}

/-- **What is posted stays**, in any interleaving: between any store of a run and its present one no
posted entry, payment or document is lost or changed, and no sum of an account becomes smaller. -/
theorem postedKept_of_reachable (h₀ : Initial db₀) (h : Reachable code policy db₀ s) {t : Db}
    (ht : Past db₀ s.history t) : PostedKept t s.db ∧ SumsGrow t s.db := by
  have hpast := past_of_reachable (I := fun db => Coherent db ∧ Reversible db) (fun _ => True) h
    (fun _ _ => trivial) ⟨h₀.coherent, h₀.reversible⟩
    fun _ hc _ hI _ => ⟨hI.1.after hc, hI.2.after hc⟩
  have hchain := chain_of_reachable h
  obtain ⟨hcoh, hrev⟩ := hpast t ht
  obtain ⟨h₂, h₁, hhistory, hchain₁⟩ := hchain.split_of_past ht
  rw [hhistory] at hchain
  obtain ⟨-, -, hkept⟩ := hchain.since hchain₁
    (I := fun db => Coherent db ∧ Reversible db ∧ PostedKept t db) ⟨hcoh, hrev, .refl t⟩
    fun _ _ hc hI => ⟨hI.1.after hc, hI.2.1.after hc, hI.2.2.after hc hI.1 hI.2.1⟩
  have hvalid := (hpast s.db (chain_of_reachable h).past_self).1.linesValid
  exact ⟨hkept, fun accountId p _ => ⟨hkept.sideOn_le hcoh hvalid (fun l hl => hl.1.1) accountId p,
    hkept.sideOn_le hcoh hvalid (fun l hl => hl.1.2.1) accountId p⟩⟩

/-- **The reports over closed days stand still**, in any interleaving: from a commit that leaves some days
in no open period, until a period that holds one of them is opened or comes into being. -/
theorem closedDays_of_reachable (h₀ : Initial db₀)
    (hperiods : ∀ x ∈ Db.periods db₀, 2000 ≤ x.2.startDate.year) (h : Reachable code policy db₀ s)
    {h₁ h₂ : List Commit} {c : Commit} (hhistory : s.history = h₂ ++ c :: h₁) {p : UtcDay → Prop}
    [DecidablePred p] (hclosed : DaysClosed p c.after) (hopens : ∀ c' ∈ h₂, ¬ OpensDays p c') :
    SameOver p c.after s.db := by
  have hinit : (Coherent db₀ ∧ Reversible db₀) ∧ OfCentury db₀ :=
    ⟨⟨h₀.coherent, h₀.reversible⟩, fun hp => hperiods _ (Db.mem_periods.mpr hp),
      fun he => by rw [h₀.entry] at he; cases he⟩
  have hcommit : ∀ c' ∈ s.history, Transacts False c' ∧ _ ∧ _ := fun c' hc' =>
    commit_of_reachable (I := fun db => (Coherent db ∧ Reversible db) ∧ OfCentury db)
      (fun _ => True) h (fun _ _ => trivial) hinit (fun _ hc _ hI hseen =>
        ⟨⟨hI.1.1.after hc, hI.1.2.after hc⟩, hI.2.after (fun q hq => (hseen q hq).1.2) hc⟩) hc'
  have hchain := chain_of_reachable h
  rw [hhistory] at hchain
  obtain ⟨db₁, hchain₁⟩ := hchain.of_append
  obtain ⟨-, -, -, rfl⟩ := hchain₁.last
  obtain ⟨-, hsame⟩ := hchain.since hchain₁
    (I := fun db => DaysClosed p db ∧ SameEntries p c.after db) ⟨hclosed, .refl p c.after⟩ <| by
    intro c' hc' hguar hI
    obtain ⟨-, ⟨⟨hcoh, hrev⟩, -⟩, hseen⟩ := hcommit c' (by
      rw [hhistory]
      exact List.mem_append_left _ hc')
    refine ⟨?_, hI.2.trans (hguar.sameEntries hcoh hrev (fun q hq =>
      ⟨(hseen q hq).1.2, (hseen q hq).2⟩) hI.1)⟩
    by_contra hnot
    exact hopens c' hc' ⟨hI.1, hnot⟩
  exact hsame.sameOver

end Runs

namespace Sample

/-- A sale that is reversed. -/
def reversedSale : List (Event Request) :=
  request 0 (.createAndPostEntry cashSale 9 100 1) 16 ++ request 1 (.reverseEntry 100 9 101 2) 17

/-- A sale, the close of its period while another sale is being prepared, and a draft. -/
def closedPeriod : List (Event Request) :=
  request 0 (.createAndPostEntry cashSale 9 100 1) 16 ++ .spawn (.createAndPostEntry cashSale 9 101 2) ::
    List.replicate 7 (.step 1) ++ request 2 (.closePeriod 8 9 3) 5 ++ List.replicate 2 (.step 1) ++
    request 3 (.createEntry cashSale 9 102) 4

end Sample

/-- A sale and its reversal: the sale is kept, with the mark. -/
theorem postedKept_of_reachable_reversal :
    (Sample.server Sample.reversedSale).history.length = 2 ∧
      ∀ c ∈ (Sample.server Sample.reversedSale).history,
        PostedKept c.after (Sample.server Sample.reversedSale).db ∧
          SumsGrow c.after (Sample.server Sample.reversedSale).db :=
  ⟨by decide +kernel, fun c hc => postedKept_of_reachable Sample.initial
    (Sample.reachable (by decide +kernel)) (.inr ⟨c, hc, rfl⟩)⟩

/-- The sale that has found the period open is not posted after the close. -/
theorem closedDays_of_reachable_race : ∃ draft close sale : Commit,
    (Sample.server Sample.closedPeriod).history = [draft, close, sale] ∧
      close.req.closedPeriod = some 8 ∧
        SameOver (· ≤ Sample.yearEnd) close.after (Sample.server Sample.closedPeriod).db := by
  have hlength : (Sample.server Sample.closedPeriod).history.length = 3 := by decide +kernel
  obtain ⟨draft, close, sale, hhistory⟩ := List.length_eq_three.mp hlength
  have hclosed : ∀ c ∈ (Sample.server Sample.closedPeriod).history[1]?,
      c.req.closedPeriod = some 8 ∧ ∀ x ∈ Db.periods c.after, x.2.status ≠ .opened := by
    decide +kernel
  have hdraft : ∀ c ∈ (Sample.server Sample.closedPeriod).history[0]?,
      c.req.opensPeriod = false := by
    decide +kernel
  have hreachable : Reachable code (anytime fun _ => True) Sample.db
      (Sample.server Sample.closedPeriod) :=
    Sample.reachable (by decide +kernel)
  have hsplit : (Sample.server Sample.closedPeriod).history = [draft] ++ close :: [sale] := hhistory
  obtain ⟨hguar, -⟩ := commit_of_reachable (fun _ => True) (I := fun _ => True) hreachable
    (fun _ _ => trivial) trivial (fun _ _ _ _ _ => trivial) (hhistory ▸ List.mem_cons_self)
  rw [hhistory] at hclosed hdraft
  obtain ⟨hreq, hall⟩ := hclosed close rfl
  -- where no period is open, no day is in an open one
  exact ⟨draft, close, sale, hhistory, hreq, closedDays_of_reachable Sample.initial
    (by decide +kernel) hreachable hsplit
    (fun hq hopen _ _ => absurd hopen (hall _ (Db.mem_periods.mpr hq)))
    (List.forall_mem_singleton.mpr (hguar.not_opensDays (hdraft draft rfl)))⟩

end AccountingApi
