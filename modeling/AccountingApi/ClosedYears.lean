import AccountingApi.ClosingEntries

/-!
# Postings and closed years

A posting holds the shared lock of its year from the check of the year's record to its commit, and a
close with an entry holds the exclusive one, so that neither overtakes the other. The close of a year
without movement takes no lock: it may commit between the check and the commit of a posting, which
then posts into a closed year.

## Main definitions

* `PostsEntryNew`: the commit inserts or promotes a posted entry
* `PostsIntoOpenYears`: the commit posts into no closed year, unless it reopens it
* `ClosesApart`: no other request holds the year's lock when it is closed without one

## Main results

* `Transacts.postsIntoOpenYears`: every commit, where the closes of years exclude postings
* `postsIntoOpenYears_of_reachable`: the runs whose closes are apart from postings
* `posting_into_closed_year`: a posting that an empty close overtakes
-/

namespace AccountingApi

open ReadCommitted Posting

/-! ## Statements -/

/-- The commit inserts the posted entry, or promotes a draft to it. -/
def PostsEntryNew (c : Commit) (id : Uuid) (e : JournalEntry) : Prop :=
  Db.entry c.after id = some e ∧ e.status ≠ .draft ∧
    ∀ e₀, Db.entry c.before id = some e₀ → e₀.status = .draft

/-- The commit reopens the year, and the entry reverses a closing entry of it. -/
structure ReopensWith (c : Commit) (fiscalYear : ℤ) (e : JournalEntry) : Prop where
  request : ∃ user entryId now, c.req = .reopenYear fiscalYear user entryId now
  reverses : ∃ id o, e.reversalOfId = some id ∧ Db.entry c.before id = some o ∧
    o.sourceType = .closing ∧ o.fiscalYear = some fiscalYear
  opens : ∃ rec, Db.closing c.after fiscalYear = some rec ∧ rec.status = .opened

/-- The commit posts no entry of a year that is closed, but the reversal of the year's closing entry
with which it reopens the year. -/
def PostsIntoOpenYears (c : Commit) : Prop :=
  ∀ id e fiscalYear, PostsEntryNew c id e → e.fiscalYear = some fiscalYear →
    yearIsClosed c.before fiscalYear → ReopensWith c fiscalYear e

/-- A year that the commit's request closes, and that is not closed yet, is closed under its exclusive
lock or while no other request holds that lock. -/
def ClosesApart (c : Commit) : Prop :=
  ∀ fiscalYear ∈ c.req.closesYear, ¬ yearIsClosed c.before fiscalYear →
    (.named (.fiscalYear fiscalYear), .exclusive) ∈ c.locks ∨
      ∀ L ∈ c.others, ∀ l ∈ L, l.1 ≠ .named (.fiscalYear fiscalYear)

instance (c : Commit) : Decidable (ClosesApart c) :=
  inferInstanceAs (Decidable (∀ fiscalYear ∈ c.req.closesYear, _))

/-! ## One commit -/

section Commits

variable {strict : Prop} {c : Commit} {startMonth : StartMonth}

/-- **A year becomes closed by a request that closes it.** -/
theorem Transacts.closesYear_of_closed {fiscalYear : ℤ} (h : Transacts strict c)
    (hbefore : ¬ yearIsClosed c.before fiscalYear) (hafter : yearIsClosed c.after fiscalYear) :
    c.req.closesYear = some fiscalYear := by
  obtain ⟨rec, hrec, hclosed⟩ := hafter
  rcases h.closingNext fiscalYear with hsame | ⟨rec', hrec', hnext⟩
  · exact absurd ⟨rec, hsame ▸ hrec, hclosed⟩ hbefore
  · obtain rfl : rec' = rec := Option.some.inj (hrec'.symm.trans hrec)
    cases hnext with
    | close t hyear =>
      rw [t.req, ← hyear]
      rfl
    | closeEmpty _ _ hyear => exact hyear
    | reopen => cases hclosed
    | reopenEmpty => cases hclosed

/-- A close apart from postings excludes them. -/
theorem ClosesApart.excludesPostings (h : ClosesApart c) (hc : Transacts strict c) :
    ExcludesPostings c := by
  intro fiscalYear hbefore hafter
  refine (h fiscalYear (hc.closesYear_of_closed hbefore hafter) hbefore).imp_right ?_
  exact fun hfree L hL m hmem => hfree L hL _ hmem rfl

/-- The new posted entry of a reopening is the reversal. -/
theorem ReopensYear.eq_of_postsEntryNew (t : ReopensYear strict c) {id : Uuid} {e : JournalEntry}
    (h : PostsEntryNew c id e) : e = t.rev := by
  obtain ⟨he, hnot, hbefore⟩ := h
  have hne : Db.entry c.before id ≠ some e := fun hb => hnot (hbefore e hb)
  rw [entry_after] at he
  have hmem := mem_of_overwrite he hne
  rw [t.writes_entries] at hmem
  simp only [List.mem_cons, List.not_mem_nil, or_false, Prod.mk.injEq] at hmem
  rcases hmem with ⟨-, rfl⟩ | ⟨rfl, -⟩
  · rfl
  · -- the original is posted already
    exact absurd (hbefore t.o t.reversed.original) t.reversed.notDraft

/-- **A commit posts into no closed year**, where the closes of years exclude postings. -/
theorem Transacts.postsIntoOpenYears (h : Transacts True c)
    (hseen : ∀ q ∈ c.seen, ClosingEntries startMonth q.2 ∧ Persists q.2 c.before) :
    PostsIntoOpenYears c := by
  intro id e fiscalYear hnew hyear hclosed
  obtain ⟨periodId, fiscalYear', hposts⟩ := h.postsEntry hnew.1 hnew.2.1 fun e₀ he₀ hnot₀ =>
    absurd (hnew.2.2 e₀ he₀) hnot₀
  obtain rfl : fiscalYear = fiscalYear' := Option.some.inj (hyear.symm.trans hposts.fiscalYear_eq)
  obtain ⟨allow, n, ws, hstamp, hreopens⟩ := hposts.stamp
  cases allow with
  | false => exact absurd hclosed (hstamp.notClosedStrict rfl trivial)
  | true =>
    obtain ⟨t, ht⟩ := hreopens rfl
    obtain ⟨hsame, hcloses⟩ := ClosingEntries.reopened hseen t
    obtain rfl : t.fiscalYear = fiscalYear := hsame.symm.trans ht
    refine ⟨⟨t.user, t.entryId, t.now, t.req⟩, ⟨t.p.originalId, t.o, ?_, t.reversed.original,
      hcloses.sourceType, hcloses.fiscalYear⟩, ?_⟩
    · rw [t.eq_of_postsEntryNew hnew, t.reversed.entry_eq]
      rfl
    · exact ⟨_, t.after_closing, rfl⟩

end Commits

/-! ## Runs -/

section Runs

variable {policy : Policy Row LockName Query Failure Response Request} {db₀ : Db} {s : Server}
  {startMonth : StartMonth}

/-- **Nothing is posted into a closed year**, in any interleaving of requests that keep the start month,
where every close of a year without an entry is apart from the postings of the year. -/
theorem postsIntoOpenYears_of_reachable (h₀ : Initial db₀)
    (hmonth : ∀ settings ∈ Db.settings db₀, settings.fiscalYearStartMonth = startMonth)
    (h : Reachable code policy db₀ s) (hkeeps : ∀ c ∈ s.history, KeepsStartMonth startMonth c)
    (hapart : ∀ c ∈ s.history, ClosesApart c) : ∀ c ∈ s.history, PostsIntoOpenYears c := by
  intro c hc
  have hexcludes : ∀ c ∈ s.history, ExcludesPostings c := fun c hc =>
    (hapart c hc).excludesPostings ((chain_of_reachable h).of_mem Persists.refl
      (fun _ _ _ => Persists.trans) (fun _ hc => hc.persists) hc).1
  have hsound : s.Sound (protocol True) db₀ := sound_of_reachable h fun _ => hexcludes
  obtain ⟨hguar, -, hseen⟩ := hsound.chain.of_mem Persists.refl (fun _ _ _ => Persists.trans)
    (fun _ hc => hc.persists) hc
  have hpast := closingEntries_of_reachable h₀ hmonth h hkeeps
  exact hguar.postsIntoOpenYears fun q hq => (hseen q hq).imp_left (hpast _)

end Runs

namespace Sample

/-- A sale. While another one looks for its period the year is closed, so that it fails; then the year
is reopened. -/
def closedBetween : List (Event Request) :=
  request 0 (.createAndPostEntry cashSale 9 100 1) 16 ++
    .spawn (.createAndPostEntry cashSale 9 101 2) :: List.replicate 5 (.step 1) ++
    request 2 (.closeYear thisYear 9 102 3) 24 ++ List.replicate 3 (.step 1) ++
    request 3 (.reopenYear 2026 9 103 4) 20

/-- A sale that has found the year open when the year, still without movement, is closed. -/
def closedUnder : List (Event Request) :=
  .spawn (.createAndPostEntry cashSale 9 100 1) :: List.replicate 8 (.step 0) ++
    request 1 (.closeYear thisYear 9 101 2) 7 ++ List.replicate 8 (.step 0)

end Sample

/-- A sale, a sale that a close overtakes, and the reopening of the year. -/
theorem postsIntoOpenYears_of_reachable_race :
    (Sample.server Sample.closedBetween).history.length = 3 ∧
      ∀ c ∈ (Sample.server Sample.closedBetween).history, PostsIntoOpenYears c := by
  have hmonth : ∀ settings ∈ Db.settings Sample.db,
      settings.fiscalYearStartMonth = ⟨1, by decide, by decide⟩ := by
    decide
  exact ⟨by decide +kernel, postsIntoOpenYears_of_reachable Sample.initial hmonth
    (Sample.reachable (by decide +kernel)) (by decide +kernel) (by decide +kernel)⟩

/-- **A posting into a closed year**: the sale has read that the year is open and holds its shared lock
when a close without an entry, which takes no lock of the year, commits. -/
theorem posting_into_closed_year : ∃ s c id e fiscalYear,
    Reachable code (anytime fun _ => True) Sample.db s ∧ c ∈ s.history ∧ PostsEntryNew c id e ∧
      e.fiscalYear = some fiscalYear ∧ yearIsClosed c.before fiscalYear ∧
      ¬ ReopensWith c fiscalYear e := by
  have hposts : ∀ c ∈ (Sample.server Sample.closedUnder).history[0]?,
      Db.entry c.before 100 = none ∧ yearIsClosed c.before 2026 ∧ c.req.year = none ∧
        ∃ e ∈ Db.entry c.after 100, e.status ≠ .draft ∧ e.fiscalYear = some 2026 := by
    decide +kernel
  have hlength : (Sample.server Sample.closedUnder).history.length = 2 := by decide +kernel
  obtain ⟨c, close, hhistory⟩ := List.length_eq_two.mp hlength
  rw [hhistory] at hposts
  obtain ⟨hnone, hclosed, hreq, e, he, hnot, hyear⟩ := hposts c rfl
  refine ⟨Sample.server Sample.closedUnder, c, 100, e, 2026, Sample.reachable (by decide +kernel),
    ?_, ⟨he, hnot, fun e₀ he₀ => ?_⟩, hyear, hclosed, fun hreopens => ?_⟩
  · rw [hhistory]
    exact List.mem_cons_self
  · rw [hnone] at he₀
    cases he₀
  · obtain ⟨_, _, _, hreopen⟩ := hreopens.request
    rw [hreopen] at hreq
    cases hreq

end AccountingApi
