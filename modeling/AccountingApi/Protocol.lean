import AccountingApi.Changes.Documents
import AccountingApi.Changes.MasterData
import AccountingApi.Changes.Payments
import AccountingApi.Changes.YearEnds
import AccountingApi.ReadCommitted.Soundness

/-!
# The protocol of the API

Every commit is one of the specified transactions. What a transaction has checked under a lock stays
true until it commits: a locked year does not become closed with an entry, a locked original gets no
reversal, a draft that still is a draft has not changed.

## Main definitions

* `ExcludesPostings`: a commit that closes a year shuts the year's postings out
* `protocol`: the commits of the API, relying on `ExcludesPostings` where `strict`

## Main results

* `notClosedWithEntry_of_drift`, `notClosed_of_drift`, `reversalsOf_of_drift`, `no_period_of_drift`
* `entry_of_drift`, `document_of_drift`, `payment_of_drift`: what drifting does to a row
-/

namespace AccountingApi

open ReadCommitted Posting Relation

/-- Where the commit closes a year, it holds the year's lock exclusively, or no other transaction holds
that lock at all. -/
def ExcludesPostings (c : Commit) : Prop :=
  ∀ fiscalYear, ¬ yearIsClosed c.before fiscalYear → yearIsClosed c.after fiscalYear →
    (.named (.fiscalYear fiscalYear), .exclusive) ∈ c.locks ∨
      ∀ L ∈ c.others, ∀ m, (.named (.fiscalYear fiscalYear), m) ∉ L

/-- The protocol of the API. -/
def protocol (strict : Prop) : Protocol Row LockName Query Request where
  guar := Transacts strict
  rely := fun c => strict → ExcludesPostings c
  late := fun r => ∃ kind id dto collation, r = .updateDocument kind id dto collation

section Drift

variable {strict : Prop} {s db : Db}

/-- A year that is locked, shared or exclusively, does not become closed with an entry. -/
theorem notClosedWithEntry_of_drift {fiscalYear : ℤ} {m : Mode}
    (h : Drift (protocol strict) (some (.named (.fiscalYear fiscalYear), m)) s db)
    (hs : ¬ ClosedWithEntry s fiscalYear) : ¬ ClosedWithEntry db fiscalYear := by
  refine h.keeps (I := fun db => ¬ ClosedWithEntry db fiscalYear) ?_ hs
  rintro _ _ ⟨c, hguar, -, -, hheld, rfl, rfl⟩ hbefore ⟨rec, hrec, hclosed, hentry⟩
  refine hbefore ⟨rec, ?_, hclosed, hentry⟩
  rw [closing_after] at hrec
  have hchange := hguar.closingChange
  generalize closings.writes c.writes = ws at hchange hrec
  -- what closes or reopens a year with an entry holds the lock exclusively
  have hfree : ∀ year, (.named (.fiscalYear year), .exclusive) ∈ c.locks → year ≠ fiscalYear := by
    rintro _ hlock rfl
    have hconf := (hheld _ rfl).2 _ hlock
    simp [Conflicts] at hconf
  cases hchange with
  | none => exact hrec
  | close t => rwa [overwrite_cons, if_neg (hfree _ t.lock)] at hrec
  | reopen t => rwa [overwrite_cons, if_neg (hfree _ t.lock)] at hrec
  | closeEmpty year =>
    by_cases hy : year = fiscalYear
    · rw [overwrite_cons, if_pos hy] at hrec
      cases hrec
      exact absurd rfl hentry
    · rwa [overwrite_cons, if_neg hy] at hrec
  | reopenEmpty year =>
    by_cases hy : year = fiscalYear
    · rw [overwrite_cons, if_pos hy] at hrec
      cases hrec
      cases hclosed
    · rwa [overwrite_cons, if_neg hy] at hrec

/-- A year that is locked is not closed, where every close of it excludes postings. -/
theorem notClosed_of_drift {fiscalYear : ℤ} {m : Mode} (hstrict : strict)
    (h : Drift (protocol strict) (some (.named (.fiscalYear fiscalYear), m)) s db)
    (hs : ¬ yearIsClosed s fiscalYear) : ¬ yearIsClosed db fiscalYear := by
  refine h.keeps (I := fun db => ¬ yearIsClosed db fiscalYear) ?_ hs
  rintro _ _ ⟨c, -, hrely, -, hheld, rfl, rfl⟩ hbefore hafter
  obtain ⟨⟨L, hL, hmem⟩, hconf⟩ := hheld _ rfl
  rcases hrely hstrict fiscalYear hbefore hafter with hlock | hfree
  · have hc := hconf _ hlock
    simp [Conflicts] at hc
  · exact hfree L hL m hmem

/-- The reversals of an entry, as a property of the rows. -/
theorem mem_reversalsOf {db : Db} {id r : Uuid} :
    r ∈ Db.reversalsOf db id ↔ ∃ e, Db.entry db r = some e ∧ e.reversalOfId = some id := by
  rw [Db.reversalsOf, Store.mem_collect]
  constructor
  · rintro ⟨k, v, hv, hr⟩
    cases k <;> simp only [Option.ite_none_right_eq_some, reduceCtorEq] at hr
    obtain ⟨hid, hr⟩ := hr
    cases hr
    exact ⟨v, by simp [Db.entry, Table.get, entries, hv], hid⟩
  · rintro ⟨e, he, hid⟩
    refine ⟨.entry r, e, ?_, if_pos hid⟩
    simpa [Db.entry, Table.get, entries] using he

/-- What an entry reverses never changes. -/
theorem EntryStep.reversalOfId {e e' : JournalEntry} (h : EntryStep e e') :
    e'.reversalOfId = e.reversalOfId := by
  cases h <;> rfl

/-- An entry that is there after a commit was there before with the same `reversalOfId`, or is a
reversal whose original the commit had locked, or reverses nothing. -/
theorem Transacts.reversalOf_after {c : Commit} (h : Transacts strict c) {r : Uuid}
    {e : JournalEntry} (he : Db.entry c.after r = some e) :
    (∃ e₀, Db.entry c.before r = some e₀ ∧ e₀.reversalOfId = e.reversalOfId) ∨
      e.reversalOfId = none ∨
      ∃ id, e.reversalOfId = some id ∧ (.named (.reversalOf id), .exclusive) ∈ c.locks := by
  cases hb : Db.entry c.before r with
  | some e₀ =>
    obtain ⟨e', he', hstep⟩ := h.entry_step hb
    obtain rfl : e = e' := Option.some.inj (he ▸ he')
    exact .inl ⟨e₀, rfl, hstep.reversalOfId.symm⟩
  | none =>
    rcases (h.entryNew hb he).isNew with hnew | ⟨t, -, rfl⟩
    · exact .inr (.inl hnew.reversesNothing)
    · exact .inr (.inr ⟨t.p.originalId, by rw [t.reversed.entry_eq]; rfl, t.reversed.lock⟩)

/-- An entry whose slot in the index of reversals is locked gets no reversal. -/
theorem reversalsOf_of_drift {id : Uuid}
    (h : Drift (protocol strict) (some (.named (.reversalOf id), .exclusive)) s db)
    (hs : Db.reversalsOf s id = []) : Db.reversalsOf db id = [] := by
  refine h.keeps (I := fun db => Db.reversalsOf db id = []) ?_ hs
  rintro _ _ ⟨c, hguar, -, -, hheld, rfl, rfl⟩ hbefore
  refine List.eq_nil_iff_forall_not_mem.mpr fun r hr => ?_
  obtain ⟨e, he, hid⟩ := mem_reversalsOf.mp hr
  rcases hguar.reversalOf_after he with ⟨e₀, he₀, hsame⟩ | hnone | ⟨id', hid', hlock⟩
  · have hmem : r ∈ Db.reversalsOf c.before id := mem_reversalsOf.mpr ⟨e₀, he₀, hsame.trans hid⟩
    rw [hbefore] at hmem
    cases hmem
  · rw [hid] at hnone
    cases hnone
  · obtain rfl : id = id' := Option.some.inj (hid.symm.trans hid')
    have hconf := (hheld _ rfl).2 _ hlock
    simp [Conflicts] at hconf

/-! ## Periods -/

section Periods

variable {buf : List (Write Row)} {id : Uuid} {p : AccountingPeriod}

theorem period_putAll (db : Db) (ws : List (Write Row)) (id : Uuid) :
    Db.period (db.putAll ws) id = overwrite id (Db.period db id) (periods.writes ws) :=
  periods.get_putAll db ws id

/-- A period drifts in its status only, under what a transaction has written. -/
theorem period_of_drift {h : Option (Held Key LockName)} (hd : Drift (protocol strict) h s db)
    (hp : Db.period (s.putAll buf) id = some p) :
    ∃ p', Db.period (db.putAll buf) id = some p' ∧ p.Alike p' := by
  refine hd.keeps (I := fun db => ∃ p', Db.period (db.putAll buf) id = some p' ∧ p.Alike p') ?_
    ⟨p, hp, .refl p⟩
  rintro _ _ ⟨c, hguar, -, -, -, rfl, rfl⟩ ⟨p₁, hp₁, halike⟩
  rw [period_putAll] at hp₁ ⊢
  rcases overwrite_cases id (periods.writes buf) with hkept | ⟨v, hv⟩
  · rw [hkept] at hp₁ ⊢
    obtain ⟨p₂, hp₂, hnext⟩ := hguar.periodNext hp₁
    exact ⟨p₂, hp₂, halike.trans hnext.alike⟩
  · rw [hv] at hp₁ ⊢
    exact ⟨p₁, hp₁, halike⟩

/-- Where the lock of an index entry is held, no period of that entry comes into being. -/
theorem no_period_of_drift {a : LockName} {Q : AccountingPeriod → Prop}
    (hQ : ∀ p p', p.Alike p' → Q p' → Q p)
    (hlock : ∀ c p, PeriodNew c p → Q p → (.named a, .exclusive) ∈ c.locks)
    (hd : Drift (protocol strict) (some (.named a, .exclusive)) s db)
    (hs : ∀ id p, Db.period (s.putAll buf) id = some p → ¬ Q p) :
    ∀ id p, Db.period (db.putAll buf) id = some p → ¬ Q p := by
  refine hd.keeps (I := fun db => ∀ id p, Db.period (db.putAll buf) id = some p → ¬ Q p) ?_ hs
  rintro _ _ ⟨c, hguar, -, -, hheld, rfl, rfl⟩ hbefore id p hp hq
  have hbefore := hbefore id
  rw [period_putAll] at hp hbefore
  rcases overwrite_cases id (periods.writes buf) with hkept | ⟨v, hv⟩
  · rw [hkept] at hp hbefore
    cases hb : Db.period c.before id with
    | some p₀ =>
      obtain ⟨p', hp', hnext⟩ := hguar.periodNext hb
      obtain rfl : p = p' := Option.some.inj (hp ▸ hp')
      exact hbefore p₀ hb (hQ p₀ p hnext.alike hq)
    | none =>
      have hconf := (hheld _ rfl).2 _ (hlock c p (hguar.periodNew hb hp) hq)
      simp [Conflicts] at hconf
  · rw [hv] at hp hbefore
    exact hbefore p hp hq

end Periods

/-! ## Rows -/

/-- A journal entry drifts by steps. -/
theorem entry_of_drift {h : Option (Held Key LockName)} (hd : Drift (protocol strict) h s db)
    {id : Uuid} {e : JournalEntry} (he : Db.entry s id = some e) :
    ∃ e', Db.entry db id = some e' ∧ ReflTransGen EntryStep e e' := by
  refine hd.keeps (I := fun db => ∃ e', Db.entry db id = some e' ∧ ReflTransGen EntryStep e e') ?_
    ⟨e, he, .refl⟩
  rintro _ _ ⟨c, hguar, -, -, -, rfl, rfl⟩ ⟨e₁, he₁, hsteps⟩
  obtain ⟨e₂, he₂, hstep⟩ := hguar.entry_step he₁
  exact ⟨e₂, he₂, hsteps.tail hstep⟩

/-- A document drifts by steps. -/
theorem document_of_drift {h : Option (Held Key LockName)} (hd : Drift (protocol strict) h s db)
    {kind : DocumentKind} {id : Uuid} {d : Document} (he : Db.document s kind id = some d) :
    ∃ d', Db.document db kind id = some d' ∧ ReflTransGen DocumentStep d d' := by
  refine hd.keeps
    (I := fun db => ∃ d', Db.document db kind id = some d' ∧ ReflTransGen DocumentStep d d') ?_
    ⟨d, he, .refl⟩
  rintro _ _ ⟨c, hguar, -, -, -, rfl, rfl⟩ ⟨d₁, hd₁, hsteps⟩
  obtain ⟨d₂, hd₂, hstep⟩ := hguar.document_step hd₁
  exact ⟨d₂, hd₂, hsteps.tail hstep⟩

/-- A payment drifts by steps. -/
theorem payment_of_drift {h : Option (Held Key LockName)} (hd : Drift (protocol strict) h s db)
    {id : Uuid} {p : Payment} (hp : Db.payment s id = some p) :
    ∃ p', Db.payment db id = some p' ∧ ReflTransGen PaymentStep p p' := by
  refine hd.keeps (I := fun db => ∃ p', Db.payment db id = some p' ∧ ReflTransGen PaymentStep p p')
    ?_ ⟨p, hp, .refl⟩
  rintro _ _ ⟨c, hguar, -, -, -, rfl, rfl⟩ ⟨p₁, hp₁, hsteps⟩
  obtain ⟨p₂, hp₂, hstep⟩ := hguar.payment_step hp₁
  exact ⟨p₂, hp₂, hsteps.tail hstep⟩

/-- A posted entry keeps everything but its status and the mark of its reversal. -/
theorem posted_of_entrySteps {e e' : JournalEntry} (h : ReflTransGen EntryStep e e')
    (he : e.status ≠ .draft) (hlive : e.deletedAt = none) :
    e'.status ≠ .draft ∧ e'.deletedAt = none ∧
      e' = { e with status := e'.status, reversedById := e'.reversedById } := by
  induction h with
  | refl => exact ⟨he, hlive, rfl⟩
  | tail _ hstep ih =>
    obtain ⟨hs, hl, heq⟩ := ih
    cases hstep with
    | refl => exact ⟨hs, hl, heq⟩
    | promote number ref fiscalYear periodId user now hdraft => exact absurd hdraft hs
    | reverse reversalId _ _ => exact ⟨by simp [markReversed], hl, by rw [heq]; rfl⟩
    | delete now user hdraft => exact absurd hdraft hs

/-- An entry that still is a live draft has not changed. -/
theorem eq_of_entrySteps {e e' : JournalEntry} (h : ReflTransGen EntryStep e e')
    (he : e'.status = .draft) (hlive : e'.deletedAt = none) : e' = e := by
  induction h with
  | refl => rfl
  | tail hsteps hstep ih =>
    cases hstep with
    | refl => exact ih he hlive
    | promote => cases he
    | reverse => cases he
    | delete => cases hlive

/-- A payment that still is a live draft has not changed. -/
theorem eq_of_paymentSteps {p p' : Payment} (h : ReflTransGen PaymentStep p p')
    (hp : p'.status = .draft) (hlive : p'.deletedAt = none) : p' = p := by
  induction h with
  | refl => rfl
  | tail hsteps hstep ih =>
    cases hstep with
    | refl => exact ih hp hlive
    | post => cases hp
    | void => cases hp
    | delete => cases hlive

/-- A posted payment stays as it is until it is void. -/
theorem eq_or_void_of_paymentSteps {p p' : Payment} (h : ReflTransGen PaymentStep p p')
    (hp : p.status = .posted) : p' = p ∨ p'.status = .void := by
  induction h with
  | refl => exact .inl rfl
  | tail hsteps hstep ih =>
    rcases ih with rfl | hvoid
    · cases hstep with
      | refl => exact .inl rfl
      | post _ _ _ _ _ _ hdraft => rw [hp] at hdraft; cases hdraft
      | void => exact .inr rfl
      | delete _ _ hdraft => rw [hp] at hdraft; cases hdraft
    · cases hstep with
      | refl => exact .inr hvoid
      | post _ _ _ _ _ _ hdraft => rw [hvoid] at hdraft; cases hdraft
      | void hposted => rw [hvoid] at hposted; cases hposted
      | delete _ _ hdraft => rw [hvoid] at hdraft; cases hdraft

/-- A payment that is no draft stays so and is not deleted. -/
theorem live_of_paymentSteps {p p' : Payment} (h : ReflTransGen PaymentStep p p')
    (hp : p.status ≠ .draft) (hlive : p.deletedAt = none) :
    p'.status ≠ .draft ∧ p'.deletedAt = none := by
  induction h with
  | refl => exact ⟨hp, hlive⟩
  | tail _ hstep ih =>
    obtain ⟨hs, hl⟩ := ih
    cases hstep with
    | refl => exact ⟨hs, hl⟩
    | post _ _ _ _ _ _ hdraft => exact absurd hdraft hs
    | void => exact ⟨by simp [Payments.markVoid], hl⟩
    | delete _ _ hdraft => exact absurd hdraft hs

/-- A document that is no draft stays so and is not deleted. -/
theorem live_of_documentSteps {d d' : Document} (h : ReflTransGen DocumentStep d d')
    (hd : d.status ≠ .draft) (hlive : d.deletedAt = none) :
    d'.status ≠ .draft ∧ d'.deletedAt = none := by
  induction h with
  | refl => exact ⟨hd, hlive⟩
  | tail _ hstep ih =>
    obtain ⟨hs, hl⟩ := ih
    cases hstep with
    | refl => exact ⟨hs, hl⟩
    | edit => exact ⟨hs, hl⟩
    | post _ _ _ _ _ _ _ hdraft => exact absurd hdraft hs
    | pay => exact ⟨hs, hl⟩
    | void => exact ⟨by simp [TaxedDocument.markVoid], hl⟩
    | delete _ _ hdraft => exact absurd hdraft hs

end Drift

end AccountingApi
