import AccountingApi.Cancellation.Chain
import AccountingApi.Links

/-!
# Reversals and balances

The balances sum every posted entry, the reversed ones and the reversals included. A reversal has the
lines of its original with debit and credit swapped, on the same date, so the two cancel at every date.
What the balances add up to is therefore the posted entries that reverse nothing and are reversed an
even number of times: a reversal takes an entry away, and the reversal of the reversal brings it back.

## Main definitions

* `Db.origin`: the entry itself, or the one it reverses
* `Db.Live`: an entry that reverses nothing and is reversed an even number of times
* `Db.liveSideOn`, `Balances.liveBalance`: the sums and the balance over these entries only
* `Mirrored`: reversals have swapped lines and the date of their originals, and chains of them end
* `BalancesLive`: the balances the service computes are those of the live entries
* `ReversalsCancel`: what a reversal does to the balances

## Main results

* `netOn_eq_liveNetOn`: all entries and the live ones have the same net
* `balances_of_reachable`: in every reachable state, and for every reversal of a run
-/

namespace AccountingApi

open ReadCommitted Posting Relation

/-! ## Live entries -/

/-- The reversal of an entry. -/
def Db.reversal (db : Db) (id : Uuid) : Option Uuid := (Db.entry db id).bind (·.reversedById)

/-- The entry itself, or the one it reverses. -/
def Db.origin (db : Db) (e : JournalEntry) : JournalEntry :=
  (e.reversalOfId.bind (Db.entry db)).getD e

/-- A posted entry that reverses nothing is live when the chain of reversals that starts at it has even
length. -/
def Db.Live (db : Db) (id : Uuid) (e : JournalEntry) : Prop :=
  e.Counts ∧ e.reversalOfId = none ∧ Cancellation.Stands (Db.reversal db) id

/-- The debits of the entry on an account less its credits. -/
def JournalEntry.net (e : JournalEntry) (accountId : Uuid) : ℤ :=
  e.sideOn accountId (·.debit) - e.sideOn accountId (·.credit)

theorem origin_of_none {db : Db} {e : JournalEntry} (h : e.reversalOfId = none) :
    Db.origin db e = e := by
  rw [Db.origin, h]
  rfl

theorem origin_of_some {db : Db} {e e₀ : JournalEntry} {o : Uuid} (h : e.reversalOfId = some o)
    (he₀ : Db.entry db o = some e₀) : Db.origin db e = e₀ := by
  rw [Db.origin, h, Option.bind_some, he₀]
  rfl

section Live

variable (db : Db) (accountId : Uuid) (p : UtcDay → Prop)

open scoped Classical in
/-- The sum of one side of an account over the live entries whose date satisfies `p`. -/
noncomputable def Db.liveSideOn (side : JournalLine → ℤ) : ℤ :=
  entries.sum (fun id e => if Db.Live db id e ∧ p e.date then e.sideOn accountId side else 0) db

/-- The balance of an account over the live entries whose date satisfies `p`. -/
noncomputable def Balances.liveBalance (normalBalance : NormalBalance) : ℤ :=
  Balances.signedNet normalBalance (Db.liveSideOn db accountId p (·.debit))
    (Db.liveSideOn db accountId p (·.credit))

/-- The net of an account over the live entries. -/
noncomputable def Db.liveNetOn : ℤ :=
  Db.liveSideOn db accountId p (·.debit) - Db.liveSideOn db accountId p (·.credit)

/-- The net of an account over the counting entries. -/
def Db.netOn [DecidablePred p] : ℤ :=
  Db.sideOn db accountId (·.debit) p - Db.sideOn db accountId (·.credit) p

end Live

/-- The balance on the normal side depends on the net only. -/
theorem Balances.signedNet_congr {debit credit debit' credit' : ℤ}
    (h : debit - credit = debit' - credit') (normalBalance : NormalBalance) :
    Balances.signedNet normalBalance debit credit =
      Balances.signedNet normalBalance debit' credit' := by
  cases normalBalance with
  | debit => exact congrArg (Decimals.toSignificant _) h
  | credit =>
    have h' : credit - debit = credit' - debit' := by omega
    exact congrArg (Decimals.toSignificant _) h'

/-! ## The net as a sum over the entries -/

section Sums

variable {db : Db} {accountId : Uuid} {p : UtcDay → Prop}

/-- What an entry adds to the net of an account over some dates. -/
def JournalEntry.netWhere (e : JournalEntry) (accountId : Uuid) (p : UtcDay → Prop)
    [DecidablePred p] : ℤ :=
  if e.Counts ∧ p e.date then e.net accountId else 0

/-- The net over the entries that satisfy a predicate, as a finite sum. -/
theorem sum_sideOn_sub (P : Uuid → JournalEntry → Prop) [∀ id e, Decidable (P id e)] :
    entries.sum (fun id e => if P id e then e.sideOn accountId (·.debit) else 0) db -
        entries.sum (fun id e => if P id e then e.sideOn accountId (·.credit) else 0) db =
      ∑ id ∈ entries.indices db, Table.rowTerm (fun id e => if P id e then e.net accountId else 0)
        id (Db.entry db id) := by
  rw [Table.sum_eq_sum_indices, Table.sum_eq_sum_indices, ← Finset.sum_sub_distrib]
  refine Finset.sum_congr rfl fun id _ => ?_
  change Table.rowTerm _ id (Db.entry db id) - Table.rowTerm _ id (Db.entry db id) = _
  cases Db.entry db id with
  | none => rfl
  | some e =>
    simp only [Table.rowTerm_some, JournalEntry.net]
    split <;> rfl

theorem netOn_eq_sum [DecidablePred p] : Db.netOn db accountId p =
    ∑ id ∈ entries.indices db,
      Table.rowTerm (fun _ e => JournalEntry.netWhere e accountId p) id (Db.entry db id) :=
  sum_sideOn_sub fun _ e => e.Counts ∧ p e.date

open scoped Classical in
theorem liveNetOn_eq_sum : Db.liveNetOn db accountId p =
    ∑ id ∈ entries.indices db, Table.rowTerm
      (fun id e => if Db.Live db id e ∧ p e.date then e.net accountId else 0) id
      (Db.entry db id) :=
  sum_sideOn_sub fun id e => Db.Live db id e ∧ p e.date

end Sums

/-! ## Reversals as cancellations -/

/-- A reversal has the date of its original and its lines with debit and credit swapped, neither of
the two is a draft, and the chains of reversals end. -/
structure Mirrored (db : Db) : Prop where
  date : ∀ {o e r e'}, Db.entry db o = some e → e.reversedById = some r →
    Db.entry db r = some e' → e'.date = e.date
  lines : ∀ {o e r e'}, Db.entry db o = some e → e.reversedById = some r →
    Db.entry db r = some e' → e'.lines = e.lines.map swapLine
  posted : ∀ {r e}, Db.entry db r = some e → e.reversalOfId ≠ none → e.status ≠ .draft
  ends : ∀ id, ∃ n, Cancellation.Length (Db.reversal db) id n

theorem JournalEntry.sideOn_swap {e e' : JournalEntry} (h : e'.lines = e.lines.map swapLine)
    (accountId : Uuid) : e'.sideOn accountId (·.debit) = e.sideOn accountId (·.credit) ∧
      e'.sideOn accountId (·.credit) = e.sideOn accountId (·.debit) := by
  simp only [JournalEntry.sideOn, h, List.filter_map, List.map_map]
  exact ⟨rfl, rfl⟩

/-- A reversal has the opposite net. -/
theorem JournalEntry.net_swap {e e' : JournalEntry} (h : e'.lines = e.lines.map swapLine)
    (accountId : Uuid) : e'.net accountId = -e.net accountId := by
  obtain ⟨hdebit, hcredit⟩ := JournalEntry.sideOn_swap h accountId
  rw [JournalEntry.net, JournalEntry.net, hdebit, hcredit, neg_sub]

theorem Coherent.counts {db : Db} (h : Coherent db) {id : Uuid} {e : JournalEntry}
    (he : Db.entry db id = some e) (hnot : e.status ≠ .draft) : e.Counts :=
  ⟨fun hnone => hnot ((h.entry he).posted.mpr hnone), (h.entry he).live hnot⟩

theorem reversal_eq_some {db : Db} {o r : Uuid} :
    Db.reversal db o = some r ↔ ∃ e, Db.entry db o = some e ∧ e.reversedById = some r :=
  Option.bind_eq_some_iff

section Net

variable {db : Db} (hcoh : Coherent db) (hrev : Reversible db) (hmir : Mirrored db)
include hcoh hrev hmir

/-- A reversal takes away what its original adds, whatever the dates. -/
theorem netWhere_reversal {o r : Uuid} {e e' : JournalEntry} (he : Db.entry db o = some e)
    (hr : e.reversedById = some r) (he' : Db.entry db r = some e') (accountId : Uuid)
    (p : UtcDay → Prop) [DecidablePred p] : e'.netWhere accountId p = -e.netWhere accountId p := by
  obtain ⟨e₁, he₁, ho⟩ := hrev.reversal he hr
  obtain rfl : e' = e₁ := Option.some.inj (he' ▸ he₁)
  have hcounts : e.Counts := by
    refine hcoh.counts he fun hdraft => ?_
    have hreversed := (hcoh.entry he).reversed.mpr (by rw [hr]; exact nofun)
    cases hdraft.symm.trans hreversed
  have hcounts' : e'.Counts := hcoh.counts he' (hmir.posted he' (by rw [ho]; exact nofun))
  simp only [JournalEntry.netWhere, hcounts, hcounts', hmir.date he hr he', true_and]
  split
  · exact JournalEntry.net_swap (hmir.lines he hr he') accountId
  · rfl

/-- **All entries and the live ones have the same net**, on every account and over any dates. -/
theorem netOn_eq_liveNetOn (accountId : Uuid) (p : UtcDay → Prop) [DecidablePred p] :
    Db.netOn db accountId p = Db.liveNetOn db accountId p := by
  have hmem : ∀ {id e}, Db.entry db id = some e → id ∈ entries.indices db := fun he =>
    entries.mem_indices.mpr (by change Db.entry db _ ≠ none; rw [he]; exact nofun)
  have hends : ∀ id ∈ entries.indices db, ∃ n, Cancellation.Length (Db.reversal db) id n :=
    fun id _ => hmir.ends id
  rw [netOn_eq_sum, liveNetOn_eq_sum, Cancellation.sum_eq_sum_standing hends]
  · refine Finset.sum_congr rfl fun id _ => ?_
    cases he : Db.entry db id with
    | none => simp
    | some e =>
      have hfirst : (∀ o ∈ entries.indices db, Db.reversal db o ≠ some id) ↔
          e.reversalOfId = none := by
        constructor
        · intro h
          by_contra hne
          obtain ⟨o, ho⟩ := Option.ne_none_iff_exists'.mp hne
          obtain ⟨e₀, he₀, hr⟩ := hrev.original he ho
          exact h o (hmem he₀) (reversal_eq_some.mpr ⟨e₀, he₀, hr⟩)
        · intro hnone o _ ho
          obtain ⟨e₀, he₀, hr⟩ := reversal_eq_some.mp ho
          obtain ⟨e₁, he₁, ho⟩ := hrev.reversal he₀ hr
          obtain rfl : e = e₁ := Option.some.inj (he ▸ he₁)
          rw [hnone] at ho
          cases ho
      have hlive : ((∀ o ∈ entries.indices db, Db.reversal db o ≠ some id) ∧
          Cancellation.Stands (Db.reversal db) id) ∧ e.Counts ∧ p e.date ↔
            Db.Live db id e ∧ p e.date := by
        rw [hfirst, Db.Live]
        tauto
      simp only [Table.rowTerm_some, JournalEntry.netWhere, ← ite_and]
      by_cases h : Db.Live db id e ∧ p e.date
      · rw [if_pos (hlive.mpr h), if_pos h]
      · rw [if_neg fun hand => h (hlive.mp hand), if_neg h]
  · intro o _ r ho
    obtain ⟨e, he, hr⟩ := reversal_eq_some.mp ho
    obtain ⟨e', he', -⟩ := hrev.reversal he hr
    exact hmem he'
  · intro o _ o' _ r ho ho'
    obtain ⟨e, he, hr⟩ := reversal_eq_some.mp ho
    obtain ⟨e', he', hr'⟩ := reversal_eq_some.mp ho'
    obtain ⟨rev, hrev₁, horig⟩ := hrev.reversal he hr
    obtain ⟨rev', hrev₂, horig'⟩ := hrev.reversal he' hr'
    obtain rfl : rev = rev' := Option.some.inj (hrev₁ ▸ hrev₂)
    exact Option.some.inj (horig ▸ horig')
  · intro o _ r ho
    obtain ⟨e, he, hr⟩ := reversal_eq_some.mp ho
    obtain ⟨e', he', -⟩ := hrev.reversal he hr
    rw [he, he']
    exact netWhere_reversal hcoh hrev hmir he hr he' accountId p

end Net

/-! ## Steps -/

theorem EntryStep.notDraft {e e' : JournalEntry} (h : EntryStep e e') (hnot : e.status ≠ .draft) :
    e'.status ≠ .draft := by
  cases h with
  | refl => exact hnot
  | promote _ _ _ _ _ _ hdraft => exact absurd hdraft hnot
  | reverse => exact nofun
  | delete _ _ hdraft => exact absurd hdraft hnot

section Steps

variable {strict : Prop} {c : Commit}

/-- The reversal of an entry that is reversed before the commit is kept. An entry becomes reversed by a
commit that creates the reversal, of which there is no reversal yet. -/
theorem Transacts.reversal_after (hc : Transacts strict c) (hrev : Reversible c.before) (id : Uuid) :
    Db.reversal c.after id = Db.reversal c.before id ∨
      ∃ t : ReversesEntry strict c, t.p.originalId = id ∧ Db.reversal c.before id = none ∧
        Db.reversal c.after id = some t.id ∧ Db.reversal c.after t.id = none := by
  unfold Db.reversal
  cases hb : Db.entry c.before id with
  | none =>
    refine .inl ?_
    cases ha : Db.entry c.after id with
    | none => rfl
    | some e =>
      rcases (hc.entryNew hb ha).isNew with hnew | ⟨t, -, rfl⟩
      · exact hnew.unmarked
      · rw [t.reversed.entry_eq]
        rfl
  | some e =>
    obtain ⟨e', he', hnext⟩ := hc.entryNext hb
    rw [he']
    cases hnext with
    | step _ hsame => exact .inl hsame
    | reverse t hid ho =>
      refine .inr ⟨t, hid, ?_, rfl, ?_⟩
      · -- the commit has found no reversal of the entry
        by_contra hne
        obtain ⟨r, hr⟩ := Option.ne_none_iff_exists'.mp hne
        obtain ⟨e₁, he₁, horig⟩ := hrev.reversal hb hr
        have hmem : r ∈ Db.reversalsOf c.before t.p.originalId :=
          mem_reversalsOf.mpr ⟨e₁, he₁, hid ▸ horig⟩
        rw [t.reversed.first] at hmem
        cases hmem
      · rw [t.after_reversal, t.reversed.entry_eq]
        rfl

/-- The chain of reversals of an entry still ends after the commit. -/
theorem Transacts.ends_after (hc : Transacts strict c) (hrev : Reversible c.before) {id : Uuid} {n : ℕ}
    (h : Cancellation.Length (Db.reversal c.before) id n) :
    ∃ m, Cancellation.Length (Db.reversal c.after) id m := by
  induction h with
  | @last id hnone =>
    rcases hc.reversal_after hrev id with hsame | ⟨t, -, -, hnext, hlast⟩
    · exact ⟨0, .last (hsame.trans hnone)⟩
    · exact ⟨1, .cons hnext (.last hlast)⟩
  | @cons id r n hsome _ ih =>
    obtain ⟨m, hm⟩ := ih
    rcases hc.reversal_after hrev id with hsame | ⟨t, -, hnone, -, -⟩
    · exact ⟨m + 1, .cons (hsame.trans hsome) hm⟩
    · rw [hnone] at hsome
      cases hsome

/-- The reversal a commit creates has the date of its original and its lines swapped. -/
theorem ReversesEntry.mirrors (t : ReversesEntry strict c) :
    t.rev.date = t.o.date ∧ t.rev.lines = t.o.lines.map swapLine := by
  rw [t.reversed.entry_eq, t.reversed.same]
  exact ⟨t.dated, rfl⟩

/-- **A commit keeps reversals matched with their originals.** -/
theorem Mirrored.after (h : Mirrored c.before) (hrev : Reversible c.before)
    (hc : Transacts strict c) : Mirrored c.after := by
  -- an original and its reversal were both there before, or the commit has created the reversal
  have hpair : ∀ {o e r e'}, Db.entry c.after o = some e → e.reversedById = some r →
      Db.entry c.after r = some e' → e'.date = e.date ∧ e'.lines = e.lines.map swapLine := by
    intro o e r e' he hr he'
    cases hb : Db.entry c.before o with
    | none =>
      have hnone : e.reversedById = none := by
        rcases (hc.entryNew hb he).isNew with hnew | ⟨t, -, rfl⟩
        · exact hnew.unmarked
        · rw [t.reversed.entry_eq]
          rfl
      cases hnone.symm.trans hr
    | some e₀ =>
      obtain ⟨e₁, he₁, hnext⟩ := hc.entryNext hb
      obtain rfl : e = e₁ := Option.some.inj (he ▸ he₁)
      cases hnext with
      | step hstep hmark =>
        have hr₀ := hmark.symm.trans hr
        obtain ⟨rev₀, hrev₀, -⟩ := hrev.reversal hb hr₀
        obtain ⟨rev, hrev₁, hrevstep⟩ := hc.entry_step hrev₀
        obtain rfl : e' = rev := Option.some.inj (he' ▸ hrev₁)
        rw [hrevstep.lines.1, hrevstep.lines.2, hstep.lines.1, hstep.lines.2]
        exact ⟨h.date hb hr₀ hrev₀, h.lines hb hr₀ hrev₀⟩
      | reverse t hid ho =>
        cases hr
        obtain rfl : e' = t.rev := Option.some.inj (he' ▸ t.after_reversal)
        subst ho
        exact t.mirrors
  refine ⟨fun he hr he' => (hpair he hr he').1, fun he hr he' => (hpair he hr he').2, ?_, ?_⟩
  · intro r e he hne
    cases hb : Db.entry c.before r with
    | none =>
      rcases (hc.entryNew hb he).isNew with hnew | ⟨t, -, rfl⟩
      · exact absurd hnew.reversesNothing hne
      · rw [t.reversed.entry_eq]
        exact nofun
    | some e₀ =>
      obtain ⟨e₁, he₁, hstep⟩ := hc.entry_step hb
      obtain rfl : e = e₁ := Option.some.inj (he ▸ he₁)
      exact hstep.notDraft (h.posted hb (hstep.reversalOfId ▸ hne))
  · intro id
    obtain ⟨n, hn⟩ := h.ends id
    exact hc.ends_after hrev hn

end Steps

theorem Initial.mirrored {db : Db} (h : Initial db) : Mirrored db where
  date := fun he => by rw [h.entry] at he; cases he
  lines := fun he => by rw [h.entry] at he; cases he
  posted := fun he => by rw [h.entry] at he; cases he
  ends := fun id => ⟨0, .last (by rw [Db.reversal, h.entry]; rfl)⟩

/-! ## What a reversal does to the balances -/

section Cancels

variable {strict : Prop} {c : Commit}

/-- A commit that reverses an entry takes the entry's net away. -/
theorem ReversesEntry.netOn_after (t : ReversesEntry strict c) (hcoh : Coherent c.before)
    (accountId : Uuid) (p : UtcDay → Prop) [DecidablePred p] :
    Db.netOn c.after accountId p =
      Db.netOn c.before accountId p - if p t.o.date then t.o.net accountId else 0 := by
  have hne : t.id ≠ t.p.originalId := by
    intro hid
    have horig := t.reversed.original
    rw [← hid, t.reversed.fresh] at horig
    cases horig
  have hsum : ∀ side : JournalLine → ℤ, Db.sideOn c.after accountId side p =
      Db.sideOn c.before accountId side p +
        if p t.o.date then t.rev.sideOn accountId side else 0 := by
    intro side
    have hpair := entries.sum_putAll_of_pair
      (fun _ e => if e.Counts ∧ p e.date then e.sideOn accountId side else 0) c.before t.writes hne
    have hfresh : entries.get c.before t.id = none := t.reversed.fresh
    have horig : entries.get c.before t.p.originalId = some t.o := t.reversed.original
    have hcounts : t.o.Counts := hcoh.counts horig t.reversed.notDraft
    have hmarked : (markReversed t.id t.o).Counts := hcounts
    have hrev : t.rev.Counts := by
      rw [t.reversed.entry_eq]
      exact ⟨nofun, rfl⟩
    simp only [hfresh, horig, Table.rowTerm_none, Table.rowTerm_some, hcounts, hmarked, hrev,
      t.mirrors.1, true_and, zero_add] at hpair
    change Db.sideOn c.after accountId side p + _ = Db.sideOn c.before accountId side p + _ at hpair
    change _ = _ + (_ + if p t.o.date then t.o.sideOn accountId side else 0) at hpair
    linarith
  obtain ⟨hdebit, hcredit⟩ := JournalEntry.sideOn_swap t.mirrors.2 accountId
  rw [Db.netOn, Db.netOn, hsum, hsum, hdebit, hcredit, JournalEntry.net]
  split
  · ring
  · ring

end Cancels

/-- **What a reversal does to the balances.** The commit that reverses an entry takes away what the entry
adds to the net of any account over any dates. If the entry is itself the reversal of another one, this
brings back what that one adds. -/
structure ReversalsCancel (c : Commit) : Prop where
  cancels : ∀ {o e e'}, Db.entry c.before o = some e → e.reversedById = none →
    Db.entry c.after o = some e' → e'.reversedById ≠ none →
    ∀ (accountId : Uuid) (p : UtcDay → Prop) [DecidablePred p], Db.netOn c.after accountId p =
      Db.netOn c.before accountId p - if p e.date then e.net accountId else 0
  restores : ∀ {o e e' o₀ e₀}, Db.entry c.before o = some e → e.reversedById = none →
    Db.entry c.after o = some e' → e'.reversedById ≠ none →
    e.reversalOfId = some o₀ → Db.entry c.before o₀ = some e₀ →
    ∀ (accountId : Uuid) (p : UtcDay → Prop) [DecidablePred p], Db.netOn c.after accountId p =
      Db.netOn c.before accountId p + if p e₀.date then e₀.net accountId else 0

theorem Transacts.reversalsCancel {strict : Prop} {c : Commit} (hc : Transacts strict c)
    (hcoh : Coherent c.before) (hrev : Reversible c.before) (hmir : Mirrored c.before) :
    ReversalsCancel c := by
  have hcancels : ∀ {o e e'}, Db.entry c.before o = some e → e.reversedById = none →
      Db.entry c.after o = some e' → e'.reversedById ≠ none →
      ∀ (accountId : Uuid) (p : UtcDay → Prop) [DecidablePred p], Db.netOn c.after accountId p =
        Db.netOn c.before accountId p - if p e.date then e.net accountId else 0 := by
    intro o e e' he hnone he' hsome accountId p _
    obtain ⟨e₁, he₁, hnext⟩ := hc.entryNext he
    obtain rfl : e' = e₁ := Option.some.inj (he' ▸ he₁)
    cases hnext with
    | step _ hmark => exact absurd (hmark.trans hnone) hsome
    | reverse t _ ho =>
      subst ho
      exact t.netOn_after hcoh accountId p
  refine ⟨hcancels, ?_⟩
  intro o e e' o₀ e₀ he hnone he' hsome horig he₀ accountId p _
  rw [hcancels he hnone he' hsome]
  obtain ⟨e₁, he₁, hr⟩ := hrev.original he horig
  obtain rfl : e₀ = e₁ := Option.some.inj (he₀ ▸ he₁)
  rw [hmir.date he₀ hr he, JournalEntry.net_swap (hmir.lines he₀ hr he)]
  split
  · rw [sub_neg_eq_add]
  · rw [sub_zero, add_zero]

/-! ## In every reachable state -/

/-- The balances the service computes are those of the live entries. -/
structure BalancesLive (db : Db) : Prop where
  grouped : ∀ (p : UtcDay → Prop) [DecidablePred p], ∀ row ∈ Balances.groupedBalances db p,
    row.balance = Balances.liveBalance db row.accountId p row.normalBalance
  account : ∀ (accountId : Uuid) (asOf : UtcDay) (b : Balances.AccountBalance),
    Balances.accountBalance db accountId asOf = .ok b →
    ∃ a, Db.liveAccount db accountId = some a ∧
      b.balance = Balances.liveBalance db accountId (· ≤ asOf) a.normalBalance
  net : ∀ (accountId : Uuid) (p : UtcDay → Prop) [DecidablePred p],
    Db.netOn db accountId p = Db.liveNetOn db accountId p

theorem Mirrored.balancesLive {db : Db} (hmir : Mirrored db) (hcoh : Coherent db)
    (hrev : Reversible db) : BalancesLive db where
  grouped := by
    intro p _ row hrow
    obtain ⟨a, -, rfl⟩ := List.mem_map.mp hrow
    exact Balances.signedNet_congr (netOn_eq_liveNetOn hcoh hrev hmir a.1 p) a.2.normalBalance
  account := by
    intro accountId asOf b hb
    unfold Balances.accountBalance at hb
    cases ha : Db.liveAccount db accountId with
    | none =>
      rw [ha] at hb
      cases hb
    | some a =>
      rw [ha] at hb
      cases hb
      exact ⟨a, rfl, Balances.signedNet_congr (netOn_eq_liveNetOn hcoh hrev hmir accountId _)
        a.normalBalance⟩
  net := fun accountId p _ => netOn_eq_liveNetOn hcoh hrev hmir accountId p

/-- **The balances are those of the live entries**, in every reachable state and over any dates, and a
reversal takes its original away at every date, or brings back what the original has taken away. -/
theorem balances_of_reachable {policy : Policy Row LockName Query Failure Response Request}
    {db₀ : Db} {s : Server} (h₀ : Initial db₀) (h : Reachable code policy db₀ s) :
    BalancesLive s.db ∧ ∀ c ∈ s.history, ReversalsCancel c := by
  let I : Db → Prop := fun db => (Coherent db ∧ Reversible db) ∧ Mirrored db
  have hinit : I db₀ := ⟨⟨h₀.coherent, h₀.reversible⟩, h₀.mirrored⟩
  have hstep : ∀ c, Transacts False c → True → I c.before →
      (∀ q ∈ c.seen, I q.2 ∧ Persists q.2 c.before) → I c.after :=
    fun _ hc _ ⟨⟨hcoh, hrev⟩, hmir⟩ _ => ⟨⟨hcoh.after hc, hrev.after hc⟩, hmir.after hrev hc⟩
  constructor
  · obtain ⟨⟨hcoh, hrev⟩, hmir⟩ :=
      invariant_of_reachable (fun _ => True) (I := I) h (fun _ _ => trivial) hinit hstep
    exact hmir.balancesLive hcoh hrev
  · intro c hmem
    obtain ⟨hc, ⟨⟨hcoh, hrev⟩, hmir⟩, -⟩ :=
      commit_of_reachable (fun _ => True) (I := I) h (fun _ _ => trivial) hinit hstep hmem
    exact hc.reversalsCancel hcoh hrev hmir

/-- An invoice is posted and voided, and an entry reversed, and its reversal as well. -/
theorem balances_of_reachable_reversals :
    let s := Sample.server (Sample.postedInvoice ++
      Sample.request 2 (.voidDocument .salesInvoice 20 9 101 2) 24 ++
      Sample.request 3 (.createAndPostEntry Sample.cashSale 9 102 3) 15 ++
      Sample.request 4 (.reverseEntry 102 9 103 4) 17 ++
      Sample.request 5 (.reverseEntry 103 9 104 5) 17)
    BalancesLive s.db ∧ ∀ c ∈ s.history, ReversalsCancel c :=
  balances_of_reachable Sample.initial (Sample.reachable (by decide +kernel))

end AccountingApi
