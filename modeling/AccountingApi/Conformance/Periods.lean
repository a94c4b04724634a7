import AccountingApi.Conformance.Close

/-!
# Settings and periods keep the protocol

The periods of a year are inserted one after the other, each under the locks of its index entries. The
status of a period changes under the lock of its row.

## Main results

* `updateCompany_wp`, `generatePeriods_wp`, `closePeriod_wp`, `reopenPeriod_wp`
-/

namespace AccountingApi

open ReadCommitted Periods

section Inserts

variable {strict : Prop} {r : Request} {ℓ : Tx}

/-- Whether a value of a period's unique columns is in use, read off the rows. -/
theorem exists_conflict_iff {db : Db} {p : AccountingPeriod} :
    (∃ q ∈ Db.periods db, p.Conflicts q.2) ↔ ∃ id q, Db.period db id = some q ∧ p.Conflicts q := by
  constructor
  · rintro ⟨⟨id, q⟩, hq, hconf⟩
    exact ⟨id, q, Db.mem_periods.mp hq, hconf⟩
  · rintro ⟨id, q, hq, hconf⟩
    exact ⟨(id, q), Db.mem_periods.mpr hq, hconf⟩

/-- What an insert has found in use, or free under the locks of the index entries, still is so when
other transactions have committed. -/
theorem periodTaken_of_drift {s db : Db} {buf : List (Write Row)} {id : Uuid} {p : AccountingPeriod}
    (hrow : Drift (protocol strict) (some (.row (.period id), .exclusive)) s db)
    (hsequence : Drift (protocol strict)
      (some (.named (.periodSequence p.fiscalYear p.sequence), .exclusive)) s db)
    (hname : Drift (protocol strict) (some (.named (.periodName p.name), .exclusive)) s db) :
    Db.periodTaken (s.putAll buf) id p ↔ Db.periodTaken (db.putAll buf) id p := by
  have hkey : Db.period (db.putAll buf) id = Db.period (s.putAll buf) id := by
    rw [Db.period_eq_row, Db.period_eq_row]
    exact Store.row_putAll_congr hrow.row_eq
  unfold Db.periodTaken
  rw [hkey, exists_conflict_iff, exists_conflict_iff]
  refine or_congr_right ⟨?_, fun hafter => ?_⟩
  · rintro ⟨id', q, hq, hconf⟩
    obtain ⟨q', hq', halike⟩ := period_of_drift hrow hq
    obtain ⟨hyear, hseq, hnm, -⟩ := halike.fields
    refine ⟨id', q', hq', ?_⟩
    rwa [AccountingPeriod.Conflicts, hyear, hseq, hnm]
  · by_contra hfree
    have hnone : ∀ id' q, Db.period (s.putAll buf) id' = some q → ¬ p.Conflicts q :=
      fun id' q hq hconf => hfree ⟨id', q, hq, hconf⟩
    obtain ⟨id', q, hq, hnumber | hnm⟩ := hafter
    · refine no_period_of_drift (Q := fun q => p.fiscalYear = q.fiscalYear ∧
        p.sequence = q.sequence) ?_ ?_ hsequence (fun id q hq hQ => hnone id q hq (.inl hQ)) id' q hq
        hnumber
      · intro q q' halike
        obtain ⟨hyear, hseq, -⟩ := halike.fields
        rw [hyear, hseq]
        exact fun hQ => hQ
      · rintro c q hnew ⟨hyear, hseq⟩
        rw [hyear, hseq]
        exact hnew.sequenceLock
    · refine no_period_of_drift (Q := fun q => p.name = q.name) ?_ ?_ hname
        (fun id q hq hQ => hnone id q hq (.inr hQ)) id' q hq hnm
      · intro q q' halike
        obtain ⟨-, -, hnm, -⟩ := halike.fields
        rw [hnm]
        exact fun hQ => hQ
      · intro c q hnew hQ
        rw [hQ]
        exact hnew.nameLock

/-- One period inserted, or skipped. -/
theorem wp_insertPeriod {id : Uuid} {p : AccountingPeriod} {post : Unit → Tx → Prop}
    (hnew : ℓ.published = false)
    (hskip : ∀ ℓ', ℓ.Ran (protocol strict) r ℓ' []
      (fun c => Db.periodTaken (c.before.putAll ℓ.buf) id p) → post () ℓ')
    (hinsert : ∀ ℓ', ℓ.Ran (protocol strict) r ℓ' [⟨.period id, p⟩] (fun c =>
      ¬ Db.periodTaken (c.before.putAll ℓ.buf) id p ∧
        (.named (.periodSequence p.fiscalYear p.sequence), .exclusive) ∈ c.locks ∧
        (.named (.periodName p.name), .exclusive) ∈ c.locks) → post () ℓ') :
    (insertPeriod id p).wp (protocol strict) r ℓ post := by
  refine Prog.wp_bind.mpr (Prog.wp_lock hnew fun s₁ ℓ₁ h₁ hmem₁ => ?_)
  refine Prog.wp_bind.mpr (Prog.wp_lock h₁.new fun s₂ ℓ₂ h₂ hmem₂ => ?_)
  refine Prog.wp_bind.mpr (Prog.wp_lock h₂.new fun s₃ ℓ₃ h₃ _ => ?_)
  have hbuf : ℓ₂.buf = ℓ.buf := by rw [h₂.buf, h₁.buf, List.append_nil, List.append_nil]
  have hview : ℓ₂.view s₃ = s₃.putAll ℓ.buf := by rw [Local.view, hbuf]
  have hran := h₁.trans (h₂.trans h₃)
  -- from the last lock on, the row and both index entries are locked
  have hfacts : ∀ c : Commit, (∀ l' ∈ (.row (.period id), .exclusive) :: ℓ₂.locks,
      Drift (protocol strict) (some l') s₃ c.before) →
      (Db.periodTaken (s₃.putAll ℓ.buf) id p ↔ Db.periodTaken (c.before.putAll ℓ.buf) id p) :=
    fun c hheld => periodTaken_of_drift (hheld _ List.mem_cons_self)
      (hheld _ (List.mem_cons_of_mem _ (h₂.ext.locks hmem₁)))
      (hheld _ (List.mem_cons_of_mem _ hmem₂))
  rw [hview]
  refine Prog.wp_when (fun hfree => ?_) fun htaken => ?_
  · refine Prog.wp_write h₃.new fun ℓ₄ h₄ => hinsert ℓ₄ ((hran.trans h₄).mono ?_)
    rintro c ⟨⟨⟨hsequence, -⟩, ⟨hname, -⟩, -, hheld⟩, -⟩
    exact ⟨fun h => hfree ((hfacts c hheld).mpr h), hsequence, hname⟩
  · refine hskip ℓ₃ (hran.mono ?_)
    rintro c ⟨-, -, -, hheld⟩
    exact (hfacts c hheld).mp (not_not.mp htaken)

/-- **The loop over the periods.** Each is checked against the ones before it. -/
theorem wp_forEach_inserts {newId : ℕ → Uuid} {ps : List AccountingPeriod}
    {post : Unit → Tx → Prop} (hnew : ℓ.published = false)
    (h : ∀ ws ℓ', ℓ.Ran (protocol strict) r ℓ' ws
      (fun c => Inserts c newId (c.before.putAll ℓ.buf) ps ws) → post () ℓ') :
    (Prog.forEach ps fun p => insertPeriod (newId p.sequence) p).wp (protocol strict) r ℓ post := by
  induction ps generalizing ℓ with
  | nil => exact h [] ℓ ((Local.Ran.refl hnew).mono fun _ _ => .nil _)
  | cons p ps ih =>
    refine Prog.wp_bind.mpr (wp_insertPeriod hnew (fun ℓ₁ h₁ => ?_) fun ℓ₁ h₁ => ?_)
    · refine ih h₁.new fun ws ℓ₂ h₂ => h ws ℓ₂ ((h₁.trans h₂).mono ?_)
      rintro c ⟨htaken, hrest⟩
      rw [h₁.buf, List.append_nil] at hrest
      exact .skip htaken hrest
    · refine ih h₁.new fun ws ℓ₂ h₂ => h _ ℓ₂ ((h₁.trans h₂).mono ?_)
      rintro c ⟨⟨hfree, hsequence, hname⟩, hrest⟩
      rw [h₁.buf, Store.putAll_append, Store.putAll_cons, Store.putAll_nil] at hrest
      exact .insert hfree hsequence hname hrest

end Inserts

section Requests

variable {strict : Prop}

theorem updateCompany_wp (input : Company.UpdateInput) :
    (code (.updateCompany input)).wp (protocol strict) (.updateCompany input) {}
      fun _ _ => True := by
  refine wp_respond (Prog.wp_bind.mpr (wp_settings rfl rfl fun _ ℓ₁ h₁ => wp_transaction ?_))
  have b₁ := buf_of_ran h₁ rfl
  refine wp_updateRow h₁.new fun settings ℓ₂ _ _ h₂ db hs => ⟨?_, trivial⟩
  refine Local.Ran.guar h₂ b₁ hs fun c hreq hwrites hrow => ?_
  rw [b₁, Store.putAll_nil] at hrow
  exact .updateCompany input settings hreq hrow hwrites

theorem wp_list {P : Protocol Row LockName Query Request} {r : Request} {ℓ : Tx} {fiscalYear : ℤ}
    {post : List (Uuid × AccountingPeriod) → Tx → Prop}
    (h : ∀ s, post (ofYear (ℓ.view s) fiscalYear) (ℓ.see .period s)) :
    (list fiscalYear).wp P r ℓ post :=
  fun s _ => h s

theorem generatePeriods_wp (dto : GeneratePeriodsDto) (newId : ℕ → Uuid) :
    (code (.generatePeriods dto newId)).wp (protocol strict) (.generatePeriods dto newId) {}
      fun _ _ => True := by
  have hmin := dto.min
  refine wp_respond (Prog.wp_bind.mpr (wp_list fun s => ?_))
  split
  · trivial
  · refine Prog.wp_bind.mpr (wp_fiscalYearBounds (by omega) rfl rfl fun start yearEnd ℓ₁ h₁ => ?_)
    refine Prog.wp_bind.mpr (wp_transaction ?_)
    refine wp_forEach_inserts h₁.new fun ws ℓ₂ h₂ db hs => ⟨?_, wp_list fun _ => trivial⟩
    refine Local.Ran.guar (h₁.trans h₂) rfl hs fun c hreq hwrites hc => ?_
    have hinserts := hc.2
    rw [buf_of_ran h₁ rfl, Store.putAll_nil] at hinserts
    exact .periods ws (.generate dto newId start yearEnd ws hreq hc.1 hinserts) hwrites

/-- A period, as a transaction that has written none sees it. -/
theorem period_view {ℓ : Tx} (h : ℓ.buf = []) (s : Db) (id : Uuid) :
    (s.putAll ℓ.buf).row (.period id) = Db.period s id := by
  rw [h, Store.putAll_nil, Db.period_eq_row]

theorem closePeriod_wp (id user : Uuid) (now : Timestamp) :
    (code (.closePeriod id user now)).wp (protocol strict) (.closePeriod id user now) {}
      fun _ _ => True := by
  refine wp_respond (wp_transaction ?_)
  refine Prog.wp_bind.mpr (wp_forUpdate rfl fun s ℓ₁ h₁ => ?_)
  refine Prog.wp_bind.mpr (Prog.wp_orThrow h₁.new fun p hp => ?_)
  refine Prog.wp_bind.mpr (Prog.wp_ensure h₁.new fun hopen => ?_)
  have b₁ := buf_of_ran h₁ rfl
  refine wp_updateRow h₁.new fun v ℓ₂ _ _ h₂ db hs => ⟨?_, trivial⟩
  refine Local.Ran.guar (h₁.trans h₂) rfl hs fun c hreq hwrites hc => ?_
  obtain ⟨hrow, hv⟩ := hc
  rw [period_view rfl, ← Db.period_eq_row, hp] at hrow
  rw [period_view b₁, hrow] at hv
  obtain rfl : p = v := Option.some.inj hv
  exact .periods _ (.close id user now p hreq hrow hopen) hwrites

theorem reopenPeriod_wp (id : Uuid) :
    (code (.reopenPeriod id)).wp (protocol strict) (.reopenPeriod id) {} fun _ _ => True := by
  refine wp_respond (Prog.wp_bind.mpr (wp_read rfl rfl fun s ℓ₁ h₁ => ?_))
  refine Prog.wp_bind.mpr (Prog.wp_orThrow h₁.new fun p hp => ?_)
  refine Prog.wp_bind.mpr (Prog.wp_ensure h₁.new fun hclosed => wp_transaction ?_)
  have b₁ := buf_of_ran h₁ rfl
  refine wp_updateRow h₁.new fun v ℓ₂ _ _ h₂ db hs => ⟨?_, trivial⟩
  refine Local.Ran.guar (h₁.trans h₂) rfl hs fun c hreq hwrites hc => ?_
  obtain ⟨⟨hseen, -⟩, hv⟩ := hc
  rw [period_view b₁] at hv
  have hstatus : p.status = .closed := by
    cases hs : p.status with
    | opened => exact absurd hs hclosed
    | closed => rfl
  exact .periods _ (.reopen id v hreq ⟨s, hseen, p, hp, hstatus⟩ hv) hwrites

end Requests

end AccountingApi
