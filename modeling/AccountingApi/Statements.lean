import AccountingApi.Protocol

/-!
# What the statements do

One rule for each statement of the database client: what it returns, what it writes, and what the
commit of its transaction can rely on afterwards. A row is seen as it is committed unless the
transaction has written it; under its lock it stays so until the commit.

## Main results

* `wp_read`: a query of a request that has written nothing
* `wp_forUpdate`, `wp_insert`, `wp_updateRow`: the rows a transaction locks and writes
* `wp_nextSequenceNumber`: the number drawn from a counter
* `wp_transaction`: the commit
-/

namespace AccountingApi

open ReadCommitted Posting

/-- What a request has done in its current transaction. -/
abbrev Tx := Local Row LockName Query

/-! ## Rows and accessors -/

section Rows

variable (db : Db)

theorem Db.entry_eq_row (id : Uuid) : Db.entry db id = db.row (.entry id) :=
  Option.map_id'

theorem Db.document_eq_row (kind : DocumentKind) (id : Uuid) :
    Db.document db kind id = db.row (.document kind id) :=
  Option.map_id'

theorem Db.payment_eq_row (id : Uuid) : Db.payment db id = db.row (.payment id) :=
  Option.map_id'

theorem Db.closing_eq_row (fiscalYear : ℤ) : Db.closing db fiscalYear = db.row (.closing fiscalYear) :=
  Option.map_id'

theorem Db.period_eq_row (id : Uuid) : Db.period db id = db.row (.period id) :=
  Option.map_id'

theorem Db.sequence_eq_row (s : Sequence) : Db.sequence db s = db.row (.sequence s) :=
  Option.map_id'

/-- The accounts read are those that are not soft-deleted. -/
theorem mem_accounts {db : Db} {id : Uuid} {a : Account} :
    (id, a) ∈ Db.accounts db ↔ Db.account db id = some a ∧ a.deletedAt = none := by
  rw [Db.accounts, Store.mem_collect]
  constructor
  · rintro ⟨k, v, hv, hk⟩
    cases k <;> simp only [Option.ite_none_right_eq_some, reduceCtorEq, Option.some.injEq,
      Prod.mk.injEq] at hk
    obtain ⟨hlive, rfl, rfl⟩ := hk
    exact ⟨hv, Option.isNone_iff_eq_none.mp hlive⟩
  · rintro ⟨ha, hlive⟩
    exact ⟨.account id, a, ha, if_pos (Option.isNone_iff_eq_none.mpr hlive)⟩

/-- The account of a role is one with that role. -/
theorem account_of_role {db : Db} {role : AccountRole} {id : Uuid} {a : Account}
    (h : Db.accountOfRole db role = some (id, a)) :
    Db.account db id = some a ∧ a.role = some role :=
  ⟨(mem_accounts.mp (List.mem_of_find?_eq_some h)).1, by simpa using List.find?_some h⟩

theorem nodup_accounts (db : Db) : ((Db.accounts db).map Prod.fst).Nodup := by
  refine Store.nodup_map_collect fun {k v k' v' b b'} hk hk' hid => ?_
  cases k <;> simp only [Option.ite_none_right_eq_some, reduceCtorEq, Option.some.injEq] at hk
  cases k' <;> simp only [Option.ite_none_right_eq_some, reduceCtorEq, Option.some.injEq] at hk'
  obtain ⟨-, rfl⟩ := hk
  obtain ⟨-, rfl⟩ := hk'
  exact congrArg Key.account hid

end Rows

section Wp

variable {P : Protocol Row LockName Query Request} {r : Request} {ℓ : Tx}

/-- A query of a request that has written nothing sees what is committed. -/
theorem wp_read {q : Query} {post : Db → Tx → Prop} (hnew : ℓ.published = false)
    (hbuf : ℓ.buf = [])
    (h : ∀ s ℓ', ℓ.Ran P r ℓ' [] (fun c => (q, s) ∈ c.seen ∧ Drift P none s c.before) →
      post s ℓ') :
    (select q).wp P r ℓ post := by
  refine Prog.wp_query hnew fun s ℓ' hr => ?_
  have hview : ℓ.view s = s := by rw [Local.view, hbuf, Store.putAll_nil]
  rw [hview]
  exact h s ℓ' (hr.mono fun c hc => ⟨hc.1, hc.2.1⟩)

/-- The row under a lock, as the transaction sees it, stays so until the commit. -/
theorem wp_forUpdate {k : Key} {post : Db → Tx → Prop} (hnew : ℓ.published = false)
    (h : ∀ s ℓ', ℓ.Ran P r ℓ' [] (fun c => (c.before.putAll ℓ.buf).row k = s.row k) → post s ℓ') :
    (forUpdate k).wp P r ℓ post :=
  Prog.wp_lockRow hnew h

theorem wp_forShare {k : Key} {post : Db → Tx → Prop} (hnew : ℓ.published = false)
    (h : ∀ s ℓ', ℓ.Ran P r ℓ' [] (fun c => (c.before.putAll ℓ.buf).row k = s.row k) → post s ℓ') :
    (forShare k).wp P r ℓ post :=
  Prog.wp_lockRow hnew h

/-- An insert: the key is new in what the commit finds. -/
theorem wp_insert {k : Key} {v : Row k} {valid : Prop} [Decidable valid] {post : Unit → Tx → Prop}
    (hnew : ℓ.published = false)
    (h : ∀ ℓ', valid → ℓ.Ran P r ℓ' [⟨k, v⟩]
      (fun c => (c.before.putAll ℓ.buf).row k = none) → post () ℓ') :
    (insert k v valid).wp P r ℓ post := by
  refine Prog.wp_bind.mpr (wp_forUpdate hnew fun s ℓ₁ h₁ => ?_)
  refine Prog.wp_bind.mpr (Prog.wp_ensure h₁.new fun hnone => ?_)
  refine Prog.wp_bind.mpr (Prog.wp_ensure h₁.new fun hvalid => ?_)
  refine Prog.wp_write h₁.new fun ℓ₂ h₂ => h ℓ₂ hvalid ?_
  exact (h₁.trans h₂).mono fun c hc => hc.1.trans (Option.isNone_iff_eq_none.mp hnone)

/-- An update: the row is the one the commit finds. -/
theorem wp_updateRow {k : Key} {live : Row k → Prop} [DecidablePred live] {f : Row k → Row k}
    {valid : Row k → Prop} [DecidablePred valid] {post : Row k → Tx → Prop}
    (hnew : ℓ.published = false)
    (h : ∀ v ℓ', live v → valid (f v) → ℓ.Ran P r ℓ' [⟨k, f v⟩]
      (fun c => (c.before.putAll ℓ.buf).row k = some v) → post (f v) ℓ') :
    (updateRow k live f valid).wp P r ℓ post := by
  refine Prog.wp_bind.mpr (wp_forUpdate hnew fun s ℓ₁ h₁ => ?_)
  refine Prog.wp_bind.mpr (Prog.wp_orThrow h₁.new fun v hv => ?_)
  refine Prog.wp_bind.mpr (Prog.wp_ensure h₁.new fun hlive => ?_)
  refine Prog.wp_bind.mpr (Prog.wp_ensure h₁.new fun hvalid => ?_)
  refine Prog.wp_bind.mpr (Prog.wp_write h₁.new fun ℓ₂ h₂ => h v ℓ₂ hlive hvalid ?_)
  exact (h₁.trans h₂).mono fun c hc => hc.1.trans hv

/-- **The number drawn from a counter** is the one the commit finds there. -/
theorem wp_nextSequenceNumber {s : Sequence} {post : ℕ → Tx → Prop} (hnew : ℓ.published = false)
    (hfree : ℓ.Untouched (.sequence s))
    (h : ∀ n ws ℓ', (∀ w ∈ ws, w.1 = .sequence s) →
      ℓ.Ran P r ℓ' ws (fun c => Ticket c s n ws) → post n ℓ') :
    (nextSequenceNumber s).wp P r ℓ post := by
  refine Prog.wp_bind.mpr (wp_forUpdate hnew fun s₁ ℓ₁ h₁ => ?_)
  have hrow : ∀ db : Db, (db.putAll ℓ.buf).row (.sequence s) = Db.sequence db s := fun db => by
    rw [Db.sequence_eq_row]
    exact hfree.row_view db
  refine Prog.wp_bind.mpr ?_
  by_cases hnone : Db.sequence s₁ s = none
  · -- the first use creates the counter
    rw [Prog.when, if_pos hnone]
    refine Prog.wp_write h₁.new fun ℓ₂ h₂ => ?_
    refine Prog.wp_bind.mpr (wp_forUpdate h₂.new fun s₃ ℓ₃ h₃ => ?_)
    refine Prog.wp_bind.mpr (Prog.wp_orThrow h₃.new fun current hcurrent => ?_)
    refine Prog.wp_bind.mpr (Prog.wp_write h₃.new fun ℓ₄ h₄ => ?_)
    refine h current [⟨.sequence s, (1 : ℕ)⟩, ⟨.sequence s, (current + 1 : ℕ)⟩] ℓ₄ (by simp) ?_
    refine (h₁.trans (h₂.trans (h₃.trans h₄))).mono ?_
    rintro c ⟨hc, -, hc₃, -⟩
    rw [h₂.buf, Store.putAll_append, Store.putAll_cons, Store.putAll_nil, Store.row_put_self,
      ← Db.sequence_eq_row, hcurrent] at hc₃
    cases hc₃
    exact .inr ⟨(hrow c.before).symm.trans (hc.trans ((Db.sequence_eq_row _ _).symm.trans hnone)),
      rfl, rfl⟩
  · rw [Prog.when, if_neg hnone]
    refine Prog.wp_bind.mpr (wp_forUpdate h₁.new fun s₂ ℓ₂ h₂ => ?_)
    refine Prog.wp_bind.mpr (Prog.wp_orThrow h₂.new fun current hcurrent => ?_)
    refine Prog.wp_bind.mpr (Prog.wp_write h₂.new fun ℓ₃ h₃ => ?_)
    refine h current [⟨.sequence s, (current + 1 : ℕ)⟩] ℓ₃ (by simp) ?_
    refine (h₁.trans (h₂.trans h₃)).mono ?_
    rintro c ⟨-, hc₂, -⟩
    rw [h₁.buf, List.append_nil, hrow, ← Db.sequence_eq_row, hcurrent] at hc₂
    exact .inl ⟨hc₂, rfl⟩

/-- The commit of a transaction. -/
theorem wp_transaction {α : Type} {body : Program α} {post : α → Tx → Prop}
    (h : body.wp P r ℓ fun a ℓ' => ∀ db, ℓ'.Since P db →
      (∀ pid others, P.guar (ℓ'.toCommit pid r others db)) ∧ post a (ℓ'.publish db)) :
    (transaction body).wp P r ℓ post :=
  Prog.wp_bind.mpr (Prog.wp_mono h fun _ _ h => Prog.wp_bind.mpr fun db hs => h db hs)

/-- The answer of a request. -/
theorem wp_respond {α : Type} {f : α → Response} {p : Program α}
    (h : p.wp P r ℓ fun _ _ => True) : (respond f p).wp P r ℓ fun _ _ => True :=
  Prog.wp_bind.mpr (Prog.wp_mono h fun _ _ _ => trivial)

end Wp

end AccountingApi
