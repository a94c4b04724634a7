import AccountingApi.ReadCommitted.Soundness
import AccountingApi.ReadCommitted.Table

/-!
# Unique indexes

An index gives each row of a table its entries, and no two rows may share one. A transaction that gives
a row a new entry waits for the lock of that entry and looks for other rows that have it. Where every
transaction does so, the index holds in every state, although each of them looks before it commits.

## Main definitions

* `Unique`: no two rows of a table share an entry
* `OnlyAt`: no other row has an entry
* `Enters`: the new entries of a commit are locked and at one row only
* `Protocol.also`: a protocol with a further guarantee

## Main results

* `Prog.wp_also`: a program that keeps a protocol keeps the guarantees that follow
* `Prog.wp_onlyAt`: what has been looked for under the lock holds at the commit
* `Unique.after`: a commit that enters its rows keeps the index
-/

namespace ReadCommitted

variable {K A : Type} [DecidableEq K] [DecidableEq A] {Row : K → Type} {Q E V R : Type}

/-! ## Further guarantees -/

/-- The protocol whose commits guarantee `G` as well. -/
def Protocol.also (P : Protocol Row A Q R) (G : Commit Row A Q R → Prop) : Protocol Row A Q R where
  guar := fun c => P.guar c ∧ G c
  rely := P.rely
  late := P.late

section Also

variable {P : Protocol Row A Q R} {G : Commit Row A Q R → Prop} {s db : Store Row}

theorem Drift.of_also {h : Option (Held K A)} (hd : Drift (P.also G) h s db) : Drift P h s db := by
  induction hd with
  | refl => exact .refl
  | tail _ hstep ih =>
    obtain ⟨c, hguar, hc⟩ := hstep
    exact ih.tail ⟨c, hguar.1, hc⟩

theorem Local.Since.of_also {ℓ : Local Row A Q} (h : ℓ.Since (P.also G) db) : ℓ.Since P db :=
  fun x hx => (h x hx).of_also

/-- **A program that keeps the protocol** keeps it with what follows from it for the request. -/
theorem Prog.wp_also {α : Type} {r : R} {p : Prog Row A Q E α} {ℓ : Local Row A Q}
    {post : α → Local Row A Q → Prop} (h : p.wp P r ℓ post)
    (hG : ∀ c : Commit Row A Q R, c.req = r → P.guar c → G c) : p.wp (P.also G) r ℓ post := by
  induction p generalizing ℓ with
  | ret a => exact h
  | throw e => exact h
  | select q next ih => exact fun db hs => ih _ (h db hs.of_also)
  | acquire l m next ih => exact fun db hs => ih _ (h db hs.of_also)
  | put k v next ih => exact fun db hs => ih (h db hs.of_also)
  | commit next ih =>
    intro db hs
    obtain ⟨hguar, hnext⟩ := h db hs.of_also
    exact ⟨fun pid others => ⟨hguar pid others, hG _ rfl (hguar pid others)⟩, ih hnext⟩

/-- The further guarantee holds of every commit of a run. -/
theorem Reachable.also {code : R → Prog Row A Q E V} {policy : Policy Row A Q E V R}
    {db₀ : Store Row} {s : Server Row A Q E V R} (h : Reachable code policy db₀ s)
    (hcode : ∀ r, (code r).wp (P.also G) r {} fun _ _ => True)
    (hrely : ∀ c ∈ s.history, P.rely c) : ∀ c ∈ s.history, G c := by
  have hsound : s.Sound (P.also G) db₀ := h.sound (fun _ r _ => hcode r) hrely
  intro c hc
  obtain ⟨hguar, -⟩ := hsound.chain.of_mem (D := fun _ _ => True) (fun _ => trivial)
    (fun _ _ _ _ _ => trivial) (fun _ _ => trivial) hc
  exact hguar.2

end Also

/-! ## Indexes -/

section Index

variable {ι U : Type} [DecidableEq ι] (t : Table Row ι U) (entries : U → List A)

/-- No row but the one under `i` has the entry. -/
def OnlyAt (db : Store Row) (i : ι) (x : A) : Prop :=
  ∀ j u, t.get db j = some u → x ∈ entries u → j = i

/-- No two rows of the table share an entry of the index. -/
def Unique (db : Store Row) : Prop := ∀ i u, t.get db i = some u → ∀ x ∈ entries u,
  OnlyAt t entries db i x

/-- The entries of each row a commit leaves are those it had, or locked by the commit and at no other
row. -/
def Enters (c : Commit Row A Q R) : Prop :=
  ∀ i u, t.get c.after i = some u → ∀ x ∈ entries u,
    (∃ u₀, t.get c.before i = some u₀ ∧ x ∈ entries u₀) ∨
      (.named x, .exclusive) ∈ c.locks ∧ OnlyAt t entries c.after i x

variable {t entries} {c : Commit Row A Q R}

omit [DecidableEq A] [DecidableEq ι] in
/-- **A commit that enters its rows keeps the index.** -/
theorem Unique.after (h : Unique t entries c.before) (hc : Enters t entries c) :
    Unique t entries c.after := by
  intro i u hu x hx j w hw hxw
  rcases hc i u hu x hx with ⟨u₀, hu₀, hx₀⟩ | ⟨-, honly⟩
  · rcases hc j w hw x hxw with ⟨w₀, hw₀, hxw₀⟩ | ⟨-, honly⟩
    · -- both rows had the entry before
      exact h i u₀ hu₀ x hx₀ j w₀ hw₀ hxw₀
    · exact (honly i u hu hx).symm
  · exact honly j w hw hxw

omit [DecidableEq A] [DecidableEq ι] in
/-- A commit that gives no row an entry it has not had. -/
theorem Enters.of_kept
    (h : ∀ i u, t.get c.after i = some u → ∃ u₀, t.get c.before i = some u₀ ∧ entries u ⊆ entries u₀) :
    Enters t entries c := by
  intro i u hu x hx
  obtain ⟨u₀, hu₀, hsub⟩ := h i u hu
  exact .inl ⟨u₀, hu₀, hsub hx⟩

omit [DecidableEq A] in
/-- A commit that writes one row and enters it. -/
theorem Enters.of_write {i : ι} {v : Row (t.key i)} (hwrites : c.writes = [⟨t.key i, v⟩])
    (h : ∀ x ∈ entries (t.read i v), (∃ u₀, t.get c.before i = some u₀ ∧ x ∈ entries u₀) ∨
      (.named x, .exclusive) ∈ c.locks ∧ OnlyAt t entries c.after i x) : Enters t entries c := by
  intro j u hu x hx
  have hget : t.get c.after j = overwrite j (t.get c.before j) [(i, t.read i v)] := by
    rw [Commit.after, hwrites, Store.putAll_cons, Store.putAll_nil, t.get_put, t.pick_key]
    rfl
  rw [hu, overwrite_cons, overwrite_nil] at hget
  by_cases hij : i = j
  · subst hij
    rw [if_pos rfl, Option.some.injEq] at hget
    rw [hget] at hx
    exact h x hx
  · rw [if_neg hij] at hget
    exact .inl ⟨u, hget.symm, hx⟩

section Rules

variable {P : Protocol Row A Q R} {s db : Store Row} {buf : List (Write Row)} {i : ι} {x : A}

/-- While the lock of an entry is held, no other row gets it, under what a transaction has written. -/
theorem OnlyAt.drift (hP : ∀ c, P.guar c → Enters t entries c)
    (hd : Drift P (some (.named x, .exclusive)) s db) (hs : OnlyAt t entries (s.putAll buf) i x) :
    OnlyAt t entries (db.putAll buf) i x := by
  refine hd.keeps (I := fun db => OnlyAt t entries (db.putAll buf) i x) ?_ hs
  rintro _ _ ⟨c, hguar, -, -, hheld, rfl, rfl⟩ hbefore j w hw hx
  have hrow := hbefore j
  rw [t.get_putAll] at hw hrow
  rcases overwrite_cases j (t.writes buf) with hkept | ⟨v, hv⟩
  · rw [hkept] at hw hrow
    rcases hP c hguar j w hw x hx with ⟨w₀, hw₀, hx₀⟩ | ⟨hlock, -⟩
    · exact hrow w₀ hw₀ hx₀
    · -- the other transaction would hold the same lock
      have hconf := (hheld _ rfl).2 _ hlock
      simp [Conflicts] at hconf
  · -- the transaction has written the row itself
    rw [hv] at hw hrow
    exact hrow w hw hx

/-- **The check of an index**: what the program has looked for under the lock holds at the commit. -/
theorem Prog.wp_onlyAt (hP : ∀ c, P.guar c → Enters t entries c) {holders : Store Row → List ι}
    (hholders : ∀ db j, j ∈ holders db ↔ ∃ u, t.get db j = some u ∧ x ∈ entries u) {r : R} {e : E}
    {ℓ : Local Row A Q} {post : Unit → Local Row A Q → Prop} (hnew : ℓ.published = false)
    (h : ∀ ℓ', ℓ.Ran P r ℓ' [] (fun c => (.named x, .exclusive) ∈ c.locks ∧
      OnlyAt t entries (c.before.putAll ℓ.buf) i x) → post () ℓ') :
    ((lock (.named x) .exclusive : Prog Row A Q E _).bind fun db =>
      ensure (∀ j ∈ holders db, j = i) e).wp P r ℓ post := by
  refine wp_bind.mpr (wp_lock hnew fun s ℓ₁ h₁ _ => wp_ensure h₁.new fun hfree => h ℓ₁ ?_)
  refine h₁.mono fun c ⟨hlock, hdrift⟩ => ⟨hlock, ?_⟩
  refine OnlyAt.drift hP (hdrift _ List.mem_cons_self) fun j u hu hx => ?_
  exact hfree j ((hholders _ j).mpr ⟨u, hu, hx⟩)

end Rules

end Index

end ReadCommitted
