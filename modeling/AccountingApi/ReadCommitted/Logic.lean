import AccountingApi.ReadCommitted.System
import Mathlib.Logic.Relation

/-!
# Rely and guarantee for transaction programs

A protocol says what the commits of a system guarantee. A program keeps it when each of its commits
meets the guarantee, whatever the others commit between two of its statements; those may rely on
the guarantee themselves and cannot touch what the program has locked. A row the
transaction holds the lock of does not drift under it.

## Main definitions

* `Protocol`: the guarantee of a commit, and what a run is assumed to meet beyond it
* `EnvStep`, `Drift`: what may be committed while a lock is held
* `Local.Since`: how the committed store relates to what a request has seen
* `Prog.wp`: the program keeps the protocol and its end satisfies a postcondition
* `Local.Ran`: a piece of a transaction, with what it lets the commit rely on

## Main results

* `Drift.row_eq`: a locked row does not drift
* `Prog.wp_bind`: the rule of sequence
-/

namespace ReadCommitted

variable {K A : Type} [DecidableEq K] [DecidableEq A] {Row : K → Type} {Q E V R : Type}

/-- What every commit guarantees, what the run is assumed to meet at every commit, and the requests
that may fail after a commit of theirs. -/
structure Protocol {K : Type} (Row : K → Type) (A Q R : Type) where
  guar : Commit Row A Q R → Prop
  rely : Commit Row A Q R → Prop
  late : R → Prop

/-- Every row the commit writes is one it holds the lock of. -/
def Commit.WritesLocked (c : Commit Row A Q R) : Prop :=
  ∀ w ∈ c.writes, (Lock.row w.1, Mode.exclusive) ∈ c.locks

/-- A commit, by another transaction where the lock `h` is held. -/
def EnvStep (P : Protocol Row A Q R) (h : Option (Held K A)) (db db' : Store Row) : Prop :=
  ∃ c : Commit Row A Q R, P.guar c ∧ P.rely c ∧ c.WritesLocked ∧
    (∀ l ∈ h, (∃ L ∈ c.others, l ∈ L) ∧ ∀ l' ∈ c.locks, Conflicts l' l = false) ∧
    c.before = db ∧ c.after = db'

/-- The commits since a store was seen, by other transactions where the lock `h` is held. -/
abbrev Drift (P : Protocol Row A Q R) (h : Option (Held K A)) : Store Row → Store Row → Prop :=
  Relation.ReflTransGen (EnvStep P h)

section Drift

variable {P : Protocol Row A Q R} {h : Option (Held K A)} {db db' : Store Row}

/-- A row whose lock is held is not written by another transaction. -/
theorem EnvStep.row_eq {k : K} {m : Mode} (hs : EnvStep P (some (.row k, m)) db db') :
    db'.row k = db.row k := by
  obtain ⟨c, -, -, hlocked, hheld, rfl, rfl⟩ := hs
  refine Store.row_putAll_of_notMem _ fun w hw hwk => ?_
  have hconf := (hheld _ rfl).2 _ (hlocked w hw)
  simp [Conflicts, hwk] at hconf

/-- **A locked row does not drift.** -/
theorem Drift.row_eq {k : K} {m : Mode} (hd : Drift P (some (.row k, m)) db db') :
    db'.row k = db.row k := by
  induction hd with
  | refl => rfl
  | tail _ hstep ih => rw [hstep.row_eq, ih]

/-- What one commit keeps, drifting keeps. -/
theorem Drift.keeps {I : Store Row → Prop} (hd : Drift P h db db')
    (hstep : ∀ db db', EnvStep P h db db' → I db → I db') (hI : I db) : I db' := by
  induction hd with
  | refl => exact hI
  | tail _ h ih => exact hstep _ _ h ih

end Drift

/-- The committed store is `db`, after all the statements of the request: since a statement under a
lock, only transactions that lock does not exclude have committed. -/
def Local.Since (P : Protocol Row A Q R) (ℓ : Local Row A Q) (db : Store Row) : Prop :=
  ∀ x ∈ ℓ.marks, Drift P x.1 x.2 db

namespace Prog

variable {α β : Type}

/-- The program, run by the request `r` from the local state `ℓ`, keeps the protocol, and what it
ends with satisfies `post`. -/
def wp (P : Protocol Row A Q R) (r : R) :
    Prog Row A Q E α → Local Row A Q → (α → Local Row A Q → Prop) → Prop
  | .ret a, ℓ, post => post a ℓ
  | .throw _, ℓ, _ => ℓ.published = true → P.late r
  | .select q next, ℓ, post =>
    ∀ db, ℓ.Since P db → wp P r (next (ℓ.view db)) (ℓ.see q db) post
  | .acquire l m next, ℓ, post =>
    ∀ db, ℓ.Since P db → wp P r (next (ℓ.view db)) (ℓ.hold (l, m) db) post
  | .put k v next, ℓ, post => ∀ db, ℓ.Since P db → wp P r next (ℓ.write ⟨k, v⟩ db) post
  | .commit next, ℓ, post =>
    ∀ db, ℓ.Since P db →
      (∀ pid others, P.guar (ℓ.toCommit pid r others db)) ∧ wp P r next (ℓ.publish db) post

variable {P : Protocol Row A Q R} {r : R}

/-- **The rule of sequence.** -/
theorem wp_bind {p : Prog Row A Q E α} {f : α → Prog Row A Q E β} {ℓ : Local Row A Q}
    {post : β → Local Row A Q → Prop} :
    (p.bind f).wp P r ℓ post ↔ p.wp P r ℓ fun a ℓ => (f a).wp P r ℓ post := by
  induction p generalizing ℓ with
  | ret a => exact Iff.rfl
  | throw e => exact Iff.rfl
  | select q next ih => exact forall₂_congr fun db _ => ih (ℓ.view db)
  | acquire l m next ih => exact forall₂_congr fun db _ => ih (ℓ.view db)
  | put k v next ih => exact forall₂_congr fun db _ => ih
  | commit next ih => exact forall₂_congr fun db _ => and_congr_right fun _ => ih

/-- The rule of consequence. -/
theorem wp_mono {p : Prog Row A Q E α} {ℓ : Local Row A Q}
    {post post' : α → Local Row A Q → Prop} (hp : p.wp P r ℓ post)
    (h : ∀ a ℓ, post a ℓ → post' a ℓ) : p.wp P r ℓ post' := by
  induction p generalizing ℓ with
  | ret a => exact h _ _ hp
  | throw e => exact hp
  | select q next ih => exact fun db hd => ih _ (hp db hd)
  | acquire l m next ih => exact fun db hd => ih _ (hp db hd)
  | put k v next ih => exact fun db hd => ih (hp db hd)
  | commit next ih => exact fun db hd => ⟨(hp db hd).1, ih (hp db hd).2⟩

/-- Which error is thrown does not matter. -/
theorem wp_mapThrow {p : Prog Row A Q E α} {g : E → E} {ℓ : Local Row A Q}
    {post : α → Local Row A Q → Prop} : (p.mapThrow g).wp P r ℓ post ↔ p.wp P r ℓ post := by
  induction p generalizing ℓ with
  | ret a => exact Iff.rfl
  | throw e => exact Iff.rfl
  | select q next ih => exact forall₂_congr fun db _ => ih (ℓ.view db)
  | acquire l m next ih => exact forall₂_congr fun db _ => ih (ℓ.view db)
  | put k v next ih => exact forall₂_congr fun db _ => ih
  | commit next ih => exact forall₂_congr fun db _ => and_congr_right fun _ => ih

section Rules

variable {post : α → Local Row A Q → Prop} {ℓ : Local Row A Q}

theorem wp_ensure {c : Prop} [Decidable c] {e : E} {post : Unit → Local Row A Q → Prop}
    (hnew : ℓ.published = false) (h : c → post () ℓ) :
    (ensure c e : Prog Row A Q E Unit).wp P r ℓ post := by
  by_cases hc : c
  · rw [ensure, if_pos hc]
    exact h hc
  · rw [ensure, if_neg hc]
    exact fun hp => by simp [hnew] at hp

theorem wp_when {c : Prop} [Decidable c] {p : Prog Row A Q E Unit}
    {post : Unit → Local Row A Q → Prop} (h : c → p.wp P r ℓ post) (hnot : ¬ c → post () ℓ) :
    (when c p).wp P r ℓ post := by
  by_cases hc : c
  · rw [when, if_pos hc]
    exact h hc
  · rw [when, if_neg hc]
    exact hnot hc

theorem wp_orThrow {o : Option α} {e : E} (hnew : ℓ.published = false) (h : ∀ a, o = some a → post a ℓ) :
    (orThrow o e : Prog Row A Q E α).wp P r ℓ post := by
  cases o with
  | none => exact fun hp => by simp [hnew] at hp
  | some a => exact h a rfl

theorem wp_ofExcept {x : Except E α} (hnew : ℓ.published = false) (h : ∀ a, x = .ok a → post a ℓ) :
    (ofExcept x : Prog Row A Q E α).wp P r ℓ post := by
  cases x with
  | error e => exact fun hp => by simp [hnew] at hp
  | ok a => exact h a rfl

end Rules

end Prog

/-! ## Transactions in progress -/

namespace Local

/-- `ℓ'` is `ℓ` after more statements of the same transaction. -/
structure Extends (ℓ ℓ' : Local Row A Q) : Prop where
  locks : ℓ.locks ⊆ ℓ'.locks
  seen : ℓ.seen ⊆ ℓ'.seen
  marks : ℓ.marks ⊆ ℓ'.marks

omit [DecidableEq K] [DecidableEq A] in
theorem Extends.refl (ℓ : Local Row A Q) : ℓ.Extends ℓ := ⟨fun _ h => h, fun _ h => h, fun _ h => h⟩

omit [DecidableEq K] [DecidableEq A] in
theorem Extends.trans {ℓ₁ ℓ₂ ℓ₃ : Local Row A Q} (h : ℓ₁.Extends ℓ₂) (h' : ℓ₂.Extends ℓ₃) :
    ℓ₁.Extends ℓ₃ :=
  ⟨fun _ hx => h'.locks (h.locks hx), fun _ hx => h'.seen (h.seen hx),
    fun _ hx => h'.marks (h.marks hx)⟩

omit [DecidableEq K] [DecidableEq A] in
theorem Extends.see {ℓ : Local Row A Q} (q : Q) (s : Store Row) : ℓ.Extends (ℓ.see q s) :=
  ⟨fun _ h => h, List.subset_cons_self _ _, List.subset_append_right _ _⟩

omit [DecidableEq K] [DecidableEq A] in
theorem Extends.hold {ℓ : Local Row A Q} (h : Held K A) (s : Store Row) :
    ℓ.Extends (ℓ.hold h s) :=
  ⟨List.subset_cons_self _ _, fun _ h => h, List.subset_append_right _ _⟩

omit [DecidableEq K] [DecidableEq A] in
theorem Extends.write {ℓ : Local Row A Q} (w : Write Row) (s : Store Row) :
    ℓ.Extends (ℓ.write w s) :=
  ⟨List.subset_cons_self _ _, fun _ h => h, List.subset_append_right _ _⟩

/-- Whatever the transaction does from here, its commit will satisfy `F`. -/
def WillCommit (P : Protocol Row A Q R) (r : R) (ℓ : Local Row A Q)
    (F : Commit Row A Q R → Prop) : Prop :=
  ∀ ℓ' db pid others, ℓ.Extends ℓ' → ℓ'.Since P db → F (ℓ'.toCommit pid r others db)

/-- The request went from `ℓ` to `ℓ'`, before its first commit: it wrote `ws`, and its commit will
satisfy `F`. -/
structure Ran (P : Protocol Row A Q R) (r : R) (ℓ ℓ' : Local Row A Q) (ws : List (Write Row))
    (F : Commit Row A Q R → Prop) : Prop where
  ext : ℓ.Extends ℓ'
  new : ℓ'.published = false
  buf : ℓ'.buf = ℓ.buf ++ ws
  facts : ℓ'.WillCommit P r F

section Ran

variable {P : Protocol Row A Q R} {r : R} {ℓ ℓ₁ ℓ₂ : Local Row A Q} {ws ws' : List (Write Row)}
  {F G : Commit Row A Q R → Prop}

theorem Ran.refl (hnew : ℓ.published = false) : ℓ.Ran P r ℓ [] fun _ => True :=
  ⟨.refl ℓ, hnew, (List.append_nil _).symm, fun _ _ _ _ _ _ => trivial⟩

/-- Pieces of a request in sequence. -/
theorem Ran.trans (h : ℓ.Ran P r ℓ₁ ws F) (h' : ℓ₁.Ran P r ℓ₂ ws' G) :
    ℓ.Ran P r ℓ₂ (ws ++ ws') fun c => F c ∧ G c where
  ext := h.ext.trans h'.ext
  new := h'.new
  buf := by rw [h'.buf, h.buf, List.append_assoc]
  facts := fun ℓ' db pid others he hs =>
    ⟨h.facts ℓ' db pid others (h'.ext.trans he) hs, h'.facts ℓ' db pid others he hs⟩

theorem Ran.mono (h : ℓ.Ran P r ℓ₁ ws F) (hFG : ∀ c, F c → G c) : ℓ.Ran P r ℓ₁ ws G :=
  ⟨h.ext, h.new, h.buf, fun ℓ' db pid others he hs => hFG _ (h.facts ℓ' db pid others he hs)⟩

/-- A statement that runs on `s` under the locks `L`: since then, every one of them was held. -/
theorem drift_of_marksOf {L : List (Held K A)} {s db : Store Row}
    (h : ∀ x ∈ marksOf L s, Drift P x.1 x.2 db) :
    Drift P none s db ∧ ∀ l ∈ L, Drift P (some l) s db :=
  ⟨h _ List.mem_cons_self, fun l hl => h (some l, s)
    (List.mem_cons_of_mem _ (List.mem_map_of_mem hl))⟩

/-- A query. -/
theorem Ran.see (hnew : ℓ.published = false) (q : Q) (s : Store Row) :
    ℓ.Ran P r (ℓ.see q s) [] fun c =>
      (q, s) ∈ c.seen ∧ Drift P none s c.before ∧ ∀ l ∈ ℓ.locks, Drift P (some l) s c.before where
  ext := .see q s
  new := hnew
  buf := (List.append_nil _).symm
  facts := fun _ _ _ _ he hs => ⟨he.seen List.mem_cons_self,
    drift_of_marksOf fun x hx => hs x (he.marks (List.mem_append_left _ hx))⟩

/-- A lock. -/
theorem Ran.hold (hnew : ℓ.published = false) (h : Held K A) (s : Store Row) :
    ℓ.Ran P r (ℓ.hold h s) [] fun c =>
      h ∈ c.locks ∧ ∀ l ∈ h :: ℓ.locks, Drift P (some l) s c.before where
  ext := .hold h s
  new := hnew
  buf := (List.append_nil _).symm
  facts := fun _ _ _ _ he hs => ⟨he.locks List.mem_cons_self,
    (drift_of_marksOf fun x hx => hs x (he.marks (List.mem_append_left _ hx))).2⟩

/-- A write. -/
theorem Ran.write (hnew : ℓ.published = false) (w : Write Row) (s : Store Row) :
    ℓ.Ran P r (ℓ.write w s) [w] fun _ => True where
  ext := .write w s
  new := hnew
  buf := rfl
  facts := fun _ _ _ _ _ _ => trivial

/-- The last row written is seen as it was written. -/
theorem Ran.row_view {k : K} {v : Row k} (h : ℓ.Ran P r ℓ₁ [⟨k, v⟩] F) (db : Store Row) :
    (ℓ₁.view db).row k = some v := by
  rw [view, h.buf, Store.putAll_append, Store.putAll_cons, Store.putAll_nil, Store.row_put_self]

/-- The transaction has not written the row under the key. -/
def Untouched (ℓ : Local Row A Q) (k : K) : Prop := ∀ w ∈ ℓ.buf, w.1 ≠ k

omit [DecidableEq K] [DecidableEq A] in
theorem Untouched.of_buf (h : ℓ.buf = []) (k : K) : ℓ.Untouched k :=
  fun _ hw => absurd (h ▸ hw) List.not_mem_nil

omit [DecidableEq A] in
/-- A row the transaction has not written is seen as it is committed. -/
theorem Untouched.row_view {k : K} (h : ℓ.Untouched k) (db : Store Row) :
    (ℓ.view db).row k = db.row k :=
  Store.row_putAll_of_notMem db h

theorem Untouched.ran {k : K} (h : ℓ.Untouched k) (hr : ℓ.Ran P r ℓ₁ ws F)
    (hws : ∀ w ∈ ws, w.1 ≠ k) : ℓ₁.Untouched k := by
  intro w hw
  rw [hr.buf] at hw
  exact (List.mem_append.mp hw).elim (h w) (hws w)

end Ran

end Local

/-! ## Rules for statements -/

namespace Prog

variable {P : Protocol Row A Q R} {r : R} {ℓ : Local Row A Q}

/-- A query. -/
theorem wp_query {q : Q} {post : Store Row → Local Row A Q → Prop} (hnew : ℓ.published = false)
    (h : ∀ s ℓ', ℓ.Ran P r ℓ' [] (fun c => (q, s) ∈ c.seen ∧ Drift P none s c.before ∧
      ∀ l ∈ ℓ.locks, Drift P (some l) s c.before) → post (ℓ.view s) ℓ') :
    (query q : Prog Row A Q E _).wp P r ℓ post :=
  fun s _ => h s _ (.see hnew q s)

/-- A lock: the locked row is as the transaction sees it until the commit. -/
theorem wp_lock {l : Lock K A} {m : Mode} {post : Store Row → Local Row A Q → Prop}
    (hnew : ℓ.published = false)
    (h : ∀ s ℓ', ℓ.Ran P r ℓ' [] (fun c => (l, m) ∈ c.locks ∧
      ∀ l' ∈ (l, m) :: ℓ.locks, Drift P (some l') s c.before) → (l, m) ∈ ℓ'.locks →
      post (ℓ.view s) ℓ') :
    (lock l m : Prog Row A Q E _).wp P r ℓ post :=
  fun s _ => h s _ (.hold hnew (l, m) s) List.mem_cons_self

/-- A row lock: the row, as the transaction sees it, stays so until the commit. -/
theorem wp_lockRow {k : K} {m : Mode} {post : Store Row → Local Row A Q → Prop}
    (hnew : ℓ.published = false)
    (h : ∀ s ℓ', ℓ.Ran P r ℓ' [] (fun c => (c.before.putAll ℓ.buf).row k = s.row k) → post s ℓ') :
    (lock (.row k) m : Prog Row A Q E _).wp P r ℓ post :=
  wp_lock hnew fun _ ℓ' hr _ => h _ ℓ' <| hr.mono fun _ hc =>
    Store.row_putAll_congr (hc.2 _ List.mem_cons_self).row_eq

/-- A write. -/
theorem wp_write {k : K} {v : Row k} {post : Unit → Local Row A Q → Prop}
    (hnew : ℓ.published = false)
    (h : ∀ ℓ', ℓ.Ran P r ℓ' [⟨k, v⟩] (fun _ => True) → post () ℓ') :
    (write k v : Prog Row A Q E _).wp P r ℓ post :=
  fun s _ => h _ (.write hnew ⟨k, v⟩ s)

/-- The commit of a transaction. -/
theorem wp_transaction {α : Type} {body : Prog Row A Q E α} {post : α → Local Row A Q → Prop}
    (h : body.wp P r ℓ fun a ℓ' => ∀ db, ℓ'.Since P db →
      (∀ pid others, P.guar (ℓ'.toCommit pid r others db)) ∧ post a (ℓ'.publish db)) :
    body.transaction.wp P r ℓ post :=
  wp_bind.mpr (wp_mono h fun _ _ h db hs => h db hs)

end Prog

/-- A commit is determined by what its transaction wrote and can rely on. -/
theorem Local.Ran.guar {P : Protocol Row A Q R} {r : R} {ℓ ℓ' : Local Row A Q}
    {ws : List (Write Row)} {F : Commit Row A Q R → Prop} {db : Store Row}
    (hr : ℓ.Ran P r ℓ' ws F) (hbuf : ℓ.buf = []) (hs : ℓ'.Since P db)
    (hguar : ∀ c : Commit Row A Q R, c.req = r → c.writes = ws → F c → P.guar c) (pid : ℕ)
    (others : List (List (Held K A))) : P.guar (ℓ'.toCommit pid r others db) := by
  refine hguar _ rfl ?_ (hr.facts ℓ' db pid others (.refl ℓ') hs)
  rw [Local.toCommit, hr.buf, hbuf, List.nil_append]

end ReadCommitted
