import AccountingApi.ReadCommitted.Soundness

/-!
# Deadlocks

A request waits for another one while that one holds a lock that excludes what it asks for. Where the
locks are ranked and a request asks for a lock above all it holds, the ranks climb along a chain of
waiting requests. So a chain closes only between requests that hold a lock of the rank they ask for.
The ranks may depend on the committed store.

## Main definitions

* `Server.Waits`, `Server.Deadlocked`: a request waits for another one, a cycle of them
* `InOrder`: a lock comes after all the locks held
* `Local.Always`: what holds of the committed store whatever is committed from now on
* `Prog.asks`: whatever lock a program asks for satisfies an assertion

## Main results

* `Server.Sound.exists_cycle`: a deadlock is a cycle of requests that ask out of order
* `Prog.asks_bind`: the rule of sequence
* `Reachable.asks_of_wants`: what a request waits for, in every reachable state
-/

namespace ReadCommitted

open Relation

/-! ## Programs that only query -/

section OnlyQueries

variable {K A Q E α β : Type} {Row : K → Type}

/-- The program only queries. -/
def Prog.OnlyQueries : Prog Row A Q E α → Prop
  | .ret _ => True
  | .throw _ => True
  | .select _ next => ∀ s, (next s).OnlyQueries
  | _ => False

namespace Prog.OnlyQueries

variable {p : Prog Row A Q E α} {f : α → Prog Row A Q E β}

theorem bind (hp : p.OnlyQueries) (hf : ∀ a, (f a).OnlyQueries) : (p.bind f).OnlyQueries := by
  induction p with
  | ret a => exact hf a
  | throw e => trivial
  | select q next ih => exact fun s => ih s (hp s)
  | acquire => exact hp.elim
  | put => exact hp.elim
  | commit => exact hp.elim

theorem query (q : Q) : (Prog.query q : Prog Row A Q E _).OnlyQueries := fun _ => trivial

theorem ensure (c : Prop) [Decidable c] (e : E) :
    (Prog.ensure c e : Prog Row A Q E Unit).OnlyQueries := by
  unfold Prog.ensure
  split <;> trivial

theorem when (c : Prop) [Decidable c] {p : Prog Row A Q E Unit} (hp : p.OnlyQueries) :
    (Prog.when c p).OnlyQueries := by
  unfold Prog.when
  split
  · exact hp
  · trivial

theorem orThrow (o : Option α) (e : E) : (Prog.orThrow o e : Prog Row A Q E α).OnlyQueries := by
  cases o <;> trivial

theorem ofExcept (x : Except E α) : (Prog.ofExcept x : Prog Row A Q E α).OnlyQueries := by
  cases x <;> trivial

end Prog.OnlyQueries

end OnlyQueries

variable {K A : Type} [DecidableEq K] [DecidableEq A] {Row : K → Type} {Q E V R L : Type}

/-! ## Waiting -/

/-- The lock the next statement needs. -/
def Phase.wants : Phase Row A Q E V → Option (Held K A)
  | .running (.acquire l m _) => some (l, m)
  | .running (.put k _ _) => some (.row k, .exclusive)
  | _ => none

namespace Server

variable (s : Server Row A Q E V R)

/-- The lock the next statement of the request `i` needs. -/
def wants (i : ℕ) : Option (Held K A) := s.procs[i]?.bind (·.phase.wants)

/-- The locks the request `i` holds. -/
def locks (i : ℕ) : List (Held K A) := (s.procs[i]?.map (·.loc.locks)).getD []

/-- The request `i` needs a lock that one held by the request `j` excludes. -/
def Waits (i j : ℕ) : Prop :=
  i ≠ j ∧ ∃ h ∈ s.wants i, ∃ h' ∈ s.locks j, Conflicts h h' = true

instance (i j : ℕ) : Decidable (s.Waits i j) := inferInstanceAs (Decidable (_ ∧ _))

/-- Some requests wait for each other in a cycle. -/
def Deadlocked : Prop := ∃ i, TransGen s.Waits i i

end Server

/-- The lock is held exclusively already, or comes after all the locks held. -/
def InOrder [Preorder L] (rank : Lock K A → L) (H : List (Held K A)) (h : Held K A) : Prop :=
  (h.1, .exclusive) ∈ H ∨ ∀ l ∈ H, rank l.1 < rank h.1

theorem lock_eq_of_conflicts {h h' : Held K A} (hc : Conflicts h h' = true) : h.1 = h'.1 := by
  simp only [Conflicts, Bool.and_eq_true, decide_eq_true_eq] at hc
  exact hc.1

section Order

variable {P : Protocol Row A Q R} {db₀ : Store Row} {s : Server Row A Q E V R} {i j k : ℕ}

/-- What a request holds exclusively, it does not wait for. -/
theorem Server.Sound.not_waits (hs : s.Sound P db₀) {h : Held K A} (hw : s.wants i = some h)
    (hheld : (h.1, .exclusive) ∈ s.locks i) : ¬ s.Waits i j := by
  rintro ⟨hij, h₁, hw₁, h', hh', hc⟩
  obtain rfl : h = h₁ := Option.some.inj (hw.symm.trans hw₁)
  rw [Server.locks] at hheld hh'
  cases hi : s.procs[i]? with
  | none => simp [hi] at hheld
  | some p =>
    cases hj : s.procs[j]? with
    | none => simp [hj] at hh'
    | some p' =>
      rw [hi] at hheld
      rw [hj] at hh'
      have hfree := hs.compat i j p p' hij hi hj _ hheld h' hh'
      simp [Conflicts, lock_eq_of_conflicts hc] at hfree

variable [Preorder L] {rank : Lock K A → L} {X : ℕ → Prop}

/-- Every request asks for a lock in order, or satisfies `X` and holds nothing above it. -/
def Server.AsksInOrder (s : Server Row A Q E V R) (rank : Lock K A → L) (X : ℕ → Prop) : Prop :=
  ∀ i h, s.wants i = some h →
    InOrder rank (s.locks i) h ∨ X i ∧ ∀ l ∈ s.locks i, rank l.1 ≤ rank h.1

/-- The locks asked for climb along two requests that wait, unless the second one satisfies `X`. -/
theorem Server.Sound.rank_lt (hs : s.Sound P db₀) (horder : s.AsksInOrder rank X)
    (hij : s.Waits i j) (hjk : s.Waits j k) {h h' : Held K A} (hi : s.wants i = some h)
    (hj : s.wants j = some h') : rank h.1 < rank h'.1 ∨ X j ∧ rank h.1 ≤ rank h'.1 := by
  obtain ⟨-, h₁, hi₁, l, hl, hc⟩ := hij
  obtain rfl : h = h₁ := Option.some.inj (hi.symm.trans hi₁)
  rw [lock_eq_of_conflicts hc]
  rcases horder j h' hj with (hheld | hlt) | ⟨hX, hle⟩
  · exact absurd hjk (hs.not_waits hj hheld)
  · exact .inl (hlt l hl)
  · exact .inr ⟨hX, hle l hl⟩

/-- They do not fall along a chain of requests that wait. -/
theorem Server.Sound.rank_le_of_transGen (hs : s.Sound P db₀) (horder : s.AsksInOrder rank X)
    (hij : TransGen s.Waits i j) (hjk : s.Waits j k) {h h' : Held K A} (hi : s.wants i = some h)
    (hj : s.wants j = some h') : rank h.1 ≤ rank h'.1 := by
  induction hij generalizing k h' with
  | single hij => exact (hs.rank_lt horder hij hjk hi hj).elim le_of_lt And.right
  | tail _ hjk' ih =>
    obtain ⟨-, h₁, hj₁, -⟩ := id hjk'
    exact (ih hjk' hj₁).trans ((hs.rank_lt horder hjk' hjk hj₁ hj).elim le_of_lt And.right)

omit [DecidableEq K] [DecidableEq A] in
/-- A cycle runs through elements on cycles. -/
theorem transGen_cycle {α : Type} {r : α → α → Prop} {a : α} (h : TransGen r a a) :
    TransGen (fun b c => r b c ∧ TransGen r b b ∧ TransGen r c c) a a := by
  have key : ∀ {b}, TransGen r a b → ReflTransGen r b a →
      TransGen (fun b c => r b c ∧ TransGen r b b ∧ TransGen r c c) a b := by
    intro b hab hba
    induction hab with
    | single hab => exact .single ⟨hab, h, .tail' hba hab⟩
    | tail hab hbc ih =>
      have hbb := (TransGen.head' hbc hba).trans hab
      exact (ih (.head hbc hba)).tail ⟨hbc, hbb, .trans_right hba (hab.tail hbc)⟩
  exact key h .refl

/-- A request on a cycle asks out of order. -/
theorem Server.Sound.of_cycle (hs : s.Sound P db₀) (horder : s.AsksInOrder rank X)
    (hcycle : TransGen s.Waits i i) : X i := by
  obtain ⟨k, hik, -⟩ := TransGen.head'_iff.mp hcycle
  obtain ⟨j, hij, hji⟩ := TransGen.tail'_iff.mp hcycle
  obtain ⟨-, h, hi, -⟩ := id hik
  obtain ⟨-, h', hj, -⟩ := id hji
  rcases hs.rank_lt horder hji hik hj hi with hlt | ⟨hX, -⟩
  · -- the ranks have not fallen on the way back
    refine absurd hlt (not_lt_of_ge ?_)
    rcases reflTransGen_iff_eq_or_transGen.mp hij with rfl | hij
    · obtain rfl : h = h' := Option.some.inj (hi.symm.trans hj)
      exact le_rfl
    · exact hs.rank_le_of_transGen horder hij hji hi hj
  · exact hX

/-- **A deadlock is a cycle of requests that ask out of order.** -/
theorem Server.Sound.exists_cycle (hs : s.Sound P db₀) (horder : s.AsksInOrder rank X)
    (h : s.Deadlocked) : ∃ i, TransGen (fun i j => s.Waits i j ∧ X i ∧ X j) i i := by
  obtain ⟨i, hcycle⟩ := h
  refine ⟨i, TransGen.mono ?_ i i (transGen_cycle hcycle)⟩
  rintro j k ⟨hjk, hj, hk⟩
  exact ⟨hjk, hs.of_cycle horder hj, hs.of_cycle horder hk⟩

end Order

/-! ## What a program asks for -/

/-- The transaction in `ℓ'` is the one in `ℓ`, after reads. -/
structure Local.Reads (ℓ ℓ' : Local Row A Q) : Prop where
  ext : ℓ.Extends ℓ'
  locks : ℓ'.locks = ℓ.locks
  buf : ℓ'.buf = ℓ.buf
  published : ℓ'.published = ℓ.published

omit [DecidableEq K] [DecidableEq A] in
theorem Local.Reads.of_see {ℓ ℓ' : Local Row A Q} {q : Q} {s : Store Row}
    (h : (ℓ.see q s).Reads ℓ') : ℓ.Reads ℓ' := ⟨.trans (.see q s) h.ext, h.locks, h.buf, h.published⟩

namespace Prog

variable {α β : Type}

/-- The program, run from the local state `ℓ`: every lock it asks for satisfies `ok` in the local state
it is asked for in, and what it ends with satisfies `post`. -/
def asks (P : Protocol Row A Q R) (ok : Local Row A Q → Held K A → Prop) :
    Prog Row A Q E α → Local Row A Q → (α → Local Row A Q → Prop) → Prop
  | .ret a, ℓ, post => post a ℓ
  | .throw _, _, _ => True
  | .select q next, ℓ, post =>
    ∀ db, ℓ.Since P db → asks P ok (next (ℓ.view db)) (ℓ.see q db) post
  | .acquire l m next, ℓ, post =>
    ok ℓ (l, m) ∧ ∀ db, ℓ.Since P db → asks P ok (next (ℓ.view db)) (ℓ.hold (l, m) db) post
  | .put k v next, ℓ, post =>
    ok ℓ (.row k, .exclusive) ∧ ∀ db, ℓ.Since P db → asks P ok next (ℓ.write ⟨k, v⟩ db) post
  | .commit next, ℓ, post => ∀ db, ℓ.Since P db → asks P ok next (ℓ.publish db) post

variable {P : Protocol Row A Q R} {ok : Local Row A Q → Held K A → Prop} {p : Prog Row A Q E α}
  {f : α → Prog Row A Q E β} {ℓ : Local Row A Q}

/-- **The rule of sequence.** -/
theorem asks_bind {post : β → Local Row A Q → Prop} :
    (p.bind f).asks P ok ℓ post ↔ p.asks P ok ℓ fun a ℓ => (f a).asks P ok ℓ post := by
  induction p generalizing ℓ with
  | ret a => exact Iff.rfl
  | throw e => exact Iff.rfl
  | select q next ih => exact forall₂_congr fun db _ => ih (ℓ.view db)
  | acquire l m next ih => exact and_congr_right fun _ => forall₂_congr fun db _ => ih (ℓ.view db)
  | put k v next ih => exact and_congr_right fun _ => forall₂_congr fun db _ => ih
  | commit next ih => exact forall₂_congr fun db _ => ih

section Rules

variable {post post' : α → Local Row A Q → Prop}

/-- The rule of consequence. -/
theorem asks_mono (hp : p.asks P ok ℓ post) (h : ∀ a ℓ, post a ℓ → post' a ℓ) :
    p.asks P ok ℓ post' := by
  induction p generalizing ℓ with
  | ret a => exact h _ _ hp
  | throw e => trivial
  | select q next ih => exact fun db hd => ih _ (hp db hd)
  | acquire l m next ih => exact ⟨hp.1, fun db hd => ih _ (hp.2 db hd)⟩
  | put k v next ih => exact ⟨hp.1, fun db hd => ih (hp.2 db hd)⟩
  | commit next ih => exact fun db hd => ih (hp db hd)

/-- Which error is thrown does not matter. -/
theorem asks_mapThrow {g : E → E} : (p.mapThrow g).asks P ok ℓ post ↔ p.asks P ok ℓ post := by
  induction p generalizing ℓ with
  | ret a => exact Iff.rfl
  | throw e => exact Iff.rfl
  | select q next ih => exact forall₂_congr fun db _ => ih (ℓ.view db)
  | acquire l m next ih => exact and_congr_right fun _ => forall₂_congr fun db _ => ih (ℓ.view db)
  | put k v next ih => exact and_congr_right fun _ => forall₂_congr fun db _ => ih
  | commit next ih => exact forall₂_congr fun db _ => ih

theorem asks_ensure {c : Prop} [Decidable c] {e : E} {post : Unit → Local Row A Q → Prop}
    (h : c → post () ℓ) : (ensure c e : Prog Row A Q E Unit).asks P ok ℓ post := by
  by_cases hc : c
  · rw [ensure, if_pos hc]
    exact h hc
  · rw [ensure, if_neg hc]
    trivial

theorem asks_when {c : Prop} [Decidable c] {p : Prog Row A Q E Unit}
    {post : Unit → Local Row A Q → Prop} (h : c → p.asks P ok ℓ post) (hnot : ¬ c → post () ℓ) :
    (when c p).asks P ok ℓ post := by
  by_cases hc : c
  · rw [when, if_pos hc]
    exact h hc
  · rw [when, if_neg hc]
    exact hnot hc

theorem asks_orThrow {o : Option α} {e : E} (h : ∀ a, o = some a → post a ℓ) :
    (orThrow o e : Prog Row A Q E α).asks P ok ℓ post := by
  cases o with
  | none => trivial
  | some a => exact h a rfl

/-- A program that only queries asks for nothing and leaves the transaction as it is. -/
theorem asks_of_wp {r : R} (hp : p.OnlyQueries) (h : p.wp P r ℓ post) :
    p.asks P ok ℓ fun a ℓ' => post a ℓ' ∧ ℓ.Reads ℓ' := by
  induction p generalizing ℓ with
  | ret a => exact ⟨h, .refl ℓ, rfl, rfl, rfl⟩
  | throw e => trivial
  | select q next ih =>
    exact fun db hd => asks_mono (ih _ (hp _) (h db hd)) fun _ ℓ' hr => ⟨hr.1, hr.2.of_see⟩
  | acquire => exact hp.elim
  | put => exact hp.elim
  | commit => exact hp.elim

theorem asks_of_onlyQueries (hp : p.OnlyQueries) : p.asks P ok ℓ fun _ ℓ' => ℓ.Reads ℓ' := by
  induction p generalizing ℓ with
  | ret a => exact ⟨.refl ℓ, rfl, rfl, rfl⟩
  | throw e => trivial
  | select q next ih => exact fun db _ => asks_mono (ih _ (hp _)) fun _ ℓ' hr => hr.of_see
  | acquire => exact hp.elim
  | put => exact hp.elim
  | commit => exact hp.elim

/-- The commit of a transaction, after which nothing is asked for. -/
theorem asks_transaction (h : p.asks P ok ℓ fun _ _ => True) (hpost : ∀ a ℓ, post a ℓ) :
    p.transaction.asks P ok ℓ post :=
  asks_bind.mpr (asks_mono h fun a _ _ _ _ => hpost a _)

end Rules

end Prog

/-! ## Asking in order -/

namespace Local

variable {P : Protocol Row A Q R} {I : Store Row → Prop} {F G : Store Row → Prop}
  {ℓ ℓ' : Local Row A Q}

/-- Whatever is committed from now on, the committed store satisfies `F`, where it and the stores the
request has read satisfy `I`. -/
def Always (P : Protocol Row A Q R) (I : Store Row → Prop) (ℓ : Local Row A Q)
    (F : Store Row → Prop) : Prop :=
  ∀ db, ℓ.Since P db → (∀ q ∈ ℓ.seen, I q.2) → I db → F db

theorem Always.extend (h : ℓ.Always P I F) (he : ℓ.Extends ℓ') : ℓ'.Always P I F :=
  fun db hs hseen => h db (fun x hx => hs x (he.marks hx)) fun q hq => hseen q (he.seen hq)

theorem Always.and (h : ℓ.Always P I F) (h' : ℓ.Always P I G) : ℓ.Always P I fun db => F db ∧ G db :=
  fun db hs hseen hI => ⟨h db hs hseen hI, h' db hs hseen hI⟩

theorem Always.mono (h : ℓ.Always P I F) (hFG : ∀ db, F db → G db) : ℓ.Always P I G :=
  fun db hs hseen hI => hFG db (h db hs hseen hI)

theorem Always.of_forall (h : ∀ db, I db → F db) : ℓ.Always P I F := fun db _ _ hI => h db hI

/-- What the commit of a piece of a transaction can rely on. -/
theorem Ran.always {r : R} {ws : List (Write Row)} {C : Commit Row A Q R → Prop}
    (h : ℓ.Ran P r ℓ' ws C)
    (hC : ∀ c : Commit Row A Q R, C c → (∀ q ∈ c.seen, I q.2) → I c.before → F c.before) :
    ℓ'.Always P I F :=
  fun db hs hseen hI => hC _ (h.facts ℓ' db 0 [] (.refl ℓ') hs) hseen hI

/-- A row whose lock has been granted stays as it was. -/
theorem Always.row_eq {k : K} {m : Mode} (s : Store Row) :
    (ℓ.hold (.row k, m) s).Always P I fun db => db.row k = s.row k :=
  fun _ hs _ _ => (hs (some (.row k, m), s)
    (List.mem_append_left _ (List.mem_cons_of_mem _ List.mem_cons_self))).row_eq

variable [Preorder L] {rank : Store Row → Lock K A → L} {n n' : L} {h : Held K A} {s : Store Row}

/-- The lock is asked for in order, whatever is committed in the meantime. -/
def AsksInOrder (P : Protocol Row A Q R) (I : Store Row → Prop) (rank : Store Row → Lock K A → L)
    (ℓ : Local Row A Q) (h : Held K A) : Prop :=
  ℓ.Always P I fun db => InOrder (rank db) ℓ.locks h

/-- All the locks held rank below `n`, whatever is committed from now on. -/
def Below (P : Protocol Row A Q R) (I : Store Row → Prop) (rank : Store Row → Lock K A → L)
    (ℓ : Local Row A Q) (n : L) : Prop :=
  ℓ.Always P I fun db => ∀ l ∈ ℓ.locks, rank db l.1 < n

theorem Below.of_locks (h : ℓ.locks = []) (n : L) : ℓ.Below P I rank n :=
  fun _ _ _ _ _ hl => absurd (h ▸ hl) List.not_mem_nil

/-- A lock that ranks above all the locks held. -/
theorem Below.asksInOrder (hbelow : ℓ.Below P I rank n) (hn : ℓ.Always P I fun db => n ≤ rank db h.1) :
    ℓ.AsksInOrder P I rank h :=
  (hbelow.and hn).mono fun _ hdb => .inr fun l hl => (hdb.1 l hl).trans_le hdb.2

/-- A lock that is held exclusively. -/
theorem asksInOrder_of_held (hheld : (h.1, .exclusive) ∈ ℓ.locks) : ℓ.AsksInOrder P I rank h :=
  fun _ _ _ _ => .inl hheld

/-- Where nothing is held, any lock can be asked for. -/
theorem asksInOrder_of_locks (hlocks : ℓ.locks = []) : ℓ.AsksInOrder P I rank h :=
  fun _ _ _ _ => .inr fun _ hl => absurd (hlocks ▸ hl) List.not_mem_nil

/-- More statements that take no locks. -/
theorem Below.extend (hbelow : ℓ.Below P I rank n) (he : ℓ.Extends ℓ')
    (hlocks : ℓ'.locks ⊆ ℓ.locks) : ℓ'.Below P I rank n :=
  (Always.extend hbelow he).mono fun _ hdb l hl => hdb l (hlocks hl)

theorem Below.mono (hbelow : ℓ.Below P I rank n) (hn : n ≤ n') : ℓ.Below P I rank n' :=
  Always.mono hbelow fun _ hdb l hl => (hdb l hl).trans_le hn

/-- One more lock. -/
theorem Below.hold (hbelow : ℓ.Below P I rank n)
    (hlock : (ℓ.hold h s).Always P I fun db => rank db h.1 < n) : (ℓ.hold h s).Below P I rank n :=
  ((Always.extend hbelow (.hold h s)).and hlock).mono fun _ hdb =>
    List.forall_mem_cons.mpr ⟨hdb.2, hdb.1⟩

end Local

namespace Prog

variable [Preorder L] {P : Protocol Row A Q R} {I : Store Row → Prop}
  {rank : Store Row → Lock K A → L} {n n' : L} {ℓ : Local Row A Q}
  {ok : Local Row A Q → Held K A → Prop}
  (hok : ∀ ℓ h, Local.AsksInOrder P I rank ℓ h → ok ℓ h)

include hok

/-- A lock above those held. -/
theorem asks_lock {l : Lock K A} {m : Mode} {post : Store Row → Local Row A Q → Prop}
    (hbelow : ℓ.Below P I rank n) (hn : ℓ.Always P I fun db => n ≤ rank db l) (hle : n ≤ n')
    (hlt : ∀ db, rank db l < n')
    (h : ∀ s ℓ', ℓ.Extends ℓ' → (l, m) ∈ ℓ'.locks → ℓ'.Below P I rank n' → post (ℓ.view s) ℓ') :
    (lock l m : Prog Row A Q E _).asks P ok ℓ post :=
  ⟨hok _ _ (hbelow.asksInOrder hn), fun s _ => h s _ (.hold _ s) List.mem_cons_self
    ((hbelow.mono hle).hold fun db _ _ _ => hlt db)⟩

/-- A lock held exclusively already. -/
theorem asks_relock {l : Lock K A} {post : Store Row → Local Row A Q → Prop}
    (hheld : (l, .exclusive) ∈ ℓ.locks)
    (h : ∀ s ℓ', ℓ.Extends ℓ' → ℓ'.locks ⊆ ℓ.locks → post (ℓ.view s) ℓ') :
    (lock l .exclusive : Prog Row A Q E _).asks P ok ℓ post :=
  ⟨hok _ _ (Local.asksInOrder_of_held hheld), fun s _ =>
    h s _ (.hold _ s) (List.cons_subset.mpr ⟨hheld, List.Subset.refl _⟩)⟩

/-- A write of a row whose lock is held. -/
theorem asks_write {k : K} {v : Row k} {post : Unit → Local Row A Q → Prop}
    (hheld : (.row k, .exclusive) ∈ ℓ.locks)
    (h : ∀ ℓ', ℓ.Extends ℓ' → ℓ'.locks ⊆ ℓ.locks → post () ℓ') :
    (write k v : Prog Row A Q E _).asks P ok ℓ post :=
  ⟨hok _ _ (Local.asksInOrder_of_held hheld), fun s _ =>
    h _ (.write _ s) (List.cons_subset.mpr ⟨hheld, List.Subset.refl _⟩)⟩

end Prog

/-! ## Runs -/

section Reachable

variable {P : Protocol Row A Q R} {ok : R → Local Row A Q → Held K A → Prop} {db₀ : Store Row}
  {code : R → Prog Row A Q E V} {policy : Policy Row A Q E V R} {s : Server Row A Q E V R}

/-- Whatever the rest of the request asks for satisfies `ok`. -/
def Proc.Asks (P : Protocol Row A Q R) (ok : R → Local Row A Q → Held K A → Prop)
    (p : Proc Row A Q E V R) : Prop :=
  ∀ q, p.phase = .running q → q.asks P (ok p.req) p.loc fun _ _ => True

/-- One statement of a request. -/
theorem Proc.Asks.step {p p' : Proc Row A Q E V R} {i : ℕ} {others : List (List (Held K A))}
    {db : Store Row} {c : Option (Commit Row A Q R)} (h : p.Asks P ok) (hs : p.loc.Since P db)
    (hstep : p.step i others db = some (p', c)) : p'.Asks P ok := by
  obtain ⟨r, phase, ℓ⟩ := p
  cases phase with
  | running q =>
    have hq := h q rfl
    cases q with
    | ret v => cases hstep; exact nofun
    | throw e => cases hstep; exact nofun
    | select q next =>
      cases hstep
      rintro _ ⟨⟩
      exact hq db hs
    | acquire l m next =>
      simp only [Proc.step, Option.ite_none_right_eq_some] at hstep
      obtain ⟨-, hstep⟩ := hstep
      cases hstep
      rintro _ ⟨⟩
      exact hq.2 db hs
    | put k v next =>
      simp only [Proc.step, Option.ite_none_right_eq_some] at hstep
      obtain ⟨-, hstep⟩ := hstep
      cases hstep
      rintro _ ⟨⟩
      exact hq.2 db hs
    | commit next =>
      cases hstep
      rintro _ ⟨⟩
      exact hq db hs
  | done v => cases hstep
  | failed e => cases hstep
  | aborted => cases hstep

omit [DecidableEq A] in
theorem Server.procs_update (s : Server Row A Q E V R) (i : ℕ) (p' : Proc Row A Q E V R)
    (c : Option (Commit Row A Q R)) : (s.update i p' c).procs = s.procs.set i p' := by
  cases c <;> rfl

/-- A request stays the same. -/
theorem Proc.req_of_step {p p' : Proc Row A Q E V R} {i : ℕ} {others : List (List (Held K A))}
    {db : Store Row} {c : Option (Commit Row A Q R)} (h : p.step i others db = some (p', c)) :
    p'.req = p.req := by
  unfold Proc.step at h
  split at h <;> (try split at h) <;> cases h <;> rfl

/-- What the policy asks of the requests that come in holds of all requests. -/
theorem Reachable.forall_req {ops : R → Prop} (h : Reachable code policy db₀ s)
    (hops : ∀ s r, policy s (.spawn r) → ops r) : ∀ p ∈ s.procs, ops p.req := by
  induction h with
  | start => exact fun _ hp => absurd hp List.not_mem_nil
  | @next s s' e _ hpolicy hnext ih =>
    cases e with
    | spawn r =>
      cases hnext
      intro p hp
      rcases List.mem_append.mp hp with hp | hp
      · exact ih p hp
      · obtain rfl := List.mem_singleton.mp hp
        exact hops s r hpolicy
    | step i =>
      simp only [Server.next, Option.bind_eq_bind, Option.bind_eq_some_iff] at hnext
      obtain ⟨p, hi, ⟨p', c⟩, hstep, hs'⟩ := hnext
      cases hs'
      intro p₂ hp₂
      rw [Server.procs_update] at hp₂
      rcases List.mem_or_eq_of_mem_set hp₂ with hp₂ | rfl
      · exact ih p₂ hp₂
      · rw [Proc.req_of_step hstep]
        exact ih p (List.mem_of_getElem? hi)
    | abort i =>
      simp only [Server.next, Option.bind_eq_bind, Option.bind_eq_some_iff] at hnext
      obtain ⟨p, hi, p', habort, hs'⟩ := hnext
      cases hs'
      intro p₂ hp₂
      rcases List.mem_or_eq_of_mem_set hp₂ with hp₂ | rfl
      · exact ih p₂ hp₂
      · have hp := ih p (List.mem_of_getElem? hi)
        obtain ⟨r, phase, ℓ⟩ := p
        cases phase <;> cases habort
        exact hp

/-- The commits of a run, one event earlier. -/
theorem Server.history_subset {s s' : Server Row A Q E V R} {e : Event R}
    (h : s.next code e = some s') : s.history ⊆ s'.history := by
  cases e with
  | spawn r =>
    cases h
    exact List.Subset.refl _
  | step i =>
    simp only [Server.next, Option.bind_eq_bind, Option.bind_eq_some_iff] at h
    obtain ⟨p, -, ⟨p', c⟩, -, hs'⟩ := h
    cases hs'
    cases c with
    | none => exact List.Subset.refl _
    | some c => exact List.subset_cons_self c _
  | abort i =>
    simp only [Server.next, Option.bind_eq_bind, Option.bind_eq_some_iff] at h
    obtain ⟨p, -, p', -, hs'⟩ := h
    cases hs'
    exact List.Subset.refl _

/-- **Whatever a request asks for satisfies `ok`**, in every reachable state. -/
theorem Reachable.asks (h : Reachable code policy db₀ s)
    (hcode : ∀ s r, policy s (.spawn r) → (code r).wp P r {} fun _ _ => True)
    (hasks : ∀ s r, policy s (.spawn r) → (code r).asks P (ok r) {} fun _ _ => True)
    (hrely : ∀ c ∈ s.history, P.rely c) : ∀ p ∈ s.procs, p.Asks P ok := by
  induction h with
  | start => exact fun _ hp => absurd hp List.not_mem_nil
  | @next s s' e hs hpolicy hnext ih =>
    have hrely' := fun c hc => hrely c (Server.history_subset hnext hc)
    have ih := ih hrely'
    cases e with
    | spawn r =>
      cases hnext
      intro p hp
      rcases List.mem_append.mp hp with hp | hp
      · exact ih p hp
      · obtain rfl := List.mem_singleton.mp hp
        rintro _ ⟨⟩
        exact hasks s r hpolicy
    | step i =>
      simp only [Server.next, Option.bind_eq_bind, Option.bind_eq_some_iff] at hnext
      obtain ⟨p, hi, ⟨p', c⟩, hstep, hs'⟩ := hnext
      cases hs'
      intro p₂ hp₂
      rw [Server.procs_update] at hp₂
      rcases List.mem_or_eq_of_mem_set hp₂ with hp₂ | rfl
      · exact ih p₂ hp₂
      · have hsince := ((hs.sound hcode hrely').procs i p hi).since
        exact (ih p (List.mem_of_getElem? hi)).step hsince hstep
    | abort i =>
      simp only [Server.next, Option.bind_eq_bind, Option.bind_eq_some_iff] at hnext
      obtain ⟨p, -, p', habort, hs'⟩ := hnext
      cases hs'
      intro p₂ hp₂
      rcases List.mem_or_eq_of_mem_set hp₂ with hp₂ | rfl
      · exact ih p₂ hp₂
      · obtain ⟨r, phase, ℓ⟩ := p
        cases phase <;> cases habort
        intro q hq
        cases hq

/-- The lock the next statement needs satisfies `ok`. -/
theorem Proc.Asks.wants {p : Proc Row A Q E V R} (h : p.Asks P ok) {l : Held K A}
    (hw : p.phase.wants = some l) : ok p.req p.loc l := by
  obtain ⟨r, phase, ℓ⟩ := p
  cases phase with
  | running q =>
    have hq := h q rfl
    cases q with
    | acquire l m next =>
      cases hw
      exact hq.1
    | put k v next =>
      cases hw
      exact hq.1
    | ret => cases hw
    | throw => cases hw
    | select => cases hw
    | commit => cases hw
  | done v => cases hw
  | failed e => cases hw
  | aborted => cases hw

/-- The lock a request waits for satisfies `ok`, in the local state the request has reached. -/
theorem Reachable.asks_of_wants (h : Reachable code policy db₀ s)
    (hcode : ∀ s r, policy s (.spawn r) → (code r).wp P r {} fun _ _ => True)
    (hasks : ∀ s r, policy s (.spawn r) → (code r).asks P (ok r) {} fun _ _ => True)
    (hrely : ∀ c ∈ s.history, P.rely c) {i : ℕ} {l : Held K A} (hw : s.wants i = some l) :
    ∃ p, s.procs[i]? = some p ∧ s.locks i = p.loc.locks ∧ ok p.req p.loc l := by
  obtain ⟨p, hi, hw⟩ := Option.bind_eq_some_iff.mp hw
  refine ⟨p, hi, ?_, (h.asks hcode hasks hrely p (List.mem_of_getElem? hi)).wants hw⟩
  rw [Server.locks, hi, Option.map_some, Option.getD_some]

end Reachable

end ReadCommitted
