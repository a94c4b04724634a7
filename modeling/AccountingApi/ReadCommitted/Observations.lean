import AccountingApi.ReadCommitted.Soundness

/-!
# What a transaction has read and written

A condition on the reads of a request and the writes of its transaction is met by every commit of a run
if it is met on every path through the program, whatever its statements see. Nothing has to be known of
the other requests.

## Main definitions

* `Prog.observes`: every commit of a program meets a condition on its reads and writes

## Main results

* `Prog.observes_bind`: the rule of sequence
* `Prog.observes_of_seen`: what has been read stays read
* `Reachable.observed`: the commits of a run
-/

namespace ReadCommitted

variable {K A : Type} {Row : K → Type} {Q E V R : Type}

namespace Prog

variable {α β : Type} {F : List (Q × Store Row) → List (Write Row) → Prop}
  {seen : List (Q × Store Row)} {buf : List (Write Row)}

section Defs

variable [DecidableEq K]

/-- Whatever its statements see, the program, having read `seen` and written `buf`, commits only reads
and writes that satisfy `F`, and what it ends with satisfies `post`. -/
def observes (F : List (Q × Store Row) → List (Write Row) → Prop) :
    Prog Row A Q E α → List (Q × Store Row) → List (Write Row) →
      (α → List (Q × Store Row) → List (Write Row) → Prop) → Prop
  | .ret a, seen, buf, post => post a seen buf
  | .throw _, _, _, _ => True
  | .select q next, seen, buf, post =>
    ∀ db : Store Row, (next (db.putAll buf)).observes F ((q, db) :: seen) buf post
  | .acquire _ _ next, seen, buf, post =>
    ∀ db : Store Row, (next (db.putAll buf)).observes F seen buf post
  | .put k v next, seen, buf, post => next.observes F seen (buf ++ [⟨k, v⟩]) post
  | .commit next, seen, buf, post => F seen buf ∧ next.observes F seen [] post

/-- **The rule of sequence.** -/
theorem observes_bind {p : Prog Row A Q E α} {f : α → Prog Row A Q E β}
    {post : β → List (Q × Store Row) → List (Write Row) → Prop} :
    (p.bind f).observes F seen buf post ↔
      p.observes F seen buf fun a seen buf => (f a).observes F seen buf post := by
  induction p generalizing seen buf with
  | ret a => exact Iff.rfl
  | throw e => exact Iff.rfl
  | select q next ih => exact forall_congr' fun db => ih (db.putAll buf)
  | acquire l m next ih => exact forall_congr' fun db => ih (db.putAll buf)
  | put k v next ih => exact ih
  | commit next ih => exact and_congr_right fun _ => ih

/-- The rule of consequence. -/
theorem observes_mono {p : Prog Row A Q E α}
    {post post' : α → List (Q × Store Row) → List (Write Row) → Prop}
    (hp : p.observes F seen buf post) (h : ∀ a seen buf, post a seen buf → post' a seen buf) :
    p.observes F seen buf post' := by
  induction p generalizing seen buf with
  | ret a => exact h _ _ _ hp
  | throw e => trivial
  | select q next ih => exact fun db => ih _ (hp db)
  | acquire l m next ih => exact fun db => ih _ (hp db)
  | put k v next ih => exact ih hp
  | commit next ih => exact ⟨hp.1, ih hp.2⟩

/-- Which error is thrown does not matter. -/
theorem observes_mapThrow {p : Prog Row A Q E α} {g : E → E}
    {post : α → List (Q × Store Row) → List (Write Row) → Prop} :
    (p.mapThrow g).observes F seen buf post ↔ p.observes F seen buf post := by
  induction p generalizing seen buf with
  | ret a => exact Iff.rfl
  | throw e => exact Iff.rfl
  | select q next ih => exact forall_congr' fun db => ih (db.putAll buf)
  | acquire l m next ih => exact forall_congr' fun db => ih (db.putAll buf)
  | put k v next ih => exact ih
  | commit next ih => exact and_congr_right fun _ => ih

/-- **What has been read stays read**: where the reads so far are enough for the condition, it does not
matter how the program goes on. -/
theorem observes_of_seen {p : Prog Row A Q E α} (h : ∀ seen' buf', seen ⊆ seen' → F seen' buf') :
    p.observes F seen buf fun _ seen' _ => seen ⊆ seen' := by
  suffices hall : ∀ seen' buf', seen ⊆ seen' →
      p.observes F seen' buf' fun _ seen' _ => seen ⊆ seen' from hall seen buf fun _ hq => hq
  induction p with
  | ret a => exact fun seen' _ hsub => hsub
  | throw e => exact fun _ _ _ => trivial
  | select q next ih =>
    exact fun seen' buf' hsub db => ih _ _ buf' fun x hx => List.mem_cons_of_mem _ (hsub hx)
  | acquire l m next ih => exact fun seen' buf' hsub db => ih _ seen' buf' hsub
  | put k v next ih => exact fun seen' buf' hsub => ih seen' _ hsub
  | commit next ih => exact fun seen' buf' hsub => ⟨h seen' buf' hsub, ih seen' [] hsub⟩

theorem observes_anyhow {p : Prog Row A Q E α} (h : ∀ seen' buf', seen ⊆ seen' → F seen' buf') :
    p.observes F seen buf fun _ _ _ => True :=
  observes_mono (observes_of_seen h) fun _ _ _ _ => trivial

/-- The value of a program as an answer. -/
theorem observes_answer {p : Prog Row A Q E α} {f : α → β}
    (h : p.observes F seen buf fun _ _ _ => True) :
    (p.bind fun a => .ret (f a)).observes F seen buf fun _ _ _ => True :=
  observes_bind.mpr (observes_mono h fun _ _ _ _ => trivial)

end Defs

section Rules

variable [DecidableEq K]

theorem observes_ensure {c : Prop} [Decidable c] {e : E}
    {post : Unit → List (Q × Store Row) → List (Write Row) → Prop} (h : c → post () seen buf) :
    (ensure c e : Prog Row A Q E Unit).observes F seen buf post := by
  by_cases hc : c
  · rw [ensure, if_pos hc]
    exact h hc
  · rw [ensure, if_neg hc]
    trivial

theorem observes_orThrow {o : Option α} {e : E}
    {post : α → List (Q × Store Row) → List (Write Row) → Prop}
    (h : ∀ a, o = some a → post a seen buf) :
    (orThrow o e : Prog Row A Q E α).observes F seen buf post := by
  cases o with
  | none => trivial
  | some a => exact h a rfl

theorem observes_ofExcept {x : Except E α}
    {post : α → List (Q × Store Row) → List (Write Row) → Prop}
    (h : ∀ a, x = .ok a → post a seen buf) :
    (ofExcept x : Prog Row A Q E α).observes F seen buf post := by
  cases x with
  | error e => trivial
  | ok a => exact h a rfl

/-- A query of a request that has written nothing. -/
theorem observes_query {q : Q} {post : Store Row → List (Q × Store Row) → List (Write Row) → Prop}
    (h : ∀ db, post db ((q, db) :: seen) []) :
    (query q : Prog Row A Q E _).observes F seen [] post := by
  intro db
  rw [Store.putAll_nil]
  exact h db

theorem observes_lock {l : Lock K A} {m : Mode}
    {post : Store Row → List (Q × Store Row) → List (Write Row) → Prop}
    (h : ∀ db, post db seen buf) : (lock l m : Prog Row A Q E _).observes F seen buf post :=
  fun db => h (db.putAll buf)

end Rules

end Prog

/-! ## Runs -/

section Runs

variable [DecidableEq K] [DecidableEq A] {F : R → List (Q × Store Row) → List (Write Row) → Prop}

/-- The commits whose reads and writes meet the condition of their request. -/
def Observed (F : R → List (Q × Store Row) → List (Write Row) → Prop) : Protocol Row A Q R where
  guar := fun c => F c.req c.seen c.writes
  rely := fun _ => True
  late := fun _ => True

/-- A program that observes a condition keeps the protocol. -/
theorem Prog.wp_of_observes {α : Type} {r : R} {p : Prog Row A Q E α} {ℓ : Local Row A Q}
    {post : α → List (Q × Store Row) → List (Write Row) → Prop}
    (h : p.observes (F r) ℓ.seen ℓ.buf post) :
    p.wp (Observed F) r ℓ fun a ℓ' => post a ℓ'.seen ℓ'.buf := by
  induction p generalizing ℓ with
  | ret a => exact h
  | throw e => exact fun _ => trivial
  | select q next ih => exact fun db _ => ih (ℓ.view db) (ℓ := ℓ.see q db) (h db)
  | acquire l m next ih => exact fun db _ => ih (ℓ.view db) (ℓ := ℓ.hold (l, m) db) (h db)
  | put k v next ih => exact fun db _ => ih (ℓ := ℓ.write ⟨k, v⟩ db) h
  | commit next ih => exact fun db _ => ⟨fun _ _ => h.1, ih (ℓ := ℓ.publish db) h.2⟩

variable {code : R → Prog Row A Q E V} {policy : Policy Row A Q E V R} {db₀ : Store Row}
  {s : Server Row A Q E V R}

/-- **Every commit of a run** meets a condition that the programs observe. -/
theorem Reachable.observed (h : Reachable code policy db₀ s)
    (hcode : ∀ r, (code r).observes (F r) [] [] fun _ _ _ => True) :
    ∀ c ∈ s.history, F c.req c.seen c.writes := by
  have hsound : s.Sound (Observed F) db₀ :=
    h.sound (fun _ r _ => Prog.wp_mono (Prog.wp_of_observes (hcode r)) fun _ _ _ => trivial)
      fun _ _ => trivial
  intro c hc
  obtain ⟨hguar, -⟩ := hsound.chain.of_mem (D := fun _ _ => True) (fun _ => trivial)
    (fun _ _ _ _ _ => trivial) (fun _ _ => trivial) hc
  exact hguar

end Runs

end ReadCommitted
