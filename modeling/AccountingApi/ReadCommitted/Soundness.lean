import AccountingApi.ReadCommitted.Logic

/-!
# The commits of a run form a chain

When every program keeps the protocol, the commits of a run form a chain: each finds the store the
one before it left, meets the guarantee, and has read only stores that were committed before it. An
invariant of the committed store is then an induction over that chain.

## Main definitions

* `Chain`: a history of guaranteed commits
* `Past`: the stores a history went through
* `CommittedBy`: a store was committed when another one was
* `Server.Sound`: what holds of the server after every event

## Main results

* `Reachable.sound`: every reachable server is sound
* `Chain.past`: a relation each commit keeps relates every past store to the present one
* `Chain.always`: invariants of all committed stores
* `Chain.since`: invariants from some commit on
* `Chain.of_mem`: what holds of every commit of the history
* `Server.Sound.failed`: a request that failed has committed nothing, unless it may fail late
-/

namespace ReadCommitted

variable {K A : Type} [DecidableEq K] [DecidableEq A] {Row : K → Type} {Q E V R : Type}

/-- The store was committed at some point of the history that starts with `db₀`. -/
def Past (db₀ : Store Row) (h : List (Commit Row A Q R)) (db : Store Row) : Prop :=
  db = db₀ ∨ ∃ c ∈ h, db = c.after

/-- The history leads from `db₀` to `db`, the last commit first. -/
inductive Chain (P : Protocol Row A Q R) (db₀ : Store Row) :
    List (Commit Row A Q R) → Store Row → Prop
  | nil : Chain P db₀ [] db₀
  | cons {h : List (Commit Row A Q R)} (c : Commit Row A Q R) : Chain P db₀ h c.before →
      P.guar c → c.WritesLocked → (∀ L ∈ c.others, Compatible c.locks L) →
      (∀ q ∈ c.seen, Past db₀ h q.2) → Chain P db₀ (c :: h) c.after

omit [DecidableEq A] in
theorem Past.mono {db₀ db : Store Row} {h : List (Commit Row A Q R)} (c : Commit Row A Q R)
    (hp : Past db₀ h db) : Past db₀ (c :: h) db :=
  hp.imp_right fun ⟨c', hc', he⟩ => ⟨c', List.mem_cons_of_mem c hc', he⟩

omit [DecidableEq A] in
theorem Past.append {db₀ db : Store Row} {h : List (Commit Row A Q R)}
    (h₂ : List (Commit Row A Q R)) (hp : Past db₀ h db) : Past db₀ (h₂ ++ h) db :=
  hp.imp_right fun ⟨c', hc', he⟩ => ⟨c', List.mem_append_right h₂ hc', he⟩

omit [DecidableEq A] in
theorem past_cons {db₀ db : Store Row} {h : List (Commit Row A Q R)} {c : Commit Row A Q R} :
    Past db₀ (c :: h) db ↔ db = c.after ∨ Past db₀ h db := by
  simp only [Past, List.exists_mem_cons_iff, or_left_comm]

section Chain

variable {P : Protocol Row A Q R} {db₀ db : Store Row} {h : List (Commit Row A Q R)}

/-- The present store is one of the past ones. -/
theorem Chain.past_self (hc : Chain P db₀ h db) : Past db₀ h db := by
  cases hc with
  | nil => exact .inl rfl
  | cons c => exact .inr ⟨c, List.mem_cons_self, rfl⟩

/-- **Invariants by induction over the commits.** -/
theorem Chain.invariant {I : List (Commit Row A Q R) → Store Row → Prop} (hc : Chain P db₀ h db)
    (h₀ : I [] db₀)
    (hstep : ∀ c h, Chain P db₀ h c.before → P.guar c → (∀ q ∈ c.seen, Past db₀ h q.2) →
      I h c.before → I (c :: h) c.after) :
    I h db := by
  induction hc with
  | nil => exact h₀
  | cons c hchain hguar _ _ hseen ih => exact hstep c _ hchain hguar hseen ih

/-- A preorder each commit keeps relates every past store to the present one. -/
theorem Chain.past {D : Store Row → Store Row → Prop} (hc : Chain P db₀ h db)
    (hrefl : ∀ s, D s s) (htrans : ∀ s t u, D s t → D t u → D s u)
    (hstep : ∀ c : Commit Row A Q R, P.guar c → D c.before c.after) {s : Store Row}
    (hs : Past db₀ h s) : D s db := by
  induction hc generalizing s with
  | nil =>
    rcases hs with rfl | ⟨c, hc, -⟩
    · exact hrefl s
    · exact absurd hc List.not_mem_nil
  | @cons h c hchain hguar _ _ _ ih =>
    have key : ∀ s, Past db₀ h s → D s c.after := fun s hs =>
      htrans _ _ _ (ih hs) (hstep c hguar)
    rcases hs with rfl | ⟨c', hc', rfl⟩
    · exact key _ (.inl rfl)
    · rcases List.mem_cons.mp hc' with rfl | hc'
      · exact hrefl _
      · exact key _ (.inr ⟨c', hc', rfl⟩)

/-- **Invariants of all committed stores.** A commit may rely on the invariant at the stores its request
has read as well, and on how those relate to the store it finds. -/
theorem Chain.always {I : Store Row → Prop} {D : Store Row → Store Row → Prop}
    (hc : Chain P db₀ h db) (hrefl : ∀ s, D s s) (htrans : ∀ s t u, D s t → D t u → D s u)
    (hD : ∀ c : Commit Row A Q R, P.guar c → D c.before c.after) (h₀ : I db₀)
    (hstep : ∀ c ∈ h, P.guar c → I c.before → (∀ q ∈ c.seen, I q.2 ∧ D q.2 c.before) →
      I c.after) : ∀ s, Past db₀ h s → I s := by
  induction hc with
  | nil =>
    rintro s (rfl | ⟨c, hc, -⟩)
    · exact h₀
    · exact absurd hc List.not_mem_nil
  | @cons h c hchain hguar _ _ hseen ih =>
    have hpast := ih fun c' hc' => hstep c' (List.mem_cons_of_mem c hc')
    rintro s (rfl | ⟨c', hc', rfl⟩)
    · exact h₀
    · rcases List.mem_cons.mp hc' with rfl | hc'
      · exact hstep _ List.mem_cons_self hguar (hpast _ hchain.past_self) fun q hq =>
          ⟨hpast _ (hseen q hq), hchain.past hrefl htrans hD (hseen q hq)⟩
      · exact hpast _ (.inr ⟨c', hc', rfl⟩)

/-- A commit of the history: it meets the guarantee and finds a store of the past, to which those its
request has read are related. -/
theorem Chain.of_mem {D : Store Row → Store Row → Prop} (hc : Chain P db₀ h db)
    (hrefl : ∀ s, D s s) (htrans : ∀ s t u, D s t → D t u → D s u)
    (hD : ∀ c : Commit Row A Q R, P.guar c → D c.before c.after) {c : Commit Row A Q R}
    (hmem : c ∈ h) :
    P.guar c ∧ Past db₀ h c.before ∧ ∀ q ∈ c.seen, Past db₀ h q.2 ∧ D q.2 c.before := by
  induction hc with
  | nil => cases hmem
  | cons c' hchain hguar _ _ hseen ih =>
    rcases List.mem_cons.mp hmem with rfl | hmem
    · exact ⟨hguar, hchain.past_self.mono c, fun q hq =>
        ⟨(hseen q hq).mono c, hchain.past hrefl htrans hD (hseen q hq)⟩⟩
    · obtain ⟨hguar, hbefore, hseen⟩ := ih hmem
      exact ⟨hguar, hbefore.mono c', fun q hq => (hseen q hq).imp_left (Past.mono c')⟩

/-- The first commits of a history are one. -/
theorem Chain.of_append {h₁ h₂ : List (Commit Row A Q R)} (hc : Chain P db₀ (h₂ ++ h₁) db) :
    ∃ db₁, Chain P db₀ h₁ db₁ := by
  induction h₂ generalizing db with
  | nil => exact ⟨db, hc⟩
  | cons c h₂ ih =>
    cases hc with
    | cons c hchain => exact ih hchain

/-- The last commit of a history. -/
theorem Chain.last {c : Commit Row A Q R} (hc : Chain P db₀ (c :: h) db) :
    Chain P db₀ h c.before ∧ P.guar c ∧ (∀ q ∈ c.seen, Past db₀ h q.2) ∧ db = c.after := by
  cases hc with
  | cons c hchain hguar _ _ hseen => exact ⟨hchain, hguar, hseen, rfl⟩

/-- A row that a commit has left is still there. -/
theorem Chain.row_ne_none (hc : Chain P db₀ h db) {c : Commit Row A Q R} (hmem : c ∈ h) {k : K}
    (hrow : c.after.row k ≠ none) : db.row k ≠ none := by
  induction hc with
  | nil => cases hmem
  | cons c' _ _ _ _ _ ih =>
    rcases List.mem_cons.mp hmem with rfl | hmem
    · exact hrow
    · exact fun hnone => ih hmem (Store.row_eq_none_of_putAll hnone)

/-- **A row is created by one commit only.** -/
theorem Chain.eq_of_creates (hc : Chain P db₀ h db) {c c' : Commit Row A Q R} (hmem : c ∈ h)
    (hmem' : c' ∈ h) {k : K} (hcreates : c.before.row k = none ∧ c.after.row k ≠ none)
    (hcreates' : c'.before.row k = none ∧ c'.after.row k ≠ none) : c = c' := by
  induction hc with
  | nil => cases hmem
  | cons c₀ hchain _ _ _ _ ih =>
    rcases List.mem_cons.mp hmem with heq | hold
    · rcases List.mem_cons.mp hmem' with heq' | hold'
      · exact heq.trans heq'.symm
      · exact absurd (heq ▸ hcreates.1) (hchain.row_ne_none hold' hcreates'.2)
    · rcases List.mem_cons.mp hmem' with heq' | hold'
      · exact absurd (heq' ▸ hcreates'.1) (hchain.row_ne_none hold hcreates.2)
      · exact ih hold hold'

/-- The present store is the first one with the writes of all commits. -/
theorem Chain.eq_putAll (hc : Chain P db₀ h db) :
    db = db₀.putAll (h.reverse.flatMap (·.writes)) := by
  induction hc with
  | nil => rfl
  | cons c _ _ _ _ _ ih =>
    rw [List.reverse_cons, List.flatMap_append, Store.putAll_append, ← ih, List.flatMap_singleton]
    rfl

/-- Every past store is the one some of the first commits leave. -/
theorem Chain.split_of_past (hc : Chain P db₀ h db) {s : Store Row} (hs : Past db₀ h s) :
    ∃ h₂ h₁, h = h₂ ++ h₁ ∧ Chain P db₀ h₁ s := by
  rcases hs with rfl | ⟨c, hmem, rfl⟩
  · exact ⟨h, [], (List.append_nil h).symm, .nil⟩
  · obtain ⟨h₂, h₁, rfl⟩ := List.append_of_mem hmem
    obtain ⟨db₁, hchain⟩ := hc.of_append
    obtain ⟨-, -, -, rfl⟩ := hchain.last
    exact ⟨h₂, c :: h₁, rfl, hchain⟩

/-- `s₂` was committed at some point of the history, `s₁` by then. -/
def CommittedBy (P : Protocol Row A Q R) (db₀ : Store Row) (h : List (Commit Row A Q R))
    (s₁ s₂ : Store Row) : Prop :=
  ∃ h₁, h₁ <:+ h ∧ Chain P db₀ h₁ s₂ ∧ Past db₀ h₁ s₁

theorem CommittedBy.past {s₁ s₂ : Store Row} (hs : CommittedBy P db₀ h s₁ s₂) : Past db₀ h s₁ := by
  obtain ⟨h₁, ⟨h₂, rfl⟩, -, hpast⟩ := hs
  exact hpast.append h₂

/-- **Invariants from some commit on.** -/
theorem Chain.since {I : Store Row → Prop} {h₁ h₂ : List (Commit Row A Q R)} {db₁ : Store Row}
    (hc : Chain P db₀ (h₂ ++ h₁) db) (hc₁ : Chain P db₀ h₁ db₁) (hI : I db₁)
    (hstep : ∀ c ∈ h₂, P.guar c → I c.before → I c.after) : I db := by
  induction h₂ generalizing db with
  | nil =>
    rw [List.nil_append] at hc
    rwa [hc.eq_putAll, ← hc₁.eq_putAll]
  | cons c h₂ ih =>
    obtain ⟨hchain, hguar, -, rfl⟩ := Chain.last hc
    refine hstep c List.mem_cons_self hguar (ih hchain fun c' hc' => ?_)
    exact hstep c' (List.mem_cons_of_mem c hc')

end Chain

/-- Every lock a statement is marked with is still held. -/
def Local.MarksLocked (ℓ : Local Row A Q) : Prop := ∀ x ∈ ℓ.marks, ∀ l ∈ x.1, l ∈ ℓ.locks

/-- What holds of a request after every event. -/
structure Proc.Sound (P : Protocol Row A Q R) (db₀ : Store Row) (s : Server Row A Q E V R) (i : Nat)
    (p : Proc Row A Q E V R) : Prop where
  keeps : ∀ q, p.phase = .running q → q.wp P p.req p.loc fun _ _ => True
  since : p.loc.Since P s.db
  marks : p.loc.MarksLocked
  locked : ∀ w ∈ p.loc.buf, (Lock.row w.1, Mode.exclusive) ∈ p.loc.locks
  seen : ∀ q ∈ p.loc.seen, Past db₀ s.history q.2
  failed : ∀ e, p.phase = .failed e → p.loc.published = true → P.late p.req
  silent : p.loc.published = false → ∀ c ∈ s.history, c.pid ≠ i

/-- What holds of the server after every event. -/
structure Server.Sound (P : Protocol Row A Q R) (db₀ : Store Row) (s : Server Row A Q E V R) :
    Prop where
  chain : Chain P db₀ s.history s.db
  procs : ∀ (i : Nat) (p : Proc Row A Q E V R), s.procs[i]? = some p → p.Sound P db₀ s i
  compat : ∀ (i j : Nat) (p p' : Proc Row A Q E V R), i ≠ j → s.procs[i]? = some p →
    s.procs[j]? = some p' → Compatible p.loc.locks p'.loc.locks
  origin : ∀ c ∈ s.history, ∃ p, s.procs[c.pid]? = some p ∧ p.req = c.req

section Since

variable {P : Protocol Row A Q R} {ℓ : Local Row A Q} {db : Store Row}

theorem Local.Since.empty : ({} : Local Row A Q).Since P db := nofun

theorem Local.Since.marksOf (h : ℓ.Since P db) (L : List (Held K A)) :
    ∀ x ∈ Local.marksOf L db ++ ℓ.marks, Drift P x.1 x.2 db := by
  intro x hx
  rcases List.mem_append.mp hx with hx | hx
  · rcases List.mem_cons.mp hx with rfl | hx
    · exact .refl
    · obtain ⟨l, -, rfl⟩ := List.mem_map.mp hx
      exact .refl
  · exact h x hx

theorem Local.Since.see (h : ℓ.Since P db) (q : Q) : (ℓ.see q db).Since P db := h.marksOf ℓ.locks

theorem Local.Since.hold (h : ℓ.Since P db) (l : Held K A) : (ℓ.hold l db).Since P db :=
  h.marksOf (l :: ℓ.locks)

theorem Local.Since.write (h : ℓ.Since P db) (w : Write Row) : (ℓ.write w db).Since P db :=
  h.marksOf ((.row w.1, .exclusive) :: ℓ.locks)

theorem Local.Since.release (h : ℓ.Since P db) : ℓ.release.Since P db :=
  fun x hx => h x (List.mem_of_mem_filter hx)

/-- A commit of the request itself. -/
theorem Local.Since.publish (h : ℓ.Since P db) (hs : EnvStep P none db (ℓ.view db)) :
    (ℓ.publish db).Since P (ℓ.view db) := by
  intro x hx
  rcases List.mem_cons.mp hx with rfl | hx
  · exact .refl
  · obtain ⟨hx, hnone⟩ := List.mem_filter.mp hx
    have hd := h x hx
    rw [Option.isNone_iff_eq_none.mp hnone] at hd ⊢
    exact hd.tail hs

/-- A commit of another request. -/
theorem Local.Since.commit (h : ℓ.Since P db) (hmarks : ℓ.MarksLocked)
    {c : Commit Row A Q R} (hguar : P.guar c) (hrely : P.rely c) (hlocked : c.WritesLocked)
    (hothers : ℓ.locks ∈ c.others) (hcompat : Compatible c.locks ℓ.locks)
    (hbefore : c.before = db) : ℓ.Since P c.after := by
  refine fun x hx => (h x hx).tail ⟨c, hguar, hrely, hlocked, fun l hl => ?_, hbefore, rfl⟩
  have hmem := hmarks x hx l hl
  exact ⟨⟨_, hothers, hmem⟩, fun l' hl' => hcompat l' hl' l hmem⟩

end Since

namespace Local.MarksLocked

variable {ℓ : Local Row A Q}

omit [DecidableEq K] [DecidableEq A] in
theorem empty : ({} : Local Row A Q).MarksLocked := nofun

omit [DecidableEq K] [DecidableEq A] in
theorem marksOf (h : ℓ.MarksLocked) {L : List (Held K A)} (hL : ℓ.locks ⊆ L) (db : Store Row) :
    ∀ x ∈ Local.marksOf L db ++ ℓ.marks, ∀ l ∈ x.1, l ∈ L := by
  intro x hx l hl
  rcases List.mem_append.mp hx with hx | hx
  · rcases List.mem_cons.mp hx with rfl | hx
    · cases hl
    · obtain ⟨l', hl', rfl⟩ := List.mem_map.mp hx
      cases hl
      exact hl'
  · exact hL (h x hx l hl)

omit [DecidableEq K] [DecidableEq A] in
theorem see (h : ℓ.MarksLocked) (q : Q) (db : Store Row) : (ℓ.see q db).MarksLocked :=
  h.marksOf (List.Subset.refl _) db

omit [DecidableEq K] [DecidableEq A] in
theorem hold (h : ℓ.MarksLocked) (l : Held K A) (db : Store Row) : (ℓ.hold l db).MarksLocked :=
  h.marksOf (List.subset_cons_self l _) db

omit [DecidableEq K] [DecidableEq A] in
theorem write (h : ℓ.MarksLocked) (w : Write Row) (db : Store Row) :
    (ℓ.write w db).MarksLocked :=
  h.hold (.row w.1, .exclusive) db

omit [DecidableEq K] [DecidableEq A] in
theorem release : ℓ.release.MarksLocked := by
  intro x hx l hl
  obtain ⟨-, hnone⟩ := List.mem_filter.mp hx
  rw [Option.isNone_iff_eq_none.mp hnone] at hl
  cases hl

omit [DecidableEq A] in
theorem publish (db : Store Row) : (ℓ.publish db).MarksLocked :=
  List.forall_mem_cons.mpr ⟨nofun, release⟩

end Local.MarksLocked

namespace Server.Sound

variable {P : Protocol Row A Q R} {db₀ : Store Row} {s : Server Row A Q E V R}

theorem start : (Server.start db₀ : Server Row A Q E V R).Sound P db₀ where
  chain := .nil
  procs := fun _ _ hp => by simp [Server.start] at hp
  compat := fun _ _ _ _ _ hp => by simp [Server.start] at hp
  origin := fun _ hc => absurd hc List.not_mem_nil

/-- A request comes in. -/
theorem spawn (h : s.Sound P db₀) {r : R} {p : Prog Row A Q E V}
    (hp : p.wp P r {} fun _ _ => True) :
    Server.Sound P db₀ { s with procs := s.procs ++ [⟨r, .running p, {}⟩] } where
  chain := h.chain
  procs := by
    intro i p' hp'
    rw [List.getElem?_append] at hp'
    split at hp'
    · obtain ⟨h₁, h₂, h₃, h₄, h₅, h₆, h₇⟩ := h.procs i p' hp'
      exact ⟨h₁, h₂, h₃, h₄, h₅, h₆, h₇⟩
    · rename_i hi
      obtain rfl := List.mem_singleton.mp (List.mem_of_getElem? hp')
      refine ⟨?_, .empty, .empty, nofun, nofun, nofun, ?_⟩
      · rintro _ ⟨⟩
        exact hp
      · rintro - c hc rfl
        obtain ⟨p', hp', -⟩ := h.origin c hc
        exact hi (List.getElem?_eq_some_iff.mp hp').1
  compat := by
    intro i j p₁ p₂ hij h₁ h₂
    rw [List.getElem?_append] at h₁ h₂
    split at h₁
    · split at h₂
      · exact h.compat i j p₁ p₂ hij h₁ h₂
      · obtain rfl := List.mem_singleton.mp (List.mem_of_getElem? h₂)
        exact fun _ _ => nofun
    · obtain rfl := List.mem_singleton.mp (List.mem_of_getElem? h₁)
      exact nofun
  origin := by
    intro c hc
    obtain ⟨p', hp', he⟩ := h.origin c hc
    exact ⟨p', by rw [List.getElem?_append_left (List.getElem?_eq_some_iff.mp hp').1, hp'], he⟩

/-- A request becomes `p'` without a commit. -/
theorem keep (h : s.Sound P db₀) {i : Nat} {p p' : Proc Row A Q E V R} (hi : s.procs[i]? = some p)
    (hp' : p'.Sound P db₀ s i) (hreq : p'.req = p.req)
    (hlocks : ∀ j p₂, i ≠ j → s.procs[j]? = some p₂ → Compatible p'.loc.locks p₂.loc.locks) :
    (s.update i p' none).Sound P db₀ where
  chain := h.chain
  procs := by
    intro j p₂ hj
    have hsound : p₂.Sound P db₀ s j := by
      simp only [Server.update, List.getElem?_set] at hj
      split at hj
      · rename_i hij
        subst hij
        split at hj
        · cases hj
          exact hp'
        · cases hj
      · exact h.procs j p₂ hj
    obtain ⟨h₁, h₂, h₃, h₄, h₅, h₆, h₇⟩ := hsound
    exact ⟨h₁, h₂, h₃, h₄, h₅, h₆, h₇⟩
  compat := by
    intro j k p₁ p₂ hjk h₁ h₂
    simp only [Server.update, List.getElem?_set] at h₁ h₂
    split at h₁
    · rename_i hij
      subst hij
      rw [if_neg hjk] at h₂
      split at h₁
      · cases h₁
        exact hlocks k p₂ hjk h₂
      · cases h₁
    · split at h₂
      · rename_i hik
        subst hik
        split at h₂
        · cases h₂
          exact (hlocks j p₁ (Ne.symm hjk) h₁).symm
        · cases h₂
      · exact h.compat j k p₁ p₂ hjk h₁ h₂
  origin := by
    intro c hc
    obtain ⟨p₂, hp₂, he⟩ := h.origin c hc
    by_cases hci : i = c.pid
    · subst hci
      obtain rfl : p = p₂ := Option.some.inj (hi ▸ hp₂)
      refine ⟨p', ?_, hreq.trans he⟩
      simp only [Server.update, List.getElem?_set_self (List.getElem?_eq_some_iff.mp hi).1]
    · refine ⟨p₂, ?_, he⟩
      simp only [Server.update, List.getElem?_set_ne hci, hp₂]

omit [DecidableEq K] [DecidableEq A] in
/-- The locks another request holds are among those the commit of `i` records. -/
theorem mem_others {i j : Nat} {p : Proc Row A Q E V R} (hij : i ≠ j)
    (hj : s.procs[j]? = some p) : p.loc.locks ∈ s.others i :=
  List.mem_map.mpr ⟨p, List.mem_eraseIdx_iff_getElem?.mpr ⟨j, hij.symm, hj⟩, rfl⟩

/-- A holding that is granted excludes none of the locks of the others. -/
theorem compatible_cons (h : s.Sound P db₀) {i j : Nat} {p p₂ : Proc Row A Q E V R}
    (hi : s.procs[i]? = some p) (hij : i ≠ j) (hj : s.procs[j]? = some p₂) {l : Held K A}
    (hl : grantable (s.others i) l = true) :
    Compatible (l :: p.loc.locks) p₂.loc.locks := by
  intro l' hl' h₂ hh₂
  rcases List.mem_cons.mp hl' with rfl | hl'
  · have hall := List.all_eq_true.mp hl _ (mem_others hij hj)
    simpa using List.all_eq_true.mp hall h₂ hh₂
  · exact h.compat i j p p₂ hij hi hj l' hl' h₂ hh₂

/-- A request commits its transaction. -/
theorem commit (h : s.Sound P db₀) {i : Nat} {p : Proc Row A Q E V R} {q : Prog Row A Q E V}
    (hi : s.procs[i]? = some p) (hq : p.phase = .running (.commit q))
    (hrely : P.rely (p.loc.toCommit i p.req (s.others i) s.db)) :
    (s.update i ⟨p.req, .running q, p.loc.publish s.db⟩
      (some (p.loc.toCommit i p.req (s.others i) s.db))).Sound P db₀ := by
  have hp := h.procs i p hi
  obtain ⟨hguar, hnext⟩ := hp.keeps _ hq s.db hp.since
  have hcompat : ∀ L ∈ s.others i, Compatible p.loc.locks L := by
    intro L hL
    obtain ⟨p₂, hp₂, rfl⟩ := List.mem_map.mp hL
    obtain ⟨j, hj, hp₂⟩ := List.mem_eraseIdx_iff_getElem?.mp hp₂
    exact h.compat i j p p₂ hj.symm hi hp₂
  set c := p.loc.toCommit i p.req (s.others i) s.db with hc
  have hbefore : c.before = s.db := rfl
  have hself : EnvStep P none s.db c.after := ⟨c, hguar i _, hrely, hp.locked, nofun, rfl, rfl⟩
  refine ⟨?_, ?_, ?_, ?_⟩
  · exact .cons c (hbefore ▸ h.chain) (hguar i _) hp.locked hcompat hp.seen
  · intro j p₂ hj
    simp only [Server.update, List.getElem?_set] at hj
    split at hj
    · rename_i hij
      subst hij
      split at hj
      · cases hj
        refine ⟨?_, hp.since.publish hself, .publish s.db, nofun,
          fun q hq => (hp.seen q hq).mono c, nofun, nofun⟩
        rintro _ ⟨⟩
        exact hnext
      · cases hj
    · rename_i hij
      obtain ⟨h₁, h₂, h₃, h₄, h₅, h₆, h₇⟩ := h.procs j p₂ hj
      have hmem := mem_others hij hj
      refine ⟨h₁, h₂.commit h₃ (hguar i _) hrely hp.locked hmem (hcompat _ hmem) rfl, h₃, h₄,
        fun q hq => (h₅ q hq).mono c, h₆, fun hf => ?_⟩
      exact List.forall_mem_cons.mpr ⟨hij, h₇ hf⟩
  · intro j k p₁ p₂ hjk h₁ h₂
    simp only [Server.update, List.getElem?_set] at h₁ h₂
    split at h₁
    · split at h₁
      · cases h₁
        exact nofun
      · cases h₁
    · split at h₂
      · split at h₂
        · cases h₂
          exact fun _ _ => nofun
        · cases h₂
      · exact h.compat j k p₁ p₂ hjk h₁ h₂
  · intro c' hc'
    rcases List.mem_cons.mp hc' with rfl | hc'
    · exact ⟨_, List.getElem?_set_self (List.getElem?_eq_some_iff.mp hi).1, rfl⟩
    · obtain ⟨p₂, hp₂, he⟩ := h.origin c' hc'
      by_cases hci : i = c'.pid
      · subst hci
        obtain rfl : p = p₂ := Option.some.inj (hi ▸ hp₂)
        exact ⟨_, List.getElem?_set_self (List.getElem?_eq_some_iff.mp hi).1, he⟩
      · exact ⟨p₂, by simp only [Server.update, List.getElem?_set_ne hci, hp₂], he⟩

/-- **Every statement of a request keeps the server sound.** -/
theorem step (h : s.Sound P db₀) {i : Nat} {p p' : Proc Row A Q E V R} (hi : s.procs[i]? = some p)
    {c : Option (Commit Row A Q R)} (hstep : p.step i (s.others i) s.db = some (p', c))
    (hrely : ∀ c' ∈ c, P.rely c') : (s.update i p' c).Sound P db₀ := by
  have hp := h.procs i p hi
  have hcompat := fun j p₂ hij hj => h.compat i j p p₂ hij hi hj
  obtain ⟨r, phase, ℓ⟩ := p
  obtain ⟨hkeeps, hsince, hmarks, hlocked, hseen, hfailed, hsilent⟩ := hp
  cases phase with
  | running q =>
    cases q with
    | ret v =>
      cases hstep
      exact h.keep hi ⟨nofun, hsince.release, .release, nofun, hseen, nofun, hsilent⟩ rfl
        fun _ _ _ _ => nofun
    | throw e =>
      cases hstep
      exact h.keep hi ⟨nofun, hsince.release, .release, nofun, hseen, fun _ _ => hkeeps _ rfl,
        hsilent⟩ rfl fun _ _ _ _ => nofun
    | select q next =>
      cases hstep
      refine h.keep hi ⟨?_, hsince.see q, hmarks.see q _, hlocked, ?_, nofun, hsilent⟩ rfl hcompat
      · rintro _ ⟨⟩
        exact hkeeps _ rfl s.db hsince
      · exact List.forall_mem_cons.mpr ⟨h.chain.past_self, hseen⟩
    | acquire l m next =>
      simp only [Proc.step] at hstep
      split at hstep
      · rename_i hl
        cases hstep
        refine h.keep hi ⟨?_, hsince.hold _, hmarks.hold _ _, ?_, hseen, nofun, hsilent⟩ rfl
          fun j p₂ hij hj => h.compatible_cons hi hij hj hl
        · rintro _ ⟨⟩
          exact hkeeps _ rfl s.db hsince
        · exact fun w hw => List.mem_cons_of_mem _ (hlocked w hw)
      · cases hstep
    | put k v next =>
      simp only [Proc.step] at hstep
      split at hstep
      · rename_i hl
        cases hstep
        refine h.keep hi ⟨?_, hsince.write _, hmarks.write _ _, ?_, hseen, nofun, hsilent⟩ rfl
          fun j p₂ hij hj => h.compatible_cons hi hij hj hl
        · rintro _ ⟨⟩
          exact hkeeps _ rfl s.db hsince
        · intro w hw
          rcases List.mem_append.mp hw with hw | hw
          · exact List.mem_cons_of_mem _ (hlocked w hw)
          · rw [List.mem_singleton.mp hw]
            exact List.mem_cons_self
      · cases hstep
    | commit next =>
      cases hstep
      exact h.commit hi rfl (hrely _ rfl)
  | done v => cases hstep
  | failed e => cases hstep
  | aborted => cases hstep

/-- An aborted transaction leaves the server sound. -/
theorem abort (h : s.Sound P db₀) {i : Nat} {p p' : Proc Row A Q E V R} (hi : s.procs[i]? = some p)
    (habort : p.abort = some p') : (s.update i p' none).Sound P db₀ := by
  have hp := h.procs i p hi
  obtain ⟨r, phase, ℓ⟩ := p
  cases phase with
  | running q =>
    cases habort
    exact h.keep hi ⟨nofun, hp.since.release, .release, nofun, hp.seen, nofun, hp.silent⟩ rfl
      fun _ _ _ _ => nofun
  | done v => cases habort
  | failed e => cases habort
  | aborted => cases habort

end Server.Sound

section Reachable

variable {P : Protocol Row A Q R} {db₀ : Store Row} {code : R → Prog Row A Q E V}
  {policy : Policy Row A Q E V R} {s : Server Row A Q E V R}

/-- **Every reachable server is sound**, when every admitted program keeps the protocol and every
commit meets what the run is assumed to meet. -/
theorem Reachable.sound (h : Reachable code policy db₀ s)
    (hcode : ∀ s r, policy s (.spawn r) → (code r).wp P r {} fun _ _ => True)
    (hrely : ∀ c ∈ s.history, P.rely c) : s.Sound P db₀ := by
  induction h with
  | start => exact .start
  | @next s s' e _ hpolicy hnext ih =>
    cases e with
    | spawn r =>
      cases hnext
      exact (ih hrely).spawn (hcode s r hpolicy)
    | step i =>
      simp only [Server.next, Option.bind_eq_bind, Option.bind_eq_some_iff] at hnext
      obtain ⟨p, hi, ⟨p', c⟩, hstep, hs'⟩ := hnext
      cases hs'
      cases c with
      | none => exact (ih hrely).step hi hstep nofun
      | some c =>
        refine (ih fun c' hc' => hrely c' (List.mem_cons_of_mem c hc')).step hi hstep ?_
        rintro _ ⟨⟩
        exact hrely c List.mem_cons_self
    | abort i =>
      simp only [Server.next, Option.bind_eq_bind, Option.bind_eq_some_iff] at hnext
      obtain ⟨p, hi, p', habort, hs'⟩ := hnext
      cases hs'
      exact (ih hrely).abort hi habort

/-- A request that failed has committed nothing, unless it may fail late. -/
theorem Server.Sound.failed (h : s.Sound P db₀) {i : Nat} {p : Proc Row A Q E V R}
    (hi : s.procs[i]? = some p) {e : E} (he : p.phase = .failed e) (hlate : ¬ P.late p.req) :
    ∀ c ∈ s.history, c.pid ≠ i := by
  refine (h.procs i p hi).silent ?_
  by_contra hpub
  exact hlate ((h.procs i p hi).failed e he (by simpa using hpub))

end Reachable

end ReadCommitted
