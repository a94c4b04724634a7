import AccountingApi.ReadCommitted.Logic

/-!
# Statements that write many rows

An `UPDATE` or `DELETE` with a condition finds the rows that meet it in what is committed when it
starts. It locks them one after the other, waiting for the transactions that have them, and checks the
condition again on the row it then holds. A row that is committed later is not among those it found.

## Main definitions

* `Store.keysWhere`: the keys whose rows meet a condition
* `ScanOrder`: the order in which a statement comes across the rows
* `Prog.updateEach`, `Prog.updateWhere`: the statement
* `updatesOf`: what it writes

## Main results

* `row_updatesOf`: the rows after the statement
* `Prog.wp_updateWhere`: what its transaction commits
* `Prog.wp_of_published`: a request that may fail after a commit goes on as before it
-/

namespace ReadCommitted

variable {K A : Type} [DecidableEq K] [DecidableEq A] {Row : K → Type} {Q E V R : Type}

/-! ## Rows that meet a condition -/

namespace Store

/-- The keys whose rows meet the condition. -/
def keysWhere (s : Store Row) (p : (k : K) → Row k → Bool) : List K :=
  s.keys.filter fun k => (s.row k).any (p k)

omit [DecidableEq K] in
theorem mem_keysWhere {s : Store Row} {p : (k : K) → Row k → Bool} {k : K} :
    k ∈ s.keysWhere p ↔ ∃ v, s.row k = some v ∧ p k v = true := by
  rw [keysWhere, List.mem_filter, Option.any_eq_true]
  constructor
  · rintro ⟨-, v, hv, hp⟩
    exact ⟨v, hv, hp⟩
  · rintro ⟨v, hv, hp⟩
    exact ⟨s.mem_keys k (by simp [hv]), v, hv, hp⟩

omit [DecidableEq K] in
theorem nodup_keysWhere (s : Store Row) (p : (k : K) → Row k → Bool) : (s.keysWhere p).Nodup :=
  s.nodup.filter _

end Store

/-- The order in which a statement comes across the rows it has found. -/
structure ScanOrder (K : Type) where
  order : List K → List K
  perm : ∀ l, (order l).Perm l

/-- The rows as they are found. -/
def ScanOrder.plain : ScanOrder K := ⟨id, fun l => .refl l⟩

/-- The order that comes across `l'` where `l` is found. -/
def ScanOrder.ofPerm {l l' : List K} (h : l'.Perm l) : ScanOrder K where
  order m := if m = l then l' else m
  perm m := by
    split
    · rename_i heq
      exact heq ▸ h
    · exact .refl m

theorem ScanOrder.ofPerm_order {l l' : List K} (h : l'.Perm l) : (ScanOrder.ofPerm h).order l = l' :=
  if_pos rfl

omit [DecidableEq K] in
@[simp] theorem ScanOrder.mem_order (scan : ScanOrder K) {l : List K} {k : K} :
    k ∈ scan.order l ↔ k ∈ l :=
  (scan.perm l).mem_iff

/-! ## What the statement writes -/

/-- The rows under the keys that a statement changes, as it finds them in `db`. -/
def updatesOf (change : (k : K) → Row k → Option (Row k)) (keys : List K) (db : Store Row) :
    List (Write Row) :=
  keys.filterMap fun k => ((db.row k).bind (change k)).map fun v => ⟨k, v⟩

section UpdatesOf

variable {change : (k : K) → Row k → Option (Row k)} {k : K} {keys : List K} {db : Store Row}

omit [DecidableEq K] in
theorem updatesOf_cons_none (h : (db.row k).bind (change k) = none) :
    updatesOf change (k :: keys) db = updatesOf change keys db := by
  rw [updatesOf, updatesOf, List.filterMap_cons_none]
  rw [h, Option.map_none]

omit [DecidableEq K] in
theorem updatesOf_cons_some {v : Row k} (h : (db.row k).bind (change k) = some v) :
    updatesOf change (k :: keys) db = ⟨k, v⟩ :: updatesOf change keys db := by
  rw [updatesOf, updatesOf, List.filterMap_cons_some (b := (⟨k, v⟩ : Write Row))]
  rw [h, Option.map_some]

omit [DecidableEq K] in
theorem mem_updatesOf {w : Write Row} : w ∈ updatesOf change keys db ↔
    w.1 ∈ keys ∧ (db.row w.1).bind (change w.1) = some w.2 := by
  rw [updatesOf, List.mem_filterMap]
  constructor
  · rintro ⟨k, hk, hw⟩
    obtain ⟨v, hv, rfl⟩ := Option.map_eq_some_iff.mp hw
    exact ⟨hk, hv⟩
  · rintro ⟨hk, hw⟩
    exact ⟨w.1, hk, by rw [hw, Option.map_some]⟩

/-- **The rows after the statement.** -/
theorem row_updatesOf : (db.putAll (updatesOf change keys db)).row k =
    if k ∈ keys then ((db.row k).bind (change k)).or (db.row k) else db.row k := by
  cases hv : (db.row k).bind (change k) with
  | none =>
    have hnot : ∀ w ∈ updatesOf change keys db, w.1 ≠ k := by
      rintro w hw rfl
      rw [(mem_updatesOf.mp hw).2] at hv
      cases hv
    rw [Store.row_putAll_of_notMem db hnot, Option.none_or, ite_self]
  | some v =>
    by_cases hk : k ∈ keys
    · rw [if_pos hk, Option.some_or]
      -- no two writes are to one row
      refine db.row_putAll_of_unique (w := ⟨k, v⟩) (mem_updatesOf.mpr ⟨hk, hv⟩) ?_
      rintro ⟨k', v'⟩ hw rfl
      have hv' : (db.row k').bind (change k') = some v' := (mem_updatesOf.mp hw).2
      exact congrArg (Sigma.mk k') (Option.some.inj (hv'.symm.trans hv))
    · rw [if_neg hk]
      exact Store.row_putAll_of_notMem db fun w hw hwk => hk (hwk ▸ (mem_updatesOf.mp hw).1)

end UpdatesOf

namespace Prog

/-! ## The statement -/

/-- The rows under the keys locked and changed, one after the other; a row that is gone, or that need
not be changed any more, is skipped. The number of rows changed is returned. -/
def updateEach (change : (k : K) → Row k → Option (Row k)) : List K → Prog Row A Q E ℕ
  | [] => .ret 0
  | k :: ks => (lock (.row k) .exclusive).bind fun db =>
    match (db.row k).bind (change k) with
    | some v => (write k v).bind fun _ => (updateEach change ks).bind fun n => .ret (n + 1)
    | none => updateEach change ks

/-- The change of a row that meets the condition. -/
def changeWhere (p : (k : K) → Row k → Bool) (f : (k : K) → Row k → Row k) (k : K) (v : Row k) :
    Option (Row k) :=
  if p k v then some (f k v) else none

/-- `UPDATE … SET … WHERE …`. -/
def updateWhere (q : Q) (scan : ScanOrder K) (p : (k : K) → Row k → Bool)
    (f : (k : K) → Row k → Row k) : Prog Row A Q E ℕ :=
  (query q).bind fun s => updateEach (changeWhere p f) (scan.order (s.keysWhere p))

variable {P : Protocol Row A Q R} {r : R} {ℓ : Local Row A Q}

theorem wp_updateEach {change : (k : K) → Row k → Option (Row k)} {keys : List K}
    {post : ℕ → Local Row A Q → Prop} (hnew : ℓ.published = false) (hnodup : keys.Nodup)
    (hfree : ∀ k ∈ keys, ℓ.Untouched k)
    (h : ∀ n ws ℓ', ℓ.Ran P r ℓ' ws (fun c => ws = updatesOf change keys c.before) → post n ℓ') :
    (updateEach change keys : Prog Row A Q E ℕ).wp P r ℓ post := by
  induction keys generalizing ℓ post with
  | nil => exact h 0 [] ℓ ((Local.Ran.refl hnew).mono fun _ _ => rfl)
  | cons k ks ih =>
    obtain ⟨hk, hnodup⟩ := List.nodup_cons.mp hnodup
    refine wp_bind.mpr (wp_lock hnew fun s ℓ₁ h₁ _ => ?_)
    -- the row the transaction holds is the one its commit finds
    have hrow : ∀ c : Commit Row A Q R,
        (∀ l' ∈ (Lock.row k, Mode.exclusive) :: ℓ.locks, Drift P (some l') s c.before) →
          c.before.row k = (ℓ.view s).row k := fun c hc =>
      (hc _ List.mem_cons_self).row_eq.trans ((hfree k List.mem_cons_self).row_view s).symm
    have hfree₁ : ∀ k' ∈ ks, ℓ₁.Untouched k' := fun k' hk' =>
      (hfree k' (List.mem_cons_of_mem k hk')).ran h₁ nofun
    cases hchange : ((ℓ.view s).row k).bind (change k) with
    | none =>
      refine ih h₁.new hnodup hfree₁ fun n ws ℓ₂ h₂ => h n ws ℓ₂ ((h₁.trans h₂).mono ?_)
      rintro c ⟨⟨-, hdrift⟩, hws⟩
      rw [hws, updatesOf_cons_none (hrow c hdrift ▸ hchange)]
    | some v =>
      refine wp_bind.mpr (wp_write h₁.new fun ℓ₂ h₂ => wp_bind.mpr ?_)
      have hfree₂ : ∀ k' ∈ ks, ℓ₂.Untouched k' := fun k' hk' =>
        (hfree₁ k' hk').ran h₂ fun w hw hwk => by
          obtain rfl := List.mem_singleton.mp hw
          cases hwk
          exact hk hk'
      refine ih h₂.new hnodup hfree₂ fun n ws ℓ₃ h₃ =>
        h (n + 1) (⟨k, v⟩ :: ws) ℓ₃ ((h₁.trans (h₂.trans h₃)).mono ?_)
      rintro c ⟨⟨-, hdrift⟩, -, hws⟩
      rw [hws, updatesOf_cons_some (hrow c hdrift ▸ hchange)]

/-- **What a statement with a condition writes**: of the rows it found when it started, those that meet
the condition in what its transaction commits on. -/
theorem wp_updateWhere {q : Q} {scan : ScanOrder K} {p : (k : K) → Row k → Bool}
    {f : (k : K) → Row k → Row k} {post : ℕ → Local Row A Q → Prop} (hnew : ℓ.published = false)
    (hbuf : ℓ.buf = [])
    (h : ∀ n ws s ℓ', ℓ.Ran P r ℓ' ws (fun c => (q, s) ∈ c.seen ∧ Drift P none s c.before ∧
      ws = updatesOf (changeWhere p f) (scan.order (s.keysWhere p)) c.before) → post n ℓ') :
    (updateWhere q scan p f : Prog Row A Q E ℕ).wp P r ℓ post := by
  refine wp_bind.mpr (wp_query hnew fun s ℓ₁ h₁ => ?_)
  have hview : ℓ.view s = s := by rw [Local.view, hbuf, Store.putAll_nil]
  have hbuf₁ : ℓ₁.buf = [] := by rw [h₁.buf, hbuf, List.append_nil]
  rw [hview]
  refine wp_updateEach h₁.new ((scan.perm _).nodup_iff.mpr (s.nodup_keysWhere p))
    (fun k _ => .of_buf hbuf₁ k) fun n ws ℓ₂ h₂ => h n ws s ℓ₂ ((h₁.trans h₂).mono ?_)
  rintro c ⟨⟨hseen, hdrift, -⟩, hws⟩
  exact ⟨hseen, hdrift, hws⟩

/-! ## After a commit -/

/-- The program of a request that may fail late, after a commit of it: it goes on as if it had not
committed anything, if no guarantee asks whether a commit is the first one. -/
theorem wp_of_published {α : Type} {p : Prog Row A Q E α} {post : α → Local Row A Q → Prop}
    (hlate : P.late r) (hguar : ∀ c : Commit Row A Q R, P.guar { c with first := true } → P.guar c)
    (hp : p.wp P r { ℓ with published := false } fun _ _ => True) (hpost : ∀ a ℓ, post a ℓ) :
    p.wp P r ℓ post := by
  induction p generalizing ℓ with
  | ret a => exact hpost a ℓ
  | throw e => exact fun _ => hlate
  | select q next ih => exact fun db hs => ih _ (hp db hs)
  | acquire l m next ih => exact fun db hs => ih _ (hp db hs)
  | put k v next ih => exact fun db hs => ih (hp db hs)
  | commit next ih =>
    refine fun db hs => ⟨fun pid others => hguar _ ((hp db hs).1 pid others), ?_⟩
    exact wp_mono (hp db hs).2 fun a ℓ _ => hpost a ℓ

end Prog

end ReadCommitted
