import Mathlib.Algebra.BigOperators.Group.List.Basic
import Mathlib.Data.List.Nodup
import Mathlib.Logic.Function.Basic
import Mathlib.Tactic.Abel

/-!
# Stores of keyed rows

A store is a finite family of rows, the type of a row depending on its key. Rows are put, never
removed. A query over all rows is a `collect`; an aggregate is a `sum`, and a put changes it by
the new row minus the replaced one.

## Main definitions

* `Store Row`: finitely many rows, each under its key
* `Store.put`, `Store.putAll`: one row written, a list of writes applied in order
* `Store.collect`, `Store.sum`: the queries over all rows

## Main results

* `Store.row_putAll_of_notMem`: a key no write mentions keeps its row
* `Store.sum_put`: the aggregate after a put
* `Store.collect_put`: a query that sees neither the old nor the new row keeps its answer
-/

namespace ReadCommitted

variable {K : Type} [DecidableEq K] {Row : K → Type}

/-- A store: finitely many rows, each under its key. -/
structure Store {K : Type} (Row : K → Type) where
  keys : List K
  row : (k : K) → Option (Row k)
  nodup : keys.Nodup
  mem_keys : ∀ k, row k ≠ none → k ∈ keys

/-- A row to be written, with its key. -/
abbrev Write {K : Type} (Row : K → Type) := Σ k, Row k

namespace Store

/-- The store without rows. -/
def empty : Store Row := ⟨[], fun _ => none, List.nodup_nil, fun _ h => absurd rfl h⟩

instance : Inhabited (Store Row) := ⟨empty⟩

/-- The store with the row `v` under the key `k`. -/
def put (s : Store Row) (k : K) (v : Row k) : Store Row where
  keys := s.keys.insert k
  row := Function.update s.row k (some v)
  nodup := s.nodup.insert
  mem_keys := by
    intro k' h
    by_cases hk : k' = k
    · subst hk
      exact List.mem_insert_self
    · rw [Function.update_of_ne hk] at h
      exact List.mem_insert_of_mem (s.mem_keys k' h)

/-- The writes applied in order. -/
def putAll (s : Store Row) (ws : List (Write Row)) : Store Row :=
  ws.foldl (fun s w => s.put w.1 w.2) s

@[simp] theorem row_put_self (s : Store Row) (k : K) (v : Row k) : (s.put k v).row k = some v :=
  Function.update_self _ _ _

theorem row_put_of_ne (s : Store Row) {k k' : K} (v : Row k) (h : k' ≠ k) :
    (s.put k v).row k' = s.row k' :=
  Function.update_of_ne h _ _

@[simp] theorem putAll_nil (s : Store Row) : s.putAll [] = s := rfl

@[simp] theorem putAll_cons (s : Store Row) (w : Write Row) (ws : List (Write Row)) :
    s.putAll (w :: ws) = (s.put w.1 w.2).putAll ws := rfl

@[simp] theorem putAll_append (s : Store Row) (ws ws' : List (Write Row)) :
    s.putAll (ws ++ ws') = (s.putAll ws).putAll ws' := List.foldl_append

/-- A key no write mentions keeps its row. -/
theorem row_putAll_of_notMem (s : Store Row) {ws : List (Write Row)} {k : K}
    (h : ∀ w ∈ ws, w.1 ≠ k) : (s.putAll ws).row k = s.row k := by
  induction ws generalizing s with
  | nil => rfl
  | cons w ws ih =>
    rw [putAll_cons, ih _ fun w' hw' => h w' (List.mem_cons_of_mem w hw')]
    exact row_put_of_ne s w.2 (h w List.mem_cons_self).symm

/-- A key that exactly one of the writes mentions has the row of that write. -/
theorem row_putAll_of_unique (s : Store Row) {ws : List (Write Row)} {w : Write Row} (hw : w ∈ ws)
    (h : ∀ w' ∈ ws, w'.1 = w.1 → w' = w) : (s.putAll ws).row w.1 = some w.2 := by
  induction ws generalizing s with
  | nil => cases hw
  | cons w' ws ih =>
    rw [putAll_cons]
    by_cases hmem : w ∈ ws
    · exact ih _ hmem fun w₂ hw₂ => h w₂ (List.mem_cons_of_mem w' hw₂)
    · obtain rfl : w = w' := (List.mem_cons.mp hw).resolve_right hmem
      have hnot : ∀ w₂ ∈ ws, w₂.1 ≠ w.1 := fun w₂ hw₂ hk =>
        hmem (h w₂ (List.mem_cons_of_mem w hw₂) hk ▸ hw₂)
      rw [row_putAll_of_notMem _ hnot, row_put_self]

/-- The writes' effect on a key depends only on the row they find there. -/
theorem row_putAll_congr {s s' : Store Row} {ws : List (Write Row)} {k : K}
    (h : s.row k = s'.row k) : (s.putAll ws).row k = (s'.putAll ws).row k := by
  induction ws generalizing s s' with
  | nil => exact h
  | cons w ws ih =>
    refine ih ?_
    by_cases hk : k = w.1
    · subst hk
      simp only [row_put_self]
    · rw [row_put_of_ne _ _ hk, row_put_of_ne _ _ hk, h]

/-- Writes remove no row. -/
theorem row_eq_none_of_putAll {s : Store Row} {ws : List (Write Row)} {k : K}
    (h : (s.putAll ws).row k = none) : s.row k = none := by
  induction ws generalizing s with
  | nil => exact h
  | cons w ws ih =>
    have hput := ih h
    by_cases hk : k = w.1
    · subst hk
      rw [row_put_self] at hput
      cases hput
    · rwa [row_put_of_ne _ _ hk] at hput

/-! ## Queries over all rows -/

/-- What `f` extracts from the rows of the store. -/
def collect {β : Type} (s : Store Row) (f : (k : K) → Row k → Option β) : List β :=
  s.keys.filterMap fun k => (s.row k).bind (f k)

omit [DecidableEq K] in
theorem mem_collect {β : Type} {s : Store Row} {f : (k : K) → Row k → Option β} {b : β} :
    b ∈ s.collect f ↔ ∃ k v, s.row k = some v ∧ f k v = some b := by
  simp only [collect, List.mem_filterMap, Option.bind_eq_some_iff]
  constructor
  · rintro ⟨k, -, v, hv, hb⟩
    exact ⟨k, v, hv, hb⟩
  · rintro ⟨k, v, hv, hb⟩
    exact ⟨k, s.mem_keys k (by simp [hv]), v, hv, hb⟩

omit [DecidableEq K] in
/-- What is collected from rows that name their key has no duplicates. -/
theorem nodup_map_collect {β γ : Type} {s : Store Row} {f : (k : K) → Row k → Option β} {g : β → γ}
    (h : ∀ {k v k' v' b b'}, f k v = some b → f k' v' = some b' → g b = g b' → k = k') :
    ((s.collect f).map g).Nodup := by
  rw [collect, List.map_filterMap]
  refine s.nodup.filterMap fun k k' c hk hk' => ?_
  obtain ⟨b, hb, rfl⟩ := Option.map_eq_some_iff.mp hk
  obtain ⟨b', hb', hg⟩ := Option.map_eq_some_iff.mp hk'
  obtain ⟨v, -, hv⟩ := Option.bind_eq_some_iff.mp hb
  obtain ⟨v', -, hv'⟩ := Option.bind_eq_some_iff.mp hb'
  exact h hv hv' hg.symm

/-- A query that extracts nothing under the key written keeps its answer. -/
theorem collect_put {β : Type} {s : Store Row} {f : (k : K) → Row k → Option β} {k : K}
    (v : Row k) (h : ∀ v, f k v = none) : (s.put k v).collect f = s.collect f := by
  have hrow : ∀ k', ((s.put k v).row k').bind (f k') = (s.row k').bind (f k') := by
    intro k'
    by_cases hk : k' = k
    · subst hk
      cases hs : s.row k' <;> simp [h]
    · rw [row_put_of_ne s v hk]
  simp only [collect, hrow]
  change List.filterMap _ (s.keys.insert k) = _
  by_cases hk : k ∈ s.keys
  · rw [List.insert_of_mem hk]
  · rw [List.insert_of_not_mem hk, List.filterMap_cons_none]
    cases hs : s.row k <;> simp [h]

/-- A query that extracts nothing under any key written keeps its answer. -/
theorem collect_putAll {β : Type} {s : Store Row} {f : (k : K) → Row k → Option β}
    {ws : List (Write Row)} (h : ∀ w ∈ ws, ∀ v, f w.1 v = none) :
    (s.putAll ws).collect f = s.collect f := by
  induction ws generalizing s with
  | nil => rfl
  | cons w ws ih =>
    rw [putAll_cons, ih fun w' hw' => h w' (List.mem_cons_of_mem w hw')]
    exact collect_put w.2 (h w List.mem_cons_self)

section Sum

variable {M : Type}

/-- The contribution of the row under `k` to an aggregate. -/
def term [Zero M] (s : Store Row) (f : (k : K) → Row k → M) (k : K) : M := (s.row k).elim 0 (f k)

/-- The aggregate of `f` over the rows of the store. -/
def sum [AddCommMonoid M] (s : Store Row) (f : (k : K) → Row k → M) : M :=
  (s.keys.map (s.term f)).sum

omit [DecidableEq K] in
theorem term_of_row [Zero M] {s : Store Row} {f : (k : K) → Row k → M} {k : K} {v : Row k}
    (h : s.row k = some v) : s.term f k = f k v := by
  rw [term, h, Option.elim_some]

omit [DecidableEq K] in
theorem term_of_none [Zero M] {s : Store Row} {f : (k : K) → Row k → M} {k : K}
    (h : s.row k = none) : s.term f k = 0 := by
  rw [term, h, Option.elim_none]

omit [DecidableEq K] in
/-- Two sums over distinct keys that differ at one of them. -/
theorem sum_map_eq_of_eq_off [AddCommMonoid M] {l : List K} (hl : l.Nodup) {k : K} (hk : k ∈ l)
    {g g' : K → M} (h : ∀ k' ∈ l, k' ≠ k → g' k' = g k') :
    (l.map g').sum + g k = (l.map g).sum + g' k := by
  induction l with
  | nil => exact absurd hk List.not_mem_nil
  | cons a l ih =>
    obtain ⟨ha, hl⟩ := List.nodup_cons.mp hl
    simp only [List.map_cons, List.sum_cons]
    rcases List.mem_cons.mp hk with rfl | hk
    · have hrest : l.map g' = l.map g := List.map_congr_left fun k' hk' =>
        h k' (List.mem_cons_of_mem _ hk') fun e => ha (e ▸ hk')
      rw [hrest]
      abel
    · have ih := ih hl hk fun k' hk' => h k' (List.mem_cons_of_mem _ hk')
      have hga : g' a = g a := h a List.mem_cons_self fun e => ha (e ▸ hk)
      rw [hga, add_assoc, ih]
      abel

/-- **The aggregate after a put**: the new row's contribution replaces the old one's. -/
theorem sum_put [AddCommMonoid M] (s : Store Row) (f : (k : K) → Row k → M) (k : K) (v : Row k) :
    (s.put k v).sum f + s.term f k = s.sum f + f k v := by
  have hterm : ∀ k', k' ≠ k → (s.put k v).term f k' = s.term f k' := by
    intro k' hk
    rw [term, term, row_put_of_ne s v hk]
  have hself : (s.put k v).term f k = f k v := term_of_row (row_put_self s k v)
  by_cases hk : k ∈ s.keys
  · have hkeys : (s.put k v).keys = s.keys := List.insert_of_mem hk
    rw [sum, sum, hkeys, sum_map_eq_of_eq_off s.nodup hk fun k' _ => hterm k', hself]
  · have hkeys : (s.put k v).keys = k :: s.keys := List.insert_of_not_mem hk
    have hnone : s.row k = none := by
      by_contra hne
      exact hk (s.mem_keys k hne)
    have hrest : s.keys.map ((s.put k v).term f) = s.keys.map (s.term f) :=
      List.map_congr_left fun k' hk' => hterm k' fun e => hk (e ▸ hk')
    rw [sum, sum, hkeys, List.map_cons, List.sum_cons, hself, hrest, term_of_none hnone, add_zero,
      add_comm]

/-- A put whose rows contribute nothing keeps the aggregate. -/
theorem sum_put_of_zero [AddCommMonoid M] (s : Store Row) {f : (k : K) → Row k → M} {k : K}
    (v : Row k) (h : ∀ v, f k v = 0) : (s.put k v).sum f = s.sum f := by
  have hs := s.sum_put f k v
  have hterm : s.term f k = 0 := by
    cases hr : s.row k with
    | none => exact term_of_none hr
    | some w => rw [term_of_row hr, h]
  rwa [hterm, h, add_zero, add_zero] at hs

omit [DecidableEq K] in
theorem sum_congr [AddCommMonoid M] {s : Store Row} {f g : (k : K) → Row k → M}
    (h : ∀ k v, s.row k = some v → f k v = g k v) : s.sum f = s.sum g := by
  refine congrArg List.sum (List.map_congr_left fun k _ => ?_)
  cases hr : s.row k with
  | none => rw [term_of_none hr, term_of_none hr]
  | some v => rw [term_of_row hr, term_of_row hr, h k v hr]

omit [DecidableEq K] in
theorem sum_eq_zero [AddCommMonoid M] {s : Store Row} {f : (k : K) → Row k → M}
    (h : ∀ k v, s.row k = some v → f k v = 0) : s.sum f = 0 := by
  refine List.sum_eq_zero fun x hx => ?_
  obtain ⟨k, -, rfl⟩ := List.mem_map.mp hx
  cases hr : s.row k with
  | none => exact term_of_none hr
  | some v => rw [term_of_row hr, h k v hr]

end Sum

end Store

end ReadCommitted
