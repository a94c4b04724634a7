import AccountingApi.ReadCommitted.Store
import Mathlib.Algebra.BigOperators.Group.Finset.Piecewise
import Mathlib.Algebra.Order.BigOperators.Group.Finset
import Mathlib.Algebra.Order.BigOperators.Group.List

/-!
# Tables

The keys of a store fall into tables, each with rows of one type. What a list of writes does to a
table depends only on the writes to that table.

## Main definitions

* `Table`: keys indexed by `ι` whose rows are read as values of `R`
* `Table.get`, `Table.sum`: the row under an index, the aggregate over the rows
* `Table.indices`: the indices of the rows in the table
* `Table.writes`: the writes to the table
* `overwrite`: a row after the writes to its table

## Main results

* `Table.get_putAll`: the rows after a list of writes
* `Table.sum_put`, `Table.sum_putAll_of_nil`: the aggregate after writes
* `Table.sum_eq_sum_indices`: the aggregate as a finite sum
* `Table.sum_eq_sum`, `Table.sum_le_sum`: the aggregates of two stores, row by row
* `sum_groups`: the sums of the groups add up to the sum of the rows
-/

namespace ReadCommitted

/-- The row under the index `i` after the writes to its table, applied in order. -/
def overwrite {ι R : Type} [DecidableEq ι] (i : ι) (r : Option R) (ws : List (ι × R)) : Option R :=
  ws.foldl (fun r w => if w.1 = i then some w.2 else r) r

section Overwrite

variable {ι R : Type} [DecidableEq ι] {i : ι} {r : Option R}

@[simp] theorem overwrite_nil : overwrite i r [] = r := rfl

@[simp] theorem overwrite_cons (w : ι × R) (ws : List (ι × R)) :
    overwrite i r (w :: ws) = overwrite i (if w.1 = i then some w.2 else r) ws := rfl

theorem overwrite_append (ws ws' : List (ι × R)) :
    overwrite i r (ws ++ ws') = overwrite i (overwrite i r ws) ws' := List.foldl_append

/-- An index no write mentions keeps its row. -/
theorem overwrite_of_notMem {ws : List (ι × R)} (h : ∀ w ∈ ws, w.1 ≠ i) : overwrite i r ws = r := by
  induction ws with
  | nil => rfl
  | cons w ws ih =>
    rw [overwrite_cons, if_neg (h w List.mem_cons_self)]
    exact ih fun w' hw' => h w' (List.mem_cons_of_mem w hw')

/-- Writes determine a row, or leave it as it is. -/
theorem overwrite_cases (i : ι) (ws : List (ι × R)) :
    (∀ r, overwrite i r ws = r) ∨ ∃ v, ∀ r, overwrite i r ws = some v := by
  induction ws with
  | nil => exact .inl fun _ => rfl
  | cons w ws ih =>
    rcases ih with hkept | ⟨v, hv⟩
    · by_cases hw : w.1 = i
      · exact .inr ⟨w.2, fun r => by rw [overwrite_cons, hkept, if_pos hw]⟩
      · exact .inl fun r => by rw [overwrite_cons, hkept, if_neg hw]
    · exact .inr ⟨v, fun r => by rw [overwrite_cons, hv]⟩

/-- A row that is not what it was is one that is written. -/
theorem mem_of_overwrite {ws : List (ι × R)} {v : R} (h : overwrite i r ws = some v)
    (hne : r ≠ some v) : (i, v) ∈ ws := by
  induction ws generalizing r with
  | nil => exact absurd h hne
  | cons w ws ih =>
    rw [overwrite_cons] at h
    by_cases hw : (if w.1 = i then some w.2 else r) = some v
    · split at hw
      · rename_i hi
        subst hi
        cases hw
        exact List.mem_cons_self
      · exact absurd hw hne
    · exact List.mem_cons_of_mem w (ih h hw)

/-- Where all writes to an index agree, it holds what they write. -/
theorem overwrite_of_forall {ws : List (ι × R)} {v : R} (h : ∀ w ∈ ws, w.1 = i → w.2 = v)
    (hmem : ∃ w ∈ ws, w.1 = i) : overwrite i r ws = some v := by
  induction ws generalizing r with
  | nil =>
    obtain ⟨w, hw, -⟩ := hmem
    exact absurd hw List.not_mem_nil
  | cons w ws ih =>
    have hws : ∀ w' ∈ ws, w'.1 = i → w'.2 = v := fun w' hw' => h w' (List.mem_cons_of_mem w hw')
    rw [overwrite_cons]
    by_cases hrest : ∃ w' ∈ ws, w'.1 = i
    · exact ih hws hrest
    · have hfirst : w.1 = i := by
        obtain ⟨w', hw', hi⟩ := hmem
        rcases List.mem_cons.mp hw' with rfl | hw'
        · exact hi
        · exact absurd ⟨w', hw', hi⟩ hrest
      rw [overwrite_of_notMem fun w' hw' hi => hrest ⟨w', hw', hi⟩, if_pos hfirst,
        h w List.mem_cons_self hfirst]

end Overwrite

/-- A table: the keys with an index, whose rows are read as values of `R`. -/
structure Table {K : Type} (Row : K → Type) (ι R : Type) where
  key : ι → K
  key_injective : Function.Injective key
  read : (i : ι) → Row (key i) → R
  pick : (k : K) → Row k → Option (ι × R)
  pick_key : ∀ i v, pick (key i) v = some (i, read i v)
  key_of_pick : ∀ k v x, pick k v = some x → k = key x.1

namespace Table

variable {K : Type} [DecidableEq K] {Row : K → Type} {ι R : Type} [DecidableEq ι]
  (t : Table Row ι R)

/-- The row under an index. -/
def get (s : Store Row) (i : ι) : Option R := (s.row (t.key i)).map (t.read i)

/-- The writes to the table. -/
def writes (ws : List (Write Row)) : List (ι × R) := ws.filterMap fun w => t.pick w.1 w.2

omit [DecidableEq K] [DecidableEq ι] in
@[simp] theorem writes_nil : t.writes [] = [] := rfl

omit [DecidableEq K] [DecidableEq ι] in
@[simp] theorem writes_append (ws ws' : List (Write Row)) :
    t.writes (ws ++ ws') = t.writes ws ++ t.writes ws' := List.filterMap_append

omit [DecidableEq K] [DecidableEq ι] in
theorem writes_cons (w : Write Row) (ws : List (Write Row)) :
    t.writes (w :: ws) = (t.pick w.1 w.2).toList ++ t.writes ws := by
  rw [writes, List.filterMap_cons]
  cases t.pick w.1 w.2 <;> rfl

/-- The rows after one write. -/
theorem get_put (s : Store Row) (k : K) (v : Row k) (i : ι) :
    t.get (s.put k v) i = overwrite i (t.get s i) (t.pick k v).toList := by
  cases hpick : t.pick k v with
  | none =>
    have hne : t.key i ≠ k := by
      rintro rfl
      rw [t.pick_key] at hpick
      cases hpick
    simp [get, Store.row_put_of_ne s v hne]
  | some x =>
    obtain rfl := t.key_of_pick k v x hpick
    by_cases hi : x.1 = i
    · subst hi
      have hread : t.read x.1 v = x.2 := by
        rw [t.pick_key] at hpick
        exact congrArg Prod.snd (Option.some.inj hpick)
      simp [get, hread]
    · have hne : t.key i ≠ t.key x.1 := fun h => hi (t.key_injective h).symm
      simp [get, Store.row_put_of_ne s v hne, hi]

/-- **The rows after a list of writes.** -/
theorem get_putAll (s : Store Row) (ws : List (Write Row)) (i : ι) :
    t.get (s.putAll ws) i = overwrite i (t.get s i) (t.writes ws) := by
  induction ws generalizing s with
  | nil => rfl
  | cons w ws ih =>
    rw [Store.putAll_cons, ih, get_put, writes_cons]
    exact List.foldl_append.symm

theorem get_putAll_of_notMem (s : Store Row) {ws : List (Write Row)} {i : ι}
    (h : ∀ w ∈ t.writes ws, w.1 ≠ i) : t.get (s.putAll ws) i = t.get s i := by
  rw [get_putAll, overwrite_of_notMem h]

/-- The indices of the rows in the table. -/
def indices (s : Store Row) : Finset ι :=
  (s.collect fun k v => (t.pick k v).map Prod.fst).toFinset

omit [DecidableEq K] in
theorem mem_indices {s : Store Row} {i : ι} : i ∈ t.indices s ↔ t.get s i ≠ none := by
  rw [indices, List.mem_toFinset, Store.mem_collect, get, Ne, Option.map_eq_none_iff]
  constructor
  · rintro ⟨k, v, hv, hi⟩ hnone
    obtain ⟨x, hx, rfl⟩ := Option.map_eq_some_iff.mp hi
    obtain rfl := t.key_of_pick k v x hx
    rw [hv] at hnone
    cases hnone
  · intro hne
    obtain ⟨v, hv⟩ := Option.ne_none_iff_exists'.mp hne
    exact ⟨t.key i, v, hv, by rw [t.pick_key]; rfl⟩

section Sum

variable {M : Type} [AddCommMonoid M] (f : ι → R → M)

/-- The contribution of a row to an aggregate. -/
def rowTerm (i : ι) (r : Option R) : M := r.elim 0 (f i)

omit [DecidableEq ι] in
@[simp] theorem rowTerm_none (i : ι) : rowTerm f i none = 0 := rfl

omit [DecidableEq ι] in
@[simp] theorem rowTerm_some (i : ι) (r : R) : rowTerm f i (some r) = f i r := rfl

/-- The aggregate of `f` over the rows of the table. -/
def sum (s : Store Row) : M := s.sum fun k v => (t.pick k v).elim 0 fun x => f x.1 x.2

omit [DecidableEq K] [DecidableEq ι] in
theorem term_key (s : Store Row) (i : ι) :
    s.term (fun k v => (t.pick k v).elim 0 fun x => f x.1 x.2) (t.key i) =
      rowTerm f i (t.get s i) := by
  simp only [Store.term, get]
  cases s.row (t.key i) with
  | none => rfl
  | some v => simp [t.pick_key]

omit [DecidableEq K] [DecidableEq ι] in
/-- An aggregate over an empty table. -/
theorem sum_eq_zero {s : Store Row} (h : ∀ i, t.get s i = none) : t.sum f s = 0 := by
  refine Store.sum_eq_zero fun k v hv => ?_
  cases hpick : t.pick k v with
  | none => rfl
  | some x =>
    -- a row of the table is found under its key
    obtain rfl := t.key_of_pick k v x hpick
    have hnone := h x.1
    rw [get, hv] at hnone
    cases hnone

omit [DecidableEq ι] in
/-- **The aggregate after a write to the table.** -/
theorem sum_put (s : Store Row) {k : K} {v : Row k} {x : ι × R} (h : t.pick k v = some x) :
    t.sum f (s.put k v) + rowTerm f x.1 (t.get s x.1) = t.sum f s + f x.1 x.2 := by
  obtain rfl := t.key_of_pick k v x h
  rw [← term_key]
  have hput := s.sum_put (fun k v => (t.pick k v).elim 0 fun x => f x.1 x.2) (t.key x.1) v
  rw [h, Option.elim_some] at hput
  exact hput

omit [DecidableEq ι] in
/-- A write to another table keeps the aggregate. -/
theorem sum_put_of_none (s : Store Row) {k : K} {v : Row k} (h : t.pick k v = none) :
    t.sum f (s.put k v) = t.sum f s := by
  refine s.sum_put_of_zero v fun v' => ?_
  cases hpick : t.pick k v' with
  | none => rfl
  | some x =>
    obtain rfl := t.key_of_pick k v' x hpick
    rw [t.pick_key] at h
    cases h

omit [DecidableEq ι] in
/-- Writes to other tables keep the aggregate. -/
theorem sum_putAll_of_nil (s : Store Row) {ws : List (Write Row)} (h : t.writes ws = []) :
    t.sum f (s.putAll ws) = t.sum f s := by
  induction ws generalizing s with
  | nil => rfl
  | cons w ws ih =>
    rw [writes_cons] at h
    obtain ⟨hw, hws⟩ := List.append_eq_nil_iff.mp h
    rw [Store.putAll_cons, ih _ hws]
    exact t.sum_put_of_none f s (by simpa using hw)

/-- The aggregate after writes of which one goes to the table. -/
theorem sum_putAll_of_singleton (s : Store Row) {ws : List (Write Row)} {x : ι × R}
    (h : t.writes ws = [x]) :
    t.sum f (s.putAll ws) + rowTerm f x.1 (t.get s x.1) = t.sum f s + f x.1 x.2 := by
  induction ws generalizing s with
  | nil => cases h
  | cons w ws ih =>
    rw [writes_cons] at h
    cases hpick : t.pick w.1 w.2 with
    | none =>
      rw [hpick] at h
      have hget : t.get (s.put w.1 w.2) x.1 = t.get s x.1 := by
        rw [get_put, hpick]
        rfl
      rw [Store.putAll_cons, ← hget, ih _ h, t.sum_put_of_none f s hpick]
    | some y =>
      rw [hpick] at h
      obtain ⟨rfl, hws⟩ := List.cons.inj h
      rw [Store.putAll_cons, t.sum_putAll_of_nil f _ hws]
      exact t.sum_put f s hpick

/-- The aggregate after writes of which two go to different rows of the table. -/
theorem sum_putAll_of_pair (s : Store Row) {ws : List (Write Row)} {x y : ι × R}
    (h : t.writes ws = [x, y]) (hne : x.1 ≠ y.1) :
    t.sum f (s.putAll ws) + (rowTerm f x.1 (t.get s x.1) + rowTerm f y.1 (t.get s y.1)) =
      t.sum f s + (f x.1 x.2 + f y.1 y.2) := by
  induction ws generalizing s with
  | nil => cases h
  | cons w ws ih =>
    rw [writes_cons] at h
    cases hpick : t.pick w.1 w.2 with
    | none =>
      rw [hpick] at h
      have hget : ∀ i, t.get (s.put w.1 w.2) i = t.get s i := by
        intro i
        rw [get_put, hpick]
        rfl
      rw [Store.putAll_cons, ← hget, ← hget, ih _ h, t.sum_put_of_none f s hpick]
    | some z =>
      rw [hpick] at h
      obtain ⟨rfl, hws⟩ := List.cons.inj h
      have hget : t.get (s.put w.1 w.2) y.1 = t.get s y.1 := by
        rw [get_put, hpick]
        simp [hne]
      have hrest := t.sum_putAll_of_singleton f (s.put w.1 w.2) hws
      rw [hget] at hrest
      rw [Store.putAll_cons, add_comm (rowTerm f z.1 _), ← add_assoc, hrest, add_right_comm,
        t.sum_put f s hpick, add_assoc]

omit [DecidableEq K] in
/-- **The aggregate as a sum over the indices.** -/
theorem sum_eq_sum_indices (s : Store Row) :
    t.sum f s = ∑ i ∈ t.indices s, rowTerm f i (t.get s i) := by
  have hnodup : (s.collect fun k v => (t.pick k v).map Prod.fst).Nodup := by
    refine s.nodup.filterMap fun k k' i hk hk' => ?_
    obtain ⟨v, -, hv⟩ := Option.bind_eq_some_iff.mp hk
    obtain ⟨v', -, hv'⟩ := Option.bind_eq_some_iff.mp hk'
    obtain ⟨x, hx, rfl⟩ := Option.map_eq_some_iff.mp hv
    obtain ⟨x', hx', hi⟩ := Option.map_eq_some_iff.mp hv'
    rw [t.key_of_pick k v x hx, t.key_of_pick k' v' x' hx', hi]
  rw [indices, List.sum_toFinset _ hnodup, sum, Store.sum, Store.collect]
  generalize hg : (fun k => (s.row k).bind fun v => (t.pick k v).map Prod.fst) = g
  induction s.keys with
  | nil => rfl
  | cons k keys ih =>
    have hgk : g k = (s.row k).bind fun v => (t.pick k v).map Prod.fst := by rw [← hg]
    rw [List.map_cons, List.sum_cons, ih]
    cases hrow : s.row k with
    | none =>
      rw [hrow, Option.bind_none] at hgk
      rw [Store.term_of_none hrow, List.filterMap_cons_none hgk, zero_add]
    | some v =>
      rw [hrow, Option.bind_some] at hgk
      cases hpick : t.pick k v with
      | none =>
        rw [hpick, Option.map_none] at hgk
        rw [Store.term_of_row hrow, hpick, List.filterMap_cons_none hgk, Option.elim_none, zero_add]
      | some x =>
        obtain rfl := t.key_of_pick k v x hpick
        rw [hpick, Option.map_some] at hgk
        rw [List.filterMap_cons_some hgk, List.map_cons, List.sum_cons, term_key]

omit [DecidableEq K] in
/-- Stores with the same rows have the same aggregate. -/
theorem sum_congr {s s' : Store Row} {g : ι → R → M} (hget : ∀ i, t.get s i = t.get s' i)
    (h : ∀ i r, t.get s' i = some r → f i r = g i r) : t.sum f s = t.sum g s' := by
  have hindices : t.indices s = t.indices s' := by
    ext i
    rw [mem_indices, mem_indices, hget]
  rw [sum_eq_sum_indices, sum_eq_sum_indices, hindices]
  refine Finset.sum_congr rfl fun i _ => ?_
  rw [hget]
  cases hr : t.get s' i with
  | none => rfl
  | some r => exact h i r hr

omit [DecidableEq K] in
/-- The aggregate as a sum over some indices, those of the table among them. -/
theorem sum_eq_sum_of_subset {s : Store Row} {I : Finset ι} (h : t.indices s ⊆ I) :
    t.sum f s = ∑ i ∈ I, rowTerm f i (t.get s i) := by
  rw [sum_eq_sum_indices]
  refine Finset.sum_subset h fun i _ hi => ?_
  rw [mem_indices, not_not] at hi
  rw [hi, rowTerm_none]

omit [DecidableEq K] in
/-- Stores whose rows contribute the same have the same aggregate. -/
theorem sum_eq_sum {s s' : Store Row}
    (h : ∀ i, rowTerm f i (t.get s i) = rowTerm f i (t.get s' i)) : t.sum f s = t.sum f s' := by
  rw [t.sum_eq_sum_of_subset f Finset.subset_union_left,
    t.sum_eq_sum_of_subset f (Finset.subset_union_right : t.indices s' ⊆ t.indices s ∪ t.indices s')]
  exact Finset.sum_congr rfl fun i _ => h i

omit [DecidableEq K] in
/-- A store whose rows contribute no less has no smaller aggregate. -/
theorem sum_le_sum [PartialOrder M] [IsOrderedAddMonoid M] {s s' : Store Row}
    (h : ∀ i, rowTerm f i (t.get s i) ≤ rowTerm f i (t.get s' i)) : t.sum f s ≤ t.sum f s' := by
  rw [t.sum_eq_sum_of_subset f Finset.subset_union_left,
    t.sum_eq_sum_of_subset f (Finset.subset_union_right : t.indices s' ⊆ t.indices s ∪ t.indices s')]
  exact Finset.sum_le_sum fun i _ => h i

end Sum

end Table

/-! ## Groups -/

/-- Rows that contribute nothing may be left out of a sum. -/
theorem sum_filter_of_zero {α M : Type} [AddCommMonoid M] {rows : List α} {p : α → Bool}
    {f : α → M} (h : ∀ r ∈ rows, p r = false → f r = 0) :
    ((rows.filter p).map f).sum = (rows.map f).sum := by
  induction rows with
  | nil => rfl
  | cons r rows ih =>
    obtain ⟨hr, hrows⟩ := List.forall_mem_cons.mp h
    rw [List.filter_cons, List.map_cons, List.sum_cons, ← ih hrows]
    split
    · rw [List.map_cons, List.sum_cons]
    · rename_i hno
      rw [hr (Bool.eq_false_iff.mpr hno), zero_add]

/-- **The sums of all groups add up to the sum of all rows**, when every row is in one of the groups. -/
theorem sum_groups {α β M : Type} [DecidableEq β] [AddCommMonoid M] {rows : List α} {key : α → β}
    {groups : Finset β} (h : ∀ r ∈ rows, key r ∈ groups) (f : α → M) :
    ∑ g ∈ groups, ((rows.filter fun r => key r = g).map f).sum = (rows.map f).sum := by
  induction rows with
  | nil => simp
  | cons r rows ih =>
    obtain ⟨hr, hrows⟩ := List.forall_mem_cons.mp h
    -- the first row is in one group and leaves the others as they are
    have hgroup : ∀ g ∈ groups, (((r :: rows).filter fun r => key r = g).map f).sum =
        (if key r = g then f r else 0) + ((rows.filter fun r => key r = g).map f).sum := by
      intro g _
      by_cases hg : key r = g
      · rw [List.filter_cons_of_pos (by simpa using hg), List.map_cons, List.sum_cons, if_pos hg]
      · rw [List.filter_cons_of_neg (by simpa using hg), if_neg hg, zero_add]
    rw [Finset.sum_congr rfl hgroup, Finset.sum_add_distrib, Finset.sum_ite_eq, if_pos hr,
      ih hrows, List.map_cons, List.sum_cons]

/-- The sums of some groups of rows that take nothing away are no more than the sum of all rows. -/
theorem sum_groups_le {α β M : Type} [DecidableEq β] [AddCommMonoid M] [PartialOrder M]
    [IsOrderedAddMonoid M] {rows : List α} {key : α → β} (groups : Finset β) {f : α → M}
    (hf : ∀ r ∈ rows, 0 ≤ f r) :
    ∑ g ∈ groups, ((rows.filter fun r => key r = g).map f).sum ≤ (rows.map f).sum := by
  -- the rows of no group are left out
  have hkept : ∀ g ∈ groups, (rows.filter fun r => key r = g) =
      (rows.filter fun r => key r ∈ groups).filter fun r => key r = g := by
    intro g hg
    rw [List.filter_filter]
    refine List.filter_congr fun r _ => ?_
    by_cases hr : key r = g
    · simp [hr, hg]
    · simp [hr]
  rw [Finset.sum_congr rfl fun g hg => congrArg (fun rows => (rows.map f).sum) (hkept g hg),
    sum_groups fun r hr => of_decide_eq_true (List.mem_filter.mp hr).2]
  exact List.Sublist.sum_le_sum (List.filter_sublist.map f) (List.forall_mem_map.mpr hf)

end ReadCommitted
