import AccountingApi.ReadCommitted.Table

/-!
# Aggregates over several tables

The rows of two tables may correspond, as where each row of the one names a row of the other; what one
table's rows contribute to an aggregate may be an aggregate over the rows of the other.

## Main results

* `Table.sum_add`, `Table.sum_sub`, `Table.sum_list`, `Table.sum_at`: aggregates of sums and of one row
* `Table.sum_mono`, `Table.sum_eq_zero_iff`: aggregates of larger terms, and of terms that are not negative
* `Table.sum_eq_sum_of_match`: aggregates over corresponding rows
* `Table.sum_comm`: the aggregate of aggregates, in either order
* `Store.sum_map_collect`: the sum over the answer of a query
-/

namespace ReadCommitted

variable {K : Type} {Row : K → Type}

/-- The sum over the answer of a query. -/
theorem Store.sum_map_collect {β M : Type} [AddCommMonoid M] (s : Store Row)
    (f : (k : K) → Row k → Option β) (g : β → M) :
    ((s.collect f).map g).sum = s.sum fun k v => (f k v).elim 0 g := by
  rw [Store.collect, Store.sum]
  induction s.keys with
  | nil => rfl
  | cons k keys ih =>
    rw [List.map_cons, List.sum_cons, ← ih, Store.term]
    cases hrow : s.row k with
    | none => rw [List.filterMap_cons_none (by rw [hrow]; rfl), Option.elim_none, zero_add]
    | some v =>
      cases hf : f k v with
      | none =>
        rw [List.filterMap_cons_none (by rw [hrow]; exact hf), Option.elim_some, hf,
          Option.elim_none, zero_add]
      | some b =>
        rw [List.filterMap_cons_some (by rw [hrow]; exact hf), List.map_cons, List.sum_cons,
          Option.elim_some, hf, Option.elim_some]

namespace Table

variable {ι R ι' R' M : Type} [DecidableEq ι] [DecidableEq ι'] [AddCommMonoid M]
  (t : Table Row ι R) (t' : Table Row ι' R') {s : Store Row}

/-- The aggregate of a sum. -/
theorem sum_add (f g : ι → R → M) (s : Store Row) :
    t.sum (fun i r => f i r + g i r) s = t.sum f s + t.sum g s := by
  rw [sum_eq_sum_indices, sum_eq_sum_indices, sum_eq_sum_indices, ← Finset.sum_add_distrib]
  refine Finset.sum_congr rfl fun i _ => ?_
  cases t.get s i with
  | none => exact (add_zero 0).symm
  | some r => rfl

/-- The aggregate of a difference. -/
theorem sum_sub {G : Type} [AddCommGroup G] (f g : ι → R → G) (s : Store Row) :
    t.sum (fun i r => f i r - g i r) s = t.sum f s - t.sum g s := by
  rw [sum_eq_sum_indices, sum_eq_sum_indices, sum_eq_sum_indices, ← Finset.sum_sub_distrib]
  refine Finset.sum_congr rfl fun i _ => ?_
  cases t.get s i with
  | none => exact (sub_zero 0).symm
  | some r => rfl

/-- The aggregate of negatives. -/
theorem sum_neg {G : Type} [AddCommGroup G] (f : ι → R → G) (s : Store Row) :
    t.sum (fun i r => -f i r) s = -t.sum f s := by
  rw [sum_eq_sum_indices, sum_eq_sum_indices, ← Finset.sum_neg_distrib]
  refine Finset.sum_congr rfl fun i _ => ?_
  cases t.get s i with
  | none => exact neg_zero.symm
  | some r => rfl

theorem sum_zero (s : Store Row) : t.sum (fun _ _ => (0 : M)) s = 0 := by
  rw [sum_eq_sum_indices]
  exact Finset.sum_eq_zero fun i _ => by cases t.get s i <;> rfl

/-- The aggregate of the sum over a list. -/
theorem sum_list {α : Type} (l : List α) (f : α → ι → R → M) (s : Store Row) :
    t.sum (fun i r => (l.map fun a => f a i r).sum) s = (l.map fun a => t.sum (f a) s).sum := by
  induction l with
  | nil => exact t.sum_zero s
  | cons a l ih =>
    simp only [List.map_cons, List.sum_cons]
    rw [sum_add, ih]

/-- The aggregate to which one row contributes. -/
theorem sum_at (i : ι) (f : R → M) (s : Store Row) :
    t.sum (fun j r => if j = i then f r else 0) s = (t.get s i).elim 0 f := by
  rw [t.sum_eq_sum_of_subset _ (Finset.subset_insert i (t.indices s)),
    Finset.sum_eq_single_of_mem i (Finset.mem_insert_self ..)]
  · cases t.get s i with
    | none => rfl
    | some r => exact if_pos rfl
  · intro j _ hj
    cases t.get s j with
    | none => rfl
    | some r => exact if_neg hj

/-- Larger terms have a larger aggregate. -/
theorem sum_mono [PartialOrder M] [IsOrderedAddMonoid M] {f g : ι → R → M}
    (h : ∀ i r, t.get s i = some r → f i r ≤ g i r) : t.sum f s ≤ t.sum g s := by
  rw [sum_eq_sum_indices, sum_eq_sum_indices]
  refine Finset.sum_le_sum fun i _ => ?_
  cases hr : t.get s i with
  | none => exact le_rfl
  | some r => exact h i r hr

/-- Terms that are not negative have the aggregate zero if and only if all of them are zero. -/
theorem sum_eq_zero_iff [PartialOrder M] [IsOrderedAddMonoid M] {f : ι → R → M}
    (h : ∀ i r, t.get s i = some r → 0 ≤ f i r) :
    t.sum f s = 0 ↔ ∀ i r, t.get s i = some r → f i r = 0 := by
  have hnonneg : ∀ i ∈ t.indices s, 0 ≤ rowTerm f i (t.get s i) := by
    intro i _
    cases hr : t.get s i with
    | none => exact le_rfl
    | some r => exact h i r hr
  rw [sum_eq_sum_indices, Finset.sum_eq_zero_iff_of_nonneg hnonneg]
  constructor
  · intro hzero i r hr
    have hi := hzero i (by rw [mem_indices, hr]; exact nofun)
    rwa [hr, rowTerm_some] at hi
  · intro hzero i _
    cases hr : t.get s i with
    | none => rfl
    | some r => exact hzero i r hr

/-- **Aggregates over corresponding rows**: each row that contributes to the one corresponds to a row of
the other table that contributes the same, and conversely. -/
theorem sum_eq_sum_of_match {f : ι → R → M} {g : ι' → R' → M} (rel : ι → ι' → Prop)
    (hleft : ∀ i, rowTerm f i (t.get s i) ≠ 0 → ∃ j, rel i j)
    (hright : ∀ j, rowTerm g j (t'.get s j) ≠ 0 → ∃ i, rel i j)
    (heq : ∀ i j, rel i j → rowTerm f i (t.get s i) = rowTerm g j (t'.get s j))
    (huniqueLeft : ∀ i i' j, rel i j → rel i' j → i = i')
    (huniqueRight : ∀ i j j', rel i j → rel i j' → j = j') : t.sum f s = t'.sum g s := by
  rw [sum_eq_sum_indices, sum_eq_sum_indices]
  -- a row that contributes is in its table
  have hmem : ∀ j, rowTerm g j (t'.get s j) ≠ 0 → j ∈ t'.indices s := fun j hj => by
    rw [mem_indices]
    intro hnone
    rw [hnone] at hj
    exact hj rfl
  have hmem' : ∀ i, rowTerm f i (t.get s i) ≠ 0 → i ∈ t.indices s := fun i hi => by
    rw [mem_indices]
    intro hnone
    rw [hnone] at hi
    exact hi rfl
  refine Finset.sum_bij_ne_zero (fun i _ hi => (hleft i hi).choose) ?_ ?_ ?_ ?_
  · intro i _ hi
    apply hmem
    rw [← heq i _ (hleft i hi).choose_spec]
    exact hi
  · intro i _ hi i' _ hi' hsame
    have hi'spec := (hleft i' hi').choose_spec
    rw [← hsame] at hi'spec
    exact huniqueLeft i i' _ (hleft i hi).choose_spec hi'spec
  · intro j _ hj
    obtain ⟨i, hij⟩ := hright j hj
    have hi : rowTerm f i (t.get s i) ≠ 0 := by rwa [heq i j hij]
    exact ⟨i, hmem' i hi, hi, huniqueRight i _ j (hleft i hi).choose_spec hij⟩
  · intro i _ hi
    exact heq i _ (hleft i hi).choose_spec

/-- **The aggregate of aggregates**, in either order. -/
theorem sum_comm (f : ι → R → ι' → R' → M) (s : Store Row) :
    t.sum (fun i r => t'.sum (f i r) s) s = t'.sum (fun j r' => t.sum (fun i r => f i r j r') s) s := by
  simp only [sum_eq_sum_indices]
  -- what a pair of rows contributes
  let both (i : ι) (j : ι') : M := rowTerm (fun i r => rowTerm (f i r) j (t'.get s j)) i (t.get s i)
  have hleft : ∀ i, rowTerm (fun i r => ∑ j ∈ t'.indices s, rowTerm (f i r) j (t'.get s j)) i
      (t.get s i) = ∑ j ∈ t'.indices s, both i j := by
    intro i
    cases hi : t.get s i with
    | none => simp [both, hi]
    | some r => simp [both, hi]
  have hright : ∀ j, rowTerm (fun j r' => ∑ i ∈ t.indices s, rowTerm (fun i r => f i r j r') i
      (t.get s i)) j (t'.get s j) = ∑ i ∈ t.indices s, both i j := by
    intro j
    cases hj : t'.get s j with
    | none =>
      rw [rowTerm_none]
      refine (Finset.sum_eq_zero fun i _ => ?_).symm
      cases hi : t.get s i <;> simp [both, hi, hj]
    | some r' =>
      rw [rowTerm_some]
      refine Finset.sum_congr rfl fun i _ => ?_
      cases hi : t.get s i <;> simp [both, hi, hj]
  rw [Finset.sum_congr rfl fun i _ => hleft i, Finset.sum_comm,
    Finset.sum_congr rfl fun j _ => hright j]

end Table

end ReadCommitted
