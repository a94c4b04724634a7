import Mathlib.Data.List.Chain
import Mathlib.Data.List.Nodup

/-!
# Lineages

A lineage is a list of keyed records each of which names the next one, and the last of which names
none. It grows at its end, its records may change without changing what they name, and what is
removed is removed from its beginning.

## Main definitions

* `IsLineage`: a list of keyed records is a lineage

## Main results

* `IsLineage.extend`, `IsLineage.revise`, `IsLineage.filter`: growth, change and removal
* `IsLineage.eq_of_next_none`: one record at most has no successor
* `IsLineage.exists_next`: the successor a record names is in the lineage
-/

namespace Succession

variable {ι R : Type}

/-- What remains of a list when a condition that is kept along it is asked for. -/
theorem filter_suffix {α : Type} {l : List α} {p : α → Bool}
    (h : l.Pairwise fun x y => p x = true → p y = true) : l.filter p <:+ l := by
  induction l with
  | nil => exact List.suffix_refl []
  | cons a l ih =>
    obtain ⟨ha, hl⟩ := List.pairwise_cons.mp h
    by_cases hp : p a = true
    · have hall : ∀ x ∈ a :: l, p x = true := List.forall_mem_cons.mpr ⟨hp, fun x hx => ha x hx hp⟩
      exact (List.filter_eq_self.mpr hall).symm ▸ List.suffix_refl (a :: l)
    · rw [List.filter_cons_of_neg hp]
      exact (ih hl).trans (List.suffix_cons a l)

/-- Each record names the key of the next one, to which it is related; the last one names none. -/
structure IsLineage (next : R → Option ι) (rel : R → R → Prop) (l : List (ι × R)) : Prop where
  nodup : (l.map Prod.fst).Nodup
  chain : l.IsChain fun x y => next x.2 = some y.1 ∧ rel x.2 y.2
  last : ∀ x ∈ l.getLast?, next x.2 = none

namespace IsLineage

variable {next : R → Option ι} {rel : R → R → Prop} {l l' : List (ι × R)} {i j : ι} {r r' r'' : R}

theorem nil : IsLineage next rel [] := ⟨List.nodup_nil, .nil, nofun⟩

theorem singleton (h : next r = none) : IsLineage next rel [(i, r)] where
  nodup := List.nodup_singleton i
  chain := .singleton _
  last := fun x hx => by
    cases hx
    exact h

/-- The last record gets a successor. -/
theorem extend (h : IsLineage next rel (l ++ [(i, r)])) (hr : ∀ x, rel x r → rel x r')
    (hnext : next r' = some j) (hend : next r'' = none) (hrel : rel r' r'')
    (hnew : j ∉ (l ++ [(i, r)]).map Prod.fst) : IsLineage next rel (l ++ [(i, r'), (j, r'')]) where
  nodup := by
    have hkeys : (l ++ [(i, r'), (j, r'')]).map Prod.fst = (l ++ [(i, r)]).map Prod.fst ++ [j] := by
      simp
    rw [hkeys]
    exact h.nodup.append (List.nodup_singleton j) (List.disjoint_singleton.mpr hnew)
  chain := by
    obtain ⟨hl, -, hlast⟩ := List.isChain_append.mp h.chain
    refine List.isChain_append.mpr ⟨hl, .cons_cons ⟨hnext, hrel⟩ (.singleton _), ?_⟩
    intro x hx y hy
    cases hy
    obtain ⟨hx', hrel'⟩ := hlast x hx _ rfl
    exact ⟨hx', hr _ hrel'⟩
  last := fun x hx => by
    rw [List.getLast?_append_of_ne_nil _ (List.cons_ne_nil _ _)] at hx
    cases hx
    exact hend

/-- The records change, but what they name does not. -/
theorem revise (h : IsLineage next rel l) (f : ι → R → R)
    (hnext : ∀ x ∈ l, next (f x.1 x.2) = next x.2)
    (hrel : ∀ x y : ι × R, rel x.2 y.2 → rel (f x.1 x.2) (f y.1 y.2)) :
    IsLineage next rel (l.map fun x => (x.1, f x.1 x.2)) where
  nodup := by
    have hkeys : (l.map fun x => (x.1, f x.1 x.2)).map Prod.fst = l.map Prod.fst := by
      rw [List.map_map]
      rfl
    rw [hkeys]
    exact h.nodup
  chain := by
    refine (List.isChain_map _).mpr (h.chain.imp_of_mem_imp fun x y hx _ hxy => ?_)
    exact ⟨(hnext x hx).trans hxy.1, hrel x y hxy.2⟩
  last := fun x hx => by
    rw [List.getLast?_map] at hx
    obtain ⟨y, hy, rfl⟩ := Option.map_eq_some_iff.mp hx
    exact (hnext y (List.mem_of_getLast? hy)).trans (h.last y hy)

/-- What remains at the end of a lineage is one. -/
theorem suffix (h : IsLineage next rel l) (hl : l' <:+ l) : IsLineage next rel l' where
  nodup := h.nodup.sublist (hl.sublist.map _)
  chain := h.chain.suffix hl
  last := fun x hx => by
    obtain ⟨l₀, rfl⟩ := hl
    have hne : l' ≠ [] := by
      rintro rfl
      cases hx
    exact h.last x (by rwa [List.getLast?_append_of_ne_nil l₀ hne])

/-- Records are removed from the beginning. -/
theorem filter (h : IsLineage next rel l) {p : ι × R → Bool}
    (hp : l.Pairwise fun x y => p x = true → p y = true) : IsLineage next rel (l.filter p) :=
  h.suffix (filter_suffix hp)

/-- The records are related in their order. -/
theorem pairwise (h : IsLineage next rel l) (htrans : ∀ x y z, rel x y → rel y z → rel x z) :
    l.Pairwise fun x y => rel x.2 y.2 := by
  let order : ι × R → ι × R → Prop := fun x y => rel x.2 y.2
  have : Trans order order order := ⟨fun hxy hyz => htrans _ _ _ hxy hyz⟩
  have hchain : l.IsChain order := h.chain.imp fun _ _ hxy => hxy.2
  exact hchain.pairwise

/-- The record without a successor is the last one. -/
theorem eq_append_of_next_none (h : IsLineage next rel l) {x : ι × R} (hx : x ∈ l)
    (hnone : next x.2 = none) : ∃ l₀, l = l₀ ++ [x] := by
  obtain ⟨l₀, l₁, rfl⟩ := List.append_of_mem hx
  cases l₁ with
  | nil => exact ⟨l₀, rfl⟩
  | cons y l₁ =>
    have hxy := (List.isChain_append_cons_cons.mp h.chain).2.1
    rw [hnone] at hxy
    cases hxy.1

/-- One record at most has no successor. -/
theorem eq_of_next_none (h : IsLineage next rel l) {x y : ι × R} (hx : x ∈ l) (hy : y ∈ l)
    (hxn : next x.2 = none) (hyn : next y.2 = none) : x = y := by
  obtain ⟨l₀, hl₀⟩ := h.eq_append_of_next_none hx hxn
  obtain ⟨l₁, hl₁⟩ := h.eq_append_of_next_none hy hyn
  have hlast : l.getLast? = some x := by rw [hl₀, List.getLast?_concat]
  rw [hl₁, List.getLast?_concat] at hlast
  exact (Option.some.inj hlast).symm

/-- The successor a record names is in the lineage. -/
theorem exists_next (h : IsLineage next rel l) {x : ι × R} (hx : x ∈ l) (hnext : next x.2 = some j) :
    ∃ r, (j, r) ∈ l ∧ rel x.2 r := by
  obtain ⟨l₀, l₁, rfl⟩ := List.append_of_mem hx
  cases l₁ with
  | nil =>
    have hnone := h.last x List.getLast?_concat
    rw [hnext] at hnone
    cases hnone
  | cons y l₁ =>
    obtain ⟨hxy, hrel⟩ := (List.isChain_append_cons_cons.mp h.chain).2.1
    rw [hnext] at hxy
    obtain rfl := Option.some.inj hxy
    exact ⟨y.2, List.mem_append_right _ (List.mem_cons_of_mem _ List.mem_cons_self), hrel⟩

end IsLineage

end Succession
