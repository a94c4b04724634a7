import Mathlib.Data.List.Perm.Basic
import Mathlib.Data.List.Sort
import Mathlib.Order.Basic
import Mathlib.Tactic.Common

/-!
# Pages

The elements of a list are asked for page by page in the order of their keys. Elements with the same key
may come in another order each time, so that an element next to the end of a page may come twice or not
at all.

## Main definitions

* `IsListing`: the elements in the order of their keys
* `pages`: pages, each cut from a listing of its own
* `Separated`: no two elements with the same key meet where a page ends

## Main results

* `IsListing.perm_take`: what comes before the end of a page does not depend on the listing
* `pages_perm_iff`: the pages have every element once exactly if the elements are separated
* `separated_of_nodup`: elements with different keys are
-/

namespace Paging

open List

variable {α β : Type} [LinearOrder β]

/-- The elements of `l` in the order of their keys. -/
structure IsListing (key : α → β) (l σ : List α) : Prop where
  perm : σ ~ l
  sorted : σ.Pairwise fun a b => key a ≤ key b

/-- The page number `i`, of `n` elements. -/
def page (n : ℕ) (σ : List α) (i : ℕ) : List α := (σ.drop (i * n)).take n

/-- The number of the pages that start before `total`. -/
def numPages (n total : ℕ) : ℕ := (total + n - 1) / n

/-- The first `m` pages, each cut from a listing of its own. -/
def pages (n m : ℕ) (σ : ℕ → List α) : List α := (range m).flatMap fun i => page n (σ i) i

/-- The keys in their order. -/
def sortedKeys (key : α → β) (l : List α) : List β := (l.map key).insertionSort (· ≤ ·)

/-- Where a page ends, the key changes. -/
def Separated (key : α → β) (n : ℕ) (l : List α) : Prop :=
  ∀ i, 0 < i → i * n < l.length → (sortedKeys key l)[i * n - 1]? ≠ (sortedKeys key l)[i * n]?

/-! ## Pages of one listing -/

section Pages

variable {n : ℕ} {σ : List α}

theorem page_drop (m i : ℕ) : page n (σ.drop (m * n)) i = page n σ (m + i) := by
  rw [page, page, drop_drop, Nat.add_mul]

/-- The first pages of one listing. -/
theorem pages_const (n m : ℕ) (σ : List α) : pages n m (fun _ => σ) = σ.take (m * n) := by
  induction m with
  | zero => simp [pages]
  | succ m ih =>
    rw [pages, range_succ, flatMap_append, flatMap_singleton, Nat.succ_mul, take_add, ← ih]
    rfl

/-- The last pages may be cut from another listing. -/
theorem pages_ite (n m i : ℕ) (σ τ : List α) :
    pages n (i + m) (fun j => if j < i then σ else τ) =
      σ.take (i * n) ++ (τ.drop (i * n)).take (m * n) := by
  rw [pages, range_add, flatMap_append, flatMap_map]
  congr 1
  · rw [← pages_const]
    refine flatMap_congr fun j hj => ?_
    rw [if_pos (mem_range.mp hj)]
  · rw [← pages_const]
    refine flatMap_congr fun j _ => ?_
    rw [if_neg (by omega), page_drop]

theorem le_numPages_mul (hn : 0 < n) (total : ℕ) : total ≤ numPages n total * n := by
  have h := Nat.div_add_mod (total + n - 1) n
  have hmod := Nat.mod_lt (total + n - 1) hn
  rw [numPages, Nat.mul_comm]
  omega

theorem lt_numPages_iff (hn : 0 < n) {total i : ℕ} : i < numPages n total ↔ i * n < total := by
  rw [numPages, Nat.lt_iff_add_one_le, Nat.le_div_iff_mul_le hn, Nat.succ_mul]
  omega

end Pages

/-! ## Listings -/

section Listings

variable {key : α → β} {n : ℕ} {l σ τ : List α}

/-- The stable sort is one listing. -/
theorem isListing_insertionSort (key : α → β) (l : List α) :
    IsListing key l (l.insertionSort fun a b => key a ≤ key b) :=
  haveI : Std.Total fun a b : α => key a ≤ key b := ⟨fun a b => le_total (key a) (key b)⟩
  haveI : IsTrans α fun a b => key a ≤ key b := ⟨fun _ _ _ => le_trans⟩
  ⟨perm_insertionSort _ l, pairwise_insertionSort _ l⟩

/-- The keys come in the same order in every listing. -/
theorem IsListing.map_key (h : IsListing key l σ) : σ.map key = sortedKeys key l := by
  refine Perm.eq_of_pairwise' ?_ (pairwise_insertionSort (· ≤ ·) _)
    ((h.perm.map key).trans (perm_insertionSort (· ≤ ·) _).symm)
  exact pairwise_map.mpr h.sorted

theorem IsListing.length_eq (h : IsListing key l σ) : σ.length = l.length := h.perm.length_eq

theorem IsListing.key_le (h : IsListing key l σ) {i j : ℕ} (hij : i ≤ j) (hj : j < σ.length) :
    key σ[i] ≤ key σ[j] := by
  rcases hij.eq_or_lt with rfl | hlt
  · exact le_rfl
  · exact pairwise_iff_getElem.mp h.sorted i j (hlt.trans hj) hj hlt

/-- What comes before a change of the key are the elements with smaller keys. -/
theorem IsListing.take_eq_filter (h : IsListing key l σ) {k : ℕ} (hk : k + 1 < σ.length)
    (hne : key σ[k] ≠ key σ[k + 1]) :
    σ.take (k + 1) = σ.filter fun a => key a ≤ key σ[k] := by
  have hlt : key σ[k] < key σ[k + 1] := lt_of_le_of_ne (h.key_le (Nat.le_succ k) hk) hne
  have hlow : (σ.take (k + 1)).filter (fun a => key a ≤ key σ[k]) = σ.take (k + 1) := by
    refine filter_eq_self.mpr fun a ha => decide_eq_true ?_
    obtain ⟨j, hj, rfl⟩ := mem_take_iff_getElem.mp ha
    exact h.key_le (by omega) (by omega)
  have hhigh : (σ.drop (k + 1)).filter (fun a => key a ≤ key σ[k]) = [] := by
    refine filter_eq_nil_iff.mpr fun a ha hle => ?_
    obtain ⟨j, hj, rfl⟩ := mem_drop_iff_getElem.mp ha
    have hge := h.key_le (i := k + 1) (j := k + 1 + j) (by omega) (by omega)
    exact absurd (of_decide_eq_true hle) (not_le_of_gt (hlt.trans_le hge))
  calc σ.take (k + 1)
      = (σ.take (k + 1) ++ σ.drop (k + 1)).filter fun a => key a ≤ key σ[k] := by
        rw [filter_append, hlow, hhigh, append_nil]
    _ = σ.filter fun a => key a ≤ key σ[k] := by rw [take_append_drop]

/-- **What comes before a change of the key** does not depend on the listing. -/
theorem IsListing.perm_take (hσ : IsListing key l σ) (hτ : IsListing key l τ) {k : ℕ}
    (hk : 0 < k → k < l.length → (sortedKeys key l)[k - 1]? ≠ (sortedKeys key l)[k]?) :
    σ.take k ~ τ.take k := by
  cases k with
  | zero => simp
  | succ k =>
    by_cases hlt : k + 1 < l.length
    · have hne := hk (Nat.succ_pos k) hlt
      have hlσ := hσ.length_eq
      have hlτ := hτ.length_eq
      have hkey : ∀ {ρ : List α} (hρ : IsListing key l ρ) (i : ℕ) (hi : i < ρ.length),
          (sortedKeys key l)[i]? = some (key ρ[i]) := by
        intro ρ hρ i hi
        rw [← hρ.map_key, getElem?_map, getElem?_eq_getElem hi, Option.map_some]
      rw [Nat.add_sub_cancel] at hne
      have hsame : key σ[k] = key τ[k] :=
        Option.some.inj ((hkey hσ k (by omega)).symm.trans (hkey hτ k (by omega)))
      rw [hσ.take_eq_filter (by omega) fun he =>
          hne (by rw [hkey hσ k (by omega), hkey hσ (k + 1) (by omega), he]),
        hτ.take_eq_filter (by omega) fun he =>
          hne (by rw [hkey hτ k (by omega), hkey hτ (k + 1) (by omega), he]), hsame]
      exact (hσ.perm.trans hτ.perm.symm).filter _
    · rw [take_of_length_le (by rw [hσ.length_eq]; omega),
        take_of_length_le (by rw [hτ.length_eq]; omega)]
      exact hσ.perm.trans hτ.perm.symm

end Listings

/-! ## Pages of different listings -/

section Concat

variable {key : α → β} {n : ℕ} {l : List α}

/-- Where the keys change at the ends of the pages, a page does not depend on the listing. -/
theorem Separated.perm_page (h : Separated key n l) {σ τ : List α} (hσ : IsListing key l σ)
    (hτ : IsListing key l τ) (i : ℕ) : page n σ i ~ page n τ i := by
  have hcut : ∀ j, σ.take (j * n) ~ τ.take (j * n) := by
    refine fun j => hσ.perm_take hτ fun hpos hlt => h j ?_ hlt
    exact Nat.pos_of_mul_pos_right hpos
  have hnext := hcut (i + 1)
  rw [Nat.succ_mul, take_add, take_add] at hnext
  exact (perm_append_left_iff _).mp (hnext.trans ((hcut i).symm.append_right _))

/-- Two elements that tie may be listed in either order. -/
theorem IsListing.swap {A B : List α} {x y : α} (h : IsListing key l (A ++ x :: y :: B))
    (htie : key x = key y) : IsListing key l (A ++ y :: x :: B) := by
  refine ⟨((Perm.swap x y B).append_left A).trans h.perm, ?_⟩
  have hsorted := h.sorted
  simp only [pairwise_append, pairwise_cons, mem_cons, forall_eq_or_imp, htie] at hsorted ⊢
  obtain ⟨hA, ⟨⟨-, hx⟩, hy, hB⟩, hcross⟩ := hsorted
  refine ⟨hA, ⟨⟨le_rfl, hy⟩, hx, hB⟩, fun a ha => ?_⟩
  obtain ⟨hax, hay, haB⟩ := hcross a ha
  exact ⟨hay, hax, haB⟩

/-- A tie at the end of a page. -/
theorem IsListing.exists_tie {σ : List α} (h : IsListing key l σ) {k : ℕ} (hk : k + 1 < l.length)
    (htie : (sortedKeys key l)[k]? = (sortedKeys key l)[k + 1]?) :
    ∃ A x y B, σ = A ++ x :: y :: B ∧ A.length = k ∧ key x = key y := by
  have hlen := h.length_eq
  rw [← h.map_key, getElem?_map, getElem?_map, getElem?_eq_getElem (by omega),
    getElem?_eq_getElem (by omega), Option.map_some, Option.map_some, Option.some.injEq] at htie
  refine ⟨σ.take k, σ[k], σ[k + 1], σ.drop (k + 2), ?_, ?_, htie⟩
  · rw [← drop_eq_getElem_cons, ← drop_eq_getElem_cons, take_append_drop]
  · rw [length_take]
    omega

/-- **The pages of a list have every element exactly once**, whatever listing each of them is cut from,
if and only if no two elements with the same key meet where a page ends. -/
theorem pages_perm_iff (hn : 0 < n) (hl : l.Nodup) :
    (∀ σ : ℕ → List α, (∀ i, IsListing key l (σ i)) → pages n (numPages n l.length) σ ~ l) ↔
      Separated key n l := by
  constructor
  · intro hall i hi hlt htie
    obtain ⟨k, hk⟩ : ∃ k, i * n = k + 1 := ⟨i * n - 1, by have := Nat.mul_pos hi hn; omega⟩
    rw [hk, Nat.add_sub_cancel] at htie
    obtain ⟨A, x, y, B, hσ, hA, hxy⟩ :=
      (isListing_insertionSort key l).exists_tie (hk ▸ hlt) htie
    have hlist : IsListing key l (A ++ x :: y :: B) := hσ ▸ isListing_insertionSort key l
    -- the pages from the tie on are cut from the listing with the two elements exchanged
    have hperm := hall (fun j => if j < i then A ++ x :: y :: B else A ++ y :: x :: B) fun j => by
      split
      · exact hlist
      · exact hlist.swap hxy
    obtain ⟨m, hm⟩ := Nat.exists_eq_add_of_le ((lt_numPages_iff hn).mpr hlt).le
    have hB : B.length + 1 ≤ m * n := by
      have hle := le_numPages_mul hn l.length
      rw [hm, Nat.add_mul, ← hlist.length_eq, length_append, length_cons, length_cons] at hle
      omega
    rw [hm, pages_ite, hk] at hperm
    have htwice : A ++ [x] ++ x :: B ~ l := by
      have htake : (A ++ [x] ++ y :: B).take (k + 1) = A ++ [x] := take_left' (by simp [hA])
      have hdrop : (A ++ [y] ++ x :: B).drop (k + 1) = x :: B := drop_left' (by simp [hA])
      rw [append_assoc, singleton_append] at htake hdrop
      rwa [htake, hdrop, take_of_length_le (by rw [length_cons]; exact hB)] at hperm
    obtain ⟨-, -, hdisjoint⟩ := nodup_append.mp (htwice.nodup_iff.mpr hl)
    exact hdisjoint x (mem_append_right A mem_cons_self) x mem_cons_self rfl
  · intro hsep σ hσ
    obtain ⟨τ, hτ⟩ : ∃ τ, IsListing key l τ := ⟨_, isListing_insertionSort key l⟩
    have hpages : pages n (numPages n l.length) σ ~ pages n (numPages n l.length) fun _ => τ :=
      Perm.flatMap_left _ fun i _ => hsep.perm_page (hσ i) hτ i
    rw [pages_const, take_of_length_le (hτ.length_eq ▸ le_numPages_mul hn _)] at hpages
    exact hpages.trans hτ.perm

/-- Elements with different keys are separated. -/
theorem separated_of_nodup (hn : 0 < n) (h : (l.map key).Nodup) : Separated key n l := by
  intro i hi hlt htie
  have hnodup : (sortedKeys key l).Nodup := (perm_insertionSort (· ≤ ·) _).nodup_iff.mpr h
  have hlen : (sortedKeys key l).length = l.length := by
    rw [sortedKeys, length_insertionSort, length_map]
  rw [getElem?_eq_getElem (by omega), getElem?_eq_getElem (by omega), Option.some.injEq,
    hnodup.getElem_inj_iff] at htie
  have := Nat.mul_pos hi hn
  omega

end Concat

end Paging
