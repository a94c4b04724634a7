import Mathlib.Data.List.Sort
import Mathlib.Order.Antisymmetrization

/-!
# Stable sorting

A sort by insertion keeps elements that tie in their order. So the elements of one kind come in the
order in which they would come if there were no others, and which lists sort alike depends on the
elements that tie.

## Main results

* `filter_insertionSort`: sorting commutes with a filter
* `sorted_unique_iff`: where a list can be sorted in one way only
* `insertionSort_eq_iff`: where two lists of the same elements sort alike
-/

namespace Sorting

open List

variable {α : Type} {r : α → α → Prop}

variable [DecidableRel r]

/-- An element that is not above any other goes first. -/
theorem orderedInsert_of_forall {a : α} {l : List α} (h : ∀ b ∈ l, r a b) :
    l.orderedInsert r a = a :: l := by
  cases l with
  | nil => rfl
  | cons b l => exact orderedInsert_cons_of_le r l (h b mem_cons_self)

variable [IsTrans α r]

/-- What an insertion into a sorted list does to the elements of one kind. -/
theorem filter_orderedInsert (p : α → Bool) (a : α) {l : List α} (hl : l.Pairwise r) :
    (l.orderedInsert r a).filter p =
      if p a then (l.filter p).orderedInsert r a else l.filter p := by
  induction l with
  | nil => cases hp : p a <;> simp [hp]
  | cons b l ih =>
    obtain ⟨hb, hl⟩ := pairwise_cons.mp hl
    by_cases hab : r a b
    · -- the elements after the first are above it
      have hall : ∀ c ∈ (b :: l).filter p, r a c := by
        intro c hc
        rcases mem_cons.mp (mem_of_mem_filter hc) with rfl | hc
        · exact hab
        · exact trans_of r hab (hb c hc)
      rw [orderedInsert_cons_of_le r l hab, orderedInsert_of_forall hall, filter_cons]
    · rw [orderedInsert_of_not_le r l hab, filter_cons, filter_cons, ih hl]
      cases hp : p b with
      | false => rfl
      | true =>
        cases p a with
        | false => rfl
        | true => exact (orderedInsert_of_not_le r _ hab).symm

variable [Std.Total r]

/-- **Sorting commutes with a filter.** -/
theorem filter_insertionSort (p : α → Bool) (l : List α) :
    (l.insertionSort r).filter p = (l.filter p).insertionSort r := by
  induction l with
  | nil => rfl
  | cons a l ih =>
    rw [insertionSort_cons, filter_orderedInsert p a (pairwise_insertionSort r l), ih, filter_cons]
    split <;> rfl

/-! ## Elements that tie -/

/-- Where elements tie that are not equal, a list can be sorted in more than one way, and only there. -/
theorem sorted_unique_iff {l : List α} :
    (∀ l₁ l₂ : List α, l₁.Perm l → l₂.Perm l → l₁.Pairwise r → l₂.Pairwise r → l₁ = l₂) ↔
      ∀ a ∈ l, ∀ b ∈ l, AntisymmRel r a b → a = b := by
  classical
  constructor
  · intro h a ha b hb htie
    by_contra hne
    -- a sort that starts with the one, and a sort that starts with the other
    have hb' : b ∈ l.erase a := (mem_erase_of_ne (Ne.symm hne)).mpr hb
    have hab : (a :: b :: (l.erase a).erase b).Perm l :=
      ((perm_cons_erase hb').symm.cons a).trans (perm_cons_erase ha).symm
    have hba : (b :: a :: (l.erase a).erase b).Perm l := (Perm.swap a b _).trans hab
    have heq := h _ _ ((perm_insertionSort r _).trans hab) ((perm_insertionSort r _).trans hba)
      (pairwise_insertionSort r _) (pairwise_insertionSort r _)
    -- the elements that tie with them come as they came
    let p : α → Bool := fun x => decide (AntisymmRel r a x)
    have hkept : ∀ l : List α, (l.insertionSort r).filter p = l.filter p := by
      intro l
      rw [filter_insertionSort]
      refine Pairwise.insertionSort_eq (pairwise_of_forall_mem_list fun x hx y hy => ?_)
      have hax : AntisymmRel r a x := of_decide_eq_true (mem_filter.mp hx).2
      have hay : AntisymmRel r a y := of_decide_eq_true (mem_filter.mp hy).2
      exact trans_of r hax.2 hay.1
    have hpa : p a = true := decide_eq_true ⟨refl_of r a, refl_of r a⟩
    have hpb : p b = true := decide_eq_true htie
    have hfirst := congrArg (filter p) heq
    simp only [hkept, filter_cons, hpa, hpb, if_true] at hfirst
    exact hne (cons.inj hfirst).1
  · intro h l₁ l₂ h₁ h₂ hsorted₁ hsorted₂
    exact Perm.eq_of_pairwise (fun a b ha hb hab hba =>
      h a (h₁.mem_iff.mp ha) b (h₂.mem_iff.mp hb) ⟨hab, hba⟩) hsorted₁ hsorted₂ (h₁.trans h₂.symm)

omit [DecidableRel r] [IsTrans α r] [Std.Total r] in
/-- Of two elements of a list one comes before the other. -/
theorem pair_sublist_or {a b : α} {l : List α} (ha : a ∈ l) (hb : b ∈ l) (hne : a ≠ b) :
    [a, b] <+ l ∨ [b, a] <+ l := by
  obtain ⟨s, t, rfl⟩ := append_of_mem ha
  rcases mem_append.mp hb with hb | hb
  · exact .inr ((singleton_sublist.mpr hb).append (singleton_sublist.mpr mem_cons_self))
  · have hb := (mem_cons.mp hb).resolve_left (Ne.symm hne)
    exact .inl (((singleton_sublist.mpr hb).cons_cons a).trans (sublist_append_right s _))

/-- In a list without repetitions it does not come after it as well. -/
theorem not_pair_sublist_swap {a b : α} {l : List α} (hl : l.Nodup) (h : [a, b] <+ l) :
    ¬ [b, a] <+ l := by
  intro h'
  induction l with
  | nil => cases h
  | cons x l ih =>
    obtain ⟨hx, hl⟩ := nodup_cons.mp hl
    cases h with
    | cons _ h =>
      cases h' with
      | cons _ h' => exact ih hl h h'
      | cons_cons _ h' => exact hx (h.subset (mem_cons_of_mem _ mem_cons_self))
    | cons_cons _ h =>
      cases h' with
      | cons _ h' => exact hx (h'.subset (mem_cons_of_mem _ mem_cons_self))
      | cons_cons _ h' => exact hx (h'.subset mem_cons_self)

/-- Two elements come in the order in which their images do, where these are not repeated. -/
theorem pair_sublist_map_iff {β : Type} {f : α → β} {a b : α} {l : List α} (hl : (l.map f).Nodup)
    (ha : a ∈ l) (hb : b ∈ l) (hne : a ≠ b) : [f a, f b] <+ l.map f ↔ [a, b] <+ l := by
  refine ⟨fun h => ?_, fun h => h.map f⟩
  exact (pair_sublist_or ha hb hne).resolve_right fun hba =>
    not_pair_sublist_swap hl h (hba.map f)

/-- **Two lists of the same elements sort alike** if and only if those that tie come in the same order
in both. -/
theorem insertionSort_eq_iff {l l' : List α} (hperm : l.Perm l') (hl : l.Nodup) :
    l.insertionSort r = l'.insertionSort r ↔
      ∀ a ∈ l, ∀ b ∈ l, a ≠ b → AntisymmRel r a b → ([a, b] <+ l ↔ [a, b] <+ l') := by
  have hl' : l'.Nodup := hperm.nodup_iff.mp hl
  have hsort : (l.insertionSort r).Nodup := (perm_insertionSort r l).nodup_iff.mpr hl
  constructor
  · intro heq a ha b hb hne htie
    constructor
    · intro hab
      refine (pair_sublist_or (hperm.mem_iff.mp ha) (hperm.mem_iff.mp hb) hne).resolve_right
        fun hba => not_pair_sublist_swap hsort (pair_sublist_insertionSort htie.1 hab) ?_
      rw [heq]
      exact pair_sublist_insertionSort htie.2 hba
    · intro hab
      refine (pair_sublist_or ha hb hne).resolve_right fun hba =>
        not_pair_sublist_swap hsort ?_ (pair_sublist_insertionSort htie.2 hba)
      rw [heq]
      exact pair_sublist_insertionSort htie.1 hab
  · intro h
    -- both lists are in the order of `r`, and in that of `l` where this leaves it open
    let s : α → α → Prop := fun a b => r a b ∧ (r b a → a ≠ b → [a, b] <+ l)
    have hsorted : ∀ m : List α, m.Perm l → (∀ a ∈ l, ∀ b ∈ l, a ≠ b → AntisymmRel r a b →
        [a, b] <+ m → [a, b] <+ l) → (m.insertionSort r).Pairwise s := by
      intro m hm hsame
      have hmem : ∀ x ∈ m.insertionSort r, x ∈ m := fun x hx => (mem_insertionSort r).mp hx
      refine pairwise_iff_forall_sublist.mpr fun {a b} hab => ?_
      have hle := pairwise_iff_forall_sublist.mp (pairwise_insertionSort r m) hab
      have ha := hmem a (hab.subset mem_cons_self)
      have hb := hmem b (hab.subset (mem_cons_of_mem _ mem_cons_self))
      refine ⟨hle, fun hba hne => hsame a (hm.mem_iff.mp ha) b (hm.mem_iff.mp hb) hne ⟨hle, hba⟩ ?_⟩
      have hnodup : (m.insertionSort r).Nodup :=
        ((perm_insertionSort r m).trans hm).nodup_iff.mpr hl
      exact (pair_sublist_or ha hb hne).resolve_right fun h' =>
        not_pair_sublist_swap hnodup hab (pair_sublist_insertionSort hba h')
    refine Perm.eq_of_pairwise (fun a b _ _ hab hba => ?_) (hsorted l .rfl fun _ _ _ _ _ _ => id)
      (hsorted l' hperm.symm fun a ha b hb hne htie => (h a ha b hb hne htie).mpr)
      ((perm_insertionSort r l).trans (hperm.trans (perm_insertionSort r l').symm))
    by_contra hne
    exact not_pair_sublist_swap hl (hab.2 hba.1 hne) (hba.2 hab.1 (Ne.symm hne))

end Sorting
