import AccountingApi.Allocations
import AccountingApi.ReadCommitted.Alone

/-!
# Allocations drafted, settled and taken back

A draft of a payment checks its allocations against one reading of the documents, with a running sum
for each of them. The posting settles them one by one, each under the lock of its document and on top
of what the ones before it have paid. Both ask for the same: every document is posted, and the sum of
the allocations to it is no more than its outstanding amount. So the order of the allocations does not
matter, neither for the posting nor for the void that takes them back.

## Main definitions

* `Affordable`: the documents of the allocations can take them, on top of what they have been given
* `PaidMore`: the store in which documents have been paid more

## Main results

* `checkAllocations_iff`, `settle_iff`: the check of the draft and the one of the posting
* `unwind_settled`: the allocations taken back
* `allocations_agree`
-/

namespace AccountingApi

open ReadCommitted Payments

/-- The columns of every document hold its amounts, and its paid amount is not negative. -/
def DocumentsHold (db : Db) : Prop :=
  ∀ kind id d, Db.document db kind id = some d → d.Valid ∧ 0 ≤ d.amountPaid

/-- The allocations are positive amounts that fit their column, to documents of the target's kind and
of the partner. -/
def Addressed (db : Db) (t : PaymentTarget) (partnerId : Uuid) (as : List PaymentAllocation) : Prop :=
  ∀ a ∈ as, a.Valid ∧ t.otherId a = none ∧ ∃ id d, t.allocId a = some id ∧
    Db.document db t.kind id = some d ∧ d.deletedAt = none ∧ d.partnerId = partnerId

/-- Every document of the allocations is posted, and what has been given to it and what they give to
it is no more than its outstanding amount. -/
def Affordable (db : Db) (t : PaymentTarget) (given : Uuid → ℤ) (as : List PaymentAllocation) :
    Prop :=
  ∀ id d, (∃ a ∈ as, t.allocId a = some id) → Db.document db t.kind id = some d →
    d.status = .posted ∧ given id + allocatedTo t.kind id as ≤ d.total - d.amountPaid

/-- The store in which the documents of a kind have been paid more. -/
structure PaidMore (kind : DocumentKind) (db : Db) (more : Uuid → ℤ) (s : Db) : Prop where
  document : ∀ id, Db.document s kind id = (Db.document db kind id).map (applyPaid (more id))
  other : ∀ k, (∀ id, k ≠ .document kind id) → s.row k = db.row k

/-! ## Sums -/

section Sums

variable {db s : Db} {t : PaymentTarget} {kind : DocumentKind} {partnerId id : Uuid} {d : Document}
  {a : PaymentAllocation} {as as' : List PaymentAllocation} {given : Uuid → ℤ}

theorem allocatedTo_cons (a : PaymentAllocation) (as : List PaymentAllocation) :
    allocatedTo kind id (a :: as) =
      (if a.idOf kind = some id then a.amount else 0) + allocatedTo kind id as := by
  by_cases h : a.idOf kind = some id <;> simp [allocatedTo, h]

theorem allocatedTo_perm (h : as'.Perm as) :
    allocatedTo kind id as' = allocatedTo kind id as :=
  ((h.filter _).map _).sum_eq

theorem allocatedTo_nonneg (h : ∀ a ∈ as, a.Valid) : 0 ≤ allocatedTo kind id as := by
  refine List.sum_nonneg (List.forall_mem_map.mpr fun a ha => ?_)
  exact (h a (List.mem_of_mem_filter ha)).1.le

theorem allocatedTo_eq_zero (h : ¬ ∃ a ∈ as, a.idOf kind = some id) :
    allocatedTo kind id as = 0 := by
  have hnone : (as.filter fun a => a.idOf kind = some id) = [] :=
    List.filter_eq_nil_iff.mpr fun a ha hid => h ⟨a, ha, of_decide_eq_true hid⟩
  rw [allocatedTo, hnone]
  rfl

theorem Addressed.valid (h : Addressed db t partnerId as) : ∀ a ∈ as, a.Valid :=
  fun a ha => (h a ha).1

theorem Addressed.perm (h : Addressed db t partnerId as) (hperm : as'.Perm as) :
    Addressed db t partnerId as' := fun a ha => h a (hperm.subset ha)

theorem affordable_perm (hperm : as'.Perm as) :
    Affordable db t given as' ↔ Affordable db t given as := by
  have hmem : ∀ id, (∃ a ∈ as', t.allocId a = some id) ↔ ∃ a ∈ as, t.allocId a = some id :=
    fun id => exists_congr fun a => and_congr_left fun _ => hperm.mem_iff
  simp only [Affordable, hmem, allocatedTo_perm hperm]

/-- **One allocation after the other**: the first one is added to what has been given. -/
theorem affordable_cons (hpos : ∀ b ∈ as, b.Valid) (hid : t.allocId a = some id)
    (hd : Db.document db t.kind id = some d) :
    Affordable db t given (a :: as) ↔
      (d.status = .posted ∧ given id + a.amount ≤ d.total - d.amountPaid) ∧
        Affordable db t (Function.update given id (given id + a.amount)) as := by
  have hnonneg : ∀ id, 0 ≤ allocatedTo t.kind id as := fun id => allocatedTo_nonneg hpos
  have hsum : allocatedTo t.kind id (a :: as) = a.amount + allocatedTo t.kind id as := by
    rw [allocatedTo_cons, if_pos (show a.idOf t.kind = some id from hid)]
  have hother : ∀ id', id' ≠ id →
      allocatedTo t.kind id' (a :: as) = allocatedTo t.kind id' as := by
    intro id' hne
    rw [allocatedTo_cons, if_neg fun h => hne (Option.some.inj (h.symm.trans hid)), zero_add]
  constructor
  · intro h
    obtain ⟨hposted, hle⟩ := h id d ⟨a, List.mem_cons_self, hid⟩ hd
    refine ⟨⟨hposted, by have := hnonneg id; omega⟩, ?_⟩
    rintro id' d' ⟨b, hb, hbid⟩ hd'
    obtain ⟨hposted', hle'⟩ := h id' d' ⟨b, List.mem_cons_of_mem a hb, hbid⟩ hd'
    refine ⟨hposted', ?_⟩
    by_cases hne : id' = id
    · subst hne
      rw [Function.update_self]
      omega
    · rw [Function.update_of_ne hne]
      rwa [hother id' hne] at hle'
  · rintro ⟨⟨hposted, hle⟩, hrest⟩ id' d' ⟨b, hb, hbid⟩ hd'
    by_cases hne : id' = id
    · subst hne
      obtain rfl : d = d' := Option.some.inj (hd ▸ hd')
      refine ⟨hposted, ?_⟩
      rw [hsum]
      by_cases hmore : ∃ b ∈ as, t.allocId b = some id'
      · obtain ⟨-, hle'⟩ := hrest id' d hmore hd
        rw [Function.update_self] at hle'
        omega
      · rw [allocatedTo_eq_zero hmore]
        omega
    · have hbas : b ∈ as := by
        rcases List.mem_cons.mp hb with rfl | hb
        · exact absurd (Option.some.inj (hbid.symm.trans hid)) hne
        · exact hb
      obtain ⟨hposted', hle'⟩ := hrest id' d' ⟨b, hbas, hbid⟩ hd'
      rw [Function.update_of_ne hne] at hle'
      rw [hother id' hne]
      exact ⟨hposted', hle'⟩

/-- What is affordable stays so without the first allocation. -/
theorem Affordable.tail (h : Affordable db t given (a :: as)) (ha : a.Valid) :
    Affordable db t given as := by
  rintro id d ⟨b, hb, hbid⟩ hd
  obtain ⟨hposted, hle⟩ := h id d ⟨b, List.mem_cons_of_mem a hb, hbid⟩ hd
  have hamount := ha.1
  have hsum : allocatedTo t.kind id (a :: as) = _ := allocatedTo_cons a as
  refine ⟨hposted, ?_⟩
  split at hsum <;> omega

end Sums

/-! ## The checks -/

section Checks

/-- Amounts taken off one after the other leave less than nothing if and only if their sum is more
than there was, however the differences are rounded. -/
theorem isNegative_subtract_subtract {x y z : ℤ} (hx : Money.Storable x) (hy : 0 ≤ y) (hz : 0 ≤ z)
    (hzs : Money.Storable z) :
    Money.isNegative (Money.subtract (Money.subtract x y) z) = false ↔ y + z ≤ x := by
  rw [Money.isNegative, decide_eq_false_iff_not]
  by_cases hle : y ≤ x
  · have hfirst : Money.subtract x y = x - y :=
      Money.subtract_eq (by simp only [Money.Storable] at *; omega)
    have hsecond : Money.subtract (x - y) z = x - y - z :=
      Money.subtract_eq (by simp only [Money.Storable] at hx hzs ⊢; omega)
    rw [hfirst, hsecond]
    omega
  · have hneg : Money.subtract x y < 0 := Money.subtract_neg (by omega)
    have hneg' : Money.subtract (Money.subtract x y) z < 0 := Money.subtract_neg (by omega)
    omega

/-- The same for three amounts. -/
theorem isNegative_subtract_subtract_subtract {x y z w : ℤ} (hx : Money.Storable x) (hy : 0 ≤ y)
    (hz : 0 ≤ z) (hw : 0 ≤ w) (hws : Money.Storable w) :
    Money.isNegative (Money.subtract (Money.subtract (Money.subtract x y) z) w) = false ↔
      y + z + w ≤ x := by
  by_cases hle : y ≤ x
  · have hfirst : Money.subtract x y = x - y :=
      Money.subtract_eq (by simp only [Money.Storable] at *; omega)
    rw [hfirst, isNegative_subtract_subtract (by simp only [Money.Storable] at *; omega) hz hw hws]
    omega
  · have hneg : Money.subtract x y < 0 := Money.subtract_neg (by omega)
    have hneg' : Money.subtract (Money.subtract x y) z < 0 := Money.subtract_neg (by omega)
    have hneg'' : Money.subtract (Money.subtract (Money.subtract x y) z) w < 0 :=
      Money.subtract_neg (by omega)
    rw [Money.isNegative, decide_eq_false_iff_not]
    omega

variable {db s : Db} {t : PaymentTarget} {partnerId id : Uuid} {d : Document}
  {a : PaymentAllocation} {as : List PaymentAllocation} {given : Uuid → ℤ} {buf : List (Write Row)}

/-- What a draft checks of one allocation. -/
theorem evalWith_checkAllocations_cons {total : ℤ} (ha : a.Valid) (hid : t.allocId a = some id)
    (hother : t.otherId a = none) (hd : Db.document db t.kind id = some d)
    (hlive : d.deletedAt = none) (hpartner : d.partnerId = partnerId) :
    (checkAllocations t partnerId given total (a :: as)).evalWith db [] =
      if d.status = .posted then
        if Money.isNegative (Money.subtract
            (Money.subtract (Money.subtract d.total d.amountPaid) (given id)) a.amount) = false then
          (checkAllocations t partnerId
            (Function.update given id (Money.add (given id) a.amount))
            (Money.add total a.amount) as).evalWith db []
        else (.error (.validationFailed "Allocation exceeds the document outstanding"
          [("documentId", .id id)]), db, [])
      else (.error (.validationFailed "Can only allocate to a POSTED document"
        [("documentId", .id id), ("status", .text d.status.name)]), db, []) := by
  have hpos : Money.isZero a.amount = false ∧ Money.isNegative a.amount = false := by
    have hamount := ha.1
    rw [Money.isZero, Money.isNegative, decide_eq_false_iff_not, decide_eq_false_iff_not]
    omega
  have hload : (loadTarget t a).evalWith db [] = (.ok (id, d), db, []) := by
    have hrow : Db.liveDocument db t.kind id = some d :=
      Option.filter_eq_some_iff.mpr ⟨hd, Option.isNone_iff_eq_none.mpr hlive⟩
    rw [loadTarget, hid]
    change ((Prog.ensure (t.otherId a = none) _ : Program Unit).bind _).evalWith db [] = _
    rw [Prog.evalWith_ensure_bind, if_pos hother]
    change ((Prog.orThrow (Db.liveDocument db t.kind id) _ : Program Document).bind _).evalWith
      db [] = _
    rw [hrow]
    rfl
  rw [checkAllocations, Prog.bind_eq, Prog.evalWith_ensure_bind, if_pos hpos, Prog.bind_eq,
    Prog.evalWith_bind hload]
  dsimp only
  rw [Prog.bind_eq, Prog.evalWith_ensure_bind, if_pos hpartner, Prog.bind_eq,
    Prog.evalWith_ensure_bind]
  split
  · rw [Prog.bind_eq, Prog.evalWith_ensure_bind]
  · rfl

/-- **The check of the draft**: the allocations pass it if and only if they are affordable. -/
theorem checkAllocations_iff (hdocs : DocumentsHold db) (has : Addressed db t partnerId as)
    (hgiven : ∀ id, 0 ≤ given id) {total : ℤ} :
    (∃ total', (checkAllocations t partnerId given total as).evalWith db [] =
        (.ok total', db, [])) ∧ Affordable db t given as ∨
    (∃ e, (checkAllocations t partnerId given total as).evalWith db [] = (.error e, db, [])) ∧
      ¬ Affordable db t given as := by
  induction as generalizing given total with
  | nil => exact .inl ⟨⟨total, rfl⟩, fun id d h => by simp at h⟩
  | cons a as ih =>
    obtain ⟨hvalid, hother, id, d, hid, hd, hlive, hpartner⟩ := has a List.mem_cons_self
    have hrest : Addressed db t partnerId as := fun b hb => has b (List.mem_cons_of_mem a hb)
    obtain ⟨hcolumns, hpaid⟩ := hdocs _ _ _ hd
    rw [evalWith_checkAllocations_cons hvalid hid hother hd hlive hpartner,
      affordable_cons hrest.valid hid hd]
    split
    · rename_i hposted
      have hcheck := isNegative_subtract_subtract_subtract hcolumns.2.2.2.1 hpaid (hgiven id)
        hvalid.1.le hvalid.2
      split
      · rename_i hnot
        have hle := hcheck.mp hnot
        -- what is given so far fits, so that its sum is exact
        have hadd : Money.add (given id) a.amount = given id + a.amount := by
          refine Money.add_eq ?_
          have hpos := hvalid.1
          have hgiven' := hgiven id
          have htotal := hcolumns.2.2.2.1
          simp only [Money.Storable] at htotal ⊢
          omega
        rw [hadd]
        have hgiven' : ∀ id', 0 ≤ Function.update given id (given id + a.amount) id' := by
          intro id'
          by_cases hne : id' = id
          · subst hne
            rw [Function.update_self]
            exact Int.add_nonneg (hgiven id') hvalid.1.le
          · rw [Function.update_of_ne hne]
            exact hgiven id'
        rcases ih hrest hgiven' with ⟨hok, hafford⟩ | ⟨herror, hafford⟩
        · exact .inl ⟨hok, ⟨hposted, by omega⟩, hafford⟩
        · exact .inr ⟨herror, fun h => hafford h.2⟩
      · rename_i hnot
        refine .inr ⟨⟨_, rfl⟩, fun h => hnot (hcheck.mpr ?_)⟩
        have hle := h.1.2
        omega
    · rename_i hposted
      exact .inr ⟨⟨_, rfl⟩, fun h => hposted h.1.1⟩

end Checks

/-! ## The paid amounts -/

section Paid

variable {db s : Db} {kind : DocumentKind} {id : Uuid} {d : Document} {more : Uuid → ℤ}

theorem PaidMore.refl (kind : DocumentKind) (db : Db) : PaidMore kind db (fun _ => 0) db where
  document := by
    intro id
    cases Db.document db kind id with
    | none => rfl
    | some d => simp [applyPaid]
  other := fun _ _ => rfl

theorem PaidMore.congr {more' : Uuid → ℤ} (h : PaidMore kind db more s) (heq : more = more') :
    PaidMore kind db more' s := heq ▸ h

/-- A document paid `x` more. -/
theorem PaidMore.put (h : PaidMore kind db more s) (hd : Db.document db kind id = some d) (x : ℤ) :
    PaidMore kind db (Function.update more id (more id + x))
      (s.put (.document kind id) (applyPaid x (applyPaid (more id) d))) where
  document := by
    intro id'
    rw [document_put]
    by_cases hne : id' = id
    · subst hne
      rw [if_pos rfl, Function.update_self, hd, applyPaid_applyPaid]
      rfl
    · rw [if_neg fun he => hne (Prod.mk.inj he).2.symm, Function.update_of_ne hne, h.document]
  other := by
    intro k hk
    rw [Store.row_put_of_ne _ _ (hk id), h.other k hk]

/-- Paid nothing more, the store is what it was. -/
theorem PaidMore.row_eq (h : PaidMore kind db more s) (hzero : ∀ id, more id = 0) (k : Key) :
    s.row k = db.row k := by
  by_cases hk : ∃ id, k = .document kind id
  · obtain ⟨id, rfl⟩ := hk
    have hdoc := h.document id
    rw [hzero, Db.document_eq_row, Db.document_eq_row] at hdoc
    rw [hdoc]
    cases db.row (.document kind id) with
    | none => rfl
    | some d => simp [applyPaid]
  · exact h.other k fun id he => hk ⟨id, he⟩

end Paid

/-! ## Settling and taking back -/

section Statements

variable {db : Db} {t : PaymentTarget} {kind : DocumentKind} {partnerId id : Uuid} {d : Document}
  {a : PaymentAllocation} {buf : List (Write Row)}

theorem liveDocument_eq (hd : Db.document db kind id = some d) (hlive : d.deletedAt = none) :
    Db.liveDocument db kind id = some d :=
  Option.filter_eq_some_iff.mpr ⟨hd, Option.isNone_iff_eq_none.mpr hlive⟩

/-- An update of a document that is not deleted. -/
theorem evalWith_updateDocument {f : Document → Document}
    (hd : Db.document (db.putAll buf) kind id = some d) (hlive : d.deletedAt = none)
    (hvalid : (f d).Valid) :
    (updateDocument kind id f).evalWith db buf =
      (.ok (f d), db, buf ++ [⟨.document kind id, f d⟩]) := by
  have hrow : (db.putAll buf).row (.document kind id) = some d :=
    (Db.document_eq_row _ _ _).symm.trans hd
  change ((Prog.orThrow ((db.putAll buf).row (.document kind id)) _ : Program Document).bind
    _).evalWith db buf = _
  rw [hrow]
  change ((Prog.ensure (d.deletedAt = none) _ : Program Unit).bind _).evalWith db buf = _
  rw [Prog.evalWith_ensure_bind, if_pos hlive]
  change ((Prog.ensure (f d).Valid _ : Program Unit).bind _).evalWith db buf = _
  rw [Prog.evalWith_ensure_bind, if_pos hvalid]
  rfl

/-- **One allocation settled**: it writes its document, where that is posted and not exceeded. -/
theorem evalWith_settleInTx (hid : t.allocId a = some id)
    (hd : Db.document (db.putAll buf) t.kind id = some d) (hlive : d.deletedAt = none)
    (hpartner : d.partnerId = partnerId) (hvalid : d.status = .posted →
      exceedsOutstanding d.total d.amountPaid a.amount = false → (applyPaid a.amount d).Valid) :
    (settleInTx t partnerId a).evalWith db buf =
      if d.status = .posted then
        if exceedsOutstanding d.total d.amountPaid a.amount = false then
          (.ok (), db, buf ++ [⟨.document t.kind id, applyPaid a.amount d⟩])
        else (.error (.conflict "Allocation now exceeds outstanding" [("id", .id id)]), db, buf)
      else (.error (.validationFailed ("Allocated " ++ t.noun ++ " is not posted") [("id", .id id)]),
        db, buf) := by
  have hrow := liveDocument_eq hd hlive
  rw [settleInTx, hid]
  change ((Prog.orThrow (Db.liveDocument (db.putAll buf) t.kind id) _ : Program Document).bind
    _).evalWith db buf = _
  rw [hrow]
  change ((Prog.ensure (d.status = .posted) _ : Program Unit).bind _).evalWith db buf = _
  rw [Prog.evalWith_ensure_bind]
  split
  · rename_i hposted
    rw [Prog.bind_eq, Prog.evalWith_ensure_bind, if_pos hpartner, Prog.bind_eq,
      Prog.evalWith_ensure_bind]
    split
    · rename_i hnot
      rw [Prog.bind_eq, Prog.evalWith_bind (evalWith_updateDocument hd hlive (hvalid hposted hnot))]
      rfl
    · rfl
  · rfl

/-- **One allocation taken back**: it writes its document, where that has been paid as much. -/
theorem evalWith_unwindInTx (hid : t.allocId a = some id)
    (hd : Db.document (db.putAll buf) t.kind id = some d) (hlive : d.deletedAt = none)
    (hpaid : Money.isNegative (Money.subtract d.amountPaid a.amount) = false)
    (hvalid : (applyPaid (-a.amount) d).Valid) :
    (unwindInTx t a).evalWith db buf =
      (.ok (), db, buf ++ [⟨.document t.kind id, applyPaid (-a.amount) d⟩]) := by
  have hrow := liveDocument_eq hd hlive
  rw [unwindInTx, hid]
  change ((Prog.orThrow (Db.liveDocument (db.putAll buf) t.kind id) _ : Program Document).bind
    _).evalWith db buf = _
  rw [hrow]
  change ((Prog.ensure (Money.isNegative (Money.subtract d.amountPaid a.amount) = false) _ :
    Program Unit).bind _).evalWith db buf = _
  rw [Prog.evalWith_ensure_bind, if_pos hpaid, Prog.bind_eq,
    Prog.evalWith_bind (evalWith_updateDocument hd hlive hvalid)]
  rfl

end Statements

/-! ## The loops over the allocations -/

section Loops

variable {db db₀ : Db} {t : PaymentTarget} {partnerId id : Uuid} {d : Document}
  {a : PaymentAllocation} {as : List PaymentAllocation} {given : Uuid → ℤ} {buf : List (Write Row)}

/-- A document that has been paid within its total fits its columns. -/
theorem valid_applyPaid {x : ℤ} (h : d.Valid) (hnonneg : 0 ≤ d.amountPaid + x)
    (hle : d.amountPaid + x ≤ d.total) : (applyPaid x d).Valid := by
  obtain ⟨hsubtotal, htax, hwithholding, htotal, -⟩ := h
  refine ⟨hsubtotal, htax, hwithholding, htotal, ?_⟩
  simp only [Money.Storable, applyPaid] at htotal ⊢
  omega

theorem given_nonneg_update {x : ℤ} (h : ∀ id, 0 ≤ given id) (hx : 0 ≤ x) (id' : Uuid) :
    0 ≤ Function.update given id (given id + x) id' := by
  by_cases hne : id' = id
  · subst hne
    rw [Function.update_self]
    exact Int.add_nonneg (h id') hx
  · rw [Function.update_of_ne hne]
    exact h id'

/-- What has been given and what the rest gives, once the first allocation has been added. -/
theorem update_add_allocatedTo (hid : a.idOf t.kind = some id) :
    (fun id' => Function.update given id (given id + a.amount) id' + allocatedTo t.kind id' as) =
      fun id' => given id' + allocatedTo t.kind id' (a :: as) := by
  funext id'
  rw [allocatedTo_cons, hid]
  by_cases hne : id' = id
  · subst hne
    rw [Function.update_self, if_pos rfl, add_assoc]
  · rw [Function.update_of_ne hne, if_neg fun h => hne (Option.some.inj h).symm, zero_add]

/-- **The loop of the posting**: the allocations are settled if and only if they are affordable, and
then every document has been paid what they give to it. -/
theorem settle_iff (hdocs : DocumentsHold db₀) (has : Addressed db₀ t partnerId as)
    (hgiven : ∀ id, 0 ≤ given id) (hs : PaidMore t.kind db₀ given (db.putAll buf)) :
    (Affordable db₀ t given as ∧ ∃ buf',
      (Prog.forEach as (settleInTx t partnerId)).evalWith db buf = (.ok (), db, buf') ∧
        PaidMore t.kind db₀ (fun id => given id + allocatedTo t.kind id as) (db.putAll buf')) ∨
    (¬ Affordable db₀ t given as ∧ ∃ e buf',
      (Prog.forEach as (settleInTx t partnerId)).evalWith db buf = (.error e, db, buf')) := by
  induction as generalizing given buf with
  | nil =>
    refine .inl ⟨fun id d h => by simp at h, buf, rfl, hs.congr ?_⟩
    funext id
    exact (add_zero _).symm
  | cons a as ih =>
    obtain ⟨hvalid, hother, id, d, hid, hd, hlive, hpartner⟩ := has a List.mem_cons_self
    have hrest : Addressed db₀ t partnerId as := fun b hb => has b (List.mem_cons_of_mem a hb)
    obtain ⟨hcolumns, hpaid⟩ := hdocs _ _ _ hd
    have hpos := hvalid.1
    have hgiven' := hgiven id
    -- the document as the allocations before this one have left it
    have hd' : Db.document (db.putAll buf) t.kind id = some (applyPaid (given id) d) := by
      rw [hs.document, hd]
      rfl
    have hexceeds : exceedsOutstanding d.total (d.amountPaid + given id) a.amount = false ↔
        d.amountPaid + given id + a.amount ≤ d.total :=
      isNegative_subtract_subtract hcolumns.2.2.2.1 (by omega) hpos.le hvalid.2
    have hstep := evalWith_settleInTx hid hd' hlive hpartner
      fun _ hnot => by
        have hle := hexceeds.mp hnot
        rw [applyPaid_applyPaid]
        exact valid_applyPaid hcolumns (by omega) (by omega)
    rw [affordable_cons hrest.valid hid hd, Prog.forEach]
    split at hstep
    · rename_i hposted
      split at hstep
      · rename_i hnot
        have hle := hexceeds.mp hnot
        rw [Prog.evalWith_bind hstep]
        have hnext : PaidMore t.kind db₀ (Function.update given id (given id + a.amount))
            (db.putAll (buf ++ [⟨.document t.kind id, applyPaid a.amount (applyPaid (given id) d)⟩])) := by
          rw [Store.putAll_append, Store.putAll_cons, Store.putAll_nil]
          exact hs.put hd a.amount
        rcases ih hrest (given_nonneg_update hgiven hpos.le) hnext with
          ⟨hafford, buf', hok, hmore⟩ | ⟨hafford, herror⟩
        · refine .inl ⟨⟨⟨hposted, by omega⟩, hafford⟩, buf', hok, ?_⟩
          exact hmore.congr (update_add_allocatedTo hid)
        · exact .inr ⟨fun h => hafford h.2, herror⟩
      · rename_i hnot
        refine .inr ⟨fun h => hnot (hexceeds.mpr ?_), _, _, Prog.evalWith_bind_error hstep⟩
        have hle := h.1.2
        omega
    · rename_i hposted
      exact .inr ⟨fun h => hposted h.1.1, _, _, Prog.evalWith_bind_error hstep⟩

/-- **The loop of the void**: what allocations have paid can be taken back, and then the documents have
been paid nothing more. -/
theorem unwind_settled (hdocs : DocumentsHold db₀) (has : Addressed db₀ t partnerId as)
    (hafford : Affordable db₀ t (fun _ => 0) as)
    (hs : PaidMore t.kind db₀ (fun id => allocatedTo t.kind id as) (db.putAll buf)) :
    ∃ buf', (Prog.forEach as (unwindInTx t)).evalWith db buf = (.ok (), db, buf') ∧
      PaidMore t.kind db₀ (fun _ => 0) (db.putAll buf') := by
  induction as generalizing buf with
  | nil => exact ⟨buf, rfl, hs⟩
  | cons a as ih =>
    obtain ⟨hvalid, hother, id, d, hid, hd, hlive, hpartner⟩ := has a List.mem_cons_self
    have hrest : Addressed db₀ t partnerId as := fun b hb => has b (List.mem_cons_of_mem a hb)
    obtain ⟨hcolumns, hpaid⟩ := hdocs _ _ _ hd
    have hpos := hvalid.1
    have hmore : 0 ≤ allocatedTo t.kind id as := allocatedTo_nonneg hrest.valid
    have hsum : allocatedTo t.kind id (a :: as) = a.amount + allocatedTo t.kind id as := by
      rw [allocatedTo_cons, if_pos (show a.idOf t.kind = some id from hid)]
    have hle : allocatedTo t.kind id (a :: as) ≤ d.total - d.amountPaid := by
      have hafford' := (hafford id d ⟨a, List.mem_cons_self, hid⟩ hd).2
      rwa [zero_add] at hafford'
    have htotal := hcolumns.2.2.2.1
    simp only [Money.Storable] at htotal
    -- the document has been paid what the remaining allocations give to it
    have hd' : Db.document (db.putAll buf) t.kind id =
        some (applyPaid (allocatedTo t.kind id (a :: as)) d) := by
      rw [hs.document, hd]
      rfl
    have hexact : Money.subtract (d.amountPaid + allocatedTo t.kind id (a :: as)) a.amount =
        d.amountPaid + allocatedTo t.kind id (a :: as) - a.amount :=
      Money.subtract_eq (by simp only [Money.Storable]; omega)
    have henough : Money.isNegative (Money.subtract
        (d.amountPaid + allocatedTo t.kind id (a :: as)) a.amount) = false := by
      rw [hexact, Money.isNegative, decide_eq_false_iff_not]
      omega
    have hfits : (applyPaid (-a.amount) (applyPaid (allocatedTo t.kind id (a :: as)) d)).Valid := by
      rw [applyPaid_applyPaid]
      exact valid_applyPaid hcolumns (by omega) (by omega)
    have hstep := evalWith_unwindInTx hid hd' hlive henough hfits
    rw [Prog.forEach, Prog.evalWith_bind hstep]
    refine ih hrest (hafford.tail hvalid) ?_
    rw [Store.putAll_append, Store.putAll_cons, Store.putAll_nil]
    refine (hs.put hd (-a.amount)).congr ?_
    funext id'
    by_cases hne : id' = id
    · subst hne
      rw [Function.update_self]
      omega
    · rw [Function.update_of_ne hne, allocatedTo_cons,
        if_neg fun h => hne (Option.some.inj (h.symm.trans hid)), zero_add]

/-! ## A payment -/

/-- **Drafted, settled and taken back**: the check of the draft, and the one of the posting in any
order of the allocations, both ask whether every document is posted and has the sum of its allocations
outstanding. What is settled has been paid that sum, and can be taken back in any order. -/
theorem allocations_agree {direction : PaymentDirection} (hdocs : DocumentsHold db)
    (has : Addressed db direction.target partnerId as) :
    ((∃ total, ((checkAllocations direction.target partnerId (fun _ => Money.zero) Money.zero
        as).alone db).1 = .ok total) ↔ Affordable db direction.target (fun _ => 0) as) ∧
    ∀ as', as'.Perm as →
      (((Prog.forEach as' (settleInTx direction.target partnerId)).within db).1 = .ok () ↔
        Affordable db direction.target (fun _ => 0) as) ∧
      (Affordable db direction.target (fun _ => 0) as →
        (∀ id, Db.document
            ((Prog.forEach as' (settleInTx direction.target partnerId)).within db).2
              direction.target.kind id =
          (Db.document db direction.target.kind id).map
            (applyPaid (allocatedTo direction.target.kind id as))) ∧
        ∀ as'', as''.Perm as →
          ((Prog.forEach as'' (unwindInTx direction.target)).within
            ((Prog.forEach as' (settleInTx direction.target partnerId)).within db).2).1 = .ok () ∧
          ∀ k, ((Prog.forEach as'' (unwindInTx direction.target)).within
            ((Prog.forEach as' (settleInTx direction.target partnerId)).within db).2).2.row k =
              db.row k) := by
  have hzero : ∀ _ : Uuid, (0 : ℤ) ≤ 0 := fun _ => le_rfl
  constructor
  · rcases checkAllocations_iff hdocs has hzero with ⟨⟨total, hok⟩, hafford⟩ | ⟨⟨e, herror⟩, hnot⟩
    · exact ⟨fun _ => hafford, fun _ => ⟨total, congrArg Prod.fst hok⟩⟩
    · refine ⟨?_, fun h => absurd h hnot⟩
      rintro ⟨total, hok⟩
      have hfails : ((checkAllocations direction.target partnerId (fun _ => Money.zero) Money.zero
        as).alone db).1 = .error e := congrArg Prod.fst herror
      rw [hok] at hfails
      cases hfails
  · intro as' hperm
    rw [← affordable_perm hperm]
    have hstart : PaidMore direction.target.kind db (fun _ => 0) (db.putAll []) := .refl _ db
    rcases settle_iff hdocs (has.perm hperm) hzero hstart with
      ⟨hafford, buf', hok, hmore⟩ | ⟨hnot, e, buf', herror⟩
    · have hpaid : PaidMore direction.target.kind db
          (fun id => allocatedTo direction.target.kind id as) (db.putAll buf') := by
        refine hmore.congr (funext fun id => ?_)
        rw [zero_add, allocatedTo_perm hperm]
      rw [Prog.within, hok]
      refine ⟨⟨fun _ => hafford, fun _ => rfl⟩, fun _ => ⟨hpaid.document, fun as'' hperm' => ?_⟩⟩
      have hafford' := (affordable_perm (hperm'.trans hperm.symm)).mpr hafford
      have hsettled : PaidMore direction.target.kind db
          (fun id => allocatedTo direction.target.kind id as'') ((db.putAll buf').putAll []) :=
        hpaid.congr (funext fun id => (allocatedTo_perm hperm').symm)
      obtain ⟨buf'', hok', hnone⟩ := unwind_settled hdocs (has.perm hperm') hafford' hsettled
      rw [Prog.within, hok']
      exact ⟨rfl, fun k => hnone.row_eq (fun _ => rfl) k⟩
    · rw [Prog.within, herror]
      refine ⟨⟨fun h => ?_, fun h => absurd h hnot⟩, fun h => absurd h hnot⟩
      cases h

end Loops

namespace Sample

/-- A posted invoice of a hundred rupiah. -/
def hundred : Document where
  number := some 1
  ref := some "INV-2026-000001"
  fiscalYear := some 2026
  partnerId := 10
  vendorInvoiceNo := none
  date := UtcDay.firstOfMonth 2026 0
  dueDate := none
  description := none
  status := .posted
  subtotal := 100 * 10 ^ 4
  taxTotal := 0
  withholdingTotal := 0
  total := 100 * 10 ^ 4
  amountPaid := 0
  journalEntryId := some 50
  createdBy := 7
  postedBy := some 7
  postedAt := some 1
  deletedAt := none
  deletedBy := none

/-- The store that holds the invoice. -/
def owed : Db := Store.empty.put (.document .salesInvoice 20) hundred

def allocate (amount : ℤ) : PaymentAllocation := ⟨some 20, none, amount⟩

theorem document_owed {kind : DocumentKind} {id : Uuid} {d : Document}
    (h : Db.document owed kind id = some d) : d = hundred := by
  rw [owed, document_put] at h
  split at h
  · exact (Option.some.inj h).symm
  · cases h

end Sample

/-- Two allocations to one invoice, settled in the other order. -/
theorem allocations_agree_twice :
    ((Prog.forEach [Sample.allocate (40 * 10 ^ 4), Sample.allocate (60 * 10 ^ 4)]
      (settleInTx PaymentDirection.receipt.target 10)).within Sample.owed).1 = .ok () := by
  have hdocs : DocumentsHold Sample.owed := by
    intro kind id d hd
    rw [Sample.document_owed hd]
    decide
  have haddressed : Addressed Sample.owed PaymentDirection.receipt.target 10
      [Sample.allocate (60 * 10 ^ 4), Sample.allocate (40 * 10 ^ 4)] := by
    have hdoc : Db.document Sample.owed .salesInvoice 20 = some Sample.hundred := by
      rw [Sample.owed, document_put, if_pos rfl]
    intro a ha
    rcases List.mem_pair.mp ha with rfl | rfl
    · exact ⟨by decide, rfl, 20, Sample.hundred, rfl, hdoc, rfl, rfl⟩
    · exact ⟨by decide, rfl, 20, Sample.hundred, rfl, hdoc, rfl, rfl⟩
  refine (((allocations_agree hdocs haddressed).2 _ (.swap _ _ _)).1).mpr ?_
  rintro id d ⟨a, ha, hid⟩ hd
  rw [Sample.document_owed hd]
  obtain rfl : id = 20 := by
    rcases List.mem_pair.mp ha with rfl | rfl <;> exact (Option.some.inj hid).symm
  decide

end AccountingApi
