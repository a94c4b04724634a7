import AccountingApi.Reporting.Aging
import AccountingApi.Statements

/-!
# The aging report adds up

One pass over the open documents lists each of them once, under its partner and in one bucket, and its
sums by partner and bucket, by bucket, and in total are those of the documents listed. The days a
document is overdue are counted from its due date as `Date.UTC` reads it, which takes the years from 0
to 99 for years of the twentieth century.

## Main definitions

* `Aging.AgesTo`: what a report says of a list of documents
* `Aging.ReportsOpen`: a report of the documents that were open on a day

## Main results

* `perm_flatMap_filter`: a list, part by part
* `Aging.gathers_foldl`: the sums of the pass
* `Aging.mem_openDocuments`, `Aging.answers_query`: the documents of the query, and their order
* `Aging.reportsOpen_iff`: which reports put every document into its bucket
* `Aging.aging_reportsOpen`: the report of a day, where no listed document was due in a year of two digits
-/

namespace AccountingApi

open ReadCommitted

/-! ## Parts of a list -/

section Parts

variable {α κ : Type} [DecidableEq κ]

/-- A list is the parts of it under the keys, if these are distinct and complete. -/
theorem perm_flatMap_filter (key : α → κ) {keys : List κ} {l : List α} (hkeys : keys.Nodup)
    (hall : ∀ a ∈ l, key a ∈ keys) :
    (keys.flatMap fun k => l.filter fun a => key a = k).Perm l := by
  induction keys generalizing l with
  | nil =>
    obtain rfl : l = [] := List.eq_nil_iff_forall_not_mem.mpr fun a ha => by cases hall a ha
    rfl
  | cons k keys ih =>
    obtain ⟨hk, hkeys⟩ := List.nodup_cons.mp hkeys
    have hrest := ih (l := l.filter fun a => !decide (key a = k)) hkeys fun a ha => by
      obtain ⟨ha, hne⟩ := List.mem_filter.mp ha
      exact (List.mem_cons.mp (hall a ha)).resolve_left (by simpa using hne)
    -- the parts under the other keys are those of the rest
    have hparts : (keys.flatMap fun k' => l.filter fun a => key a = k') =
        keys.flatMap fun k' => (l.filter fun a => !decide (key a = k)).filter
          fun a => key a = k' := by
      refine List.flatMap_congr fun k' hk' => ?_
      rw [List.filter_filter]
      refine List.filter_congr fun a _ => ?_
      by_cases ha : key a = k'
      · have hne : key a ≠ k := fun he => hk (he ▸ ha ▸ hk')
        simp [ha, ha ▸ hne]
      · simp [ha]
    rw [List.flatMap_cons, hparts]
    exact (hrest.append_left _).trans (List.filter_append_perm _ l)

theorem sum_filter_le {f : α → ℤ} {l : List α} (p : α → Bool) (h : ∀ a ∈ l, 0 ≤ f a) :
    ((l.filter p).map f).sum ≤ (l.map f).sum := by
  induction l with
  | nil => exact le_rfl
  | cons a l ih =>
    obtain ⟨ha, h⟩ := List.forall_mem_cons.mp h
    have hrest := ih h
    rw [List.filter_cons, List.map_cons, List.sum_cons]
    split
    · rw [List.map_cons, List.sum_cons]
      omega
    · omega

end Parts

namespace Aging

/-! ## What a report says -/

/-- What a document has outstanding. -/
def outstanding (r : DocRow) : ℤ := r.total - r.paidAsOf

/-- The document of the report, in a bucket. -/
def aged (bucket : DocRow → Bucket) (r : DocRow) : AgedDocument :=
  ⟨r.ref, r.date, r.dueDate, r.total, r.paidAsOf, outstanding r, bucket r⟩

/-- The outstanding amounts in a bucket. -/
def sumIn (b : Bucket) (ds : List AgedDocument) : ℤ :=
  ((ds.filter fun d => d.bucket = b).map (·.outstanding)).sum

/-- The report lists the documents once each, under their partners and in their buckets, and its sums
by partner and bucket, by bucket, and in total are those of what it lists. -/
structure AgesTo (bucket : DocRow → Bucket) (rows : List DocRow) (report : AgingReport) : Prop where
  partners : (report.partners.map (·.partnerId)).Nodup
  named : ∀ g ∈ report.partners, ∃ r ∈ rows,
    r.partnerId = g.partnerId ∧ r.partnerName = g.partnerName
  documents : ∀ g ∈ report.partners,
    g.documents = (rows.filter fun r => r.partnerId = g.partnerId).map (aged bucket)
  once : (report.partners.flatMap (·.documents)).Perm (rows.map (aged bucket))
  sums : ∀ g ∈ report.partners, ∀ b, g.buckets b = sumIn b g.documents
  byBucket : ∀ b, report.totalsByBucket b = (report.partners.map (·.buckets b)).sum
  listed : ((report.partners.flatMap (·.documents)).map (·.outstanding)).sum =
    (report.partners.map fun g => (buckets.map g.buckets).sum).sum
  total : report.totalOutstanding =
    ((report.partners.flatMap (·.documents)).map (·.outstanding)).sum

/-- The days a document is overdue on a day: those since its due date, or its date if it has none. -/
def overdue (asOf : UtcDay) (r : DocRow) : ℤ := asOf.epochDay - (r.dueDate.getD r.date).epochDay

/-- The documents that were open on the day of a moment, in an order the query may answer with. -/
def Answers (collate : String → String → Bool) (db : Db) (kind : AgingKind) (day : UtcDay)
    (rows : List DocRow) : Prop :=
  rows.Perm (openDocuments db kind.documents day) ∧ rows.Pairwise (Before collate)

/-- The report lists the documents that were open on the day, each once and as many of the first ones as
it may, by the days they were overdue. -/
def ReportsOpen (collate : String → String → Bool) (db : Db) (kind : AgingKind) (asOf : UtcDay)
    (maxDocs : ℕ) (report : AgingReport) : Prop :=
  ∃ rows, Answers collate db kind asOf rows ∧ (rows.map (·.id)).Nodup ∧
    report.truncated = decide (maxDocs < rows.length) ∧
    AgesTo (fun r => bucketOf (overdue asOf r)) (rows.take maxDocs) report

/-! ## The pass over the documents -/

/-- What the pass has gathered from a list of documents. -/
structure Gathers (bucket : DocRow → Bucket) (rows : List DocRow) (acc : Accumulator) : Prop where
  partners : (acc.byPartner.map (·.partnerId)).Nodup
  named : ∀ g ∈ acc.byPartner, ∃ r ∈ rows,
    r.partnerId = g.partnerId ∧ r.partnerName = g.partnerName
  complete : ∀ r ∈ rows, r.partnerId ∈ acc.byPartner.map (·.partnerId)
  documents : ∀ g ∈ acc.byPartner,
    g.documents = (rows.filter fun r => r.partnerId = g.partnerId).map (aged bucket)
  sums : ∀ g ∈ acc.byPartner, ∀ b, g.buckets b = sumIn b g.documents
  byBucket : ∀ b, acc.grand b = sumIn b (rows.map (aged bucket))
  total : acc.grandTotal = (rows.map outstanding).sum

/-- The bucket the pass puts a document into. -/
def bucketOn (day : UtcDay) (r : DocRow) : Bucket :=
  bucketOf (daysPastDue day (r.dueDate.getD r.date))

section Pass

variable {day : UtcDay} {bucket : DocRow → Bucket} {rows : List DocRow} {r : DocRow}
  {acc : Accumulator} {b : Bucket} {ds : List AgedDocument} {d : AgedDocument}
  {gs : List PartnerAging}

theorem sumIn_append : sumIn b (ds ++ [d]) = sumIn b ds + if d.bucket = b then d.outstanding else 0 := by
  rw [sumIn, sumIn, List.filter_append, List.map_append, List.sum_append]
  by_cases h : d.bucket = b <;> simp [h]

theorem sumIn_nonneg (h : ∀ r ∈ rows, 0 ≤ outstanding r) (p : DocRow → Bool) :
    0 ≤ sumIn b ((rows.filter p).map (aged bucket)) := by
  refine List.sum_nonneg ?_
  simp only [List.mem_map, List.mem_filter]
  rintro _ ⟨_, ⟨⟨r, ⟨hr, -⟩, rfl⟩, -⟩, rfl⟩
  exact h r hr

/-- What the documents of a partner have in a bucket is no more than all of them have. -/
theorem sumIn_le (h : ∀ r ∈ rows, 0 ≤ outstanding r) (p : DocRow → Bool) :
    sumIn b ((rows.filter p).map (aged bucket)) ≤ (rows.map outstanding).sum := by
  have hfilter : sumIn b ((rows.filter p).map (aged bucket)) =
      (((rows.filter p).filter fun r => bucket r = b).map outstanding).sum := by
    rw [sumIn, List.filter_map, List.map_map]
    rfl
  rw [hfilter]
  exact (sum_filter_le _ fun r hr => h r (List.mem_of_mem_filter hr)).trans (sum_filter_le _ h)

/-- An amount is added to the sum of one bucket exactly, if the sum has not too many digits. -/
theorem addTo_eq {sums : Bucket → ℤ} {c : Bucket} {amount : ℤ} (hnonneg : 0 ≤ sums c + amount)
    (hlt : sums c + amount < 10 ^ 20) :
    addTo sums c amount b = sums b + if c = b then amount else 0 := by
  by_cases h : c = b
  · subst h
    rw [addTo, Function.update_self, if_pos rfl,
      Money.add_eq (by simp only [Money.Storable]; omega)]
  · rw [addTo, Function.update_of_ne (Ne.symm h), if_neg h, add_zero]

/-- The documents of the partners once one has been added. -/
theorem mem_setPartner {g' : PartnerAging} (h : g' ∈ setPartner r d gs) :
    (∃ g ∈ gs, g.partnerId ≠ r.partnerId ∧ g' = g) ∨
      (∃ g ∈ gs, g.partnerId = r.partnerId ∧ g' = addDocument d g) ∨
      (∀ g ∈ gs, g.partnerId ≠ r.partnerId) ∧
        g' = addDocument d ⟨r.partnerId, r.partnerName, [], fun _ => Money.zero⟩ := by
  unfold setPartner at h
  split at h
  · obtain ⟨g, hg, rfl⟩ := List.mem_map.mp h
    split
    · rename_i hid
      exact .inr (.inl ⟨g, hg, hid, rfl⟩)
    · rename_i hid
      exact .inl ⟨g, hg, hid, rfl⟩
  · rename_i hany
    have hnone : ∀ g ∈ gs, g.partnerId ≠ r.partnerId := fun g hg hid =>
      hany (List.any_eq_true.mpr ⟨g, hg, decide_eq_true hid⟩)
    rcases List.mem_append.mp h with hg | hg
    · exact .inl ⟨g', hg, hnone g' hg, rfl⟩
    · exact .inr (.inr ⟨hnone, List.mem_singleton.mp hg⟩)

/-- The partners once a document has been added. -/
theorem map_setPartner : (setPartner r d gs).map (·.partnerId) =
    if r.partnerId ∈ gs.map (·.partnerId) then gs.map (·.partnerId)
    else gs.map (·.partnerId) ++ [r.partnerId] := by
  have hany : (gs.any fun g => decide (g.partnerId = r.partnerId)) = true ↔
      r.partnerId ∈ gs.map (·.partnerId) := by
    simp [List.any_eq_true]
  unfold setPartner
  by_cases h : r.partnerId ∈ gs.map (·.partnerId)
  · rw [if_pos h, if_pos (hany.mpr h), List.map_map]
    refine List.map_congr_left fun g _ => ?_
    rw [Function.comp_apply]
    split <;> rfl
  · rw [if_neg h, if_neg fun ha => h (hany.mp ha), List.map_append]
    rfl

/-- A document with something outstanding is added to the sums. -/
theorem addRow_eq (hopen : r.paidAsOf < r.total) (hlt : outstanding r < 10 ^ 20) :
    addRow day acc r = ⟨setPartner r (aged (bucketOn day) r) acc.byPartner,
      addTo acc.grand (bucketOn day r) (outstanding r),
      Money.add acc.grandTotal (outstanding r)⟩ := by
  unfold outstanding at hlt
  have hexact : Money.subtract r.total r.paidAsOf = outstanding r :=
    Money.subtract_eq (by simp only [Money.Storable]; omega)
  have hpos : 0 < outstanding r := by unfold outstanding; omega
  have hskip : (Money.isZero (outstanding r) || Money.isNegative (outstanding r)) = false := by
    rw [Bool.or_eq_false_iff, Money.isZero, Money.isNegative, decide_eq_false_iff_not,
      decide_eq_false_iff_not]
    omega
  rw [addRow, hexact, if_neg (by rw [hskip]; exact Bool.false_ne_true)]
  rfl

/-- **One document more**: the sums of the pass are those of one document more. -/
theorem Gathers.addRow (h : Gathers (bucketOn day) rows acc)
    (hopen : ∀ r' ∈ rows ++ [r], r'.paidAsOf < r'.total)
    (hsum : ((rows ++ [r]).map outstanding).sum < 10 ^ 20) :
    Gathers (bucketOn day) (rows ++ [r]) (addRow day acc r) := by
  have hpos : ∀ r' ∈ rows, 0 ≤ outstanding r' := fun r' hr' => by
    have hlt := hopen r' (List.mem_append_left _ hr')
    unfold outstanding
    omega
  have hr := hopen r (List.mem_append_right _ (List.mem_singleton_self r))
  have hrpos : 0 < outstanding r := by unfold outstanding; omega
  have hrows : 0 ≤ (rows.map outstanding).sum := List.sum_nonneg (List.forall_mem_map.mpr hpos)
  rw [List.map_append, List.sum_append, List.map_singleton, List.sum_singleton] at hsum
  rw [addRow_eq hr (by omega)]
  -- the amount is added to the sum of the document's bucket, and to no other one
  have hadd : ∀ {sums : Bucket → ℤ} {ds : List AgedDocument},
      (∀ b, sums b = sumIn b ds) → (∀ b, 0 ≤ sumIn b ds ∧ sumIn b ds ≤ (rows.map outstanding).sum) →
      ∀ b, addTo sums (bucketOn day r) (outstanding r) b =
        sumIn b (ds ++ [aged (bucketOn day) r]) := by
    intro sums ds hsums hbounds b
    have hbound := hbounds (bucketOn day r)
    rw [addTo_eq (by rw [hsums]; omega) (by rw [hsums]; omega), hsums, sumIn_append]
    rfl
  refine ⟨?_, ?_, ?_, ?_, ?_, ?_, ?_⟩
  · rw [map_setPartner]
    split
    · exact h.partners
    · rename_i hnew
      exact List.nodup_append.mpr ⟨h.partners, List.nodup_singleton _, fun a ha b hb he =>
        hnew (List.mem_singleton.mp hb ▸ he ▸ ha)⟩
  · intro g' hg'
    rcases mem_setPartner hg' with ⟨g, hg, -, rfl⟩ | ⟨g, hg, -, rfl⟩ | ⟨-, rfl⟩
    · obtain ⟨r', hr', hsame⟩ := h.named g' hg
      exact ⟨r', List.mem_append_left _ hr', hsame⟩
    · obtain ⟨r', hr', hsame⟩ := h.named g hg
      exact ⟨r', List.mem_append_left _ hr', hsame⟩
    · exact ⟨r, List.mem_append_right _ (List.mem_singleton_self r), rfl, rfl⟩
  · intro r' hr'
    rw [map_setPartner]
    rcases List.mem_append.mp hr' with hr' | hr'
    · split
      · exact h.complete r' hr'
      · exact List.mem_append_left _ (h.complete r' hr')
    · obtain rfl := List.mem_singleton.mp hr'
      split
      · assumption
      · exact List.mem_append_right _ (List.mem_singleton_self _)
  · intro g' hg'
    rw [List.filter_append, List.map_append]
    rcases mem_setPartner hg' with ⟨g, hg, hne, rfl⟩ | ⟨g, hg, hid, rfl⟩ | ⟨hnone, rfl⟩
    · rw [h.documents g' hg, List.filter_cons_of_neg (by simpa using hne.symm)]
      simp
    · have hlast : ([r].filter fun r' => decide (r'.partnerId = g.partnerId)) = [r] :=
        List.filter_cons_of_pos (decide_eq_true hid.symm)
      change g.documents ++ [_] = (rows.filter fun r' => r'.partnerId = g.partnerId).map _ ++
        ([r].filter fun r' => r'.partnerId = g.partnerId).map _
      rw [h.documents g hg, hlast]
      rfl
    · have hempty : (rows.filter fun r' => r'.partnerId = r.partnerId) = [] := by
        refine List.filter_eq_nil_iff.mpr fun r' hr' hid => ?_
        obtain ⟨g, hg, hgid⟩ := List.mem_map.mp (h.complete r' hr')
        exact hnone g hg (hgid.trans (of_decide_eq_true hid))
      change [] ++ [_] = _
      rw [show (addDocument (aged (bucketOn day) r)
        ⟨r.partnerId, r.partnerName, [], fun _ => Money.zero⟩).partnerId = r.partnerId from rfl,
        hempty, List.filter_cons_of_pos (by simp)]
      rfl
  · intro g' hg' b
    rcases mem_setPartner hg' with ⟨g, hg, -, rfl⟩ | ⟨g, hg, -, rfl⟩ | ⟨-, rfl⟩
    · exact h.sums g' hg b
    · refine hadd (h.sums g hg) (fun b => ?_) b
      rw [h.documents g hg]
      exact ⟨sumIn_nonneg hpos _, sumIn_le hpos _⟩
    · have hnone : ∀ b, (fun _ : Bucket => Money.zero) b = sumIn b [] := fun _ => rfl
      exact hadd hnone (fun _ => ⟨le_rfl, hrows⟩) b
  · intro b
    rw [List.map_append]
    refine hadd h.byBucket (fun b => ?_) b
    have hall : rows = rows.filter fun _ => true := by rw [List.filter_true]
    rw [hall]
    exact ⟨sumIn_nonneg hpos _, by simpa using sumIn_le hpos (fun _ => true)⟩
  · change Money.add acc.grandTotal (outstanding r) = _
    rw [h.total, Money.add_eq (by simp only [Money.Storable]; omega), List.map_append,
      List.sum_append, List.map_singleton, List.sum_singleton]

/-- **The sums of the pass** are those of the documents. -/
theorem gathers_foldl (day : UtcDay) (hopen : ∀ r ∈ rows, r.paidAsOf < r.total)
    (hsum : (rows.map outstanding).sum < 10 ^ 20) :
    Gathers (bucketOn day) rows (rows.foldl (Aging.addRow day) start) := by
  induction rows using List.reverseRecOn with
  | nil => exact ⟨List.nodup_nil, by simp [start], by simp, by simp [start], by simp [start],
      fun _ => rfl, rfl⟩
  | append_singleton rows r ih =>
    have hr := hopen r (List.mem_append_right _ (List.mem_singleton_self r))
    have hopen' : ∀ r ∈ rows, r.paidAsOf < r.total := fun r' hr' =>
      hopen r' (List.mem_append_left _ hr')
    have hsum' : (rows.map outstanding).sum < 10 ^ 20 := by
      rw [List.map_append, List.sum_append, List.map_singleton, List.sum_singleton] at hsum
      unfold outstanding at *
      omega
    rw [List.foldl_append]
    exact (ih hopen' hsum').addRow hopen hsum

end Pass

/-! ## The report -/

section Report

variable {day : UtcDay} {bucket : DocRow → Bucket} {rows : List DocRow} {r : DocRow}
  {acc : Accumulator} {ds : List AgedDocument}

/-- Every document is in one of the buckets. -/
theorem sum_sumIn (ds : List AgedDocument) :
    (buckets.map fun b => sumIn b ds).sum = (ds.map (·.outstanding)).sum := by
  have hparts : (buckets.flatMap fun b => ds.filter fun d => d.bucket = b).Perm ds :=
    perm_flatMap_filter _ (by decide) fun d _ => by cases d.bucket <;> decide
  rw [← (hparts.map _).sum_eq, List.map_flatMap, List.flatMap_def, List.sum_flatten, List.map_map]
  rfl

/-- **What the sums of the pass say** about the documents. -/
theorem Gathers.agesTo {kind : AgingKind} {asOf : UtcDay} {truncated : Bool}
    (h : Gathers bucket rows acc) :
    AgesTo bucket rows ⟨kind, asOf, truncated, acc.byPartner, acc.grand, acc.grandTotal⟩ := by
  have honce : (acc.byPartner.flatMap (·.documents)).Perm (rows.map (aged bucket)) := by
    have hparts := perm_flatMap_filter (fun r : DocRow => r.partnerId) h.partners h.complete
    have hdocs : acc.byPartner.flatMap (·.documents) =
        ((acc.byPartner.map (·.partnerId)).flatMap fun id =>
          rows.filter fun r => r.partnerId = id).map (aged bucket) := by
      rw [List.flatMap_map, List.map_flatMap]
      exact List.flatMap_congr h.documents
    rw [hdocs]
    exact hparts.map _
  have hlisted : ∀ f : AgedDocument → ℤ, ((acc.byPartner.flatMap (·.documents)).map f).sum =
      (acc.byPartner.map fun g => (g.documents.map f).sum).sum := by
    intro f
    rw [List.map_flatMap, List.flatMap_def, List.sum_flatten, List.map_map]
    rfl
  refine ⟨h.partners, h.named, h.documents, honce, h.sums, fun b => ?_, ?_, ?_⟩
  · -- the sum of a bucket, partner by partner
    have hfilter : ∀ ds : List AgedDocument, sumIn b ds =
        (ds.map fun d => if d.bucket = b then d.outstanding else 0).sum := by
      intro ds
      induction ds with
      | nil => rfl
      | cons d ds ih =>
        rw [sumIn] at ih
        rw [sumIn, List.filter_cons, List.map_cons, List.sum_cons, ← ih]
        by_cases hd : d.bucket = b <;> simp [hd]
    change acc.grand b = (acc.byPartner.map fun g => g.buckets b).sum
    rw [h.byBucket, hfilter, ← (honce.map _).sum_eq, hlisted]
    exact congrArg List.sum (List.map_congr_left fun g hg => by rw [h.sums g hg, hfilter])
  · change ((acc.byPartner.flatMap (·.documents)).map (·.outstanding)).sum =
      (acc.byPartner.map fun g => (buckets.map g.buckets).sum).sum
    rw [hlisted]
    refine congrArg List.sum (List.map_congr_left fun g hg => ?_)
    rw [← sum_sumIn]
    exact congrArg List.sum (List.map_congr_left fun b _ => (h.sums g hg b).symm)
  · change acc.grandTotal = ((acc.byPartner.flatMap (·.documents)).map (·.outstanding)).sum
    rw [h.total, (honce.map _).sum_eq, List.map_map]
    rfl

/-- The buckets of a report are those of the documents it lists. -/
theorem AgesTo.congr {bucket' : DocRow → Bucket} {report : AgingReport}
    (h : AgesTo bucket rows report) (heq : ∀ r ∈ rows, bucket r = bucket' r) :
    AgesTo bucket' rows report := by
  have haged : ∀ r ∈ rows, aged bucket r = aged bucket' r := fun r hr => by
    rw [aged, aged, heq r hr]
  obtain ⟨hpartners, hnamed, hdocs, honce, hsums, hbucket, hlisted, htotal⟩ := h
  refine ⟨hpartners, hnamed, fun g hg => (hdocs g hg).trans ?_, ?_, hsums, hbucket, hlisted, htotal⟩
  · exact List.map_congr_left fun r hr => haged r (List.mem_of_mem_filter hr)
  · rwa [List.map_congr_left haged] at honce

/-- The buckets of what a report lists can be read off the dates it shows. -/
theorem AgesTo.bucket_eq {rows' : List DocRow} {report : AgingReport} (bucketAt : UtcDay → Bucket)
    (h : AgesTo bucket rows report)
    (h' : AgesTo (fun r => bucketAt (r.dueDate.getD r.date)) rows' report) {r : DocRow}
    (hr : r ∈ rows) : bucket r = bucketAt (r.dueDate.getD r.date) := by
  have hmem : aged bucket r ∈ rows'.map (aged fun r => bucketAt (r.dueDate.getD r.date)) :=
    (h.once.symm.trans h'.once).subset (List.mem_map_of_mem hr)
  obtain ⟨r', -, heq⟩ := List.mem_map.mp hmem
  simp only [aged, AgedDocument.mk.injEq] at heq
  obtain ⟨-, hdate, hdue, -, -, -, hbucket⟩ := heq
  rw [← hbucket, hdate, hdue]

/-- The report, from the first documents of the query. -/
theorem report_eq (kind : AgingKind) (asOf : Instant) (maxDocs : ℕ) (all : List DocRow) :
    report kind asOf maxDocs (all.take (maxDocs + 1)) =
      ⟨kind, asOf.day, decide (maxDocs < all.length),
        ((all.take maxDocs).foldl (addRow (truncateToUtcDay asOf)) start).byPartner,
        ((all.take maxDocs).foldl (addRow (truncateToUtcDay asOf)) start).grand,
        ((all.take maxDocs).foldl (addRow (truncateToUtcDay asOf)) start).grandTotal⟩ := by
  have hlength : (maxDocs < (all.take (maxDocs + 1)).length) ↔ maxDocs < all.length := by
    rw [List.length_take]
    omega
  have hincluded : (if decide (maxDocs < (all.take (maxDocs + 1)).length) = true then
      (all.take (maxDocs + 1)).take maxDocs else all.take (maxDocs + 1)) = all.take maxDocs := by
    by_cases h : maxDocs < all.length
    · rw [if_pos (decide_eq_true (hlength.mpr h)), List.take_take, Nat.min_eq_left (Nat.le_succ _)]
    · rw [if_neg fun hd => h (hlength.mp (of_decide_eq_true hd)), List.take_of_length_le (by omega),
        List.take_of_length_le (by omega)]
  rw [report, hincluded, decide_eq_decide.mpr hlength]

end Report

/-! ## The documents of the query -/

section Query

variable {db : Db} {kind : DocumentKind} {day : UtcDay} {r : DocRow}

/-- **The documents of the query** are the posted ones dated up to the day that were not fully paid by
it. -/
theorem mem_openDocuments : r ∈ openDocuments db kind day ↔
    ∃ d partner, Db.document db kind r.id = some d ∧ d.status = .posted ∧ d.deletedAt = none ∧
      d.date ≤ day ∧ db.partner d.partnerId = some partner ∧ paidAsOf db kind day r.id < d.total ∧
      r = ⟨r.id, d.ref, d.partnerId, partner.name, d.date, d.dueDate, d.total,
        paidAsOf db kind day r.id⟩ := by
  rw [openDocuments, Store.mem_collect]
  constructor
  · rintro ⟨k, d, hd, hk⟩
    cases k <;> simp only [Option.ite_none_right_eq_some, reduceCtorEq] at hk
    obtain ⟨⟨rfl, hposted, hlive, hdate⟩, hrow⟩ := hk
    obtain ⟨hrow, hopen⟩ := Option.filter_eq_some_iff.mp hrow
    obtain ⟨partner, hpartner, rfl⟩ := Option.map_eq_some_iff.mp hrow
    exact ⟨d, partner, (Db.document_eq_row _ _ _).trans hd, hposted, hlive, hdate, hpartner,
      of_decide_eq_true hopen, rfl⟩
  · rintro ⟨d, partner, hd, hposted, hlive, hdate, hpartner, hopen, heq⟩
    refine ⟨.document kind r.id, d, (Db.document_eq_row _ _ _).symm.trans hd, ?_⟩
    refine (if_pos ⟨rfl, hposted, hlive, hdate⟩).trans ?_
    rw [docRow, hpartner, Option.map_some, ← heq, Option.filter_some, if_pos]
    rw [heq]
    exact decide_eq_true hopen

/-- Every document of the query is one row of it. -/
theorem nodup_openDocuments : ((openDocuments db kind day).map (·.id)).Nodup := by
  refine Store.nodup_map_collect fun {k v k' v' b b'} hk hk' hid => ?_
  cases k <;> simp only [Option.ite_none_right_eq_some, reduceCtorEq] at hk
  cases k' <;> simp only [Option.ite_none_right_eq_some, reduceCtorEq] at hk'
  obtain ⟨⟨rfl, -⟩, hrow⟩ := hk
  obtain ⟨⟨rfl, -⟩, hrow'⟩ := hk'
  obtain ⟨_, -, rfl⟩ := Option.map_eq_some_iff.mp (Option.filter_eq_some_iff.mp hrow).1
  obtain ⟨_, -, rfl⟩ := Option.map_eq_some_iff.mp (Option.filter_eq_some_iff.mp hrow').1
  exact congrArg (Key.document _) hid

/-- No document was open on a day before all of them. -/
theorem openDocuments_of_lt (h : ∀ id d, Db.document db kind id = some d → d.status = .posted →
    ¬ d.date ≤ day) : openDocuments db kind day = [] := by
  refine List.eq_nil_iff_forall_not_mem.mpr fun r hr => ?_
  obtain ⟨d, -, hd, hposted, -, hdate, -⟩ := mem_openDocuments.mp hr
  exact h r.id d hd hposted hdate

end Query

/-! ## The days overdue -/

section Days

variable {collate : String → String → Bool} {db : Db} {kind : AgingKind} {asOf : Instant}
  {all : List DocRow} {r : DocRow}

/-- The days are counted from the due date itself, unless its year is one of two digits. -/
theorem bucketOn_eq (hday : UtcDay.FullYear asOf.day.year)
    (hdue : UtcDay.FullYear (r.dueDate.getD r.date).year) :
    bucketOn (truncateToUtcDay asOf) r = bucketOf (overdue asOf.day r) := by
  have hdue' : truncateToUtcDay (.midnight (r.dueDate.getD r.date)) = r.dueDate.getD r.date :=
    truncateToUtcDay_eq hdue
  have hdays : daysPastDue (truncateToUtcDay asOf) (r.dueDate.getD r.date) = overdue asOf.day r := by
    rw [daysPastDue, hdue', truncateToUtcDay_eq hday, overdue]
    simp only [Instant.getTime, Instant.midnight]
    omega
  rw [bucketOn, hdays]

/-- No document was open on a day of a year of two digits, or on the day `Date.UTC` takes it for. -/
theorem openDocuments_eq_nil (htwo : ¬ UtcDay.FullYear asOf.day.year)
    (hcentury : ∀ id d, Db.document db kind.documents id = some d → d.status = .posted →
      2000 ≤ d.date.year) :
    openDocuments db kind.documents (truncateToUtcDay asOf) = [] ∧
      openDocuments db kind.documents asOf.day = [] := by
  have hyear := year_truncateToUtcDay asOf
  rw [UtcDay.utcYear, if_pos (not_not.mp htwo)] at hyear
  have hdigits := not_not.mp htwo
  -- both days are before all documents
  refine ⟨openDocuments_of_lt fun id d hd hposted => (UtcDay.le_of_year_lt ?_).2,
    openDocuments_of_lt fun id d hd hposted => (UtcDay.le_of_year_lt ?_).2⟩
  · have hge := hcentury id d hd hposted
    omega
  · have hge := hcentury id d hd hposted
    omega

section Report

variable (hday : UtcDay.FullYear asOf.day.year ∨
  ∀ id d, Db.document db kind.documents id = some d → d.status = .posted → 2000 ≤ d.date.year)
include hday

/-- The documents open on the day of a moment are those on its day as `Date.UTC` reads it. -/
theorem openDocuments_truncate : openDocuments db kind.documents (truncateToUtcDay asOf) =
    openDocuments db kind.documents asOf.day := by
  by_cases hfull : UtcDay.FullYear asOf.day.year
  · rw [truncateToUtcDay_eq hfull]
  · obtain ⟨hnil, hnil'⟩ := openDocuments_eq_nil hfull (hday.resolve_left hfull)
    rw [hnil, hnil']

/-- A document that was open on the day, and due in a year of more than two digits, is put into the
bucket of the days since then. -/
theorem bucketOn_of_fullYear (hr : r ∈ openDocuments db kind.documents (truncateToUtcDay asOf))
    (hdue : UtcDay.FullYear (r.dueDate.getD r.date).year) :
    bucketOn (truncateToUtcDay asOf) r = bucketOf (overdue asOf.day r) := by
  refine bucketOn_eq ?_ hdue
  by_contra htwo
  -- no document was open on a day of a year of two digits
  rw [(openDocuments_eq_nil htwo (hday.resolve_left htwo)).1] at hr
  cases hr

variable (hall : Answers collate db kind (truncateToUtcDay asOf) all)
  (hsum : (all.map outstanding).sum < 10 ^ 20)
include hall hsum

omit hday in
/-- The report is that of the first documents, in the buckets of the pass. -/
theorem agesTo_report (maxDocs : ℕ) : AgesTo (bucketOn (truncateToUtcDay asOf)) (all.take maxDocs)
    (report kind asOf maxDocs (all.take (maxDocs + 1))) := by
  have hopen : ∀ r ∈ all, r.paidAsOf < r.total := by
    intro r hr
    obtain ⟨d, partner, -, -, -, -, -, hlt, heq⟩ := mem_openDocuments.mp (hall.1.subset hr)
    rw [heq]
    exact hlt
  have hpos : ∀ r ∈ all, 0 ≤ outstanding r := fun r hr => by
    have hlt := hopen r hr
    unfold outstanding
    omega
  have htake : ((all.take maxDocs).map outstanding).sum < 10 ^ 20 :=
    lt_of_le_of_lt (((List.take_sublist maxDocs all).map outstanding).sum_le_sum
      (List.forall_mem_map.mpr hpos)) hsum
  rw [report_eq]
  exact (gathers_foldl _ (fun r hr => hopen r (List.mem_of_mem_take hr)) htake).agesTo

/-- A report is right if the documents due in years of two digits are in the right buckets. -/
theorem reportsOpen_of_buckets {maxDocs : ℕ} (hbuckets : ∀ r ∈ all.take maxDocs,
    ¬ UtcDay.FullYear (r.dueDate.getD r.date).year →
      bucketOn (truncateToUtcDay asOf) r = bucketOf (overdue asOf.day r)) :
    ReportsOpen collate db kind asOf.day maxDocs
      (report kind asOf maxDocs (all.take (maxDocs + 1))) := by
  have hperm : all.Perm (openDocuments db kind.documents asOf.day) := by
    rw [← openDocuments_truncate hday]
    exact hall.1
  refine ⟨all, ⟨hperm, hall.2⟩, (hperm.map _).nodup_iff.mpr nodup_openDocuments, ?_,
    (agesTo_report hall hsum maxDocs).congr fun r hr => ?_⟩
  · rw [report_eq]
  · by_cases hdue : UtcDay.FullYear (r.dueDate.getD r.date).year
    · exact bucketOn_of_fullYear hday (hall.1.subset (List.mem_of_mem_take hr)) hdue
    · exact hbuckets r hr hdue

/-- **Which reports are right**: a report lists the documents that were open on the day of the moment,
each of them once and in the bucket of the days since its due date, and adds them up, exactly if every
listed document that was due in a year of two digits is in that bucket when the year is read as
`Date.UTC` reads it. -/
theorem reportsOpen_iff (maxDocs : ℕ) :
    ReportsOpen collate db kind asOf.day maxDocs
        (report kind asOf maxDocs (all.take (maxDocs + 1))) ↔
      ∀ r ∈ all.take maxDocs, ¬ UtcDay.FullYear (r.dueDate.getD r.date).year →
        bucketOn (truncateToUtcDay asOf) r = bucketOf (overdue asOf.day r) := by
  constructor
  · rintro ⟨rows, -, -, -, hages⟩ r hr -
    exact AgesTo.bucket_eq (fun due => bucketOf (asOf.day.epochDay - due.epochDay))
      (agesTo_report hall hsum maxDocs) hages hr
  · exact reportsOpen_of_buckets hday hall hsum

end Report

/-- The query answers with the first documents in its order, if names are collated by a total
preorder. -/
theorem answers_query (htotal : ∀ a b, collate a b = true ∨ collate b a = true)
    (htrans : ∀ a b c, collate a b = true → collate b c = true → collate a c = true)
    (db : Db) (kind : AgingKind) (day : UtcDay) :
    Answers collate db kind day
      ((openDocuments db kind.documents day).insertionSort (Before collate)) := by
  have hrefl : ∀ a, collate a a = true := fun a => (htotal a a).elim id id
  have : IsTrans DocRow (Before collate) := ⟨fun r r' r'' h h' => by
    refine ⟨htrans _ _ _ h.1 h'.1, fun hback => ?_⟩
    have hdate := h.2 (htrans _ _ _ h'.1 hback)
    have hdate' := h'.2 (htrans _ _ _ hback h.1)
    rw [UtcDay.le_iff] at *
    omega⟩
  have : Std.Total (Before collate) := ⟨fun r r' => by
    by_cases h : collate r.partnerName r'.partnerName = true
    · by_cases h' : collate r'.partnerName r.partnerName = true
      · rcases le_total r.date.ord r'.date.ord with hle | hle
        · exact .inl ⟨h, fun _ => hle⟩
        · exact .inr ⟨h', fun _ => hle⟩
      · exact .inl ⟨h, fun hback => absurd hback h'⟩
    · exact .inr ⟨(htotal _ _).resolve_left h, fun hback => absurd hback h⟩⟩
  exact ⟨List.perm_insertionSort _ _, List.pairwise_insertionSort _ _⟩

/-- **The aging report of a day is right**, where neither the day nor the due date of a document that was
open on it is in a year of two digits. -/
theorem aging_reportsOpen (htotal : ∀ a b, collate a b = true ∨ collate b a = true)
    (htrans : ∀ a b c, collate a b = true → collate b c = true → collate a c = true)
    (hday : UtcDay.FullYear asOf.day.year)
    (hsum : ((openDocuments db kind.documents asOf.day).map outstanding).sum < 10 ^ 20)
    (hdue : ∀ r ∈ openDocuments db kind.documents asOf.day,
      UtcDay.FullYear (r.dueDate.getD r.date).year) (maxDocs : ℕ) :
    ReportsOpen collate db kind asOf.day maxDocs (aging collate db kind asOf maxDocs) := by
  have hall := answers_query htotal htrans db kind (truncateToUtcDay asOf)
  have hperm := hall.1.trans (.of_eq (openDocuments_truncate (.inl hday)))
  refine reportsOpen_of_buckets (.inl hday) hall ?_ fun r hr htwo => absurd ?_ htwo
  · rw [(hperm.map _).sum_eq]
    exact hsum
  · exact hdue r (hperm.subset (List.mem_of_mem_take hr))

end Days

namespace Sample

/-- A bill of a hundred rupiah, posted on the first of January 2000. -/
def bill (dueDate : Option UtcDay) : Document where
  number := some 1
  ref := some "BILL-2000-000001"
  fiscalYear := some 2000
  partnerId := 10
  vendorInvoiceNo := none
  date := UtcDay.firstOfMonth 2000 0
  dueDate := dueDate
  description := none
  status := .posted
  subtotal := 100 * 10 ^ 4
  taxTotal := 0
  withholdingTotal := 0
  total := 100 * 10 ^ 4
  amountPaid := 0
  journalEntryId := some 50
  createdBy := 7
  postedBy := some 7
  postedAt := some 1
  deletedAt := none
  deletedBy := none

def bills (dueDate : Option UtcDay) : Db :=
  (Store.empty.put (.partner 10) ⟨"Vendor", false, true, true, none⟩).put
    (.document .purchaseBill 20) (bill dueDate)

/-- The row of the bill. -/
def row (dueDate : Option UtcDay) : DocRow :=
  ⟨20, some "BILL-2000-000001", 10, "Vendor", UtcDay.firstOfMonth 2000 0, dueDate, 100 * 10 ^ 4, 0⟩

/-- The end of January 2000. -/
def endOfJanuary : Instant := .midnight (UtcDay.lastOfMonth 2000 0)

/-- A payment of fifty rupiah for the bill `21`, in the middle of the month. -/
def partPayment : Payment where
  number := some 1
  ref := some "PAY-2000-000001"
  fiscalYear := some 2000
  direction := .disbursement
  partnerId := 10
  date := .dateUtc 2000 0 15
  cashAccountId := 1
  amount := 50 * 10 ^ 4
  description := none
  status := .posted
  journalEntryId := some 51
  createdBy := 7
  postedBy := some 7
  postedAt := some 2
  deletedAt := none
  deletedBy := none
  allocations := [⟨none, some 21, 50 * 10 ^ 4⟩]

/-- Two bills of one vendor, and one of another that is paid in part. -/
def vendors : Db := Store.empty.putAll [
  ⟨.partner 10, ⟨"Alpha", false, true, true, none⟩⟩,
  ⟨.partner 11, ⟨"Beta", false, true, true, none⟩⟩,
  ⟨.document .purchaseBill 20, { bill none with partnerId := 11 }⟩,
  ⟨.document .purchaseBill 21, { bill (some endOfJanuary.day) with
    number := some 2, ref := some "BILL-2000-000002", amountPaid := 50 * 10 ^ 4 }⟩,
  ⟨.document .purchaseBill 22, { bill none with
    number := some 3, ref := some "BILL-2000-000003", partnerId := 11, date := endOfJanuary.day }⟩,
  ⟨.payment 30, partPayment⟩]

/-- Alpha comes before Beta. -/
def alphaFirst (name name' : String) : Bool := name = "Alpha" || name' = "Beta"

def vendorRows : List DocRow := [
  ⟨21, some "BILL-2000-000002", 10, "Alpha", UtcDay.firstOfMonth 2000 0, some endOfJanuary.day,
    100 * 10 ^ 4, 50 * 10 ^ 4⟩,
  ⟨20, some "BILL-2000-000001", 11, "Beta", UtcDay.firstOfMonth 2000 0, none, 100 * 10 ^ 4, 0⟩,
  ⟨22, some "BILL-2000-000003", 11, "Beta", endOfJanuary.day, none, 100 * 10 ^ 4, 0⟩]

/-- The bills are open at the end of the month they are posted in. -/
theorem answers_vendors :
    Answers alphaFirst vendors .ap (truncateToUtcDay endOfJanuary) vendorRows :=
  ⟨by decide +kernel, by decide +kernel⟩

/-- The last day of the year 99. -/
def longAgo : Option UtcDay := some (UtcDay.lastOfMonth 99 11)

theorem answers_longAgo :
    Answers (fun _ _ => true) (bills longAgo) .ap (truncateToUtcDay endOfJanuary)
      [row longAgo] := by
  have hrows : openDocuments (bills longAgo) .purchaseBill (truncateToUtcDay endOfJanuary) =
      [row longAgo] := by decide +kernel
  exact ⟨.of_eq hrows.symm, List.pairwise_singleton _ _⟩

end Sample

/-- A report of two of the bills: one is due and paid in part, the other is thirty days overdue. -/
theorem reportsOpen_iff_vendors :
    (report .ap Sample.endOfJanuary 2 Sample.vendorRows).truncated = true ∧
      ReportsOpen Sample.alphaFirst Sample.vendors .ap Sample.endOfJanuary.day 2
        (report .ap Sample.endOfJanuary 2 Sample.vendorRows) :=
  ⟨by decide +kernel, (reportsOpen_iff (.inl (by decide)) Sample.answers_vendors (by decide) 2).mpr
    (by decide +kernel)⟩

/-- A bill that was due in the year 99 is aged as if it had been due in 1999. -/
theorem bill_due_long_ago :
    Answers (fun _ _ => true) (Sample.bills Sample.longAgo) .ap
        (truncateToUtcDay Sample.endOfJanuary) [Sample.row Sample.longAgo] ∧
      (([Sample.row Sample.longAgo].map outstanding).sum < 10 ^ 20) ∧
      ¬ ReportsOpen (fun _ _ => true) (Sample.bills Sample.longAgo) .ap Sample.endOfJanuary.day
        maxDocuments (report .ap Sample.endOfJanuary maxDocuments [Sample.row Sample.longAgo]) := by
  refine ⟨Sample.answers_longAgo, by decide, ?_⟩
  rintro ⟨rows, hrows, -, -, hages⟩
  have hcode : AgesTo (bucketOn (truncateToUtcDay Sample.endOfJanuary))
      [Sample.row Sample.longAgo]
      (report .ap Sample.endOfJanuary maxDocuments [Sample.row Sample.longAgo]) :=
    (gathers_foldl _ (by decide) (by decide)).agesTo
  have hbucket := AgesTo.bucket_eq (fun due =>
    bucketOf (Sample.endOfJanuary.day.epochDay - due.epochDay)) hcode hages
    (List.mem_singleton_self _)
  exact absurd hbucket (by decide +kernel)

end Aging

end AccountingApi
