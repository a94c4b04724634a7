import AccountingApi.Listing.Endpoints

/-!
# Walking through a list

A client asks for the pages of a list one after the other until it has seen as many rows as there are.
The rows do not change meanwhile, but each query comes across them in an order of its own.

## Main definitions

* `walk`: the data of all pages

## Main results

* `listPage_of_not_searches`, `listPage_of_searches`: what a page of a list is a page of
* `walk_listPage_iff`: the walk has every row once exactly for a search, or where no two rows tie at the
  end of a page
* `walks_iff`: so it is for documents, payments and journal entries
-/

namespace AccountingApi.Listing

open Paging

variable {α β κ : Type} [LinearOrder κ]

/-- The data of the pages that start before the total the first one tells. -/
def walk (n : ℕ) (answer : ℕ → Paginated β) : List β :=
  (List.range (numPages n (answer 0).total)).flatMap fun i => (answer i).data

/-! ## Queries -/

section Queries

variable {t : Table α} {p : Stored α → Bool} {orderBy : Stored α → κ}

theorem Table.eq_of_id (t : Table α) {a b : Stored α} (ha : a ∈ t.rows) (hb : b ∈ t.rows)
    (h : a.id = b.id) : a = b :=
  List.inj_on_of_nodup_map t.nodup ha hb h

theorem Table.nodup_rows (t : Table α) : t.rows.Nodup := t.nodup.of_map _

/-- The rows of a query are listed in the order it asks for. -/
theorem isListing_orderedRows (s : Scan t) :
    IsListing orderBy (t.rows.filter p) (orderedRows s p orderBy) := by
  have h := isListing_insertionSort orderBy (s.rows.filter p)
  exact ⟨h.perm.trans (s.perm.filter p), h.sorted⟩

/-- Every such listing may come from some order of the rows. -/
theorem exists_scan {σ : List (Stored α)} (h : IsListing orderBy (t.rows.filter p) σ) :
    ∃ s : Scan t, orderedRows s p orderBy = σ := by
  have hσ : σ.filter p = σ := List.filter_eq_self.mpr fun a ha =>
    (List.mem_filter.mp (h.perm.subset ha)).2
  have hrest : (t.rows.filter fun a => !p a).filter p = [] := by
    rw [List.filter_filter]
    simp
  refine ⟨⟨σ ++ t.rows.filter fun a => !p a, ?_⟩, ?_⟩
  · exact (h.perm.append_right _).trans (List.filter_append_perm p t.rows)
  · rw [orderedRows, List.filter_append, hσ, hrest, List.append_nil]
    exact h.sorted.insertionSort_eq

/-- **Pages of queries** have every row once exactly where no two rows tie at the end of a page. -/
theorem pages_orderedRows_iff {n : ℕ} (hn : 0 < n) :
    (∀ s : ℕ → Scan t, (pages n (numPages n (count t p)) fun i => orderedRows (s i) p orderBy).Perm
      (t.rows.filter p)) ↔ Separated orderBy n (t.rows.filter p) := by
  rw [← pages_perm_iff hn (t.nodup_rows.filter p)]
  constructor
  · intro h σ hσ
    choose s hs using fun i => exists_scan (hσ i)
    have hperm := h s
    simp only [hs] at hperm
    exact hperm
  · exact fun h s => h _ fun i => isListing_orderedRows (s i)

/-- Rows can be told apart by what they are presented as. -/
theorem perm_of_map {present : Stored α → β} (hpresent : ∀ a b, present a = present b → a.id = b.id)
    {l l' : List (Stored α)} (hl : l ⊆ t.rows) (hl' : l' ⊆ t.rows) (hnodup : l'.Nodup)
    (h : (l.map present).Perm (l'.map present)) : l.Perm l' := by
  have hinj : ∀ a ∈ t.rows, ∀ b ∈ t.rows, present a = present b → a = b := fun a ha b hb hab =>
    t.eq_of_id ha hb (hpresent a b hab)
  have hmap : (l'.map present).Nodup :=
    hnodup.map_on fun a ha b hb => hinj a (hl' ha) b (hl' hb)
  refine (List.perm_ext_iff_of_nodup ((h.nodup_iff.mpr hmap).of_map _) hnodup).mpr fun a => ?_
  constructor
  · intro ha
    obtain ⟨b, hb, hab⟩ := List.mem_map.mp (h.subset (List.mem_map_of_mem ha))
    exact hinj b (hl' hb) a (hl ha) hab ▸ hb
  · intro ha
    obtain ⟨b, hb, hab⟩ := List.mem_map.mp (h.symm.subset (List.mem_map_of_mem ha))
    exact hinj b (hl hb) a (hl' ha) hab ▸ hb

/-- The data of the pages of ordered rows. -/
theorem flatMap_pages_perm_iff {present : Stored α → β} {n : ℕ}
    (hpresent : ∀ a b, present a = present b → a.id = b.id) (s : ℕ → Scan t) :
    ((List.range (numPages n (count t p))).flatMap fun i =>
      (page n (orderedRows (s i) p orderBy) i).map present).Perm
        ((t.rows.filter p).map present) ↔
      (pages n (numPages n (count t p)) fun i => orderedRows (s i) p orderBy).Perm
        (t.rows.filter p) := by
  rw [← List.map_flatMap]
  refine ⟨fun h => perm_of_map hpresent (fun r hr => ?_) (fun r hr => List.mem_of_mem_filter hr)
    (t.nodup_rows.filter p) h, fun h => h.map _⟩
  obtain ⟨i, -, hr⟩ := List.mem_flatMap.mp hr
  have hmem := List.drop_subset _ _ (List.take_subset _ _ hr)
  exact List.mem_of_mem_filter ((isListing_orderedRows (s i)).perm.subset hmem)

/-- Rows that are found by their keys come in the order of these. -/
theorem byId_map_id {rows ps : List (Stored α)} (hrows : rows ⊆ t.rows) (hps : ps ⊆ rows) :
    byId rows (ps.map (·.id)) = ps := by
  rw [byId, List.filterMap_map]
  refine (List.filterMap_congr fun a ha => ?_).trans List.filterMap_some
  change (rows.reverse.find? fun r => r.id = a.id) = some a
  have hsome : (rows.reverse.find? fun r => r.id = a.id).isSome := by
    rw [List.find?_isSome]
    exact ⟨a, List.mem_reverse.mpr (hps ha), decide_eq_true rfl⟩
  obtain ⟨b, hb⟩ := Option.isSome_iff_exists.mp hsome
  have hmem := List.mem_reverse.mp (List.mem_of_find?_eq_some hb)
  have hid := List.find?_some hb
  rw [hb, t.eq_of_id (hrows hmem) (hrows (hps ha)) (of_decide_eq_true hid)]

end Queries

/-! ## Endpoints -/

section Endpoints

variable {spec : ListSpec α β κ} {text : TextFunctions}
  {partners : Uuid → Option Partners.BusinessPartner} {t : Table α} {q : Option String}

/-- **A page of the plain list** is a page of its rows in their order. -/
theorem listPage_of_not_searches (h : ¬ Searches q) (s : Scans t) (n i : ℕ) :
    listPage spec text partners s q (some n) (some (i * n)) =
      ⟨(page n (orderedRows s.page (spec.live spec.conditions) spec.orderBy) i).map spec.present,
        count t (spec.live spec.conditions), n, i * n⟩ := by
  rw [Searches] at h
  simp only [listPage, listPaginated, if_neg h]
  rfl

omit [LinearOrder κ] in
/-- The rows that are read for the keys of a page are the rows of the page. -/
theorem byId_hydrate (spec : ListSpec α β κ) (s : Scan t) {ps : List (Stored α)} (hrows : ps ⊆ t.rows)
    (hlive : ∀ r ∈ ps, (spec.deletedAt r.row).isNone = true) :
    byId (if ps.map (·.id) = [] then []
      else s.rows.filter (spec.live fun r => r.id ∈ ps.map (·.id))) (ps.map (·.id)) = ps := by
  by_cases hnil : ps.map (·.id) = []
  · obtain rfl := List.map_eq_nil_iff.mp hnil
    rfl
  · rw [if_neg hnil]
    refine byId_map_id (fun r hr => s.perm.subset (List.mem_of_mem_filter hr)) fun r hr => ?_
    refine List.mem_filter.mpr ⟨s.perm.symm.subset (hrows hr), ?_⟩
    rw [ListSpec.live, hlive r hr, Bool.true_and]
    exact decide_eq_true (List.mem_map_of_mem hr)

/-- **A page of a search** is a page of the rows it finds in their order. -/
theorem listPage_of_searches (h : Searches q) (s : Scans t) (n i : ℕ) :
    listPage spec text partners s q (some n) (some (i * n)) =
      ⟨(page n (orderedRows s.ids (spec.found text partners q)
        (spec.relevance text partners q)) i).map spec.present,
        count t (spec.found text partners q), n, i * n⟩ := by
  rw [Searches] at h
  have hfound : ∀ r ∈ page n (orderedRows s.ids (spec.found text partners q)
      (spec.relevance text partners q)) i, r ∈ t.rows ∧ spec.found text partners q r = true := by
    intro r hr
    have hlist : IsListing (spec.relevance text partners q) (t.rows.filter (spec.found text partners q))
        _ := isListing_orderedRows s.ids
    have hmem := List.drop_subset _ _ (List.take_subset _ _ hr)
    exact List.mem_filter.mp (hlist.perm.subset hmem)
  have hdata := byId_hydrate spec s.hydrate (fun r hr => (hfound r hr).1) fun r hr => by
    have hwhere := (hfound r hr).2
    rw [ListSpec.found, TrigramSearchInput.whereClause, Bool.and_eq_true, Bool.and_eq_true] at hwhere
    exact hwhere.1.1
  simp only [listPage, listPaginated, if_pos h]
  exact congrArg (fun rows => (⟨rows.map spec.present, count t (spec.found text partners q), n,
    i * n⟩ : Paginated β)) hdata

omit [LinearOrder κ] in
/-- No two rows come in either order of a search: their keys differ. -/
theorem separated_relevance {n : ℕ} (hn : 0 < n) :
    Separated (spec.relevance text partners q) n (t.rows.filter (spec.found text partners q)) := by
  refine separated_of_nodup hn (List.Nodup.map_on (fun a ha b hb hab => ?_) (t.nodup_rows.filter _))
  have hid : a.id = b.id := congrArg (fun k => (ofLex (ofLex k).2).2) hab
  exact t.eq_of_id (List.mem_of_mem_filter ha) (List.mem_of_mem_filter hb) hid

/-- No two rows of the plain list tie at the end of a page of `n` rows. -/
def ListSpec.Untied (spec : ListSpec α β κ) (t : Table α) (n : ℕ) : Prop :=
  Separated spec.orderBy n (t.rows.filter (spec.live spec.conditions))

/-- **The walk through a list** has every row exactly once, in whatever order the queries come across
them, if and only if it is a search, or no two rows tie at the end of a page. -/
theorem walk_listPage_iff (spec : ListSpec α β κ)
    (hpresent : ∀ a b, spec.present a = spec.present b → a.id = b.id) {n : ℕ} (hn : 0 < n) :
    (∀ s : ℕ → Scans t, (walk n fun i =>
      listPage spec text partners (s i) q (some n) (some (i * n))).Perm
        ((spec.matching text partners t q).map spec.present)) ↔
      Searches q ∨ spec.Untied t n := by
  by_cases h : Searches q
  · refine iff_of_true (fun s => ?_) (.inl h)
    simp only [walk, listPage_of_searches h, ListSpec.matching, if_pos h]
    refine (flatMap_pages_perm_iff hpresent fun i => (s i).ids).mpr ?_
    exact (pages_orderedRows_iff hn).mpr (separated_relevance hn) _
  · rw [or_iff_right h, ListSpec.Untied, ← pages_orderedRows_iff hn]
    simp only [walk, listPage_of_not_searches h, ListSpec.matching, if_neg h]
    constructor
    · intro hall s
      exact (flatMap_pages_perm_iff hpresent s).mp
        (hall fun i => ⟨s i, s i, s i⟩)
    · exact fun hall s => (flatMap_pages_perm_iff hpresent fun i => (s i).page).mpr (hall _)

/-- **The walks through the lists** of invoices, of bills, of payments and of journal entries. -/
theorem walks_iff (text : TextFunctions) (partners : Uuid → Option Partners.BusinessPartner) {n : ℕ}
    (hn : 0 < n) :
    (∀ (kind : DocumentKind) (t : Table Document) (q : DocumentListQuery),
      (∀ s : ℕ → Scans t, (walk n fun i => documentList kind text partners (s i)
        { q with limit := some n, offset := some (i * n) }).Perm
          (((documentSpec kind q).matching text partners t q.q).map presentDocument)) ↔
        Searches q.q ∨ (documentSpec kind q).Untied t n) ∧
    (∀ (t : Table Payment) (q : PaymentListQuery),
      (∀ s : ℕ → Scans t, (walk n fun i => paymentList text partners (s i)
        { q with limit := some n, offset := some (i * n) }).Perm
          (((paymentSpec q).matching text partners t q.q).map presentPayment)) ↔
        Searches q.q ∨ (paymentSpec q).Untied t n) ∧
    ∀ (t : Table JournalEntry) (filter : JournalListFilter),
      (∀ s : ℕ → Scans t, (walk n fun i => journalList text partners (s i)
        { filter with limit := n, offset := i * n }).Perm
          (((journalSpec filter).matching text partners t filter.q).map presentEntry)) ↔
        Searches filter.q ∨ (journalSpec filter).Untied t n := by
  refine ⟨fun kind t q => ?_, fun t q => ?_, fun t filter => ?_⟩
  · exact walk_listPage_iff (documentSpec kind q)
      (fun _ _ h => congrArg (·.document.id) h) hn
  · exact walk_listPage_iff (paymentSpec q) (fun _ _ h => congrArg (·.id) h) hn
  · exact walk_listPage_iff (journalSpec filter) (fun _ _ h => congrArg (·.id) h) hn

end Endpoints

/-! ## Two invoices of one moment -/

namespace Sample

/-- No letter has a case, and strings are similar if they are equal. -/
def text : TextFunctions where
  fold := id
  similarity := fun s q => if s = q then 1 else 0

/-- A draft of an invoice. -/
def invoice : Document where
  number := none
  ref := none
  fiscalYear := none
  partnerId := 1
  vendorInvoiceNo := none
  date := .dateUtc 2025 2 1
  dueDate := none
  description := none
  status := .draft
  subtotal := 10000
  taxTotal := 0
  withholdingTotal := 0
  total := 10000
  amountPaid := 0
  journalEntryId := none
  createdBy := 1
  postedBy := none
  postedAt := none
  deletedAt := none
  deletedBy := none

/-- Two invoices inserted in the same millisecond. -/
def invoices : Table Document where
  rows := [⟨1, 7, invoice⟩, ⟨2, 7, invoice⟩]
  nodup := by decide

/-- The request for the first page comes across the rows in one order, that for the next in the other. -/
def scan (i : ℕ) : Scan invoices where
  rows := if i = 0 then [⟨1, 7, invoice⟩, ⟨2, 7, invoice⟩] else [⟨2, 7, invoice⟩, ⟨1, 7, invoice⟩]
  perm := by
    split
    · exact .refl _
    · exact .swap _ _ _

def query (q : Option String) : DocumentListQuery := ⟨q, none, none, none, none⟩

end Sample

/-- **A walk through two invoices of one moment** has one of them twice and the other one not at all. -/
theorem walk_of_tie : ∃ (t : Table Document) (s : ℕ → Scans t) (q : DocumentListQuery),
    ¬ (walk 1 fun i => documentList .salesInvoice Sample.text (fun _ => none) (s i)
      { q with limit := some 1, offset := some (i * 1) }).Perm
        (((documentSpec .salesInvoice q).matching Sample.text (fun _ => none) t q.q).map
          presentDocument) := by
  refine ⟨Sample.invoices, fun i => ⟨Sample.scan i, Sample.scan i, Sample.scan i⟩,
    Sample.query none, fun h => ?_⟩
  have hids := h.map (·.document.id)
  exact absurd hids (by decide)

/-- Three invoices of three moments. -/
def Sample.untied : Table Document where
  rows := [⟨1, 7, invoice⟩, ⟨2, 9, invoice⟩, ⟨3, 8, invoice⟩]
  nodup := by decide

/-- A walk through them in pages of one row has each of them once. -/
theorem walks_iff_three : Sample.untied.rows.length = 3 ∧ ∀ s : ℕ → Scans Sample.untied,
    (walk 1 fun i => documentList .salesInvoice Sample.text (fun _ => none) (s i)
      { Sample.query none with limit := some 1, offset := some (i * 1) }).Perm
        (((documentSpec .salesInvoice (Sample.query none)).matching Sample.text (fun _ => none)
          Sample.untied none).map presentDocument) :=
  ⟨rfl, ((walks_iff Sample.text (fun _ => none) (by decide)).1 .salesInvoice Sample.untied
    (Sample.query none)).mpr (.inr (separated_of_nodup (by decide) (by decide)))⟩

end AccountingApi.Listing
