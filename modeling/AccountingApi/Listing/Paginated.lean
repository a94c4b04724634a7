import AccountingApi.Paging.Pages
import AccountingApi.Partners.Service
import AccountingApi.Search
import Mathlib.Data.Prod.Lex

/-!
# Lists in pages

A list endpoint answers with one page of the rows of a table. A search term asks for the rows it finds,
the best match first; their order is total. Without one the rows come in the order of the endpoint, and
rows that tie in the order in which the database comes across them.

## Main definitions

* `Table`, `Scan`: a table, and the order in which one query comes across its rows
* `findMany`, `count`: the queries
* `listPaginated`: a page of a search, or of the whole list
* `trigramSearch`: the keys of the rows a term finds
* `ListSpec`, `listPage`: an endpoint over a table
-/

namespace AccountingApi.Listing

/-! ## Queries -/

/-- A row with its key and the time of its insertion. -/
structure Stored (α : Type) where
  id : Uuid
  createdAt : Timestamp
  row : α
deriving DecidableEq

/-- The rows of a table, each with a key of its own. -/
structure Table (α : Type) where
  rows : List (Stored α)
  nodup : (rows.map (·.id)).Nodup

/-- The rows of a table in the order in which the database comes across them in one query. -/
structure Scan {α : Type} (t : Table α) where
  rows : List (Stored α)
  perm : rows.Perm t.rows

variable {α β κ : Type} [LinearOrder κ]

/-- `SELECT … WHERE … ORDER BY …`. -/
def orderedRows {t : Table α} (s : Scan t) (p : Stored α → Bool) (orderBy : Stored α → κ) :
    List (Stored α) :=
  (s.rows.filter p).insertionSort fun a b => orderBy a ≤ orderBy b

/-- `SELECT … WHERE … ORDER BY … LIMIT … OFFSET …`. -/
def findMany {t : Table α} (s : Scan t) (p : Stored α → Bool) (orderBy : Stored α → κ)
    (limit offset : ℕ) : List (Stored α) :=
  ((orderedRows s p orderBy).drop offset).take limit

def count (t : Table α) (p : Stored α → Bool) : ℕ := (t.rows.filter p).length

/-! ## Pages -/

structure Paginated (β : Type) where
  data : List β
  total : ℕ
  limit : ℕ
  offset : ℕ

/-- The parts of a list endpoint; one without search leaves `search` and `hydrate` out. -/
structure ListPaginatedParams (α β : Type) where
  q : Option String
  limit : Option ℕ
  offset : Option ℕ
  present : Stored α → β
  search : Option (String → ℕ → ℕ → List Uuid × ℕ)
  hydrate : Option (List Uuid → List (Stored α))
  page : ℕ → ℕ → List (Stored α) × ℕ

def defaultPageSize : ℕ := 50

/-- The trimmed search term; none counts as an empty one. -/
def searchTerm (q : Option String) : String := (q.map trim).getD ""

/-- The request is for a search. -/
def Searches (q : Option String) : Prop := minQueryLength ≤ utf16Length (searchTerm q)

instance (q : Option String) : Decidable (Searches q) := inferInstanceAs (Decidable (_ ≤ _))

/-- The rows with the keys, in the order of these; the later one of two rows with one key counts, and a
key without a row is dropped. -/
def byId (rows : List (Stored α)) (ids : List Uuid) : List (Stored α) :=
  ids.filterMap fun id => rows.reverse.find? fun r => r.id = id

def listPaginated (params : ListPaginatedParams α β) : Paginated β :=
  let limit := params.limit.getD defaultPageSize
  let offset := params.offset.getD 0
  let term := searchTerm params.q
  let plain : Paginated β :=
    let (rows, total) := params.page limit offset
    ⟨rows.map params.present, total, limit, offset⟩
  match params.search, params.hydrate with
  | some search, some hydrate =>
    if minQueryLength ≤ utf16Length term then
      let (ids, total) := search term limit offset
      let rows := if ids = [] then [] else hydrate ids
      ⟨(byId rows ids).map params.present, total, limit, offset⟩
    else plain
  | _, _ => plain

/-! ## Search -/

/-- A join with the partners: the partner of a row, and the columns of the partner to search. -/
structure TrigramJoin (α : Type) where
  onColumn : α → Uuid
  columns : List (Partners.BusinessPartner → String)

structure TrigramSearchInput (α : Type) where
  ownColumns : List (α → Option String)
  join : Option (TrigramJoin α)
  filters : List (Stored α → Bool)
  deletedAt : α → Option Timestamp
  q : String
  limit : ℕ
  offset : ℕ

namespace TrigramSearchInput

variable (text : TextFunctions) (partners : Uuid → Option Partners.BusinessPartner)
  (input : TrigramSearchInput α)

/-- The columns that are searched; a row whose partner is missing is not joined. -/
def columnRefs (r : Stored α) : Option (List (Option String)) :=
  let own := input.ownColumns.map fun column => column r.row
  match input.join with
  | none => some own
  | some join => (partners (join.onColumn r.row)).map fun p =>
    own ++ join.columns.map fun column => some (column p)

/-- The rows of the search: not deleted, and found by the term. -/
def whereClause (r : Stored α) : Bool :=
  (input.deletedAt r.row).isNone && input.filters.all (fun p => p r) &&
    (input.columnRefs partners r).any fun columns => text.matchesTerm input.q columns

/-- The best match first, one without a value last; then the newest row; then the smallest key. -/
def orderBy (r : Stored α) : (WithBot ℚ)ᵒᵈ ×ₗ (Timestampᵒᵈ ×ₗ Uuid) :=
  toLex (OrderDual.toDual (text.rank input.q ((input.columnRefs partners r).getD [])),
    toLex (OrderDual.toDual r.createdAt, r.id))

end TrigramSearchInput

/-- The keys of a page of the rows that are found, and the number of all of them. -/
def trigramSearch (text : TextFunctions) (partners : Uuid → Option Partners.BusinessPartner) {t : Table α}
    (s : Scan t) (input : TrigramSearchInput α) : List Uuid × ℕ :=
  ((findMany s (input.whereClause text partners) (input.orderBy text partners) input.limit
    input.offset).map (·.id), count t (input.whereClause text partners))

/-! ## Endpoints -/

/-- A list endpoint over a table: what its search looks at, and how its plain list is filtered and
ordered. -/
structure ListSpec (α β κ : Type) where
  ownColumns : List (α → Option String)
  join : Option (TrigramJoin α)
  filters : List (Stored α → Bool)
  conditions : Stored α → Bool
  orderBy : Stored α → κ
  deletedAt : α → Option Timestamp
  present : Stored α → β

namespace ListSpec

variable (spec : ListSpec α β κ) (text : TextFunctions) (partners : Uuid → Option Partners.BusinessPartner)

def trigramSearchInput (q : String) (limit offset : ℕ) : TrigramSearchInput α where
  ownColumns := spec.ownColumns
  join := spec.join
  filters := spec.filters
  deletedAt := spec.deletedAt
  q := q
  limit := limit
  offset := offset

/-- The row meets a condition and is not deleted. -/
def live (p : Stored α → Bool) (r : Stored α) : Bool := (spec.deletedAt r.row).isNone && p r

/-- The rows a search finds, whatever page of them is asked for. -/
def found (q : Option String) (r : Stored α) : Bool :=
  (spec.trigramSearchInput (searchTerm q) 0 0).whereClause text partners r

/-- The order of a search. -/
def relevance (q : Option String) (r : Stored α) : (WithBot ℚ)ᵒᵈ ×ₗ (Timestampᵒᵈ ×ₗ Uuid) :=
  (spec.trigramSearchInput (searchTerm q) 0 0).orderBy text partners r

/-- The rows the list is about. -/
def matching (t : Table α) (q : Option String) : List (Stored α) :=
  if Searches q then t.rows.filter (spec.found text partners q)
  else t.rows.filter (spec.live spec.conditions)

end ListSpec

/-- The orders in which the queries of one request come across the rows. -/
structure Scans (t : Table α) where
  ids : Scan t
  hydrate : Scan t
  page : Scan t

/-- The answer of an endpoint. -/
def listPage (spec : ListSpec α β κ) (text : TextFunctions)
    (partners : Uuid → Option Partners.BusinessPartner) {t : Table α} (s : Scans t) (q : Option String)
    (limit offset : Option ℕ) : Paginated β :=
  listPaginated {
    q := q
    limit := limit
    offset := offset
    present := spec.present
    search := some fun term limit offset =>
      trigramSearch text partners s.ids (spec.trigramSearchInput term limit offset)
    hydrate := some fun ids => s.hydrate.rows.filter (spec.live fun r => r.id ∈ ids)
    page := fun limit offset =>
      (findMany s.page (spec.live spec.conditions) spec.orderBy limit offset,
        count t (spec.live spec.conditions)) }

end AccountingApi.Listing
