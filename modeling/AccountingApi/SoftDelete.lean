import AccountingApi.Dates

/-!
# Soft deletion

Reads of a model with soft deletion leave out the deleted rows. A filtered read adds a condition to
the query. A read by a unique key is filtered afterwards: the caller's projection is made to include
the deletion date, which is looked at in the row that comes back and taken out again.

## Main definitions

* `Model.selection`, `Model.query`: the fields a caller asks for, and the row that has them
* `findFirst`, `findUnique`, `findUniqueOrThrow`: the reads of the extended client
* `Faithful`: the projections and rows for which the two kinds of reads agree

## Main results

* `findUniqueOrThrow_eq_notFound_iff`: when a read by a unique key throws
* `findUnique_refines_iff`: it returns what the filtered read returns exactly where it is faithful
-/

namespace AccountingApi.SoftDelete

/-! ## Models and projections -/

/-- The models of the database. -/
inductive ModelName
  | user | refreshToken | companySettings | account | accountingPeriod | journalSequence
  | journalEntry | journalLine | idempotencyKey | taxCode | businessPartner | salesInvoice
  | salesInvoiceLine | purchaseBill | purchaseBillLine | payment | paymentAllocation
  | documentSequence | yearEndClosing | auditLog
deriving DecidableEq

/-- The models subject to soft deletion. -/
def SOFT_DELETE_MODELS : List ModelName :=
  [.user, .account, .journalEntry, .taxCode, .businessPartner, .salesInvoice, .purchaseBill, .payment]

def isSoftDelete (model : ModelName) : Bool := model ∈ SOFT_DELETE_MODELS

/-- What a caller says about one field: nothing, a boolean, or arguments of a relation. -/
inductive FieldArg (A : Type)
  | omitted
  | no
  | yes
  | nested (args : A)

/-- The field is asked for, with these arguments. -/
def FieldArg.requested {A : Type} : FieldArg A → Option (Option A)
  | .omitted | .no => none
  | .yes => some none
  | .nested args => some (some args)

/-- An optional argument of a read; the client takes `null` like no argument. -/
inductive Arg (α : Type)
  | absent
  | null
  | given (a : α)

/-- Fields with what is said about them. -/
abbrev Fields (A : Type) := List (String × FieldArg A)

/-- The fields that are asked for. -/
def Fields.requested {A : Type} (fields : Fields A) : List (String × Option A) :=
  fields.filterMap fun field => field.2.requested.map (field.1, ·)

/-- The part of the arguments of a read that says which fields come back. -/
structure Projection (A : Type) where
  select : Arg (Fields A)
  includes : Arg (Fields A)

/-- The errors of the client: no such record, a selection without fields, `select` and `include` at
the same time, and a type error of the language. -/
inductive PrismaError
  | notFound
  | emptySelection
  | mutuallyExclusive
  | typeError
deriving DecidableEq

/-- The value of a field. -/
inductive FieldValue (V : Type)
  | null
  | date (d : Timestamp)
  | other (v : V)

/-- A date is truthy; `deletedAt` has no other values that are. -/
def FieldValue.IsDate {V : Type} : FieldValue V → Prop
  | .date _ => True
  | _ => False

instance {V : Type} (x : FieldValue V) : Decidable x.IsDate := by
  unfold FieldValue.IsDate
  split <;> infer_instance

/-- What comes back of a row. -/
abbrev Record (V : Type) := List (String × FieldValue V)

/-- A model with a deletion date: its columns and the values of its fields, relations included. -/
structure Model (R A V : Type) where
  scalars : List String
  deletedAt : R → Option Timestamp
  field : String → Option A → R → V
  nodup : scalars.Nodup
  deletedAt_mem : "deletedAt" ∈ scalars

variable {R A V : Type}

namespace Model

variable (m : Model R A V)

def read (name : String) (args : Option A) (r : R) : FieldValue V :=
  if name = "deletedAt" then
    match m.deletedAt r with
    | none => .null
    | some d => .date d
  else .other (m.field name args r)

/-- The fields that come back: those selected, or all columns and what is included. -/
def selection (p : Projection A) : Except PrismaError (List (String × Option A)) :=
  match p.select, p.includes with
  | .given _, .given _ => .error .mutuallyExclusive
  | .given fields, _ =>
    if fields.requested = [] then .error .emptySelection else .ok fields.requested
  | _, .given relations => .ok (m.scalars.map (·, none) ++ relations.requested)
  | _, _ => .ok (m.scalars.map (·, none))

/-- The fields of a row. -/
def project (fields : List (String × Option A)) (r : R) : Record V :=
  fields.map fun field => (field.1, m.read field.1 field.2 r)

/-- The first row that satisfies a condition. -/
def query (rows : List R) (cond : R → Bool) (p : Projection A) :
    Except PrismaError (Option (Record V)) := do
  let fields ← m.selection p
  return (rows.find? cond).map (m.project fields)

end Model

/-- A condition that at most one row satisfies. -/
structure UniqueKey (rows : List R) where
  cond : R → Bool
  unique : ∀ r ∈ rows, ∀ r' ∈ rows, cond r = true → cond r' = true → r = r'

/-! ## The extended client -/

/-- The projection with the deletion date, and whether the caller had left it out. -/
def injectDeletedAtSelect (p : Projection A) : Except PrismaError (Projection A × Bool) :=
  match p.select with
  | .absent => .ok (p, false)
  | .null => .error .typeError
  | .given fields =>
    if "deletedAt" ∈ fields.map Prod.fst then .ok (p, false)
    else .ok ({ p with select := .given (fields ++ [("deletedAt", .yes)]) }, true)

/-- The value of a field in a record. -/
def Record.get (row : Record V) (name : String) : Option (FieldValue V) :=
  (row.find? fun field => field.1 = name).map Prod.snd

/-- The record has a deletion date. -/
def Record.IsDeleted (row : Record V) : Prop := ∃ x ∈ row.get "deletedAt", x.IsDate

instance (row : Record V) : Decidable row.IsDeleted := by
  unfold Record.IsDeleted
  infer_instance

/-- The record without a field. -/
def Record.without (row : Record V) (name : String) : Record V :=
  row.filter fun field => field.1 ≠ name

/-- The record without the field that was put in. -/
def strip (injected : Bool) (row : Record V) : Record V :=
  if injected then row.without "deletedAt" else row

variable (model : ModelName) (m : Model R A V) (rows : List R)

def findFirst (cond : R → Bool) (p : Projection A) : Except PrismaError (Option (Record V)) :=
  if isSoftDelete model then m.query rows (fun r => cond r && (m.deletedAt r).isNone) p
  else m.query rows cond p

def findUnique (key : UniqueKey rows) (p : Projection A) :
    Except PrismaError (Option (Record V)) := do
  if isSoftDelete model then
    let (p, injected) ← injectDeletedAtSelect p
    match ← m.query rows key.cond p with
    | none => return none
    | some row => if row.IsDeleted then return none else return some (strip injected row)
  else m.query rows key.cond p

/-- The read of the client itself that throws where there is no row. -/
def queryOrThrow (cond : R → Bool) (p : Projection A) : Except PrismaError (Record V) := do
  match ← m.query rows cond p with
  | none => throw .notFound
  | some row => return row

def findUniqueOrThrow (key : UniqueKey rows) (p : Projection A) :
    Except PrismaError (Record V) := do
  if isSoftDelete model then
    let (p, injected) ← injectDeletedAtSelect p
    let row ← queryOrThrow m rows key.cond p
    if row.IsDeleted then throw .notFound else return strip injected row
  else queryOrThrow m rows key.cond p

/-- The field is mentioned and not asked for. -/
def Fields.HidesDeletedAt (fields : Fields A) : Prop :=
  "deletedAt" ∈ fields.map Prod.fst ∧ "deletedAt" ∉ fields.requested.map Prod.fst

/-- **Where the two kinds of reads agree**: `select` is not `null`; where fields are selected and none
included, the selection asks for a field or mentions the deletion date, and it does not hide the
deletion date of a deleted row behind other fields. -/
def Faithful (key : UniqueKey rows) (p : Projection A) : Prop :=
  match p.select, p.includes with
  | .absent, _ => True
  | .null, _ => False
  | .given _, .given _ => True
  | .given fields, _ =>
    if fields.requested = [] then "deletedAt" ∈ fields.map Prod.fst
    else fields.HidesDeletedAt → ∀ r ∈ rows.find? key.cond, m.deletedAt r = none

/-! ## Records -/

section Records

variable {m : Model R A V} {rows : List R} {r : R} {fields : List (String × Option A)}

/-- The deletion date of a record is that of its row, where it is asked for. -/
theorem get_project : Record.get (m.project fields r) "deletedAt" =
    if "deletedAt" ∈ fields.map Prod.fst then some (m.read "deletedAt" none r) else none := by
  induction fields with
  | nil => rfl
  | cons field fields ih =>
    obtain ⟨name, args⟩ := field
    unfold Record.get Model.project at ih ⊢
    rw [List.map_cons, List.find?_cons, List.map_cons]
    by_cases hname : name = "deletedAt"
    · subst hname
      rw [if_pos List.mem_cons_self]
      simp [Model.read]
    · simp only [hname, decide_false, ih, List.mem_cons, Ne.symm hname, false_or]

theorem isDeleted_project : Record.IsDeleted (m.project fields r) ↔
    "deletedAt" ∈ fields.map Prod.fst ∧ (m.deletedAt r).isSome = true := by
  unfold Record.IsDeleted
  rw [get_project]
  by_cases hmem : "deletedAt" ∈ fields.map Prod.fst
  · rw [if_pos hmem, Model.read, if_pos rfl]
    cases m.deletedAt r <;> simp [hmem, FieldValue.IsDate]
  · simp [hmem]

/-- What was put in comes out again. -/
theorem without_project (h : "deletedAt" ∉ fields.map Prod.fst) :
    Record.without (m.project (fields ++ [("deletedAt", none)]) r) "deletedAt" =
      m.project fields r := by
  unfold Record.without Model.project
  rw [List.map_append, List.filter_append]
  have hall : ∀ field ∈ fields.map fun field => (field.1, m.read field.1 field.2 r),
      decide (field.1 ≠ "deletedAt") = true := by
    intro field hfield
    obtain ⟨x, hx, rfl⟩ := List.mem_map.mp hfield
    exact decide_eq_true fun hname => h (hname ▸ List.mem_map_of_mem hx)
  rw [List.filter_eq_self.mpr hall]
  simp

/-- The one row of a unique key, unless it is deleted. -/
theorem find_live (key : UniqueKey rows) :
    (rows.find? fun r => key.cond r && (m.deletedAt r).isNone) =
      (rows.find? key.cond).filter fun r => (m.deletedAt r).isNone := by
  cases hfind : rows.find? key.cond with
  | none =>
    rw [Option.filter_none, List.find?_eq_none]
    intro r hr hcond
    exact List.find?_eq_none.mp hfind r hr (Bool.and_eq_true_iff.mp hcond).1
  | some r =>
    have hr := List.mem_of_find?_eq_some hfind
    have hcond := List.find?_some hfind
    have heq : ∀ r' ∈ rows, key.cond r' = true → r' = r := fun r' hr' hcond' =>
      key.unique r' hr' r hr hcond' hcond
    rw [Option.filter_some]
    cases hlive : (m.deletedAt r).isNone with
    | true =>
      rw [if_pos rfl]
      obtain ⟨r', hr'⟩ : ∃ r', (rows.find? fun r => key.cond r && (m.deletedAt r).isNone) =
          some r' := Option.isSome_iff_exists.mp (List.find?_isSome.mpr ⟨r, hr, by simp [hcond, hlive]⟩)
      have hfound := List.find?_some hr'
      simp only [Bool.and_eq_true] at hfound
      rw [hr', heq r' (List.mem_of_find?_eq_some hr') hfound.1]
    | false =>
      rw [if_neg Bool.false_ne_true, List.find?_eq_none]
      intro r' hr' hcond'
      obtain ⟨hcond', hlive'⟩ := Bool.and_eq_true_iff.mp hcond'
      rw [heq r' hr' hcond', hlive] at hlive'
      cases hlive'

end Records

/-! ## Reads by a unique key -/

section Unique

variable {model : ModelName} {m : Model R A V} {rows : List R} {key : UniqueKey rows}
  {p : Projection A} {fields : Fields A}

/-- What the check after the query leaves of what has been found. -/
def guarded (injected : Bool) (found : Option (Record V)) : Option (Record V) :=
  found.bind fun row => if row.IsDeleted then none else some (strip injected row)

/-- The error of a read that finds nothing. -/
def orNotFound (found : Option (Record V)) : Except PrismaError (Record V) :=
  match found with
  | none => .error .notFound
  | some row => .ok row

theorem query_of_ok {cond : R → Bool} {selected : List (String × Option A)}
    (h : m.selection p = .ok selected) :
    m.query rows cond p = .ok ((rows.find? cond).map (m.project selected)) := by
  rw [Model.query, h]
  rfl

theorem query_of_error {cond : R → Bool} {e : PrismaError} (h : m.selection p = .error e) :
    m.query rows cond p = .error e := by
  rw [Model.query, h]
  rfl

theorem injectDeletedAtSelect_error {e : PrismaError} (h : injectDeletedAtSelect p = .error e) :
    e = .typeError := by
  unfold injectDeletedAtSelect at h
  split at h
  · cases h
  · exact (Except.error.inj h).symm
  · split at h <;> cases h

theorem selection_error {e : PrismaError} (h : m.selection p = .error e) : e ≠ .notFound := by
  rintro rfl
  unfold Model.selection at h
  split at h
  · cases h
  · split at h <;> cases h
  · cases h
  · cases h

variable (hmodel : isSoftDelete model = true)

include hmodel

/-- A projection that is refused. -/
theorem findUnique_of_inject_error {e : PrismaError} (h : injectDeletedAtSelect p = .error e) :
    findUnique model m rows key p = .error e ∧ findUniqueOrThrow model m rows key p = .error e := by
  unfold findUnique findUniqueOrThrow
  rw [if_pos hmodel, if_pos hmodel, h]
  exact ⟨rfl, rfl⟩

/-- A query that is refused. -/
theorem findUnique_of_error {p' : Projection A} {injected : Bool} {e : PrismaError}
    (h : injectDeletedAtSelect p = .ok (p', injected)) (hselection : m.selection p' = .error e) :
    findUnique model m rows key p = .error e ∧ findUniqueOrThrow model m rows key p = .error e := by
  unfold findUnique findUniqueOrThrow queryOrThrow
  rw [if_pos hmodel, if_pos hmodel, h]
  simp only [query_of_error hselection, bind, Except.bind, and_self]

/-- A query that is answered. -/
theorem findUnique_of_ok {p' : Projection A} {injected : Bool} {selected : List (String × Option A)}
    (h : injectDeletedAtSelect p = .ok (p', injected)) (hselection : m.selection p' = .ok selected) :
    findUnique model m rows key p =
        .ok (guarded injected ((rows.find? key.cond).map (m.project selected))) ∧
      findUniqueOrThrow model m rows key p =
        orNotFound (guarded injected ((rows.find? key.cond).map (m.project selected))) := by
  unfold findUnique findUniqueOrThrow queryOrThrow guarded
  rw [if_pos hmodel, if_pos hmodel, h]
  simp only [query_of_ok hselection, bind, Except.bind]
  cases (rows.find? key.cond).map (m.project selected) with
  | none => exact ⟨rfl, rfl⟩
  | some row =>
    by_cases hdeleted : row.IsDeleted
    · simp [hdeleted, orNotFound, pure, Except.pure]
      rfl
    · simp [hdeleted, orNotFound, pure, Except.pure]

/-- **The read that throws** throws where the other one finds nothing. -/
theorem findUniqueOrThrow_eq_notFound_iff :
    findUniqueOrThrow model m rows key p = .error .notFound ↔
      findUnique model m rows key p = .ok none := by
  cases hinject : injectDeletedAtSelect p with
  | error e =>
    obtain ⟨hunique, hthrow⟩ : findUnique model m rows key p = .error e ∧ _ :=
      findUnique_of_inject_error hmodel hinject
    rw [hunique, hthrow, injectDeletedAtSelect_error hinject]
    exact iff_of_false nofun nofun
  | ok x =>
    obtain ⟨p', injected⟩ := x
    cases hselection : m.selection p' with
    | error e =>
      obtain ⟨hunique, hthrow⟩ : findUnique model m rows key p = .error e ∧ _ :=
        findUnique_of_error hmodel hinject hselection
      rw [hunique, hthrow]
      exact iff_of_false (fun he => selection_error hselection (Except.error.inj he)) nofun
    | ok selected =>
      obtain ⟨hunique, hthrow⟩ : findUnique model m rows key p = .ok _ ∧ _ :=
        findUnique_of_ok hmodel hinject hselection
      rw [hunique, hthrow]
      cases guarded injected ((rows.find? key.cond).map (m.project selected)) with
      | none => exact iff_of_true rfl rfl
      | some row => exact iff_of_false nofun nofun

end Unique

/-! ## The check after the query -/

section Guarded

variable {m : Model R A V} {selected : List (String × Option A)} {found : Option R}

/-- The check sees the deletion date where it is asked for. -/
theorem guarded_of_mem (h : "deletedAt" ∈ selected.map Prod.fst) :
    guarded false (found.map (m.project selected)) =
      (found.filter fun r => (m.deletedAt r).isNone).map (m.project selected) := by
  cases found with
  | none => rfl
  | some r =>
    rw [Option.map_some, guarded, Option.bind_some, Option.filter_some]
    cases hdeleted : m.deletedAt r with
    | none =>
      rw [if_neg fun hrow => by simpa [hdeleted] using (isDeleted_project.mp hrow).2]
      rfl
    | some d =>
      rw [if_pos (isDeleted_project.mpr ⟨h, by simp [hdeleted]⟩)]
      rfl

/-- It sees nothing where it is not. -/
theorem guarded_of_notMem (h : "deletedAt" ∉ selected.map Prod.fst) :
    guarded false (found.map (m.project selected)) = found.map (m.project selected) := by
  cases found with
  | none => rfl
  | some r =>
    rw [Option.map_some, guarded, Option.bind_some,
      if_neg fun hrow => h (isDeleted_project.mp hrow).1]
    rfl

/-- It sees the deletion date that was put in, and takes it out. -/
theorem guarded_injected (h : "deletedAt" ∉ selected.map Prod.fst) :
    guarded true (found.map (m.project (selected ++ [("deletedAt", none)]))) =
      (found.filter fun r => (m.deletedAt r).isNone).map (m.project selected) := by
  have hmem : "deletedAt" ∈ (selected ++ [("deletedAt", (none : Option A))]).map Prod.fst := by simp
  cases found with
  | none => rfl
  | some r =>
    rw [Option.map_some, guarded, Option.bind_some, Option.filter_some]
    cases hdeleted : m.deletedAt r with
    | none =>
      rw [if_neg fun hrow => by simpa [hdeleted] using (isDeleted_project.mp hrow).2, strip,
        if_pos rfl, without_project h]
      rfl
    | some d =>
      rw [if_pos (isDeleted_project.mpr ⟨hmem, by simp [hdeleted]⟩)]
      rfl

end Guarded

/-! ## The two kinds of reads -/

section Refinement

variable {model : ModelName} {m : Model R A V} {rows : List R} {key : UniqueKey rows}
  {p : Projection A} {fields : Fields A}

theorem requested_append_deletedAt (fields : Fields A) :
    Fields.requested (fields ++ [("deletedAt", .yes)]) =
      fields.requested ++ [("deletedAt", none)] := by
  unfold Fields.requested
  rw [List.filterMap_append]
  rfl

theorem Fields.mem_of_mem_requested {name : String}
    (h : name ∈ fields.requested.map Prod.fst) : name ∈ fields.map Prod.fst := by
  obtain ⟨x, hx, rfl⟩ := List.mem_map.mp h
  obtain ⟨field, hfield, hrequested⟩ := List.mem_filterMap.mp hx
  obtain ⟨args, -, rfl⟩ := Option.map_eq_some_iff.mp hrequested
  exact List.mem_map_of_mem hfield

/-- All columns are among the fields where none are selected. -/
theorem exists_selection_of_absent (m : Model R A V) (h : ∀ fields, p.select ≠ .given fields) :
    ∃ selected, m.selection p = .ok selected ∧ "deletedAt" ∈ selected.map Prod.fst := by
  have hscalars : "deletedAt" ∈ (m.scalars.map fun name => (name, (none : Option A))).map Prod.fst := by
    rw [List.map_map]
    exact List.mem_map.mpr ⟨_, m.deletedAt_mem, rfl⟩
  unfold Model.selection
  split
  · exact absurd ‹_› (h _)
  · exact absurd ‹_› (h _)
  · refine ⟨_, rfl, ?_⟩
    rw [List.map_append]
    exact List.mem_append_left _ hscalars
  · exact ⟨_, rfl, hscalars⟩

/-- The selection of fields where nothing is included. -/
theorem selection_of_given (m : Model R A V) {q : Projection A} (h : q.select = .given fields)
    (hincludes : ∀ relations, q.includes ≠ .given relations) : m.selection q =
      if fields.requested = [] then .error .emptySelection else .ok fields.requested := by
  unfold Model.selection
  rw [h]
  cases hq : q.includes with
  | given relations => exact absurd hq (hincludes relations)
  | absent => rfl
  | null => rfl

variable (hmodel : isSoftDelete model = true)

include hmodel

/-- The filtered read. -/
theorem findFirst_of_ok {selected : List (String × Option A)} (h : m.selection p = .ok selected) :
    findFirst model m rows key.cond p = .ok (((rows.find? key.cond).filter fun r =>
      (m.deletedAt r).isNone).map (m.project selected)) := by
  rw [findFirst, if_pos hmodel, query_of_ok h, find_live]

theorem findFirst_of_error {e : PrismaError} (h : m.selection p = .error e) :
    findFirst model m rows key.cond p = .error e := by
  rw [findFirst, if_pos hmodel, query_of_error h]

/-- Where fields are selected and mention the deletion date. -/
theorem findUnique_of_mem (h : p.select = .given fields) (hmem : "deletedAt" ∈ fields.map Prod.fst)
    (hincludes : ∀ relations, p.includes ≠ .given relations) :
    findUnique model m rows key p = findFirst model m rows key.cond p ↔
      (fields.requested ≠ [] → fields.HidesDeletedAt →
        ∀ r ∈ rows.find? key.cond, m.deletedAt r = none) := by
  have hinject : injectDeletedAtSelect p = .ok (p, false) := by
    rw [injectDeletedAtSelect, h]
    exact if_pos hmem
  have hselection := selection_of_given m h hincludes
  by_cases hempty : fields.requested = []
  · rw [if_pos hempty] at hselection
    rw [(findUnique_of_error hmodel hinject hselection).1, findFirst_of_error hmodel hselection]
    exact iff_of_true rfl fun hne => absurd hempty hne
  · rw [if_neg hempty] at hselection
    rw [(findUnique_of_ok hmodel hinject hselection).1, findFirst_of_ok hmodel hselection]
    by_cases hshown : "deletedAt" ∈ fields.requested.map Prod.fst
    · rw [guarded_of_mem hshown]
      exact iff_of_true rfl fun _ hhides => absurd hshown hhides.2
    · rw [guarded_of_notMem hshown]
      cases rows.find? key.cond with
      | none => exact iff_of_true rfl fun _ _ => nofun
      | some r =>
        rw [Option.filter_some]
        cases hdeleted : m.deletedAt r with
        | none =>
          refine iff_of_true rfl fun _ _ => ?_
          rintro _ ⟨⟩
          exact hdeleted
        | some d =>
          refine iff_of_false nofun fun hnone => ?_
          rw [hnone hempty ⟨hmem, hshown⟩ r rfl] at hdeleted
          cases hdeleted

/-- Where fields are selected and do not mention it. -/
theorem findUnique_of_notMem (h : p.select = .given fields)
    (hmem : "deletedAt" ∉ fields.map Prod.fst)
    (hincludes : ∀ relations, p.includes ≠ .given relations) :
    findUnique model m rows key p = findFirst model m rows key.cond p ↔ fields.requested ≠ [] := by
  have hinject : injectDeletedAtSelect p =
      .ok ({ p with select := .given (fields ++ [("deletedAt", .yes)]) }, true) := by
    rw [injectDeletedAtSelect, h]
    exact if_neg hmem
  have hselection := selection_of_given m h hincludes
  have hselection' := selection_of_given m
    (q := { p with select := .given (fields ++ [("deletedAt", .yes)]) }) rfl hincludes
  rw [requested_append_deletedAt, if_neg (by simp)] at hselection'
  rw [(findUnique_of_ok hmodel hinject hselection').1]
  by_cases hempty : fields.requested = []
  · rw [if_pos hempty] at hselection
    rw [findFirst_of_error hmodel hselection]
    exact iff_of_false nofun fun hne => hne hempty
  · rw [if_neg hempty] at hselection
    rw [findFirst_of_ok hmodel hselection,
      guarded_injected fun hshown => hmem (Fields.mem_of_mem_requested hshown)]
    exact iff_of_true rfl hempty

/-- Where nothing is selected. -/
theorem findUnique_of_absent (h : p.select = .absent) :
    findUnique model m rows key p = findFirst model m rows key.cond p := by
  have hinject : injectDeletedAtSelect p = .ok (p, false) := by
    rw [injectDeletedAtSelect, h]
  obtain ⟨selected, hselection, hmem⟩ := exists_selection_of_absent m
    (p := p) fun fields => by rw [h]; exact nofun
  rw [(findUnique_of_ok hmodel hinject hselection).1, findFirst_of_ok hmodel hselection,
    guarded_of_mem hmem]

/-- Where the selection is `null`. -/
theorem findUnique_of_null (h : p.select = .null) :
    findUnique model m rows key p ≠ findFirst model m rows key.cond p := by
  have hinject : injectDeletedAtSelect p = .error .typeError := by
    rw [injectDeletedAtSelect, h]
  obtain ⟨selected, hselection, -⟩ := exists_selection_of_absent m
    (p := p) fun fields => by rw [h]; exact nofun
  rw [(findUnique_of_inject_error hmodel hinject).1, findFirst_of_ok hmodel hselection]
  exact nofun

/-- Where fields are selected and relations are included. -/
theorem findUnique_of_exclusive {relations : Fields A} (h : p.select = .given fields)
    (hincludes : p.includes = .given relations) :
    findUnique model m rows key p = findFirst model m rows key.cond p := by
  have hselection : ∀ q : Projection A, (∃ fields, q.select = .given fields) →
      q.includes = .given relations → m.selection q = .error .mutuallyExclusive := by
    rintro q ⟨fields, hq⟩ hincludes
    rw [Model.selection, hq, hincludes]
  obtain ⟨p', injected, hinject, hselect, hsame⟩ : ∃ p' injected,
      injectDeletedAtSelect p = .ok (p', injected) ∧ (∃ fields, p'.select = .given fields) ∧
        p'.includes = p.includes := by
    rw [injectDeletedAtSelect, h]
    by_cases hmem : "deletedAt" ∈ fields.map Prod.fst
    · exact ⟨p, false, if_pos hmem, ⟨fields, h⟩, rfl⟩
    · exact ⟨_, true, if_neg hmem, ⟨_, rfl⟩, rfl⟩
  rw [(findUnique_of_error hmodel hinject (hselection p' hselect (hsame.trans hincludes))).1,
    findFirst_of_error hmodel (hselection p ⟨fields, h⟩ hincludes)]

/-- The read by a unique key returns what the filtered read returns, for faithful projections. -/
theorem findUnique_eq_findFirst_iff :
    findUnique model m rows key p = findFirst model m rows key.cond p ↔ Faithful m rows key p := by
  unfold Faithful
  cases h : p.select with
  | absent => exact iff_of_true (findUnique_of_absent hmodel h) trivial
  | null => exact iff_of_false (findUnique_of_null hmodel h) id
  | given fields =>
    have hgiven : (∀ relations, p.includes ≠ .given relations) →
        (findUnique model m rows key p = findFirst model m rows key.cond p ↔
          if fields.requested = [] then "deletedAt" ∈ fields.map Prod.fst
          else fields.HidesDeletedAt → ∀ r ∈ rows.find? key.cond, m.deletedAt r = none) := by
      intro hincludes
      by_cases hmem : "deletedAt" ∈ fields.map Prod.fst
      · rw [findUnique_of_mem hmodel h hmem hincludes]
        split
        · exact iff_of_true (fun hne => absurd ‹_› hne) hmem
        · exact ⟨fun hall => hall ‹_›, fun hall _ => hall⟩
      · rw [findUnique_of_notMem hmodel h hmem hincludes]
        split
        · exact iff_of_false (fun hne => hne ‹_›) hmem
        · exact iff_of_true ‹_› fun hhides => absurd hhides.1 hmem
    cases hincludes : p.includes with
    | given relations => exact iff_of_true (findUnique_of_exclusive hmodel h hincludes) trivial
    | absent => exact hgiven fun relations => by rw [hincludes]; exact nofun
    | null => exact hgiven fun relations => by rw [hincludes]; exact nofun

end Refinement

/-- **Reads by a unique key refine filtered reads** exactly where the projection is faithful; the one
that throws always throws where the other one finds nothing. -/
theorem findUnique_refines_iff {model : ModelName} (hmodel : isSoftDelete model = true)
    (m : Model R A V) (rows : List R) (key : UniqueKey rows) (p : Projection A) :
    (findUnique model m rows key p = findFirst model m rows key.cond p ∧
        (findUniqueOrThrow model m rows key p = .error .notFound ↔
          findUnique model m rows key p = .ok none)) ↔ Faithful m rows key p :=
  (and_iff_left (findUniqueOrThrow_eq_notFound_iff hmodel)).trans (findUnique_eq_findFirst_iff hmodel)

/-! ## A user -/

namespace Sample

/-- Users as pairs of a key and a deletion date. -/
def users : Model (ℕ × Option Timestamp) Unit ℕ :=
  ⟨["id", "deletedAt"], Prod.snd, fun _ _ r => r.1, by decide, by decide⟩

/-- The user `1`, deleted on the day `5`. -/
def deleted : List (ℕ × Option Timestamp) := [(1, some 5)]

def key : UniqueKey deleted := ⟨fun r => r.1 = 1, by simp [deleted]⟩

/-- The key without the deletion date. -/
def hidden : Projection Unit := ⟨.given [("id", .yes), ("deletedAt", .no)], .absent⟩

end Sample

/-- The condition fails where the deletion date is hidden. -/
theorem findUnique_refines_iff_hidden :
    (findUnique .user Sample.users Sample.deleted Sample.key Sample.hidden =
        findFirst .user Sample.users Sample.deleted Sample.key.cond Sample.hidden ∧
      (findUniqueOrThrow .user Sample.users Sample.deleted Sample.key Sample.hidden =
          .error .notFound ↔
        findUnique .user Sample.users Sample.deleted Sample.key Sample.hidden = .ok none)) ↔
      Faithful Sample.users Sample.deleted Sample.key Sample.hidden :=
  findUnique_refines_iff rfl Sample.users Sample.deleted Sample.key Sample.hidden

/-- **A deleted user is found** where the caller does not want to see the deletion date. -/
theorem findUnique_deleted :
    findUnique .user Sample.users Sample.deleted Sample.key Sample.hidden =
        .ok (some [("id", .other 1)]) ∧
      findFirst .user Sample.users Sample.deleted Sample.key.cond Sample.hidden = .ok none :=
  ⟨rfl, rfl⟩

end AccountingApi.SoftDelete
