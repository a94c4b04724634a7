import AccountingApi.ChartOfAccounts
import AccountingApi.PostedAccounts
import AccountingApi.ReadCommitted.UniqueIndex

/-!
# The chart of accounts under concurrent requests

A new account is put under a header that its request has read before, and its code and role are looked
for before the insert. The header may be deleted in between; that it is no postable account cannot
change, and the unique indexes catch what the look-up has missed. So in every interleaving the accounts
form a forest under headers that carry no posted lines.

## Main definitions

* `Account.entries`: the entries of an account in the unique indexes
* `Added`, `Charts`: what a request has checked of the account it adds, and how commits write accounts
* `IsHeaderOf`, `AccountTree`: the forest of the accounts

## Main results

* `charts_of_reachable`: how the commits of a run write accounts
* `accountTree_of_reachable`: the chart of every reachable state
* `headers_unposted_of_reachable`: no posted line is on a header
-/

namespace AccountingApi

open ReadCommitted Accounts Posting

/-! ## Statements -/

/-- The entry of a role in the unique index, which holds roles that one account at most may have. -/
def roleEntries : Option AccountRole → List LockName
  | none => []
  | some role => if isSingleton (some role) = true then [.accountRole role] else []

/-- The entries of an account in the unique indexes. -/
def Account.entries (a : Account) : List LockName := .accountCode a.code :: roleEntries a.role

/-- The request has read the account as a header. -/
def SawHeader (c : Commit) (id : Uuid) : Prop :=
  Saw c .account fun s => ∃ b, Db.liveAccount s id = some b ∧ b.isPostable = false

/-- What a request has checked of an account that it adds. -/
structure Added (c : Commit) (a : Account) : Prop where
  subtype : a.subtype ∈ a.type.subtypes
  header : ∀ p ∈ a.parentId, SawHeader c p

/-- The accounts of a commit are entered into the unique indexes, and the new ones are checked. -/
structure Charts (c : Commit) : Prop where
  enters : Enters accounts Account.entries c
  added : ∀ id a, Db.account c.before id = none → Db.account c.after id = some a → Added c a

/-- The account `id` is directly under the account `p`. -/
def IsHeaderOf (db : Db) (p id : Uuid) : Prop :=
  ∃ a, Db.account db id = some a ∧ a.parentId = some p

/-- **The chart of accounts**, with the deleted accounts: codes are unique, and so are the roles that
one account at most may have; each account has a subtype of its type and is under a header, if any;
and going up from an account ends. -/
structure AccountTree (db : Db) : Prop where
  unique : UniqueAccounts db
  subtype : ∀ id a, Db.account db id = some a → a.subtype ∈ a.type.subtypes
  header : ∀ p id, IsHeaderOf db p id → ∃ b, Db.account db p = some b ∧ b.isPostable = false
  wellFounded : WellFounded (IsHeaderOf db)

/-! ## The table -/

section Rows

variable {db : Db} {id : Uuid} {a : Account}

theorem account_eq_get (db : Db) (id : Uuid) : Db.account db id = accounts.get db id := by
  change db.row (.account id) = (db.row (.account id)).map fun a => a
  rw [Option.map_id']

@[simp] theorem mem_roleEntries {role : Option AccountRole} {x : LockName} :
    x ∈ roleEntries role ↔ ∃ r, role = some r ∧ isSingleton (some r) = true ∧ x = .accountRole r := by
  cases role with
  | none => simp [roleEntries]
  | some r =>
    by_cases hsingle : isSingleton (some r) = true
    · simp [roleEntries, hsingle]
    · simp [roleEntries, hsingle]

@[simp] theorem mem_entries {x : LockName} :
    x ∈ a.entries ↔ x = .accountCode a.code ∨
      ∃ r, a.role = some r ∧ isSingleton (some r) = true ∧ x = .accountRole r := by
  rw [Account.entries, List.mem_cons, mem_roleEntries]

theorem mem_accountsWithCode_iff {code : String} (db : Db) (id : Uuid) :
    id ∈ Db.accountsWithCode db code ↔
      ∃ a, accounts.get db id = some a ∧ LockName.accountCode code ∈ a.entries := by
  rw [mem_accountsWithCode]
  refine exists_congr fun a => and_congr (by rw [account_eq_get]) ?_
  simp only [mem_entries, LockName.accountCode.injEq, reduceCtorEq, and_false, exists_false, or_false]
  exact eq_comm

theorem mem_accountsWithRole_iff {role : AccountRole} (hsingle : isSingleton (some role) = true)
    (db : Db) (id : Uuid) : id ∈ Db.accountsWithRole db role ↔
      ∃ a, accounts.get db id = some a ∧ LockName.accountRole role ∈ a.entries := by
  rw [mem_accountsWithRole]
  refine exists_congr fun a => and_congr (by rw [account_eq_get]) ?_
  simp only [mem_entries, reduceCtorEq, LockName.accountRole.injEq, false_or]
  constructor
  · exact fun hrole => ⟨role, hrole, hsingle, rfl⟩
  · rintro ⟨r, hrole, -, rfl⟩
    exact hrole

/-- The unique indexes of the schema are one index over the entries. -/
theorem uniqueAccounts_iff : UniqueAccounts db ↔ Unique accounts Account.entries db := by
  constructor
  · intro h i a ha x hx j b hb hxb
    rw [← account_eq_get] at ha hb
    by_contra hne
    refine h i a ha ⟨j, b, hb, hne, ?_⟩
    rcases mem_entries.mp hx with rfl | ⟨role, hrole, hsingle, rfl⟩
    · simp only [mem_entries, LockName.accountCode.injEq, reduceCtorEq, and_false, exists_false,
        or_false] at hxb
      exact .inl hxb.symm
    · simp only [mem_entries, LockName.accountRole.injEq, reduceCtorEq, false_or] at hxb
      obtain ⟨r, hr, -, rfl⟩ := hxb
      exact .inr ⟨by rw [hrole, hsingle], by rw [hrole, hr]⟩
  · rintro h id a ha ⟨other, b, hb, hne, hsame⟩
    rw [account_eq_get] at ha hb
    rcases hsame with hcode | ⟨hsingle, hrole⟩
    · exact hne (h id a ha (.accountCode a.code) (by simp) other b hb (by simp [hcode]))
    · obtain ⟨r, hr⟩ : ∃ r, a.role = some r := by
        rw [← Option.isSome_iff_exists]
        cases hrole' : a.role with
        | none => rw [hrole'] at hsingle; cases hsingle
        | some r => rfl
      rw [hr] at hsingle hrole
      exact hne (h id a ha (.accountRole r) (by simp [hr, hsingle]) other b hb
        (by simp [hrole, hsingle]))

end Rows

/-! ## Requests -/

/-- The protocol of the API, with what it guarantees of the accounts. -/
abbrev chartProtocol : Protocol Row LockName Query Request := (protocol False).also Charts

section Requests

variable {strict : Prop} {r : Request} {ℓ : Tx}

/-- A commit that writes one account. -/
theorem Charts.of_write {c : Commit} {id : Uuid} {a : Account} (hwrites : c.writes = [⟨.account id, a⟩])
    (henters : ∀ x ∈ a.entries,
      (∃ a₀, accounts.get c.before id = some a₀ ∧ x ∈ a₀.entries) ∨
        (.named x, .exclusive) ∈ c.locks ∧ OnlyAt accounts Account.entries c.after id x)
    (hadded : Db.account c.before id = none → Added c a) : Charts c where
  enters := Enters.of_write (t := accounts) (i := id) hwrites henters
  added := by
    intro id' a' hnone ha
    rw [Commit.after, hwrites, Store.putAll_cons, Store.putAll_nil, account_put] at ha
    split at ha
    · rename_i hid
      subst hid
      cases ha
      exact hadded hnone
    · cases hnone.symm.trans ha

/-- The header an account is put under. -/
theorem wp_header {P : Protocol Row LockName Query Request} {parentCode : Option String}
    {post : Option Uuid → Tx → Prop} (hnew : ℓ.published = false) (hbuf : ℓ.buf = [])
    (h : ∀ parentId ℓ', ℓ.Ran P r ℓ' [] (fun c => ∀ p ∈ parentId, SawHeader c p) →
      post parentId ℓ') :
    (resolveParent parentCode).wp P r ℓ post := by
  cases parentCode with
  | none => exact h none ℓ ((Local.Ran.refl hnew).mono fun _ _ => nofun)
  | some code =>
    refine Prog.wp_bind.mpr (wp_read hnew hbuf fun s ℓ₁ h₁ => ?_)
    refine Prog.wp_bind.mpr (Prog.wp_orThrow h₁.new fun parent hparent => ?_)
    refine Prog.wp_bind.mpr (Prog.wp_ensure h₁.new fun hheader => h (some parent.1) ℓ₁ ?_)
    refine h₁.mono ?_
    rintro c ⟨hseen, -⟩ _ ⟨⟩
    obtain ⟨hrow, hlive⟩ := mem_accounts.mp (List.mem_of_find?_eq_some hparent)
    exact ⟨s, hseen, parent.2,
      Option.filter_eq_some_iff.mpr ⟨hrow, Option.isNone_iff_eq_none.mpr hlive⟩, hheader⟩

theorem enters_of_guar (c : Commit) (h : chartProtocol.guar c) :
    Enters accounts Account.entries c := h.2.enters

/-- The check of the unique index on the codes. -/
theorem wp_enterCode {id : Uuid} {code : String} {post : Unit → Tx → Prop}
    (hnew : ℓ.published = false)
    (h : ∀ ℓ', ℓ.Ran chartProtocol r ℓ' [] (fun c => (.named (.accountCode code), .exclusive) ∈ c.locks ∧
      OnlyAt accounts Account.entries (c.before.putAll ℓ.buf) id (.accountCode code)) →
      post () ℓ') :
    (uniqueCode id code).wp chartProtocol r ℓ post :=
  Prog.wp_onlyAt enters_of_guar mem_accountsWithCode_iff hnew h

/-- The check of the unique index on the roles. -/
theorem wp_enterRole {id : Uuid} {role : Option AccountRole} {post : Unit → Tx → Prop}
    (hnew : ℓ.published = false)
    (h : ∀ ℓ', ℓ.Ran chartProtocol r ℓ' [] (fun c => ∀ x ∈ roleEntries role,
      (.named x, .exclusive) ∈ c.locks ∧
        OnlyAt accounts Account.entries (c.before.putAll ℓ.buf) id x) → post () ℓ') :
    (uniqueRole id role).wp chartProtocol r ℓ post := by
  cases role with
  | none => exact h ℓ ((Local.Ran.refl hnew).mono fun _ _ => nofun)
  | some role =>
    refine Prog.wp_when (fun hsingle => ?_) fun hno => h ℓ ((Local.Ran.refl hnew).mono fun _ _ => ?_)
    · refine Prog.wp_onlyAt enters_of_guar (mem_accountsWithRole_iff hsingle) hnew fun ℓ' h' => ?_
      refine h ℓ' (h'.mono fun c hc => ?_)
      rw [roleEntries, if_pos hsingle]
      exact List.forall_mem_singleton.mpr hc
    · rw [roleEntries, if_neg hno]
      exact nofun

/-- **A creation** enters its account under the locks of its code and its role. -/
theorem createAccount_charts (input : CreateInput) (id : Uuid) :
    (code (.createAccount input id)).wp chartProtocol (.createAccount input id) {}
      fun _ _ => True := by
  refine wp_respond (Prog.wp_bind.mpr (Prog.wp_ensure rfl fun hsubtype => ?_))
  refine Prog.wp_bind.mpr (wp_read rfl rfl fun _ ℓ₁ h₁ => ?_)
  refine Prog.wp_bind.mpr (Prog.wp_ensure h₁.new fun _ => ?_)
  have b₁ := buf_of_ran h₁ rfl
  refine Prog.wp_bind.mpr (wp_assertRoleFree h₁.new b₁ fun ℓ₂ h₂ => ?_)
  have b₂ := buf_of_ran h₂ b₁
  refine Prog.wp_bind.mpr (wp_header h₂.new b₂ fun parentId ℓ₃ h₃ => ?_)
  have b₃ := buf_of_ran h₃ b₂
  refine Prog.wp_mapThrow.mpr (wp_transaction ?_)
  refine Prog.wp_bind.mpr (wp_insert h₃.new fun ℓ₄ _ h₄ => ?_)
  refine Prog.wp_bind.mpr (wp_enterCode h₄.new fun ℓ₅ h₅ => ?_)
  refine Prog.wp_bind.mpr (wp_enterRole h₅.new fun ℓ₆ h₆ db hs => ⟨?_, trivial⟩)
  have b₅ : ℓ₅.buf = ℓ₄.buf := by rw [h₅.buf, List.append_nil]
  have b₄ : ℓ₄.buf = [⟨.account id, newAccount input parentId⟩] := by rw [h₄.buf, b₃]; rfl
  refine Local.Ran.guar (h₃.trans (h₄.trans (h₅.trans h₆))) b₂ hs fun c hreq hwrites hc => ?_
  obtain ⟨hheader, hfresh, ⟨hlock, hcode⟩, hroles⟩ := hc
  change c.writes = [⟨.account id, newAccount input parentId⟩] at hwrites
  rw [b₃, Store.putAll_nil] at hfresh
  rw [b₄, ← hwrites] at hcode
  rw [b₅, b₄, ← hwrites] at hroles
  refine ⟨.account id _ (.create input parentId hreq hfresh) hwrites, ?_⟩
  refine Charts.of_write hwrites (fun x hx => .inr ?_) fun _ => ⟨hsubtype, hheader⟩
  -- all the entries of the new account are looked for under their locks
  rcases List.mem_cons.mp hx with rfl | hx
  · exact ⟨hlock, hcode⟩
  · exact hroles x hx

/-- **A deletion** enters its account under the lock of the code with the suffix. -/
theorem deleteAccount_charts (id user : Uuid) (now : Timestamp) :
    (code (.deleteAccount id user now)).wp chartProtocol (.deleteAccount id user now) {}
      fun _ _ => True := by
  refine wp_respond (Prog.wp_bind.mpr (wp_findById rfl rfl fun account ℓ₁ h₁ => ?_))
  have b₁ := buf_of_ran h₁ rfl
  refine Prog.wp_bind.mpr (wp_read h₁.new b₁ fun s ℓ₂ h₂ => ?_)
  refine Prog.wp_bind.mpr (Prog.wp_ensure h₂.new fun hcount => wp_transaction ?_)
  have b₂ := buf_of_ran h₂ b₁
  refine Prog.wp_bind.mpr (wp_updateRow h₂.new fun a ℓ₃ hlive _ h₃ => ?_)
  refine wp_enterCode h₃.new fun ℓ₄ h₄ db hs => ⟨?_, trivial⟩
  have b₃ : ℓ₃.buf = [⟨.account id, tombstone id account.code user now a⟩] := by rw [h₃.buf, b₂]; rfl
  refine Local.Ran.guar (h₂.trans (h₃.trans h₄)) b₁ hs fun c hreq hwrites hc => ?_
  obtain ⟨⟨hseen, -⟩, hrow, hlock, hcode⟩ := hc
  change c.writes = [⟨.account id, tombstone id account.code user now a⟩] at hwrites
  rw [b₂, Store.putAll_nil] at hrow
  rw [b₃, ← hwrites] at hcode
  refine ⟨.account id _ (.delete user now account.code a hreq ⟨s, hseen, hcount⟩ hrow hlive) hwrites,
    ?_⟩
  refine Charts.of_write hwrites (fun x hx => ?_) fun hnone => by cases hnone.symm.trans hrow
  rcases List.mem_cons.mp hx with rfl | hx
  · exact .inr ⟨hlock, hcode⟩
  · -- the role is the one the account has had
    exact .inl ⟨a, (account_eq_get c.before id).symm.trans hrow, List.mem_cons_of_mem _ hx⟩

/-- The other requests give no account a new entry, and add none. -/
theorem Transacts.charts {c : Commit} (h : Transacts strict c)
    (hcreate : ∀ input id, c.req ≠ .createAccount input id)
    (hdelete : ∀ id user now, c.req ≠ .deleteAccount id user now) : Charts c := by
  have hkept : ∀ id a, Db.account c.after id = some a →
      ∃ a₀, Db.account c.before id = some a₀ ∧ a.entries = a₀.entries := by
    intro id a ha
    rcases h.account_after id with hsame | ⟨a', hchange, hafter, -⟩
    · exact ⟨a, hsame.symm.trans ha, rfl⟩
    · obtain rfl : a' = a := Option.some.inj (hafter.symm.trans ha)
      cases hchange with
      | create input _ req => exact absurd req (hcreate input id)
      | update input a₀ _ current => exact ⟨a₀, current, rfl⟩
      | delete user now _ _ req => exact absurd req (hdelete id user now)
  constructor
  · refine Enters.of_kept fun id a ha => ?_
    rw [← account_eq_get] at ha
    obtain ⟨a₀, ha₀, hsame⟩ := hkept id a ha
    exact ⟨a₀, (account_eq_get c.before id).symm.trans ha₀, hsame ▸ List.Subset.refl _⟩
  · intro id a hnone ha
    obtain ⟨a₀, ha₀, -⟩ := hkept id a ha
    cases hnone.symm.trans ha₀

/-- **Every request** enters its accounts into the unique indexes and adds them under headers. -/
theorem code_charts (r : Request) : (code r).wp chartProtocol r {} fun _ _ => True := by
  by_cases hcreate : ∃ input id, r = .createAccount input id
  · obtain ⟨input, id, rfl⟩ := hcreate
    exact createAccount_charts input id
  by_cases hdelete : ∃ id user now, r = .deleteAccount id user now
  · obtain ⟨id, user, now, rfl⟩ := hdelete
    exact deleteAccount_charts id user now
  refine Prog.wp_also (code_wp False r) fun c hreq hguar => ?_
  subst hreq
  exact hguar.charts (fun input id h => hcreate ⟨input, id, h⟩)
    fun id user now h => hdelete ⟨id, user, now, h⟩

end Requests

/-! ## Commits -/

/-- What an account keeps. -/
structure Account.Keeps (a a' : Account) : Prop where
  type : a'.type = a.type
  subtype : a'.subtype = a.subtype
  parentId : a'.parentId = a.parentId
  isPostable : a'.isPostable = a.isPostable

/-- The accounts of the one store are in the other one, with their types, and where they stand. -/
def ChartKept (s db : Db) : Prop :=
  ∀ id a, Db.account s id = some a → ∃ a', Db.account db id = some a' ∧ a.Keeps a'

theorem ChartKept.refl (db : Db) : ChartKept db db := fun _ a ha => ⟨a, ha, rfl, rfl, rfl, rfl⟩

theorem ChartKept.trans {s t u : Db} (h : ChartKept s t) (h' : ChartKept t u) : ChartKept s u := by
  intro id a ha
  obtain ⟨a₁, ha₁, hkeeps⟩ := h id a ha
  obtain ⟨a₂, ha₂, hkeeps'⟩ := h' id a₁ ha₁
  exact ⟨a₂, ha₂, hkeeps'.type.trans hkeeps.type, hkeeps'.subtype.trans hkeeps.subtype,
    hkeeps'.parentId.trans hkeeps.parentId, hkeeps'.isPostable.trans hkeeps.isPostable⟩

section Commits

variable {strict : Prop} {c : Commit}

theorem Transacts.chartKept (h : Transacts strict c) : ChartKept c.before c.after := by
  intro id a ha
  rcases h.account_after id with hsame | ⟨a', hchange, hafter, -⟩
  · exact ⟨a, hsame.trans ha, rfl, rfl, rfl, rfl⟩
  · refine ⟨a', hafter, ?_⟩
    cases hchange with
    | create _ _ _ hfresh => cases hfresh.symm.trans ha
    | update _ _ _ hcurrent =>
      obtain rfl := Option.some.inj (hcurrent.symm.trans ha)
      exact ⟨rfl, rfl, rfl, rfl⟩
    | delete _ _ _ _ _ _ hcurrent =>
      obtain rfl := Option.some.inj (hcurrent.symm.trans ha)
      exact ⟨rfl, rfl, rfl, rfl⟩

/-- What a request has read as a header is one. -/
theorem SawHeader.header {id : Uuid} (h : SawHeader c id)
    (hseen : ∀ q ∈ c.seen, ChartKept q.2 c.before) :
    ∃ b, Db.account c.before id = some b ∧ b.isPostable = false := by
  obtain ⟨s, hs, b, hb, hheader⟩ := h
  obtain ⟨b', hb', hkeeps⟩ := hseen _ hs id b (Option.filter_eq_some_iff.mp hb).1
  exact ⟨b', hb', hkeeps.isPostable.trans hheader⟩

/-- An account is under the one it was under, or new and under a header. -/
theorem IsHeaderOf.before (hc : Transacts strict c) (hcharts : Charts c)
    (hseen : ∀ q ∈ c.seen, ChartKept q.2 c.before) {p id : Uuid} (h : IsHeaderOf c.after p id) :
    IsHeaderOf c.before p id ∨ Db.account c.before id = none ∧
      ∃ b, Db.account c.before p = some b ∧ b.isPostable = false := by
  obtain ⟨a, ha, hp⟩ := h
  cases hb : Db.account c.before id with
  | none => exact .inr ⟨rfl, ((hcharts.added id a hb ha).header p hp).header hseen⟩
  | some a₀ =>
    obtain ⟨a', ha', hkeeps⟩ := hc.chartKept id a₀ hb
    obtain rfl : a' = a := Option.some.inj (ha'.symm.trans ha)
    exact .inl ⟨a₀, hb, hkeeps.parentId.symm.trans hp⟩

/-- **A commit keeps the chart.** -/
theorem AccountTree.after (h : AccountTree c.before) (hc : Transacts strict c) (hcharts : Charts c)
    (hseen : ∀ q ∈ c.seen, ChartKept q.2 c.before) : AccountTree c.after where
  unique := by
    rw [uniqueAccounts_iff]
    exact (uniqueAccounts_iff.mp h.unique).after hcharts.enters
  subtype := by
    intro id a ha
    cases hb : Db.account c.before id with
    | none => exact (hcharts.added id a hb ha).subtype
    | some a₀ =>
      obtain ⟨a', ha', hkeeps⟩ := hc.chartKept id a₀ hb
      obtain rfl : a' = a := Option.some.inj (ha'.symm.trans ha)
      rw [hkeeps.type, hkeeps.subtype]
      exact h.subtype id a₀ hb
  header := by
    intro p id hp
    have hbefore : ∃ b, Db.account c.before p = some b ∧ b.isPostable = false := by
      rcases hp.before hc hcharts hseen with hp | ⟨-, hp⟩
      · exact h.header p id hp
      · exact hp
    obtain ⟨b, hb, hheader⟩ := hbefore
    obtain ⟨b', hb', hkeeps⟩ := hc.chartKept p b hb
    exact ⟨b', hb', hkeeps.isPostable.trans hheader⟩
  wellFounded := by
    -- the accounts that were there: what is above them was there, too
    have hold : ∀ id a, Db.account c.before id = some a → Acc (IsHeaderOf c.after) id := by
      intro id
      induction id using h.wellFounded.induction with
      | _ id ih =>
        intro a ha
        refine ⟨id, fun p hp => ?_⟩
        rcases hp.before hc hcharts hseen with hp | ⟨hnone, -⟩
        · obtain ⟨b, hb, -⟩ := h.header p id hp
          exact ih p hp b hb
        · cases hnone.symm.trans ha
    refine ⟨fun id => ⟨id, fun p hp => ?_⟩⟩
    rcases hp.before hc hcharts hseen with hp | ⟨-, b, hb, -⟩
    · obtain ⟨b, hb, -⟩ := h.header p id hp
      exact hold p b hb
    · exact hold p b hb

/-! ## Postings -/

/-- The posted lines are on accounts that can be posted to, deleted or not. -/
def PostedOnPostable (db : Db) : Prop :=
  ∀ id e, Db.entry db id = some e → e.status ≠ .draft → ∀ l ∈ e.lines,
    ∃ a, Db.account db l.accountId = some a ∧ a.isPostable = true

/-- The accounts of lines that a posting has checked can be posted to when it commits. -/
theorem Vetted.postable {lines : List JournalLine} (h : Vetted c lines)
    (hseen : ∀ q ∈ c.seen, ChartKept q.2 c.before) :
    ∀ l ∈ lines, ∃ a, Db.account c.before l.accountId = some a ∧ a.isPostable = true := by
  intro l hl
  obtain ⟨s, hs, hok⟩ := h.accounts
  have hmem : l.accountId ∈ ((draftLines lines).map (·.accountId)).eraseDups := by
    rw [List.mem_eraseDups, draftLines, List.map_map]
    exact List.mem_map.mpr ⟨l, hl, rfl⟩
  obtain ⟨a, ha, hpostable, -⟩ := checkAccounts_eq_ok_iff.mp hok _ hmem
  obtain ⟨a', ha', hkeeps⟩ := hseen _ hs _ a (Option.filter_eq_some_iff.mp ha).1
  exact ⟨a', ha', hkeeps.isPostable.trans hpostable⟩

/-- **A commit posts on postable accounts.** -/
theorem PostedOnPostable.after (h : PostedOnPostable c.before) (hc : Transacts strict c)
    (hseen : ∀ q ∈ c.seen, ChartKept q.2 c.before) : PostedOnPostable c.after := by
  -- an account that can be posted to stays so
  have hstays : ∀ {accountId : Uuid},
      (∃ a, Db.account c.before accountId = some a ∧ a.isPostable = true) →
      ∃ a, Db.account c.after accountId = some a ∧ a.isPostable = true := by
    rintro accountId ⟨a, ha, hpostable⟩
    obtain ⟨a', ha', hkeeps⟩ := hc.chartKept accountId a ha
    exact ⟨a', ha', hkeeps.isPostable.trans hpostable⟩
  intro id e he hnot l hl
  cases hb : Db.entry c.before id with
  | none =>
    rcases (hc.entryNew hb he).vetted hnot with hvetted | ⟨t, -, rfl⟩
    · exact hstays (hvetted.postable hseen l hl)
    · -- a reversal is on the accounts of its original
      rw [t.mirrors.2] at hl
      obtain ⟨l', hl', rfl⟩ := List.mem_map.mp hl
      exact hstays (h _ _ t.reversed.original t.reversed.notDraft l' hl')
  | some e₀ =>
    obtain ⟨e₁, he₁, hnext⟩ := hc.entryNext hb
    obtain rfl : e = e₁ := Option.some.inj (he ▸ he₁)
    have hlines := hnext.entryStep.lines.2
    by_cases hdraft : e₀.status = .draft
    · cases hnext with
      | reverse t hid ho => exact absurd (ho ▸ hdraft) t.reversed.notDraft
      | step _ _ hvetted =>
        exact hstays ((hlines ▸ hvetted hdraft hnot : Vetted c e.lines).postable hseen l hl)
    · rw [hlines] at hl
      exact hstays (h id e₀ hb hdraft l hl)

end Commits

section NoLines

variable {db : Db} {accountId : Uuid}

/-- An account without a posted line. -/
theorem postedLines_of_no_line (h : ∀ id e, Db.entry db id = some e → e.status ≠ .draft →
    ∀ l ∈ e.lines, l.accountId ≠ accountId) : Db.postedLines db accountId = 0 := by
  refine List.sum_eq_zero fun n hn => ?_
  obtain ⟨k, v, hv, hk⟩ := Store.mem_collect.mp hn
  cases k <;> simp only [Option.ite_none_right_eq_some, reduceCtorEq, Option.some.injEq] at hk
  rename_i id
  obtain ⟨hposted, rfl⟩ := hk
  refine List.length_eq_zero_iff.mpr (List.filter_eq_nil_iff.mpr fun l hl => ?_)
  have hnot : v.status ≠ .draft := by
    rintro hdraft
    rw [hdraft] at hposted
    rcases hposted with hposted | hposted <;> cases hposted
  simpa using h id v ((Db.entry_eq_row db id).trans hv) hnot l hl

/-- Its sums are zero. -/
theorem sideOn_of_no_line (hcoh : Coherent db)
    (h : ∀ id e, Db.entry db id = some e → e.status ≠ .draft → ∀ l ∈ e.lines,
      l.accountId ≠ accountId) (side : JournalLine → ℤ) (days : UtcDay → Prop) [DecidablePred days] :
    Db.sideOn db accountId side days = 0 := by
  refine sideOn_of_not_hasLine (Bool.eq_false_iff.mpr fun hline => ?_) side
  obtain ⟨id, e, he, hcounts, -, l, hl, hid⟩ := hasLine_iff.mp hline
  exact h id e he (fun hdraft => hcounts.1 ((hcoh.entry he).posted.mp hdraft)) l hl hid

end NoLines

/-! ## Runs -/

section Runs

variable {policy : Policy Row LockName Query Failure Response Request} {db₀ : Db} {s : Server}

/-- **How the commits of a run write accounts.** -/
theorem charts_of_reachable (h : Reachable code policy db₀ s) : ∀ c ∈ s.history, Charts c :=
  ReadCommitted.Reachable.also h code_charts fun _ _ => False.elim

/-- What the accounts keep, in every store of a run. -/
theorem accountTree_always {I : Db → Prop} (h : Reachable code policy db₀ s) (h₀ : I db₀)
    (hstep : ∀ c, Transacts False c → Charts c → (∀ q ∈ c.seen, ChartKept q.2 c.before) →
      I c.before → I c.after) : I s.db := by
  refine (chain_of_reachable h).always (D := ChartKept) ChartKept.refl
    (fun _ _ _ => ChartKept.trans) (fun _ hc => hc.chartKept) h₀ ?_ _ (chain_of_reachable h).past_self
  intro c hc hguar hI hseen
  exact hstep c hguar (charts_of_reachable h c hc) (fun q hq => (hseen q hq).2) hI

/-- Every commit keeps the chart. -/
theorem accountTree_kept (hchart : AccountTree db₀) (h : Reachable code policy db₀ s) :
    AccountTree s.db :=
  accountTree_always h hchart fun _ hc hcharts hseen hI => hI.after hc hcharts hseen

/-- **The chart of accounts of every reachable state**, in any interleaving: no two accounts, deleted or
not, share a code or a role that one account at most may have; and the accounts form a forest under
accounts that cannot be posted to. -/
theorem accountTree_of_reachable (hchart : AccountTree db₀) (h : Reachable code policy db₀ s) :
    AccountTree s.db :=
  accountTree_kept hchart h

/-- **No header is posted to**, in any interleaving: every posted line is on a postable account, and the
balances of an account that another one is under are zero over any days. -/
theorem headers_unposted_of_reachable (h₀ : Initial db₀) (hchart : AccountTree db₀)
    (h : Reachable code policy db₀ s) {p id : Uuid} (hp : IsHeaderOf s.db p id) :
    Db.postedLines s.db p = 0 ∧ ∀ (side : JournalLine → ℤ) (days : UtcDay → Prop) [DecidablePred days],
      Db.sideOn s.db p side days = 0 := by
  obtain ⟨hI, hposted⟩ : AccountTree s.db ∧ PostedOnPostable s.db := by
    refine accountTree_always (I := fun db => AccountTree db ∧ PostedOnPostable db) h ⟨hchart, ?_⟩ ?_
    · intro id e he
      rw [h₀.entry] at he
      cases he
    · exact fun c hc hcharts hseen hI => ⟨hI.1.after hc hcharts hseen, hI.2.after hc hseen⟩
  obtain ⟨b, hb, hheader⟩ := hI.header p id hp
  have hnone : ∀ id e, Db.entry s.db id = some e → e.status ≠ .draft → ∀ l ∈ e.lines,
      l.accountId ≠ p := by
    rintro id e he hnot l hl rfl
    obtain ⟨a, ha, hpostable⟩ := hposted id e he hnot l hl
    obtain rfl : b = a := Option.some.inj (hb.symm.trans ha)
    rw [hheader] at hpostable
    cases hpostable
  exact ⟨postedLines_of_no_line hnone,
    fun side days _ => sideOn_of_no_line (coherent_of_reachable h₀ h) hnone side days⟩

end Runs

namespace Sample

/-- The accounts of the sample company are in no tree yet. -/
theorem accountTree : AccountTree db := by
  have hrow : ∀ id a, Db.account db id = some a → (id, a) ∈ accounts.writes rows := by
    intro id a ha
    rw [account_eq_get, db, accounts.get_putAll] at ha
    exact mem_of_overwrite ha nofun
  have hflat : ∀ x ∈ accounts.writes rows,
      x.2.parentId = none ∧ x.2.subtype ∈ x.2.type.subtypes := by decide +kernel
  have hunique : ∀ x ∈ accounts.writes rows, ∀ e ∈ x.2.entries,
      ∀ y ∈ accounts.writes rows, e ∈ y.2.entries → y.1 = x.1 := by decide +kernel
  have hno : ∀ p id, ¬ IsHeaderOf db p id := by
    rintro p id ⟨a, ha, hp⟩
    rw [(hflat _ (hrow id a ha)).1] at hp
    cases hp
  refine ⟨uniqueAccounts_iff.mpr fun i a ha x hx j b hb => ?_, fun id a ha => (hflat _ (hrow id a ha)).2,
    fun p id hp => absurd hp (hno p id), ⟨fun id => ⟨id, fun p hp => absurd hp (hno p id)⟩⟩⟩
  rw [← account_eq_get] at ha hb
  exact hunique _ (hrow i a ha) x hx _ (hrow j b hb)

/-- An account that cannot be posted to. -/
def header (code : String) : CreateInput :=
  ⟨code, "Cash and banks", .asset, .currentAsset, .debit, none, none, some false, none⟩

/-- An account under another one. -/
def underHeader (code parentCode : String) : CreateInput :=
  ⟨code, "Bank", .asset, .currentAsset, .debit, none, some .cash, none, some parentCode⟩

/-- A header that is deleted while an account is put under it; its code is used again. -/
def headerDeleted : List (Event Request) :=
  request 0 (.createAccount (header "1000") 30) 6 ++
    .spawn (.createAccount (underHeader "1001" "1000") 31) :: List.replicate 2 (.step 1) ++
    request 2 (.deleteAccount 30 9 1) 7 ++ List.replicate 5 (.step 1) ++
    request 3 (.createAccount (header "1000") 32) 6

end Sample

theorem accountTree_of_reachable_headerDeleted :
    (Sample.server Sample.headerDeleted).history.length = 4 ∧
      AccountTree (Sample.server Sample.headerDeleted).db :=
  ⟨by decide +kernel,
    accountTree_of_reachable Sample.accountTree (Sample.reachable (by decide +kernel))⟩

/-- The deleted header is not posted to. -/
theorem headers_unposted_of_reachable_headerDeleted :
    Db.liveAccount (Sample.server Sample.headerDeleted).db 30 = none ∧
      Db.postedLines (Sample.server Sample.headerDeleted).db 30 = 0 := by
  have hunder : IsHeaderOf (Sample.server Sample.headerDeleted).db 30 31 := by
    have hparent : (Db.account (Sample.server Sample.headerDeleted).db 31).bind (·.parentId) =
        some 30 := by decide +kernel
    exact Option.bind_eq_some_iff.mp hparent
  have hunposted := headers_unposted_of_reachable Sample.initial Sample.accountTree
    (Sample.reachable (by decide +kernel)) hunder
  exact ⟨by decide +kernel, hunposted.1⟩

end AccountingApi
