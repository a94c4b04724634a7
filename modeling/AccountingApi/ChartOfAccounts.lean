import AccountingApi.Ledger.Accounts
import AccountingApi.ReadCommitted.Alone
import AccountingApi.Statements

/-!
# The codes and roles of accounts

The requests that create accounts look for the code and the role among the accounts that are not
deleted; the unique indexes see the deleted ones too. A deletion changes the code of an account and
leaves its role, so that the role of a deleted account is not free for another one.

## Main definitions

* `Clashes`, `UniqueAccounts`: what the unique indexes on the accounts forbid, and ensure
* `Charted`: the stores left by calls that create and delete accounts
* `HeldByDeleted`: a deleted account has the code or the role of a new one

## Main results

* `Charted.unique`: the unique indexes hold after every such call
* `create_ok_iff`: which accounts can be created
-/

namespace AccountingApi

open ReadCommitted Accounts

/-- Another account, deleted or not, has the code of the account, or its role if one account at most
may have it. -/
def Clashes (db : Db) (id : Uuid) (a : Account) : Prop :=
  ∃ other b, Db.account db other = some b ∧ other ≠ id ∧
    (b.code = a.code ∨ isSingleton a.role = true ∧ b.role = a.role)

/-- The unique indexes on the codes and the roles of the accounts. -/
def UniqueAccounts (db : Db) : Prop := ∀ id a, Db.account db id = some a → ¬ Clashes db id a

/-- The accounts that are not deleted have different codes, and different roles if one account at
most may have them. -/
def LiveDistinct (db : Db) : Prop :=
  (Db.accounts db).Pairwise fun a b =>
    a.2.code ≠ b.2.code ∧ (isSingleton a.2.role = true → a.2.role ≠ b.2.role)

/-- No account that is not deleted has the code of the new one, or its role if one account at most
may have it. -/
def Free (db : Db) (input : CreateInput) : Prop :=
  ∀ a ∈ Db.accounts db,
    a.2.code ≠ input.code ∧ (isSingleton input.role = true → a.2.role ≠ input.role)

/-- The subtype goes with the type, and the parent is a header. -/
def Admissible (db : Db) (input : CreateInput) : Prop :=
  input.subtype ∈ input.type.subtypes ∧
    ∀ code, input.parentCode.filter (fun code => code ≠ "") = some code →
      ∃ parent, (Db.accounts db).find? (fun a => a.2.code = code) = some parent ∧
        parent.2.isPostable = false

/-- A deleted account has the code of the new one, or its role if one account at most may have it. -/
def HeldByDeleted (db : Db) (input : CreateInput) : Prop :=
  ∃ id a, Db.account db id = some a ∧ a.deletedAt ≠ none ∧
    (a.code = input.code ∨ isSingleton input.role = true ∧ a.role = input.role)

/-- The stores left by calls that create and delete accounts, one after the other. -/
inductive Charted (db₀ : Db) : Db → Prop
  | start : Charted db₀ db₀
  | create {db : Db} (input : CreateInput) (id : Uuid) : Charted db₀ db →
      Charted db₀ ((Accounts.create input id).alone db).2
  | softDelete {db : Db} (id deletedBy : Uuid) (now : Timestamp) : Charted db₀ db →
      Charted db₀ ((Accounts.softDelete id deletedBy now).alone db).2

section Indexes

variable {db : Db} {id other : Uuid} {a b : Account}

theorem account_put : Db.account (db.put (.account id) a) other =
    if id = other then some a else Db.account db other := by
  by_cases h : id = other
  · subst h
    rw [if_pos rfl]
    exact Store.row_put_self _ _ _
  · rw [if_neg h]
    exact Store.row_put_of_ne _ _ fun he => h (Key.account.inj he).symm

theorem mem_accountsWithCode {code : String} :
    id ∈ Db.accountsWithCode db code ↔ ∃ a, Db.account db id = some a ∧ a.code = code := by
  rw [Db.accountsWithCode, Store.mem_collect]
  constructor
  · rintro ⟨k, v, hv, hk⟩
    cases k <;> simp only [Option.ite_none_right_eq_some, reduceCtorEq, Option.some.injEq] at hk
    obtain ⟨hcode, rfl⟩ := hk
    exact ⟨v, hv, hcode⟩
  · rintro ⟨a, ha, hcode⟩
    exact ⟨.account id, a, ha, if_pos hcode⟩

theorem mem_accountsWithRole {role : AccountRole} :
    id ∈ Db.accountsWithRole db role ↔ ∃ a, Db.account db id = some a ∧ a.role = some role := by
  rw [Db.accountsWithRole, Store.mem_collect]
  constructor
  · rintro ⟨k, v, hv, hk⟩
    cases k <;> simp only [Option.ite_none_right_eq_some, reduceCtorEq, Option.some.injEq] at hk
    obtain ⟨hrole, rfl⟩ := hk
    exact ⟨v, hv, hrole⟩
  · rintro ⟨a, ha, hrole⟩
    exact ⟨.account id, a, ha, if_pos hrole⟩

/-- The checks of the unique indexes, once the account is written. -/
theorem not_clashes_iff :
    ¬ Clashes db id a ↔
      (∀ other ∈ Db.accountsWithCode (db.put (.account id) a) a.code, other = id) ∧
      ∀ role, a.role = some role → isSingleton (some role) = true →
        ∀ other ∈ Db.accountsWithRole (db.put (.account id) a) role, other = id := by
  have hrow : ∀ {other b}, other ≠ id →
      (Db.account (db.put (.account id) a) other = some b ↔ Db.account db other = some b) := by
    intro other b hne
    rw [account_put, if_neg hne.symm]
  constructor
  · intro h
    refine ⟨fun other hother => ?_, fun role hrole hsingle other hother => ?_⟩
    · obtain ⟨b, hb, hcode⟩ := mem_accountsWithCode.mp hother
      by_contra hne
      exact h ⟨other, b, (hrow hne).mp hb, hne, .inl hcode⟩
    · obtain ⟨b, hb, hbrole⟩ := mem_accountsWithRole.mp hother
      by_contra hne
      rw [← hrole] at hsingle hbrole
      exact h ⟨other, b, (hrow hne).mp hb, hne, .inr ⟨hsingle, hbrole⟩⟩
  · rintro ⟨hcodes, hroles⟩ ⟨other, b, hb, hne, hcode | ⟨hsingle, hrole⟩⟩
    · exact hne (hcodes other (mem_accountsWithCode.mpr ⟨b, (hrow hne).mpr hb, hcode⟩))
    · obtain ⟨role, ha⟩ := Option.isSome_iff_exists.mp (Bool.and_eq_true_iff.mp hsingle).1
      rw [ha] at hsingle hrole
      exact hne (hroles role ha hsingle other
        (mem_accountsWithRole.mpr ⟨b, (hrow hne).mpr hb, hrole⟩))

/-- An account that clashes with no other one can be written. -/
theorem UniqueAccounts.put (h : UniqueAccounts db) (hnew : ¬ Clashes db id a) :
    UniqueAccounts (db.put (.account id) a) := by
  rintro id' a' ha' ⟨other, b, hb, hne, hsame⟩
  rw [account_put] at ha' hb
  split at ha' <;> split at hb
  · rename_i hid hother
    exact hne (hother.symm.trans hid)
  · rename_i hid _
    obtain rfl := Option.some.inj ha'
    exact hnew ⟨other, b, hb, hid ▸ hne, hsame⟩
  · rename_i hid hother
    obtain rfl := Option.some.inj hb
    refine hnew ⟨id', a', ha', fun he => hid he.symm, ?_⟩
    rcases hsame with hcode | ⟨hsingle, hrole⟩
    · exact .inl hcode.symm
    · exact .inr ⟨hrole ▸ hsingle, hrole.symm⟩
  · exact h id' a' ha' ⟨other, b, hb, hne, hsame⟩

theorem UniqueAccounts.liveDistinct (h : UniqueAccounts db) : LiveDistinct db := by
  refine (List.pairwise_map.mp (nodup_accounts db)).imp_of_mem ?_
  rintro ⟨id, a⟩ ⟨other, b⟩ ha hb hne
  have ha' := (mem_accounts.mp ha).1
  have hb' := (mem_accounts.mp hb).1
  exact ⟨fun hcode => h id a ha' ⟨other, b, hb', hne.symm, .inl hcode.symm⟩,
    fun hsingle hrole => h id a ha' ⟨other, b, hb', hne.symm, .inr ⟨hsingle, hrole.symm⟩⟩⟩

end Indexes

/-! ## What the calls do -/

section Calls

variable {db : Db} {id : Uuid} {input : CreateInput}

/-- The transaction of a creation. -/
def insertAccount (id : Uuid) (a : Account) : Program Account :=
  transaction do
    insert (.account id) a True
    uniqueCode id a.code
    uniqueRole id a.role
    pure a

theorem evalWith_uniqueCode {code : String} {buf : List (Write Row)} :
    (uniqueCode id code).evalWith db buf =
      if ∀ other ∈ Db.accountsWithCode (db.putAll buf) code, other = id then (.ok (), db, buf)
      else (.error .uniqueViolation, db, buf) :=
  apply_ite (fun p : Program Unit => p.evalWith db buf) _ _ _

theorem evalWith_insert (a : Account) (hnew : Db.account db id = none) :
    (insert (.account id) a True).evalWith db [] = (.ok (), db, [⟨.account id, a⟩]) := by
  have hrow : db.row (.account id) = none := hnew
  change ((Prog.ensure ((db.row (.account id)).isNone = true) _ : Program Unit).bind _).evalWith
    db [] = _
  rw [Prog.evalWith_ensure_bind, hrow]
  rfl

/-- What the index on the roles makes of a row that is written. -/
theorem evalWith_uniqueRole {a : Account} {buf : List (Write Row)} (r : AccountRole)
    (hr : a.role = some r) (hsingle : isSingleton (some r) = true) :
    (uniqueRole id a.role).evalWith db buf =
      if ∀ other ∈ Db.accountsWithRole (db.putAll buf) r, other = id then (.ok (), db, buf)
      else (.error .uniqueViolation, db, buf) := by
  rw [hr, uniqueRole, Prog.when, if_pos hsingle]
  exact apply_ite (fun p : Program Unit => p.evalWith db buf) _ _ _

/-- **A creation the indexes allow** writes the account. -/
theorem insertAccount_of_not_clashes {a : Account} (hnew : Db.account db id = none)
    (h : ¬ Clashes db id a) :
    (insertAccount id a).evalWith db [] = (.ok a, db.put (.account id) a, []) := by
  obtain ⟨hcode, hrole⟩ := not_clashes_iff.mp h
  have hcodes : (uniqueCode id a.code).evalWith db [⟨.account id, a⟩] =
      (.ok (), db, [⟨.account id, a⟩]) := evalWith_uniqueCode.trans (if_pos hcode)
  have hroles : (uniqueRole id a.role).evalWith db [⟨.account id, a⟩] =
      (.ok (), db, [⟨.account id, a⟩]) := by
    by_cases hsingle : isSingleton a.role = true
    · obtain ⟨r, hr⟩ := Option.isSome_iff_exists.mp (Bool.and_eq_true_iff.mp hsingle).1
      rw [hr] at hsingle
      exact (evalWith_uniqueRole r hr hsingle).trans (if_pos (hrole r hr hsingle))
    · cases hr : a.role with
      | none => rfl
      | some r =>
        rw [hr] at hsingle
        rw [uniqueRole, Prog.when, if_neg hsingle]
        rfl
  have hbody : (insert (.account id) a True >>= fun _ => uniqueCode id a.code >>= fun _ =>
      uniqueRole id a.role >>= fun _ => pure a : Program Account).evalWith db [] =
        (.ok a, db, [⟨.account id, a⟩]) := by
    rw [Prog.bind_eq, Prog.evalWith_bind (evalWith_insert a hnew), Prog.bind_eq,
      Prog.evalWith_bind hcodes, Prog.bind_eq, Prog.evalWith_bind hroles]
    rfl
  exact Prog.evalWith_transaction hbody

/-- **A creation the indexes do not allow** fails. -/
theorem insertAccount_of_clashes {a : Account} (hnew : Db.account db id = none)
    (h : Clashes db id a) :
    (insertAccount id a).evalWith db [] =
      (.error .uniqueViolation, db, [⟨.account id, a⟩]) := by
  refine Prog.evalWith_bind_error ?_
  rw [Prog.bind_eq, Prog.evalWith_bind (evalWith_insert a hnew), Prog.bind_eq]
  by_cases hcode : ∀ other ∈ Db.accountsWithCode (db.putAll [⟨.account id, a⟩]) a.code, other = id
  · rw [Prog.evalWith_bind (evalWith_uniqueCode.trans (if_pos hcode)), Prog.bind_eq]
    -- the codes differ, so that the role is the one of another account
    have hrole : ∃ r, a.role = some r ∧ isSingleton (some r) = true ∧
        ¬ ∀ other ∈ Db.accountsWithRole (db.put (.account id) a) r, other = id := by
      by_contra hnone
      refine not_clashes_iff.mpr ⟨hcode, fun r hr hsingle => ?_⟩ h
      by_contra hheld
      exact hnone ⟨r, hr, hsingle, hheld⟩
    obtain ⟨r, hr, hsingle, hheld⟩ := hrole
    exact Prog.evalWith_bind_error ((evalWith_uniqueRole r hr hsingle).trans (if_neg hheld))
  · exact Prog.evalWith_bind_error (evalWith_uniqueCode.trans (if_neg hcode))

/-- A creation whose key is in use fails. -/
theorem insertAccount_of_used {a b : Account} (hused : Db.account db id = some b) :
    (insertAccount id a).evalWith db [] = (.error .uniqueViolation, db, []) := by
  have hrow : db.row (.account id) = some b := hused
  refine Prog.evalWith_bind_error (Prog.evalWith_bind_error ?_)
  change ((Prog.ensure ((db.row (.account id)).isNone = true) _ : Program Unit).bind _).evalWith
    db [] = _
  rw [Prog.evalWith_ensure_bind, hrow]
  rfl

/-! ### Creation -/

theorem evalWith_assertRoleFree (role : Option AccountRole) :
    ((isSingleton role = true → ∀ a ∈ Db.accounts db, a.2.role ≠ role) ∧
      (assertRoleFree role).evalWith db [] = (.ok (), db, [])) ∨
    (¬ (isSingleton role = true → ∀ a ∈ Db.accounts db, a.2.role ≠ role) ∧
      ∃ e, (assertRoleFree role).evalWith db [] = (.error e, db, [])) := by
  rw [assertRoleFree, Prog.when]
  by_cases hsingle : isSingleton role = true
  · have heval : ∀ e : Failure, (select .account >>= fun db =>
        Prog.ensure (∀ a ∈ Db.accounts db, a.2.role ≠ role) e : Program Unit).evalWith db [] =
          (Prog.ensure (∀ a ∈ Db.accounts db, a.2.role ≠ role) e : Program Unit).evalWith db [] :=
      fun _ => rfl
    rw [if_pos hsingle, heval, Prog.ensure]
    by_cases hfree : ∀ a ∈ Db.accounts db, a.2.role ≠ role
    · rw [if_pos hfree]
      exact .inl ⟨fun _ => hfree, rfl⟩
    · rw [if_neg hfree]
      exact .inr ⟨fun h => hfree (h hsingle), _, rfl⟩
  · rw [if_neg hsingle]
    exact .inl ⟨fun h => absurd h hsingle, rfl⟩

theorem evalWith_resolveParent (parentCode : Option String) :
    ((∃ parentId, (resolveParent parentCode).evalWith db [] = (.ok parentId, db, [])) ∧
      ∀ code, parentCode = some code → ∃ parent,
        (Db.accounts db).find? (fun a => a.2.code = code) = some parent ∧
          parent.2.isPostable = false) ∨
    ((∃ e, (resolveParent parentCode).evalWith db [] = (.error e, db, [])) ∧
      ∃ code, parentCode = some code ∧ ∀ parent,
        (Db.accounts db).find? (fun a => a.2.code = code) = some parent →
          parent.2.isPostable ≠ false) := by
  cases parentCode with
  | none => exact .inl ⟨⟨none, rfl⟩, fun _ h => by cases h⟩
  | some code =>
    have heval : (resolveParent (some code)).evalWith db [] =
        ((Prog.orThrow ((Db.accounts db).find? fun a => a.2.code = code)
          (.validationFailed "Parent account not found" [("parentCode", .text code)]) :
          Program _).bind fun parent => (Prog.ensure (parent.2.isPostable = false)
            (.validationFailed "Parent account must be a non-postable header"
              [("parentCode", .text code)])).bind fun _ => pure (some parent.1)).evalWith db [] := rfl
    rw [heval]
    cases hparent : (Db.accounts db).find? fun a => a.2.code = code with
    | none => exact .inr ⟨⟨_, rfl⟩, code, rfl, fun parent h => absurd (hparent.symm.trans h) (by simp)⟩
    | some parent =>
      change ((∃ parentId, ((Prog.ensure _ _ : Program Unit).bind _).evalWith db [] = _) ∧ _) ∨
        (∃ e, ((Prog.ensure _ _ : Program Unit).bind _).evalWith db [] = _) ∧ _
      rw [Prog.evalWith_ensure_bind]
      by_cases hheader : parent.2.isPostable = false
      · rw [if_pos hheader]
        refine .inl ⟨⟨_, rfl⟩, fun code' hcode => ⟨parent, ?_, hheader⟩⟩
        rw [← Option.some.inj hcode, hparent]
      · rw [if_neg hheader]
        refine .inr ⟨⟨_, rfl⟩, code, rfl, fun parent' h => ?_⟩
        rwa [← Option.some.inj (hparent.symm.trans h)]

/-- The transaction of a creation, as the request runs it. -/
def createAccount (input : CreateInput) (id : Uuid) (parentId : Option Uuid) : Program Account :=
  mapUniqueViolation (codeExists input.code) (insertAccount id (newAccount input parentId))

/-- **What a creation checks** before its transaction. -/
theorem alone_create (input : CreateInput) (id : Uuid) :
    (Admissible db input ∧ Free db input ∧ ∃ parentId,
      (Accounts.create input id).alone db = (createAccount input id parentId).alone db) ∨
    (¬ (Admissible db input ∧ Free db input) ∧
      ∃ e, (Accounts.create input id).alone db = (.error e, db)) := by
  -- the checks, one after the other
  have heval : (Accounts.create input id).evalWith db [] =
      ((Prog.ensure (input.subtype ∈ input.type.subtypes) (.validationFailed
          ("Subtype " ++ input.subtype.name ++ " is not valid for account type " ++ input.type.name)
          [("type", .text input.type.name), ("subtype", .text input.subtype.name)]) :
        Program Unit).bind fun _ =>
        (Prog.ensure (∀ a ∈ Db.accounts db, a.2.code ≠ input.code) (codeExists input.code)).bind
          fun _ => (assertRoleFree input.role).bind fun _ =>
            (resolveParent (input.parentCode.filter fun code => code ≠ "")).bind fun parentId =>
              createAccount input id parentId).evalWith db [] := by
    rw [Accounts.create, Prog.bind_eq, Prog.evalWith_ensure_bind, Prog.evalWith_ensure_bind]
    rfl
  rw [Prog.alone, heval, Prog.evalWith_ensure_bind, Prog.evalWith_ensure_bind]
  split
  · rename_i hsubtype
    split
    · rename_i hcode
      rcases @evalWith_assertRoleFree db input.role with ⟨hrole, hok⟩ | ⟨hrole, e, herror⟩
      · rw [Prog.evalWith_bind hok]
        have hparent := @evalWith_resolveParent db (input.parentCode.filter fun code => code ≠ "")
        rcases hparent with ⟨⟨parentId, hok'⟩, hfound⟩ | ⟨⟨e, herror⟩, code, hcode', hnone⟩
        · rw [Prog.evalWith_bind hok']
          exact .inl ⟨⟨hsubtype, hfound⟩, fun a ha => ⟨hcode a ha, fun hs => hrole hs a ha⟩,
            parentId, rfl⟩
        · rw [Prog.evalWith_bind_error herror]
          refine .inr ⟨fun h => ?_, e, rfl⟩
          obtain ⟨parent, hfind, hheader⟩ := h.1.2 code hcode'
          exact hnone parent hfind hheader
      · rw [Prog.evalWith_bind_error herror]
        exact .inr ⟨fun h => hrole fun hs a ha => (h.2 a ha).2 hs, e, rfl⟩
    · rename_i hcode
      exact .inr ⟨fun h => hcode fun a ha => (h.2 a ha).1, _, rfl⟩
  · rename_i hsubtype
    exact .inr ⟨fun h => hsubtype h.1.1, _, rfl⟩

/-- **The outcome of a creation** whose checks pass. -/
theorem alone_createAccount (hnew : Db.account db id = none) (parentId : Option Uuid) :
    (¬ Clashes db id (newAccount input parentId) ∧ (createAccount input id parentId).alone db =
        (.ok (newAccount input parentId), db.put (.account id) (newAccount input parentId))) ∨
    (Clashes db id (newAccount input parentId) ∧
      (createAccount input id parentId).alone db = (.error (codeExists input.code), db)) := by
  rw [Prog.alone, createAccount, mapUniqueViolation, Prog.evalWith_mapThrow]
  by_cases hclash : Clashes db id (newAccount input parentId)
  · rw [insertAccount_of_clashes hnew hclash]
    exact .inr ⟨hclash, rfl⟩
  · rw [insertAccount_of_not_clashes hnew hclash]
    exact .inl ⟨hclash, rfl⟩

/-- A creation writes an account that clashes with no other one, or nothing. -/
theorem create_kept_or_put (input : CreateInput) (id : Uuid) :
    ((Accounts.create input id).alone db).2 = db ∨ ∃ a, ¬ Clashes db id a ∧
      ((Accounts.create input id).alone db).2 = db.put (.account id) a := by
  rcases alone_create input id with ⟨-, -, parentId, heq⟩ | ⟨-, e, heq⟩
  · rw [heq]
    cases hnew : Db.account db id with
    | none =>
      rcases alone_createAccount hnew parentId with ⟨hclash, hput⟩ | ⟨-, herror⟩
      · exact .inr ⟨_, hclash, congrArg Prod.snd hput⟩
      · exact .inl (congrArg Prod.snd herror)
    | some b =>
      left
      rw [Prog.alone, createAccount, mapUniqueViolation, Prog.evalWith_mapThrow,
        insertAccount_of_used hnew]
  · exact .inl (congrArg Prod.snd heq)

/-! ### Deletion -/

/-- An update of an account that is not deleted. -/
theorem evalWith_updateAccount {a : Account} (f : Account → Account)
    (ha : Db.account db id = some a) (hlive : a.deletedAt = none) :
    (updateAccount id f).evalWith db [] = (.ok (f a), db, [⟨.account id, f a⟩]) := by
  have hrow : db.row (.account id) = some a := ha
  change ((Prog.orThrow (db.row (.account id)) _ : Program Account).bind _).evalWith db [] = _
  rw [hrow]
  change ((Prog.ensure (a.deletedAt = none) _ : Program Unit).bind _).evalWith db [] = _
  rw [Prog.evalWith_ensure_bind, if_pos hlive]
  rfl

/-- A deletion writes the account with a code no other account has, or nothing. -/
theorem softDelete_kept_or_put (id deletedBy : Uuid) (now : Timestamp) :
    ((Accounts.softDelete id deletedBy now).alone db).2 = db ∨ ∃ a, Db.account db id = some a ∧
      (∀ other ∈ Db.accountsWithCode (db.put (.account id) (tombstone id a.code deletedBy now a))
        (tombstoneValue a.code id), other = id) ∧
      ((Accounts.softDelete id deletedBy now).alone db).2 =
        db.put (.account id) (tombstone id a.code deletedBy now a) := by
  have hfind : (findById id).evalWith db [] = (Prog.orThrow (Db.liveAccount db id)
      (.notFound "Account not found" [("id", .id id)]) : Program Account).evalWith db [] := rfl
  cases ha : Db.liveAccount db id with
  | none =>
    rw [ha] at hfind
    have herror : (Accounts.softDelete id deletedBy now).evalWith db [] = _ :=
      Prog.evalWith_bind_error hfind
    rw [Prog.alone, herror]
    exact .inl rfl
  | some a =>
    rw [ha] at hfind
    obtain ⟨hrow, hlive⟩ := Option.filter_eq_some_iff.mp ha
    -- the lines are counted, then the transaction runs
    have hrun : (Accounts.softDelete id deletedBy now).evalWith db [] =
        ((Prog.ensure (Db.postedLines db id = 0)
          (.validationFailed "Cannot delete an account with posted lines; deactivate instead"
            [("id", .id id)]) : Program Unit).bind fun _ => transaction do
          let _ ← updateAccount id (tombstone id a.code deletedBy now)
          uniqueCode id (tombstoneValue a.code id)).evalWith db [] :=
      Prog.evalWith_bind (a := a) hfind
    rw [Prog.alone, hrun, Prog.evalWith_ensure_bind]
    split
    · have hbody := Prog.evalWith_bind (f := fun _ => uniqueCode id (tombstoneValue a.code id))
        (evalWith_updateAccount (tombstone id a.code deletedBy now) hrow
          (Option.isNone_iff_eq_none.mp hlive))
      rw [evalWith_uniqueCode] at hbody
      split at hbody
      · rename_i hcode
        exact .inr ⟨a, hrow, hcode, congrArg (·.2.1) (Prog.evalWith_transaction hbody)⟩
      · have herror : (transaction (do
            let _ ← updateAccount id (tombstone id a.code deletedBy now)
            uniqueCode id (tombstoneValue a.code id)) : Program Unit).evalWith db [] = _ :=
          Prog.evalWith_bind_error hbody
        rw [herror]
        exact .inl rfl
    · exact .inl rfl

end Calls

/-! ## The calls one after the other -/

section Charted

variable {db₀ db : Db} {input : CreateInput} {id : Uuid}

/-- **The unique indexes** hold after every call. -/
theorem Charted.unique (hunique : UniqueAccounts db₀) (h : Charted db₀ db) :
    UniqueAccounts db := by
  induction h with
  | start => exact hunique
  | create input id _ ih =>
    rcases create_kept_or_put input id with hkept | ⟨a, hclash, hput⟩
    · rwa [hkept]
    · rw [hput]
      exact ih.put hclash
  | softDelete id deletedBy now _ ih =>
    rcases softDelete_kept_or_put id deletedBy now with hkept | ⟨a, ha, hcode, hput⟩
    · rwa [hkept]
    · rw [hput]
      refine ih.put ?_
      rintro ⟨other, b, hb, hne, hsame | hrole⟩
      · refine hne (hcode other (mem_accountsWithCode.mpr ⟨b, ?_, hsame⟩))
        rw [account_put, if_neg hne.symm, hb]
      · -- the role is the one the account has had
        exact ih id a ha ⟨other, b, hb, hne, .inr hrole⟩

/-- A new account clashes with the deleted ones only, if its code and its role are free. -/
theorem Free.clashes_iff (h : Free db input) (hnew : Db.account db id = none)
    (parentId : Option Uuid) :
    Clashes db id (newAccount input parentId) ↔ HeldByDeleted db input := by
  constructor
  · rintro ⟨other, b, hb, -, hsame⟩
    refine ⟨other, b, hb, fun hlive => ?_, hsame⟩
    obtain ⟨hcode, hrole⟩ := h (other, b) (mem_accounts.mpr ⟨hb, hlive⟩)
    rcases hsame with hcode' | ⟨hsingle, hrole'⟩
    · exact hcode hcode'
    · exact hrole hsingle hrole'
  · rintro ⟨other, b, hb, -, hsame⟩
    refine ⟨other, b, hb, ?_, hsame⟩
    rintro rfl
    cases hnew.symm.trans hb

/-- **Which accounts can be created**: where the code and the role are free among the accounts that
are not deleted, a creation succeeds exactly if no deleted account has them. The accounts that are
not deleted have different codes and roles. -/
theorem create_ok_iff (hunique : UniqueAccounts db₀) (h : Charted db₀ db) :
    (∀ input id, Db.account db id = none → Admissible db input → Free db input →
      ((∃ a, ((Accounts.create input id).alone db).1 = .ok a) ↔ ¬ HeldByDeleted db input)) ∧
    LiveDistinct db := by
  refine ⟨fun input id hnew hadmissible hfree => ?_, (h.unique hunique).liveDistinct⟩
  rcases alone_create input id with ⟨-, -, parentId, heq⟩ | ⟨hnot, -⟩
  · rw [heq, ← hfree.clashes_iff hnew parentId]
    rcases alone_createAccount hnew parentId with ⟨hclash, hok⟩ | ⟨hclash, herror⟩
    · rw [hok]
      exact ⟨fun _ => hclash, fun _ => ⟨_, rfl⟩⟩
    · rw [herror]
      refine ⟨?_, fun hno => absurd hclash hno⟩
      rintro ⟨a, ha⟩
      cases ha
  · exact absurd ⟨hadmissible, hfree⟩ hnot

end Charted

namespace Sample

/-- The account of the income tax expense. -/
def taxExpense (code : String) (role : Option AccountRole) : CreateInput where
  code := code
  name := "Income tax expense"
  type := .expense
  subtype := .otherExpense
  normalBalance := .debit
  cashFlowCategory := none
  role := role
  isPostable := none
  parentCode := none

/-- The account of the income tax expense has been created and deleted. -/
def taxExpenseDeleted : Db :=
  ((Accounts.softDelete 1 7 0).alone
    ((Accounts.create (taxExpense "5-9000" (some .taxExpense)) 1).alone Store.empty).2).2

theorem unique_empty : UniqueAccounts Store.empty := by
  intro id a ha
  cases ha

theorem charted_taxExpenseDeleted : Charted Store.empty taxExpenseDeleted :=
  .softDelete 1 7 0 (.create (taxExpense "5-9000" (some .taxExpense)) 1 .start)

/-- No account is left. -/
theorem free (input : CreateInput) : Free taxExpenseDeleted input := by
  have hnone : Db.accounts taxExpenseDeleted = [] := by decide +kernel
  rw [Free, hnone]
  exact List.forall_mem_nil _

theorem admissible (db : Db) (code : String) (role : Option AccountRole) :
    Admissible db (taxExpense code role) := by
  have hsubtype : AccountSubtype.otherExpense ∈ AccountType.expense.subtypes := by decide
  refine ⟨hsubtype, fun _ hparent => ?_⟩
  cases hparent

end Sample

/-- The code of the deleted account can be used again. -/
theorem create_ok_iff_code :
    ∃ a, ((Accounts.create (Sample.taxExpense "5-9000" none) 2).alone
      Sample.taxExpenseDeleted).1 = .ok a := by
  refine ((create_ok_iff Sample.unique_empty Sample.charted_taxExpenseDeleted).1 _ 2
    (by decide +kernel) (Sample.admissible _ _ _) (Sample.free _)).mpr ?_
  rintro ⟨id, a, ha, -, hsame⟩
  -- the deleted account is the only one
  have hkeys : Sample.taxExpenseDeleted.keys = [.account 1] := by decide +kernel
  have hkey := Sample.taxExpenseDeleted.mem_keys (.account id) (by
    rw [show Sample.taxExpenseDeleted.row (.account id) = some a from ha]
    exact Option.some_ne_none a)
  rw [hkeys, List.mem_singleton, Key.account.injEq] at hkey
  subst hkey
  have hcode : ∀ a, Db.account Sample.taxExpenseDeleted 1 = some a → a.code ≠ "5-9000" := by
    decide +kernel
  rcases hsame with hsame | ⟨hsingle, -⟩
  · exact hcode a ha hsame
  · cases hsingle

/-- The role of the deleted account cannot be given to another one. -/
theorem deleted_account_keeps_role :
    ∃ db input id, UniqueAccounts Store.empty ∧ Charted Store.empty db ∧
      Db.account db id = none ∧ Admissible db input ∧ Free db input ∧
      ¬ ∃ a, ((Accounts.create input id).alone db).1 = .ok a := by
  refine ⟨Sample.taxExpenseDeleted, Sample.taxExpense "5-9100" (some .taxExpense), 2,
    Sample.unique_empty, Sample.charted_taxExpenseDeleted, by decide +kernel,
    Sample.admissible _ _ _, Sample.free _, ?_⟩
  have hfails : (((Accounts.create (Sample.taxExpense "5-9100" (some .taxExpense)) 2).alone
      Sample.taxExpenseDeleted).1.toOption.isNone) = true := by decide +kernel
  rintro ⟨a, ha⟩
  rw [ha] at hfails
  cases hfails

end AccountingApi
