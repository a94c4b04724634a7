import AccountingApi.Auth.LastAdmin

/-!
# Changes of passwords

A change of the own password verifies the current one on a plain read and stores the new one later,
whatever is stored by then. Where the last password stored in between is not the verified one, the
change replaces a password its author need not know.

## Main definitions

* `storesHash`, `lastHash`: the hash a commit stores for a user, and the last one that a history stores
* `Linearizable`: every change has verified the password it replaces
* `Undisturbed`: no other password has been stored in between

## Main results

* `passwordHash_of_chain`: the hash of a user is the last one that was stored
* `linearizable_iff`: changes are linearizable where no other password comes in between
-/

namespace AccountingApi.Auth

open ReadCommitted

/-! ## Stored passwords -/

/-- The hash a request is to store, with its user. -/
def Request.newHash : Request → Option (Uuid × String)
  | .changePassword id _ newHash _ => some (id, newHash)
  | .resetPassword id passwordHash _ => some (id, passwordHash)
  | _ => none

/-- The commit writes the user's row. -/
def WritesUser (c : Commit) (id : Uuid) : Prop := ∃ w ∈ c.writes, w.1 = .user id

instance (c : Commit) (id : Uuid) : Decidable (WritesUser c id) :=
  inferInstanceAs (Decidable (∃ _ ∈ _, _))

/-- The hash of the password the commit stores for the user. A change and a reset commit a second
transaction, which stores none. -/
def storesHash (c : Commit) (id : Uuid) : Option String :=
  if WritesUser c id then (c.req.newHash.filter fun x => x.1 = id).map Prod.snd else none

/-- The last hash of the user's password that the history stores. -/
def lastHash (h : List Commit) (id : Uuid) : Option String := h.findSome? fun c => storesHash c id

section Commit

variable {ttl : ℕ} {c : Commit} {id : Uuid} {u : User}

theorem storesHash_eq_none (h : c.req.newHash = none) : storesHash c id = none := by
  rw [storesHash, h]
  simp

theorem not_writesUser_of_tokens (h : ∀ w ∈ c.writes, ∃ jti, w.1 = .refreshToken jti) :
    ¬ WritesUser c id := by
  rintro ⟨w, hw, hkey⟩
  obtain ⟨jti, hjti⟩ := h w hw
  rw [hjti] at hkey
  cases hkey

theorem storesHash_of_tokens (h : ∀ w ∈ c.writes, ∃ jti, w.1 = .refreshToken jti) :
    storesHash c id = none :=
  if_neg (not_writesUser_of_tokens h)

/-- A commit that writes one user stores the hash of its request. -/
theorem storesHash_of_user {id' : Uuid} {hash : String} {u' : User}
    (hreq : c.req.newHash = some (id', hash)) (hwrites : c.writes = [⟨.user id', u'⟩]) :
    storesHash c id = if id = id' then some hash else none := by
  rw [storesHash, hreq]
  by_cases hid : id = id'
  · rw [hid, if_pos ⟨⟨.user id', u'⟩, by rw [hwrites]; exact List.mem_singleton_self _, rfl⟩]
    simp
  · simp [hid, Ne.symm hid]

/-- What a commit does to the passwords. -/
inductive PasswordChange (c : Commit) : Prop
  | tokens (only : ∀ w ∈ c.writes, ∃ jti, w.1 = .refreshToken jti)
  | create (id : Uuid) (u : User) (req : c.req.newHash = none) (fresh : Db.user c.before id = none)
      (writes : c.writes = [⟨.user id, u⟩])
  | keep (id : Uuid) (u u' : User) (req : c.req.newHash = none)
      (current : Db.user c.before id = some u) (same : u'.passwordHash = u.passwordHash)
      (writes : c.writes = [⟨.user id, u'⟩])
  | store (id : Uuid) (u u' : User) (req : c.req.newHash = some (id, u'.passwordHash))
      (current : Db.user c.before id = some u) (writes : c.writes = [⟨.user id, u'⟩])

theorem Transacts.passwordChange (hc : Transacts ttl c) : PasswordChange c := by
  cases hc with
  | issue userId jti familyId now drawn fresh writes => exact .tokens (by rw [writes]; simp)
  | rotate jti newJti t now later presented drawn clock current active fresh writes =>
    exact .tokens (by rw [writes]; simp)
  | invalid jti userId presented current writes => exact .tokens (by rw [writes]; simp)
  | revoke target s revokes updates => exact .tokens updates.tokens
  | purge scan now s req updates => exact .tokens updates.tokens
  | createUser dto hash id u req fresh writes => exact .create id u (by rw [req]; rfl) fresh writes
  | changePassword id verify newHash scan u req verified current live writes =>
    exact .store id u _ (by rw [req]; rfl) current writes
  | resetPassword id hash scan u req current live writes =>
    exact .store id u _ (by rw [req]; rfl) current writes
  | updateUser actorId id dto scan u req changes =>
    exact .keep id u (dto.apply u) (by rw [req]; rfl) changes.current rfl changes.writes
  | removeUser actorId id scan now u email req changes =>
    exact .keep id u (UserAdminService.removed id actorId email now u) (by rw [req]; rfl)
      changes.current rfl changes.writes

/-- **One commit** stores its hash, and leaves the other users theirs. -/
theorem PasswordChange.passwordHash (hc : PasswordChange c) (hu : Db.user c.before id = some u) :
    ∃ u', Db.user c.after id = some u' ∧
      u'.passwordHash = (storesHash c id).getD u.passwordHash := by
  cases hc with
  | tokens only =>
    exact ⟨u, by rw [user_after_of_tokens only, hu], by rw [storesHash_of_tokens only]; rfl⟩
  | create id' u' req fresh writes =>
    have hne : id ≠ id' := by
      rintro rfl
      rw [fresh] at hu
      cases hu
    refine ⟨u, by rw [user_after writes, if_neg hne, hu], ?_⟩
    rw [storesHash_eq_none req, Option.getD_none]
  | keep id' u₁ u' req current same writes =>
    rw [storesHash_eq_none req, Option.getD_none, user_after writes]
    by_cases hid : id = id'
    · subst hid
      obtain rfl : u = u₁ := Option.some.inj (hu.symm.trans current)
      exact ⟨u', if_pos rfl, same⟩
    · exact ⟨u, by rw [if_neg hid, hu], rfl⟩
  | store id' u₁ u' req current writes =>
    rw [storesHash_of_user req writes, user_after writes]
    by_cases hid : id = id'
    · rw [if_pos hid, if_pos hid]
      exact ⟨u', rfl, rfl⟩
    · rw [if_neg hid, if_neg hid]
      exact ⟨u, hu, rfl⟩

/-- The user whose password a commit stores was there. -/
theorem PasswordChange.exists_user (hc : PasswordChange c) {hash : String}
    (h : storesHash c id = some hash) : ∃ u, Db.user c.before id = some u := by
  cases hc with
  | tokens only =>
    rw [storesHash_of_tokens only] at h
    cases h
  | create id' u' req fresh writes =>
    rw [storesHash_eq_none req] at h
    cases h
  | keep id' u₁ u' req current same writes =>
    rw [storesHash_eq_none req] at h
    cases h
  | store id' u₁ u' req current writes =>
    rw [storesHash_of_user req writes] at h
    split at h
    · rename_i hid
      exact ⟨u₁, hid ▸ current⟩
    · cases h

end Commit

/-! ## Runs -/

section Chain

variable {ttl : ℕ} {db₀ db s : Db} {h h₀ mid : List Commit} {id : Uuid} {u : User}

theorem lastHash_cons (c : Commit) (h : List Commit) (id : Uuid) :
    lastHash (c :: h) id = (storesHash c id).or (lastHash h id) := by
  rw [lastHash, List.findSome?_cons]
  cases storesHash c id <;> rfl

/-- **The hash of a user is the last one that was stored** since a store, or the one it had there. -/
theorem passwordHash_of_chain (hchain : Chain (protocol ttl) db₀ (mid ++ h₀) db)
    (hchain₀ : Chain (protocol ttl) db₀ h₀ s) (hu : Db.user s id = some u) :
    ∃ u', Db.user db id = some u' ∧ u'.passwordHash = (lastHash mid id).getD u.passwordHash := by
  induction mid generalizing db with
  | nil =>
    obtain rfl : db = s := by rw [hchain.eq_putAll, hchain₀.eq_putAll, List.nil_append]
    exact ⟨u, hu, rfl⟩
  | cons c mid ih =>
    obtain ⟨hbefore, hguar, -, rfl⟩ := Chain.last hchain
    obtain ⟨u₁, hu₁, hhash₁⟩ := ih hbefore
    obtain ⟨u', hu', hhash'⟩ := (Transacts.passwordChange hguar).passwordHash hu₁
    refine ⟨u', hu', ?_⟩
    rw [hhash', hhash₁, lastHash_cons]
    cases storesHash c id <;> rfl

/-- A hash that was stored last is that of the user. -/
theorem passwordHash_of_lastHash (hchain : Chain (protocol ttl) db₀ (mid ++ h₀) db) {hash : String}
    (hlast : lastHash mid id = some hash) :
    ∃ u, Db.user db id = some u ∧ u.passwordHash = hash := by
  induction mid generalizing db with
  | nil => cases hlast
  | cons c mid ih =>
    obtain ⟨hbefore, hguar, -, rfl⟩ := Chain.last hchain
    have hc := Transacts.passwordChange hguar
    rw [lastHash_cons] at hlast
    cases hstores : storesHash c id with
    | none =>
      rw [hstores, Option.none_or] at hlast
      obtain ⟨u₁, hu₁, rfl⟩ := ih hbefore hlast
      obtain ⟨u, hu, hhash⟩ := hc.passwordHash hu₁
      rw [hstores] at hhash
      exact ⟨u, hu, hhash⟩
    | some hash' =>
      rw [hstores, Option.some_or] at hlast
      cases hlast
      obtain ⟨u₁, hu₁⟩ := hc.exists_user hstores
      obtain ⟨u, hu, hhash⟩ := hc.passwordHash hu₁
      rw [hstores] at hhash
      exact ⟨u, hu, hhash⟩

end Chain

/-! ## Changes of the own password -/

/-- The commit is the change of the password of the user `id` to one with the hash `newHash`; `verify`
says which hashes are those of the current password it was given. -/
def ChangesPassword (c : Commit) (id : Uuid) (verify : String → Bool) (newHash : String) : Prop :=
  (∃ scan, c.req = .changePassword id verify newHash scan) ∧ WritesUser c id

/-- The changes of passwords are linearizable: each has verified the password that it replaces. So once
another password is stored, by a reset or by another change, it is not replaced by whom only knows the
one before. -/
structure Linearizable (h : List Commit) : Prop where
  verified : ∀ c ∈ h, ∀ id verify newHash, ChangesPassword c id verify newHash →
    ∃ u, Db.liveUser c.before id = some u ∧ verify u.passwordHash = true
  replaced : ∀ h₁ h₂ h₃ c d, h = h₃ ++ c :: (h₂ ++ d :: h₁) → ∀ id verify newHash hash,
    storesHash d id = some hash → verify hash = false → ChangesPassword c id verify newHash →
      ∃ e ∈ h₂, (storesHash e id).isSome = true

/-- No other password comes in between: the last one stored between the read of a change and its commit,
if there is one, is the one the change has verified. -/
def Undisturbed (ttl : ℕ) (db₀ : Db) (h : List Commit) : Prop :=
  ∀ h₂ c mid h₀, h = h₂ ++ c :: (mid ++ h₀) → ∀ id verify newHash,
    ChangesPassword c id verify newHash → ∀ s, (.user, s) ∈ c.seen →
      Chain (protocol ttl) db₀ h₀ s → ∀ hash, lastHash mid id = some hash → verify hash = true

section Changes

variable {ttl : ℕ} {db₀ db : Db} {h : List Commit} {c : Commit} {id : Uuid} {verify : String → Bool}
  {newHash : String}

/-- What a change has read and found. -/
theorem Transacts.of_changesPassword (hc : Transacts ttl c)
    (h : ChangesPassword c id verify newHash) :
    (∃ s u₀, (.user, s) ∈ c.seen ∧ Db.liveUser s id = some u₀ ∧ verify u₀.passwordHash = true) ∧
      ∃ u, Db.user c.before id = some u ∧ u.deletedAt = none := by
  obtain ⟨⟨scan, hreq⟩, w, hw, hkey⟩ := h
  have hnot : ¬ ∀ w ∈ c.writes, ∃ jti, w.1 = .refreshToken jti := by
    intro htokens
    obtain ⟨jti, hjti⟩ := htokens w hw
    rw [hjti] at hkey
    cases hkey
  cases hc with
  | changePassword id' verify' newHash' scan' u req verified current live writes =>
    rw [hreq] at req
    cases req
    exact ⟨verified, u, current, live⟩
  | revoke target s revokes updates => exact absurd updates.tokens hnot
  | issue userId jti familyId now drawn fresh writes => exact absurd (by rw [writes]; simp) hnot
  | rotate jti newJti t now later presented drawn clock current active fresh writes =>
    exact absurd (by rw [writes]; simp) hnot
  | invalid jti userId presented current writes => exact absurd (by rw [writes]; simp) hnot
  | purge scan now s req updates => exact absurd updates.tokens hnot
  | createUser dto hash id' u req fresh writes => cases hreq.symm.trans req
  | resetPassword id' hash scan u req current live writes => cases hreq.symm.trans req
  | updateUser actorId id' dto scan u req changes => cases hreq.symm.trans req
  | removeUser actorId id' scan now u email req changes => cases hreq.symm.trans req

/-- The changes of a run are linearizable if no other password comes in between. -/
theorem Undisturbed.linearizable (hchain : Chain (protocol ttl) db₀ h db)
    (hnot : Undisturbed ttl db₀ h) : Linearizable h := by
  have hverified : ∀ c ∈ h, ∀ id verify newHash, ChangesPassword c id verify newHash →
      ∃ u, Db.liveUser c.before id = some u ∧ verify u.passwordHash = true := by
    intro c hmem id verify newHash hchange
    obtain ⟨h₂, h₁, rfl⟩ := List.append_of_mem hmem
    obtain ⟨_, hchain₁⟩ := hchain.of_append
    obtain ⟨hbefore, hguar, hseen, -⟩ := hchain₁.last
    obtain ⟨⟨s, u₀, hs, hu₀, hok⟩, u, hu, hlive⟩ := Transacts.of_changesPassword hguar hchange
    obtain ⟨mid, h₀, rfl, hchain₀⟩ := hbefore.split_of_past (hseen _ hs)
    obtain ⟨u', hu', hhash⟩ := passwordHash_of_chain hbefore hchain₀ (Option.mem_filter_iff.mp hu₀).1
    obtain rfl : u = u' := Option.some.inj (hu.symm.trans hu')
    refine ⟨u, Option.mem_filter_iff.mpr ⟨hu, by rw [hlive]; rfl⟩, ?_⟩
    rw [hhash]
    cases hlast : lastHash mid id with
    | none => exact hok
    | some hash => exact hnot h₂ c mid h₀ rfl id verify newHash hchange s hs hchain₀ hash hlast
  refine ⟨hverified, fun h₁ h₂ h₃ c d hh id verify newHash hash hstores hno hchange => ?_⟩
  by_contra hnone
  push Not at hnone
  -- the password of `d` is the last one stored when `c` commits
  have hlast : lastHash (h₂ ++ [d]) id = some hash := by
    rw [lastHash, List.findSome?_append, List.findSome?_eq_none_iff.mpr fun e he =>
      Option.not_isSome_iff_eq_none.mp (hnone e he), Option.none_or, List.findSome?_singleton, hstores]
  obtain ⟨u, hu, hok⟩ := hverified c (by rw [hh]; simp) id verify newHash hchange
  rw [hh, List.append_cons h₂] at hchain
  obtain ⟨_, hchain₁⟩ := hchain.of_append
  obtain ⟨u', hu', rfl⟩ := passwordHash_of_lastHash (Chain.last hchain₁).1 hlast
  obtain rfl : u = u' := Option.some.inj ((Option.mem_filter_iff.mp hu).1.symm.trans hu')
  rw [hok] at hno
  cases hno

/-- **When the changes of passwords are linearizable**: in every run, if and only if the last password
stored between the read of a change and its commit, if there is one, is the one it has verified. -/
theorem linearizable_iff {policy : Policy Row LockName Query Failure Response Request} {s : Server}
    (h : Reachable (code ttl) policy db₀ s) :
    Linearizable s.history ↔ Undisturbed ttl db₀ s.history := by
  have hchain := chain_of_reachable h
  refine ⟨fun hlin h₂ c mid h₀ hh id verify newHash hchange s' hs' hchain₀ hash hlast => ?_,
    Undisturbed.linearizable hchain⟩
  obtain ⟨u, hu, hok⟩ := hlin.verified c (by rw [hh]; simp) id verify newHash hchange
  rw [hh] at hchain
  obtain ⟨_, hchain₁⟩ := hchain.of_append
  obtain ⟨u', hu', rfl⟩ := passwordHash_of_lastHash (Chain.last hchain₁).1 hlast
  obtain rfl : u = u' := Option.some.inj ((Option.mem_filter_iff.mp hu).1.symm.trans hu')
  exact hok

end Changes

/-! ## A change and a reset at the same time -/

namespace Sample

/-- The change of the password of the first administrator by whom knows the first one. -/
def change : Request := .changePassword 1 (fun hash => hash = "hash") "mine" .plain

/-- An administrator resets the password after the change has verified it and before it is stored. -/
def overtakenChange : Server := server (
  [.spawn change, .spawn (.resetPassword 1 "temp" .plain), .step 0] ++ List.replicate 4 (.step 1) ++
  List.replicate 4 (.step 0))

/-- The change after the reset of another user. -/
def changed : Server := server (
  [.spawn change, .spawn (.resetPassword 2 "temp" .plain), .step 0] ++ List.replicate 4 (.step 1) ++
  List.replicate 4 (.step 0))

theorem overtakenChange_ne_nil : overtakenChange.history ≠ [] := by decide +kernel

end Sample

/-- A change of one user is not overtaken by the reset of another. -/
theorem linearizable_iff_changed : Linearizable Sample.changed.history ↔
    Undisturbed Sample.ttl Sample.db Sample.changed.history :=
  linearizable_iff (Sample.reachable (by decide +kernel))

/-- **A reset is undone by whom knows the old password only**, with the duty to change it. -/
theorem reset_undone :
    Reachable (code Sample.ttl) (anytime fun _ => True) Sample.db Sample.overtakenChange ∧
      (∃ u, Db.user Sample.overtakenChange.db 1 = some u ∧ u.passwordHash = "mine" ∧
        u.mustChangePassword = false) ∧
      ¬ Linearizable Sample.overtakenChange.history := by
  have hreset : ∃ u ∈ Db.user (Sample.overtakenChange.history.head
      Sample.overtakenChange_ne_nil).before 1, u.passwordHash = "temp" := by decide +kernel
  have hstored : ∃ u ∈ Db.user Sample.overtakenChange.db 1, u.passwordHash = "mine" ∧
      u.mustChangePassword = false := by decide +kernel
  refine ⟨Sample.reachable (by decide +kernel), hstored, fun hlin => ?_⟩
  obtain ⟨u, hu, hok⟩ := hlin.verified _ (List.head_mem Sample.overtakenChange_ne_nil) 1
    (fun hash => hash = "hash") "mine" ⟨⟨.plain, rfl⟩, by decide +kernel⟩
  obtain ⟨u', hu', hhash⟩ := hreset
  obtain rfl : u = u' := Option.some.inj ((Option.mem_filter_iff.mp hu).1.symm.trans hu')
  rw [hhash] at hok
  cases hok

end AccountingApi.Auth
