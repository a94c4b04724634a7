import AccountingApi.Auth.Api
import AccountingApi.ReadCommitted.Soundness

/-!
# The transactions on users and sessions

What a commit of each request has found and written. A statement over many tokens wrote those it found
when it started; a change of an administrator found another one while it held the advisory lock.

## Main definitions

* `Target`, `Commit.Revokes`: what a commit revokes
* `ChangesPool`: a change of a user under the advisory lock
* `Transacts`: the commits of the requests
* `UserChange`, `TokenChange`: what a commit does to the users and to the tokens
* `protocol`: what the requests guarantee each other
-/

namespace AccountingApi.Auth

open ReadCommitted

/-! ## What requests are about -/

/-- The token a request presents for rotation, with its user. -/
def Request.presented : Request → Option (Uuid × Uuid)
  | .rotate jti userId _ _ _ _ => some (jti, userId)
  | .refresh (some payload) _ _ _ _ => some (payload.jti, payload.sub)
  | _ => none

/-- The reading of the clock at which a rotation issues the successor. -/
def Request.rotatedAt : Request → Option Timestamp
  | .rotate _ _ _ _ _ later => some later
  | .refresh _ _ _ _ later => some later
  | _ => none

/-- The token whose family a request revokes. -/
def Request.loggedOut : Request → Option Uuid
  | .revokeFamilyByJti jti _ => some jti
  | .logout (some payload) _ => some payload.jti
  | _ => none

/-- The user whose sessions a request revokes, after a transaction of its own where it has one. -/
def Request.revoked : Request → Option Uuid
  | .revokeAllForUser userId _ => some userId
  | .logoutAll userId _ => some userId
  | .changePassword id _ _ _ => some id
  | .updateUser _ id dto _ => if dto.role ≠ none ∨ dto.isActive ≠ none then some id else none
  | .resetPassword id _ _ => some id
  | .removeUser _ id _ _ => some id
  | _ => none

/-- The tokens of a family, or of a user. -/
inductive Target where
  | family (id : Uuid)
  | user (id : Uuid)
deriving DecidableEq

def Target.covers : Target → RefreshToken → Bool
  | .family id, t => t.familyId = id
  | .user id, t => t.userId = id

/-- The commit is the one that revokes the target: the request presented a consumed token of the family,
or a token of the family it logs out, or has no more to do than to revoke the sessions of the user. -/
def Revokes (c : Commit) : Target → Prop
  | .family id =>
    (∃ jti userId t, c.req.presented = some (jti, userId) ∧ Db.refreshToken c.before jti = some t ∧
      t.userId = userId ∧ t.status = .consumed ∧ t.familyId = id) ∨
    ∃ jti s t, c.req.loggedOut = some jti ∧ (.refreshToken, s) ∈ c.seen ∧
      Db.refreshToken s jti = some t ∧ t.familyId = id
  | .user id => c.req.revoked = some id ∧ ∀ w ∈ c.writes, ∃ jti, w.1 = .refreshToken jti

/-! ## Commits -/

/-- The rows a statement over many tokens finds are tokens. -/
theorem isToken_of_updatesOf {p : RefreshToken → Bool} {f : RefreshToken → Option RefreshToken}
    {s db : Db} (scan : ScanOrder Key) {w : Write Row}
    (hw : w ∈ updatesOf (Prog.changeWhere (tokensWhere p) (onTokens f))
      (scan.order (s.keysWhere (tokensWhere p))) db) : ∃ jti, w.1 = .refreshToken jti := by
  obtain ⟨hkey, -⟩ := mem_updatesOf.mp hw
  obtain ⟨v, -, hv⟩ := Store.mem_keysWhere.mp ((scan.perm _).mem_iff.mp hkey)
  obtain ⟨k, w⟩ := w
  cases k with
  | user id => cases hv
  | refreshToken id => exact ⟨id, rfl⟩

/-- The commit changed the tokens that meet the condition, among those found in `s`. -/
structure UpdatesTokens (c : Commit) (s : Db) (p : RefreshToken → Bool)
    (f : RefreshToken → Option RefreshToken) : Prop where
  seen : (.refreshTokens, s) ∈ c.seen
  writes : ∃ scan : ScanOrder Key, c.writes = updatesOf (Prog.changeWhere (tokensWhere p) (onTokens f))
    (scan.order (s.keysWhere (tokensWhere p))) c.before

/-- The commit changed the user `id` from `u` to `u'` under the advisory lock; an active administrator
stays one unless there is another. -/
structure ChangesPool (c : Commit) (id : Uuid) (u u' : User) : Prop where
  lock : (.named .userAdmin, .exclusive) ∈ c.locks
  current : Db.user c.before id = some u
  live : u.deletedAt = none
  guarded : u.InAdminPool → ¬ u'.InAdminPool →
    ∃ id' a, id' ≠ id ∧ Db.user c.before id' = some a ∧ a.InAdminPool
  writes : c.writes = [⟨.user id, u'⟩]

/-- The commits of the requests. -/
inductive Transacts (ttl : ℕ) (c : Commit) : Prop
  | issue (userId jti familyId : Uuid) (now : Timestamp) (drawn : c.req.drawn = [jti, familyId])
      (fresh : Db.refreshToken c.before jti = none)
      (writes : c.writes = [⟨.refreshToken jti, some (.issued userId familyId (now + ttl))⟩])
  | rotate (jti newJti : Uuid) (t : RefreshToken) (now later : Timestamp)
      (presented : c.req.presented = some (jti, t.userId)) (drawn : c.req.drawn = [newJti])
      (clock : c.req.rotatedAt = some later)
      (current : Db.refreshToken c.before jti = some t) (active : t.status = .active)
      (fresh : Db.refreshToken c.before newJti = none)
      (writes : c.writes = [⟨.refreshToken jti, some (t.consume now newJti)⟩,
        ⟨.refreshToken newJti, some (.issued t.userId t.familyId (later + ttl))⟩])
  | invalid (jti userId : Uuid) (presented : c.req.presented = some (jti, userId))
      (current : ∀ t, Db.refreshToken c.before jti = some t → t.userId ≠ userId ∨ t.status = .revoked)
      (writes : c.writes = [])
  | revoke (target : Target) (s : Db) (revokes : Revokes c target)
      (updates : UpdatesTokens c s target.covers fun t => some t.revoke)
  | purge (scan : ScanOrder Key) (now : Timestamp) (s : Db) (req : c.req = .purgeExpired scan now)
      (updates : UpdatesTokens c s (fun t => t.expiresAt < now) fun _ => none)
  | createUser (dto : CreateUserDto) (passwordHash : String) (id : Uuid) (u : User)
      (req : c.req = .createUser dto passwordHash id) (fresh : Db.user c.before id = none)
      (writes : c.writes = [⟨.user id, u⟩])
  | changePassword (id : Uuid) (verify : String → Bool) (newHash : String) (scan : ScanOrder Key)
      (u : User) (req : c.req = .changePassword id verify newHash scan)
      (verified : ∃ s u₀, (.user, s) ∈ c.seen ∧ Db.liveUser s id = some u₀ ∧
        verify u₀.passwordHash = true)
      (current : Db.user c.before id = some u) (live : u.deletedAt = none)
      (writes : c.writes =
        [⟨.user id, { u with passwordHash := newHash, mustChangePassword := false }⟩])
  | resetPassword (id : Uuid) (passwordHash : String) (scan : ScanOrder Key) (u : User)
      (req : c.req = .resetPassword id passwordHash scan)
      (current : Db.user c.before id = some u) (live : u.deletedAt = none)
      (writes : c.writes =
        [⟨.user id, { u with passwordHash := passwordHash, mustChangePassword := true }⟩])
  | updateUser (actorId id : Uuid) (dto : UpdateUserDto) (scan : ScanOrder Key) (u : User)
      (req : c.req = .updateUser actorId id dto scan) (changes : ChangesPool c id u (dto.apply u))
  | removeUser (actorId id : Uuid) (scan : ScanOrder Key) (now : Timestamp) (u : User) (email : String)
      (req : c.req = .removeUser actorId id scan now)
      (changes : ChangesPool c id u (UserAdminService.removed id actorId email now u))

/-! ## The rows after a commit -/

section After

variable {ttl : ℕ} {c : Commit} {s : Db}

theorem user_after {id : Uuid} {u : User} (h : c.writes = [⟨.user id, u⟩]) (id' : Uuid) :
    Db.user c.after id' = if id' = id then some u else Db.user c.before id' := by
  rw [Db.user, Db.user, Commit.after, h, Store.putAll_cons, Store.putAll_nil]
  by_cases hid : id' = id
  · rw [if_pos hid, hid, Store.row_put_self]
  · rw [if_neg hid, Store.row_put_of_ne _ _ fun hk => hid (Key.user.inj hk)]

theorem user_after_of_tokens (h : ∀ w ∈ c.writes, ∃ jti, w.1 = .refreshToken jti) (id : Uuid) :
    Db.user c.after id = Db.user c.before id := by
  refine Store.row_putAll_of_notMem _ fun w hw hk => ?_
  obtain ⟨jti, hjti⟩ := h w hw
  rw [hjti] at hk
  cases hk

theorem refreshToken_after_of_user {id : Uuid} {u : User} (h : c.writes = [⟨.user id, u⟩])
    (jti : Uuid) : Db.refreshToken c.after jti = Db.refreshToken c.before jti := by
  rw [Db.refreshToken, Db.refreshToken, Commit.after, h, Store.putAll_cons, Store.putAll_nil,
    Store.row_put_of_ne _ _ Key.noConfusion]

theorem refreshToken_put (db : Db) (jti jti' : Uuid) (t : RefreshToken) :
    Db.refreshToken (db.put (.refreshToken jti) (some t)) jti' =
      if jti' = jti then some t else Db.refreshToken db jti' := by
  rw [Db.refreshToken, Db.refreshToken]
  by_cases hid : jti' = jti
  · rw [if_pos hid, hid, Store.row_put_self]
    rfl
  · rw [if_neg hid, Store.row_put_of_ne _ _ fun hk => hid (Key.refreshToken.inj hk)]

theorem mem_keysWhere_tokens {p : RefreshToken → Bool} {jti : Uuid} :
    Key.refreshToken jti ∈ s.keysWhere (tokensWhere p) ↔
      (Db.refreshToken s jti).any p = true := by
  rw [Store.mem_keysWhere, Db.refreshToken, Option.any_eq_true]
  constructor
  · rintro ⟨t, ht, hp⟩
    obtain ⟨t, rfl, hp⟩ := Option.any_eq_true _ _ |>.mp hp
    exact ⟨t, by rw [ht, Option.join_some], hp⟩
  · rintro ⟨t, ht, hp⟩
    exact ⟨some t, Option.join_eq_some_iff.mp ht, hp⟩

/-- **The tokens after a statement over many tokens.** -/
theorem UpdatesTokens.after {p : RefreshToken → Bool} {f : RefreshToken → Option RefreshToken}
    (h : UpdatesTokens c s p f) {jti : Uuid} {t : RefreshToken}
    (ht : Db.refreshToken c.before jti = some t) :
    Db.refreshToken c.after jti =
      if (Db.refreshToken s jti).any p = true ∧ p t = true then f t else some t := by
  obtain ⟨-, scan, hwrites⟩ := h
  have hrow := Option.join_eq_some_iff.mp ht
  have hkey : Key.refreshToken jti ∈ scan.order (s.keysWhere (tokensWhere p)) ↔ _ :=
    (scan.perm _).mem_iff.trans mem_keysWhere_tokens
  rw [Db.refreshToken, Commit.after, hwrites, row_updatesOf, hrow]
  by_cases hfound : (Db.refreshToken s jti).any p = true
  · rw [if_pos (hkey.mpr hfound)]
    by_cases hp : p t = true
    · simp [hfound, hp, Prog.changeWhere, tokensWhere, onTokens]
    · simp [hp, Prog.changeWhere, tokensWhere]
  · rw [if_neg fun hk => hfound (hkey.mp hk), if_neg fun h => hfound h.1, Option.join_some]

/-- A statement over many tokens makes no new ones. -/
theorem UpdatesTokens.after_none {p : RefreshToken → Bool}
    {f : RefreshToken → Option RefreshToken} (h : UpdatesTokens c s p f) {jti : Uuid}
    (ht : Db.refreshToken c.before jti = none) : Db.refreshToken c.after jti = none := by
  obtain ⟨-, scan, hwrites⟩ := h
  rw [Db.refreshToken, Commit.after, hwrites, row_updatesOf]
  cases hrow : c.before.row (.refreshToken jti) with
  | none => simp
  | some t =>
    obtain rfl : t = none := by rwa [Db.refreshToken, hrow, Option.join_some] at ht
    simp [Prog.changeWhere, tokensWhere]

theorem UpdatesTokens.tokens {p : RefreshToken → Bool} {f : RefreshToken → Option RefreshToken}
    (h : UpdatesTokens c s p f) : ∀ w ∈ c.writes, ∃ jti, w.1 = .refreshToken jti := by
  obtain ⟨-, scan, hwrites⟩ := h
  rw [hwrites]
  exact fun w hw => isToken_of_updatesOf scan hw

/-- The user is as before, as far as the administrators are concerned. -/
structure SamePool (u u' : User) : Prop where
  role : u'.role = u.role
  isActive : u'.isActive = u.isActive
  deletedAt : u'.deletedAt = u.deletedAt

theorem SamePool.refl (u : User) : SamePool u u := ⟨rfl, rfl, rfl⟩

theorem SamePool.trans {u u' u'' : User} (h : SamePool u u') (h' : SamePool u' u'') :
    SamePool u u'' :=
  ⟨h'.role.trans h.role, h'.isActive.trans h.isActive, h'.deletedAt.trans h.deletedAt⟩

theorem SamePool.inAdminPool_iff {u u' : User} (h : SamePool u u') :
    u'.InAdminPool ↔ u.InAdminPool := by
  rw [User.InAdminPool, User.InAdminPool, h.role, h.isActive, h.deletedAt]

/-- What a commit does to the users. -/
inductive UserChange (c : Commit) : Prop
  | none (after : ∀ id, Db.user c.after id = Db.user c.before id)
  | create (id : Uuid) (u : User) (fresh : Db.user c.before id = none)
      (after : ∀ id', Db.user c.after id' = if id' = id then some u else Db.user c.before id')
  | edit (id : Uuid) (u u' : User) (current : Db.user c.before id = some u) (same : SamePool u u')
      (after : ∀ id', Db.user c.after id' = if id' = id then some u' else Db.user c.before id')
  | pool (id : Uuid) (u u' : User) (changes : ChangesPool c id u u')

theorem Transacts.userChange (h : Transacts ttl c) : UserChange c := by
  cases h with
  | issue userId jti familyId now drawn fresh writes =>
    exact .none (user_after_of_tokens (by rw [writes]; simp))
  | rotate jti newJti t now later presented drawn clock current active fresh writes =>
    exact .none (user_after_of_tokens (by rw [writes]; simp))
  | invalid jti userId presented current writes =>
    exact .none (user_after_of_tokens (by rw [writes]; simp))
  | revoke target s revokes updates => exact .none (user_after_of_tokens updates.tokens)
  | purge scan now s req updates => exact .none (user_after_of_tokens updates.tokens)
  | createUser dto hash id u req fresh writes => exact .create id u fresh (user_after writes)
  | changePassword id verify newHash scan u req verified current live writes =>
    refine .edit id u { u with passwordHash := newHash, mustChangePassword := false } current ?_ ?_
    · exact ⟨rfl, rfl, rfl⟩
    · exact user_after writes
  | resetPassword id hash scan u req current live writes =>
    refine .edit id u { u with passwordHash := hash, mustChangePassword := true } current ?_ ?_
    · exact ⟨rfl, rfl, rfl⟩
    · exact user_after writes
  | updateUser actorId id dto scan u req changes => exact .pool id u _ changes
  | removeUser actorId id scan now u email req changes => exact .pool id u _ changes

/-- What a commit does to the refresh tokens. -/
inductive TokenChange (ttl : ℕ) (c : Commit) : Prop
  | none (after : ∀ jti, Db.refreshToken c.after jti = Db.refreshToken c.before jti)
  | issue (userId jti familyId : Uuid) (now : Timestamp) (drawn : c.req.drawn = [jti, familyId])
      (fresh : Db.refreshToken c.before jti = none)
      (after : ∀ jti', Db.refreshToken c.after jti' =
        if jti' = jti then some (.issued userId familyId (now + ttl))
        else Db.refreshToken c.before jti')
  | rotate (jti newJti : Uuid) (t : RefreshToken) (now later : Timestamp)
      (presented : c.req.presented = some (jti, t.userId)) (drawn : c.req.drawn = [newJti])
      (clock : c.req.rotatedAt = some later)
      (current : Db.refreshToken c.before jti = some t) (active : t.status = .active)
      (fresh : Db.refreshToken c.before newJti = none)
      (after : ∀ jti', Db.refreshToken c.after jti' =
        if jti' = newJti then some (.issued t.userId t.familyId (later + ttl))
        else if jti' = jti then some (t.consume now newJti)
        else Db.refreshToken c.before jti')
  | revoke (target : Target) (s : Db) (revokes : Revokes c target)
      (updates : UpdatesTokens c s target.covers fun t => some t.revoke)
  | purge (now : Timestamp) (s : Db)
      (updates : UpdatesTokens c s (fun t => t.expiresAt < now) fun _ => none)

theorem Transacts.tokenChange (h : Transacts ttl c) : TokenChange ttl c := by
  cases h with
  | issue userId jti familyId now drawn fresh writes =>
    refine .issue userId jti familyId now drawn fresh fun jti' => ?_
    rw [Commit.after, writes, Store.putAll_cons, Store.putAll_nil, refreshToken_put]
  | rotate jti newJti t now later presented drawn clock current active fresh writes =>
    refine .rotate jti newJti t now later presented drawn clock current active fresh fun jti' => ?_
    rw [Commit.after, writes, Store.putAll_cons, Store.putAll_cons, Store.putAll_nil,
      refreshToken_put, refreshToken_put]
  | invalid jti userId presented current writes =>
    refine .none fun jti' => ?_
    rw [Commit.after, writes, Store.putAll_nil]
  | revoke target s revokes updates => exact .revoke target s revokes updates
  | purge scan now s req updates => exact .purge now s updates
  | createUser dto hash id u req fresh writes => exact .none (refreshToken_after_of_user writes)
  | changePassword id verify newHash scan u req verified current live writes =>
    exact .none (refreshToken_after_of_user writes)
  | resetPassword id hash scan u req current live writes =>
    exact .none (refreshToken_after_of_user writes)
  | updateUser actorId id dto scan u req changes =>
    exact .none (refreshToken_after_of_user changes.writes)
  | removeUser actorId id scan now u email req changes =>
    exact .none (refreshToken_after_of_user changes.writes)

end After

/-- What the requests guarantee each other. Any of them may fail after a commit: a rotation that has
revoked a family, a change of a user whose sessions are still to be revoked. -/
def protocol (ttl : ℕ) : Protocol Row LockName Query Request where
  guar := Transacts ttl
  rely := fun _ => True
  late := fun _ => True

end AccountingApi.Auth
