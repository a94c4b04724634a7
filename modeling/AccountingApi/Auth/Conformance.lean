import AccountingApi.Auth.Transactions

/-!
# The requests keep the protocol

One theorem for each service, whatever the others commit between two of its statements. What a change of
an administrator has counted under the advisory lock still is there when it commits.

## Main results

* `keepsPool_of_drift`: the active administrators under the advisory lock
* `code_wp`: every request keeps the protocol
-/

namespace AccountingApi.Auth

open ReadCommitted

/-- What a request has done in its current transaction. -/
abbrev Tx := Local Row LockName Query

section Tokens

variable {ttl : ℕ} {r : Request} {ℓ : Tx}

/-- A query of a request that has written nothing sees what is committed. -/
theorem wp_select {P : Protocol Row LockName Query Request} {q : Query} {post : Db → Tx → Prop}
    (hnew : ℓ.published = false) (hbuf : ℓ.buf = [])
    (h : ∀ s ℓ', ℓ.Ran P r ℓ' [] (fun c => (q, s) ∈ c.seen ∧ Drift P none s c.before ∧
      ∀ l ∈ ℓ.locks, Drift P (some l) s c.before) → ℓ'.buf = [] → post s ℓ') :
    (select q).wp P r ℓ post := by
  refine Prog.wp_query hnew fun s ℓ' hr => ?_
  have hview : ℓ.view s = s := by rw [Local.view, hbuf, Store.putAll_nil]
  rw [hview]
  exact h s ℓ' hr (by rw [hr.buf, hbuf, List.append_nil])

/-- A new token: its key is free in what the commit finds. -/
theorem wp_insertToken {P : Protocol Row LockName Query Request} {id : Uuid} {t : RefreshToken}
    {post : Unit → Tx → Prop} (hnew : ℓ.published = false)
    (h : ∀ ℓ', ℓ.Ran P r ℓ' [⟨.refreshToken id, some t⟩]
      (fun c => Db.refreshToken (c.before.putAll ℓ.buf) id = none) → post () ℓ') :
    (insertToken id t).wp P r ℓ post := by
  refine Prog.wp_bind.mpr (Prog.wp_lockRow hnew fun s ℓ₁ h₁ => ?_)
  refine Prog.wp_bind.mpr (Prog.wp_ensure h₁.new fun hnone => ?_)
  refine Prog.wp_write h₁.new fun ℓ₂ h₂ => h ℓ₂ ((h₁.trans h₂).mono fun c hc => ?_)
  rw [Db.refreshToken, hc.1]
  exact Option.isNone_iff_eq_none.mp hnone

/-- A statement over many tokens. -/
theorem wp_updateTokens {P : Protocol Row LockName Query Request} {scan : ScanOrder Key}
    {p : RefreshToken → Bool} {f : RefreshToken → Option RefreshToken} {post : ℕ → Tx → Prop}
    (hnew : ℓ.published = false) (hbuf : ℓ.buf = [])
    (h : ∀ n ws s ℓ', ℓ.Ran P r ℓ' ws (fun c => (.refreshTokens, s) ∈ c.seen ∧
      ws = updatesOf (Prog.changeWhere (tokensWhere p) (onTokens f))
        (scan.order (s.keysWhere (tokensWhere p))) c.before) → post n ℓ') :
    (updateTokens scan p f).wp P r ℓ post :=
  Prog.wp_updateWhere hnew hbuf fun n ws s ℓ' hr =>
    h n ws s ℓ' (hr.mono fun _ hc => ⟨hc.1, hc.2.2⟩)

theorem wp_issue {userId jti familyId : Uuid} {now : Timestamp} (hnew : ℓ.published = false)
    (hbuf : ℓ.buf = []) (hdrawn : r.drawn = [jti, familyId]) :
    (RefreshTokenService.issue ttl userId jti familyId now).wp (protocol ttl) r ℓ
      fun _ _ => True := by
  refine Prog.wp_bind.mpr (Prog.wp_transaction ?_)
  refine wp_insertToken hnew fun ℓ₁ h₁ db hs => ⟨?_, trivial⟩
  refine h₁.guar hbuf hs fun c hreq hwrites hfresh => ?_
  rw [hbuf, Store.putAll_nil] at hfresh
  exact .issue userId jti familyId now (hreq ▸ hdrawn) hfresh hwrites

/-- A revocation, of what the request is known to revoke once it commits. -/
theorem wp_revokeWhere (target : Target) {scan : ScanOrder Key} {F : Commit → Prop} {ℓ₀ : Tx}
    (h₀ : ℓ₀.Ran (protocol ttl) r ℓ [] F) (hbuf₀ : ℓ₀.buf = [])
    (hrevokes : ∀ c : Commit, c.req = r → F c →
      (∀ w ∈ c.writes, ∃ jti, w.1 = Key.refreshToken jti) → Revokes c target) :
    (RefreshTokenService.revokeWhere scan target.covers).wp (protocol ttl) r ℓ
      fun _ ℓ' => ∀ db, ℓ'.Since (protocol ttl) db →
        ∀ pid others, Transacts ttl (ℓ'.toCommit pid r others db) := by
  have hbuf : ℓ.buf = [] := by rw [h₀.buf, hbuf₀, List.append_nil]
  refine wp_updateTokens h₀.new hbuf fun n ws s ℓ₁ h₁ db hs => ?_
  refine (h₀.trans h₁).guar hbuf₀ hs fun c hreq hwrites hc => ?_
  obtain ⟨hF, hseen, hws⟩ := hc
  have hupdates : UpdatesTokens c s target.covers fun t => some t.revoke :=
    ⟨hseen, scan, hwrites.trans hws⟩
  refine .revoke target s (hrevokes c hreq hF ?_) hupdates
  intro w hw
  rw [hwrites, List.nil_append, hws] at hw
  exact isToken_of_updatesOf scan hw

/-- A rotation: the token it presents is as the transaction has found it under the lock. -/
theorem wp_rotate {jti userId newJti : Uuid} {scan : ScanOrder Key} {now later : Timestamp}
    (hnew : ℓ.published = false) (hbuf : ℓ.buf = [])
    (hpresented : r.presented = some (jti, userId)) (hdrawn : r.drawn = [newJti])
    (hclock : r.rotatedAt = some later) :
    (RefreshTokenService.rotate ttl jti userId newJti scan now later).wp (protocol ttl) r ℓ
      fun _ _ => True := by
  have hend : ∀ (result : RefreshTokenService.RotateResult) (ℓ' : Tx),
      result.orThrow.wp (protocol ttl) r ℓ' fun _ _ => True := by
    intro result ℓ'
    cases result with
    | ok token => exact trivial
    | invalid => exact fun _ => trivial
    | reuse => exact fun _ => trivial
  refine Prog.wp_bind.mpr (Prog.wp_transaction ?_)
  refine Prog.wp_bind.mpr (Prog.wp_lockRow hnew fun s ℓ₁ h₁ => ?_)
  have hbuf₁ : ℓ₁.buf = [] := by rw [h₁.buf, hbuf, List.append_nil]
  have hrow : ∀ c : Commit, (c.before.putAll ℓ.buf).row (.refreshToken jti) = s.row (.refreshToken jti) →
      Db.refreshToken c.before jti = Db.refreshToken s jti := by
    intro c hc
    rw [hbuf, Store.putAll_nil] at hc
    rw [Db.refreshToken, Db.refreshToken, hc]
  cases hcurrent : Db.refreshToken s jti with
  | none =>
    refine fun db hs => ⟨?_, hend _ _⟩
    refine h₁.guar hbuf hs fun c hreq hwrites hc => ?_
    refine .invalid jti userId (hreq ▸ hpresented) (fun t ht => ?_) hwrites
    rw [hrow c hc, hcurrent] at ht
    cases ht
  | some row =>
    by_cases hinvalid : row.userId ≠ userId ∨ row.status = .revoked
    · simp only [if_pos hinvalid]
      refine fun db hs => ⟨?_, hend _ _⟩
      refine h₁.guar hbuf hs fun c hreq hwrites hc => ?_
      refine .invalid jti userId (hreq ▸ hpresented) (fun t ht => ?_) hwrites
      rw [hrow c hc, hcurrent] at ht
      exact Option.some.inj ht ▸ hinvalid
    · simp only [if_neg hinvalid]
      obtain ⟨huser, hnot⟩ := not_or.mp hinvalid
      obtain rfl := not_not.mp huser
      by_cases hconsumed : row.status = .consumed
      · simp only [if_pos hconsumed]
        refine Prog.wp_bind.mpr (Prog.wp_mono (wp_revokeWhere (.family row.familyId) h₁ hbuf
          fun c hreq hc _ => ?_) fun n ℓ₂ h₂ db hs => ⟨h₂ db hs, hend _ _⟩)
        exact .inl ⟨jti, row.userId, row, hreq ▸ hpresented, (hrow c hc).trans hcurrent, rfl,
          hconsumed, rfl⟩
      · simp only [if_neg hconsumed]
        have hactive : row.status = .active := by
          cases hstatus : row.status with
          | active => rfl
          | consumed => exact absurd hstatus hconsumed
          | revoked => exact absurd hstatus hnot
        refine Prog.wp_bind.mpr (Prog.wp_write h₁.new fun ℓ₂ h₂ => ?_)
        refine Prog.wp_bind.mpr (wp_insertToken h₂.new fun ℓ₃ h₃ db hs => ⟨?_, hend _ _⟩)
        refine (h₁.trans (h₂.trans h₃)).guar hbuf hs fun c hreq hwrites hc => ?_
        obtain ⟨hlocked, -, hfresh⟩ := hc
        rw [h₂.buf, hbuf₁, List.nil_append, Store.putAll_cons, Store.putAll_nil] at hfresh
        -- the successor's key is not that of the token itself
        have hne : newJti ≠ jti := by
          rintro rfl
          rw [Db.refreshToken, Store.row_put_self] at hfresh
          cases hfresh
        rw [Db.refreshToken, Store.row_put_of_ne _ _ fun h => hne (Key.refreshToken.inj h)] at hfresh
        exact .rotate jti newJti row now later (hreq ▸ hpresented) (hreq ▸ hdrawn) (hreq ▸ hclock)
          ((hrow c hlocked).trans hcurrent) hactive hfresh hwrites

/-- The sessions of a user revoked, as the whole request or after a transaction of its own. -/
theorem wp_revokeAllForUser {userId : Uuid} {scan : ScanOrder Key} {post : Unit → Tx → Prop}
    (hbuf : ℓ.buf = []) (hrevoked : r.revoked = some userId) (hpost : ∀ ℓ', post () ℓ') :
    (RefreshTokenService.revokeAllForUser userId scan).wp (protocol ttl) r ℓ post := by
  refine Prog.wp_of_published trivial ?_ ?_ fun _ => hpost
  · intro c hc
    cases hc with
    | issue userId jti familyId now drawn fresh writes =>
      exact .issue userId jti familyId now drawn fresh writes
    | rotate jti newJti t now later presented drawn clock current active fresh writes =>
      exact .rotate jti newJti t now later presented drawn clock current active fresh writes
    | invalid jti userId presented current writes => exact .invalid jti userId presented current writes
    | revoke target s revokes updates =>
      refine .revoke target s ?_ ⟨updates.seen, updates.writes⟩
      cases target <;> exact revokes
    | purge scan now s req updates => exact .purge scan now s req ⟨updates.seen, updates.writes⟩
    | createUser dto hash id u req fresh writes => exact .createUser dto hash id u req fresh writes
    | changePassword id verify newHash scan u req verified current live writes =>
      exact .changePassword id verify newHash scan u req verified current live writes
    | resetPassword id hash scan u req current live writes =>
      exact .resetPassword id hash scan u req current live writes
    | updateUser actorId id dto scan u req changes =>
      exact .updateUser actorId id dto scan u req { changes with }
    | removeUser actorId id scan now u email req changes =>
      exact .removeUser actorId id scan now u email req { changes with }
  · have hran : ({ ℓ with published := false } : Tx).Ran (protocol ttl) r
        { ℓ with published := false } [] fun _ => True := .refl rfl
    refine Prog.wp_bind.mpr (Prog.wp_transaction (Prog.wp_mono (wp_revokeWhere (.user userId)
      hran hbuf fun c hreq _ htokens => ?_) fun n ℓ₂ h₂ db hs => ⟨h₂ db hs, trivial⟩))
    exact ⟨hreq ▸ hrevoked, htokens⟩

theorem wp_revokeFamilyByJti {jti : Uuid} {scan : ScanOrder Key} (hnew : ℓ.published = false)
    (hbuf : ℓ.buf = []) (hloggedOut : r.loggedOut = some jti) :
    (RefreshTokenService.revokeFamilyByJti jti scan).wp (protocol ttl) r ℓ fun _ _ => True := by
  refine Prog.wp_bind.mpr (wp_select hnew hbuf fun s ℓ₁ h₁ _ => ?_)
  cases hrow : Db.refreshToken s jti with
  | none => exact trivial
  | some row =>
    refine Prog.wp_bind.mpr (Prog.wp_transaction (Prog.wp_mono
      (wp_revokeWhere (.family row.familyId) h₁ hbuf fun c hreq hc _ => ?_)
      fun n ℓ₂ h₂ db hs => ⟨h₂ db hs, trivial⟩))
    exact .inr ⟨jti, s, row, hreq ▸ hloggedOut, hc.1, hrow, rfl⟩

theorem wp_purgeExpired {scan : ScanOrder Key} {now : Timestamp}
    (hreq : r = .purgeExpired scan now) (hnew : ℓ.published = false) (hbuf : ℓ.buf = []) :
    (RefreshTokenService.purgeExpired scan now).wp (protocol ttl) r ℓ fun _ _ => True := by
  refine Prog.wp_transaction (wp_updateTokens hnew hbuf fun n ws s ℓ₁ h₁ db hs => ⟨?_, trivial⟩)
  refine h₁.guar hbuf hs fun c hr hwrites hc => ?_
  exact .purge scan now s (hr.trans hreq) ⟨hc.1, scan, hwrites.trans hc.2⟩

end Tokens

/-! ## Users -/

section Drift

variable {ttl : ℕ} {s db : Db} {m : Mode}

/-- **Under the advisory lock** a user stays as it is, as far as the administrators are concerned. -/
theorem keepsPool_of_drift (h : Drift (protocol ttl) (some (.named .userAdmin, m)) s db) {id : Uuid}
    {u : User} (hu : Db.user s id = some u) : ∃ u', Db.user db id = some u' ∧ SamePool u u' := by
  refine h.keeps (I := fun db => ∃ u', Db.user db id = some u' ∧ SamePool u u') ?_ ⟨u, hu, .refl u⟩
  rintro _ _ ⟨c, hguar, -, -, hheld, rfl, rfl⟩ ⟨u₁, hu₁, hsame⟩
  cases hguar.userChange with
  | none after => exact ⟨u₁, by rw [after, hu₁], hsame⟩
  | create id' u₂ fresh after =>
    have hne : id ≠ id' := by
      rintro rfl
      rw [fresh] at hu₁
      cases hu₁
    exact ⟨u₁, by rw [after, if_neg hne, hu₁], hsame⟩
  | edit id' u₂ u₃ current same after =>
    by_cases hid : id = id'
    · subst hid
      obtain rfl : u₁ = u₂ := Option.some.inj (hu₁ ▸ current)
      exact ⟨u₃, by rw [after, if_pos rfl], hsame.trans same⟩
    · exact ⟨u₁, by rw [after, if_neg hid, hu₁], hsame⟩
  | pool id' u₂ u₃ changes =>
    -- a change of an administrator holds the lock itself
    have hconf := (hheld _ rfl).2 _ changes.lock
    simp [Conflicts] at hconf

end Drift

section Users

variable {ttl : ℕ} {r : Request} {ℓ : Tx}

/-- An update of a user: the row is the one the commit finds. -/
theorem wp_updateUser {P : Protocol Row LockName Query Request} {id : Uuid} {p : User → Prop}
    [DecidablePred p] {f : User → User} {post : User → Tx → Prop} (hnew : ℓ.published = false)
    (hbuf : ℓ.buf = [])
    (h : ∀ u ℓ', p u → ℓ.Ran P r ℓ' [⟨.user id, f u⟩] (fun c => Db.user c.before id = some u) →
      post (f u) ℓ') :
    (updateUser id p f).wp P r ℓ post := by
  refine Prog.wp_bind.mpr (Prog.wp_lockRow hnew fun s ℓ₁ h₁ => ?_)
  refine Prog.wp_bind.mpr (Prog.wp_orThrow h₁.new fun u hu => ?_)
  obtain ⟨hu, hp⟩ := Option.filter_eq_some_iff.mp hu
  refine Prog.wp_bind.mpr (Prog.wp_write h₁.new fun ℓ₂ h₂ => h u ℓ₂ (of_decide_eq_true hp) ?_)
  refine (h₁.trans h₂).mono fun c hc => ?_
  have hrow := hc.1
  rw [hbuf, Store.putAll_nil] at hrow
  exact hrow.trans hu

/-- The entry of the unique index on email addresses. -/
theorem wp_claimEmail {P : Protocol Row LockName Query Request} {email : String} {id : Uuid}
    {post : Unit → Tx → Prop} (hnew : ℓ.published = false)
    (h : ∀ ℓ', ℓ.Ran P r ℓ' [] (fun _ => True) → post () ℓ') :
    (claimEmail email id).wp P r ℓ post := by
  refine Prog.wp_bind.mpr (Prog.wp_lock hnew fun s ℓ₁ h₁ _ => ?_)
  exact Prog.wp_ensure h₁.new fun _ => h ℓ₁ (h₁.mono fun _ _ => trivial)

/-- The target of a change of an administrator is, under the lock, what it was when it was read. -/
theorem wp_lockTarget {id : Uuid} {post : User → Tx → Prop} (hnew : ℓ.published = false)
    (hbuf : ℓ.buf = [])
    (h : ∀ target ℓ', (.named .userAdmin, .exclusive) ∈ ℓ'.locks → target.deletedAt = none →
      ℓ.Ran (protocol ttl) r ℓ' [] (fun c => (.named .userAdmin, .exclusive) ∈ c.locks ∧
        ∃ u, Db.user c.before id = some u ∧ SamePool target u) → post target ℓ') :
    (UserAdminService.lockTarget id).wp (protocol ttl) r ℓ post := by
  refine Prog.wp_bind.mpr (Prog.wp_lock hnew fun s ℓ₁ h₁ hlock => ?_)
  have hbuf₁ : ℓ₁.buf = [] := by rw [h₁.buf, hbuf, List.append_nil]
  refine Prog.wp_bind.mpr (wp_select h₁.new hbuf₁ fun s₂ ℓ₂ h₂ _ => ?_)
  refine Prog.wp_orThrow h₂.new fun target htarget => ?_
  obtain ⟨htarget, hlive⟩ := Option.filter_eq_some_iff.mp htarget
  refine h target ℓ₂ (h₂.ext.locks hlock) (Option.isNone_iff_eq_none.mp hlive) ?_
  refine (h₁.trans h₂).mono fun c hc => ⟨hc.1.1, ?_⟩
  exact keepsPool_of_drift (hc.2.2.2 _ hlock) htarget

/-- Another administrator that was counted under the lock still is one. -/
theorem wp_assertOtherAdmin {id : Uuid} {post : Unit → Tx → Prop} (hnew : ℓ.published = false)
    (hbuf : ℓ.buf = []) (hlock : (.named .userAdmin, .exclusive) ∈ ℓ.locks)
    (h : ∀ ℓ', ℓ.Ran (protocol ttl) r ℓ' [] (fun c =>
      ∃ id' a, id' ≠ id ∧ Db.user c.before id' = some a ∧ a.InAdminPool) → post () ℓ') :
    (UserAdminService.assertOtherAdmin id).wp (protocol ttl) r ℓ post := by
  refine Prog.wp_bind.mpr (wp_select hnew hbuf fun s ℓ₁ h₁ _ => ?_)
  refine Prog.wp_ensure h₁.new fun hother => h ℓ₁ (h₁.mono fun c hc => ?_)
  obtain ⟨id', hid'⟩ := List.exists_mem_of_ne_nil _ hother
  obtain ⟨k, v, hv, hk⟩ := Store.mem_collect.mp hid'
  cases k with
  | refreshToken jti => cases hk
  | user id₂ =>
    simp only [Option.ite_none_right_eq_some] at hk
    obtain ⟨⟨hpool, hne⟩, hid⟩ := hk
    cases hid
    obtain ⟨a, ha, hsame⟩ := keepsPool_of_drift (hc.2.2 _ hlock) hv
    exact ⟨id', a, hne, ha, hsame.inAdminPool_iff.mpr hpool⟩

/-- An administrator the request does not take out of the pool stays in it. -/
theorem inAdminPool_apply {dto : UpdateUserDto} {target u : User} (hsame : SamePool target u)
    (hnot : ¬ UserAdminService.leavesAdminPool dto target) (h : u.InAdminPool) :
    (dto.apply u).InAdminPool := by
  obtain ⟨hrole, hactive, hlive⟩ := h
  have hstays : ¬ ((∃ role ∈ dto.role, role ≠ .admin) ∨ dto.isActive = some false) := fun hleaves =>
    hnot ⟨hsame.role ▸ hrole, hsame.isActive ▸ hactive, hleaves⟩
  obtain ⟨hrole', hactive'⟩ := not_or.mp hstays
  refine ⟨?_, ?_, hlive⟩
  · change dto.role.getD u.role = .admin
    cases hdto : dto.role with
    | none => exact hrole
    | some role => exact by_contra fun hne => hrole' ⟨role, hdto, hne⟩
  · change dto.isActive.getD u.isActive = true
    cases hdto : dto.isActive with
    | none => exact hactive
    | some isActive =>
      cases isActive with
      | true => rfl
      | false => exact absurd hdto hactive'

theorem wp_createUser {dto : CreateUserDto} {hash : String} {newId : Uuid}
    (hreq : r = .createUser dto hash newId) (hnew : ℓ.published = false) (hbuf : ℓ.buf = []) :
    (UserAdminService.createWithTempPassword dto hash newId).wp (protocol ttl) r ℓ
      fun _ _ => True := by
  refine Prog.wp_bind.mpr (Prog.wp_bind.mpr (wp_select hnew hbuf fun s ℓ₁ h₁ hbuf₁ => ?_))
  refine Prog.wp_bind.mpr (Prog.wp_ensure h₁.new fun _ => ?_)
  refine Prog.wp_bind.mpr (Prog.wp_mapThrow.mpr (Prog.wp_transaction ?_))
  refine Prog.wp_bind.mpr (Prog.wp_lockRow h₁.new fun s ℓ₂ h₂ => ?_)
  refine Prog.wp_bind.mpr (Prog.wp_ensure h₂.new fun hnone => ?_)
  refine Prog.wp_bind.mpr (Prog.wp_write h₂.new fun ℓ₃ h₃ => ?_)
  refine wp_claimEmail h₃.new fun ℓ₄ h₄ db hs => ⟨?_, trivial⟩
  refine (h₁.trans (h₂.trans (h₃.trans h₄))).guar hbuf hs fun c hr hwrites hc => ?_
  have hfresh := hc.2.1
  rw [hbuf₁, Store.putAll_nil] at hfresh
  exact .createUser dto hash newId _ (hr.trans hreq)
    (hfresh.trans (Option.isNone_iff_eq_none.mp hnone)) hwrites

theorem wp_changePassword {id : Uuid} {verify : String → Bool} {newHash : String}
    {scan : ScanOrder Key} (hreq : r = .changePassword id verify newHash scan)
    (hnew : ℓ.published = false) (hbuf : ℓ.buf = []) :
    (AuthService.changePassword id verify newHash scan).wp (protocol ttl) r ℓ
      fun _ _ => True := by
  refine Prog.wp_bind.mpr (Prog.wp_bind.mpr (wp_select hnew hbuf fun s ℓ₁ h₁ hbuf₁ => ?_))
  refine Prog.wp_bind.mpr (Prog.wp_ensure h₁.new fun hverified => ?_)
  refine Prog.wp_bind.mpr (Prog.wp_transaction ?_)
  refine wp_updateUser h₁.new hbuf₁ fun u ℓ₂ hlive h₂ db hs => ⟨?_, ?_⟩
  · refine (h₁.trans h₂).guar hbuf hs fun c hr hwrites hc => ?_
    obtain ⟨u₀, hu₀⟩ := Option.isSome_iff_exists.mp hverified
    obtain ⟨hu₀, hverify⟩ := Option.filter_eq_some_iff.mp hu₀
    exact .changePassword id verify newHash scan u (hr.trans hreq) ⟨s, u₀, hc.1.1, hu₀, hverify⟩ hc.2
      hlive hwrites
  · exact wp_revokeAllForUser rfl (by rw [hreq]; rfl) fun _ => trivial

theorem wp_resetPassword {id : Uuid} {hash : String} {scan : ScanOrder Key}
    (hreq : r = .resetPassword id hash scan) (hnew : ℓ.published = false) (hbuf : ℓ.buf = []) :
    (UserAdminService.resetPassword id hash scan).wp (protocol ttl) r ℓ fun _ _ => True := by
  refine Prog.wp_bind.mpr (Prog.wp_mapThrow.mpr (Prog.wp_transaction ?_))
  refine wp_updateUser hnew hbuf fun u ℓ₁ hlive h₁ db hs => ⟨?_, Prog.wp_bind.mpr ?_⟩
  · refine h₁.guar hbuf hs fun c hr hwrites hc => ?_
    exact .resetPassword id hash scan u (hr.trans hreq) hc hlive hwrites
  · exact wp_revokeAllForUser rfl (by rw [hreq]; rfl) fun _ => trivial

/-- A change of an administrator, once the target is locked and another one is counted if need be. -/
theorem wp_changePool {id : Uuid} {f : User → User} {target : User} {leaves : Prop} {ℓ₀ : Tx}
    {post : User → Tx → Prop} (hbuf₀ : ℓ₀.buf = []) (hlive : target.deletedAt = none)
    (h₀ : ℓ₀.Ran (protocol ttl) r ℓ [] fun c => ((.named .userAdmin, .exclusive) ∈ c.locks ∧
      ∃ u, Db.user c.before id = some u ∧ SamePool target u) ∧
      (leaves → ∃ id' a, id' ≠ id ∧ Db.user c.before id' = some a ∧ a.InAdminPool))
    (hstays : ¬ leaves → ∀ u, SamePool target u → u.InAdminPool → (f u).InAdminPool)
    (h : ∀ u ℓ', ℓ₀.Ran (protocol ttl) r ℓ' [⟨.user id, f u⟩] (fun c =>
      c.writes = [⟨.user id, f u⟩] → ChangesPool c id u (f u)) → post (f u) ℓ') :
    (updateUser id (fun _ => True) f).wp (protocol ttl) r ℓ post := by
  have hbuf : ℓ.buf = [] := by rw [h₀.buf, hbuf₀, List.append_nil]
  refine wp_updateUser h₀.new hbuf fun u ℓ₁ _ h₁ => h u ℓ₁ ((h₀.trans h₁).mono ?_)
  rintro c ⟨⟨⟨hlock, u', hu', hsame⟩, hother⟩, hcurrent⟩ hwrites
  obtain rfl : u = u' := Option.some.inj (hcurrent ▸ hu')
  refine ⟨hlock, hcurrent, hsame.deletedAt.trans hlive, fun hin hout => ?_, hwrites⟩
  by_cases hleaves : leaves
  · exact hother hleaves
  · exact absurd (hstays hleaves u hsame hin) hout

/-- The target locked, and another administrator counted if the condition on the target holds. -/
theorem wp_lockTarget_when {α : Type} {id : Uuid} (leaves : User → Prop) [DecidablePred leaves]
    {f : User → Program α} {post : α → Tx → Prop} (hnew : ℓ.published = false)
    (hbuf : ℓ.buf = [])
    (h : ∀ target ℓ', target.deletedAt = none →
      ℓ.Ran (protocol ttl) r ℓ' [] (fun c => ((.named .userAdmin, .exclusive) ∈ c.locks ∧
        ∃ u, Db.user c.before id = some u ∧ SamePool target u) ∧
        (leaves target → ∃ id' a, id' ≠ id ∧ Db.user c.before id' = some a ∧ a.InAdminPool)) →
      (f target).wp (protocol ttl) r ℓ' post) :
    ((UserAdminService.lockTarget id).bind fun target =>
      (Prog.when (leaves target) (UserAdminService.assertOtherAdmin id)).bind fun _ =>
        f target).wp (protocol ttl) r ℓ post := by
  refine Prog.wp_bind.mpr (wp_lockTarget hnew hbuf fun target ℓ₁ hlock hlive h₁ => ?_)
  have hbuf₁ : ℓ₁.buf = [] := by rw [h₁.buf, hbuf, List.append_nil]
  by_cases hleaves : leaves target
  · rw [Prog.when, if_pos hleaves]
    refine Prog.wp_bind.mpr (wp_assertOtherAdmin h₁.new hbuf₁ hlock fun ℓ₂ h₂ => ?_)
    exact h target ℓ₂ hlive ((h₁.trans h₂).mono fun c hc => ⟨hc.1, fun _ => hc.2⟩)
  · rw [Prog.when, if_neg hleaves]
    exact h target ℓ₁ hlive (h₁.mono fun c hc => ⟨hc, fun hl => absurd hl hleaves⟩)

theorem wp_updateUser_request {actorId id : Uuid} {dto : UpdateUserDto} {scan : ScanOrder Key}
    (hreq : r = .updateUser actorId id dto scan) (hnew : ℓ.published = false) (hbuf : ℓ.buf = []) :
    (UserAdminService.update actorId id dto scan).wp (protocol ttl) r ℓ fun _ _ => True := by
  refine Prog.wp_bind.mpr (Prog.wp_ensure hnew fun _ => ?_)
  refine Prog.wp_bind.mpr (Prog.wp_ensure hnew fun _ => ?_)
  refine Prog.wp_bind.mpr (Prog.wp_transaction ?_)
  refine wp_lockTarget_when (UserAdminService.leavesAdminPool dto) hnew hbuf
    fun target ℓ₁ hlive h₁ => ?_
  refine wp_changePool hbuf hlive h₁ (fun hnot u hsame => inAdminPool_apply hsame hnot)
    fun u ℓ₂ h₂ db hs => ⟨?_, Prog.wp_bind.mpr ?_⟩
  · refine h₂.guar hbuf hs fun c hr hwrites hc => ?_
    exact .updateUser actorId id dto scan u (hr.trans hreq) (hc hwrites)
  · by_cases hrevokes : dto.role ≠ none ∨ dto.isActive ≠ none
    · rw [Prog.when, if_pos hrevokes]
      refine wp_revokeAllForUser rfl ?_ fun _ => trivial
      rw [hreq]
      exact if_pos hrevokes
    · rw [Prog.when, if_neg hrevokes]
      exact trivial

theorem wp_removeUser {actorId id : Uuid} {scan : ScanOrder Key} {now : Timestamp}
    (hreq : r = .removeUser actorId id scan now) (hnew : ℓ.published = false) (hbuf : ℓ.buf = []) :
    (UserAdminService.remove actorId id scan now).wp (protocol ttl) r ℓ fun _ _ => True := by
  refine Prog.wp_bind.mpr (Prog.wp_ensure hnew fun _ => ?_)
  refine Prog.wp_bind.mpr (Prog.wp_transaction ?_)
  refine wp_lockTarget_when (fun target => target.role = .admin ∧ target.isActive = true) hnew hbuf
    fun target ℓ₁ hlive h₁ => ?_
  refine Prog.wp_bind.mpr (wp_changePool hbuf hlive h₁ (fun hnot u hsame hin => ?_)
    fun u ℓ₂ h₂ => ?_)
  · exact absurd ⟨hsame.role ▸ hin.1, hsame.isActive ▸ hin.2.1⟩ hnot
  · refine wp_claimEmail h₂.new fun ℓ₃ h₃ db hs => ⟨?_, ?_⟩
    · refine (h₂.trans h₃).guar hbuf hs fun c hr hwrites hc => ?_
      exact .removeUser actorId id scan now u target.email (hr.trans hreq) (hc.1 hwrites)
    · exact wp_revokeAllForUser rfl (by rw [hreq]; rfl) fun _ => trivial

end Users

/-! ## Requests -/

theorem wp_respond {ttl : ℕ} {r : Request} {ℓ : Tx} {α : Type} {f : α → Response} {p : Program α}
    (h : p.wp (protocol ttl) r ℓ fun _ _ => True) :
    (respond f p).wp (protocol ttl) r ℓ fun _ _ => True :=
  Prog.wp_bind.mpr (Prog.wp_mono h fun _ _ _ => trivial)

/-- **Every request keeps the protocol.** -/
theorem code_wp (ttl : ℕ) (r : Request) :
    (code ttl r).wp (protocol ttl) r {} fun _ _ => True := by
  cases r with
  | issue userId jti familyId now => exact wp_respond (wp_issue rfl rfl rfl)
  | rotate jti userId newJti scan now later => exact wp_respond (wp_rotate rfl rfl rfl rfl rfl)
  | revokeFamilyByJti jti scan => exact wp_respond (wp_revokeFamilyByJti rfl rfl rfl)
  | revokeAllForUser userId scan => exact wp_respond (wp_revokeAllForUser rfl rfl fun _ => trivial)
  | purgeExpired scan now => exact wp_respond (wp_purgeExpired rfl rfl rfl)
  | login email verify jti familyId now =>
    refine wp_respond (Prog.wp_bind.mpr (wp_select rfl rfl fun s ℓ₁ h₁ hbuf₁ => ?_))
    refine Prog.wp_bind.mpr (Prog.wp_orThrow h₁.new fun x _ => ?_)
    refine Prog.wp_bind.mpr (Prog.wp_ensure h₁.new fun _ => Prog.wp_bind.mpr ?_)
    exact Prog.wp_mono (wp_issue h₁.new hbuf₁ rfl) fun _ _ _ => trivial
  | refresh payload newJti scan now later =>
    cases payload with
    | none => exact wp_respond fun _ => trivial
    | some payload =>
      refine wp_respond (Prog.wp_bind.mpr (Prog.wp_bind.mpr ?_))
      refine wp_select rfl rfl fun s ℓ₁ h₁ hbuf₁ => ?_
      refine Prog.wp_bind.mpr (Prog.wp_orThrow h₁.new fun user _ => ?_)
      refine Prog.wp_bind.mpr (Prog.wp_ensure h₁.new fun _ => Prog.wp_bind.mpr ?_)
      exact Prog.wp_mono (wp_rotate h₁.new hbuf₁ rfl rfl rfl) fun _ _ _ => trivial
  | logout payload scan =>
    cases payload with
    | none => exact wp_respond trivial
    | some payload => exact wp_respond (wp_revokeFamilyByJti rfl rfl rfl)
  | logoutAll userId scan => exact wp_respond (wp_revokeAllForUser rfl rfl fun _ => trivial)
  | changePassword id verify newHash scan => exact wp_respond (wp_changePassword rfl rfl rfl)
  | createUser dto hash newId => exact wp_respond (wp_createUser rfl rfl rfl)
  | updateUser actorId id dto scan => exact wp_respond (wp_updateUser_request rfl rfl rfl)
  | resetPassword id hash scan => exact wp_respond (wp_resetPassword rfl rfl rfl)
  | removeUser actorId id scan now => exact wp_respond (wp_removeUser rfl rfl rfl)

end AccountingApi.Auth
