import AccountingApi.Auth.Sessions

/-!
# Revocation

A revocation writes the tokens its statement has found when it started. A token that a rotation commits
after that, while the revocation waits for the lock of its predecessor, is not among them. Where no
rotation comes in between, no token of the family is ever active again.

## Main definitions

* `NoActive`: a family has no active token
* `NotOvertaken`: no rotation came in between the start of a revocation and its commit
* `EndsSessions`: what a revocation is to achieve

## Main results

* `revoked_of_reachable`: revocations that are not overtaken end the sessions for good
* `logout_overtaken_by_refresh`: one that is overtaken does not
-/

namespace AccountingApi.Auth

open ReadCommitted

/-! ## Families without an active token -/

/-- No token of the family is active. -/
def NoActive (db : Db) (f : Uuid) : Prop :=
  ∀ jti t, Db.refreshToken db jti = some t → t.familyId = f → t.status ≠ .active

section Commit

variable {ttl : ℕ} {c : Commit} {f : Uuid}

/-- A new token of a family that is not new succeeds an active one. -/
theorem TokenChange.active_of_new (h : TokenChange ttl c) (hf : f ∉ c.req.drawn) {jti : Uuid}
    {t : RefreshToken} (ht : Db.refreshToken c.before jti = Option.none)
    (ht' : Db.refreshToken c.after jti = some t) (htf : t.familyId = f) :
    ∃ jti₀ t₀, Db.refreshToken c.before jti₀ = some t₀ ∧ t₀.familyId = f ∧ t₀.status = .active := by
  cases h with
  | none after =>
    rw [after, ht] at ht'
    cases ht'
  | issue userId jti' familyId now drawn fresh after =>
    rw [after, ht] at ht'
    split at ht'
    · cases ht'
      refine absurd ?_ hf
      rw [drawn, ← htf]
      exact List.mem_cons_of_mem _ List.mem_cons_self
    · cases ht'
  | rotate jti' newJti t₁ now later presented drawn clock current active fresh after =>
    rw [after, ht] at ht'
    split at ht'
    · cases ht'
      exact ⟨jti', t₁, current, htf, active⟩
    · split at ht'
      · rename_i hj
        rw [← hj, ht] at current
        cases current
      · cases ht'
  | revoke target s revokes updates =>
    rw [updates.after_none ht] at ht'
    cases ht'
  | purge now s updates =>
    rw [updates.after_none ht] at ht'
    cases ht'

/-- **One commit** gives no active token to a family that has none. -/
theorem NoActive.after (h : NoActive c.before f) (hc : TokenChange ttl c) (hf : f ∉ c.req.drawn) :
    NoActive c.after f := by
  intro jti t ht htf
  cases hbefore : Db.refreshToken c.before jti with
  | none =>
    obtain ⟨jti₀, t₀, ht₀, htf₀, hactive⟩ := hc.active_of_new hf hbefore ht htf
    exact absurd hactive (h jti₀ t₀ ht₀ htf₀)
  | some t₁ =>
    have hbecomes := hc.becomes hbefore ht
    exact hbecomes.settled (h jti t₁ hbefore (hbecomes.familyId.symm.trans htf))

end Commit

/-- A family that has no active token never gets one again. -/
theorem NoActive.since {ttl : ℕ} {db₀ db db₁ : Db} {h₁ h₂ : List Commit} {f : Uuid}
    (h : NoActive db₁ f) (hchain : Chain (protocol ttl) db₀ (h₂ ++ h₁) db)
    (hchain₁ : Chain (protocol ttl) db₀ h₁ db₁) (hnodup : (drawnKeys (h₂ ++ h₁)).Nodup)
    (hf : f ∈ drawnKeys h₁) : NoActive db f :=
  hchain.since (I := fun db => NoActive db f) hchain₁ h fun _ hc hguar hI =>
    hI.after (Transacts.tokenChange hguar) fun hdrawn => notMem_drawnKeys hnodup hc hdrawn hf

/-! ## Revocations -/

namespace Db

/-- The refresh tokens with their keys. -/
def refreshTokens (db : Db) : List (Uuid × RefreshToken) :=
  db.collect fun
    | .user _, _ => none
    | .refreshToken jti, t => t.map fun t => (jti, t)

theorem mem_refreshTokens {db : Db} {jti : Uuid} {t : RefreshToken} :
    (jti, t) ∈ Db.refreshTokens db ↔ Db.refreshToken db jti = some t := by
  rw [refreshTokens, Store.mem_collect, Db.refreshToken, Option.join_eq_some_iff]
  constructor
  · rintro ⟨k, v, hv, hk⟩
    cases k with
    | user id => cases hk
    | refreshToken jti' =>
      obtain ⟨t', rfl, ht'⟩ := Option.map_eq_some_iff.mp hk
      cases ht'
      exact hv
  · exact fun h => ⟨.refreshToken jti, some t, h, rfl⟩

end Db

/-- No rotation has committed a successor between the start of the statement that revokes and its
commit: the statement has found all tokens of the family, or of the families of the user that were there
when it started. -/
def NotOvertaken (c : Commit) : Target → Prop
  | .family f => ∀ q ∈ c.seen, q.1 = .refreshTokens → ∀ x ∈ Db.refreshTokens c.before,
      x.2.familyId = f → (Db.refreshToken q.2 x.1).isSome = true
  | .user u => ∀ q ∈ c.seen, q.1 = .refreshTokens → ∀ x ∈ Db.refreshTokens c.before,
      x.2.userId = u → (∃ y ∈ Db.refreshTokens q.2, y.2.familyId = x.2.familyId) →
      (Db.refreshToken q.2 x.1).isSome = true

/-- In `db`, the commit `c` after the history `h` has ended the sessions it revokes: the family has no
active token, nor has one of the user that was there when the statement of the commit started. -/
structure EndsSessions (ttl : ℕ) (db₀ : Db) (h : List Commit) (c : Commit) (db : Db) : Prop where
  family : ∀ f, Revokes c (.family f) → NoActive db f
  user : ∀ u, Revokes c (.user u) → ∃ s₂, (.refreshTokens, s₂) ∈ c.seen ∧
    ∀ s₁ jti t, CommittedBy (protocol ttl) db₀ h s₁ s₂ → Db.refreshToken s₁ jti = some t →
      t.userId = u → NoActive db t.familyId

/-- A request that logs a token out draws no key and does nothing else. -/
theorem Request.of_loggedOut {r : Request} {jti : Uuid} (h : r.loggedOut = some jti) :
    r.drawn = [] ∧ r.presented = none ∧ r.revoked = none := by
  cases r with
  | revokeFamilyByJti jti scan => exact ⟨rfl, rfl, rfl⟩
  | logout payload scan => exact ⟨rfl, rfl, rfl⟩
  | _ => cases h

/-- A request that revokes the sessions of a user draws no key and revokes no single family. -/
theorem Request.of_revoked {r : Request} {u : Uuid} (h : r.revoked = some u) :
    r.drawn = [] ∧ r.presented = none ∧ r.loggedOut = none := by
  cases r with
  | revokeAllForUser userId scan => exact ⟨rfl, rfl, rfl⟩
  | logoutAll userId scan => exact ⟨rfl, rfl, rfl⟩
  | changePassword id verify newHash scan => exact ⟨rfl, rfl, rfl⟩
  | updateUser actorId id dto scan => exact ⟨rfl, rfl, rfl⟩
  | resetPassword id hash scan => exact ⟨rfl, rfl, rfl⟩
  | removeUser actorId id scan now => exact ⟨rfl, rfl, rfl⟩
  | _ => cases h

section Revokes

variable {ttl : ℕ} {db₀ db : Db} {h h₁ h₂ : List Commit} {c : Commit} {f u : Uuid}

/-- A commit that is to revoke a family has revoked what its statement has found of it. -/
theorem Transacts.of_revokes_family (hc : Transacts ttl c) (hT : TokensKept db₀ h c.before)
    (hseen : ∀ q ∈ c.seen, Past db₀ h q.2) (hr : Revokes c (.family f)) :
    ∃ s, UpdatesTokens c s (Target.family f).covers fun t => some t.revoke := by
  rcases hr with ⟨jti, userId, t, hpresented, ht, rfl, hconsumed, rfl⟩ |
    ⟨jti, s, t, hlogged, hs, ht, rfl⟩
  · exact hc.of_reuse hpresented ht hconsumed
  obtain ⟨hdrawn, hpresented, hrevoked⟩ := Request.of_loggedOut hlogged
  cases hc with
  | issue userId jti' familyId now drawn fresh writes => exact nomatch hdrawn.symm.trans drawn
  | rotate jti' newJti t₁ now later presented drawn clock current active fresh writes =>
    exact nomatch hdrawn.symm.trans drawn
  | invalid jti' userId presented current writes => exact nomatch hpresented.symm.trans presented
  | revoke target s' revokes updates =>
    cases target with
    | family id =>
      rcases revokes with ⟨_, _, _, presented, -⟩ | ⟨jti', s₂, t₂, hlogged', hs₂, ht₂, rfl⟩
      · exact nomatch hpresented.symm.trans presented
      · -- both reads of the token have found the same family
        obtain rfl := Option.some.inj (hlogged.symm.trans hlogged')
        rw [hT.sameFamily s s₂ (hseen _ hs) (hseen _ hs₂) jti t t₂ ht ht₂]
        exact ⟨s', updates⟩
    | user id => exact nomatch hrevoked.symm.trans revokes.1
  | purge scan now s req updates =>
    rw [req] at hlogged
    cases hlogged
  | createUser dto hash id u req fresh writes =>
    rw [req] at hlogged
    cases hlogged
  | changePassword id verify newHash scan u req verified current live writes =>
    rw [req] at hlogged
    cases hlogged
  | resetPassword id hash scan u req current live writes =>
    rw [req] at hlogged
    cases hlogged
  | updateUser actorId id dto scan u req changes =>
    rw [req] at hlogged
    cases hlogged
  | removeUser actorId id scan now u email req changes =>
    rw [req] at hlogged
    cases hlogged

/-- A commit that is to revoke the sessions of a user has revoked what its statement has found of
them. -/
theorem Transacts.of_revokes_user (hc : Transacts ttl c) (hr : Revokes c (.user u)) :
    ∃ s, UpdatesTokens c s (Target.user u).covers fun t => some t.revoke := by
  obtain ⟨hrevoked, htokens⟩ := hr
  obtain ⟨hdrawn, hpresented, hlogged⟩ := Request.of_revoked hrevoked
  have huser : ∀ {id v}, c.writes = [⟨.user id, v⟩] → False := fun hwrites => by
    obtain ⟨jti, hjti⟩ := htokens _ (hwrites ▸ List.mem_singleton_self _)
    cases hjti
  cases hc with
  | issue userId jti' familyId now drawn fresh writes => exact nomatch hdrawn.symm.trans drawn
  | rotate jti' newJti t₁ now later presented drawn clock current active fresh writes =>
    exact nomatch hdrawn.symm.trans drawn
  | invalid jti' userId presented current writes => exact nomatch hpresented.symm.trans presented
  | revoke target s' revokes updates =>
    cases target with
    | family id =>
      rcases revokes with ⟨_, _, _, presented, -⟩ | ⟨_, _, _, hlogged', -⟩
      · exact nomatch hpresented.symm.trans presented
      · exact nomatch hlogged.symm.trans hlogged'
    | user id =>
      obtain rfl := Option.some.inj (hrevoked.symm.trans revokes.1)
      exact ⟨s', updates⟩
  | purge scan now s req updates =>
    rw [req] at hrevoked
    cases hrevoked
  | createUser dto hash id u req fresh writes => exact (huser writes).elim
  | changePassword id verify newHash scan u req verified current live writes =>
    exact (huser writes).elim
  | resetPassword id hash scan u req current live writes => exact (huser writes).elim
  | updateUser actorId id dto scan u req changes => exact (huser changes.writes).elim
  | removeUser actorId id scan now u email req changes => exact (huser changes.writes).elim

/-- The statement has found all tokens of the family, and its condition covers them: none is active
after its commit. -/
theorem noActive_of_found {s : Db} {target : Target}
    (hu : UpdatesTokens c s target.covers fun t => some t.revoke)
    (hfound : ∀ jti t, Db.refreshToken c.before jti = some t → t.familyId = f →
      (Db.refreshToken s jti).any target.covers = true ∧ target.covers t = true) :
    NoActive c.after f := by
  intro jti t ht hf
  cases hbefore : Db.refreshToken c.before jti with
  | none =>
    rw [hu.after_none hbefore] at ht
    cases ht
  | some t₁ =>
    rw [hu.after hbefore] at ht
    split at ht
    · cases ht
      exact nofun
    · rename_i hnot
      cases ht
      exact absurd (hfound jti t hbefore hf) hnot

/-- **A revocation that is not overtaken** ends the sessions it revokes, for good. -/
theorem endsSessions_of_chain (hchain : Chain (protocol ttl) db₀ (h₂ ++ c :: h₁) db)
    (h₀ : ∀ jti, Db.refreshToken db₀ jti = none) (hnodup : (drawnKeys (h₂ ++ c :: h₁)).Nodup)
    (hnot : ∀ target, Revokes c target → NotOvertaken c target) :
    EndsSessions ttl db₀ h₁ c db := by
  obtain ⟨db₁, hchain₁⟩ := hchain.of_append
  obtain ⟨hbefore, hguar, hseen, rfl⟩ := hchain₁.last
  have hnodup₁ : (drawnKeys (c :: h₁)).Nodup := by
    rw [drawnKeys, List.flatMap_append] at hnodup
    exact (List.nodup_append.mp hnodup).2.1
  have hT : TokensKept db₀ h₁ c.before :=
    .of_chain hbefore h₀ (List.nodup_append.mp hnodup₁).2.1
  have hpast := hbefore.past_self
  have hold : ∀ {k}, k ∈ drawnKeys h₁ → k ∈ drawnKeys (c :: h₁) := List.mem_append_right _
  constructor
  · intro f hr
    obtain ⟨s, hu⟩ := Transacts.of_revokes_family hguar hT hseen hr
    have hs := hseen _ hu.seen
    have hafter : NoActive c.after f := by
      refine noActive_of_found hu fun jti t ht hf => ⟨?_, decide_eq_true hf⟩
      have hfound := hnot _ hr _ hu.seen rfl (jti, t) (Db.mem_refreshTokens.mpr ht) hf
      obtain ⟨t₁, ht₁⟩ := Option.isSome_iff_exists.mp hfound
      rw [ht₁, Option.any_some]
      exact decide_eq_true ((hT.sameFamily s _ hs hpast jti t₁ t ht₁ ht).trans hf)
    -- the family is one of the past, for the request has read a token of it
    have hknown : f ∈ drawnKeys h₁ := by
      rcases hr with ⟨jti, _, t, -, ht, -, -, rfl⟩ | ⟨jti, s, t, -, hs, ht, rfl⟩
      · exact (hT.known _ hpast jti t ht).2
      · exact (hT.known _ (hseen _ hs) jti t ht).2
    exact hafter.since hchain hchain₁ hnodup (hold hknown)
  · intro u hr
    obtain ⟨s, hu⟩ := Transacts.of_revokes_user hguar hr
    have hs := hseen _ hu.seen
    refine ⟨s, hu.seen, fun s₁ jti₁ t₁ hby ht₁ huser => ?_⟩
    have hknown : t₁.familyId ∈ drawnKeys h₁ := (hT.known s₁ hby.past jti₁ t₁ ht₁).2
    have hcovers : ∀ s', Past db₀ h₁ s' → ∀ jti t, Db.refreshToken s' jti = some t →
        t.familyId = t₁.familyId → t.userId = u := fun s' hs' jti t ht hf =>
      (hT.sameUser s' s₁ hs' hby.past jti jti₁ t t₁ ht ht₁ hf).trans huser
    have hafter : NoActive c.after t₁.familyId := by
      by_cases hgone : ∃ jti₀ t₀, Db.refreshToken s jti₀ = some t₀ ∧ t₀.familyId = t₁.familyId
      · obtain ⟨jti₀, t₀, ht₀, hf₀⟩ := hgone
        refine noActive_of_found hu fun jti t ht hf => ?_
        have htu := hcovers _ hpast jti t ht hf
        have hfound := hnot _ hr _ hu.seen rfl (jti, t) (Db.mem_refreshTokens.mpr ht) htu
          ⟨(jti₀, t₀), Db.mem_refreshTokens.mpr ht₀, hf₀.trans hf.symm⟩
        obtain ⟨t₂, ht₂⟩ := Option.isSome_iff_exists.mp hfound
        have hf₂ := (hT.sameFamily s _ hs hpast jti t₂ t ht₂ ht).trans hf
        rw [ht₂, Option.any_some]
        exact ⟨decide_eq_true (hcovers s hs jti t₂ ht₂ hf₂), decide_eq_true htu⟩
      · -- all tokens of the family had been purged, and it gets no new ones
        obtain ⟨h₃, ⟨h₄, rfl⟩, hchain₃, hpast₃⟩ := hby
        have hnone : NoActive s t₁.familyId := fun jti t ht hf => absurd ⟨jti, t, ht, hf⟩ hgone
        have hT₃ : TokensKept db₀ h₃ s := .of_chain hchain₃ h₀ (by
          rw [drawnKeys, List.flatMap_cons, List.flatMap_append] at hnodup₁
          exact (List.nodup_append.mp (List.nodup_append.mp hnodup₁).2.1).2.1)
        have hchain₄ : Chain (protocol ttl) db₀ ((c :: h₄) ++ h₃) c.after := hchain₁
        exact hnone.since hchain₄ hchain₃ hnodup₁ (hT₃.known s₁ hpast₃ jti₁ t₁ ht₁).2
    exact hafter.since hchain hchain₁ hnodup (hold hknown)

end Revokes

/-- **Revocations that are not overtaken end the sessions for good**, in every reachable state. -/
theorem revoked_of_reachable {ttl : ℕ}
    {policy : Policy Row LockName Query Failure Response Request} {db₀ : Db} {s : Server}
    (h₀ : ∀ jti, Db.refreshToken db₀ jti = none) (h : Reachable (code ttl) policy db₀ s)
    (hnodup : (drawnKeys s.history).Nodup) {h₁ h₂ : List Commit} {c : Commit}
    (hc : s.history = h₂ ++ c :: h₁)
    (hnot : ∀ target, Revokes c target → NotOvertaken c target) :
    EndsSessions ttl db₀ h₁ c s.db :=
  endsSessions_of_chain (hc ▸ chain_of_reachable h) h₀ (hc ▸ hnodup) hnot

/-! ## A logout and a rotation at the same time -/

namespace Sample

/-- A token is issued. Its rotation holds the lock on it when the statement of a logout starts, which
then waits for the lock until the rotation commits. -/
def overtaken : Server := server (
  .spawn (.issue 1 10 11 0) :: List.replicate 4 (.step 0) ++
  [.spawn (.rotate 10 1 20 .plain 5 6), .spawn (.logout (some ⟨1, 10⟩) .plain)] ++
  List.replicate 4 (.step 1) ++ List.replicate 2 (.step 2) ++ List.replicate 2 (.step 1) ++
  List.replicate 4 (.step 2))

/-- The same, with the logout after the rotation. -/
def loggedOut : Server := server (
  .spawn (.issue 1 10 11 0) :: List.replicate 4 (.step 0) ++
  [.spawn (.rotate 10 1 20 .plain 5 6), .spawn (.logout (some ⟨1, 10⟩) .plain)] ++
  List.replicate 6 (.step 1) ++ List.replicate 8 (.step 2))

theorem overtaken_ne_nil : overtaken.history ≠ [] := by decide +kernel

theorem loggedOut_ne_nil : loggedOut.history ≠ [] := by decide +kernel

end Sample

/-- **The successor survives the logout** that has committed after it. -/
theorem logout_overtaken_by_refresh :
    Reachable (code Sample.ttl) (anytime fun _ => True) Sample.db Sample.overtaken ∧
      (drawnKeys Sample.overtaken.history).Nodup ∧
      ∃ c h₁, Sample.overtaken.history = c :: h₁ ∧ Revokes c (.family 11) ∧
        ∃ t, Db.refreshToken Sample.overtaken.db 20 = some t ∧ t.familyId = 11 ∧
          t.status = .active := by
  have hseen : ∃ q ∈ (Sample.overtaken.history.head Sample.overtaken_ne_nil).seen, q.1 = .refreshToken ∧
      ∃ t ∈ Db.refreshToken q.2 10, t.familyId = 11 := by decide +kernel
  have hactive : ∃ t ∈ Db.refreshToken Sample.overtaken.db 20, t.familyId = 11 ∧
      t.status = .active := by decide +kernel
  refine ⟨Sample.reachable (by decide +kernel), by decide +kernel, _, _,
    (List.cons_head_tail Sample.overtaken_ne_nil).symm, .inr ?_, hactive⟩
  obtain ⟨⟨_, s⟩, hq, rfl, t, ht, hf⟩ := hseen
  exact ⟨10, s, t, by decide +kernel, hq, ht, hf⟩

/-- Logged out after the rotation has committed, the session is over. -/
theorem revoked_of_reachable_logout :
    ∃ c h₁, Sample.loggedOut.history = c :: h₁ ∧
      EndsSessions Sample.ttl Sample.db h₁ c Sample.loggedOut.db := by
  have hfound : ∀ q ∈ (Sample.loggedOut.history.head Sample.loggedOut_ne_nil).seen,
      q.1 = .refreshTokens →
      ∀ x ∈ Db.refreshTokens (Sample.loggedOut.history.head Sample.loggedOut_ne_nil).before,
        (Db.refreshToken q.2 x.1).isSome = true := by decide +kernel
  have hsplit := (List.cons_head_tail Sample.loggedOut_ne_nil).symm
  rw [← List.nil_append (_ :: _)] at hsplit
  refine ⟨_, _, hsplit, ?_⟩
  refine revoked_of_reachable Sample.refreshToken_db (Sample.reachable (by decide +kernel))
    (by decide +kernel) hsplit fun target _ => ?_
  cases target with
  | family f => exact fun q hq hlabel x hx _ => hfound q hq hlabel x hx
  | user u => exact fun q hq hlabel x hx _ _ => hfound q hq hlabel x hx

end AccountingApi.Auth
