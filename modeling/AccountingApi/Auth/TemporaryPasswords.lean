import AccountingApi.Auth.Appointments

/-!
# Temporary passwords

A user who is created, or whose password an administrator resets, has a temporary password, which others
know. Until he has changed it he may call nothing but what concerns his own session. No other request
takes this restriction off, however they interleave: who is let in elsewhere has stored a password of his
own since.

## Main definitions

* `IssuesPassword`: a commit that stores a temporary password for a user
* `ChangesOwnPassword`: a change by the user himself, who knew a password he had

## Main results

* `pending_after`: only a change of his password takes the restriction off a user
* `changedPassword_of_reachable`
-/

namespace AccountingApi.Auth

open ReadCommitted

/-- The user has a temporary password. -/
def Pending (db : Db) (id : Uuid) : Prop :=
  ∃ u, Db.user db id = some u ∧ u.mustChangePassword = true

/-- The commit stores a temporary password for the user. -/
def IssuesPassword (c : Commit) (id : Uuid) : Prop :=
  (∃ dto passwordHash, c.req = .createUser dto passwordHash id) ∨
    (∃ passwordHash scan, c.req = .resetPassword id passwordHash scan) ∧ WritesUser c id

/-- The user himself has changed his password, and knew one that was stored when the request read it. -/
def ChangesOwnPassword (c : CallCommit) (id : Uuid) : Prop :=
  (∃ user, c.req.user = some user ∧ user.id = id) ∧
    ∃ verify newHash, ChangesPassword (c.map Call.request) id verify newHash ∧
      ∃ db u, (.user, db) ∈ c.seen ∧ Db.liveUser db id = some u ∧ verify u.passwordHash = true

section Commit

variable {ttl : ℕ} {c : Commit} {id : Uuid}

/-- A temporary password is one. -/
theorem pending_of_issues (hc : Transacts ttl c) (hr : c.req.Records c.writes)
    (h : IssuesPassword c id) : Pending c.after id := by
  rcases h with ⟨dto, passwordHash, hreq⟩ | ⟨⟨passwordHash, scan, hreq⟩, hwrites⟩
  · rw [hreq] at hr
    exact ⟨dto.user passwordHash, by rw [user_after hr, if_pos rfl], rfl⟩
  · cases hc.userWrite id with
    | none unwritten => exact absurd hwrites unwritten
    | resetPassword passwordHash' scan' u req current live after => exact ⟨_, after, rfl⟩
    | create dto hash u req => cases hreq.symm.trans req
    | changePassword verify newHash scan' u req => cases hreq.symm.trans req
    | update actorId dto scan' u req => cases hreq.symm.trans req
    | remove actorId scan' now u email req => cases hreq.symm.trans req

/-- **Only a change of his password** takes the restriction off a user. -/
theorem pending_after (hc : Transacts ttl c) (h : Pending c.before id) :
    Pending c.after id ∨ ∃ verify newHash, ChangesPassword c id verify newHash := by
  obtain ⟨u, hu, hpending⟩ := h
  cases hc.userWrite id with
  | none unwritten after => exact .inl ⟨u, by rw [after, hu], hpending⟩
  | create dto passwordHash u' req fresh => cases fresh.symm.trans hu
  | changePassword verify newHash scan u' req written =>
    exact .inr ⟨verify, newHash, ⟨scan, req⟩, written⟩
  | resetPassword passwordHash scan u' req current live after => exact .inl ⟨_, after, rfl⟩
  | update actorId dto scan u' req current live after =>
    obtain rfl : u = u' := Option.some.inj (hu.symm.trans current)
    exact .inl ⟨_, after, hpending⟩
  | remove actorId scan now u' email req current live after =>
    obtain rfl : u = u' := Option.some.inj (hu.symm.trans current)
    exact .inl ⟨_, after, hpending⟩

end Commit

section Runs

variable {ttl : ℕ} {db₀ : Db} {s : CallServer} {id : Uuid}

/-- A change of a password has been called by the user himself, who knew one. -/
theorem changesOwnPassword (hrun : Reachable (fun c => code ttl c.request) (gated Admits) db₀ s)
    {c : CallCommit} (hmem : c ∈ s.history) {verify : String → Bool} {newHash : String}
    (hc : ChangesPassword (c.map Call.request) id verify newHash) : ChangesOwnPassword c id := by
  obtain ⟨hguar, -⟩ := (chain_of_reachable (hrun.map Call.request)).of_mem (D := fun _ _ => True)
    (fun _ => trivial) (fun _ _ _ _ _ => trivial) (fun _ _ => trivial)
    (List.mem_map_of_mem (f := Commit.map Call.request) hmem)
  obtain ⟨⟨db, u, hseen, hu, hverify⟩, -⟩ := Transacts.of_changesPassword hguar hc
  obtain ⟨h₂, h₁, hsplit⟩ := List.append_of_mem hmem
  obtain ⟨t, -, hadmits⟩ := hrun.gated.commits h₂ c h₁ hsplit
  obtain ⟨scan, hreq⟩ := hc.1
  obtain ⟨user, huser, -, -, -, hcaller⟩ :=
    admits_handler hadmits (congrArg Request.origin hreq) rfl
  exact ⟨⟨user, huser, hcaller id (congrArg Request.caller hreq)⟩, verify, newHash, hc, db, u, hseen, hu,
    hverify⟩

/-- **Who is let in beyond his own session has no temporary password.** In every reachable state, however
the calls interleave, a user whom the guards let in to a handler that is not for temporary passwords has
changed his own password since the last one that was issued to him. -/
theorem changedPassword_of_reachable
    (hrun : Reachable (fun c => code ttl c.request) (gated Admits) db₀ s)
    {h₁ h₂ : List CallCommit} {c : CallCommit} (hsplit : s.history = h₂ ++ c :: h₁)
    (hissues : IssuesPassword (c.map Call.request) id) {handler : Handler}
    {bearer : Option JwtPayload} {user : AuthenticatedUser}
    (hok : canActivate s.db handler bearer = .ok (some user)) (hid : user.id = id)
    (hnot : handler.allowsPendingPassword = false) : ∃ d ∈ h₂, ChangesOwnPassword d id := by
  by_contra hnone
  push Not at hnone
  have hchain := chain_of_reachable (hrun.map Call.request)
  have hmem : ∀ d ∈ h₂, d ∈ s.history := fun d hd => by
    rw [hsplit]
    exact List.mem_append_left _ hd
  have hmemc : c ∈ s.history := by
    rw [hsplit]
    exact List.mem_append_right h₂ List.mem_cons_self
  have hrecords := (hrun.map Call.request).observed (code_records ttl) (c.map Call.request)
    (List.mem_map_of_mem hmemc)
  change Chain _ _ (s.history.map (Commit.map Call.request)) s.db at hchain
  rw [hsplit, List.map_append] at hchain
  obtain ⟨db₁, hchain₁⟩ := hchain.of_append
  obtain ⟨-, hguar, -, rfl⟩ := Chain.last hchain₁
  -- the restriction is on from the commit that has issued the password
  have hpending : Pending s.db id := by
    refine hchain.since (I := fun db => Pending db id) hchain₁
      (pending_of_issues hguar hrecords hissues) fun d' hd' hguar hI => ?_
    obtain ⟨d, hd, rfl⟩ := List.mem_map.mp hd'
    rcases pending_after hguar hI with hpending | ⟨verify, newHash, hchange⟩
    · exact hpending
    · exact absurd (changesOwnPassword hrun (hmem d hd) hchange) (hnone d hd)
  obtain ⟨-, -, hoffice, -, hallows⟩ := canActivate_some.mp hok
  obtain ⟨u, hu, -, -, -, hflag⟩ := hoffice.user
  obtain ⟨u', hu', hpending⟩ := hpending
  rw [← hid] at hu'
  obtain rfl : u = u' := Option.some.inj (hu.symm.trans hu')
  rw [hallows (hflag.symm.trans hpending)] at hnot
  cases hnot

end Runs

/-- The administrator who was created has changed his temporary password before he is let in. -/
theorem changedPassword_of_reachable_successor :
    ∃ h₂ c h₁, (Sample.callServer Sample.successor).history = h₂ ++ c :: h₁ ∧
      IssuesPassword (c.map Call.request) 3 ∧ ∃ d ∈ h₂, ChangesOwnPassword d 3 := by
  have hcreates : ((Sample.callServer Sample.successor).history.any fun c =>
      match c.req.request with
      | .createUser _ _ newId => newId = 3
      | _ => false) = true := by decide +kernel
  obtain ⟨c, hmem, hc⟩ := List.any_eq_true.mp hcreates
  have hissues : IssuesPassword (c.map Call.request) 3 := by
    cases hreq : c.req.request with
    | createUser dto passwordHash newId =>
      rw [hreq, decide_eq_true_iff] at hc
      subst hc
      exact .inl ⟨dto, passwordHash, hreq⟩
    | _ =>
      rw [hreq] at hc
      cases hc
  obtain ⟨h₂, h₁, hsplit⟩ := List.append_of_mem hmem
  have hok : canActivate (Sample.callServer Sample.successor).db UserAdminController.create
      (some ⟨some 3, "", .viewer⟩) = .ok (some ⟨3, "c@example.com", .admin, false⟩) := by decide +kernel
  exact ⟨h₂, c, h₁, hsplit, hissues, changedPassword_of_reachable
    (Sample.callReachable (by decide +kernel)) hsplit hissues hok rfl rfl⟩

end AccountingApi.Auth
