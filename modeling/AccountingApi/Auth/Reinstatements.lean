import AccountingApi.Auth.Appointments

/-!
# Users out of office

The guards look a user up with every call, so whoever is deactivated or removed is turned away from the
next call on. A removed user stays so for good. A deactivated one stays so until an administrator activates
him: as the guards have found that one when his call came in, which may be before he was deactivated
himself.

## Main definitions

* `Reinstates`: a commit that activates a user, on behalf of an administrator

## Main results

* `removed_after`: the row of a removed user is never written again
* `inactive_after`: only an update activates a user
* `reinstated_of_reachable`
-/

namespace AccountingApi.Auth

open ReadCommitted

section Commit

variable {ttl : ℕ} {c : Commit} {id : Uuid} {u : User}

/-- What a commit does to the row of a user who was there. -/
inductive RowChange (c : Commit) (id : Uuid) (u : User) : Prop
  | keep (after : Db.user c.after id = some u)
  | edit (u' : User) (live : u.deletedAt = none) (same : u'.isActive = u.isActive)
      (after : Db.user c.after id = some u')
  | update (actorId : Uuid) (dto : UpdateUserDto) (scan : ScanOrder Key)
      (req : c.req = .updateUser actorId id dto scan) (live : u.deletedAt = none)
      (after : Db.user c.after id = some (dto.apply u))

theorem Transacts.rowChange (hc : Transacts ttl c) (hu : Db.user c.before id = some u) :
    RowChange c id u := by
  cases hc.userWrite id with
  | none unwritten after => exact .keep (after.trans hu)
  | create dto passwordHash u' req fresh => cases fresh.symm.trans hu
  | changePassword verify newHash scan u₀ req written current live after =>
    obtain rfl : u = u₀ := Option.some.inj (hu.symm.trans current)
    refine .edit _ live ?_ after
    rfl
  | resetPassword passwordHash scan u₀ req current live after =>
    obtain rfl : u = u₀ := Option.some.inj (hu.symm.trans current)
    refine .edit _ live ?_ after
    rfl
  | update actorId dto scan u₀ req current live after =>
    obtain rfl : u = u₀ := Option.some.inj (hu.symm.trans current)
    exact .update actorId dto scan req live after
  | remove actorId scan now u₀ email req current live after =>
    obtain rfl : u = u₀ := Option.some.inj (hu.symm.trans current)
    refine .edit _ live ?_ after
    rfl

/-- **The row of a removed user** is never written again. -/
theorem RowChange.removed (h : RowChange c id u) (hremoved : u.deletedAt ≠ none) :
    Db.user c.after id = some u := by
  cases h with
  | keep after => exact after
  | edit u' live => exact absurd live hremoved
  | update actorId dto scan req live => exact absurd live hremoved

/-- The commit's request activates the user. -/
def Activates (r : Request) (id : Uuid) : Prop :=
  ∃ actorId dto scan, r = .updateUser actorId id dto scan ∧ dto.isActive = some true

/-- **Only an update activates** a user. -/
theorem RowChange.inactive (h : RowChange c id u) (hinactive : u.isActive = false) :
    (∃ u', Db.user c.after id = some u' ∧ u'.isActive = false) ∨ Activates c.req id := by
  cases h with
  | keep after => exact .inl ⟨u, after, hinactive⟩
  | edit u' live same after => exact .inl ⟨u', after, same.trans hinactive⟩
  | update actorId dto scan req live after =>
    cases hactive : dto.isActive with
    | none =>
      refine .inl ⟨dto.apply u, after, ?_⟩
      change dto.isActive.getD u.isActive = false
      rw [hactive, Option.getD_none, hinactive]
    | some active =>
      cases active with
      | false =>
        refine .inl ⟨dto.apply u, after, ?_⟩
        change dto.isActive.getD u.isActive = false
        rw [hactive, Option.getD_some]
      | true => exact .inr ⟨actorId, dto, scan, req, hactive⟩

end Commit

section Runs

variable {ttl : ℕ} {db₀ : Db} {s : CallServer} {id : Uuid}

/-- A commit of the history activates the user, on behalf of one who was an administrator in a store
committed before it. -/
def Reinstates (db₀ : Db) (h : List CallCommit) (d : CallCommit) (id : Uuid) : Prop :=
  Activates d.req.request id ∧ ∃ h₂ h₁ db user, h = h₂ ++ d :: h₁ ∧ Past db₀ h₁ db ∧
    d.req.user = some user ∧ Administers db user.id

/-- **Who is back in office was reinstated.** In every reachable state, however the calls interleave, a user
whom the guards let in after a commit has left him deactivated or removed was only deactivated, and has
been activated since by a commit whose call an administrator has made. -/
theorem reinstated_of_reachable (hrun : Reachable (fun c => code ttl c.request) (gated Admits) db₀ s)
    {h₁ h₂ : List CallCommit} {c : CallCommit} (hsplit : s.history = h₂ ++ c :: h₁) {u : User}
    (hu : Db.user c.after id = some u) (hout : u.isActive = false ∨ u.deletedAt ≠ none)
    {handler : Handler} {bearer : Option JwtPayload} {user : AuthenticatedUser}
    (hok : canActivate s.db handler bearer = .ok (some user)) (hid : user.id = id) :
    u.deletedAt = none ∧ ∃ d ∈ h₂, Reinstates db₀ s.history d id := by
  obtain ⟨-, -, hoffice, -⟩ := canActivate_some.mp hok
  obtain ⟨u', hu', hlive, hactive, -⟩ := hoffice.user
  rw [hid] at hu'
  have hchain := chain_of_reachable (hrun.map Call.request)
  change Chain _ _ (s.history.map (Commit.map Call.request)) s.db at hchain
  rw [hsplit, List.map_append] at hchain
  obtain ⟨db₁, hchain₁⟩ := hchain.of_append
  obtain ⟨-, -, -, rfl⟩ := Chain.last hchain₁
  have hkept : u.deletedAt = none := by
    by_contra hremoved
    have hrow : Db.user s.db id = some u :=
      hchain.since (I := fun db => Db.user db id = some u) hchain₁ hu fun d _ hguar hI =>
        (Transacts.rowChange hguar hI).removed hremoved
    obtain rfl : u = u' := Option.some.inj (hrow.symm.trans hu')
    exact hremoved hlive
  refine ⟨hkept, ?_⟩
  by_contra hnone
  push Not at hnone
  -- nobody has activated him since
  have hinactive : ∃ u, Db.user s.db id = some u ∧ u.isActive = false := by
    refine hchain.since (I := fun db => ∃ u, Db.user db id = some u ∧ u.isActive = false) hchain₁
      ⟨u, hu, hout.resolve_right fun hremoved => hremoved hkept⟩ fun d' hd' hguar hI => ?_
    obtain ⟨d, hd, rfl⟩ := List.mem_map.mp hd'
    obtain ⟨v, hv, hinactive⟩ := hI
    refine ((Transacts.rowChange hguar hv).inactive hinactive).resolve_right fun hactivates => ?_
    obtain ⟨h₄, h₃, rfl⟩ := List.append_of_mem hd
    have hsplit' : s.history = h₄ ++ d :: (h₃ ++ c :: h₁) := by
      rw [hsplit, List.append_assoc, List.cons_append]
    obtain ⟨t, ht, hadmits⟩ := hrun.gated.commits _ _ _ hsplit'
    have hcall := hactivates
    obtain ⟨actorId, dto, scan, hreq, -⟩ := hcall
    obtain ⟨admin, hadmin, hoffice, -⟩ := admits_admin hadmits (congrArg Request.origin hreq) rfl
    exact hnone d hd ⟨hactivates, h₄, h₃ ++ c :: h₁, t, admin, hsplit', ht, hadmin, hoffice⟩
  obtain ⟨v, hv, hinactive⟩ := hinactive
  obtain rfl : v = u' := Option.some.inj (hv.symm.trans hu')
  rw [hactive] at hinactive
  cases hinactive

end Runs

/-! ## An administrator who reinstates himself -/

namespace Sample

/-- An administrator's call to activate himself comes in before another one deactivates him, and commits
afterwards. -/
def reinstated : List (Event Call) :=
  [.spawn (call 1 "a@example.com" .admin false (.updateUser 1 1 ⟨none, none, some true⟩ .plain)),
    .spawn (call 2 "b@example.com" .admin false (.updateUser 2 1 ⟨none, none, some false⟩ .plain))] ++
  List.replicate 6 (.step 1) ++ List.replicate 5 (.step 0)

end Sample

/-- He is let in again: it is his own call that has activated him. -/
theorem reinstated_of_reachable_himself :
    ∃ h₂ c h₁ u, (Sample.callServer Sample.reinstated).history = h₂ ++ c :: h₁ ∧
      Db.user c.after 1 = some u ∧ u.isActive = false ∧ u.deletedAt = none ∧
      ∃ d ∈ h₂, Reinstates Sample.db (Sample.callServer Sample.reinstated).history d 1 := by
  have hleaves : ((Sample.callServer Sample.reinstated).history.any fun c =>
      (Db.user c.after 1).any fun u => decide (u.isActive = false)) = true := by decide +kernel
  obtain ⟨c, hmem, hc⟩ := List.any_eq_true.mp hleaves
  obtain ⟨u, hu, hinactive⟩ := (Option.any_eq_true _ _).mp hc
  obtain ⟨h₂, h₁, hsplit⟩ := List.append_of_mem hmem
  have hok : canActivate (Sample.callServer Sample.reinstated).db UserAdminController.create
      (some ⟨some 1, "", .viewer⟩) = .ok (some ⟨1, "a@example.com", .admin, false⟩) := by decide +kernel
  have hinactive := of_decide_eq_true hinactive
  obtain ⟨hkept, hreinstated⟩ := reinstated_of_reachable (Sample.callReachable (by decide +kernel))
    hsplit hu (.inl hinactive) hok rfl
  exact ⟨h₂, c, h₁, u, hsplit, hu, hinactive, hkept, hreinstated⟩

end AccountingApi.Auth
