import AccountingApi.Auth.Calls
import AccountingApi.Auth.Passwords

/-!
# Who appoints whom

The role of a user decides what he may do. It is given when the user is created and changed by updates,
both on behalf of administrators: as the guards have found them, who may be demoted before their request
commits. However the requests interleave, every role is the one a user has started with or was given by an
administrator, never by the user himself, and the office of every administrator goes back to one of those
the system has started with.

## Main definitions

* `Appoints`: a commit that gives a user a role
* `UserWrite`: what a commit does to the row of a user
* `Delegated`: the office of an administrator goes back to a first one

## Main results

* `role_after`: a commit changes a role only by appointing
* `appointed_of_reachable`
-/

namespace AccountingApi.Auth

open ReadCommitted

/-! ## What a commit writes of a user -/

/-- The row of a user who is created. -/
def CreateUserDto.user (dto : CreateUserDto) (passwordHash : String) : User :=
  ⟨dto.email, passwordHash, dto.name, dto.role, true, true, none, none⟩

/-- What the commits of a request record: a new user as the request has him, and no role for oneself. -/
def Request.Records (r : Request) (writes : List (Write Row)) : Prop :=
  match r with
  | .createUser dto passwordHash newId => writes = [⟨.user newId, dto.user passwordHash⟩]
  | .updateUser actorId id dto _ => id = actorId → dto.role = none
  | _ => True

/-- **What the commits of each request record.** -/
theorem code_records (ttl : ℕ) (r : Request) :
    (code ttl r).observes (fun _ writes => r.Records writes) [] [] fun _ _ _ => True := by
  cases r
  case createUser dto passwordHash newId =>
    refine Prog.observes_answer (Prog.observes_bind.mpr (Prog.observes_bind.mpr ?_))
    refine Prog.observes_query fun db => Prog.observes_bind.mpr (Prog.observes_ensure fun _ => ?_)
    refine Prog.observes_bind.mpr (Prog.observes_mapThrow.mpr (Prog.observes_bind.mpr ?_))
    -- the row is in the buffer when the index lets it in
    refine Prog.observes_bind.mpr (Prog.observes_lock fun _ => ?_)
    refine Prog.observes_bind.mpr (Prog.observes_ensure fun _ => ?_)
    refine Prog.observes_bind.mpr ?_
    refine Prog.observes_bind.mpr (Prog.observes_lock fun _ => ?_)
    exact Prog.observes_ensure fun _ => ⟨rfl, trivial⟩
  case updateUser actorId id dto scan =>
    refine Prog.observes_answer (Prog.observes_bind.mpr (Prog.observes_ensure fun hself => ?_))
    refine Prog.observes_anyhow fun _ _ _ hid => ?_
    by_contra hrole
    exact hself ⟨hid, hrole⟩
  -- the others make no users and give no roles
  all_goals exact Prog.observes_anyhow fun _ _ _ => trivial

/-- The commit gives the user the role: he is created with it, or another user updates him. -/
def Appoints (c : Commit) (id : Uuid) (role : Role) : Prop :=
  (∃ dto passwordHash, c.req = .createUser dto passwordHash id ∧ dto.role = role ∧
    Db.user c.before id = none) ∨
    ∃ actorId dto scan, c.req = .updateUser actorId id dto scan ∧ dto.role = some role ∧ id ≠ actorId

section Commit

variable {ttl : ℕ} {c : Commit} {id : Uuid}

/-- What a commit does to the row of a user. -/
inductive UserWrite (c : Commit) (id : Uuid) : Prop
  | none (unwritten : ¬ WritesUser c id) (after : Db.user c.after id = Db.user c.before id)
  | create (dto : CreateUserDto) (passwordHash : String) (u : User)
      (req : c.req = .createUser dto passwordHash id) (fresh : Db.user c.before id = none)
      (writes : c.writes = [⟨.user id, u⟩]) (after : Db.user c.after id = some u)
  | changePassword (verify : String → Bool) (newHash : String) (scan : ScanOrder Key) (u : User)
      (req : c.req = .changePassword id verify newHash scan) (written : WritesUser c id)
      (current : Db.user c.before id = some u) (live : u.deletedAt = none)
      (after : Db.user c.after id =
        some { u with passwordHash := newHash, mustChangePassword := false })
  | resetPassword (passwordHash : String) (scan : ScanOrder Key) (u : User)
      (req : c.req = .resetPassword id passwordHash scan)
      (current : Db.user c.before id = some u) (live : u.deletedAt = none)
      (after : Db.user c.after id =
        some { u with passwordHash := passwordHash, mustChangePassword := true })
  | update (actorId : Uuid) (dto : UpdateUserDto) (scan : ScanOrder Key) (u : User)
      (req : c.req = .updateUser actorId id dto scan)
      (current : Db.user c.before id = some u) (live : u.deletedAt = none)
      (after : Db.user c.after id = some (dto.apply u))
  | remove (actorId : Uuid) (scan : ScanOrder Key) (now : Timestamp) (u : User) (email : String)
      (req : c.req = .removeUser actorId id scan now)
      (current : Db.user c.before id = some u) (live : u.deletedAt = none)
      (after : Db.user c.after id = some (UserAdminService.removed id actorId email now u))

/-- **A commit writes the row of one user** at most, as its request has it. -/
theorem Transacts.userWrite (hc : Transacts ttl c) (id : Uuid) : UserWrite c id := by
  have htokens : (∀ w ∈ c.writes, ∃ jti, w.1 = .refreshToken jti) → UserWrite c id :=
    fun honly => .none (not_writesUser_of_tokens honly) (user_after_of_tokens honly id)
  -- a commit that writes one user leaves the others as they are
  have hone : ∀ {id' : Uuid} {u' : User}, c.writes = [⟨.user id', u'⟩] →
      (id' = id → WritesUser c id → Db.user c.after id = some u' → UserWrite c id) →
      UserWrite c id := by
    intro id' u' hwrites hself
    by_cases hid : id' = id
    · subst hid
      exact hself rfl ⟨_, by rw [hwrites]; exact List.mem_singleton_self _, rfl⟩
        (by rw [user_after hwrites, if_pos rfl])
    · refine .none ?_ (by rw [user_after hwrites, if_neg (Ne.symm hid)])
      rintro ⟨w, hw, hkey⟩
      rw [hwrites, List.mem_singleton] at hw
      rw [hw] at hkey
      exact hid (Key.user.inj hkey)
  cases hc with
  | issue userId jti familyId now drawn fresh writes => exact htokens (by rw [writes]; simp)
  | rotate jti newJti t now later presented drawn clock current active fresh writes =>
    exact htokens (by rw [writes]; simp)
  | invalid jti userId presented current writes => exact htokens (by rw [writes]; simp)
  | revoke target s revokes updates => exact htokens updates.tokens
  | purge scan now s req updates => exact htokens updates.tokens
  | createUser dto passwordHash id' u req fresh writes =>
    refine hone writes ?_
    rintro rfl - hafter
    exact .create dto passwordHash u req fresh writes hafter
  | changePassword id' verify newHash scan u req verified current live writes =>
    refine hone writes ?_
    rintro rfl hwritten hafter
    exact .changePassword verify newHash scan u req hwritten current live hafter
  | resetPassword id' passwordHash scan u req current live writes =>
    refine hone writes ?_
    rintro rfl - hafter
    exact .resetPassword passwordHash scan u req current live hafter
  | updateUser actorId id' dto scan u req changes =>
    refine hone changes.writes ?_
    rintro rfl - hafter
    exact .update actorId dto scan u req changes.current changes.live hafter
  | removeUser actorId id' scan now u email req changes =>
    refine hone changes.writes ?_
    rintro rfl - hafter
    exact .remove actorId scan now u email req changes.current changes.live hafter

/-- **A commit changes a role only by appointing.** -/
theorem role_after (hc : Transacts ttl c) (hr : c.req.Records c.writes) {u : User}
    (hu : Db.user c.after id = some u) :
    (∃ u₀, Db.user c.before id = some u₀ ∧ u₀.role = u.role) ∨ Appoints c id u.role := by
  cases hc.userWrite id with
  | none unwritten after => exact .inl ⟨u, by rw [← after, hu], rfl⟩
  | create dto passwordHash u' req fresh writes after =>
    obtain rfl : u' = u := Option.some.inj (after.symm.trans hu)
    rw [req, Request.Records, writes] at hr
    cases hr
    exact .inr (.inl ⟨dto, passwordHash, req, rfl, fresh⟩)
  | changePassword verify newHash scan u₀ req written current live after =>
    obtain rfl := Option.some.inj (after.symm.trans hu)
    exact .inl ⟨u₀, current, rfl⟩
  | resetPassword passwordHash scan u₀ req current live after =>
    obtain rfl := Option.some.inj (after.symm.trans hu)
    exact .inl ⟨u₀, current, rfl⟩
  | update actorId dto scan u₀ req current live after =>
    obtain rfl := Option.some.inj (after.symm.trans hu)
    rw [req, Request.Records] at hr
    cases hrole : dto.role with
    | none =>
      refine .inl ⟨u₀, current, ?_⟩
      change u₀.role = dto.role.getD u₀.role
      rw [hrole, Option.getD_none]
    | some role =>
      refine .inr (.inr ⟨actorId, dto, scan, req, ?_, fun hid => ?_⟩)
      · change dto.role = some (dto.role.getD u₀.role)
        rw [hrole, Option.getD_some]
      · rw [hr hid] at hrole
        cases hrole
  | remove actorId scan now u₀ email req current live after =>
    obtain rfl := Option.some.inj (after.symm.trans hu)
    exact .inl ⟨u₀, current, rfl⟩

end Commit

/-! ## Runs -/

/-- An administrator has made the call of a commit that gives the user the role. -/
def AppointedBy (c : CallCommit) (a id : Uuid) (role : Role) : Prop :=
  Appoints (c.map Call.request) id role ∧ ∃ user, c.req.user = some user ∧ user.id = a

/-- The office of an administrator goes back to that of a first one, each appointing the next. -/
def Delegated (db₀ : Db) (h : List CallCommit) (a : Uuid) : Prop :=
  ∃ a₀ u₀, Db.user db₀ a₀ = some u₀ ∧ u₀.role = .admin ∧
    Relation.ReflTransGen (fun a b => ∃ c ∈ h, AppointedBy c a b .admin) a₀ a

/-- The user has started with the role, or has been given it by an administrator. -/
def Holds (db₀ : Db) (h : List CallCommit) (id : Uuid) (role : Role) : Prop :=
  (∃ u₀, Db.user db₀ id = some u₀ ∧ u₀.role = role) ∨
    ∃ h₂ c h₁ a, h = h₂ ++ c :: h₁ ∧ AppointedBy c a id role ∧ a ≠ id ∧ Delegated db₀ h₁ a ∧
      ∃ db, Past db₀ h₁ db ∧ Administers db a

section Runs

variable {ttl : ℕ} {db₀ : Db} {h : List CallCommit} {a id : Uuid} {role : Role}

theorem Delegated.mono (hd : Delegated db₀ h a) (h₂ : List CallCommit) :
    Delegated db₀ (h₂ ++ h) a := by
  obtain ⟨a₀, u₀, hu₀, hrole, hchain⟩ := hd
  refine ⟨a₀, u₀, hu₀, hrole, Relation.ReflTransGen.mono ?_ _ _ hchain⟩
  rintro a b ⟨c, hc, happoints⟩
  exact ⟨c, List.mem_append_right h₂ hc, happoints⟩

theorem Holds.mono (hh : Holds db₀ h id role) (h₃ : List CallCommit) :
    Holds db₀ (h₃ ++ h) id role := by
  refine hh.imp_right ?_
  rintro ⟨h₂, c, h₁, a, rfl, happoints⟩
  exact ⟨h₃ ++ h₂, c, h₁, a, (List.append_assoc _ _ _).symm, happoints⟩

/-- An administrator's office goes back to that of a first one. -/
theorem Holds.delegated (hh : Holds db₀ h a .admin) : Delegated db₀ h a := by
  rcases hh with ⟨u₀, hu₀, hrole⟩ | ⟨h₂, c, h₁, a', rfl, happoints, -, hd, -⟩
  · exact ⟨a, u₀, hu₀, hrole, .refl⟩
  · obtain ⟨a₀, u₀, hu₀, hrole, hchain⟩ := (hd.mono [c]).mono h₂
    exact ⟨a₀, u₀, hu₀, hrole, hchain.tail ⟨c, List.mem_append_right h₂ List.mem_cons_self, happoints⟩⟩

/-- An administrator other than the user has made the call of a commit that appoints. -/
theorem Admits.appoints {c : CallCommit} {db : Db} (hc : Admits db c.req)
    (happoints : Appoints (c.map Call.request) id role)
    (hfresh : Db.user c.before id = none → Db.user db id = none) :
    ∃ a, AppointedBy c a id role ∧ a ≠ id ∧ Administers db a := by
  have hcall := happoints
  rcases happoints with ⟨dto, hash, hreq, -, hnone⟩ | ⟨actorId, dto, scan, hreq, -, hne⟩
  · obtain ⟨user, huser, hadmin, -⟩ := admits_admin hc (congrArg Request.origin hreq) rfl
    refine ⟨user.id, ⟨hcall, user, huser, rfl⟩, ?_, hadmin⟩
    rintro rfl
    obtain ⟨u, hu, -⟩ := hadmin
    rw [hfresh hnone] at hu
    cases hu
  · obtain ⟨user, huser, hadmin, hcaller⟩ := admits_admin hc (congrArg Request.origin hreq) rfl
    refine ⟨user.id, ⟨hcall, user, huser, rfl⟩, ?_, hadmin⟩
    have hactor : user.id = actorId := hcaller actorId (congrArg Request.caller hreq)
    rw [hactor]
    exact hne.symm

/-- Users are not lost. -/
theorem user_persists {h : List Commit} {db s : Db} (hchain : Chain (protocol ttl) db₀ h db)
    (hs : Past db₀ h s) : ∀ id, (Db.user s id).isSome = true → (Db.user db id).isSome = true := by
  refine hchain.past (D := fun s t => ∀ id, (Db.user s id).isSome = true →
    (Db.user t id).isSome = true) (fun _ _ h => h) (fun _ _ _ h h' id hu => h' id (h id hu)) ?_ hs
  intro c hc id hu
  obtain ⟨u, hu⟩ := Option.isSome_iff_exists.mp hu
  obtain ⟨u', hu', -⟩ := (Transacts.passwordChange hc).passwordHash hu
  rw [hu']
  rfl

variable {s : CallServer}

/-- **Every role was given by an administrator**, in every store of a run. -/
theorem holds_always (hrun : Reachable (fun c => code ttl c.request) (gated Admits) db₀ s) :
    ∀ h₁ h₂ db, s.history = h₂ ++ h₁ →
      Chain (protocol ttl) db₀ (h₁.map (Commit.map Call.request)) db →
      ∀ t, Past db₀ h₁ t → ∀ id u, Db.user t id = some u → Holds db₀ h₁ id u.role := by
  have hadmitted := hrun.gated
  have hrecords := (hrun.map Call.request).observed (code_records ttl)
  intro h₁
  induction h₁ with
  | nil =>
    rintro h₂ db - - t (rfl | ⟨c, hc, -⟩) id u hu
    · exact .inl ⟨u, hu, rfl⟩
    · cases hc
  | cons c h₁ ih =>
    intro h₂ db hsplit hchain t ht id u hu
    obtain ⟨hbefore, hguar, -, -⟩ := Chain.last hchain
    have hpast := ih (h₂ ++ [c]) c.before (by rw [hsplit, List.append_assoc]; rfl) hbefore
    rcases past_cons.mp ht with rfl | ht
    · have hr : c.req.request.Records c.writes := by
        refine hrecords (c.map Call.request) (List.mem_map_of_mem ?_)
        rw [hsplit]
        exact List.mem_append_right h₂ List.mem_cons_self
      rcases role_after hguar hr hu with ⟨u₀, hu₀, hrole⟩ | happoints
      · rw [← hrole]
        exact (hpast _ ((past_map _).mp hbefore.past_self) id u₀ hu₀).mono [c]
      · -- the guards have found the administrator in a store before
        obtain ⟨t', ht', hadmits⟩ := hadmitted.commits h₂ c h₁ hsplit
        obtain ⟨a, happointed, hne, hadmin⟩ := hadmits.appoints happoints fun hnone =>
          Option.not_isSome_iff_eq_none.mp fun hsome => by
            have hkept : (Db.user c.before id).isSome = true :=
              user_persists hbefore ((past_map _).mpr ht') id hsome
            rw [hnone] at hkept
            cases hkept
        refine .inr ⟨[], c, h₁, a, rfl, happointed, hne, ?_, t', ht', hadmin⟩
        obtain ⟨v, hv, hpool, -⟩ := hadmin
        have hholds := hpast t' ht' a v hv
        rw [hpool.1] at hholds
        exact hholds.delegated
    · exact (hpast t ht id u hu).mono [c]

/-- **Roles come from administrators.** In every reachable state, however the calls interleave, a user has
the role he has started with, or was given it by another user who was an administrator in a store
committed before, and whose office goes back, each administrator having appointed the next, to one the
system has started with. -/
theorem holds_of_reachable (hrun : Reachable (fun c => code ttl c.request) (gated Admits) db₀ s)
    {id : Uuid} {u : User} (hu : Db.user s.db id = some u) : Holds db₀ s.history id u.role :=
  holds_always hrun s.history [] s.db rfl (chain_of_reachable (hrun.map Call.request)) s.db
    hrun.gated.present id u hu

/-- Without an administrator to start with there is never one. -/
theorem no_admin_of_reachable
    (hrun : Reachable (fun c => code ttl c.request) (gated Admits) db₀ s)
    (h₀ : ∀ id u, Db.user db₀ id = some u → u.role ≠ .admin) {id : Uuid} {u : User}
    (hu : Db.user s.db id = some u) : u.role ≠ .admin := by
  intro hadmin
  have hholds := holds_of_reachable hrun hu
  rw [hadmin] at hholds
  obtain ⟨a₀, u₀, hu₀, hrole, -⟩ := hholds.delegated
  exact h₀ a₀ u₀ hu₀ hrole

end Runs

/-! ## An administrator who is demoted meanwhile -/

namespace Sample

/-- The calls that a list of events lets in, where they are possible. -/
def callServer (es : List (Event Call)) : CallServer :=
  ((Server.start db).pass (fun c => code ttl c.request) Admits es).getD (.start db)

theorem callReachable {es : List (Event Call)}
    (h : ((Server.start db).pass (fun c => code ttl c.request) Admits es).isSome = true) :
    Reachable (fun c => code ttl c.request) (gated Admits) db (callServer es) := by
  obtain ⟨s, hs⟩ := Option.isSome_iff_exists.mp h
  rw [callServer, hs]
  exact Reachable.pass .start hs

/-- A call of a user, whose token tells nothing but who he is. -/
def call (id : Uuid) (email : String) (role : Role) (mustChangePassword : Bool) (r : Request) : Call :=
  ⟨r, some ⟨some id, "", .viewer⟩, some ⟨id, email, role, mustChangePassword⟩⟩

/-- The first administrator creates a third one, who sets a password of his own. -/
def successor : List (Event Call) :=
  .spawn (call 1 "a@example.com" .admin false
    (.createUser ⟨"c@example.com", "Name", .admin⟩ "temp" 3)) :: List.replicate 6 (.step 0) ++
  .spawn (call 3 "c@example.com" .admin true
    (.changePassword 3 (fun hash => hash = "temp") "mine" .plain)) :: List.replicate 7 (.step 1)

/-- He creates an approver, and is demoted before this is committed. -/
def demoted : List (Event Call) :=
  successor ++
  [.spawn (call 3 "c@example.com" .admin false (.createUser ⟨"d@example.com", "Name", .approver⟩ "temp" 4)),
    .spawn (call 2 "b@example.com" .admin false (.updateUser 2 3 ⟨none, some .viewer, none⟩ .plain))] ++
  List.replicate 6 (.step 3) ++ List.replicate 6 (.step 2)

end Sample

/-- The approver was appointed by whom an administrator has appointed, who is a viewer by now. -/
theorem holds_of_reachable_demoted :
    ((Db.user (Sample.callServer Sample.demoted).db 3).map (·.role) = some .viewer ∧
      (Db.user Sample.db 4).isNone = true) ∧
    ∃ u, Db.user (Sample.callServer Sample.demoted).db 4 = some u ∧
      Holds Sample.db (Sample.callServer Sample.demoted).history 4 u.role := by
  refine ⟨by decide +kernel, ?_⟩
  have hsome : (Db.user (Sample.callServer Sample.demoted).db 4).isSome = true := by decide +kernel
  obtain ⟨u, hu⟩ := Option.isSome_iff_exists.mp hsome
  exact ⟨u, hu, holds_of_reachable (Sample.callReachable (by decide +kernel)) hu⟩

end AccountingApi.Auth
