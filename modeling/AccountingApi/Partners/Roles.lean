import AccountingApi.Partners.Service
import AccountingApi.ReadCommitted.Soundness

/-!
# The roles of a partner

A partner is to be a customer or a vendor. An update checks the roles of the partner it has read with the
supplied flags, and writes those flags onto the partner it finds. Between the two another update may have
cleared the flag it left out.

## Main definitions

* `Transacts`, `protocol`: what a commit of each request has found and written
* `HasRoles`: every live partner is a customer or a vendor
* `KeepsRole`: an update supplies a flag, or leaves out one that the partner it finds has

## Main results

* `hasRoles_after_iff`: what a commit does to the roles
* `hasRoles_iff`: the roles of all states of a run
-/

namespace AccountingApi.Partners

open ReadCommitted BusinessPartnersService

/-! ## Commits -/

/-- The commit of an update: the partner it had read met the check. -/
structure Updates (c : Commit) (id : Uuid) (input : UpdatePartnerInput) (p : BusinessPartner) :
    Prop where
  req : c.req = .update id input
  checked : ∃ s p₀, (.partner, s) ∈ c.seen ∧ Db.livePartner s id = some p₀ ∧
    (input.isCustomer.getD p₀.isCustomer = true ∨ input.isVendor.getD p₀.isVendor = true)
  current : Db.livePartner c.before id = some p
  writes : c.writes = [⟨.partner id, input.apply p⟩]

/-- The commits of the requests. -/
inductive Transacts (c : Commit) : Prop
  | create (input : CreatePartnerInput) (id : Uuid) (req : c.req = .create input id)
      (role : input.isCustomer = some true ∨ input.isVendor = some true)
      (fresh : Db.partner c.before id = none)
      (writes : c.writes = [⟨.partner id, newPartner input⟩])
  | update (id : Uuid) (input : UpdatePartnerInput) (p : BusinessPartner) (updates : Updates c id input p)
  | deactivate (id : Uuid) (p : BusinessPartner) (req : c.req = .deactivate id)
      (current : Db.livePartner c.before id = some p)
      (writes : c.writes = [⟨.partner id, { p with isActive := false }⟩])
  | softDelete (id deletedBy : Uuid) (now : Timestamp) (code : String) (p : BusinessPartner)
      (req : c.req = .softDelete id deletedBy now) (current : Db.livePartner c.before id = some p)
      (writes : c.writes = [⟨.partner id, tombstone id code deletedBy now p⟩])

/-- What the requests guarantee each other. -/
def protocol : Protocol Row LockName Query Request where
  guar := Transacts
  rely := fun _ => True
  late := fun _ => False

/-! ## The requests keep the protocol -/

/-- What a request has done in its current transaction. -/
abbrev Tx := Local Row LockName Query

section Requests

variable {r : Request} {ℓ : Tx}

theorem wp_findById {id : Uuid} {post : BusinessPartner → Tx → Prop} (hnew : ℓ.published = false)
    (hbuf : ℓ.buf = [])
    (h : ∀ p ℓ', ℓ.Ran protocol r ℓ' [] (fun c => ∃ s, (.partner, s) ∈ c.seen ∧
      Db.livePartner s id = some p) → ℓ'.buf = [] → post p ℓ') :
    (findById id).wp protocol r ℓ post := by
  refine Prog.wp_bind.mpr (Prog.wp_query hnew fun s ℓ₁ h₁ => ?_)
  have hview : ℓ.view s = s := by rw [Local.view, hbuf, Store.putAll_nil]
  rw [hview]
  refine Prog.wp_orThrow h₁.new fun p hp => ?_
  refine h p ℓ₁ (h₁.mono fun c hc => ⟨s, hc.1, hp⟩) ?_
  rw [h₁.buf, hbuf, List.append_nil]

/-- An update of a partner: the row is the one the commit finds. -/
theorem wp_updatePartner {id : Uuid} {f : BusinessPartner → BusinessPartner}
    {post : BusinessPartner → Tx → Prop} (hnew : ℓ.published = false) (hbuf : ℓ.buf = [])
    (h : ∀ p ℓ', ℓ.Ran protocol r ℓ' [⟨.partner id, f p⟩]
      (fun c => Db.livePartner c.before id = some p) → post (f p) ℓ') :
    (updatePartner id f).wp protocol r ℓ post := by
  refine Prog.wp_bind.mpr (Prog.wp_lockRow hnew fun s ℓ₁ h₁ => ?_)
  refine Prog.wp_bind.mpr (Prog.wp_orThrow h₁.new fun p hp => ?_)
  refine Prog.wp_bind.mpr (Prog.wp_write h₁.new fun ℓ₂ h₂ => h p ℓ₂ ?_)
  refine (h₁.trans h₂).mono fun c hc => ?_
  have hrow := hc.1
  rw [hbuf, Store.putAll_nil] at hrow
  rw [Db.livePartner, Db.partner, hrow]
  exact hp

theorem wp_uniqueCode {id : Uuid} {code : String} {post : Unit → Tx → Prop}
    (hnew : ℓ.published = false)
    (h : ∀ ℓ', ℓ.Ran protocol r ℓ' [] (fun _ => True) → post () ℓ') :
    (uniqueCode id code).wp protocol r ℓ post := by
  refine Prog.wp_bind.mpr (Prog.wp_lock hnew fun s ℓ₁ h₁ _ => ?_)
  exact Prog.wp_ensure h₁.new fun _ => h ℓ₁ (h₁.mono fun _ _ => trivial)

theorem wp_create {input : CreatePartnerInput} {newId : Uuid} (hreq : r = .create input newId)
    (hnew : ℓ.published = false) (hbuf : ℓ.buf = []) :
    (create input newId).wp protocol r ℓ fun _ _ => True := by
  refine Prog.wp_bind.mpr (Prog.wp_ensure hnew fun hrole => ?_)
  refine Prog.wp_bind.mpr (Prog.wp_query hnew fun s ℓ₁ h₁ => ?_)
  refine Prog.wp_bind.mpr (Prog.wp_ensure h₁.new fun _ => ?_)
  have hbuf₁ : ℓ₁.buf = [] := by rw [h₁.buf, hbuf, List.append_nil]
  refine Prog.wp_bind.mpr (Prog.wp_mapThrow.mpr (Prog.wp_transaction ?_))
  refine Prog.wp_bind.mpr (Prog.wp_lockRow h₁.new fun s ℓ₂ h₂ => ?_)
  refine Prog.wp_bind.mpr (Prog.wp_ensure h₂.new fun hnone => ?_)
  refine Prog.wp_bind.mpr (Prog.wp_write h₂.new fun ℓ₃ h₃ => ?_)
  refine wp_uniqueCode h₃.new fun ℓ₄ h₄ db hs => ⟨?_, trivial⟩
  refine (h₂.trans (h₃.trans h₄)).guar hbuf₁ hs fun c hr hwrites hc => ?_
  have hfresh := hc.1
  rw [hbuf₁, Store.putAll_nil] at hfresh
  exact .create input newId (hr.trans hreq) hrole
    (hfresh.trans (Option.isNone_iff_eq_none.mp hnone)) hwrites

theorem wp_update {id : Uuid} {input : UpdatePartnerInput} (hreq : r = .update id input)
    (hnew : ℓ.published = false) (hbuf : ℓ.buf = []) :
    (update id input).wp protocol r ℓ fun _ _ => True := by
  refine Prog.wp_bind.mpr (wp_findById hnew hbuf fun p₀ ℓ₁ h₁ hbuf₁ => ?_)
  refine Prog.wp_bind.mpr (Prog.wp_ensure h₁.new fun hrole => Prog.wp_transaction ?_)
  refine wp_updatePartner h₁.new hbuf₁ fun p ℓ₂ h₂ db hs => ⟨?_, trivial⟩
  refine (h₁.trans h₂).guar hbuf hs fun c hr hwrites hc => ?_
  obtain ⟨⟨s, hseen, hread⟩, hcurrent⟩ := hc
  refine .update id input p ⟨hr.trans hreq, ⟨s, p₀, hseen, hread, ?_⟩, hcurrent, hwrites⟩
  exact hrole.imp Option.some.inj Option.some.inj

theorem wp_deactivate {id : Uuid} (hreq : r = .deactivate id) (hnew : ℓ.published = false)
    (hbuf : ℓ.buf = []) : (deactivate id).wp protocol r ℓ fun _ _ => True := by
  refine Prog.wp_bind.mpr (wp_findById hnew hbuf fun p₀ ℓ₁ h₁ hbuf₁ => Prog.wp_transaction ?_)
  refine wp_updatePartner h₁.new hbuf₁ fun p ℓ₂ h₂ db hs => ⟨?_, trivial⟩
  refine h₂.guar hbuf₁ hs fun c hr hwrites hc => ?_
  exact .deactivate id p (hr.trans hreq) hc hwrites

theorem wp_softDelete {id deletedBy : Uuid} {now : Timestamp}
    (hreq : r = .softDelete id deletedBy now) (hnew : ℓ.published = false) (hbuf : ℓ.buf = []) :
    (softDelete id deletedBy now).wp protocol r ℓ fun _ _ => True := by
  refine Prog.wp_bind.mpr (wp_findById hnew hbuf fun p₀ ℓ₁ h₁ hbuf₁ => Prog.wp_transaction ?_)
  refine Prog.wp_bind.mpr (wp_updatePartner h₁.new hbuf₁ fun p ℓ₂ h₂ => ?_)
  refine wp_uniqueCode h₂.new fun ℓ₃ h₃ db hs => ⟨?_, trivial⟩
  refine (h₂.trans h₃).guar hbuf₁ hs fun c hr hwrites hc => ?_
  exact .softDelete id deletedBy now p₀.code p (hr.trans hreq) hc.1 hwrites

theorem wp_respond {α : Type} {f : α → Response} {p : Program α}
    (h : p.wp protocol r ℓ fun _ _ => True) : (respond f p).wp protocol r ℓ fun _ _ => True :=
  Prog.wp_bind.mpr (Prog.wp_mono h fun _ _ _ => trivial)

/-- **Every request keeps the protocol.** -/
theorem code_wp (r : Request) : (code r).wp protocol r {} fun _ _ => True := by
  cases r with
  | create input newId => exact wp_respond (wp_create rfl rfl rfl)
  | update id input => exact wp_respond (wp_update rfl rfl rfl)
  | deactivate id => exact wp_respond (wp_deactivate rfl rfl rfl)
  | softDelete id deletedBy now => exact wp_respond (wp_softDelete rfl rfl rfl)

end Requests

/-! ## Roles -/

section After

variable {c : Commit}

theorem livePartner_after {id : Uuid} {p : BusinessPartner} (h : c.writes = [⟨.partner id, p⟩])
    (id' : Uuid) : Db.livePartner c.after id' =
      if id' = id then some p |>.filter (·.deletedAt.isNone) else Db.livePartner c.before id' := by
  rw [Db.livePartner, Db.partner, Commit.after, h, Store.putAll_cons, Store.putAll_nil]
  by_cases hid : id' = id
  · rw [if_pos hid, hid, Store.row_put_self]
  · rw [if_neg hid, Store.row_put_of_ne _ _ fun hk => hid (Key.partner.inj hk)]
    rfl

end After

def BusinessPartner.HasRole (p : BusinessPartner) : Prop := p.isCustomer = true ∨ p.isVendor = true

/-- Every live partner is a customer or a vendor. -/
def HasRoles (db : Db) : Prop := ∀ id p, Db.livePartner db id = some p → p.HasRole

/-- The request supplies a flag that is true, or leaves out one that the partner has. -/
def UpdatePartnerInput.LeavesRole (input : UpdatePartnerInput) (p : BusinessPartner) : Prop :=
  input.isCustomer = some true ∨ input.isVendor = some true ∨
    (input.isCustomer = none ∧ p.isCustomer = true) ∨ (input.isVendor = none ∧ p.isVendor = true)

instance (input : UpdatePartnerInput) (p : BusinessPartner) : Decidable (input.LeavesRole p) :=
  inferInstanceAs (Decidable (_ ∨ _))

/-- An update supplies a flag that is true, or leaves out one that the partner it finds has. -/
def KeepsRole (c : Commit) : Prop :=
  ∀ id input p, c.req = .update id input → Db.livePartner c.before id = some p → input.LeavesRole p

theorem hasRole_apply_iff (input : UpdatePartnerInput) (p : BusinessPartner) :
    (input.apply p).HasRole ↔ input.LeavesRole p := by
  have hflag : ∀ (supplied : Option Bool) (flag : Bool),
      supplied.getD flag = true ↔ supplied = some true ∨ (supplied = none ∧ flag = true) := by
    intro supplied flag
    cases supplied <;> simp
  rw [BusinessPartner.HasRole, UpdatePartnerInput.LeavesRole, UpdatePartnerInput.apply, hflag, hflag]
  tauto

/-- A commit that writes one partner keeps the roles when that partner has one, or is deleted. -/
theorem HasRoles.of_writes {c : Commit} (hb : HasRoles c.before) {id : Uuid} {p : BusinessPartner}
    (h : c.writes = [⟨.partner id, p⟩]) (hp : p.deletedAt = none → p.HasRole) : HasRoles c.after := by
  intro id' p' hp'
  rw [livePartner_after h] at hp'
  by_cases hid : id' = id
  · rw [if_pos hid] at hp'
    obtain ⟨hsome, hlive⟩ := Option.filter_eq_some_iff.mp hp'
    obtain rfl := Option.some.inj hsome
    exact hp (Option.isNone_iff_eq_none.mp hlive)
  · rw [if_neg hid] at hp'
    exact hb id' p' hp'

/-- **What a commit does to the roles.** -/
theorem hasRoles_after_iff {c : Commit} (hc : Transacts c) (hb : HasRoles c.before) :
    HasRoles c.after ↔ KeepsRole c := by
  cases hc with
  | create input id req role fresh writes =>
    refine iff_of_true (hb.of_writes writes fun _ => ?_) ?_
    · refine role.imp ?_ ?_ <;> intro hflag <;> simp [newPartner, hflag]
    · intro id' input' p hreq
      rw [req] at hreq
      cases hreq
  | update id input p updates =>
    obtain ⟨req, -, current, writes⟩ := updates
    have hlive : p.deletedAt = none :=
      Option.isNone_iff_eq_none.mp (Option.filter_eq_some_iff.mp current).2
    constructor
    · intro hafter id' input' p' hreq hp'
      rw [req] at hreq
      cases hreq
      obtain rfl := Option.some.inj (current.symm.trans hp')
      refine (hasRole_apply_iff input p).mp (hafter id _ ?_)
      rw [livePartner_after writes, if_pos rfl, Option.filter_some, if_pos]
      exact Option.isNone_iff_eq_none.mpr hlive
    · intro hkeeps
      exact hb.of_writes writes fun _ => (hasRole_apply_iff input p).mpr (hkeeps id input p req current)
  | deactivate id p req current writes =>
    refine iff_of_true (hb.of_writes writes fun _ => hb id p current) ?_
    intro id' input' p' hreq
    rw [req] at hreq
    cases hreq
  | softDelete id deletedBy now code p req current writes =>
    refine iff_of_true (hb.of_writes writes fun hnone => ?_) ?_
    · cases hnone
    · intro id' input' p' hreq
      rw [req] at hreq
      cases hreq

section Reachable

variable {policy : Policy Row LockName Query Failure Response Request} {db₀ : Db} {s : Server}

/-- The commits of a run are the specified transactions. -/
theorem chain_of_reachable (h : Reachable code policy db₀ s) :
    Chain protocol db₀ s.history s.db :=
  (ReadCommitted.Reachable.sound h (fun _ r _ => code_wp r) fun _ _ => trivial).chain

/-- **The roles in all states of a run**: they are kept exactly if each update supplies a flag, or leaves
out one that the partner still has when it is written. -/
theorem hasRoles_iff (h : Reachable code policy db₀ s) :
    (∀ db, Past db₀ s.history db → HasRoles db) ↔ HasRoles db₀ ∧ ∀ c ∈ s.history, KeepsRole c := by
  have hchain := chain_of_reachable h
  constructor
  · intro hall
    refine ⟨hall db₀ (.inl rfl), fun c hc => ?_⟩
    obtain ⟨hguar, hbefore, -⟩ := hchain.of_mem (D := fun _ _ => True) (fun _ => trivial)
      (fun _ _ _ _ _ => trivial) (fun _ _ => trivial) hc
    exact (hasRoles_after_iff hguar (hall _ hbefore)).mp (hall _ (.inr ⟨c, hc, rfl⟩))
  · rintro ⟨h₀, hkeeps⟩
    refine hchain.always (D := fun _ _ => True) (fun _ => trivial) (fun _ _ _ _ _ => trivial)
      (fun _ _ => trivial) h₀ fun c hc hguar hb _ => ?_
    exact (hasRoles_after_iff hguar hb).mpr (hkeeps c hc)

end Reachable

/-! ## Two updates of one partner -/

namespace Sample

/-- A partner that is a customer and a vendor. -/
def partner : BusinessPartner :=
  ⟨"P-001", "PT Mitra", none, none, none, none, true, true, true, none, none⟩

def db : Db := Store.empty.putAll [⟨.partner 1, partner⟩]

/-- The server after a list of events, where they are possible. -/
def server (es : List (Event Request)) : Server :=
  ((Server.start db).run code es).getD (.start db)

theorem reachable {es : List (Event Request)}
    (h : ((Server.start db).run code es).isSome = true) :
    Reachable code (anytime fun _ => True) db (server es) := by
  obtain ⟨s, hs⟩ := Option.isSome_iff_exists.mp h
  rw [server, hs]
  exact Reachable.run .start (fun _ _ => trivial) hs

def notCustomer : UpdatePartnerInput := ⟨none, none, none, none, none, some false, none, none⟩

def notVendor : UpdatePartnerInput := ⟨none, none, none, none, none, none, some false, none⟩

/-- Both updates read the partner before either writes it. -/
def crossing : List (Event Request) :=
  [.spawn (.update 1 notCustomer), .spawn (.update 1 notVendor), .step 0, .step 1] ++
    List.replicate 3 (.step 0) ++ List.replicate 3 (.step 1)

theorem hasRoles : HasRoles db := by
  intro id p hp
  rw [Db.livePartner, Db.partner, db, Store.putAll_cons, Store.putAll_nil] at hp
  by_cases hid : id = 1
  · rw [hid, Store.row_put_self] at hp
    cases hp
    exact .inl rfl
  · rw [Store.row_put_of_ne _ _ fun hk => hid (Key.partner.inj hk)] at hp
    cases hp

end Sample

/-- **Two updates leave a partner without a role**, each of which the check has let through. -/
theorem not_hasRoles_of_crossing : ∃ db₀ s, HasRoles db₀ ∧
    Reachable code (anytime fun _ => True) db₀ s ∧ ¬ HasRoles s.db := by
  refine ⟨Sample.db, Sample.server Sample.crossing, Sample.hasRoles,
    Sample.reachable (by decide +kernel), fun h => ?_⟩
  have hlive : Db.livePartner (Sample.server Sample.crossing).db 1 =
      some { Sample.partner with isCustomer := false, isVendor := false } := by decide +kernel
  rcases h 1 _ hlive with hcustomer | hvendor
  · cases hcustomer
  · cases hvendor

/-- The two updates one after the other: the second one is refused. -/
theorem hasRoles_iff_sequential :
    let s := Sample.server (.spawn (.update 1 Sample.notCustomer) :: List.replicate 4 (.step 0) ++
      [.spawn (.update 1 Sample.notVendor), .step 1])
    (∀ db, Past Sample.db s.history db → HasRoles db) ↔
      HasRoles Sample.db ∧ ∀ c ∈ s.history, KeepsRole c :=
  hasRoles_iff (Sample.reachable (by decide +kernel))

end AccountingApi.Partners
