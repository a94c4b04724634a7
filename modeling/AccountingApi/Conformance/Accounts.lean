import AccountingApi.Conformance.Posting

/-!
# The accounts service keeps the protocol

An account is written by the one statement its request ends with.

## Main results

* `createAccount_wp`, `updateAccount_wp`, `deactivateAccount_wp`, `deleteAccount_wp`
-/

namespace AccountingApi

open ReadCommitted Accounts

section Accounts

variable {strict : Prop} {r : Request} {ℓ : Tx}

theorem wp_findById {P : Protocol Row LockName Query Request} {id : Uuid}
    {post : Account → Tx → Prop} (hnew : ℓ.published = false) (hbuf : ℓ.buf = [])
    (h : ∀ a ℓ', ℓ.Ran P r ℓ' [] (fun _ => True) → post a ℓ') : (findById id).wp P r ℓ post :=
  Prog.wp_bind.mpr (wp_read hnew hbuf fun _ ℓ₁ h₁ =>
    Prog.wp_orThrow h₁.new fun a _ => h a ℓ₁ (h₁.mono fun _ _ => trivial))

theorem wp_assertRoleFree {P : Protocol Row LockName Query Request} {role : Option AccountRole}
    {post : Unit → Tx → Prop} (hnew : ℓ.published = false) (hbuf : ℓ.buf = [])
    (h : ∀ ℓ', ℓ.Ran P r ℓ' [] (fun _ => True) → post () ℓ') :
    (assertRoleFree role).wp P r ℓ post := by
  refine Prog.wp_when (fun _ => Prog.wp_bind.mpr ?_) fun _ => h ℓ (.refl hnew)
  exact wp_read hnew hbuf fun _ ℓ₁ h₁ =>
    Prog.wp_ensure h₁.new fun _ => h ℓ₁ (h₁.mono fun _ _ => trivial)

theorem wp_resolveParent {P : Protocol Row LockName Query Request} {parentCode : Option String}
    {post : Option Uuid → Tx → Prop} (hnew : ℓ.published = false) (hbuf : ℓ.buf = [])
    (h : ∀ parentId ℓ', ℓ.Ran P r ℓ' [] (fun _ => True) → post parentId ℓ') :
    (resolveParent parentCode).wp P r ℓ post := by
  cases parentCode with
  | none => exact h none ℓ (.refl hnew)
  | some code =>
    refine Prog.wp_bind.mpr (wp_read hnew hbuf fun _ ℓ₁ h₁ => ?_)
    refine Prog.wp_bind.mpr (Prog.wp_orThrow h₁.new fun parent _ => ?_)
    exact Prog.wp_bind.mpr (Prog.wp_ensure h₁.new fun _ =>
      h (some parent.1) ℓ₁ (h₁.mono fun _ _ => trivial))

theorem wp_uniqueCode {P : Protocol Row LockName Query Request} {id : Uuid} {code : String}
    {post : Unit → Tx → Prop} (hnew : ℓ.published = false)
    (h : ∀ ℓ', ℓ.Ran P r ℓ' [] (fun _ => True) → post () ℓ') :
    (uniqueCode id code).wp P r ℓ post :=
  Prog.wp_bind.mpr (Prog.wp_lock hnew fun _ ℓ₁ h₁ _ =>
    Prog.wp_ensure h₁.new fun _ => h ℓ₁ (h₁.mono fun _ _ => trivial))

theorem wp_uniqueRole {P : Protocol Row LockName Query Request} {id : Uuid}
    {role : Option AccountRole} {post : Unit → Tx → Prop} (hnew : ℓ.published = false)
    (h : ∀ ℓ', ℓ.Ran P r ℓ' [] (fun _ => True) → post () ℓ') :
    (uniqueRole id role).wp P r ℓ post := by
  cases role with
  | none => exact h ℓ (.refl hnew)
  | some role =>
    refine Prog.wp_when (fun _ => Prog.wp_bind.mpr ?_) fun _ => h ℓ (.refl hnew)
    exact Prog.wp_lock hnew fun _ ℓ₁ h₁ _ =>
      Prog.wp_ensure h₁.new fun _ => h ℓ₁ (h₁.mono fun _ _ => trivial)

theorem createAccount_wp (input : CreateInput) (id : Uuid) :
    (code (.createAccount input id)).wp (protocol strict) (.createAccount input id) {}
      fun _ _ => True := by
  refine wp_respond (Prog.wp_bind.mpr (Prog.wp_ensure rfl fun _ => ?_))
  refine Prog.wp_bind.mpr (wp_read rfl rfl fun _ ℓ₁ h₁ => ?_)
  refine Prog.wp_bind.mpr (Prog.wp_ensure h₁.new fun _ => ?_)
  have b₁ := buf_of_ran h₁ rfl
  refine Prog.wp_bind.mpr (wp_assertRoleFree h₁.new b₁ fun ℓ₂ h₂ => ?_)
  have b₂ := buf_of_ran h₂ b₁
  refine Prog.wp_bind.mpr (wp_resolveParent h₂.new b₂ fun parentId ℓ₃ h₃ => ?_)
  have b₃ := buf_of_ran h₃ b₂
  refine Prog.wp_mapThrow.mpr (wp_transaction ?_)
  refine Prog.wp_bind.mpr (wp_insert h₃.new fun ℓ₄ _ h₄ => ?_)
  refine Prog.wp_bind.mpr (wp_uniqueCode h₄.new fun ℓ₅ h₅ => ?_)
  refine Prog.wp_bind.mpr (wp_uniqueRole h₅.new fun ℓ₆ h₆ db hs => ⟨?_, trivial⟩)
  refine Local.Ran.guar (h₄.trans (h₅.trans h₆)) b₃ hs fun c hreq hwrites hc => ?_
  have hfresh := hc.1
  rw [b₃, Store.putAll_nil] at hfresh
  exact .account id _ (.create input parentId hreq hfresh) hwrites

/-- An update of an account by the fields that are given. -/
theorem wp_applyUpdate {id : Uuid} {input : UpdateInput}
    (hreq : r = .updateAccount id input ∨ r = .deactivateAccount id) (hnew : ℓ.published = false)
    (hbuf : ℓ.buf = []) :
    (transaction (updateAccount id (applyUpdate input))).wp (protocol strict) r ℓ
      fun _ _ => True := by
  refine wp_transaction (wp_updateRow hnew fun a ℓ₁ hlive _ h₁ db hs => ⟨?_, trivial⟩)
  refine Local.Ran.guar h₁ hbuf hs fun c hc hwrites hrow => ?_
  rw [hbuf, Store.putAll_nil] at hrow
  exact .account id _ (.update input a (hc ▸ hreq) hrow hlive) hwrites

theorem updateAccount_wp (id : Uuid) (input : UpdateInput) :
    (code (.updateAccount id input)).wp (protocol strict) (.updateAccount id input) {}
      fun _ _ => True :=
  wp_respond (Prog.wp_bind.mpr (wp_findById rfl rfl fun _ _ h₁ =>
    wp_applyUpdate (.inl rfl) h₁.new (buf_of_ran h₁ rfl)))

theorem deactivateAccount_wp (id : Uuid) :
    (code (.deactivateAccount id)).wp (protocol strict) (.deactivateAccount id) {}
      fun _ _ => True :=
  wp_respond (Prog.wp_bind.mpr (wp_findById rfl rfl fun _ _ h₁ =>
    wp_applyUpdate (.inr rfl) h₁.new (buf_of_ran h₁ rfl)))

theorem deleteAccount_wp (id user : Uuid) (now : Timestamp) :
    (code (.deleteAccount id user now)).wp (protocol strict) (.deleteAccount id user now) {}
      fun _ _ => True := by
  refine wp_respond (Prog.wp_bind.mpr (wp_findById rfl rfl fun account ℓ₁ h₁ => ?_))
  have b₁ := buf_of_ran h₁ rfl
  refine Prog.wp_bind.mpr (wp_read h₁.new b₁ fun s ℓ₂ h₂ => ?_)
  refine Prog.wp_bind.mpr (Prog.wp_ensure h₂.new fun hcount => wp_transaction ?_)
  have b₂ := buf_of_ran h₂ b₁
  refine Prog.wp_bind.mpr (wp_updateRow h₂.new fun a ℓ₃ hlive _ h₃ => ?_)
  refine wp_uniqueCode h₃.new fun ℓ₄ h₄ db hs => ⟨?_, trivial⟩
  refine Local.Ran.guar (h₂.trans (h₃.trans h₄)) b₁ hs fun c hreq hwrites hc => ?_
  obtain ⟨⟨hseen, -⟩, hrow, -⟩ := hc
  rw [b₂, Store.putAll_nil] at hrow
  exact .account id _ (.delete user now account.code a hreq ⟨s, hseen, hcount⟩ hrow hlive) hwrites

end Accounts

end AccountingApi
