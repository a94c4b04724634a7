import AccountingApi.Auth.Conformance

/-!
# The last administrator

Whatever is demoted, deactivated or deleted at the same time, an active administrator is left: each such
change has counted another one under the advisory lock that it still holds when it commits.

## Main definitions

* `HasAdmin`: an active administrator is left

## Main results

* `hasAdmin_of_reachable`
-/

namespace AccountingApi.Auth

open ReadCommitted

section Reachable

variable {ttl : ℕ} {policy : Policy Row LockName Query Failure Response Request} {db₀ : Db}
  {s : Server}

/-- The commits of a run are the specified transactions. -/
theorem chain_of_reachable (h : Reachable (code ttl) policy db₀ s) :
    Chain (protocol ttl) db₀ s.history s.db :=
  (ReadCommitted.Reachable.sound h (fun _ r _ => code_wp ttl r) fun _ _ => trivial).chain

end Reachable

/-- An active, non-deleted administrator is left. -/
def HasAdmin (db : Db) : Prop := ∃ id u, Db.user db id = some u ∧ u.InAdminPool

/-- **A commit leaves an administrator.** -/
theorem HasAdmin.after {ttl : ℕ} {c : Commit} (h : HasAdmin c.before) (hc : Transacts ttl c) :
    HasAdmin c.after := by
  obtain ⟨id, u, hu, hpool⟩ := h
  cases hc.userChange with
  | none after => exact ⟨id, u, by rw [after, hu], hpool⟩
  | create id' u' fresh after =>
    have hne : id ≠ id' := by
      rintro rfl
      rw [fresh] at hu
      cases hu
    exact ⟨id, u, by rw [after, if_neg hne, hu], hpool⟩
  | edit id' u₁ u₂ current same after =>
    by_cases hid : id = id'
    · subst hid
      obtain rfl : u = u₁ := Option.some.inj (hu ▸ current)
      exact ⟨id, u₂, by rw [after, if_pos rfl], same.inAdminPool_iff.mpr hpool⟩
    · exact ⟨id, u, by rw [after, if_neg hid, hu], hpool⟩
  | pool id' u₁ u₂ changes =>
    have hafter := user_after changes.writes
    by_cases hid : id = id'
    · subst hid
      obtain rfl : u = u₁ := Option.some.inj (hu ▸ changes.current)
      by_cases hstays : u₂.InAdminPool
      · exact ⟨id, u₂, by rw [hafter, if_pos rfl], hstays⟩
      · -- the one that was counted is left
        obtain ⟨id', a, hne, ha, hadmin⟩ := changes.guarded hpool hstays
        exact ⟨id', a, by rw [hafter, if_neg hne, ha], hadmin⟩
    · exact ⟨id, u, by rw [hafter, if_neg hid, hu], hpool⟩

/-- **An active administrator is left** in every reachable state. -/
theorem hasAdmin_of_reachable {ttl : ℕ}
    {policy : Policy Row LockName Query Failure Response Request} {db₀ : Db} {s : Server}
    (h₀ : HasAdmin db₀) (h : Reachable (code ttl) policy db₀ s) : HasAdmin s.db :=
  (chain_of_reachable h).invariant (I := fun _ db => HasAdmin db) h₀
    fun _ _ _ hguar _ hI => hI.after hguar

/-! ## Two administrators -/

namespace Sample

def administrator (email : String) : User := ⟨email, "hash", "Name", .admin, true, false, none, none⟩

/-- Two administrators and no sessions. -/
def rows : List (Write Row) := [
  ⟨.user 1, administrator "a@example.com"⟩,
  ⟨.user 2, administrator "b@example.com"⟩]

def db : Db := Store.empty.putAll rows

/-- A lifetime of one day. -/
def ttl : ℕ := 86400000

/-- The server after a list of events, where they are possible. -/
def server (es : List (Event Request)) : Server :=
  ((Server.start db).run (code ttl) es).getD (.start db)

theorem reachable {es : List (Event Request)}
    (h : ((Server.start db).run (code ttl) es).isSome = true) :
    Reachable (code ttl) (anytime fun _ => True) db (server es) := by
  obtain ⟨s, hs⟩ := Option.isSome_iff_exists.mp h
  rw [server, hs]
  exact Reachable.run .start (fun _ _ => trivial) hs

end Sample

/-- Each of two administrators demotes the other at the same time. -/
theorem hasAdmin_of_reachable_race :
    HasAdmin (Sample.server (
      [.spawn (.updateUser 1 2 ⟨none, some .viewer, none⟩ .plain),
        .spawn (.updateUser 2 1 ⟨none, some .viewer, none⟩ .plain)] ++
      List.replicate 6 (.step 0) ++ List.replicate 4 (.step 1))).db :=
  hasAdmin_of_reachable ⟨1, Sample.administrator "a@example.com", rfl, by decide⟩
    (Sample.reachable (by decide +kernel))

end AccountingApi.Auth
