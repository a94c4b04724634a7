import AccountingApi.Auth.LastAdmin
import AccountingApi.Succession.Lineage

/-!
# Families of refresh tokens

Whatever rotates, revokes and purges at the same time, the tokens of a family are a lineage: each but
the last one has been replaced by the next, and only the last one may be active. The keys of tokens and
families are drawn at random, so that no key is drawn twice.

## Main definitions

* `RefreshToken.Becomes`: what stays of a token as long as it exists
* `Family`: the tokens of a family, the first one first
* `Consumes`: a commit consumed a token
* `TokensKept`: what holds of the tokens of all past stores
* `Sessions`: what holds of the families after every commit

## Main results

* `Transacts.of_consumes`: a token is consumed by a rotation that found it active
* `Sessions.of_chain`: the families of a run
-/

namespace AccountingApi.Auth

open ReadCommitted Succession

/-! ## What stays of a token -/

/-- What stays of a token as long as it exists. -/
structure RefreshToken.Becomes (t t' : RefreshToken) : Prop where
  userId : t'.userId = t.userId
  familyId : t'.familyId = t.familyId
  expiresAt : t'.expiresAt = t.expiresAt
  settled : t.status ≠ .active → t'.status ≠ .active
  revoked : t.status = .revoked → t'.status = .revoked

namespace RefreshToken

variable {t t' t'' : RefreshToken}

theorem Becomes.refl (t : RefreshToken) : t.Becomes t := ⟨rfl, rfl, rfl, id, id⟩

theorem Becomes.trans (h : t.Becomes t') (h' : t'.Becomes t'') : t.Becomes t'' :=
  ⟨h'.userId.trans h.userId, h'.familyId.trans h.familyId, h'.expiresAt.trans h.expiresAt,
    fun hs => h'.settled (h.settled hs), fun hs => h'.revoked (h.revoked hs)⟩

theorem becomes_consume (h : t.status = .active) (now : Timestamp) (newJti : Uuid) :
    t.Becomes (t.consume now newJti) :=
  ⟨rfl, rfl, rfl, fun hs => absurd h hs, fun hs => nomatch h.symm.trans hs⟩

theorem becomes_revoke (t : RefreshToken) : t.Becomes t.revoke :=
  ⟨rfl, rfl, rfl, fun _ => nofun, fun _ => rfl⟩

end RefreshToken

section Commit

variable {ttl : ℕ} {c : Commit} {jti : Uuid} {t t' : RefreshToken}

/-- **One commit** keeps what is to stay of a token. -/
theorem TokenChange.becomes (h : TokenChange ttl c) (ht : Db.refreshToken c.before jti = some t)
    (ht' : Db.refreshToken c.after jti = some t') : t.Becomes t' := by
  cases h with
  | none after =>
    rw [after, ht] at ht'
    cases ht'
    exact .refl t
  | issue userId jti' familyId now drawn fresh after =>
    rw [after] at ht'
    split at ht'
    · rename_i hj
      rw [← hj, ht] at fresh
      cases fresh
    · rw [ht] at ht'
      cases ht'
      exact .refl t
  | rotate jti' newJti t₁ now later presented drawn clock current active fresh after =>
    rw [after] at ht'
    split at ht'
    · rename_i hj
      rw [← hj, ht] at fresh
      cases fresh
    · split at ht'
      · rename_i hj
        rw [← hj, ht] at current
        cases current
        cases ht'
        exact RefreshToken.becomes_consume active now newJti
      · rw [ht] at ht'
        cases ht'
        exact .refl t
  | revoke target s revokes updates =>
    rw [updates.after ht] at ht'
    split at ht'
    · cases ht'
      exact t.becomes_revoke
    · cases ht'
      exact .refl t
  | purge now s updates =>
    rw [updates.after ht] at ht'
    split at ht'
    · cases ht'
    · cases ht'
      exact .refl t

/-- The token is of the family and the user of one the commit has found. -/
def Descends (c : Commit) (t : RefreshToken) : Prop :=
  ∃ jti₀ t₀, Db.refreshToken c.before jti₀ = some t₀ ∧ t.familyId = t₀.familyId ∧ t.userId = t₀.userId

/-- A token that was there descends from itself. -/
theorem TokenChange.descends (h : TokenChange ttl c) (ht : Db.refreshToken c.before jti = some t)
    (ht' : Db.refreshToken c.after jti = some t') : Descends c t' :=
  ⟨jti, t, ht, (h.becomes ht ht').familyId, (h.becomes ht ht').userId⟩

/-- **A token that was not there** has been drawn; it is of a family that was there, or it is the only
one of a family that has been drawn with it. -/
theorem TokenChange.of_new (h : TokenChange ttl c)
    (ht : Db.refreshToken c.before jti = Option.none) (ht' : Db.refreshToken c.after jti = some t') :
    jti ∈ c.req.drawn ∧ (Descends c t' ∨ t'.familyId ∈ c.req.drawn ∧
      ∀ jti₁ t₁, Db.refreshToken c.before jti₁ = Option.none → Db.refreshToken c.after jti₁ = some t₁ →
        t₁ = t') := by
  cases h with
  | none after =>
    rw [after, ht] at ht'
    cases ht'
  | issue userId jti' familyId now drawn fresh after =>
    have hnew : ∀ jti₁ t₁, Db.refreshToken c.before jti₁ = Option.none →
        Db.refreshToken c.after jti₁ = some t₁ →
        jti₁ = jti' ∧ t₁ = .issued userId familyId (now + ttl) := by
      intro jti₁ t₁ h₁ h₁'
      rw [after, h₁] at h₁'
      split at h₁'
      · rename_i hj
        exact ⟨hj, (Option.some.inj h₁').symm⟩
      · cases h₁'
    obtain ⟨rfl, rfl⟩ := hnew jti t' ht ht'
    rw [drawn]
    refine ⟨List.mem_cons_self, .inr ⟨List.mem_cons_of_mem _ List.mem_cons_self, ?_⟩⟩
    exact fun jti₁ t₁ h₁ h₁' => (hnew jti₁ t₁ h₁ h₁').2
  | rotate jti' newJti t₁ now later presented drawn clock current active fresh after =>
    rw [after] at ht'
    split at ht'
    · rename_i hj
      cases ht'
      rw [hj, drawn]
      exact ⟨List.mem_cons_self, .inl ⟨jti', t₁, current, rfl, rfl⟩⟩
    · split at ht'
      · rename_i hj
        rw [← hj, ht] at current
        cases current
      · rw [ht] at ht'
        cases ht'
  | revoke target s revokes updates =>
    rw [updates.after_none ht] at ht'
    cases ht'
  | purge now s updates =>
    rw [updates.after_none ht] at ht'
    cases ht'

end Commit

/-! ## Families -/

/-- A token may be replaced by another one. -/
def RefreshToken.Precedes (t t' : RefreshToken) : Prop :=
  t.userId = t'.userId ∧ t.expiresAt ≤ t'.expiresAt

/-- The tokens of a family, each with its key, the first one first. -/
structure Family (db : Db) (f : Uuid) (l : List (Uuid × RefreshToken)) : Prop where
  mem : ∀ jti t, (jti, t) ∈ l ↔ Db.refreshToken db jti = some t ∧ t.familyId = f
  lineage : IsLineage (·.replacedById) RefreshToken.Precedes l

/-- No token of the list is in the store without those before it. -/
def InOrder (s : Db) (l : List (Uuid × RefreshToken)) : Prop :=
  l.Pairwise fun x y => (Db.refreshToken s y.1).isSome = true → (Db.refreshToken s x.1).isSome = true

/-- What an active token is replaced by is still open, and a consumed one has been replaced. -/
def RefreshToken.Coherent (t : RefreshToken) : Prop :=
  (t.status = .active → t.replacedById = none) ∧ (t.status = .consumed → t.replacedById ≠ none)

namespace Family

variable {db : Db} {f : Uuid} {l : List (Uuid × RefreshToken)} {jti : Uuid} {t t₀ : RefreshToken}

/-- The active token of a family is the last one. -/
theorem eq_append_of_active (h : Family db f l) (ht : Db.refreshToken db jti = some t)
    (hf : t.familyId = f) (hopen : t.replacedById = none) : ∃ l₀, l = l₀ ++ [(jti, t)] :=
  h.lineage.eq_append_of_next_none ((h.mem jti t).mpr ⟨ht, hf⟩) hopen

theorem isSome_of_mem (h : Family db f l) {x : Uuid × RefreshToken} (hx : x ∈ l) :
    (Db.refreshToken db x.1).isSome = true := by
  rw [((h.mem x.1 x.2).mp hx).1, Option.isSome_some]

/-- The store a family is in has all of its tokens. -/
theorem inOrder (h : Family db f l) : InOrder db l :=
  List.pairwise_of_forall_mem_list fun _ hx _ _ _ => h.isSome_of_mem hx

/-- A family whose tokens are as they were. -/
theorem congr {db' : Db} (h : Family db f l) (hsame : ∀ jti t, t.familyId = f →
    (Db.refreshToken db' jti = some t ↔ Db.refreshToken db jti = some t)) : Family db' f l where
  mem := fun jti t => (h.mem jti t).trans
    ⟨fun ⟨ht, hf⟩ => ⟨(hsame jti t hf).mpr ht, hf⟩, fun ⟨ht, hf⟩ => ⟨(hsame jti t hf).mp ht, hf⟩⟩
  lineage := h.lineage

/-- A new family. -/
theorem issue {db' : Db} (hnone : ∀ jti t, Db.refreshToken db jti = some t → t.familyId ≠ t₀.familyId)
    (hopen : t₀.replacedById = none) (hafter : ∀ jti', Db.refreshToken db' jti' =
      if jti' = jti then some t₀ else Db.refreshToken db jti') :
    Family db' t₀.familyId [(jti, t₀)] where
  mem := fun jti' t' => by
    rw [List.mem_singleton, Prod.mk.injEq, hafter]
    constructor
    · rintro ⟨rfl, rfl⟩
      exact ⟨if_pos rfl, rfl⟩
    · rintro ⟨ht', hf⟩
      split at ht'
      · rename_i hj
        exact ⟨hj, (Option.some.inj ht').symm⟩
      · exact absurd hf (hnone jti' t' ht')
  lineage := .singleton hopen

/-- The last token of a family replaced by a new one. -/
theorem rotate {db' : Db} {l₀ : List (Uuid × RefreshToken)} {newJti : Uuid} {t₁ t₂ : RefreshToken}
    (h : Family db t.familyId (l₀ ++ [(jti, t)])) (hbecomes : t.Becomes t₁)
    (hnext : t₁.replacedById = some newJti) (hopen : t₂.replacedById = none)
    (hfamily : t₂.familyId = t.familyId) (hprecedes : t₁.Precedes t₂)
    (hfresh : Db.refreshToken db newJti = none) (hafter : ∀ jti', Db.refreshToken db' jti' =
      if jti' = newJti then some t₂ else if jti' = jti then some t₁
      else Db.refreshToken db jti') :
    Family db' t.familyId (l₀ ++ [(jti, t₁), (newJti, t₂)]) where
  mem := fun jti' t' => by
    have hcurrent := ((h.mem jti t).mp (List.mem_append_right _ List.mem_cons_self)).1
    have hne : jti ≠ newJti := by
      rintro rfl
      rw [hfresh] at hcurrent
      cases hcurrent
    have hkeys : jti ∉ l₀.map Prod.fst := by
      have hnodup := h.lineage.nodup
      rw [List.map_append, List.nodup_append] at hnodup
      exact fun hmem => hnodup.2.2 jti hmem jti List.mem_cons_self rfl
    have hold := h.mem jti' t'
    rw [List.mem_append, List.mem_singleton, Prod.mk.injEq] at hold
    rw [List.mem_append, List.mem_cons, List.mem_singleton, Prod.mk.injEq, Prod.mk.injEq, hafter]
    by_cases hnew : jti' = newJti
    · -- the successor's key is not among the old ones
      subst hnew
      have hnot : (jti', t') ∉ l₀ := fun hmem => by
        have hsome := (hold.mp (.inl hmem)).1
        rw [hfresh] at hsome
        cases hsome
      rw [if_pos rfl]
      constructor
      · rintro (hmem | ⟨hj, -⟩ | ⟨-, rfl⟩)
        · exact absurd hmem hnot
        · exact absurd hj.symm hne
        · exact ⟨rfl, hfamily⟩
      · rintro ⟨ht', -⟩
        exact .inr (.inr ⟨rfl, (Option.some.inj ht').symm⟩)
    · rw [if_neg hnew]
      by_cases hj : jti' = jti
      · subst hj
        rw [if_pos rfl]
        constructor
        · rintro (hmem | ⟨-, rfl⟩ | ⟨hj, -⟩)
          · exact absurd (List.mem_map_of_mem (f := Prod.fst) hmem) hkeys
          · exact ⟨rfl, hbecomes.familyId⟩
          · exact absurd hj hnew
        · rintro ⟨ht', -⟩
          exact .inr (.inl ⟨rfl, (Option.some.inj ht').symm⟩)
      · rw [if_neg hj]
        constructor
        · rintro (hmem | ⟨hj', -⟩ | ⟨hj', -⟩)
          · exact hold.mp (.inl hmem)
          · exact absurd hj' hj
          · exact absurd hj' hnew
        · exact fun h' => .inl ((hold.mpr h').resolve_right fun hx => hj hx.1)
  lineage := by
    refine h.lineage.extend (fun x hx => ?_) hnext hopen hprecedes fun hmem => ?_
    · exact ⟨hx.1.trans hbecomes.userId.symm, hbecomes.expiresAt ▸ hx.2⟩
    · obtain ⟨x, hx, rfl⟩ := List.mem_map.mp hmem
      have hsome := h.isSome_of_mem hx
      rw [hfresh] at hsome
      cases hsome

variable {c : Commit} {s : Db} {p : RefreshToken → Bool}

/-- The tokens of a family that a statement has found are revoked. -/
theorem revoke (h : Family c.before f l) (hu : UpdatesTokens c s p fun t => some t.revoke) :
    Family c.after f (l.map fun x =>
      (x.1, if (Db.refreshToken s x.1).any p = true ∧ p x.2 = true then x.2.revoke else x.2)) where
  mem := fun jti t' => by
    have hif : ∀ t : RefreshToken, (if (Db.refreshToken s jti).any p = true ∧ p t = true
        then some t.revoke else some t) =
        some (if (Db.refreshToken s jti).any p = true ∧ p t = true then t.revoke else t) :=
      fun t => (apply_ite some _ _ _).symm
    rw [List.mem_map]
    constructor
    · rintro ⟨⟨jti', t⟩, hx, he⟩
      obtain ⟨ht, hf⟩ := (h.mem jti' t).mp hx
      obtain ⟨rfl, rfl⟩ := Prod.mk.injEq .. ▸ he
      refine ⟨by rw [hu.after ht, hif], ?_⟩
      split
      · exact hf
      · exact hf
    · rintro ⟨ht', hf⟩
      cases ht : Db.refreshToken c.before jti with
      | none =>
        rw [hu.after_none ht] at ht'
        cases ht'
      | some t =>
        rw [hu.after ht, hif] at ht'
        cases ht'
        refine ⟨(jti, t), (h.mem jti t).mpr ⟨ht, ?_⟩, rfl⟩
        split at hf
        · exact hf
        · exact hf
  lineage := by
    refine h.lineage.revise (fun jti t =>
      if (Db.refreshToken s jti).any p = true ∧ p t = true then t.revoke else t) ?_ ?_
    · intro x _
      split <;> rfl
    · intro x y hxy
      split <;> split <;> exact hxy

/-- The tokens of a family that a statement has found are deleted, with those before them. -/
theorem purge (h : Family c.before f l) (hu : UpdatesTokens c s p fun _ => none)
    (horder : l.Pairwise fun x y => ((Db.refreshToken s y.1).any p = true ∧ p y.2 = true) →
      (Db.refreshToken s x.1).any p = true ∧ p x.2 = true) :
    Family c.after f (l.filter fun x =>
      ¬ ((Db.refreshToken s x.1).any p = true ∧ p x.2 = true)) where
  mem := fun jti t' => by
    rw [List.mem_filter, h.mem, decide_eq_true_iff]
    constructor
    · rintro ⟨⟨ht, hf⟩, hkept⟩
      exact ⟨by rw [hu.after ht, if_neg hkept], hf⟩
    · rintro ⟨ht', hf⟩
      cases ht : Db.refreshToken c.before jti with
      | none =>
        rw [hu.after_none ht] at ht'
        cases ht'
      | some t =>
        rw [hu.after ht] at ht'
        split at ht'
        · cases ht'
        · rename_i hkept
          cases ht'
          exact ⟨⟨rfl, hf⟩, hkept⟩
  lineage := h.lineage.filter (horder.imp fun hxy hx => by
    rw [decide_eq_true_iff] at hx ⊢
    exact fun hy => hx (hxy hy))

end Family

/-! ## Rotations -/

/-- The commit consumed the token. -/
def Consumes (c : Commit) (jti : Uuid) : Prop :=
  ∃ t : RefreshToken, ⟨.refreshToken jti, some t⟩ ∈ c.writes ∧ t.status = .consumed

/-- A statement over many tokens writes what it makes of one of them. -/
theorem UpdatesTokens.exists_of_mem {c : Commit} {s : Db} {p : RefreshToken → Bool}
    {f : RefreshToken → Option RefreshToken} (h : UpdatesTokens c s p f) {jti : Uuid}
    {t : RefreshToken} (ht : ⟨.refreshToken jti, some t⟩ ∈ c.writes) : ∃ t₀, f t₀ = some t := by
  obtain ⟨-, scan, hwrites⟩ := h
  rw [hwrites] at ht
  obtain ⟨v, -, hv⟩ := Option.bind_eq_some_iff.mp (mem_updatesOf.mp ht).2
  simp only [Prog.changeWhere] at hv
  split at hv
  · obtain ⟨t₀, -, ht₀⟩ := Option.bind_eq_some_iff.mp (Option.some.inj hv)
    exact ⟨t₀, ht₀⟩
  · cases hv

/-- **A token is consumed by a rotation**, which has found it active. -/
theorem Transacts.of_consumes {ttl : ℕ} {c : Commit} {jti : Uuid} (h : Transacts ttl c)
    (hc : Consumes c jti) :
    (∃ t, Db.refreshToken c.before jti = some t ∧ t.status = .active) ∧
      ∃ t, Db.refreshToken c.after jti = some t ∧ t.status = .consumed := by
  have hchange := h.tokenChange
  obtain ⟨t, ht, hconsumed⟩ := hc
  cases h with
  | rotate jti' newJti t₁ now later presented drawn clock current active fresh writes =>
    rw [writes, List.mem_cons, List.mem_singleton] at ht
    rcases ht with ht | ht
    · cases ht
      refine ⟨⟨t₁, current, active⟩, ?_⟩
      have hne : jti ≠ newJti := by
        rintro rfl
        rw [fresh] at current
        cases current
      refine ⟨t₁.consume now newJti, ?_, rfl⟩
      rw [Commit.after, writes, Store.putAll_cons, Store.putAll_cons, Store.putAll_nil,
        refreshToken_put, if_neg hne, refreshToken_put, if_pos rfl]
    · cases ht
      cases hconsumed
  | issue userId jti' familyId now drawn fresh writes =>
    rw [writes, List.mem_singleton] at ht
    cases ht
    cases hconsumed
  | invalid jti' userId presented current writes =>
    rw [writes] at ht
    cases ht
  | revoke target s revokes updates =>
    obtain ⟨t₀, ht₀⟩ := updates.exists_of_mem ht
    cases ht₀
    cases hconsumed
  | purge scan now s req updates =>
    obtain ⟨t₀, ht₀⟩ := updates.exists_of_mem ht
    cases ht₀
  | createUser dto hash id u req fresh writes =>
    rw [writes, List.mem_singleton] at ht
    cases ht
  | changePassword id verify newHash scan u req verified current live writes =>
    rw [writes, List.mem_singleton] at ht
    cases ht
  | resetPassword id hash scan u req current live writes =>
    rw [writes, List.mem_singleton] at ht
    cases ht
  | updateUser actorId id dto scan u req changes =>
    rw [changes.writes, List.mem_singleton] at ht
    cases ht
  | removeUser actorId id scan now u email req changes =>
    rw [changes.writes, List.mem_singleton] at ht
    cases ht

/-! ## The families of a run -/

/-- The keys of tokens and families that the requests have drawn. -/
def drawnKeys (h : List Commit) : List Uuid := h.flatMap (·.req.drawn)

theorem notMem_drawnKeys {h₁ h₂ : List Commit} (hnodup : (drawnKeys (h₂ ++ h₁)).Nodup) {c : Commit}
    (hc : c ∈ h₂) {k : Uuid} (hk : k ∈ c.req.drawn) : k ∉ drawnKeys h₁ := by
  rw [drawnKeys, List.flatMap_append] at hnodup
  exact fun hk' => (List.nodup_append.mp hnodup).2.2 k (List.mem_flatMap.mpr ⟨c, hc, hk⟩) k hk' rfl

/-- The clock does not run backwards: a successor is issued no earlier than the token it replaces. -/
def ClockForward (ttl : ℕ) (c : Commit) : Prop :=
  ∀ x ∈ c.req.presented, ∀ later ∈ c.req.rotatedAt, ∀ t ∈ Db.refreshToken c.before x.1,
    t.status = .active → t.expiresAt ≤ later + ttl

instance (ttl : ℕ) (c : Commit) : Decidable (ClockForward ttl c) :=
  inferInstanceAs (Decidable (∀ x ∈ c.req.presented, ∀ later ∈ c.req.rotatedAt,
    ∀ t ∈ Db.refreshToken c.before x.1, t.status = .active → t.expiresAt ≤ later + ttl))

/-- The tokens of all stores of the past: their keys have been drawn, and what they share. -/
structure TokensKept (db₀ : Db) (h : List Commit) (db : Db) : Prop where
  becomes : ∀ s, Past db₀ h s → ∀ jti t t', Db.refreshToken s jti = some t →
    Db.refreshToken db jti = some t' → t.Becomes t'
  known : ∀ s, Past db₀ h s → ∀ jti t, Db.refreshToken s jti = some t →
    jti ∈ drawnKeys h ∧ t.familyId ∈ drawnKeys h
  sameFamily : ∀ s s', Past db₀ h s → Past db₀ h s' → ∀ jti t t', Db.refreshToken s jti = some t →
    Db.refreshToken s' jti = some t' → t.familyId = t'.familyId
  sameUser : ∀ s s', Past db₀ h s → Past db₀ h s' → ∀ jti jti' t t',
    Db.refreshToken s jti = some t → Db.refreshToken s' jti' = some t' →
    t.familyId = t'.familyId → t.userId = t'.userId

namespace TokensKept

variable {ttl : ℕ} {db₀ db : Db} {h : List Commit} {c : Commit} {s s' : Db} {jti jti' f : Uuid}
  {t t' : RefreshToken}

/-- Before the first commit there are no tokens. -/
theorem start (h₀ : ∀ jti, Db.refreshToken db₀ jti = none) : TokensKept db₀ [] db₀ := by
  have hnone : ∀ s, Past db₀ ([] : List Commit) s → ∀ jti t, Db.refreshToken s jti ≠ some t := by
    rintro s (rfl | ⟨c, hc, -⟩) jti t ht
    · rw [h₀] at ht
      cases ht
    · cases hc
  exact {
    becomes := fun s hs jti t _ ht => absurd ht (hnone s hs jti t)
    known := fun s hs jti t ht => absurd ht (hnone s hs jti t)
    sameFamily := fun s _ hs _ jti t _ ht => absurd ht (hnone s hs jti t)
    sameUser := fun s _ hs _ jti _ t _ ht => absurd ht (hnone s hs jti t) }

section Step

variable (hT : TokensKept db₀ h c.before) (hnodup : (drawnKeys (c :: h)).Nodup)

include hT hnodup

/-- A key the commit has drawn was the key of no token before. -/
theorem none_of_drawn (hs : Past db₀ h s) (hj : jti ∈ c.req.drawn) :
    Db.refreshToken s jti = none := by
  cases ht : Db.refreshToken s jti with
  | none => rfl
  | some t =>
    exact absurd (hT.known s hs jti t ht).1 ((List.nodup_append.mp hnodup).2.2 jti hj jti · rfl)

/-- A key the commit has drawn was that of no family before. -/
theorem familyId_ne_of_drawn (hs : Past db₀ h s) (hf : f ∈ c.req.drawn)
    (ht : Db.refreshToken s jti = some t) : t.familyId ≠ f := by
  rintro rfl
  exact (List.nodup_append.mp hnodup).2.2 _ hf _ (hT.known s hs jti t ht).2 rfl

/-- A token that is gone never comes back. -/
theorem isSome_before (hc : TokenChange ttl c) (hs : Past db₀ h s)
    (ht : Db.refreshToken s jti = some t) (ht' : Db.refreshToken c.after jti = some t') :
    ∃ t₁, Db.refreshToken c.before jti = some t₁ := by
  cases hbefore : Db.refreshToken c.before jti with
  | none =>
    rw [hT.none_of_drawn hnodup hs (hc.of_new hbefore ht').1] at ht
    cases ht
  | some t₁ => exact ⟨t₁, rfl⟩

theorem becomes_after (hc : TokenChange ttl c) (hs : Past db₀ h s)
    (ht : Db.refreshToken s jti = some t) (ht' : Db.refreshToken c.after jti = some t') :
    t.Becomes t' := by
  obtain ⟨t₁, ht₁⟩ := hT.isSome_before hnodup hc hs ht ht'
  exact (hT.becomes s hs jti t t₁ ht ht₁).trans (hc.becomes ht₁ ht')

/-- A token after the commit that shares its family with one of the past shares its user. -/
theorem userId_after (hpast : Past db₀ h c.before) (hc : TokenChange ttl c) (hs : Past db₀ h s)
    (ht : Db.refreshToken s jti = some t) (ht' : Db.refreshToken c.after jti' = some t')
    (hf : t.familyId = t'.familyId) : t.userId = t'.userId := by
  have hdescends : Descends c t' := by
    cases hbefore : Db.refreshToken c.before jti' with
    | some t₁ => exact hc.descends hbefore ht'
    | none =>
      rcases (hc.of_new hbefore ht').2 with hdescends | ⟨hdrawn, -⟩
      · exact hdescends
      · exact absurd hf (hT.familyId_ne_of_drawn hnodup hs hdrawn ht)
  obtain ⟨jti₀, t₀, ht₀, hfamily, huser⟩ := hdescends
  exact (hT.sameUser s _ hs hpast jti jti₀ t t₀ ht ht₀ (hf.trans hfamily)).trans huser.symm

/-- The tokens after the commit that share their family share their user. -/
theorem userId_after_after (hpast : Past db₀ h c.before) (hc : TokenChange ttl c)
    (ht : Db.refreshToken c.after jti = some t) (ht' : Db.refreshToken c.after jti' = some t')
    (hf : t.familyId = t'.familyId) : t.userId = t'.userId := by
  have key : ∀ {jti jti' t t'}, Db.refreshToken c.after jti = some t →
      Db.refreshToken c.after jti' = some t' → t.familyId = t'.familyId → Descends c t →
      t.userId = t'.userId := by
    rintro jti jti' t t' - ht' hf ⟨jti₀, t₀, ht₀, hfamily, huser⟩
    exact huser.trans (hT.userId_after hnodup hpast hc hpast ht₀ ht' (hfamily.symm.trans hf))
  cases hbefore : Db.refreshToken c.before jti with
  | some t₁ => exact key ht ht' hf (hc.descends hbefore ht)
  | none =>
    rcases (hc.of_new hbefore ht).2 with hdescends | ⟨-, honly⟩
    · exact key ht ht' hf hdescends
    · cases hbefore' : Db.refreshToken c.before jti' with
      | some t₁ => exact (key ht' ht hf.symm (hc.descends hbefore' ht')).symm
      | none => rw [honly jti' t' hbefore' ht']

/-- **The tokens after a commit.** -/
theorem after (hpast : Past db₀ h c.before) (hc : TokenChange ttl c) :
    TokensKept db₀ (c :: h) c.after where
  becomes := by
    intro s hs jti t t' ht ht'
    rcases past_cons.mp hs with rfl | hs
    · rw [ht] at ht'
      cases ht'
      exact .refl t
    · exact hT.becomes_after hnodup hc hs ht ht'
  known := by
    have hold : ∀ {k}, k ∈ drawnKeys h → k ∈ drawnKeys (c :: h) := List.mem_append_right _
    intro s hs jti t ht
    rcases past_cons.mp hs with rfl | hs
    · have hfamily : Descends c t → t.familyId ∈ drawnKeys (c :: h) := by
        rintro ⟨jti₀, t₀, ht₀, hf, -⟩
        exact hf ▸ hold (hT.known _ hpast jti₀ t₀ ht₀).2
      cases hbefore : Db.refreshToken c.before jti with
      | none =>
        obtain ⟨hj, hf⟩ := hc.of_new hbefore ht
        exact ⟨List.mem_append_left _ hj,
          hf.elim hfamily fun hf => List.mem_append_left _ hf.1⟩
      | some t₁ =>
        exact ⟨hold (hT.known _ hpast jti t₁ hbefore).1, hfamily (hc.descends hbefore ht)⟩
    · exact (hT.known s hs jti t ht).imp hold hold
  sameFamily := by
    intro s s' hs hs' jti t t' ht ht'
    rcases past_cons.mp hs with rfl | hs
    · rcases past_cons.mp hs' with rfl | hs'
      · rw [ht] at ht'
        cases ht'
        rfl
      · exact (hT.becomes_after hnodup hc hs' ht' ht).familyId
    · rcases past_cons.mp hs' with rfl | hs'
      · exact (hT.becomes_after hnodup hc hs ht ht').familyId.symm
      · exact hT.sameFamily s s' hs hs' jti t t' ht ht'
  sameUser := by
    intro s s' hs hs' jti jti' t t' ht ht' hf
    rcases past_cons.mp hs with rfl | hs
    · rcases past_cons.mp hs' with rfl | hs'
      · exact hT.userId_after_after hnodup hpast hc ht ht' hf
      · exact (hT.userId_after hnodup hpast hc hs' ht' ht hf.symm).symm
    · rcases past_cons.mp hs' with rfl | hs'
      · exact hT.userId_after hnodup hpast hc hs ht ht' hf
      · exact hT.sameUser s s' hs hs' jti jti' t t' ht ht' hf

end Step

/-- **The tokens of a run.** -/
theorem of_chain (hchain : Chain (protocol ttl) db₀ h db)
    (h₀ : ∀ jti, Db.refreshToken db₀ jti = none) (hnodup : (drawnKeys h).Nodup) :
    TokensKept db₀ h db := by
  induction hchain with
  | nil => exact .start h₀
  | cons c hchain hguar _ _ _ ih =>
    exact (ih (List.nodup_append.mp hnodup).2.1).after hnodup hchain.past_self
      (Transacts.tokenChange hguar)

end TokensKept

/-- What holds of the families after every commit. -/
structure Sessions (db₀ : Db) (h : List Commit) (db : Db) : Prop extends TokensKept db₀ h db where
  families : ∀ f, ∃ l, Family db f l ∧ ∀ s, Past db₀ h s → InOrder s l
  coherent : ∀ jti t, Db.refreshToken db jti = some t → t.Coherent
  once : h.Pairwise fun c c' => ∀ jti, Consumes c jti → ¬ Consumes c' jti

namespace Sessions

variable {ttl : ℕ} {db₀ : Db} {h : List Commit} {c : Commit}

/-- Before the first commit there are no tokens. -/
theorem start (h₀ : ∀ jti, Db.refreshToken db₀ jti = none) : Sessions db₀ [] db₀ where
  toTokensKept := .start h₀
  families := fun f => ⟨[], ⟨fun jti t => by simp [h₀], .nil⟩, fun _ _ => .nil⟩
  coherent := fun jti t ht => by simp [h₀] at ht
  once := .nil

section Step

variable (hS : Sessions db₀ h c.before) (hnodup : (drawnKeys (c :: h)).Nodup)

include hS hnodup

omit hnodup in
theorem coherent_after (hc : TokenChange ttl c) {jti : Uuid} {t : RefreshToken}
    (ht : Db.refreshToken c.after jti = some t) : t.Coherent := by
  have hold := hS.coherent jti
  cases hc with
  | none after => exact hold t (after jti ▸ ht)
  | issue userId jti' familyId now drawn fresh after =>
    rw [after] at ht
    split at ht
    · cases ht
      exact ⟨fun _ => rfl, nofun⟩
    · exact hold t ht
  | rotate jti' newJti t₁ now later presented drawn clock current active fresh after =>
    rw [after] at ht
    split at ht
    · cases ht
      exact ⟨fun _ => rfl, nofun⟩
    · split at ht
      · cases ht
        exact ⟨nofun, fun _ => Option.some_ne_none newJti⟩
      · exact hold t ht
  | revoke target s revokes updates =>
    cases hbefore : Db.refreshToken c.before jti with
    | none =>
      rw [updates.after_none hbefore] at ht
      cases ht
    | some t₁ =>
      rw [updates.after hbefore] at ht
      split at ht
      · cases ht
        exact ⟨nofun, nofun⟩
      · cases ht
        exact hold t hbefore
  | purge now s updates =>
    cases hbefore : Db.refreshToken c.before jti with
    | none =>
      rw [updates.after_none hbefore] at ht
      cases ht
    | some t₁ =>
      rw [updates.after hbefore] at ht
      split at ht
      · cases ht
      · cases ht
        exact hold t hbefore

/-- **The families after a commit.** -/
theorem families_after (hpast : Past db₀ h c.before) (hseen : ∀ q ∈ c.seen, Past db₀ h q.2)
    (hclock : ClockForward ttl c) (hc : TokenChange ttl c) (f : Uuid) :
    ∃ l, Family c.after f l ∧ ∀ s, Past db₀ (c :: h) s → InOrder s l := by
  obtain ⟨l, hl, horder⟩ := hS.families f
  -- the order in the stores before the commit is what is left to show
  suffices hsuff : ∃ l', Family c.after f l' ∧ ∀ s, Past db₀ h s → InOrder s l' by
    obtain ⟨l', hl', horder'⟩ := hsuff
    refine ⟨l', hl', fun s hs => ?_⟩
    rcases past_cons.mp hs with rfl | hs
    · exact hl'.inOrder
    · exact horder' s hs
  cases hc with
  | none after => exact ⟨l, hl.congr fun jti t _ => by rw [after], horder⟩
  | issue userId jti familyId now drawn fresh after =>
    by_cases hf : familyId = f
    · subst hf
      have hdrawn : familyId ∈ c.req.drawn :=
        drawn ▸ List.mem_cons_of_mem _ List.mem_cons_self
      refine ⟨[(jti, .issued userId familyId (now + ttl))], ?_, fun _ _ => List.pairwise_singleton _ _⟩
      exact Family.issue (fun jti' t' ht' => hS.familyId_ne_of_drawn hnodup hpast hdrawn ht') rfl after
    · refine ⟨l, hl.congr fun jti' t' hf' => ?_, horder⟩
      rw [after]
      split
      · rename_i hj
        rw [hj, fresh]
        refine ⟨fun ht' => ?_, nofun⟩
        cases ht'
        exact absurd hf' hf
      · exact Iff.rfl
  | rotate jti newJti t now later presented drawn clock current active fresh after =>
    by_cases hf : t.familyId = f
    · subst hf
      obtain ⟨l₀, rfl⟩ := hl.eq_append_of_active current rfl ((hS.coherent jti t current).1 active)
      have hprecedes : (t.consume now newJti).Precedes
          (.issued t.userId t.familyId (later + ttl)) :=
        ⟨rfl, hclock _ presented _ clock t current active⟩
      have hfamily : Family c.after t.familyId (l₀ ++ [(jti, t.consume now newJti),
          (newJti, .issued t.userId t.familyId (later + ttl))]) :=
        hl.rotate (RefreshToken.becomes_consume active now newJti) rfl rfl rfl hprecedes fresh after
      refine ⟨_, hfamily, fun s hs => ?_⟩
      have hnew : Db.refreshToken s newJti = none :=
        hS.none_of_drawn hnodup hs (drawn ▸ List.mem_cons_self)
      obtain ⟨hl₀, -, hlast⟩ := List.pairwise_append.mp (horder s hs)
      refine List.pairwise_append.mpr ⟨hl₀, ?_, fun x hx y hy => ?_⟩
      · refine .cons (fun y hy => ?_) (List.pairwise_singleton _ _)
        obtain rfl := List.mem_singleton.mp hy
        exact fun h => by simp [hnew] at h
      · rcases List.mem_cons.mp hy with rfl | hy
        · exact hlast x hx (jti, t) List.mem_cons_self
        · obtain rfl := List.mem_singleton.mp hy
          exact fun h => by simp [hnew] at h
    · refine ⟨l, hl.congr fun jti' t' hf' => ?_, horder⟩
      rw [after]
      split
      · rename_i hj
        rw [hj, fresh]
        refine ⟨fun ht' => ?_, nofun⟩
        cases ht'
        exact absurd hf' hf
      · split
        · rename_i hj
          rw [hj, current]
          refine ⟨fun ht' => ?_, fun ht' => ?_⟩
          · cases ht'
            exact absurd hf' hf
          · cases ht'
            exact absurd hf' hf
        · exact Iff.rfl
  | revoke target s revokes updates =>
    refine ⟨_, hl.revoke updates, fun s' hs' => ?_⟩
    exact List.pairwise_map.mpr (horder s' hs')
  | purge now s updates =>
    have hs := hseen _ updates.seen
    refine ⟨_, hl.purge updates ?_, fun s' hs' => (horder s' hs').filter _⟩
    -- a token that expired was preceded by one that had, both found by the statement
    have hexpiry := hl.lineage.pairwise fun x y z hxy hyz =>
      ⟨hxy.1.trans hyz.1, hxy.2.trans hyz.2⟩
    refine (hexpiry.and (horder s hs)).imp_of_mem fun {x y} hx hy hxy => ?_
    rintro ⟨hfound, hy'⟩
    obtain ⟨t₁, ht₁, -⟩ := Option.any_eq_true _ _ |>.mp hfound
    obtain ⟨t₂, ht₂⟩ := Option.isSome_iff_exists.mp (hxy.2 (ht₁ ▸ rfl))
    have hexpired : x.2.expiresAt < now := hxy.1.2.trans_lt (of_decide_eq_true hy')
    have hsame := (hS.becomes s hs x.1 t₂ x.2 ht₂ ((hl.mem x.1 x.2).mp hx).1).expiresAt
    refine ⟨?_, decide_eq_true hexpired⟩
    rw [ht₂, Option.any_some]
    exact decide_eq_true (hsame ▸ hexpired)

omit hnodup in
theorem once_after (hpast : ∀ c' ∈ h, Transacts ttl c') (hc : Transacts ttl c) :
    (c :: h).Pairwise fun c c' => ∀ jti, Consumes c jti → ¬ Consumes c' jti := by
  refine .cons (fun c' hc' jti hcons hcons' => ?_) hS.once
  obtain ⟨t, ht, hactive⟩ := (hc.of_consumes hcons).1
  obtain ⟨t', ht', hconsumed⟩ := ((hpast c' hc').of_consumes hcons').2
  have hsettled := (hS.becomes c'.after (.inr ⟨c', hc', rfl⟩) jti t' t ht' ht).settled
  exact hsettled (by rw [hconsumed]; exact nofun) hactive

end Step

/-- **The families of a run.** -/
theorem of_chain {db : Db} (hchain : Chain (protocol ttl) db₀ h db)
    (h₀ : ∀ jti, Db.refreshToken db₀ jti = none) (hnodup : (drawnKeys h).Nodup)
    (hclock : ∀ c ∈ h, ClockForward ttl c) : Sessions db₀ h db := by
  induction hchain with
  | nil => exact .start h₀
  | @cons h c hchain hguar _ _ hseen ih =>
    have hS := ih (List.nodup_append.mp hnodup).2.1
      fun c' hc' => hclock c' (List.mem_cons_of_mem c hc')
    have hchange := Transacts.tokenChange hguar
    have hpast := hchain.past_self
    have htransacts : ∀ c' ∈ h, Transacts ttl c' := fun c' hc' =>
      (hchain.of_mem (D := fun _ _ => True) (fun _ => trivial) (fun _ _ _ _ _ => trivial)
        (fun _ _ => trivial) hc').1
    exact {
      toTokensKept := hS.toTokensKept.after hnodup hpast hchange
      families := hS.families_after hnodup hpast hseen (hclock c List.mem_cons_self) hchange
      coherent := fun _ _ => hS.coherent_after hchange
      once := hS.once_after htransacts hguar }

end Sessions

end AccountingApi.Auth
