import AccountingApi.Auth.Families
import AccountingApi.ReadCommitted.Traces

/-!
# Sessions

A token is rotated once, and presenting it again revokes its family. A request that answers with a new
token has consumed the one it was given, in its only transaction.

## Main definitions

* `SoundSessions`: rotation, succession and reuse

## Main results

* `Transacts.of_reuse`: presenting a consumed token revokes its family
* `ends_of_presented`: what a rotation that answers has committed
* `sessions_of_reachable`: the sessions of every reachable state
-/

namespace AccountingApi.Auth

open ReadCommitted

/-! ## Reuse -/

/-- A request that presents a token draws one key and revokes nothing else. -/
theorem Request.of_presented {r : Request} {x : Uuid × Uuid} (h : r.presented = some x) :
    (∃ newJti, r.drawn = [newJti]) ∧ r.loggedOut = none ∧ r.revoked = none := by
  cases r with
  | rotate jti userId newJti scan now later => exact ⟨⟨newJti, rfl⟩, rfl, rfl⟩
  | refresh payload newJti scan now later => exact ⟨⟨newJti, rfl⟩, rfl, rfl⟩
  | _ => cases h

/-- **Presenting a consumed token** revokes its family. -/
theorem Transacts.of_reuse {ttl : ℕ} {c : Commit} {jti : Uuid} {t : RefreshToken}
    (h : Transacts ttl c) (hpresented : c.req.presented = some (jti, t.userId))
    (ht : Db.refreshToken c.before jti = some t) (hconsumed : t.status = .consumed) :
    ∃ s, UpdatesTokens c s (Target.family t.familyId).covers fun t => some t.revoke := by
  obtain ⟨⟨newJti, hdrawn⟩, hloggedOut, hrevoked⟩ := Request.of_presented hpresented
  cases h with
  | issue userId jti' familyId now drawn fresh writes =>
    rw [hdrawn] at drawn
    cases drawn
  | rotate jti' newJti t₁ now later presented drawn clock current active fresh writes =>
    obtain ⟨rfl, -⟩ := Prod.mk.inj (Option.some.inj (hpresented.symm.trans presented))
    rw [ht] at current
    cases current
    rw [hconsumed] at active
    cases active
  | invalid jti' userId presented current writes =>
    rw [hpresented] at presented
    cases presented
    rcases current t ht with hne | hne
    · exact absurd rfl hne
    · rw [hconsumed] at hne
      cases hne
  | revoke target s revokes updates =>
    cases target with
    | family id =>
      rcases revokes with ⟨jti', userId, t₁, presented, ht₁, -, -, rfl⟩ | ⟨_, _, _, loggedOut, -⟩
      · obtain ⟨rfl, -⟩ := Prod.mk.inj (Option.some.inj (hpresented.symm.trans presented))
        rw [ht] at ht₁
        cases ht₁
        exact ⟨s, updates⟩
      · rw [hloggedOut] at loggedOut
        cases loggedOut
    | user id =>
      have hrevokes := revokes.1
      rw [hrevoked] at hrevokes
      cases hrevokes
  | purge scan now s req updates =>
    rw [req] at hpresented
    cases hpresented
  | createUser dto hash id u req fresh writes =>
    rw [req] at hpresented
    cases hpresented
  | changePassword id verify newHash scan u req verified current live writes =>
    rw [req] at hpresented
    cases hpresented
  | resetPassword id hash scan u req current live writes =>
    rw [req] at hpresented
    cases hpresented
  | updateUser actorId id dto scan u req changes =>
    rw [req] at hpresented
    cases hpresented
  | removeUser actorId id scan now u email req changes =>
    rw [req] at hpresented
    cases hpresented

/-! ## Answers -/

section Answers

variable {ttl : ℕ} {jti userId newJti : Uuid} {scan : ScanOrder Key} {now later : Timestamp}
  {ws : List (Write Row)} {cs : List (List (Write Row))}

theorem ends_insertToken {t : RefreshToken} {ws₀ : List (Write Row)} {a : Unit}
    (h : (insertToken jti t).Ends ws₀ cs a ws) :
    cs = [] ∧ ws = ws₀ ++ [⟨.refreshToken jti, some t⟩] := by
  obtain ⟨s, h⟩ := h
  change (Prog.bind (Prog.ensure _ _) fun _ => Prog.write _ _).Ends _ _ _ _ at h
  obtain ⟨_, _, _, _, rfl, hensure, -, rfl, rfl⟩ := Prog.ends_bind.mp h
  obtain ⟨rfl, rfl⟩ := Prog.ends_ensure hensure
  exact ⟨rfl, rfl⟩

/-- A transaction that answers with a new token has consumed the one it was given. -/
theorem ends_rotateInTx {token : IssuedToken}
    (h : (RefreshTokenService.rotateInTx ttl jti userId newJti scan now later).Ends [] cs
      (.ok token) ws) :
    cs = [] ∧ ∃ t : RefreshToken, ⟨.refreshToken jti, some t⟩ ∈ ws ∧ t.status = .consumed := by
  obtain ⟨s, h⟩ := h
  simp only [Prog.bind] at h
  cases hrow : Db.refreshToken s jti with
  | none =>
    rw [hrow] at h
    cases h.1
  | some row =>
    rw [hrow] at h
    by_cases hinvalid : row.userId ≠ userId ∨ row.status = .revoked
    · simp only [if_pos hinvalid] at h
      cases h.1
    · simp only [if_neg hinvalid] at h
      by_cases hconsumed : row.status = .consumed
      · simp only [if_pos hconsumed] at h
        obtain ⟨_, _, _, _, -, -, h⟩ := Prog.ends_bind.mp h
        cases h.1
      · simp only [if_neg hconsumed] at h
        change (Prog.bind (insertToken _ _) fun _ => Prog.ret _).Ends _ _ _ _ at h
        obtain ⟨_, _, cs₁, _, rfl, hinsert, _, rfl, rfl⟩ := Prog.ends_bind.mp h
        obtain ⟨hcs, hws⟩ := ends_insertToken hinsert
        refine ⟨by rw [hcs, List.nil_append], row.consume now newJti, ?_, rfl⟩
        rw [hws]
        exact List.mem_cons_self

/-- A rotation that answers has consumed the token it was given, in its only transaction. -/
theorem ends_rotate {token : IssuedToken}
    (h : (RefreshTokenService.rotate ttl jti userId newJti scan now later).Ends [] cs token ws) :
    ∃ ws₁, cs = [ws₁] ∧
      ∃ t : RefreshToken, ⟨.refreshToken jti, some t⟩ ∈ ws₁ ∧ t.status = .consumed := by
  obtain ⟨result, _, cs₁, cs₂, rfl, htx, hend⟩ := Prog.ends_bind.mp h
  obtain ⟨cs₃, ws₁, rfl, rfl, hbody⟩ := Prog.ends_transaction.mp htx
  cases result with
  | ok token =>
    obtain ⟨rfl, hws₁⟩ := ends_rotateInTx hbody
    obtain ⟨-, rfl, -⟩ := hend
    exact ⟨ws₁, rfl, hws₁⟩
  | invalid => exact hend.elim
  | reuse => exact hend.elim

/-- **A request that presented a token and answered** has consumed the token, in its only
transaction. -/
theorem ends_of_presented {r : Request} {v : Response} (hr : r.presented = some (jti, userId))
    (h : (code ttl r).Ends [] cs v ws) : ∃ ws₁, cs = [ws₁] ∧
      ∃ t : RefreshToken, ⟨.refreshToken jti, some t⟩ ∈ ws₁ ∧ t.status = .consumed := by
  cases r with
  | rotate jti' userId' newJti scan now later =>
    cases hr
    obtain ⟨token, _, cs₁, _, rfl, hrotate, -, rfl, -⟩ := Prog.ends_bind.mp h
    rw [List.append_nil]
    exact ends_rotate hrotate
  | refresh payload newJti scan now later =>
    cases payload with
    | none => cases hr
    | some payload =>
      cases hr
      obtain ⟨_, _, cs₁, _, rfl, ⟨s, hrefresh⟩, -, rfl, -⟩ := Prog.ends_bind.mp h
      change (Prog.bind (Prog.orThrow _ _) fun user => Prog.bind (Prog.ensure _ _) fun _ =>
        Prog.bind (RefreshTokenService.rotate _ _ _ _ _ _ _) fun token => Prog.ret _).Ends
          _ _ _ _ at hrefresh
      obtain ⟨user, _, cs₂, _, rfl, huser, hrefresh⟩ := Prog.ends_bind.mp hrefresh
      obtain ⟨_, _, cs₃, _, rfl, hactive, hrefresh⟩ := Prog.ends_bind.mp hrefresh
      obtain ⟨token, _, cs₄, _, rfl, hrotate, -, rfl, -⟩ := Prog.ends_bind.mp hrefresh
      obtain ⟨rfl, rfl⟩ := Prog.ends_orThrow huser
      obtain ⟨rfl, rfl⟩ := Prog.ends_ensure hactive
      simpa only [List.nil_append, List.append_nil] using ends_rotate hrotate
  | _ => cases hr

end Answers

/-! ## Every reachable state -/

/-- The sessions of a server that started with `db₀`. -/
structure SoundSessions (db₀ : Db) (s : Server) : Prop where
  /-- A token is rotated once at most. -/
  rotatedOnce : ∀ (i j : ℕ) p p' jti userId userId' v v', s.procs[i]? = some p →
    s.procs[j]? = some p' → p.req.presented = some (jti, userId) →
    p'.req.presented = some (jti, userId') → p.phase = .done v → p'.phase = .done v' → i = j
  /-- A family has one active token at most. -/
  oneActive : ∀ jti jti' t t', Db.refreshToken s.db jti = some t →
    Db.refreshToken s.db jti' = some t' → t.familyId = t'.familyId → t.status = .active →
    t'.status = .active → jti = jti'
  /-- The tokens of a family follow each other in one chain. -/
  chain : ∀ f, ∃ l, Family s.db f l
  /-- A consumed token names its successor. -/
  replaced : ∀ jti t, Db.refreshToken s.db jti = some t → t.status = .consumed →
    t.replacedById ≠ none
  /-- The successor a token names is of the same family and user. -/
  successor : ∀ jti t jti', Db.refreshToken s.db jti = some t → t.replacedById = some jti' →
    ∃ t', Db.refreshToken s.db jti' = some t' ∧ t'.familyId = t.familyId ∧ t'.userId = t.userId
  /-- What is consumed or revoked is never active again. -/
  settled : ∀ s₁, Past db₀ s.history s₁ → ∀ jti t t', Db.refreshToken s₁ jti = some t →
    t.status ≠ .active → Db.refreshToken s.db jti = some t' → t'.status ≠ .active
  /-- Presenting a consumed token revokes what its statement has found of the family, creates no
  token and answers with none. -/
  reuse : ∀ c ∈ s.history, ∀ jti t, c.req.presented = some (jti, t.userId) →
    Db.refreshToken c.before jti = some t → t.status = .consumed →
    (∃ s₁, (.refreshTokens, s₁) ∈ c.seen ∧ Past db₀ s.history s₁ ∧
      ∀ jti' t₁ t', Db.refreshToken s₁ jti' = some t₁ → t₁.familyId = t.familyId →
        Db.refreshToken s.db jti' = some t' → t'.status = .revoked) ∧
    (∀ jti', Db.refreshToken c.before jti' = none → Db.refreshToken c.after jti' = none) ∧
    ∀ p v, s.procs[c.pid]? = some p → p.phase ≠ .done v

section Reachable

variable {ttl : ℕ} {policy : Policy Row LockName Query Failure Response Request} {db₀ : Db}
  {s : Server}

/-- The commit of a request that presented a token and answered. -/
theorem consumes_of_done (h : Reachable (code ttl) policy db₀ s) {i : ℕ}
    {p : ReadCommitted.Proc Row LockName Query Failure Response Request} {jti userId : Uuid}
    {v : Response} (hi : s.procs[i]? = some p) (hp : p.req.presented = some (jti, userId))
    (hv : p.phase = .done v) :
    (∃ c ∈ s.history, c.pid = i) ∧ ∀ c ∈ s.history, c.pid = i → Consumes c jti := by
  obtain ⟨ws, hends⟩ := h.ends hi hv
  obtain ⟨ws₁, hwrites, t, ht, hconsumed⟩ := ends_of_presented hp hends
  rw [Server.writesOf, List.reverse_eq_iff, List.reverse_singleton] at hwrites
  have hmem : ∀ c ∈ s.history, c.pid = i → c.writes = ws₁ := fun c hc hpid =>
    List.mem_singleton.mp (hwrites ▸ List.mem_map_of_mem
      (List.mem_filter.mpr ⟨hc, decide_eq_true hpid⟩))
  refine ⟨?_, fun c hc hpid => ⟨t, hmem c hc hpid ▸ ht, hconsumed⟩⟩
  obtain ⟨c, hc, -⟩ := List.mem_map.mp (hwrites ▸ List.mem_singleton_self ws₁)
  obtain ⟨hc, hpid⟩ := List.mem_filter.mp hc
  exact ⟨c, hc, of_decide_eq_true hpid⟩

/-- What a detected reuse has revoked stays revoked. -/
theorem revoked_of_reuse {h₁ h₂ : List Commit} {c : Commit} {db s₁ : Db}
    (hchain : Chain (protocol ttl) db₀ (h₂ ++ c :: h₁) db)
    (hnodup : (drawnKeys (h₂ ++ c :: h₁)).Nodup) (hS : Sessions db₀ (c :: h₁) c.after)
    (hs₁ : Past db₀ (c :: h₁) s₁) {f : Uuid}
    (hu : UpdatesTokens c s₁ (Target.family f).covers fun t => some t.revoke) {jti : Uuid}
    {t₁ t' : RefreshToken} (ht₁ : Db.refreshToken s₁ jti = some t₁) (hf : t₁.familyId = f)
    (ht' : Db.refreshToken db jti = some t') : t'.status = .revoked := by
  obtain ⟨db₁, hchain₁⟩ := hchain.of_append
  obtain rfl := hchain₁.last.2.2.2
  have hfound : (Db.refreshToken s₁ jti).any (Target.family f).covers = true := by
    rw [ht₁, Option.any_some]
    exact decide_eq_true hf
  refine hchain.since (I := fun db => ∀ t', Db.refreshToken db jti = some t' →
    t'.status = .revoked) hchain₁ (fun t' ht' => ?_) (fun c' hc' hguar hI t' ht' => ?_) t' ht'
  · cases hbefore : Db.refreshToken c.before jti with
    | none =>
      rw [hu.after_none hbefore] at ht'
      cases ht'
    | some t₂ =>
      have hfamily := (hS.becomes s₁ hs₁ jti t₁ t' ht₁ ht').familyId
      rw [hu.after hbefore] at ht'
      split at ht'
      · cases ht'
        rfl
      · rename_i hnot
        cases ht'
        exact absurd ⟨hfound, decide_eq_true (hfamily.trans hf)⟩ hnot
  · have hchange := Transacts.tokenChange hguar
    cases hbefore : Db.refreshToken c'.before jti with
    | none =>
      -- a token that is gone never comes back
      have hdrawn := (hchange.of_new hbefore ht').1
      exact absurd (hS.known s₁ hs₁ jti t₁ ht₁).1 (notMem_drawnKeys hnodup hc' hdrawn)
    | some t₂ => exact (hchange.becomes hbefore ht').revoked (hI t₂ hbefore)

/-- **The sessions of every reachable state** are sound, as far as the keys drawn are distinct and the
clock does not run backwards. -/
theorem sessions_of_reachable (h₀ : ∀ jti, Db.refreshToken db₀ jti = none)
    (h : Reachable (code ttl) policy db₀ s) (hnodup : (drawnKeys s.history).Nodup)
    (hclock : ∀ c ∈ s.history, ClockForward ttl c) : SoundSessions db₀ s := by
  have hchain := chain_of_reachable h
  have hS := Sessions.of_chain hchain h₀ hnodup hclock
  exact {
    rotatedOnce := by
      intro i j p p' jti userId userId' v v' hi hj hp hp' hv hv'
      obtain ⟨⟨c, hc, hpid⟩, hcons⟩ := consumes_of_done h hi hp hv
      obtain ⟨⟨c', hc', hpid'⟩, hcons'⟩ := consumes_of_done h hj hp' hv'
      by_contra hij
      have hne : c ≠ c' := fun he => hij (by rw [← hpid, ← hpid', he])
      have hsymm : Std.Symm fun c c' : Commit => ∀ jti, Consumes c jti → ¬ Consumes c' jti :=
        ⟨fun _ _ hcc' jti hc' hc => hcc' jti hc hc'⟩
      exact hS.once.forall hc hc' hne jti (hcons c hc hpid) (hcons' c' hc' hpid')
    oneActive := by
      intro jti jti' t t' ht ht' hf hactive hactive'
      obtain ⟨l, hl, -⟩ := hS.families t.familyId
      have heq := hl.lineage.eq_of_next_none ((hl.mem jti t).mpr ⟨ht, rfl⟩)
        ((hl.mem jti' t').mpr ⟨ht', hf.symm⟩) ((hS.coherent jti t ht).1 hactive)
        ((hS.coherent jti' t' ht').1 hactive')
      exact congrArg Prod.fst heq
    chain := fun f => (hS.families f).imp fun _ hl => hl.1
    replaced := fun jti t ht => (hS.coherent jti t ht).2
    successor := by
      intro jti t jti' ht hnext
      obtain ⟨l, hl, -⟩ := hS.families t.familyId
      obtain ⟨t', hmem, hprecedes⟩ := hl.lineage.exists_next ((hl.mem jti t).mpr ⟨ht, rfl⟩) hnext
      obtain ⟨ht', hf⟩ := (hl.mem jti' t').mp hmem
      exact ⟨t', ht', hf, hprecedes.1.symm⟩
    settled := fun s₁ hs₁ jti t t' ht hnot ht' => (hS.becomes s₁ hs₁ jti t t' ht ht').settled hnot
    reuse := by
      intro c hc jti t hpresented ht hconsumed
      obtain ⟨h₂, h₁, hsplit⟩ := List.append_of_mem hc
      rw [hsplit] at hchain hnodup hclock
      obtain ⟨db₁, hchain₁⟩ := hchain.of_append
      obtain ⟨-, hguar, hseen, rfl⟩ := hchain₁.last
      have hnodup₁ : (drawnKeys (c :: h₁)).Nodup := by
        rw [drawnKeys, List.flatMap_append] at hnodup
        exact (List.nodup_append.mp hnodup).2.1
      have hS₁ := Sessions.of_chain hchain₁ h₀ hnodup₁ fun c' hc' =>
        hclock c' (List.mem_append_right h₂ hc')
      obtain ⟨s₁, hu⟩ := Transacts.of_reuse hguar hpresented ht hconsumed
      have hs₁ := (hseen _ hu.seen).mono c
      refine ⟨⟨s₁, hu.seen, hsplit ▸ hs₁.append h₂, fun jti' t₁ t' ht₁ hf ht' => ?_⟩,
        fun jti' => hu.after_none, fun p v hp hv => ?_⟩
      · exact revoked_of_reuse hchain hnodup hS₁ hs₁ hu ht₁ hf ht'
      · -- a request that answered has found the token active
        obtain ⟨q, hq, hreq⟩ := h.traced.origin c hc
        obtain rfl : p = q := Option.some.inj (hp.symm.trans hq)
        have hcons := (consumes_of_done h hp (hreq ▸ hpresented) hv).2 c hc rfl
        obtain ⟨t₁, ht₁, hactive⟩ := (Transacts.of_consumes hguar hcons).1
        rw [ht] at ht₁
        cases ht₁
        rw [hconsumed] at hactive
        cases hactive }

end Reachable

/-! ## Two rotations of one token -/

namespace Sample

theorem refreshToken_db (jti : Uuid) : Db.refreshToken db jti = none := by
  have hrow : db.row (.refreshToken jti) = (Store.empty : Db).row (.refreshToken jti) :=
    Store.row_putAll_of_notMem _ (by simp [rows])
  rw [Db.refreshToken, hrow]
  rfl

/-- A token is issued, and two requests rotate it at the same time: the second one finds it consumed
and revokes the family. -/
def race : Server := server (
  .spawn (.issue 1 10 11 0) :: List.replicate 4 (.step 0) ++
  [.spawn (.rotate 10 1 20 .plain 5 6), .spawn (.rotate 10 1 30 .plain 5 7)] ++
  List.replicate 6 (.step 1) ++ List.replicate 8 (.step 2))

end Sample

theorem sessions_of_reachable_race : SoundSessions Sample.db Sample.race :=
  sessions_of_reachable Sample.refreshToken_db (Sample.reachable (by decide +kernel))
    (by decide +kernel) (by decide +kernel)

end AccountingApi.Auth
