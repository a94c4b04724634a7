import AccountingApi.Postings
import AccountingApi.Links
import AccountingApi.ReadCommitted.Observations

/-!
# Segregation of duties

Where the company segregates duties, a manual entry must not be posted by the user who has created it.
The settings are read before the transaction and not locked: a request may let an entry through on
settings that are changed before it commits. So an entry posted by its own creator tells that the request
has read settings without segregation, and there is none in a run that keeps it enabled.

## Main definitions

* `Permits`: the settings a request has read let a user post an entry
* `SelfPosted`: a manual entry that its creator has posted

## Main results

* `Transacts.posts_manual`: the requests that post manual entries
* `selfPosted_of_reachable`: what a request that posts an entry of its own has read
* `segregated_of_reachable`: no such entry where segregation stays enabled
-/

namespace AccountingApi

open ReadCommitted Posting

/-! ## Statements -/

/-- The company segregates duties. -/
def Segregates (db : Db) : Prop :=
  ∀ settings ∈ Db.settings db, settings.segregationOfDutiesEnabled = true

instance (db : Db) : Decidable (Segregates db) :=
  inferInstanceAs (Decidable (∀ settings ∈ Db.settings db, _))

/-- Settings among the reads that let the user post an entry of that source and creator. -/
def Permits (seen : List (Query × Db)) (sourceType : JournalSourceType) (createdBy user : Uuid) :
    Prop :=
  ∃ db settings, (.settings, db) ∈ seen ∧ Db.settings db = some settings ∧
    (settings.segregationOfDutiesEnabled && sourceType = .manual && user = createdBy) = false

/-- A posted manual entry whose poster is its creator. -/
def JournalEntry.SelfPosted (e : JournalEntry) : Prop :=
  e.sourceType = .manual ∧ e.status ≠ .draft ∧ e.postedBy = some e.createdBy

instance (e : JournalEntry) : Decidable e.SelfPosted := inferInstanceAs (Decidable (_ ∧ _))

/-- The settings a request that posts manual entries has read, and the draft. -/
def Request.Permitted (r : Request) (seen : List (Query × Db)) : Prop :=
  match r with
  | .createAndPostEntry _ user _ _ => Permits seen .manual user user
  | .postEntry id user _ => ∃ db draft, (.journalEntry, db) ∈ seen ∧ Db.entry db id = some draft ∧
      Permits seen draft.sourceType draft.createdBy user
  | _ => True

/-! ## What the requests read -/

section Reads

variable {F : List (Query × Db) → List (Write Row) → Prop} {seen : List (Query × Db)}

theorem Permits.mono {seen' : List (Query × Db)} {sourceType : JournalSourceType}
    {createdBy user : Uuid} (h : Permits seen sourceType createdBy user) (hsub : seen ⊆ seen') :
    Permits seen' sourceType createdBy user := by
  obtain ⟨db, settings, hmem, h⟩ := h
  exact ⟨db, settings, hsub hmem, h⟩

theorem observes_isSegregationViolation {sourceType : JournalSourceType} {createdBy user : Uuid}
    {post : Bool → List (Query × Db) → List (Write Row) → Prop}
    (h : ∀ b seen', seen ⊆ seen' → (b = false → Permits seen' sourceType createdBy user) →
      post b seen' []) :
    (Company.isSegregationViolation sourceType createdBy user).observes F seen [] post := by
  refine Prog.observes_bind.mpr (Prog.observes_bind.mpr (Prog.observes_query fun db => ?_))
  refine Prog.observes_orThrow fun settings hsettings => ?_
  exact h _ _ (List.subset_cons_self _ _) fun hb =>
    ⟨db, settings, List.mem_cons_self, hsettings, hb⟩

/-- A preparation stops unless the settings permit the posting. -/
theorem observes_preparePosting {input : PostEntryInput} {user : Uuid}
    (h : ∀ seen' buf, Permits seen' input.sourceType input.createdBy user → F seen' buf) :
    (preparePosting input user).observes F seen [] fun _ seen' _ =>
      Permits seen' input.sourceType input.createdBy user := by
  refine Prog.observes_bind.mpr (Prog.observes_ofExcept fun _ _ => Prog.observes_bind.mpr ?_)
  refine observes_isSegregationViolation fun b seen₁ _ hpermits => ?_
  refine Prog.observes_bind.mpr (Prog.observes_ensure fun hb => ?_)
  exact Prog.observes_mono (Prog.observes_of_seen fun seen' buf hsub =>
    h seen' buf ((hpermits hb).mono hsub)) fun _ _ _ hsub => (hpermits hb).mono hsub

/-- **Every request has read settings that permit what it posts.** -/
theorem code_permitted (r : Request) :
    (code r).observes (fun seen _ => r.Permitted seen) [] [] fun _ _ _ => True := by
  cases r
  case createAndPostEntry dto user id now =>
    refine Prog.observes_answer (Prog.observes_bind.mpr ?_)
    refine Prog.observes_mono (observes_preparePosting fun _ _ h => h) fun prepared seen buf h => ?_
    exact Prog.observes_anyhow fun _ _ hsub => h.mono hsub
  case postEntry id user now =>
    refine Prog.observes_answer (Prog.observes_bind.mpr (Prog.observes_query fun db => ?_))
    refine Prog.observes_bind.mpr (Prog.observes_orThrow fun draft hdraft => ?_)
    refine Prog.observes_bind.mpr (Prog.observes_ensure fun _ => ?_)
    refine Prog.observes_bind.mpr (Prog.observes_ofExcept fun _ _ => ?_)
    refine Prog.observes_bind.mpr (observes_isSegregationViolation fun b seen₁ hsub hpermits => ?_)
    refine Prog.observes_bind.mpr (Prog.observes_ensure fun hb => ?_)
    refine Prog.observes_anyhow fun seen' _ hsub' => ?_
    exact ⟨db, draft, hsub' (hsub List.mem_cons_self), (Option.filter_eq_some_iff.mp hdraft).1,
      (hpermits hb).mono hsub'⟩
  -- the others post no manual entries
  all_goals exact Prog.observes_anyhow fun _ _ _ => trivial

end Reads

/-! ## Entries that are posted -/

section Steps

variable {strict : Prop} {c : Commit} {id : Uuid} {e : JournalEntry}

/-- A request posts the entry: its creator himself, or the user who posts the draft of another one. -/
inductive PostsManual (c : Commit) (id : Uuid) (e : JournalEntry) : Prop
  | create (dto : CreateJournalEntryDto) (user : Uuid) (now : Timestamp)
      (req : c.req = .createAndPostEntry dto user id now) (creator : e.createdBy = user)
  | post (user : Uuid) (now : Timestamp) (draft : JournalEntry) (req : c.req = .postEntry id user now)
      (current : Db.entry c.before id = some draft) (source : draft.sourceType = .manual)
      (creator : e.createdBy = draft.createdBy) (poster : e.postedBy = some user)

/-- The entries a commit writes: drafts, entries of another source, entries that were posted before, and
manual ones that are posted now. -/
def PostsManualOrKeeps (c : Commit) (x : Uuid × JournalEntry) : Prop :=
  x.2.status = .draft ∨ x.2.sourceType ≠ .manual ∨
    (∃ e, Db.entry c.before x.1 = some e ∧ e.status ≠ .draft) ∨ PostsManual c x.1 x.2

theorem Created.postsManualOrKeeps {p : PreparedPosting} {input : PostEntryInput} {user : Uuid}
    {now : Timestamp} {n : ℕ} {wn : List (Write Row)} (h : Created strict c p id now n wn e)
    (hp : Prepared c input user p) (hsource : input.sourceType ≠ .manual) :
    ∀ x ∈ [(id, e)], PostsManualOrKeeps c x := by
  refine List.forall_mem_singleton.mpr (.inr (.inl ?_))
  rw [h.eq_postedEntry hp]
  exact hsource

theorem Reversed.postsManualOrKeeps {p : PreparedReversal} {now : Timestamp} {n : ℕ}
    {wn : List (Write Row)} {o rev : JournalEntry} (h : Reversed strict c p id now n wn o rev) :
    ∀ x ∈ [(id, rev), (p.originalId, markReversed id o)], PostsManualOrKeeps c x := by
  refine List.forall_mem_cons.mpr ⟨.inr (.inl ?_), List.forall_mem_singleton.mpr
    (.inr (.inr (.inl ⟨o, h.original, h.notDraft⟩)))⟩
  rw [h.entry_eq]
  exact nofun

theorem Transacts.postsManualOrKeeps (h : Transacts strict c) :
    ∀ x ∈ entries.writes c.writes, PostsManualOrKeeps c x := by
  cases h
  case postDocument t =>
    rw [t.writes_entries]
    refine t.created.postsManualOrKeeps t.prepared ?_
    rcases t.kind <;> exact nofun
  case voidDocument t =>
    rw [t.writes_entries]
    exact t.reversed.postsManualOrKeeps
  case postPayment t =>
    rw [t.writes_entries]
    exact t.created.postsManualOrKeeps t.prepared nofun
  case voidPayment t =>
    rw [t.writes_entries]
    exact t.reversed.postsManualOrKeeps
  case createEntry row valid fresh writes =>
    rw [writes, row]
    exact List.forall_mem_singleton.mpr (.inl rfl)
  case createAndPostEntry dto user id now p n wn entry req prepared created writes =>
    rw [writes, Table.writes_append, created.stamp.ticket.entries]
    refine List.forall_mem_singleton.mpr (.inr (.inr (.inr (.create dto user now req ?_))))
    rw [created.eq_postedEntry prepared]
    rfl
  case postEntry id user periodId y now draft n wn req current live hdraft balanced accounts period
      year stamp writes =>
    rw [writes, Table.writes_append, stamp.ticket.entries]
    refine List.forall_mem_singleton.mpr ?_
    by_cases hsource : draft.sourceType = .manual
    · exact .inr (.inr (.inr (.post user now draft req current hsource rfl rfl)))
    · exact .inr (.inl hsource)
  case reverseEntry prepared reversed writes =>
    rw [writes, reversed.writes_entries]
    exact reversed.postsManualOrKeeps
  case deleteEntry draft live writes =>
    rw [writes]
    exact List.forall_mem_singleton.mpr (.inl draft)
  case postOpeningBalances prepared created writes =>
    rw [writes, Table.writes_append, created.stamp.ticket.entries]
    exact created.postsManualOrKeeps prepared nofun
  case closeYear t =>
    rw [t.writes, Table.writes_append, t.created.stamp.ticket.entries]
    exact t.created.postsManualOrKeeps t.prepared nofun
  case reopenYear t =>
    rw [t.writes_entries]
    exact t.reversed.postsManualOrKeeps
  case periods change writes =>
    rw [writes, change.writes_entries]
    exact List.forall_mem_nil _
  -- the others write no entries
  all_goals
    rename_i writes
    rw [writes]
    exact List.forall_mem_nil _

/-- **The requests that post manual entries.** -/
theorem Transacts.posts_manual (h : Transacts strict c) (he : Db.entry c.after id = some e)
    (hsource : e.sourceType = .manual) (hnot : e.status ≠ .draft)
    (hbefore : ∀ e₀, Db.entry c.before id = some e₀ → e₀.status = .draft) :
    PostsManual c id e := by
  have hne : Db.entry c.before id ≠ some e := fun heq => hnot (hbefore e heq)
  rw [entry_after] at he
  rcases h.postsManualOrKeeps _ (mem_of_overwrite he hne) with
    hdraft | hother | ⟨e₀, he₀, hposted⟩ | hposts
  · exact absurd hdraft hnot
  · exact absurd hsource hother
  · exact absurd (hbefore e₀ he₀) hposted
  · exact hposts

/-- A step keeps the creator of an entry, and once it is posted, who has posted it. -/
theorem EntryStep.creator {e' : JournalEntry} (h : EntryStep e e') : e'.createdBy = e.createdBy := by
  cases h <;> rfl

theorem EntryStep.poster {e' : JournalEntry} (h : EntryStep e e') (hnot : e.status ≠ .draft) :
    e'.postedBy = e.postedBy := by
  cases h with
  | refl => rfl
  | promote _ _ _ _ _ _ hdraft => exact absurd hdraft hnot
  | reverse => rfl
  | delete _ _ hdraft => exact absurd hdraft hnot

/-- The draft a request has read has the source and the creator of the one it finds. -/
theorem Persists.creator {s db : Db} (h : Persists s db) {draft e : JournalEntry}
    (hdraft : Db.entry s id = some draft) (he : Db.entry db id = some e) :
    e.sourceType = draft.sourceType ∧ e.createdBy = draft.createdBy := by
  obtain ⟨e', he', hsteps⟩ := h.entry hdraft
  obtain rfl : e' = e := Option.some.inj (he'.symm.trans he)
  clear he' he hdraft
  induction hsteps with
  | refl => exact ⟨rfl, rfl⟩
  | tail _ hstep ih => exact ⟨hstep.source.1.trans ih.1, hstep.creator.trans ih.2⟩

end Steps

/-! ## Runs -/

section Runs

variable {policy : Policy Row LockName Query Failure Response Request} {db₀ : Db} {s : Server}

/-- The commit posts the entry: it was not there, or a draft. -/
def PostsNow (c : Commit) (id : Uuid) : Prop :=
  (∀ e, Db.entry c.before id = some e → e.status = .draft) ∧
    ∃ e, Db.entry c.after id = some e ∧ e.status ≠ .draft

/-- A commit after which a manual entry has been posted by its creator that has not been before. -/
theorem posts_of_selfPosted (h : Reachable code policy db₀ s) {c : Commit} (hc : c ∈ s.history)
    {id : Uuid} {e : JournalEntry} (he : Db.entry c.after id = some e) (hself : e.SelfPosted)
    (hnew : ∀ e₀, Db.entry c.before id = some e₀ → ¬ e₀.SelfPosted) :
    PostsNow c id ∧ Saw c .settings fun db => Past db₀ s.history db ∧ ¬ Segregates db := by
  obtain ⟨hsource, hnot, hposter⟩ := hself
  obtain ⟨hguar, -, hseen⟩ := (chain_of_reachable h).of_mem Persists.refl
    (fun _ _ _ => Persists.trans) (fun _ hc => hc.persists) hc
  have hpermitted := h.observed code_permitted c hc
  -- the entry has not been posted before
  have hbefore : ∀ e₀, Db.entry c.before id = some e₀ → e₀.status = .draft := by
    intro e₀ he₀
    by_contra hposted
    obtain ⟨e', he', hstep⟩ := hguar.entry_step he₀
    obtain rfl : e' = e := Option.some.inj (he'.symm.trans he)
    refine hnew e₀ he₀ ⟨hstep.source.1.symm.trans hsource, hposted, ?_⟩
    rw [← hstep.poster hposted, hposter, hstep.creator]
  have hpermits : Permits c.seen .manual e.createdBy e.createdBy := by
    cases hguar.posts_manual he hsource hnot hbefore with
    | create dto user now req creator =>
      rw [req] at hpermitted
      rw [creator]
      exact hpermitted
    | post user now draft req current source creator poster =>
      rw [req] at hpermitted
      obtain ⟨db, draft', hread, hdraft', hpermits⟩ := hpermitted
      obtain ⟨hsame, hcreator⟩ := (hseen _ hread).2.creator hdraft' current
      rw [← hsame, source, ← hcreator, ← creator] at hpermits
      obtain rfl : e.createdBy = user := Option.some.inj (hposter.symm.trans poster)
      exact hpermits
  obtain ⟨db, settings, hread, hsettings, hoff⟩ := hpermits
  refine ⟨⟨hbefore, e, he, hnot⟩, db, hread, (hseen _ hread).1, fun hon => ?_⟩
  rw [hon settings hsettings] at hoff
  simp at hoff

/-- In every store of a run, the manual entries posted by their creators have been let through so. -/
theorem selfPosted_always (h₀ : Initial db₀) (h : Reachable code policy db₀ s) {db : Db}
    (hdb : Past db₀ s.history db) : ∀ id e, Db.entry db id = some e → e.SelfPosted →
      ∃ c ∈ s.history, PostsNow c id ∧
        Saw c .settings fun db => Past db₀ s.history db ∧ ¬ Segregates db := by
  refine (chain_of_reachable h).always (D := fun _ _ => True)
    (I := fun db => ∀ id e, Db.entry db id = some e → e.SelfPosted → ∃ c ∈ s.history, PostsNow c id ∧
      Saw c .settings fun db => Past db₀ s.history db ∧ ¬ Segregates db)
    (fun _ => trivial) (fun _ _ _ _ _ => trivial) (fun _ _ => trivial) ?_ ?_ db hdb
  · intro id e he
    rw [h₀.entry] at he
    cases he
  · intro c hc _ ih _ id e he hself
    -- the entry has been posted so before, or it is this commit that posts it
    by_cases hold : ∃ e₀, Db.entry c.before id = some e₀ ∧ e₀.SelfPosted
    · obtain ⟨e₀, he₀, hself₀⟩ := hold
      exact ih id e₀ he₀ hself₀
    · obtain ⟨hposts, hsaw⟩ := posts_of_selfPosted h hc he hself fun e₀ he₀ hself₀ =>
        hold ⟨e₀, he₀, hself₀⟩
      exact ⟨c, hc, hposts, hsaw⟩

/-- **Who posts an entry of his own has read settings without segregation**, in any interleaving: every
manual entry posted by its creator is posted by a commit whose request has found segregation disabled in
a store of the run. -/
theorem selfPosted_of_reachable (h₀ : Initial db₀) (h : Reachable code policy db₀ s) {id : Uuid}
    {e : JournalEntry} (he : Db.entry s.db id = some e) (hself : e.SelfPosted) :
    ∃ c ∈ s.history, PostsNow c id ∧
      Saw c .settings fun db => Past db₀ s.history db ∧ ¬ Segregates db :=
  selfPosted_always h₀ h (chain_of_reachable h).past_self id e he hself

/-- **No manual entry is posted by its creator** in a run that keeps segregation enabled. -/
theorem segregated_of_reachable (h₀ : Initial db₀) (h : Reachable code policy db₀ s)
    (henabled : ∀ db, Past db₀ s.history db → Segregates db) {id : Uuid} {e : JournalEntry}
    (he : Db.entry s.db id = some e) : ¬ e.SelfPosted := by
  intro hself
  obtain ⟨c, -, -, db, -, hpast, hoff⟩ :=
    selfPosted_always h₀ h (chain_of_reachable h).past_self id e he hself
  exact hoff (henabled db hpast)

end Runs

namespace Sample

/-- A sale that is being posted while segregation is enabled. -/
def segregated : List (Event Request) :=
  .spawn (.createAndPostEntry cashSale 9 100 1) :: .step 0 ::
    request 1 (.updateCompany ⟨none, none, none, none, some true, none⟩) 4 ++ List.replicate 15 (.step 0)

end Sample

/-- The sale is let through on the settings before: they segregate when it is posted. -/
theorem selfPosted_of_reachable_race : Segregates (Sample.server Sample.segregated).db ∧
    ∃ c ∈ (Sample.server Sample.segregated).history, PostsNow c 100 ∧
      Saw c .settings fun db =>
        Past Sample.db (Sample.server Sample.segregated).history db ∧ ¬ Segregates db := by
  have hself : ∃ e, Db.entry (Sample.server Sample.segregated).db 100 = some e ∧ e.SelfPosted := by
    have hsome : ((Db.entry (Sample.server Sample.segregated).db 100).filter
        fun e => decide e.SelfPosted).isSome = true := by decide +kernel
    obtain ⟨e, he⟩ := Option.isSome_iff_exists.mp hsome
    rw [Option.filter_eq_some_iff, decide_eq_true_iff] at he
    exact ⟨e, he⟩
  obtain ⟨e, he, hself⟩ := hself
  exact ⟨by decide +kernel, selfPosted_of_reachable Sample.initial
    (Sample.reachable (by decide +kernel)) he hself⟩

end AccountingApi
