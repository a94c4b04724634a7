import AccountingApi.Conformance.Commits
import AccountingApi.Idempotency.Handlers
import AccountingApi.ReadCommitted.Admission
import AccountingApi.Segregation

/-!
# Postings behind idempotency keys

The requests that create, post, void or reverse, and those that close a year, carry an idempotency key: a
client that has no answer, or a timeout for one, repeats the request with the same key. However often it
does, and however the retries interleave with the handler of the first request, which goes on after the
timeout, at most one transaction is committed and at most one journal entry posted under the key.

## Main results

* `Transacts.posts_one`: a commit posts one entry at most
* `postedOnce_of_together`: there is one posting at most under a key
-/

namespace AccountingApi

open ReadCommitted Posting
open Idempotency (Handling Handlers Together CommitsUnder ReservationKey Config)

/-! ## One entry in a commit -/

section Commits

variable {strict : Prop} {c : Commit} {id id' : Uuid}

/-- The entries a commit writes besides the one at `i` are drafts, or were posted before. -/
def PostsOnlyAt (c : Commit) (i : Uuid) : Prop :=
  ∀ x ∈ entries.writes c.writes, x.1 ≠ i →
    x.2.status = .draft ∨ ∃ e, Db.entry c.before x.1 = some e ∧ e.status ≠ .draft

theorem PostsOnlyAt.exists_of_singleton {x : Uuid × JournalEntry}
    (h : entries.writes c.writes = [x]) : ∃ i, PostsOnlyAt c i := by
  refine ⟨x.1, ?_⟩
  rw [PostsOnlyAt, h]
  exact List.forall_mem_singleton.mpr fun hne => absurd rfl hne

/-- A reversal posts one entry, and marks another that was posted before. -/
theorem Reversed.postsOnlyAt {p : PreparedReversal} {now : Timestamp} {n : ℕ} {wn : List (Write Row)}
    {o rev : JournalEntry} (h : Reversed strict c p id now n wn o rev)
    (hwrites : entries.writes c.writes = [(id, rev), (p.originalId, markReversed id o)]) :
    PostsOnlyAt c id := by
  rw [PostsOnlyAt, hwrites]
  exact List.forall_mem_cons.mpr ⟨fun hne => absurd rfl hne,
    List.forall_mem_singleton.mpr fun _ => .inr ⟨o, h.original, h.notDraft⟩⟩

/-- **Every commit posts at one place**, if it posts. -/
theorem Transacts.postsOnlyAt (h : Transacts strict c) : ∃ i, PostsOnlyAt c i := by
  cases h
  case postDocument t => exact PostsOnlyAt.exists_of_singleton t.writes_entries
  case voidDocument t => exact ⟨_, t.reversed.postsOnlyAt t.writes_entries⟩
  case postPayment t => exact PostsOnlyAt.exists_of_singleton t.writes_entries
  case voidPayment t => exact ⟨_, t.reversed.postsOnlyAt t.writes_entries⟩
  case createEntry row valid fresh writes =>
    apply PostsOnlyAt.exists_of_singleton
    rw [writes]
    rfl
  case createAndPostEntry prepared created writes =>
    apply PostsOnlyAt.exists_of_singleton
    rw [writes, Table.writes_append, created.stamp.ticket.entries]
    rfl
  case postEntry stamp writes =>
    apply PostsOnlyAt.exists_of_singleton
    rw [writes, Table.writes_append, stamp.ticket.entries]
    rfl
  case reverseEntry prepared reversed writes =>
    refine ⟨_, reversed.postsOnlyAt ?_⟩
    rw [writes, reversed.writes_entries]
  case deleteEntry writes =>
    apply PostsOnlyAt.exists_of_singleton
    rw [writes]
    rfl
  case postOpeningBalances prepared created writes =>
    apply PostsOnlyAt.exists_of_singleton
    rw [writes, Table.writes_append, created.stamp.ticket.entries]
    rfl
  case closeYear t =>
    apply PostsOnlyAt.exists_of_singleton
    rw [t.writes, Table.writes_append, t.created.stamp.ticket.entries]
    rfl
  case reopenYear t => exact ⟨_, t.reversed.postsOnlyAt t.writes_entries⟩
  case periods change writes =>
    refine ⟨0, ?_⟩
    rw [PostsOnlyAt, writes, change.writes_entries]
    exact List.forall_mem_nil _
  -- the others write no entries
  all_goals
    rename_i writes
    refine ⟨0, ?_⟩
    rw [PostsOnlyAt, writes]
    exact List.forall_mem_nil _

theorem PostsNow.eq_of_postsOnlyAt (h : PostsNow c id) {i : Uuid} (honly : PostsOnlyAt c i) :
    id = i := by
  obtain ⟨hbefore, e, he, hnot⟩ := h
  have hne : Db.entry c.before id ≠ some e := fun hb => hnot (hbefore e hb)
  rw [entry_after] at he
  by_contra hid
  rcases honly _ (mem_of_overwrite he hne) hid with hdraft | ⟨e₀, he₀, hnot₀⟩
  · exact hnot hdraft
  · exact hnot₀ (hbefore e₀ he₀)

/-- **A commit posts one entry at most.** -/
theorem Transacts.posts_one (h : Transacts strict c) (hid : PostsNow c id) (hid' : PostsNow c id') :
    id = id' := by
  obtain ⟨i, honly⟩ := h.postsOnlyAt
  rw [hid.eq_of_postsOnlyAt honly, hid'.eq_of_postsOnlyAt honly]

end Commits

/-! ## One posting under a key -/

section Runs

variable {Body Json : Type} {cfg : Config Body Response Json} {k : ReservationKey} {now : Timestamp}
  {db₀ : Db} {i : Idempotency.Server Response Json} {t : Handlers Row LockName Query Response Request}

/-- The entry was posted by the handler of a request with the key. -/
def PostedUnder (i : Idempotency.Server Response Json) (k : ReservationKey)
    (t : Handlers Row LockName Query Response Request) (id : Uuid) : Prop :=
  ∃ c ∈ t.history, CommitsUnder i k c ∧ PostsNow (c.map Handling.request) id

/-- **There is one posting at most under a key**, in every run whose retries come in time and in which no
request with the key releases its reservation once its handler has committed: no two transactions are
committed by handlers of requests with the key, and all entries they have posted are the same one. -/
theorem postedOnce_of_together (h : Together cfg code k now db₀ i t) :
    (t.history.Pairwise fun c c' => ¬ (CommitsUnder i k c ∧ CommitsUnder i k c')) ∧
      ∀ id id', PostedUnder i k t id → PostedUnder i k t id' → id = id' := by
  have honce := h.commits_once commitsOnce_code
  refine ⟨honce, ?_⟩
  rintro id id' ⟨c, hc, hunder, hposts⟩ ⟨c', hc', hunder', hposts'⟩
  have hsymm : Std.Symm fun c c' : ReadCommitted.Commit Row LockName Query (Handling Request) =>
      ¬ (CommitsUnder i k c ∧ CommitsUnder i k c') := ⟨fun _ _ hnot hboth => hnot hboth.symm⟩
  have hsame : c = c' := by
    by_contra hne
    exact honce.forall hc hc' hne ⟨hunder, hunder'⟩
  subst hsame
  have hrun := h.reachable.map Handling.request
  obtain ⟨hguar, -, -⟩ := (chain_of_reachable hrun).of_mem Persists.refl
    (fun _ _ _ => Persists.trans) (fun _ hc => hc.persists) (List.mem_map_of_mem hc)
  exact hguar.posts_one hposts hposts'

end Runs

/-! ## A handler that outlives its request -/

namespace Sample

def idempotency : Config String Response Unit := { snapshot := fun _ => some (), hash := id }

def slot : ReservationKey := ⟨9, "k-1"⟩

/-- A request to post a sale. -/
def postSale : Idempotency.IdempotentRequest String where
  method := "POST"
  originalUrl := none
  url := "/v1/journal-entries?post=true"
  idempotencyKey := ["k-1"]
  user := some 9
  body := "sale"
  declared := none

/-- It reserves the key, -/
def reserved : Idempotency.Server Response Unit :=
  (Transitions.runWhile (Idempotency.step idempotency)
    (Idempotency.Allowed idempotency slot (.start db : Handlers Row LockName Query Response Request))
    (.start 0) [.arrive ⟨9, 0⟩ postSale, .act ⟨9, 0⟩ .create]).getD (.start 0)

def saleHandling : Handling Request := ⟨some ⟨9, 0⟩, .createAndPostEntry cashSale 9 100 1⟩

/-- its handler is started, -/
def handling : Handlers Row LockName Query Response Request :=
  { (.start db : Handlers Row LockName Query Response Request) with
    procs := [⟨saleHandling, .running (code saleHandling.request), {}⟩] }

/-- and the request times out. -/
def timedOut : Idempotency.Server Response Unit :=
  (Transitions.runWhile (Idempotency.step idempotency) (Idempotency.Allowed idempotency slot handling)
    reserved [.act ⟨9, 0⟩ .stop]).getD reserved

/-- The handler goes on and commits, -/
def handled : Idempotency.Server Response Unit × Handlers Row LockName Query Response Request :=
  (Idempotency.advance idempotency code 0 16 (timedOut, handling)).getD (timedOut, handling)

/-- and a retry finds the key taken. -/
def retried : Idempotency.Server Response Unit :=
  (Transitions.runWhile (Idempotency.step idempotency)
    (Idempotency.Allowed idempotency slot handled.2) handled.1
    [.arrive ⟨9, 1⟩ postSale, .act ⟨9, 1⟩ .create, .act ⟨9, 1⟩ .find]).getD handled.1

theorem together_reserved : Together idempotency code slot 0 db reserved
    (.start db : Handlers Row LockName Query Response Request) := by
  have hrun : (Transitions.runWhile (Idempotency.step idempotency)
      (Idempotency.Allowed idempotency slot (.start db : Handlers Row LockName Query Response Request))
      (.start 0) [.arrive ⟨9, 0⟩ postSale, .act ⟨9, 0⟩ .create]).isSome = true := by decide +kernel
  obtain ⟨i, hi⟩ := Option.isSome_iff_exists.mp hrun
  rw [reserved, hi]
  exact Together.start.runWhile hi

theorem starts : Idempotency.Starts reserved
    (.start db : Handlers Row LockName Query Response Request) (.spawn saleHandling) := by
  -- the request may note a commit, so it waits for its handler
  have hwaits : ∃ p ∈ reserved.procs ⟨9, 0⟩,
      (p.step idempotency ⟨9, 0⟩ 0 reserved.table .commit).isSome = true := by decide +kernel
  rintro _ ⟨⟩
  obtain ⟨⟨r, phase⟩, hp, hcommit⟩ := hwaits
  refine ⟨⟨_, hp, ?_⟩, fun _ hp => absurd hp List.not_mem_nil⟩
  cases phase with
  | executing committed =>
    cases committed with
    | false => rfl
    | true => cases hcommit
  | _ => cases hcommit

theorem together_timedOut : Together idempotency code slot 0 db timedOut handling := by
  have hrun : (Transitions.runWhile (Idempotency.step idempotency)
      (Idempotency.Allowed idempotency slot handling) reserved
      [.act ⟨9, 0⟩ .stop]).isSome = true := by decide +kernel
  obtain ⟨i, hi⟩ := Option.isSome_iff_exists.mp hrun
  have hstarted : Together idempotency code slot 0 db reserved handling :=
    together_reserved.handles (.spawn saleHandling) starts rfl
  rw [timedOut, hi]
  exact hstarted.runWhile hi

theorem together_handled : Together idempotency code slot 0 db handled.1 handled.2 := by
  have hrun : (Idempotency.advance idempotency code 0 16 (timedOut, handling)).isSome = true := by
    decide +kernel
  obtain ⟨x, hx⟩ := Option.isSome_iff_exists.mp hrun
  rw [handled, hx]
  exact together_timedOut.advance hx

theorem together_retried : Together idempotency code slot 0 db retried handled.2 := by
  have hrun : (Transitions.runWhile (Idempotency.step idempotency)
      (Idempotency.Allowed idempotency slot handled.2) handled.1
      [.arrive ⟨9, 1⟩ postSale, .act ⟨9, 1⟩ .create, .act ⟨9, 1⟩ .find]).isSome = true := by
    decide +kernel
  obtain ⟨i, hi⟩ := Option.isSome_iff_exists.mp hrun
  rw [retried, hi]
  exact together_handled.runWhile hi

end Sample

/-- The sale is posted after its request has timed out, and the retry is refused; nothing else is posted
under the key. -/
theorem postedOnce_of_together_timedOut :
    (Db.entry Sample.handled.2.db 100).isSome = true ∧
      (∃ p ∈ Sample.retried.procs ⟨9, 1⟩,
        (match p.phase with | .failed _ => true | _ => false) = true) ∧
      (Sample.handled.2.history.Pairwise fun c c' =>
        ¬ (CommitsUnder Sample.retried Sample.slot c ∧ CommitsUnder Sample.retried Sample.slot c')) ∧
      ∀ id id', PostedUnder Sample.retried Sample.slot Sample.handled.2 id →
        PostedUnder Sample.retried Sample.slot Sample.handled.2 id' → id = id' :=
  ⟨by decide +kernel, by decide +kernel, postedOnce_of_together Sample.together_retried⟩

end AccountingApi
