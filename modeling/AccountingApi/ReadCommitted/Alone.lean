import AccountingApi.ReadCommitted.Serial

/-!
# A request that runs alone

While no other request runs, the statements of a program see nothing but its own writes. What it
returns and the store it leaves are then functions of the store it finds.

## Main definitions

* `Prog.evalWith`, `Prog.alone`: the result of a program and the store it leaves
* `Prog.within`: the result of a part of a transaction and the store it goes on with
* `Prog.Yields`: what a program that only reads succeeds with
* `Phase.ofResult`: how a request ends

## Main results

* `Prog.evalWith_bind`: the outcome of a sequence
* `Prog.Yields.bind`: what a sequence of reads succeeds with
* `Reachable.others_free`: no commit finds a lock of another request
* `Server.exists_serve`: a request served by an idle server ends with the outcome of its program
-/

namespace ReadCommitted

variable {K A : Type} [DecidableEq K] {Row : K → Type} {Q E V R : Type}

/-! ## The outcome of a program -/

namespace Prog

variable {α β : Type}

/-- What the program returns, the committed store and the pending writes at its end, from a committed
store and pending writes. -/
def evalWith : Prog Row A Q E α → Store Row → List (Write Row) →
    Except E α × Store Row × List (Write Row)
  | .ret a, db, buf => (.ok a, db, buf)
  | .throw e, db, buf => (.error e, db, buf)
  | .select _ next, db, buf => (next (db.putAll buf)).evalWith db buf
  | .acquire _ _ next, db, buf => (next (db.putAll buf)).evalWith db buf
  | .put k v next, db, buf => next.evalWith db (buf ++ [⟨k, v⟩])
  | .commit next, db, buf => next.evalWith (db.putAll buf) []

/-- What the program returns and the store it leaves. -/
def alone (p : Prog Row A Q E α) (db : Store Row) : Except E α × Store Row :=
  ((p.evalWith db []).1, (p.evalWith db []).2.1)

/-- What the program returns and the store as its transaction sees it at its end. -/
def within (p : Prog Row A Q E α) (db : Store Row) : Except E α × Store Row :=
  ((p.evalWith db []).1, (p.evalWith db []).2.1.putAll (p.evalWith db []).2.2)

variable {db : Store Row} {buf : List (Write Row)} {p : Prog Row A Q E α} {f : α → Prog Row A Q E β}

theorem exists_of_alone {r : Except E α} {db' : Store Row} (h : p.alone db = (r, db')) :
    ∃ buf', p.evalWith db [] = (r, db', buf') := by
  obtain ⟨hresult, hdb⟩ := Prod.mk.inj h
  exact ⟨_, Prod.ext hresult (Prod.ext hdb rfl)⟩

@[simp] theorem evalWith_ret (a : α) :
    (.ret a : Prog Row A Q E α).evalWith db buf = (.ok a, db, buf) := rfl

@[simp] theorem evalWith_throw (e : E) :
    (.throw e : Prog Row A Q E α).evalWith db buf = (.error e, db, buf) := rfl

@[simp] theorem evalWith_query (q : Q) :
    (query q : Prog Row A Q E _).evalWith db buf = (.ok (db.putAll buf), db, buf) := rfl

@[simp] theorem evalWith_lock (l : Lock K A) (m : Mode) :
    (lock l m : Prog Row A Q E _).evalWith db buf = (.ok (db.putAll buf), db, buf) := rfl

@[simp] theorem evalWith_write (k : K) (v : Row k) :
    (write k v : Prog Row A Q E Unit).evalWith db buf = (.ok (), db, buf ++ [⟨k, v⟩]) := rfl

/-- **The outcome of a sequence** whose first program returns. -/
theorem evalWith_bind {a : α} {db' : Store Row} {buf' : List (Write Row)}
    (h : p.evalWith db buf = (.ok a, db', buf')) :
    (p.bind f).evalWith db buf = (f a).evalWith db' buf' := by
  induction p generalizing db buf with
  | ret a' =>
    cases h
    rfl
  | throw e => cases h
  | select q next ih => exact ih _ h
  | acquire l m next ih => exact ih _ h
  | put k v next ih => exact ih h
  | commit next ih => exact ih h

theorem evalWith_bind_error {e : E} {db' : Store Row} {buf' : List (Write Row)}
    (h : p.evalWith db buf = (.error e, db', buf')) :
    (p.bind f).evalWith db buf = (.error e, db', buf') := by
  induction p generalizing db buf with
  | ret a' => cases h
  | throw e' =>
    cases h
    rfl
  | select q next ih => exact ih _ h
  | acquire l m next ih => exact ih _ h
  | put k v next ih => exact ih h
  | commit next ih => exact ih h

/-- A sequence that returns is made of two programs that return. -/
theorem exists_of_evalWith_bind {b : β} {db'' : Store Row} {buf'' : List (Write Row)}
    (h : (p.bind f).evalWith db buf = (.ok b, db'', buf'')) : ∃ a db' buf',
      p.evalWith db buf = (.ok a, db', buf') ∧ (f a).evalWith db' buf' = (.ok b, db'', buf'') := by
  rcases hp : p.evalWith db buf with ⟨_ | a, db', buf'⟩
  · rw [evalWith_bind_error hp] at h
    cases h
  · rw [evalWith_bind hp] at h
    exact ⟨a, db', buf', rfl, h⟩

theorem evalWith_ensure_bind {c : Prop} [Decidable c] {e : E} {f : Unit → Prog Row A Q E β} :
    ((ensure c e).bind f).evalWith db buf =
      if c then (f ()).evalWith db buf else (.error e, db, buf) := by
  unfold ensure
  split <;> rfl

/-- Errors are replaced in the outcome. -/
theorem evalWith_mapThrow {g : E → E} :
    (p.mapThrow g).evalWith db buf = ((p.evalWith db buf).1.mapError g, (p.evalWith db buf).2) := by
  induction p generalizing db buf with
  | ret a => rfl
  | throw e => rfl
  | select q next ih => exact ih _
  | acquire l m next ih => exact ih _
  | put k v next ih => exact ih
  | commit next ih => exact ih

/-- A program without commits adds to the pending writes. -/
theorem CommitsAtMost.evalWith_eq {r : Except E α} {db' : Store Row} {buf' : List (Write Row)}
    (h : p.CommitsAtMost 0) (heval : p.evalWith db buf = (r, db', buf')) :
    db' = db ∧ ∃ ws, buf' = buf ++ ws := by
  induction p generalizing buf with
  | ret a =>
    cases heval
    exact ⟨rfl, [], (List.append_nil _).symm⟩
  | throw e =>
    cases heval
    exact ⟨rfl, [], (List.append_nil _).symm⟩
  | select q next ih => exact ih _ (h _) heval
  | acquire l m next ih => exact ih _ (h _) heval
  | put k v next ih =>
    obtain ⟨hdb, ws, rfl⟩ := ih h heval
    exact ⟨hdb, ⟨k, v⟩ :: ws, List.append_assoc _ _ _⟩
  | commit next ih => exact h.elim

/-- A transaction leaves its writes committed. -/
theorem evalWith_transaction {a : α} {db' : Store Row} {buf' : List (Write Row)}
    (h : p.evalWith db buf = (.ok a, db', buf')) :
    (transaction p).evalWith db buf = (.ok a, db'.putAll buf', []) :=
  evalWith_bind h

/-- Statements for each element, that add writes to those before them. -/
theorem evalWith_forEach {l : List β} {g : β → Prog Row A Q E Unit}
    {step : Store Row → β → List (Write Row)}
    (h : ∀ b ∈ l, ∀ buf, (g b).evalWith db buf = (.ok (), db, buf ++ step (db.putAll buf) b)) :
    ∃ ws, (forEach l g).evalWith db buf = (.ok (), db, buf ++ ws) ∧
      (db.putAll buf).putAll ws = l.foldl (fun db b => db.putAll (step db b)) (db.putAll buf) := by
  induction l generalizing buf with
  | nil => exact ⟨[], by rw [List.append_nil]; rfl, rfl⟩
  | cons b l ih =>
    obtain ⟨ws, hws, hfold⟩ := @ih (buf ++ step (db.putAll buf) b) fun b' hb' =>
      h b' (List.mem_cons_of_mem b hb')
    refine ⟨step (db.putAll buf) b ++ ws, ?_, ?_⟩
    · rw [forEach, evalWith_bind (h b List.mem_cons_self buf), hws, List.append_assoc]
    · rw [Store.putAll_append, List.foldl_cons, ← Store.putAll_append db, hfold]

/-! ## Programs that only read -/

/-- The program writes nothing, and succeeds with the values that are related to the store it reads. -/
def Yields (p : Prog Row A Q E α) (ok : Store Row → α → Prop) : Prop :=
  ∀ db buf, (p.evalWith db buf).2 = (db, buf) ∧
    ∀ a, (p.evalWith db buf).1 = .ok a ↔ ok (db.putAll buf) a

theorem yields_ret (a : α) : (.ret a : Prog Row A Q E α).Yields fun _ b => b = a := fun db buf =>
  ⟨rfl, fun b => by rw [evalWith_ret, Except.ok.injEq, eq_comm]⟩

theorem yields_query (q : Q) : (query q : Prog Row A Q E _).Yields fun db s => s = db :=
  fun db buf => ⟨rfl, fun s => by rw [evalWith_query, Except.ok.injEq, eq_comm]⟩

theorem yields_ensure (c : Prop) [Decidable c] (e : E) :
    (ensure c e : Prog Row A Q E Unit).Yields fun _ _ => c := by
  intro db buf
  unfold ensure
  split <;> simp [*]

theorem yields_orThrow (o : Option α) (e : E) :
    (orThrow o e : Prog Row A Q E α).Yields fun _ a => o = some a := by
  intro db buf
  cases o <;> simp [orThrow]

theorem yields_ofExcept (x : Except E α) :
    (ofExcept x : Prog Row A Q E α).Yields fun _ a => x = .ok a := by
  intro db buf
  cases x <;> simp [ofExcept]

section Yields

variable {ok ok' : Store Row → α → Prop} {next : α → Store Row → β → Prop}

theorem Yields.congr (h : p.Yields ok) (heq : ∀ db a, ok db a ↔ ok' db a) : p.Yields ok' :=
  fun db buf => ⟨(h db buf).1, fun a => ((h db buf).2 a).trans (heq _ a)⟩

/-- **A sequence of reads** succeeds where both of its parts do, on the same store. -/
theorem Yields.bind (h : p.Yields ok) (hf : ∀ a, (f a).Yields (next a)) :
    (p.bind f).Yields fun db b => ∃ a, ok db a ∧ next a db b := by
  intro db buf
  obtain ⟨hsame, hok⟩ := h db buf
  rcases hp : p.evalWith db buf with ⟨e | a, db', buf'⟩
  · rw [hp] at hsame hok
    cases hsame
    rw [evalWith_bind_error hp]
    refine ⟨rfl, fun b => iff_of_false (by simp) ?_⟩
    rintro ⟨a, ha, -⟩
    cases (hok a).mpr ha
  · rw [hp] at hsame hok
    cases hsame
    rw [evalWith_bind hp]
    refine ⟨(hf a db buf).1, fun b => ((hf a db buf).2 b).trans ⟨fun hb => ?_, ?_⟩⟩
    · exact ⟨a, (hok a).mp rfl, hb⟩
    · rintro ⟨a', ha', hb⟩
      obtain rfl : a = a' := Except.ok.inj ((hok a').mpr ha')
      exact hb

/-- A program that only reads, when it returns. -/
theorem Yields.of_evalWith (h : p.Yields ok) {a : α} {db' : Store Row} {buf' : List (Write Row)}
    (heval : p.evalWith db buf = (.ok a, db', buf')) :
    ok (db.putAll buf) a ∧ db' = db ∧ buf' = buf := by
  obtain ⟨hsame, hok⟩ := h db buf
  rw [heval] at hsame hok
  cases hsame
  exact ⟨(hok a).mp rfl, rfl, rfl⟩

/-- What a program that only reads returns when it runs alone. -/
theorem Yields.alone_eq_ok_iff (h : p.Yields ok) {a : α} :
    p.alone db = (.ok a, db) ↔ ok db a := by
  obtain ⟨hsame, hok⟩ := h db []
  rw [← Store.putAll_nil db, ← hok a, alone, Prod.mk.injEq, Store.putAll_nil, hsame]
  exact and_iff_left rfl

/-- A program that only reads leaves the store. -/
theorem Yields.alone_snd (h : p.Yields ok) : (p.alone db).2 = db :=
  congrArg Prod.fst (h db []).1

end Yields

end Prog

/-! ## The request of an idle server -/

/-- How a request ends. -/
def Phase.ofResult : Except E V → Phase Row A Q E V
  | .ok v => .done v
  | .error e => .failed e

section Serve

variable [DecidableEq A] {code : R → Prog Row A Q E V} {s : Server Row A Q E V R} {i : ℕ} {r : R}

/-- A request waits for nobody where the others hold no locks. -/
theorem grantable_of_free {others : List (List (Held K A))} (h : ∀ L ∈ others, L = [])
    (held : Held K A) : grantable others held = true := by
  refine List.all_eq_true.mpr fun L hL => ?_
  rw [h L hL]
  rfl

/-- The request `i` runs to its end with the result `res`, and the store is `db` then. -/
def Server.Finishes (code : R → Prog Row A Q E V) (s : Server Row A Q E V R) (i : ℕ) (r : R)
    (res : Except E V) (db : Store Row) : Prop :=
  ∃ n s' ℓ, s.run code (List.replicate n (.step i)) = some s' ∧ s'.db = db ∧ ℓ.locks = [] ∧
    s'.procs = s.procs.set i ⟨r, .ofResult res, ℓ⟩

/-- A request runs to its end if it does after one statement. -/
theorem Server.Finishes.of_step {p p' : Proc Row A Q E V R} {c : Option (Commit Row A Q R)}
    {res : Except E V} {db : Store Row} (hi : s.procs[i]? = some p)
    (hstep : p.step i (s.others i) s.db = some (p', c))
    (h : (s.update i p' c).Finishes code i r res db) : s.Finishes code i r res db := by
  obtain ⟨n, s', ℓ, hrun, hdb, hlocks, hprocs⟩ := h
  have hupdate : (s.update i p' c).procs = s.procs.set i p' := by cases c <;> rfl
  have hnext : s.next code (.step i) = some (s.update i p' c) := by
    simp only [Server.next, hi, hstep, Option.bind_eq_bind, Option.bind_some, Option.pure_def]
  refine ⟨n + 1, s', ℓ, ?_, hdb, hlocks, ?_⟩
  · rw [List.replicate_succ, Server.run, hnext, Option.bind_some, hrun]
  · rw [hprocs, hupdate, List.set_set]

omit [DecidableEq A] in
/-- The other requests are not concerned. -/
theorem Server.others_update (s : Server Row A Q E V R) (i : ℕ) (p' : Proc Row A Q E V R)
    (c : Option (Commit Row A Q R)) : (s.update i p' c).others i = s.others i := by
  cases c <;> simp only [Server.update, Server.others, List.eraseIdx_set_eq]

omit [DecidableEq A] in
theorem Server.getElem?_update {p : Proc Row A Q E V R} (hi : s.procs[i]? = some p)
    (p' : Proc Row A Q E V R) (c : Option (Commit Row A Q R)) :
    (s.update i p' c).procs[i]? = some p' := by
  have hlt := (List.getElem?_eq_some_iff.mp hi).1
  cases c <;> exact List.getElem?_set_self hlt

/-- A request runs to its end, as its program evaluates, while the others hold no locks. -/
theorem Server.finishes (p : Prog Row A Q E V) {ℓ : Local Row A Q}
    (hi : s.procs[i]? = some ⟨r, .running p, ℓ⟩) (hfree : ∀ L ∈ s.others i, L = []) :
    s.Finishes code i r (p.evalWith s.db ℓ.buf).1 (p.evalWith s.db ℓ.buf).2.1 := by
  -- what the request waits for is granted, and it finds the others as they were
  have hgrant : ∀ held, grantable (s.others i) held = true := grantable_of_free hfree
  induction p generalizing s ℓ with
  | ret v => exact .of_step hi rfl ⟨0, _, _, rfl, rfl, rfl, (List.set_set ..).symm⟩
  | throw e => exact .of_step hi rfl ⟨0, _, _, rfl, rfl, rfl, (List.set_set ..).symm⟩
  | select q next ih =>
    have hstep : Proc.step i ⟨r, .running (.select q next), ℓ⟩ (s.others i) s.db =
        some (⟨r, .running (next (ℓ.view s.db)), ℓ.see q s.db⟩, none) := rfl
    refine .of_step hi hstep (ih (ℓ := ℓ.see q s.db) _ (s.getElem?_update hi _ _) ?_ ?_)
    · rwa [s.others_update]
    · rwa [s.others_update]
  | acquire l m next ih =>
    have hstep : Proc.step i ⟨r, .running (.acquire l m next), ℓ⟩ (s.others i) s.db =
        some (⟨r, .running (next (ℓ.view s.db)), ℓ.hold (l, m) s.db⟩, none) := by
      simp only [Proc.step, hgrant, if_true]
    refine .of_step hi hstep (ih (ℓ := ℓ.hold (l, m) s.db) _ (s.getElem?_update hi _ _) ?_ ?_)
    · rwa [s.others_update]
    · rwa [s.others_update]
  | put k v next ih =>
    have hstep : Proc.step i ⟨r, .running (.put k v next), ℓ⟩ (s.others i) s.db =
        some (⟨r, .running next, ℓ.write ⟨k, v⟩ s.db⟩, none) := by
      simp only [Proc.step, hgrant, if_true]
    refine .of_step hi hstep (ih (s.getElem?_update hi _ _) ?_ ?_)
    · rwa [s.others_update]
    · rwa [s.others_update]
  | commit next ih =>
    have hstep : Proc.step i ⟨r, .running (.commit next), ℓ⟩ (s.others i) s.db =
        some (⟨r, .running next, ℓ.publish s.db⟩, some (ℓ.toCommit i r (s.others i) s.db)) := rfl
    refine .of_step hi hstep (ih (s.getElem?_update hi _ _) ?_ ?_)
    · rwa [s.others_update]
    · rwa [s.others_update]

/-- The requests that have ended hold no locks. -/
def Server.Released (s : Server Row A Q E V R) : Prop :=
  ∀ p ∈ s.procs, p.phase.isRunning = false → p.loc.locks = []

omit [DecidableEq A] in
theorem Server.Released.update (h : s.Released) {p' : Proc Row A Q E V R}
    {c : Option (Commit Row A Q R)} (hp' : p'.phase.isRunning = false → p'.loc.locks = []) :
    (s.update i p' c).Released := by
  have hset : ∀ p ∈ s.procs.set i p', p.phase.isRunning = false → p.loc.locks = [] := by
    intro p hp
    rcases List.mem_or_eq_of_mem_set hp with hp | rfl
    · exact h p hp
    · exact hp'
  cases c <;> exact hset

/-- **Requests that have ended hold no locks.** -/
theorem Reachable.released {policy : Policy Row A Q E V R} {db₀ : Store Row}
    (h : Reachable code policy db₀ s) : s.Released := by
  induction h with
  | start => exact nofun
  | @next s s' e _ _ hnext ih =>
    cases e with
    | spawn r =>
      cases hnext
      intro p hp hrun
      rcases List.mem_append.mp hp with hp | hp
      · exact ih p hp hrun
      · obtain rfl := List.mem_singleton.mp hp
        rfl
    | step i =>
      simp only [Server.next, Option.bind_eq_bind, Option.bind_eq_some_iff] at hnext
      obtain ⟨⟨r, phase, ℓ⟩, -, ⟨p', c⟩, hstep, hs'⟩ := hnext
      cases hs'
      refine ih.update fun hrun => ?_
      unfold Proc.step at hstep
      split at hstep <;> (try split at hstep) <;> cases hstep <;> first | rfl | cases hrun
    | abort i =>
      simp only [Server.next, Option.bind_eq_bind, Option.bind_eq_some_iff] at hnext
      obtain ⟨⟨r, phase, ℓ⟩, -, p', habort, hs'⟩ := hnext
      cases hs'
      refine ih.update fun _ => ?_
      unfold Proc.abort at habort
      split at habort <;> cases habort
      rfl

omit [DecidableEq K] [DecidableEq A] in
/-- A request that runs alone waits for nobody. -/
theorem Server.Serial.others_free (hserial : s.Serial) (hreleased : s.Released)
    {p : Proc Row A Q E V R} (hi : s.procs[i]? = some p) (hrun : p.phase.isRunning = true) :
    ∀ L ∈ s.others i, L = [] := by
  intro L hL
  obtain ⟨p', hp', rfl⟩ := List.mem_map.mp hL
  obtain ⟨j, hij, hj⟩ := List.mem_eraseIdx_iff_getElem?.mp hp'
  refine hreleased p' (List.mem_of_getElem? hj) ?_
  by_contra hrun'
  exact hij (hserial.single j i p' p hj hi ((Bool.not_eq_false _).mp hrun') hrun)

/-- **No commit of requests that come one at a time finds a lock of another one.** -/
theorem Reachable.others_free {ops : R → Prop} {db₀ : Store Row}
    (h : Reachable code (oneAtATime ops) db₀ s) (hcode : ∀ r, ops r → (code r).CommitsAtMost 1) :
    ∀ c ∈ s.history, ∀ L ∈ c.others, L = [] := by
  induction h with
  | start => exact List.forall_mem_nil _
  | @next s s' e hs hpolicy hnext ih =>
    cases e with
    | spawn r =>
      cases hnext
      exact ih
    | step i =>
      simp only [Server.next, Option.bind_eq_bind, Option.bind_eq_some_iff] at hnext
      obtain ⟨⟨r, phase, ℓ⟩, hi, ⟨p', c⟩, hstep, hs'⟩ := hnext
      cases hs'
      cases c with
      | none => exact ih
      | some c =>
        refine List.forall_mem_cons.mpr ⟨?_, ih⟩
        -- only a commit adds to the history
        unfold Proc.step at hstep
        repeat' split at hstep
        all_goals cases hstep
        rename_i hphase
        exact (hs.serial hcode).others_free hs.released hi (congrArg Phase.isRunning hphase)
    | abort i =>
      simp only [Server.next, Option.bind_eq_bind, Option.bind_eq_some_iff] at hnext
      obtain ⟨p, -, p', -, hs'⟩ := hnext
      cases hs'
      exact ih

/-- **A request served by an idle server** ends with the outcome of its program. -/
theorem Server.exists_serve {policy : Policy Row A Q E V R} {db₀ : Store Row}
    (h : Reachable code policy db₀ s) (hidle : s.Idle) (r : R) :
    ∃ n s' ℓ, s.serve code r n = some s' ∧ s'.db = ((code r).alone s.db).2 ∧
      s'.procs = s.procs ++ [⟨r, .ofResult ((code r).alone s.db).1, ℓ⟩] := by
  have hnext : s.next code (.spawn r) =
      some { s with procs := s.procs ++ [⟨r, .running (code r), {}⟩] } := rfl
  have hfree : ∀ L ∈ Server.others { s with procs := s.procs ++ [⟨r, .running (code r), {}⟩] }
      s.procs.length, L = [] := by
    intro L hL
    rw [Server.others, List.eraseIdx_append_of_length_le le_rfl, Nat.sub_self, List.eraseIdx_zero,
      List.tail_cons, List.append_nil] at hL
    obtain ⟨p, hp, rfl⟩ := List.mem_map.mp hL
    exact h.released p hp (hidle p hp)
  have hfinishes : Server.Finishes code _ _ r _ _ :=
    Server.finishes (code r) List.getElem?_concat_length hfree
  obtain ⟨n, s', ℓ, hrun, hdb, -, hprocs⟩ := hfinishes
  refine ⟨n, s', ℓ, ?_, hdb, ?_⟩
  · rw [Server.serve, if_pos hidle, Server.run, hnext, Option.bind_some, hrun]
  · rw [hprocs, List.set_append_right _ _ le_rfl, Nat.sub_self]
    rfl

end Serve

end ReadCommitted
